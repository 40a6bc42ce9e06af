import ClassScript.Fault.Basic
import ClassScript.Program.Statement
import ClassScript.Table

/-!
# Classes

What the store knows about a class. The tables of fields and methods are flattened: they hold the
inherited members too, each with the name of the class that declared it. The values of static
fields are kept only in the class that declared them.
-/

namespace ClassScript

/-- Where the initial value of a field comes from. -/
inductive FieldInit where
  | declared (decl : VariableDecl)
  | value (value : Value)

structure FieldInfo where
  name : String
  ty : Ty
  access : Access
  isStatic : Bool
  isConst : Bool
  accessors : Accessors
  /-- The class that declared the field. -/
  owner : String
  init : FieldInit

/-- A method supplied by the host. It may ask for the types of values, and its failure is reported
on the line of the call. It is a function of these types and of its arguments: it keeps no state
from one call to the next, and it writes to no array and to no object, not even to one that it is
given. Host code that does so is outside this model. -/
abbrev NativeMethod : Type := (Value → Ty) → List Value → Except Cause Value

inductive MethodBody where
  | user (decl : FunctionDecl)
  | native (run : NativeMethod)
  | abstract

structure MethodInfo where
  name : String
  access : Access
  isStatic : Bool
  modifier : MethodModifier
  params : List Param
  returnType : Ty
  /-- The class that declared the method. -/
  owner : String
  body : MethodBody

structure ConstructorInfo where
  decl : ConstructorDecl
  /-- The class that declared the constructor. -/
  owner : String

structure ClassInfo where
  name : String
  fields : Table FieldInfo
  methods : Table MethodInfo
  constructor : Option ConstructorInfo
  isStatic : Bool
  isInterface : Bool
  implements : List String
  /-- The parent class, its parent, and so on. -/
  ancestors : List ClassId
  /-- The values of the static fields that this class declared. -/
  statics : Table Value

namespace ClassInfo

/-- A class without members and ancestors. -/
def blank (name : String) : ClassInfo where
  name := name
  fields := .empty
  methods := .empty
  constructor := none
  isStatic := false
  isInterface := false
  implements := []
  ancestors := []
  statics := .empty

def parent? (c : ClassInfo) : Option ClassId := c.ancestors.head?

/-- Adds a public static constant of type `ty`. -/
def withConstant (c : ClassInfo) (name : String) (ty : Ty) (value : Value) : ClassInfo :=
  let field : FieldInfo :=
    { name, ty, access := .everyone, isStatic := true, isConst := true,
      accessors := { getter := false, setter := false }, owner := c.name, init := .value value }
  { c with fields := c.fields.insert name field, statics := c.statics.insert name value }

end ClassInfo

end ClassScript
