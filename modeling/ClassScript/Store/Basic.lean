import ClassScript.Store.Class
import ClassScript.Word

/-!
# The store

The store holds the cells of arrays and objects and the classes. Cells and classes are only ever
added; an array keeps its element type and its number of items, an object its class.
-/

namespace ClassScript

structure ArrayCell where
  element : Ty
  items : Array Value
  deriving Inhabited

structure ObjectCell where
  cls : ClassId
  fields : Table Value
  deriving Inhabited

structure Store where
  arrays : Array ArrayCell
  objects : Array ObjectCell
  classes : Array ClassInfo
  /-- The declared classes by name. A class of the host's values may be undeclared. -/
  classNames : Table ClassId

namespace Store

def empty : Store where
  arrays := #[]
  objects := #[]
  classes := #[]
  classNames := .empty

instance : Inhabited Store := ⟨empty⟩

/-! ## Classes -/

def classInfo (st : Store) (cls : ClassId) : ClassInfo :=
  st.classes[cls]?.getD (.blank "")

def className (st : Store) (cls : ClassId) : String := (st.classInfo cls).name

def findClass? (st : Store) (name : String) : Option ClassId := st.classNames.find? name

def getClass (st : Store) (name : String) : Except Cause ClassId :=
  match st.findClass? name with
  | some cls => .ok cls
  | none => .error (.unknownClass name)

/-- Adds a class without a name in the table of classes. -/
def addClass (st : Store) (info : ClassInfo) : ClassId × Store :=
  (st.classes.size, { st with classes := st.classes.push info })

/-- Adds a class under its name. -/
def enrollClass (st : Store) (info : ClassInfo) : ClassId × Store :=
  let id := st.classes.size
  (id, { st with classes := st.classes.push info, classNames := st.classNames.insert info.name id })

/-- No declared class has this name. -/
def checkClassName (st : Store) (name : String) : Except Cause Unit :=
  if st.classNames.contains name then .error (.classAlreadyDeclared name) else .ok ()

/-- Adds a class under its name, which must be free. -/
def declareClass (st : Store) (info : ClassInfo) : Except Cause (ClassId × Store) := do
  st.checkClassName info.name
  .ok (st.enrollClass info)

/-- The class and its ancestors, nearest first. -/
def lineage (st : Store) (cls : ClassId) : List ClassId :=
  cls :: (st.classInfo cls).ancestors

/-- The class is, extends or implements the one called `name`. -/
def isA (st : Store) (cls : ClassId) (name : String) : Bool :=
  (st.lineage cls).any fun c =>
    let info := st.classInfo c
    info.name == name || info.implements.contains name

/-- The nearest class of the lineage that holds a static value called `name`. -/
def staticHolder? (st : Store) (cls : ClassId) (name : String) : Option ClassId :=
  (st.lineage cls).find? fun c => (st.classInfo c).statics.contains name

def staticValue? (st : Store) (cls : ClassId) (name : String) : Option Value := do
  let holder ← st.staticHolder? cls name
  (st.classInfo holder).statics.find? name

/-- Puts a static value into the class itself. -/
def putStatic (st : Store) (cls : ClassId) (name : String) (value : Value) : Store :=
  { st with
    classes := st.classes.modify cls fun c => { c with statics := c.statics.insert name value } }

/-- Replaces a static value where the lineage holds it; `none` if it holds none. -/
def setStatic? (st : Store) (cls : ClassId) (name : String) (value : Value) : Option Store :=
  (st.staticHolder? cls name).map fun holder => st.putStatic holder name value

/-! ## Arrays and objects -/

def newArray (st : Store) (element : Ty) (items : Array Value) : Value × Store :=
  (.array st.arrays.size, { st with arrays := st.arrays.push { element, items } })

/-- A new object without fields. -/
def newObject (st : Store) (cls : ClassId) : ObjectId × Store :=
  (st.objects.size, { st with objects := st.objects.push { cls, fields := .empty } })

def arrayCell (st : Store) (id : ArrayId) : ArrayCell := st.arrays[id]?.getD default

def objectCell (st : Store) (id : ObjectId) : ObjectCell := st.objects[id]?.getD default

def putItem (st : Store) (id : ArrayId) (position : Nat) (value : Value) : Store :=
  { st with
    arrays := st.arrays.modify id fun a =>
      { a with items := a.items.setIfInBounds position value } }

def putField (st : Store) (id : ObjectId) (name : String) (value : Value) : Store :=
  { st with
    objects := st.objects.modify id fun o => { o with fields := o.fields.insert name value } }

/-! ## Types of values -/

def typeOf (st : Store) : Value → Ty
  | .int _ => .int
  | .float _ => .float
  | .double _ => .double
  | .decimal _ => .decimal
  | .bool _ => .bool
  | .string _ => .string
  | .char _ => .char
  | .array id => .array (st.arrayCell id).element
  | .object id => .named (st.className (st.objectCell id).cls)
  | .void => .void

/-- A variable of the type may hold the value. Arrays must agree in their element type; objects may
be of a class below; `void` stands for a missing array or object. -/
def accepts (st : Store) : Ty → Value → Bool
  | .int, .int _ | .float, .float _ | .double, .double _ | .decimal, .decimal _
  | .bool, .bool _ | .string, .string _ | .char, .char _ => true
  | .void, .void | .array _, .void | .named _, .void => true
  | .array element, .array id => (st.arrayCell id).element == element
  | .named name, .object id => st.isA (st.objectCell id).cls name
  | _, _ => false

/-- Accepts the value or says which types disagree. -/
def check (st : Store) (ty : Ty) (value : Value) : Except Cause Unit :=
  if st.accepts ty value then .ok () else .error (.typeMismatch ty (st.typeOf value))

/-! ## Text of values -/

/-- The text of a value whose arrays nest at most `depth` deep; `none` if they nest deeper. -/
def textWithin? (st : Store) : Nat → Value → Option String
  | _, .int value => some (toString value.toInt)
  | _, .float value => some (Floating.singleText value)
  | _, .double value => some (Floating.doubleText value)
  | _, .decimal value => some value.text
  | _, .bool value => some (if value then "true" else "false")
  | _, .string value => some value
  | _, .char value => some value.toString
  | _, .object id => some ("<" ++ st.className (st.objectCell id).cls ++ ">")
  | _, .void => some "void"
  | 0, .array _ => none
  | depth + 1, .array id => do
    let items ← (st.arrayCell id).items.toList.mapM fun item => st.textWithin? depth item
    return "[" ++ ", ".intercalate items ++ "]"

/-- The text of a value. No array contains itself, so arrays nest at most as deep as there are
arrays. -/
def text (st : Store) (value : Value) : String :=
  (st.textWithin? st.arrays.size value).getD ""

end Store

end ClassScript
