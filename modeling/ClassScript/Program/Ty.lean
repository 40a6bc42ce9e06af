/-!
# Types

The types a program can write: eight primitive ones, arrays of any depth, and classes by name. A
class name may be a dotted path.
-/

namespace ClassScript

inductive Ty where
  | int
  | float
  | double
  | decimal
  | bool
  | string
  | char
  | void
  | array (element : Ty)
  | named (className : String)
  deriving DecidableEq, Inhabited

namespace Ty

/-- The type that a name stands for: a primitive type, or the class of that name. -/
def ofName (name : String) : Ty :=
  match name with
  | "int" => .int
  | "float" => .float
  | "double" => .double
  | "decimal" => .decimal
  | "bool" | "boolean" => .bool
  | "string" => .string
  | "char" => .char
  | "void" => .void
  | _ => .named name

/-- The names that `ofName` reads as primitive types. -/
def primitiveNames : List String :=
  ["int", "float", "double", "decimal", "bool", "boolean", "string", "char", "void"]

def isPrimitiveName (name : String) : Bool :=
  primitiveNames.contains name

/-- The type of the items of an array type. -/
def element? : Ty → Option Ty
  | .array element => some element
  | _ => none

/-- The type as a program writes it. -/
def text : Ty → String
  | .int => "int"
  | .float => "float"
  | .double => "double"
  | .decimal => "decimal"
  | .bool => "bool"
  | .string => "string"
  | .char => "char"
  | .void => "void"
  | .array element => element.text ++ "[]"
  | .named className => className

end Ty

end ClassScript
