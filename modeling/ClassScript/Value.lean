import ClassScript.Program.Expr

/-!
# Values

Arrays and objects are shared: a value only names the cell that holds them, and two such values are
equal when they name the same cell. The cells are in the store.
-/

namespace ClassScript

/-- The number of an array cell. -/
abbrev ArrayId := Nat

/-- The number of an object cell. -/
abbrev ObjectId := Nat

/-- The number of a class. -/
abbrev ClassId := Nat

inductive Value where
  | int (value : Int64)
  | float (value : Float32)
  | double (value : Float)
  | decimal (value : Decimal)
  | bool (value : Bool)
  | string (value : String)
  | char (value : Char)
  | array (id : ArrayId)
  | object (id : ObjectId)
  | void
  deriving Inhabited

namespace Value

def ofLiteral : Literal → Value
  | .int value => .int value
  | .float value => .float value
  | .double value => .double value
  | .decimal value => .decimal value
  | .bool value => .bool value
  | .string value => .string value
  | .char value => .char value

/-- The value of a variable of this type that was given none. Arrays and objects start as `void`. -/
def defaultFor : Ty → Value
  | .int => .int 0
  | .float => .float 0
  | .double => .double 0
  | .decimal => .decimal .zero
  | .bool => .bool false
  | .string => .string ""
  | .char => .char '\x00'
  | .void | .array _ | .named _ => .void

/-- Two values are of the same kind: both `int`, both arrays, and so on. -/
def sameKind : Value → Value → Bool
  | .int _, .int _ | .float _, .float _ | .double _, .double _ | .decimal _, .decimal _
  | .bool _, .bool _ | .string _, .string _ | .char _, .char _ | .array _, .array _
  | .object _, .object _ | .void, .void => true
  | _, _ => false

/-- Equality of values: by number, by text, and by identity for arrays and objects. A floating
`NaN` differs from itself. -/
def same : Value → Value → Bool
  | .int a, .int b => a == b
  | .float a, .float b => a == b
  | .double a, .double b => a == b
  | .decimal a, .decimal b => a.same b
  | .bool a, .bool b => a == b
  | .string a, .string b => a == b
  | .char a, .char b => a == b
  | .array a, .array b => a == b
  | .object a, .object b => a == b
  | .void, .void => true
  | _, _ => false

/-- A number that is zero. -/
def isZero : Value → Bool
  | .int a => a == 0
  | .float a => a == 0
  | .double a => a == 0
  | .decimal a => a.isZero
  | _ => false

end Value

end ClassScript
