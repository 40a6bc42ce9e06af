import ClassScript.Decimal.Arithmetic
import ClassScript.Store.Basic

/-!
# Operators on values

Both operands of an operator must be of the same kind. Numbers have arithmetic and order, integers
also shifts, strings concatenation, truth values conjunction and disjunction, characters order;
equality is defined on every kind. Arithmetic on `int` and `decimal` is exact or overflows, and
dividing any number by zero is refused.
-/

namespace ClassScript.Store

/-- The operands have no such operator. -/
def invalid (st : Store) (op : BinaryOp) (a b : Value) : Cause :=
  .invalidOperation op (st.typeOf a) (st.typeOf b)

def orOverflow {α : Type} (make : α → Value) : Option α → Except Cause Value
  | some result => .ok (make result)
  | none => .error .overflow

/-- What an arithmetic operator does on each kind of number. -/
structure Arithmetic where
  onInt : Int64 → Int64 → Option Int64
  onFloat : Float32 → Float32 → Float32
  onDouble : Float → Float → Float
  onDecimal : Decimal → Decimal → Option Decimal

def addition : Arithmetic where
  onInt := Word.add?
  onFloat := (· + ·)
  onDouble := (· + ·)
  onDecimal := Decimal.add?

def subtraction : Arithmetic where
  onInt := Word.sub?
  onFloat := (· - ·)
  onDouble := (· - ·)
  onDecimal := Decimal.sub?

def multiplication : Arithmetic where
  onInt := Word.mul?
  onFloat := (· * ·)
  onDouble := (· * ·)
  onDecimal := Decimal.mul?

def division : Arithmetic where
  onInt := Word.div?
  onFloat := (· / ·)
  onDouble := (· / ·)
  onDecimal := Decimal.div?

def remainder : Arithmetic where
  onInt := Word.rem?
  onFloat := Floating.singleRemainder
  onDouble := Floating.doubleRemainder
  onDecimal := Decimal.rem?

def arithmetic (st : Store) (op : BinaryOp) (ops : Arithmetic) (a b : Value) :
    Except Cause Value :=
  match a, b with
  | .int a, .int b => orOverflow .int (ops.onInt a b)
  | .float a, .float b => .ok (.float (ops.onFloat a b))
  | .double a, .double b => .ok (.double (ops.onDouble a b))
  | .decimal a, .decimal b => orOverflow .decimal (ops.onDecimal a b)
  | _, _ => .error (st.invalid op a b)

/-- Adds numbers and joins strings. -/
def add (st : Store) (a b : Value) : Except Cause Value :=
  match a, b with
  | .string a, .string b => .ok (.string (a ++ b))
  | _, _ => st.arithmetic .add addition a b

def multiply (st : Store) (a b : Value) : Except Cause Value :=
  st.arithmetic .multiply multiplication a b

/-- Arithmetic that needs a divisor other than zero. -/
def dividing (st : Store) (op : BinaryOp) (ops : Arithmetic) (a b : Value) : Except Cause Value :=
  if a.sameKind b && b.isZero then .error .divisionByZero else st.arithmetic op ops a b

/-- The order of two floating numbers; a `NaN` has none. -/
def order? {α : Type} [LT α] [DecidableRel ((· < ·) : α → α → Prop)] [BEq α] (a b : α) :
    Option Ordering :=
  if a < b then some .lt
  else if b < a then some .gt
  else if a == b then some .eq
  else none

/-- Compares two values and tests the order found; values without an order pass no test. -/
def comparison (st : Store) (op : BinaryOp) (test : Ordering → Bool) (a b : Value) :
    Except Cause Value :=
  let answer (order : Option Ordering) : Except Cause Value :=
    .ok (.bool ((order.map test).getD false))
  match a, b with
  | .int a, .int b => answer (some (compare a.toInt b.toInt))
  | .float a, .float b => answer (order? a b)
  | .double a, .double b => answer (order? a b)
  | .decimal a, .decimal b => answer (some (a.compare b))
  | .char a, .char b => answer (some (compare a.toNat b.toNat))
  | _, _ => .error (st.invalid op a b)

def equality (st : Store) (op : BinaryOp) (test : Bool → Bool) (a b : Value) :
    Except Cause Value :=
  if a.sameKind b then .ok (.bool (test (a.same b))) else .error (st.invalid op a b)

def equals (st : Store) (a b : Value) : Except Cause Value := st.equality .equal id a b

def logical (st : Store) (op : BinaryOp) (combine : Bool → Bool → Bool) (a b : Value) :
    Except Cause Value :=
  match a, b with
  | .bool a, .bool b => .ok (.bool (combine a b))
  | _, _ => .error (st.invalid op a b)

def shift (st : Store) (op : BinaryOp) (shifted : Int64 → Int64 → Int64) (a b : Value) :
    Except Cause Value :=
  match a, b with
  | .int a, .int b => .ok (.int (shifted a b))
  | _, _ => .error (st.invalid op a b)

/-- Applies a binary operator to two values. -/
def applyBinary (st : Store) (op : BinaryOp) (a b : Value) : Except Cause Value :=
  match op with
  | .add => st.add a b
  | .subtract => st.arithmetic .subtract subtraction a b
  | .multiply => st.multiply a b
  | .divide => st.dividing .divide division a b
  | .modulo => st.dividing .modulo remainder a b
  | .less => st.comparison .less (·.isLT) a b
  | .lessEqual => st.comparison .lessEqual (·.isLE) a b
  | .greater => st.comparison .greater (·.isGT) a b
  | .greaterEqual => st.comparison .greaterEqual (·.isGE) a b
  | .equal => st.equals a b
  | .notEqual => st.equality .notEqual not a b
  | .and => st.logical .and (· && ·) a b
  | .or => st.logical .or (· || ·) a b
  | .shiftLeft => st.shift .shiftLeft Word.shiftLeft a b
  | .shiftRight => st.shift .shiftRight Word.shiftRight a b
  | .shiftRightLogical => st.shift .shiftRightLogical Word.shiftRightLogical a b

/-- Minus one, of the kind of the value. What is no number is multiplied by an `int`. -/
def minusOneLike : Value → Value
  | .float _ => .float (-1)
  | .double _ => .double (-1)
  | .decimal _ => .decimal .minusOne
  | _ => .int (-1)

/-- Applies a unary operator: negation multiplies by minus one, `!` compares with `true`. -/
def applyUnary (st : Store) (op : UnaryOp) (a : Value) : Except Cause Value :=
  match op with
  | .negate => st.multiply a (minusOneLike a)
  | .not => st.equality .notEqual not a (.bool true)

/-! ## Conditions, indices and lengths -/

def asBool (st : Store) : Value → Except Cause Bool
  | .bool b => .ok b
  | value => .error (.expectedBoolean (st.typeOf value))

def asInt (st : Store) : Value → Except Cause Int64
  | .int n => .ok n
  | value => .error (.typeMismatch .int (st.typeOf value))

/-- The position of an index in a sequence of this length. -/
def position (index : Int64) (length : Nat) : Except Cause Nat :=
  match Word.position? index length with
  | some position => .ok position
  | none => .error (.indexOutOfBounds index length)

/-- The number of items of an array of this size. -/
def itemCount (size : Int64) : Except Cause Nat :=
  match Word.size? size with
  | some count => .ok count
  | none => .error (.negativeArraySize size)

def lengthValue (length : Nat) : Except Cause Value := orOverflow .int (Word.ofLength? length)

/-- The number of items of an array, or of characters of a string. -/
def length (st : Store) : Value → Except Cause Value
  | .array id => lengthValue (st.arrayCell id).items.size
  | .string text => lengthValue text.length
  | value => .error (.invalidMemberTarget (st.typeOf value) "length")

/-- An item of an array, or a character of a string. -/
def item (st : Store) (value : Value) (index : Int64) : Except Cause Value :=
  match value with
  | .array id => do
    let items := (st.arrayCell id).items
    let p ← position index items.size
    .ok (items[p]?.getD .void)
  | .string text => do
    let p ← position index text.length
    .ok (.char (text.toList[p]?.getD '\x00'))
  | value => .error (.notIndexable (st.typeOf value))

/-- The cell and the position that an assignment to an item writes to, if it may. -/
def itemTarget (st : Store) (value : Value) (index : Int64) (new : Value) :
    Except Cause (ArrayId × Nat) :=
  match value with
  | .array id => do
    let cell := st.arrayCell id
    st.check cell.element new
    let p ← position index cell.items.size
    .ok (id, p)
  | value => .error (.notIndexable (st.typeOf value))

/-- Replaces an item of an array. -/
def setItem (st : Store) (value : Value) (index : Int64) (new : Value) : Except Cause Store := do
  let (id, p) ← st.itemTarget value index new
  .ok (st.putItem id p new)

end ClassScript.Store
