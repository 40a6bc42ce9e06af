/-!
# Checked 64-bit integers

Arithmetic on `int` is exact or refused: an operation answers `none` when the mathematical result
does not fit in 64 bits. Shifts never fail, because they use only the low six bits of the count.
-/

namespace ClassScript.Word

/-- The word that stands for `z`, if `z` fits in 64 bits. -/
def ofInt? (z : Int) : Option Int64 :=
  if Int64.minValue.toInt ≤ z ∧ z ≤ Int64.maxValue.toInt then some (Int64.ofInt z) else none

def add? (a b : Int64) : Option Int64 := ofInt? (a.toInt + b.toInt)

def sub? (a b : Int64) : Option Int64 := ofInt? (a.toInt - b.toInt)

def mul? (a b : Int64) : Option Int64 := ofInt? (a.toInt * b.toInt)

/-- The quotient rounded toward zero. The divisor is not zero. -/
def div? (a b : Int64) : Option Int64 := ofInt? (a.toInt.tdiv b.toInt)

/-- The remainder, with the sign of the dividend. It is refused together with the quotient: when
the quotient does not fit, neither is the remainder given. -/
def rem? (a b : Int64) : Option Int64 := do
  let _ ← div? a b
  ofInt? (a.toInt.tmod b.toInt)

/-- The number of places to shift by: the count modulo 64. -/
def shiftCount (count : Int64) : Int64 := count &&& 63

def shiftLeft (a count : Int64) : Int64 := a <<< shiftCount count

/-- Shifts right and fills with the sign. -/
def shiftRight (a count : Int64) : Int64 := a >>> shiftCount count

/-- Shifts right and fills with zeros. -/
def shiftRightLogical (a count : Int64) : Int64 :=
  (a.toUInt64 >>> (shiftCount count).toUInt64).toInt64

/-- The position that an index names in a sequence of `length` items. -/
def position? (index : Int64) (length : Nat) : Option Nat :=
  if 0 ≤ index.toInt ∧ index.toInt.toNat < length then some index.toInt.toNat else none

/-- The number of items that a size asks for; a negative size asks for none. -/
def size? (size : Int64) : Option Nat :=
  if 0 ≤ size.toInt then some size.toInt.toNat else none

/-- The word that counts `n` items. -/
def ofLength? (n : Nat) : Option Int64 := ofInt? n

end ClassScript.Word
