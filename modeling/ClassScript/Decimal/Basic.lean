import ClassScript.Numeral

/-!
# Decimals

A decimal is a sign, a mantissa below 2^96 and a scale of at most 28 places: it stands for
`± mantissa / 10 ^ scale`. The scale belongs to the number, so `1.1` and `1.10` are equal and are
written differently.
-/

namespace ClassScript

/-- The number `± mantissa / 10 ^ scale`. -/
structure Decimal where
  negative : Bool
  mantissa : Nat
  scale : Nat
  deriving DecidableEq, Inhabited

namespace Decimal

/-- Mantissas stay below this bound. -/
def bound : Nat := twoTo 96

/-- The largest scale. -/
def maxScale : Nat := 28

def zero : Decimal := ⟨false, 0, 0⟩

def isZero (d : Decimal) : Bool := d.mantissa == 0

/-- A decimal whose zero is never negative. -/
def make (negative : Bool) (mantissa scale : Nat) : Decimal :=
  ⟨negative && mantissa != 0, mantissa, scale⟩

/-- The signed mantissa that `d` has when it is written with `scale ≥ d.scale` places. -/
def atScale (d : Decimal) (scale : Nat) : Int :=
  let magnitude : Int := (d.mantissa * tenTo (scale - d.scale) : Nat)
  if d.negative then -magnitude else magnitude

/-- Orders decimals by the numbers they stand for, whatever their scales. -/
def compare (a b : Decimal) : Ordering :=
  let scale := max a.scale b.scale
  Ord.compare (a.atScale scale) (b.atScale scale)

/-- Two decimals are the same number. -/
def same (a b : Decimal) : Bool := a.compare b == .eq

/-- The digits of `n`, most significant first, at least `width` of them. -/
def paddedDigits (n width : Nat) : List Char :=
  let digits := Nat.toDigits 10 n
  List.replicate (width - digits.length) '0' ++ digits

/-- Writes exactly as many places as the scale says. -/
def text (d : Decimal) : String :=
  let digits := paddedDigits d.mantissa (d.scale + 1)
  let whole := digits.take (digits.length - d.scale)
  let fraction := digits.drop (digits.length - d.scale)
  let sign := if d.negative then ['-'] else []
  String.ofList (sign ++ whole ++ if d.scale = 0 then [] else '.' :: fraction)

/-! ## Reading -/

/-- Reads places after the point while they fit. The first place that does not fit rounds the
number half up, and those after it are ignored. -/
def readPlaces (mantissa scale : Nat) : List Char → Option Decimal
  | [] => some ⟨false, mantissa, scale⟩
  | c :: rest =>
    let digit := digitValue c
    if scale = maxScale ∨ bound ≤ mantissa * 10 + digit then
      let rounded := if 5 ≤ digit then mantissa + 1 else mantissa
      if rounded < bound then some ⟨false, rounded, scale⟩
      else if scale = 0 then none
      else some ⟨false, (rounded + 4) / 10, scale - 1⟩
    else readPlaces (mantissa * 10 + digit) (scale + 1) rest

/-- Reads the number written with the digits `whole`, a point and the digits `places`; `none` when
it is too large. -/
def ofDigits? (whole places : List Char) : Option Decimal :=
  let mantissa := digitsValue whole
  if mantissa < bound then readPlaces mantissa 0 places else none

end Decimal

end ClassScript
