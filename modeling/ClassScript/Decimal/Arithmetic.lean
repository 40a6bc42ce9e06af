import ClassScript.Decimal.Basic
import ClassScript.Decimal.LongDivision

/-!
# Decimal arithmetic

Sums and products are computed exactly and then fitted: places are dropped, rounding half to even,
until the mantissa is small enough. An operation answers `none` when even the whole part does not
fit. Quotients are developed in steps of up to nine places and then lose trailing zeros in fixed
strides, which is why some quotients keep a zero. Remainders by wide divisors are what long division
by words leaves.
-/

namespace ClassScript.Decimal

/-- The first `k`, counting up from `drop`, whose removal of `k` places makes the mantissa fit. -/
def fitFrom (mantissa scale : Nat) : Nat → Nat → Option (Nat × Nat)
  | 0, _ => none
  | tries + 1, drop =>
    let rounded := nearestQuotient mantissa (tenTo drop)
    if rounded < bound then some (rounded, scale - drop)
    else fitFrom mantissa scale tries (drop + 1)

/-- Drops as few places as possible so that mantissa and scale are within their bounds. -/
def fit (mantissa scale : Nat) : Option (Nat × Nat) :=
  let drop := scale - maxScale
  fitFrom mantissa scale (scale + 1 - drop) drop

/-- The opposite number; a zero stays as it is. -/
def negated (d : Decimal) : Decimal :=
  if d.isZero then d else { d with negative := !d.negative }

def add? (a b : Decimal) : Option Decimal :=
  if a.isZero then some b
  else if b.isZero then some a
  else do
    let scale := max a.scale b.scale
    let sum := a.atScale scale + b.atScale scale
    let (mantissa, scale) ← fit sum.natAbs scale
    some (make (sum < 0) mantissa scale)

def sub? (a b : Decimal) : Option Decimal :=
  a.add? b.negated

/-- A product of two narrow mantissas with too many places is zero, and a zero among such products
is not negative. A product with a wide mantissa keeps its sign even if it rounds to zero. -/
def mul? (a b : Decimal) : Option Decimal :=
  let narrow := a.mantissa < twoTo 32 && b.mantissa < twoTo 32
  if a.isZero || b.isZero then some zero
  else if narrow && 47 < a.scale + b.scale then some zero
  else do
    let negative := a.negative != b.negative
    let (mantissa, scale) ← fit (a.mantissa * b.mantissa) (a.scale + b.scale)
    some (if narrow then make negative mantissa scale else ⟨negative, mantissa, scale⟩)

/-- The largest `p ≤ limit` for which `q * 10 ^ p` is within the bound. -/
def growth (q : Nat) : Nat → Nat
  | 0 => 0
  | limit + 1 => if q * tenTo (limit + 1) < bound then limit + 1 else growth q limit

/-- Develops the quotient `q` with remainder `r` of a division by `divisor` until it is exact or
full. A step that leads past the bound is taken back by one place and ends the development. The
flag says whether places were added, so that zeros may be stripped. -/
def develop (divisor : Nat) : Nat → Int → Nat → Nat → Bool → Option (Int × Nat × Bool)
  | 0, _, _, _, _ => none
  | fuel + 1, scale, q, r, grown =>
    if r = 0 ∧ 0 ≤ scale then some (scale, q, grown)
    else
      let exact := r == 0
      let p := if exact then min 9 (-scale).toNat else growth q (min 9 (28 - scale).toNat)
      if !exact && p == 0 then
        if scale < 0 then none
        else
          let q := if 2 * r > divisor || (2 * r == divisor && q % 2 == 1) then q + 1 else q
          if q = bound then
            if scale = 0 then none else some (scale - 1, nearestQuotient q 10, true)
          else some (scale, q, true)
      else
        let next := q * tenTo p + r * tenTo p / divisor
        let rest := r * tenTo p % divisor
        if bound ≤ next then
          if scale + p ≤ 0 then none
          else some (scale + p - 1, nearestQuotient (next * divisor + rest) (10 * divisor), true)
        else develop divisor fuel (scale + p) next rest (grown || !exact)

/-- Removes eight zeros at a time while the low 32 bits are clear. -/
def stripEights : Nat → Nat → Nat → Nat × Nat
  | 0, q, scale => (q, scale)
  | fuel + 1, q, scale =>
    if q % twoTo 32 == 0 && 8 ≤ scale && q % tenTo 8 == 0 then
      stripEights fuel (q / tenTo 8) (scale - 8)
    else (q, scale)

/-- Removes `width` zeros once, if they are there. -/
def stripOnce (width : Nat) : Nat × Nat → Nat × Nat
  | (q, scale) =>
    if q % tenTo width == 0 && width ≤ scale then (q / tenTo width, scale - width) else (q, scale)

def stripZeros (q scale : Nat) : Nat × Nat :=
  stripOnce 1 (stripOnce 2 (stripOnce 4 (stripEights (scale + 1) q scale)))

/-- The quotient. The divisor is not zero. -/
def div? (a b : Decimal) : Option Decimal :=
  if a.isZero then some zero
  else do
    let start : Int := a.scale - b.scale
    let (scale, q, grown) ←
      develop b.mantissa 64 start (a.mantissa / b.mantissa) (a.mantissa % b.mantissa) false
    let (q, scale) := if grown then stripZeros q scale.toNat else (q, scale.toNat)
    some (make (a.negative != b.negative) q scale)

/-- The remainder, with the sign of the dividend. The divisor is not zero. Up to 64 bits of divisor
the remainder is exact. -/
def rem? (a b : Decimal) : Option Decimal :=
  if a.isZero then some zero
  else
    let scale := max a.scale b.scale
    let x := (a.atScale scale).natAbs
    let y := (b.atScale scale).natAbs
    if x = y then some zero
    else if x < y then some a
    else some (make a.negative (if y < twoTo 64 then x % y else longRemainder x y) scale)

def minusOne : Decimal := ⟨true, 1, 0⟩

end ClassScript.Decimal
