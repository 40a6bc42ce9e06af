import ClassScript.Numeral

/-!
# Binary interchange formats

A format of `precision` fraction bits writes a finite number as `± m * 2 ^ q` with
`m < 2 ^ (precision + 1)` and `q` at least the format's least exponent. The functions here work on
bit patterns given as natural numbers, so everything is exact: reading the number that a pattern
stands for, and the pattern nearest to a given fraction.
-/

namespace ClassScript.Floating

/-- The shape of a binary interchange format. -/
structure Format where
  /-- Bits of the fraction, without the hidden leading bit. -/
  precision : Nat
  /-- Bits of the exponent field. -/
  exponentBits : Nat

def binary32 : Format := ⟨23, 8⟩

def binary64 : Format := ⟨52, 11⟩

/-- What a bit pattern stands for; a finite number is `± m * 2 ^ q`. -/
inductive Datum where
  | nan
  | infinite (negative : Bool)
  | finite (negative : Bool) (m : Nat) (q : Int)

namespace Format

/-- The exponent of the smallest numbers. -/
def leastExponent (f : Format) : Int :=
  2 - (twoTo (f.exponentBits - 1) : Nat) - f.precision

/-- The pattern of positive infinity, which is also the number of patterns below it. -/
def infinityBits (f : Format) : Nat :=
  (twoTo f.exponentBits - 1) * twoTo f.precision

def signBit (f : Format) : Nat := twoTo (f.exponentBits + f.precision)

def nanBits (f : Format) : Nat := f.infinityBits + twoTo (f.precision - 1)

def decode (f : Format) (bits : Nat) : Datum :=
  let negative := f.signBit ≤ bits
  let magnitude := bits % f.signBit
  let fraction := magnitude % twoTo f.precision
  let field := magnitude / twoTo f.precision
  if magnitude = f.infinityBits then .infinite negative
  else if f.infinityBits < magnitude then .nan
  else if field = 0 then .finite negative fraction f.leastExponent
  else .finite negative (twoTo f.precision + fraction) (f.leastExponent + (field - 1 : Nat))

/-- Puts the sign on a pattern. -/
def signed (f : Format) (negative : Bool) (magnitude : Nat) : Nat :=
  if negative then f.signBit + magnitude else magnitude

/-- The exponent `e` with `2 ^ e ≤ num / den < 2 ^ (e + 1)`. -/
def binaryExponent (num den : Nat) : Int :=
  let guess : Int := (num.log2 : Int) - den.log2
  if den * twoTo guess.toNat ≤ num * twoTo (-guess).toNat then guess else guess - 1

/-- The pattern of the number nearest to the fraction `num / den`, a half going to the even
pattern; what is too large becomes infinite. -/
def ofFraction (f : Format) (num den : Nat) : Nat :=
  if num = 0 then 0
  else
    let q := max (binaryExponent num den - f.precision) f.leastExponent
    let m := nearestQuotient (num * twoTo (-q).toNat) (den * twoTo q.toNat)
    min ((q - f.leastExponent).toNat * twoTo f.precision + m) f.infinityBits

/-- The pattern of `digits * 10 ^ exponent`, rounded to nearest. -/
def ofScientific (f : Format) (digits : Nat) (exponent : Int) : Nat :=
  f.ofFraction (digits * tenTo exponent.toNat) (tenTo (-exponent).toNat)

/-- The remainder of two finite numbers after division toward zero. It is exact and has the sign
of the dividend. -/
def remainder (f : Format) (x y : Nat) : Nat :=
  match f.decode x, f.decode y with
  | .finite negative m q, .finite _ n p =>
    if n = 0 then f.nanBits
    else
      let least := min q p
      let r := m * twoTo (q - least).toNat % (n * twoTo (p - least).toNat)
      f.signed negative (f.ofFraction (r * twoTo least.toNat) (twoTo (-least).toNat))
  | .finite _ _ _, .infinite _ => x
  | _, _ => f.nanBits

end Format

end ClassScript.Floating
