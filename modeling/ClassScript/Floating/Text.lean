import ClassScript.Floating.Shortest

/-!
# Floating-point text

Numbers are written with their shortest decimals, always positionally: no exponent, and no point
for whole numbers. In listings of a program they are written so that they look fractional, and with
an exponent when they are very large or very small.
-/

namespace ClassScript.Floating

/-- Writes the digits positionally. -/
def Digits.positional (d : Digits) : List Char :=
  let count : Int := d.digits.length
  if d.point ≤ 0 then '0' :: '.' :: (List.replicate (-d.point).toNat '0' ++ d.digits)
  else if count ≤ d.point then d.digits ++ List.replicate (d.point - count).toNat '0'
  else d.digits.take d.point.toNat ++ '.' :: d.digits.drop d.point.toNat

/-- Writes one digit before the point and the power of ten after an `e`. -/
def Digits.scientific (d : Digits) : List Char :=
  let exponent := (toString (d.point - 1)).toList
  match d.digits with
  | [] => '0' :: 'e' :: exponent
  | [digit] => digit :: 'e' :: exponent
  | digit :: rest => digit :: '.' :: (rest ++ 'e' :: exponent)

/-- Writes positionally and keeps at least one place after the point. -/
def Digits.fractional (d : Digits) : List Char :=
  if d.digits.length ≤ d.point then d.positional ++ ['.', '0'] else d.positional

namespace Format

/-- Writes a number: `finite` writes the digits, `zero` stands for a zero. -/
def render (f : Format) (finite : Digits → List Char) (zero : String) (bits : Nat) : String :=
  match f.decode bits with
  | .nan => "NaN"
  | .infinite negative => if negative then "-inf" else "inf"
  | .finite negative m q =>
    let sign := if negative then "-" else ""
    sign ++ if m = 0 then zero else String.ofList (finite (f.shortest m q))

/-- The text of a number as a value. -/
def text (f : Format) (bits : Nat) : String :=
  f.render Digits.positional "0" bits

/-- The text of a number in a listing: with an exponent below `10 ^ -4` and from `10 ^ 16` on. -/
def listing (f : Format) (bits : Nat) : String :=
  let finite (d : Digits) := if d.point ≤ -4 ∨ 16 < d.point then d.scientific else d.fractional
  f.render finite "0.0" bits

/-- Reads digits, an optional fraction and an optional exponent. -/
def readUnsigned? (f : Format) (cs : List Char) : Option Nat := do
  let whole := cs.takeWhile Char.isDigit
  let cs := cs.dropWhile Char.isDigit
  let (places, cs) := match cs with
    | '.' :: cs => (cs.takeWhile Char.isDigit, cs.dropWhile Char.isDigit)
    | cs => ([], cs)
  let digits := whole ++ places
  guard (digits ≠ [])
  let value := digitsValue digits
  let exponent ← match cs with
    | [] => some 0
    | mark :: cs => do
      guard (mark = 'e' ∨ mark = 'E')
      let cs := match cs with
        | '+' :: cs => cs
        | cs => cs
      (String.ofList cs).toInt?
  let exponent := exponent - places.length
  -- The number is below `10 ^ magnitude` and at least a tenth of it. Beyond these bounds every
  -- number is zero or infinite.
  let magnitude := exponent + (digits.dropWhile (· == '0')).length
  if value = 0 then some 0
  else if magnitude < -400 then some 0
  else if 400 < magnitude then some f.infinityBits
  else some (f.ofScientific value exponent)

/-- Reads a number written in decimal, `inf` or `NaN`, with an optional sign. -/
def read? (f : Format) (text : String) : Option Nat :=
  let unsigned? (cs : List Char) : Option Nat :=
    match String.ofList (cs.map Char.toLower) with
    | "inf" | "infinity" => some f.infinityBits
    | "nan" => some f.nanBits
    | _ => f.readUnsigned? cs
  match text.toList with
  | '-' :: cs => (unsigned? cs).map (f.signed true)
  | '+' :: cs => unsigned? cs
  | cs => unsigned? cs

end Format

def singleText (x : Float32) : String := binary32.text x.toBits.toNat

def doubleText (x : Float) : String := binary64.text x.toBits.toNat

def singleListing (x : Float32) : String := binary32.listing x.toBits.toNat

def doubleListing (x : Float) : String := binary64.listing x.toBits.toNat

def single (bits : Nat) : Float32 := Float32.ofBits bits.toUInt32

def double (bits : Nat) : Float := Float.ofBits bits.toUInt64

def singleRemainder (x y : Float32) : Float32 :=
  single (binary32.remainder x.toBits.toNat y.toBits.toNat)

def doubleRemainder (x y : Float) : Float :=
  double (binary64.remainder x.toBits.toNat y.toBits.toNat)

/-- The number written with the digits `whole`, a point and the digits `places`. -/
def Format.ofPlaces (f : Format) (whole places : List Char) : Nat :=
  let value := digitsValue (whole ++ places)
  f.ofScientific value (-(places.length : Int))

end ClassScript.Floating
