import ClassScript.Floating.Format

/-!
# Shortest decimals

The shortest decimal of a binary number is the one with the fewest digits that reads back as that
number; among those of equal length it is the nearest, and of two equally near the larger.

For each number of digits, the two neighbours of the number on that decimal grid are tested against
the interval of reals that round to it. If any point of the grid lies in the interval then so does
one of these two, so the first grid with a hit has the fewest digits.
-/

namespace ClassScript.Floating

/-- The decimal `0.d₁d₂… * 10 ^ point`, with digits most significant first. -/
structure Digits where
  digits : List Char
  point : Int

/-- The reals that round to a number, in units of `2 ^ unit`. -/
structure Interval where
  lower : Nat
  value : Nat
  upper : Nat
  closed : Bool
  unit : Int

/-- The interval around `m * 2 ^ q`. Below a power of two the numbers lie twice as dense, so there
the lower half is shorter; the ends belong to it when `m` is even. -/
def Format.interval (f : Format) (m : Nat) (q : Int) : Interval where
  lower := if m = twoTo f.precision ∧ f.leastExponent < q then 4 * m - 1 else 4 * m - 2
  value := 4 * m
  upper := 4 * m + 2
  closed := m % 2 == 0
  unit := q - 2

namespace Interval

/-- Compares the decimal `t * 10 ^ grid` with `x` units. -/
def compareUnits (i : Interval) (t : Nat) (grid : Int) (x : Nat) : Ordering :=
  compare (t * tenTo grid.toNat * twoTo (-i.unit).toNat)
    (x * twoTo i.unit.toNat * tenTo (-grid).toNat)

/-- The decimal `t * 10 ^ grid` rounds to the number. -/
def contains (i : Interval) (t : Nat) (grid : Int) : Bool :=
  match i.compareUnits t grid i.lower, i.compareUnits t grid i.upper with
  | .gt, .lt => true
  | .eq, _ => i.closed
  | _, .eq => i.closed
  | _, _ => false

/-- The largest `t` for which `t * 10 ^ grid` is not above the number. -/
def floor (i : Interval) (grid : Int) : Nat :=
  (i.value * twoTo i.unit.toNat * tenTo (-grid).toNat) / (tenTo grid.toNat * twoTo (-i.unit).toNat)

/-- The upper neighbour `t + 1` is at least as near to the number as `t`. -/
def upperIsNearer (i : Interval) (t : Nat) (grid : Int) : Bool :=
  i.compareUnits (2 * t + 1) grid (2 * i.value) != .gt

/-- The better of the two neighbours on the grid, if one of them rounds to the number. -/
def onGrid? (i : Interval) (grid : Int) : Option Nat :=
  let t := i.floor grid
  match i.contains t grid, i.contains (t + 1) grid with
  | true, true => some (if i.upperIsNearer t grid then t + 1 else t)
  | true, false => some t
  | false, true => some (t + 1)
  | false, false => none

/-- Tries finer and finer grids. -/
def search (i : Interval) : Nat → Int → Nat × Int
  | 0, grid => (i.floor grid, grid)
  | tries + 1, grid =>
    match i.onGrid? grid with
    | some t => (t, grid)
    | none => i.search tries (grid - 1)

/-- An exponent of ten above the number: `value < 10 ^ ceiling`. -/
def ceiling (i : Interval) : Int :=
  ((i.value.log2 : Int) + 1 + i.unit) * 30103 / 100000 + 1

end Interval

/-- Drops the zeros at the end of a list of digits. -/
def dropTrailingZeros (digits : List Char) : List Char :=
  (digits.reverse.dropWhile (· == '0')).reverse

/-- The shortest decimal of the positive number `m * 2 ^ q`. -/
def Format.shortest (f : Format) (m : Nat) (q : Int) : Digits :=
  let i := f.interval m q
  let (t, grid) := i.search 20 i.ceiling
  let digits := Nat.toDigits 10 t
  { digits := dropTrailingZeros digits, point := grid + digits.length }

end ClassScript.Floating
