import ClassScript.Numeral

/-!
# Long division by words

The remainder of a long number by a divisor of three words of 32 bits, worked out from the leading
word of the dividend down. A digit of the quotient is estimated from leading words and is a word
itself. While the remainder so far leads with a smaller word than the divisor the estimate is at
most too large by a little, which is put right. When the two lead with the same word the estimate
loses its high bits, and what is left is not the true remainder.
-/

namespace ClassScript.Decimal

/-- The `count` low words of `n`, the most significant first. -/
def words : Nat → Nat → List Nat
  | 0, _ => []
  | count + 1, n => words count (n / twoTo 32) ++ [n % twoTo 32]

/-- Takes the estimated multiple of `divisor`, a number of exactly 96 bits, away from `current`. An
estimate that is too large is put right by giving the divisor back until nothing is owed. -/
def takeMultiple (divisor current : Nat) : Nat :=
  let lead := divisor / twoTo 64
  let top := current / twoTo 64
  if top < lead then current
  else
    let digit := top / lead % twoTo 32
    let kept := (top - digit * lead) % twoTo 32 * twoTo 64 + current % twoTo 64
    let owed := digit * (divisor % twoTo 64)
    if owed ≤ kept then kept - owed else (((kept : Int) - owed) % divisor).toNat

/-- What long division of `x` by `y` leaves. The divisor has 65 to 96 bits and is first shifted to
96, and the dividend with it, which then has at most seven words. -/
def longRemainder (x y : Nat) : Nat :=
  let shift := twoTo (95 - y.log2)
  let bringDown := fun rest word => takeMultiple (y * shift) (rest * twoTo 32 + word)
  (words 7 (x * shift)).foldl bringDown 0 / shift

end ClassScript.Decimal
