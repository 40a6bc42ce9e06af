import Mathlib.Algebra.Group.Int.Defs
import Mathlib.Algebra.Group.Nat.Defs
import ClassScript.Word

/-!
# What words compute

Every operation on 64-bit words is described by the integers that the words stand for. Checked
arithmetic gives the exact result wherever it fits. A quotient fits unless the least word is divided
by minus one; a remainder always fits, but is refused together with the quotient. A shift takes its
count modulo 64: to the left it multiplies modulo 2^64, to the right it divides and rounds down.
-/

namespace ClassScript.Word

/-! ## Range -/

/-- The number can be written with 64 bits, one of them for the sign. -/
def Fits (z : Int) : Prop := -2 ^ 63 ≤ z ∧ z < 2 ^ 63

theorem fits_toInt (w : Int64) : Fits w.toInt := ⟨w.le_toInt, w.toInt_lt⟩

theorem toInt_ofInt {z : Int} (h : Fits z) : (Int64.ofInt z).toInt = z :=
  Int64.toInt_ofInt_of_le h.1 h.2

theorem inRange_iff_fits {z : Int} :
    (Int64.minValue.toInt ≤ z ∧ z ≤ Int64.maxValue.toInt) ↔ Fits z := by
  have hmin : Int64.minValue.toInt = -2 ^ 63 := by decide
  have hmax : Int64.maxValue.toInt = 2 ^ 63 - 1 := by decide
  rw [hmin, hmax, Int.le_sub_one_iff, Fits]

theorem ofInt?_eq_none_iff {z : Int} : ofInt? z = none ↔ ¬ Fits z := by
  rw [ofInt?, ← inRange_iff_fits, ite_eq_right_iff]
  exact forall_congr' fun _ => iff_false_intro nofun

theorem ofInt?_eq_some_iff {z : Int} {w : Int64} : ofInt? z = some w ↔ w.toInt = z := by
  constructor
  · intro h
    have hfits : Fits z := by
      refine Classical.not_not.mp fun hnot => ?_
      rw [ofInt?_eq_none_iff.mpr hnot] at h
      cases h
    rw [ofInt?, if_pos (inRange_iff_fits.mpr hfits)] at h
    rw [← Option.some.inj h, toInt_ofInt hfits]
  · rintro rfl
    rw [ofInt?, if_pos (inRange_iff_fits.mpr (fits_toInt w)), Int64.ofInt_toInt]

/-- The opposite of the opposite is the number again. -/
theorem sub?_zero_opposite {value opposite : Int64} (h : sub? 0 value = some opposite) :
    sub? 0 opposite = some value := by
  have hopposite : opposite.toInt = 0 - value.toInt := ofInt?_eq_some_iff.mp h
  refine ofInt?_eq_some_iff.mpr ?_
  rw [Int64.toInt_zero, hopposite, Int.sub_sub_self]

/-! ## Quotients and remainders -/

section Division

variable (a b : Int64)

/-- Only the least word has a quotient that does not fit, and only by minus one. -/
theorem fits_tdiv_iff :
    Fits (a.toInt.tdiv b.toInt) ↔ ¬ (a.toInt = -2 ^ 63 ∧ b.toInt = -1) := by
  obtain ⟨hlower, hupper⟩ := fits_toInt a
  rw [Fits]
  rcases Nat.lt_or_ge b.toInt.natAbs 2 with hsmall | hlarge
  · obtain hb | hb | hb : b.toInt = 0 ∨ b.toInt = 1 ∨ b.toInt = -1 := by omega
    · rw [hb, Int.tdiv_zero]
      omega
    · rw [hb, Int.tdiv_one]
      omega
    · rw [hb, Int.tdiv_neg, Int.tdiv_one]
      omega
  · have hhalf : (a.toInt.tdiv b.toInt).natAbs ≤ a.toInt.natAbs / 2 := by
      rw [Int.natAbs_tdiv]
      exact Nat.div_le_div_left hlarge (by decide)
    omega

theorem div?_eq_none_iff : div? a b = none ↔ a.toInt = -2 ^ 63 ∧ b.toInt = -1 := by
  rw [div?, ofInt?_eq_none_iff, fits_tdiv_iff, Classical.not_not]

/-- A remainder lies between zero and the dividend. -/
theorem tmod_between :
    (0 ≤ a.toInt → 0 ≤ a.toInt.tmod b.toInt ∧ a.toInt.tmod b.toInt ≤ a.toInt) ∧
    (a.toInt ≤ 0 → a.toInt ≤ a.toInt.tmod b.toInt ∧ a.toInt.tmod b.toInt ≤ 0) := by
  have hsize : (a.toInt.tmod b.toInt).natAbs ≤ a.toInt.natAbs := by
    rw [Int.natAbs_tmod]
    exact Nat.mod_le _ _
  constructor
  · intro h
    have hsign := Int.tmod_nonneg b.toInt h
    omega
  · intro h
    have hsign := Int.tmod_nonneg b.toInt (Int.neg_nonneg_of_nonpos h)
    rw [Int.neg_tmod] at hsign
    omega

theorem fits_tmod : Fits (a.toInt.tmod b.toInt) := by
  obtain ⟨hlower, hupper⟩ := fits_toInt a
  obtain ⟨hpos, hneg⟩ := tmod_between a b
  rw [Fits]
  omega

/-- Multiplying a quotient back does not lead out of the range, even where the quotient does. -/
theorem fits_tdiv_mul : Fits (a.toInt.tdiv b.toInt * b.toInt) := by
  obtain ⟨hlower, hupper⟩ := fits_toInt a
  obtain ⟨hpos, hneg⟩ := tmod_between a b
  have hsum := Int.tdiv_mul_add_tmod a.toInt b.toInt
  rw [Fits]
  omega

theorem rem?_eq_none_iff : rem? a b = none ↔ a.toInt = -2 ^ 63 ∧ b.toInt = -1 := by
  rw [rem?, ← div?_eq_none_iff]
  cases hquotient : div? a b with
  | none => exact iff_of_true rfl rfl
  | some q =>
      have hremainder : ofInt? (a.toInt.tmod b.toInt) ≠ none :=
        fun h => ofInt?_eq_none_iff.mp h (fits_tmod a b)
      exact iff_of_false hremainder nofun

variable {a b}

theorem toInt_of_rem? {r : Int64} (h : rem? a b = some r) : r.toInt = a.toInt.tmod b.toInt := by
  obtain ⟨q, -, hr⟩ := Option.bind_eq_some_iff.mp h
  exact ofInt?_eq_some_iff.mp hr

end Division

/-! ## Shifts -/

/-- The number of places by which a shift moves. -/
def places (count : Int64) : Nat := (count.toInt % 2 ^ 6).toNat

theorem places_lt (count : Int64) : places count < 64 := by
  rw [places]
  omega

theorem toNat_shiftCount (count : Int64) : (shiftCount count).toBitVec.toNat = places count := by
  have hplaces : places count = count.toBitVec.toNat % 2 ^ 6 := by
    have hword := BitVec.toInt_eq_toNat_cond count.toBitVec
    rw [Int64.toInt_toBitVec] at hword
    rw [places]
    split at hword <;> omega
  rw [hplaces, shiftCount, Int64.toBitVec_and, BitVec.toNat_and]
  exact Nat.and_two_pow_sub_one_eq_mod _ 6

/-- Shifts of words take their count modulo the width, which changes nothing about one that is
already below it. -/
theorem toNat_smod_shiftCount (count : Int64) :
    ((shiftCount count).toBitVec.smod 64).toNat = places count := by
  have hlt := places_lt count
  have hcount := toNat_shiftCount count
  have hmsb : (shiftCount count).toBitVec.msb = false := by
    rw [BitVec.msb_eq_false_iff_two_mul_lt, hcount]
    omega
  have hwidth : (64 : BitVec 64).msb = false := by decide
  rw [BitVec.smod_eq, hmsb, hwidth]
  change ((shiftCount count).toBitVec % 64).toNat = _
  rw [BitVec.toNat_umod, hcount]
  exact Nat.mod_eq_of_lt hlt

theorem toInt_shiftLeft (a count : Int64) :
    (shiftLeft a count).toInt = (a.toInt * 2 ^ places count).bmod (2 ^ 64) := by
  have hword : a.toInt = (a.toBitVec.toNat : Int).bmod (2 ^ 64) := by
    rw [← Int64.toInt_toBitVec, BitVec.toInt_eq_toNat_bmod]
  rw [hword, Int.bmod_mul_bmod, shiftLeft, ← Int64.toInt_toBitVec, Int64.toBitVec_shiftLeft,
    BitVec.shiftLeft_eq', toNat_smod_shiftCount, BitVec.toInt_shiftLeft, Nat.shiftLeft_eq]
  push_cast
  rfl

theorem toInt_shiftRight (a count : Int64) :
    (shiftRight a count).toInt = a.toInt.fdiv (2 ^ places count) := by
  have hpower : (0 : Int) ≤ 2 ^ places count := Int.le_of_lt (Int.pow_pos (by decide))
  rw [shiftRight, ← Int64.toInt_toBitVec, Int64.toBitVec_shiftRight, BitVec.toInt_sshiftRight',
    toNat_smod_shiftCount, Int64.toInt_toBitVec, Int.shiftRight_eq_div_pow,
    Int.fdiv_eq_ediv_of_nonneg _ hpower]
  push_cast
  rfl

theorem toInt_shiftRightLogical (a count : Int64) :
    (shiftRightLogical a count).toInt =
      (a.toInt % 2 ^ 64 / 2 ^ places count).bmod (2 ^ 64) := by
  have hbits : a.toInt % 2 ^ 64 = (a.toUInt64.toNat : Int) := by
    have hword := BitVec.toInt_eq_toNat_cond a.toBitVec
    have hlt := a.toBitVec.isLt
    rw [Int64.toInt_toBitVec] at hword
    change a.toInt % 2 ^ 64 = (a.toBitVec.toNat : Int)
    split at hword <;> omega
  have hcount : (shiftCount count).toUInt64.toNat % 64 = places count :=
    (congrArg (· % 64) (toNat_shiftCount count)).trans (Nat.mod_eq_of_lt (places_lt count))
  change (a.toUInt64 >>> (shiftCount count).toUInt64).toBitVec.toInt = _
  rw [BitVec.toInt_eq_toNat_bmod, UInt64.toNat_toBitVec, UInt64.toNat_shiftRight, hcount,
    Nat.shiftRight_eq_div_pow, hbits]
  push_cast
  rfl

end ClassScript.Word
