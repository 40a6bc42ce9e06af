import ClassScript.Proofs.Fuel
import ClassScript.Proofs.Words

/-!
# Operators on integers

Arithmetic on `int` gives the exact result or reports an overflow, and it overflows only where the
result does not fit. Dividing the least integer by minus one is the one division that overflows, and
its remainder is refused with it. What a quotient and its remainder stand for can always be put
together again, without an overflow on the way. Shifts never fail.
-/

namespace ClassScript

namespace Store

/-! ## Exact answers -/

/-- The answer is the number `z`, or an overflow if `z` does not fit. -/
inductive Exact (z : Int) : Except Cause Value → Prop where
  | value (w : Int64) (h : w.toInt = z) : Exact z (.ok (.int w))
  | overflow (h : ¬ Word.Fits z) : Exact z (.error .overflow)

namespace Exact

variable {z : Int} {answer : Except Cause Value}

theorem ofInt? (z : Int) : Exact z (orOverflow .int (Word.ofInt? z)) := by
  cases h : Word.ofInt? z with
  | some w => exact .value w (Word.ofInt?_eq_some_iff.mp h)
  | none => exact .overflow (Word.ofInt?_eq_none_iff.mp h)

theorem overflows_iff (h : Exact z answer) : answer = .error .overflow ↔ ¬ Word.Fits z := by
  cases h with
  | value w hw => exact iff_of_false nofun (not_not_intro (hw ▸ Word.fits_toInt w))
  | overflow hfits => exact iff_of_true rfl hfits

theorem of_fits (h : Exact z answer) (hfits : Word.Fits z) :
    ∃ w : Int64, answer = .ok (.int w) ∧ w.toInt = z := by
  cases h with
  | value w hw => exact ⟨w, rfl, hw⟩
  | overflow hnot => exact absurd hfits hnot

theorem of_ok {v : Value} (h : Exact z answer) (hv : answer = .ok v) :
    ∃ w : Int64, v = .int w ∧ w.toInt = z := by
  subst hv
  cases h with
  | value w hw => exact ⟨w, rfl, hw⟩

end Exact

/-! ## Arithmetic -/

section Arithmetic

variable (st : Store) (a b : Int64)

theorem add_exact : Exact (a.toInt + b.toInt) (st.applyBinary .add (.int a) (.int b)) :=
  .ofInt? _

theorem subtract_exact :
    Exact (a.toInt - b.toInt) (st.applyBinary .subtract (.int a) (.int b)) :=
  .ofInt? _

theorem multiply_exact :
    Exact (a.toInt * b.toInt) (st.applyBinary .multiply (.int a) (.int b)) :=
  .ofInt? _

/-- A negation multiplies by minus one. -/
theorem negate_exact : Exact (-a.toInt) (st.applyUnary .negate (.int a)) := by
  have hproduct := st.multiply_exact a (-1)
  have hminusOne : (-1 : Int64).toInt = -1 := by decide
  rw [hminusOne, Int.mul_neg_one] at hproduct
  exact hproduct

theorem negate_overflows_iff :
    st.applyUnary .negate (.int a) = .error .overflow ↔ a.toInt = -2 ^ 63 := by
  obtain ⟨hlower, hupper⟩ := Word.fits_toInt a
  rw [(st.negate_exact a).overflows_iff, Word.Fits]
  omega

variable {b}

/-- A divisor other than zero is let through. -/
theorem dividing_of_ne_zero (hb : b ≠ 0) (op : BinaryOp) (ops : Store.Arithmetic) :
    st.dividing op ops (.int a) (.int b) = orOverflow .int (ops.onInt a b) := by
  have hzero : ((Value.int a).sameKind (.int b) && (Value.int b).isZero) = false :=
    beq_false_of_ne hb
  rw [dividing, hzero]
  rfl

theorem divide_exact (hb : b ≠ 0) :
    Exact (a.toInt.tdiv b.toInt) (st.applyBinary .divide (.int a) (.int b)) := by
  change Exact _ (st.dividing .divide division (.int a) (.int b))
  rw [st.dividing_of_ne_zero a hb]
  exact .ofInt? _

theorem modulo_eq (hb : b ≠ 0) :
    st.applyBinary .modulo (.int a) (.int b) = orOverflow .int (Word.rem? a b) :=
  st.dividing_of_ne_zero a hb .modulo remainder

theorem modulo_overflows_iff (hb : b ≠ 0) :
    st.applyBinary .modulo (.int a) (.int b) = .error .overflow ↔
      a.toInt = -2 ^ 63 ∧ b.toInt = -1 := by
  rw [st.modulo_eq a hb, ← Word.rem?_eq_none_iff]
  cases Word.rem? a b with
  | none => exact iff_of_true rfl rfl
  | some r => exact iff_of_false nofun nofun

theorem modulo_ok (hb : b ≠ 0) (h : ¬ (a.toInt = -2 ^ 63 ∧ b.toInt = -1)) :
    ∃ r : Int64, st.applyBinary .modulo (.int a) (.int b) = .ok (.int r) ∧
      r.toInt = a.toInt.tmod b.toInt := by
  rw [← Word.rem?_eq_none_iff, ← ne_eq, Option.ne_none_iff_exists'] at h
  obtain ⟨r, hr⟩ := h
  rw [st.modulo_eq a hb, hr]
  exact ⟨r, rfl, Word.toInt_of_rem? hr⟩

end Arithmetic

/-! ## Quotient and remainder together -/

section Recomposition

variable {st : Store} {a b : Int64}

theorem ne_zero_of_divide {q : Value} (h : st.applyBinary .divide (.int a) (.int b) = .ok q) :
    b ≠ 0 := by
  rintro rfl
  cases h

/-- If there are a quotient and a remainder, the product of the quotient with the divisor fits, and
with the remainder added it is the dividend. -/
theorem recompose {q r : Value} (hq : st.applyBinary .divide (.int a) (.int b) = .ok q)
    (hr : st.applyBinary .modulo (.int a) (.int b) = .ok r) :
    ∃ p, st.applyBinary .multiply q (.int b) = .ok p ∧
      st.applyBinary .add p r = .ok (.int a) := by
  have hb := ne_zero_of_divide hq
  obtain ⟨q, rfl, hquotient⟩ := (st.divide_exact a hb).of_ok hq
  have hdefined : ¬ (a.toInt = -2 ^ 63 ∧ b.toInt = -1) := by
    rw [← st.modulo_overflows_iff a hb, hr]
    exact nofun
  obtain ⟨r, hr', hremainder⟩ := st.modulo_ok a hb hdefined
  obtain rfl := Except.ok.inj (hr.symm.trans hr')
  have hproduct := st.multiply_exact q b
  rw [hquotient] at hproduct
  obtain ⟨p, hp, hproduct⟩ := hproduct.of_fits (Word.fits_tdiv_mul a b)
  have hsum := st.add_exact p r
  rw [hproduct, hremainder, Int.tdiv_mul_add_tmod] at hsum
  obtain ⟨w, hw, hback⟩ := hsum.of_fits (Word.fits_toInt a)
  obtain rfl := Int64.toInt_inj.mp hback
  exact ⟨.int p, hp, hw⟩

end Recomposition

end Store

/-! ## Binary expressions -/

section Binary

variable {fuel : Nat} {x y : Expr} {s : Session} {u v : Value}

/-- An operator whose left operand does not decide alone is applied to the values of both. -/
theorem evaluate_binary (hx : evaluate fuel x none s = .ok u s)
    (hy : evaluate fuel y none s = .ok v s) {op : BinaryOp}
    (hundecided : Interpreter.decided? op u = none) (line : Nat) (expected : Option Ty) :
    evaluate (fuel + 1) (.binary x op y line) expected s =
      Eval.askStore line (fun st => st.applyBinary op u v) s := by
  change (interpreter fuel).evalBinary x op y line s = _
  have hx' : (interpreter fuel).eval x none s = .ok u s := hx
  have hy' : (interpreter fuel).eval y none s = .ok v s := hy
  rw [Interpreter.evalBinary, Action.bind_of_ok hx', hundecided]
  exact Action.bind_of_ok hy'

theorem evaluate_of_le {n m : Nat} (h : n ≤ m) (hx : evaluate n x none s = .ok u s) :
    evaluate m x none s = .ok u s :=
  (evaluate_approximates h x none s (hx ▸ nofun)).trans hx

/-- Where a division and its remainder are evaluated without an error, so is the expression that
puts them together, and it gives the dividend. -/
theorem evaluate_recomposed {a b : Int64} (hx : evaluate fuel x none s = .ok (.int a) s)
    (hy : evaluate fuel y none s = .ok (.int b) s) {l₁ l₂ l₃ l₄ : Nat} {q r : Value}
    (hq : evaluate (fuel + 1) (.binary x .divide y l₁) none s = .ok q s)
    (hr : evaluate (fuel + 1) (.binary x .modulo y l₄) none s = .ok r s)
    (expected : Option Ty) :
    evaluate (fuel + 3)
        (.binary (.binary (.binary x .divide y l₁) .multiply y l₂) .add
          (.binary x .modulo y l₄) l₃) expected s = .ok (.int a) s := by
  have hquotient := (evaluate_binary hx hy rfl l₁ none).symm.trans hq
  have hremainder := (evaluate_binary hx hy rfl l₄ none).symm.trans hr
  obtain ⟨p, hp, hsum⟩ :=
    Store.recompose (Eval.ok_of_ask hquotient).2 (Eval.ok_of_ask hremainder).2
  have hproduct : evaluate (fuel + 2) (.binary (.binary x .divide y l₁) .multiply y l₂) none s =
      .ok p s :=
    (evaluate_binary hq (evaluate_of_le (Nat.le_succ _) hy) rfl l₂ none).trans
      (Eval.ask_of_ok hp l₂)
  exact (evaluate_binary hproduct (evaluate_of_le (Nat.le_succ _) hr) rfl l₃ expected).trans
    (Eval.ask_of_ok hsum l₃)

end Binary

/-- Integer arithmetic is exact or reported. Sums, differences, products, negations and quotients,
which are truncated toward zero, are the mathematical results unless these do not fit; so of the
negations only that of the least integer is refused. A remainder has the sign of the dividend and is
refused for the least integer by minus one alone. Where a quotient and a remainder are given, they
are put together to the dividend again, by the operators as well as by an expression. -/
theorem integer_arithmetic_exact (st : Store) (a b : Int64) :
    Store.Exact (a.toInt + b.toInt) (st.applyBinary .add (.int a) (.int b)) ∧
    Store.Exact (a.toInt - b.toInt) (st.applyBinary .subtract (.int a) (.int b)) ∧
    Store.Exact (a.toInt * b.toInt) (st.applyBinary .multiply (.int a) (.int b)) ∧
    Store.Exact (-a.toInt) (st.applyUnary .negate (.int a)) ∧
    (st.applyUnary .negate (.int a) = .error .overflow ↔ a.toInt = -2 ^ 63) ∧
    (b ≠ 0 →
      Store.Exact (a.toInt.tdiv b.toInt) (st.applyBinary .divide (.int a) (.int b)) ∧
      (st.applyBinary .modulo (.int a) (.int b) = .error .overflow ↔
        a.toInt = -2 ^ 63 ∧ b.toInt = -1) ∧
      (¬ (a.toInt = -2 ^ 63 ∧ b.toInt = -1) →
        ∃ r : Int64, st.applyBinary .modulo (.int a) (.int b) = .ok (.int r) ∧
          r.toInt = a.toInt.tmod b.toInt ∧ (0 ≤ a.toInt → 0 ≤ r.toInt) ∧
          (a.toInt ≤ 0 → r.toInt ≤ 0))) ∧
    (∀ q r, st.applyBinary .divide (.int a) (.int b) = .ok q →
      st.applyBinary .modulo (.int a) (.int b) = .ok r →
      ∃ p, st.applyBinary .multiply q (.int b) = .ok p ∧
        st.applyBinary .add p r = .ok (.int a)) ∧
    ∀ fuel s x y l₁ l₂ l₃ l₄ q r expected, evaluate fuel x none s = .ok (.int a) s →
      evaluate fuel y none s = .ok (.int b) s →
      evaluate (fuel + 1) (.binary x .divide y l₁) none s = .ok q s →
      evaluate (fuel + 1) (.binary x .modulo y l₄) none s = .ok r s →
      evaluate (fuel + 3)
        (.binary (.binary (.binary x .divide y l₁) .multiply y l₂) .add
          (.binary x .modulo y l₄) l₃) expected s = .ok (.int a) s := by
  refine ⟨st.add_exact a b, st.subtract_exact a b, st.multiply_exact a b, st.negate_exact a,
    st.negate_overflows_iff a, fun hb => ?_, fun q r hq hr => ?_, ?_⟩
  · refine ⟨st.divide_exact a hb, st.modulo_overflows_iff a hb, fun hdefined => ?_⟩
    obtain ⟨r, hr, hremainder⟩ := st.modulo_ok a hb hdefined
    obtain ⟨hpos, hneg⟩ := Word.tmod_between a b
    rw [← hremainder] at hpos hneg
    exact ⟨r, hr, hremainder, fun h => (hpos h).1, fun h => (hneg h).2⟩
  · exact Store.recompose hq hr
  · intro fuel s x y l₁ l₂ l₃ l₄ q r expected hx hy hq hr
    exact evaluate_recomposed hx hy hq hr expected

/-- A shift of an integer never fails. It moves by the count modulo 64, which also a negative count
has between 0 and 63: to the left it gives the number that stands for the product modulo 2^64, to
the right the quotient rounded down, and with zeros filled in the number that stands for the
quotient of the 64 bits. -/
theorem shifts_modulo_width (st : Store) (a count : Int64) :
    ∃ k : Nat, k ≤ 63 ∧ (k : Int) = count.toInt % 2 ^ 6 ∧
      ∃ left right logical : Int64,
        st.applyBinary .shiftLeft (.int a) (.int count) = .ok (.int left) ∧
        left.toInt = (a.toInt * 2 ^ k).bmod (2 ^ 64) ∧
        st.applyBinary .shiftRight (.int a) (.int count) = .ok (.int right) ∧
        right.toInt = a.toInt.fdiv (2 ^ k) ∧
        st.applyBinary .shiftRightLogical (.int a) (.int count) = .ok (.int logical) ∧
        logical.toInt = (a.toInt % 2 ^ 64 / 2 ^ k).bmod (2 ^ 64) := by
  have hcount : (Word.places count : Int) = count.toInt % 2 ^ 6 := by
    rw [Word.places]
    omega
  refine ⟨Word.places count, Nat.le_of_lt_succ (Word.places_lt count), hcount,
    Word.shiftLeft a count, Word.shiftRight a count, Word.shiftRightLogical a count, ?_⟩
  exact ⟨rfl, Word.toInt_shiftLeft a count, rfl, Word.toInt_shiftRight a count, rfl,
    Word.toInt_shiftRightLogical a count⟩

-- Minus one counts as 63 places, so only the sign bit is left.
example (st : Store) :
    st.applyBinary .shiftRightLogical (.int (-1)) (.int (-1)) = .ok (.int 1) := rfl

end ClassScript
