import ClassScript.Proofs.Precedence.RoundTrip

/-!
# The rules by level

The rules of the grammar as one family: assignments, the seven levels of binary operators, leading
operators. A looser rule begins with the next tighter one, so what a tighter rule reads or refuses,
all looser ones read or refuse.
-/

namespace ClassScript

namespace Grammar

variable {expression : Parser Expr} {n : Nat} {e : Expr} {ts more : List Lexeme} {line : Nat}

/-- The rule for the expressions of a level up to eight. -/
def rule (expression : Parser Expr) (n : Nat) : Nat → Parser Expr
  | 0 => assignment expression n
  | k + 1 => binary (unary expression n) n (levels.drop k)

theorem rule_reads (hread : ReadsBelow n expression) {k : Nat} (hk : k ≤ 8) :
    ReadsAt n k (rule expression n k) := by
  cases k with
  | zero => exact assignment_reads hread
  | succ j => exact binary_reads hread (7 - j) j (by omega)

/-- What a tighter rule reads, a looser one reads too if nothing goes on with it. -/
theorem Reads.loosen {j k : Nat} (h : Reads (rule expression n j) ts more e) (hk : k ≤ j)
    (hj : j ≤ 8) (hpos : 0 < ts.length) (hle : ts.length ≤ n) (hmore : Loose k more) :
    Reads (rule expression n k) ts more e := by
  obtain ⟨above, rfl⟩ := Nat.exists_eq_add_of_le hk
  induction above with
  | zero => exact h
  | succ above ih =>
      refine ih ?_ (Nat.le_add_right _ _) (by omega)
      have hloose : Loose (k + above) more := hmore.mono (Nat.le_add_right _ _)
      have hi : k + above < 8 := by omega
      have htighter : Reads (rule expression n (k + above + 1)) ts more e := h
      generalize k + above = i at hloose hi htighter ⊢
      cases i with
      | zero =>
          exact assignment_of_loose
            (conditional_of_notNext htighter (hloose.notNext rfl (Nat.le_refl 0))) hloose
      | succ i =>
          obtain ⟨level, hlevels, hnumbered⟩ := levels_drop (Nat.lt_of_succ_lt_succ hi)
          rw [rule, hlevels]
          refine (ReadsInto.start htighter hpos).reads hle fun left e' => ?_
          exact hnumbered.rest_of_loose hloose

/-- The rule of an operator reads it with a left operand in its place and with whatever the next
tighter rule reads on the right. -/
theorem operator_reads (hread : ReadsBelow n expression) {left right : Expr} {op : BinaryOp}
    {ts₁ ts₂ : List Lexeme} {line₀ : Nat} (hleft : left.WellFormed)
    (hplace : Placed op.level left ts₁ (⟨.symbol op.symbol, line⟩ :: ts₂ ++ more))
    (hright : Reads (rule expression n (op.level + 1)) ts₂ more right)
    (hle : (ts₁ ++ ⟨.symbol op.symbol, line⟩ :: ts₂).length ≤ n) (hmore : Loose op.level more) :
    Reads (rule expression n op.level) (ts₁ ++ ⟨.symbol op.symbol, line⟩ :: ts₂) more
      (.binary left op right line₀) := by
  obtain ⟨j, hop⟩ : ∃ j, op.level = j + 1 := by cases op <;> exact ⟨_, rfl⟩
  have hj : j < 7 := Nat.lt_of_succ_le (Nat.le_trans (Nat.le_of_eq hop.symm) op.level_le)
  obtain ⟨level, hlevels, hlevel⟩ := levels_drop hj
  have hlengths := hle
  rw [List.length_append, List.length_cons] at hlengths
  rw [hop] at hplace hright hmore ⊢
  have hnext : Loose (j + 1 + 1) (⟨.symbol op.symbol, line⟩ :: ts₂ ++ more) :=
    .of_continues (hlevel.continues_of_continuation? (hlevel.continuation?_operator hop))
      (Nat.lt_succ_self _)
  have hinto := level_into hlevel (by omega) (rule_reads hread (show j + 1 + 1 ≤ 8 by omega)) left
    hleft hplace (by omega) hnext
  rw [rule, hlevels]
  exact (operator_into hlevel hop hinto hright hle).reads hle fun left e' =>
    hlevel.rest_of_loose hmore

/-- An error in the first operand is the error of the whole. -/
theorem assignment_of_error {fuel : Nat} {cause : SyntaxError} {left : List Lexeme}
    (h : unary expression fuel ts = .error cause left) :
    assignment expression fuel ts = .error cause left := by
  have hlevels (levels : List Level) :
      binary (unary expression fuel) fuel levels ts = .error cause left := by
    induction levels with
    | nil => exact h
    | cons level tighter ih => exact Action.bind_of_error ih
  exact Action.bind_of_error (Action.bind_of_error (hlevels levels))

end Grammar

end ClassScript
