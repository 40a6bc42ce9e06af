import ClassScript.Proofs.Precedence.Rules
import ClassScript.Proofs.Printing.ParsedExpressions

/-!
# Array literals at the right end

An expression may end in an array literal without an element type that no parentheses close: the
operand of its last operator, the last branch of a conditional, the right side of an assignment. A
colon after such an expression is taken as the beginning of an element type if a name follows it and
the literal is empty or the name is that of a primitive type; otherwise the expression is read as it
stands and the colon is left. If the colon is taken, what is read is another expression.
-/

namespace ClassScript

/-! ## Open expressions -/

namespace Expr

/-- An array literal without an element type. -/
def isPlainArray : Expr → Bool
  | .array _ none _ => true
  | _ => false

/-- The expression may stand without parentheses at the right end of another one, in a place that
demands this level; a plain array literal may too. -/
def opens (demand : Nat) (e : Expr) : Bool := e.isPlainArray || e.fits demand

/-- The tokens of the expression with a plain array literal at its right end left bare. -/
def openTokens : Expr → List Token
  | .unary op operand _ =>
    .symbol op.symbol ::
      if operand.opens 8 then operand.openTokens else parens false operand.tokens
  | .binary left op right _ =>
    left.tokensAt op.level ++ .symbol op.symbol ::
      if right.opens (op.level + 1) then right.openTokens else parens false right.tokens
  | .conditional condition onTrue onFalse _ =>
    condition.tokensAt 1 ++ .symbol .question :: (onTrue.tokensAt 0 ++ .symbol .colon ::
      if onFalse.opens 0 then onFalse.openTokens else parens false onFalse.tokens)
  | .assign target value _ =>
    target.tokens ++ .symbol .assign ::
      if value.opens 0 then value.openTokens else parens false value.tokens
  | e => e.tokens

/-- The elements of the plain array literal that stands bare at the right end. -/
def lastElements? : Expr → Option (List Expr)
  | .array elements none _ => some elements
  | .unary _ operand _ => if operand.opens 8 then operand.lastElements? else none
  | .binary _ op right _ => if right.opens (op.level + 1) then right.lastElements? else none
  | .conditional _ _ onFalse _ => if onFalse.opens 0 then onFalse.lastElements? else none
  | .assign _ value _ => if value.opens 0 then value.lastElements? else none
  | _ => none

/-- The tokens of an expression in a place that demands this level and ends with it. -/
def openAt (demand : Nat) (e : Expr) : List Token :=
  if e.opens demand then e.openTokens else parens false e.tokens

/-- The literal at the right end takes the colon in front of these lexemes for its element type. -/
def TakesColon (e : Expr) (more : List Lexeme) : Prop :=
  ∃ elements ∈ e.lastElements?, Grammar.elementTypeFollows elements more = true

/-- The literal stands at the right end of the last part, if this part is open. -/
theorem takesColon_iff {e part : Expr} {k : Nat} {more : List Lexeme}
    (h : e.lastElements? = if part.opens k then part.lastElements? else none) :
    e.TakesColon more ↔ part.opens k = true ∧ part.TakesColon more := by
  rw [TakesColon, TakesColon, h]
  constructor
  · rintro ⟨elements, helements, hfollows⟩
    obtain ⟨hopens, helements⟩ := Option.mem_ite_none_right.mp helements
    exact ⟨hopens, elements, helements, hfollows⟩
  · rintro ⟨hopens, elements, helements, hfollows⟩
    exact ⟨elements, Option.mem_ite_none_right.mpr ⟨hopens, helements⟩, hfollows⟩

end Expr

theorem Expr.begins_openAt (e : Expr) (k : Nat) : Begins false (e.openAt k) := by
  have hopen : Begins false e.openTokens := by
    cases e with
    | unary op operand line =>
        refine ⟨_, rfl, ?_, nofun⟩
        cases op <;> rfl
    | binary left op right line =>
        exact (Begins.parens fun _ => (begins_tokens left).weaken).append _
    | conditional condition onTrue onFalse line =>
        exact (Begins.parens fun _ => (begins_tokens condition).weaken).append _
    | assign target value line =>
        have htokens : (target.toExpr 0).tokens = target.tokens := by cases target <;> rfl
        exact (htokens ▸ (begins_tokens (target.toExpr 0)).weaken).append _
    | _ => exact (begins_tokens _).weaken
  rw [openAt]
  split
  · exact hopen
  · exact .parens nofun

namespace Grammar

variable {expression : Parser Expr} {n : Nat} {e : Expr} {ts more : List Lexeme} {line : Nat}

/-! ## The colon is left -/

/-- An array literal with a suffix loop that finds nothing. -/
theorem array_reads (hread : ReadsBelow n expression) {es : List Expr} {line₀ : Nat}
    (he : WellFormedAll es) (hts : Spells ts (Expr.array es none line₀).tokens)
    (hle : ts.length ≤ n) (hmore : Loose 8 more) (hcolon : elementTypeFollows es more = false) :
    Reads (rule expression n 8) ts more (.array es none line₀) := by
  have hbegins : Begins true (ts.map Lexeme.token) := by
    rw [hts]
    exact ⟨_, rfl, rfl, fun _ => rfl⟩
  obtain ⟨line₁, ts₁, rfl, -⟩ := Spells.cons_iff.mp hts
  have hloose : Loose 9 more := hmore.mono (by decide)
  have hprimary : Reads (primary expression) (⟨.symbol .leftBracket, line₁⟩ :: ts₁) more
      (.array es none line₀) := arrayLiteral_reads hread he hts hle hloose hcolon
  refine unary_of_begins hbegins ?_
  exact (ReadsInto.start hprimary (Nat.succ_pos _)).reads hle fun left e' =>
    suffixes_of_loose hloose

theorem level_of_opens {k : Nat} (hk : k ≤ 8) (h : e.opens k = true) : k ≤ e.level := by
  rcases Bool.or_eq_true_iff.mp h with hplain | hfits
  · cases e with
    | array => exact Nat.le_trans hk (Nat.le_add_right 8 2)
    | _ => cases hplain
  · exact Expr.level_of_fits hfits

/-- An open expression whose last literal does not take the colon is read as it stands. -/
theorem open_reads : ∀ (e : Expr) {n k : Nat} {ts more : List Lexeme}, k ≤ 8 → e.WellFormed →
    Spells ts (e.openAt k) → ts.length ≤ n → Loose k more →
    (e.opens k = true → ¬ e.TakesColon more) → Reads (rule (expressionAt n) n k) ts more e
  | e, n, k, ts, more, hk, he, hts, hle, hmore, hleaves => by
      have hread : ReadsBelow n (expressionAt n) := expressionAt_reads n
      by_cases hopens : e.opens k = true
      case neg =>
        rw [Expr.openAt, if_neg hopens] at hts
        exact rule_reads hread hk he (.enclosed hts) hle hmore
      rw [Expr.openAt, if_pos hopens] at hts
      have hcolon := hleaves hopens
      have hlevel := level_of_opens hk hopens
      have hplain (hplain : e.isPlainArray = false) (htokens : e.openTokens = e.tokens) :
          Reads (rule (expressionAt n) n k) ts more e := by
        rw [Expr.opens, hplain, Bool.false_or] at hopens
        refine rule_reads hread hk he (.bare (htokens ▸ hts) hlevel fun harray => ?_) hle hmore
        rw [Expr.isArray_of_fits hopens] at harray
        cases harray
      cases e with
      | array es ty line =>
          cases ty with
          | some ty => exact hplain rfl rfl
          | none =>
              have hfollows : elementTypeFollows es more = false :=
                Bool.eq_false_iff.mpr fun h => hcolon ⟨es, rfl, h⟩
              have hpos : 0 < ts.length := by
                obtain ⟨_, _, rfl, -⟩ := Spells.cons_iff.mp hts
                exact Nat.succ_pos _
              have harray := array_reads hread he hts hle (hmore.mono hk) hfollows
              exact harray.loosen hk (Nat.le_refl 8) hpos hle hmore
      | unary op operand line =>
          obtain ⟨line₁, ts₁, rfl, h₁⟩ := Spells.cons_iff.mp hts
          have hpart (hopens : operand.opens 8 = true) : ¬ operand.TakesColon more :=
            fun htakes => hcolon ((Expr.takesColon_iff rfl).mpr ⟨hopens, htakes⟩)
          obtain ⟨e', hrun, heq⟩ := open_reads operand (Nat.le_refl 8) he h₁ (Nat.le_of_succ_le hle)
            (hmore.mono hk) hpart
          have hunary : Reads (rule (expressionAt n) n 8) (⟨.symbol op.symbol, line₁⟩ :: ts₁) more
              (.unary op operand line) :=
            ⟨.unary op e' line₁, unary_operator op hrun, by rw [Expr.unlined, heq, Expr.unlined]⟩
          exact hunary.loosen hk (Nat.le_refl 8) (Nat.succ_pos _) hle hmore
      | binary left op right line =>
          obtain ⟨ts₁, ts₂, rfl, h₁, h₂⟩ := Spells.append_iff.mp hts
          obtain ⟨line₁, ts₃, rfl, h₃⟩ := Spells.cons_iff.mp h₂
          have hpart (hopens : right.opens (op.level + 1) = true) : ¬ right.TakesColon more :=
            fun htakes => hcolon ((Expr.takesColon_iff rfl).mpr ⟨hopens, htakes⟩)
          have hlengths := hle
          rw [List.length_append, List.length_cons] at hlengths
          have hright := open_reads right (n := n) (Nat.succ_le_succ op.level_le) he.2 h₃ (by omega)
            (hmore.mono (Nat.le_succ_of_le hlevel)) hpart
          have hoperator : Reads (rule (expressionAt n) n op.level)
              (ts₁ ++ ⟨.symbol op.symbol, line₁⟩ :: ts₃) more (.binary left op right line) :=
            operator_reads hread he.1 (.of_tokensAt h₁) hright hle (hmore.mono hlevel)
          refine hoperator.loosen hlevel (Nat.le_succ_of_le op.level_le) ?_ hle hmore
          rw [List.length_append, List.length_cons]
          omega
      | conditional condition onTrue onFalse line =>
          obtain rfl := Nat.le_zero.mp hlevel
          obtain ⟨ts₁, ts₂, rfl, h₁, h₂⟩ := Spells.append_iff.mp hts
          obtain ⟨line₁, ts₃, rfl, h₃⟩ := Spells.cons_iff.mp h₂
          obtain ⟨ts₄, ts₅, rfl, h₄, h₅⟩ := Spells.append_iff.mp h₃
          obtain ⟨line₂, ts₆, rfl, h₆⟩ := Spells.cons_iff.mp h₅
          have hpart (hopens : onFalse.opens 0 = true) : ¬ onFalse.TakesColon more :=
            fun htakes => hcolon ((Expr.takesColon_iff rfl).mpr ⟨hopens, htakes⟩)
          simp only [List.length_append, List.length_cons] at hle
          obtain ⟨n, rfl⟩ : ∃ m, n = m + 1 := ⟨n - 1, by omega⟩
          have hquestion : Loose 1 (⟨.symbol .question, line₁⟩ ::
              (ts₄ ++ ⟨.symbol .colon, line₂⟩ :: (ts₆ ++ more))) := .of_continues rfl Nat.one_pos
          have hnext : Loose 0 (⟨.symbol .colon, line₂⟩ :: (ts₆ ++ more)) := .of_none rfl
          refine assignment_of_loose (conditional_of_parts ?_ ?_ ?_) hmore
          · exact binary_reads hread 7 0 rfl he.1 (.of_tokensAt h₁) (by omega) hquestion
          · exact hread he.2.1 (.of_tokensAt h₄) (by omega) hnext
          · exact open_reads onFalse (Nat.zero_le 8) he.2.2 h₆ (by omega) hmore hpart
      | assign target value line =>
          obtain rfl := Nat.le_zero.mp hlevel
          obtain ⟨ts₁, ts₂, rfl, h₁, h₂⟩ := Spells.append_iff.mp hts
          obtain ⟨line₁, ts₃, rfl, h₃⟩ := Spells.cons_iff.mp h₂
          have hpart (hopens : value.opens 0 = true) : ¬ value.TakesColon more :=
            fun htakes => hcolon ((Expr.takesColon_iff rfl).mpr ⟨hopens, htakes⟩)
          simp only [List.length_append, List.length_cons] at hle
          obtain ⟨n, rfl⟩ : ∃ m, n = m + 1 := ⟨n - 1, by omega⟩
          exact assignment_of_parts hread .replace rfl he.1 h₁ (by omega)
            (open_reads value (Nat.zero_le 8) he.2 h₃ (by omega) hmore hpart)
      | _ => exact hplain rfl rfl

/-! ## The colon is taken -/

/-- Without its lines, the expression is larger than this. -/
def Outweighs (size : Nat) (e : Expr) : Prop := size < sizeOf e.unlined

section Extensions

variable {size : Nat}

theorem size_target? {target : Target} (h : e.target? = some target) :
    sizeOf e.unlined ≤ sizeOf target.unlined := by
  cases e <;> cases h <;> simp [Expr.unlined, Target.unlined]

theorem targetOf_outweighs (h : Outweighs size e) (line : Nat) :
    Yields (targetOf e line) fun target => size < sizeOf target.unlined := by
  unfold targetOf
  split
  next target htarget => exact .pure (Nat.lt_of_lt_of_le h (size_target? htarget))
  · exact .fail

theorem build_outweighs {target : Target} (h : size < sizeOf target.unlined) (op : AssignOp)
    (value : Expr) (line : Nat) : Outweighs size (op.build target value line) := by
  cases op <;> simp only [Outweighs, AssignOp.build, updated, Expr.unlined, Expr.assign.sizeOf_spec]
    <;> omega

theorem stepped_outweighs (h : Outweighs size e) (op : BinaryOp) (line : Nat) :
    Yields (stepped e op line) (Outweighs size) :=
  .bind (targetOf_outweighs h line) fun _ htarget =>
    .pure (build_outweighs htarget (.combine op) _ line)

theorem suffixes_outweigh (fuel : Nat) (h : Outweighs size e) :
    Yields (suffixes expression fuel e) (Outweighs size) := by
  induction fuel generalizing e with
  | zero => exact .outOfFuel
  | succ fuel ih =>
      have hsuffix : Yields (suffix? expression e) fun e? => ∀ e' ∈ e?, Outweighs size e' := by
        have hmember (line : Nat) : Yields (memberOf expression e line) (Outweighs size) := by
          refine .after fun name => .after fun called => ?_
          split
          · refine .after fun es => .pure ?_
            simp only [Outweighs, Expr.unlined, Expr.methodCall.sizeOf_spec] at h ⊢
            omega
          · refine .pure ?_
            simp only [Outweighs, Expr.unlined, Expr.member.sizeOf_spec] at h ⊢
            omega
        have helement (line : Nat) : Yields (elementOf expression e line) (Outweighs size) := by
          refine .after fun position => .after fun _ => .pure ?_
          simp only [Outweighs, Expr.unlined, Expr.index.sizeOf_spec] at h ⊢
          omega
        refine .after fun found => ?_
        split
        · exact .after fun _ => .bind (hmember _) fun _ he' => .some he'
        · exact .after fun _ => .bind (helement _) fun _ he' => .some he'
        · exact .after fun _ => .bind (stepped_outweighs h _ _) fun _ he' => .some he'
        · exact .after fun _ => .bind (stepped_outweighs h _ _) fun _ he' => .some he'
        · exact .pure fun _ h => absurd h (Option.not_mem_none _)
      refine .bind hsuffix fun e? he? => ?_
      split
      · exact ih (he? _ rfl)
      · exact .pure h

theorem level_rest_outweighs {operand : Parser Expr} (level : Level) (fuel : Nat)
    (h : Outweighs size e) : Yields (level.rest operand fuel e) (Outweighs size) := by
  induction fuel generalizing e with
  | zero => exact .outOfFuel
  | succ fuel ih =>
      have hextend : Yields (level.extend? operand e) fun e? => ∀ e' ∈ e?, Outweighs size e' := by
        refine .after fun found => ?_
        split
        · split
          · refine .after fun _ => .after fun right => .some ?_
            simp only [Outweighs, Expr.unlined, Expr.binary.sizeOf_spec] at h ⊢
            omega
          · refine .after fun _ => .after fun ty => .some ?_
            simp only [Outweighs, Expr.unlined, Expr.typeTest.sizeOf_spec] at h ⊢
            omega
          · exact .pure fun _ h => absurd h (Option.not_mem_none _)
        · exact .pure fun _ h => absurd h (Option.not_mem_none _)
      refine .bind hextend fun e? he? => ?_
      split
      · exact ih (he? _ rfl)
      · exact .pure h

theorem conditional_outweighs {fuel : Nat} {e' : Expr} {rest : List Lexeme}
    (hfirst : ∀ first left, binary (unary expression fuel) fuel levels ts = .ok first left →
      Outweighs size first)
    (h : conditional expression fuel ts = .ok e' rest) : Outweighs size e' := by
  obtain ⟨condition, ts₁, hcondition, hbranches⟩ := Action.ok_of_bind h
  have hcondition := hfirst condition ts₁ hcondition
  refine (show Yields _ (Outweighs size) from .after fun found => ?_) hbranches
  split
  · refine .after fun _ => .after fun _ => .after fun _ => .after fun _ => .pure ?_
    simp only [Outweighs, Expr.unlined, Expr.conditional.sizeOf_spec] at hcondition ⊢
    omega
  · exact .pure hcondition

theorem assignment_outweighs {fuel : Nat} {e' : Expr} {rest : List Lexeme}
    (hfirst : ∀ first left, conditional expression fuel ts = .ok first left →
      Outweighs size first)
    (h : assignment expression fuel ts = .ok e' rest) : Outweighs size e' := by
  obtain ⟨left, ts₁, hleft, hassign⟩ := Action.ok_of_bind h
  have hleft := hfirst left ts₁ hleft
  refine (show Yields _ (Outweighs size) from .after fun found => ?_) hassign
  split
  · split
    · exact .after fun _ => .bind (targetOf_outweighs hleft _) fun _ htarget =>
        .after fun _ => .pure (build_outweighs htarget _ _ _)
    · exact .pure hleft
  · exact .pure hleft

end Extensions

/-- Whatever the rule reads from the lexemes outweighs the expression. -/
def Outgrows (p : Parser Expr) (ts : List Lexeme) (e : Expr) : Prop :=
  ∀ e' rest, p ts = .ok e' rest → Outweighs (sizeOf e.unlined) e'

theorem Outgrows.loosen {j k : Nat} (h : Outgrows (rule expression n j) ts e) (hk : k ≤ j)
    (hj : j ≤ 8) : Outgrows (rule expression n k) ts e := by
  obtain ⟨above, rfl⟩ := Nat.exists_eq_add_of_le hk
  induction above with
  | zero => exact h
  | succ above ih =>
      refine ih ?_ (Nat.le_add_right _ _) (by omega)
      have hi : k + above < 8 := by omega
      have htighter : Outgrows (rule expression n (k + above + 1)) ts e := h
      generalize k + above = i at hi htighter ⊢
      cases i with
      | zero =>
          exact fun e' rest hread => assignment_outweighs
            (fun first left hfirst => conditional_outweighs htighter hfirst) hread
      | succ i =>
          obtain ⟨level, hlevels, -⟩ := levels_drop (Nat.lt_of_succ_lt_succ hi)
          rw [rule, hlevels]
          intro e' rest hread
          obtain ⟨first, ts₁, hfirst, hrest⟩ := Action.ok_of_bind hread
          exact level_rest_outweighs level n (htighter first ts₁ hfirst) hrest

theorem array_outgrows (hread : ReadsBelow n expression) {es : List Expr} {line₀ : Nat}
    (he : WellFormedAll es) (hts : Spells ts (Expr.array es none line₀).tokens)
    (hle : ts.length ≤ n) (hcolon : elementTypeFollows es more = true) :
    Outgrows (rule expression n 8) (ts ++ more) (.array es none line₀) := by
  have hbegins : Begins true (ts.map Lexeme.token) := by
    rw [hts]
    exact ⟨_, rfl, rfl, fun _ => rfl⟩
  obtain ⟨line₁, ts₁, rfl, h₁⟩ := Spells.cons_iff.mp hts
  obtain ⟨es', heqs, hliteral⟩ :=
    arrayLiteral_of_elements hread he h₁ (Nat.le_of_succ_le hle) line₁ more
  rw [hcolon] at hliteral
  intro e' rest hrun
  obtain ⟨ops, ts₂, hops, hrun⟩ := Action.ok_of_bind hrun
  rw [Action.modifyGet, leadingOps_of_begins hbegins] at hops
  cases hops
  obtain ⟨first, ts₃, hfirst, hrun⟩ := Action.ok_of_bind hrun
  have htyped : Outweighs (sizeOf (Expr.array es none line₀).unlined) first := by
    have hprimary : arrayLiteral expression line₁ (ts₁ ++ more) = .ok first ts₃ := hfirst
    rw [hliteral] at hprimary
    refine (show Yields _ _ from .after fun _ => .after fun ty => .pure ?_) hprimary
    have hty : 0 < sizeOf ty := by
      cases ty with
      | array element => exact Nat.add_pos_left Nat.one_pos _
      | named name => exact Nat.add_pos_left Nat.one_pos _
      | _ => exact Nat.one_pos
    simp only [Outweighs, Expr.unlined, heqs, Expr.array.sizeOf_spec, Option.none.sizeOf_spec,
      Option.some.sizeOf_spec]
    omega
  obtain ⟨operand, ts₄, hsuffixes, hrun⟩ := Action.ok_of_bind hrun
  cases hrun
  exact suffixes_outweigh n htyped hsuffixes

theorem unary_outgrows {operand : Expr} {op : UnaryOp} {line₀ : Nat}
    (h : Outgrows (rule expression n 8) ts operand) :
    Outgrows (rule expression n 8) (⟨.symbol op.symbol, line⟩ :: ts) (.unary op operand line₀) := by
  have hop : LeadingOp.ofToken? (.symbol op.symbol) = some (.unary op) := by cases op <;> rfl
  intro e' rest hread
  have hrun := (unary_leading n hop line ts).symm.trans hread
  obtain ⟨inner, ts₁, hinner, happly⟩ := Action.ok_of_bind hrun
  have hsize := h inner ts₁ hinner
  cases happly
  simp only [Outweighs, Expr.unlined, Expr.unary.sizeOf_spec] at hsize ⊢
  omega

theorem operator_outgrows (hread : ReadsBelow n expression) {left right : Expr} {op : BinaryOp}
    {ts₁ : List Lexeme} {line₀ : Nat} (hleft : left.WellFormed)
    (hplace : Placed op.level left ts₁ (⟨.symbol op.symbol, line⟩ :: ts)) (hlt : ts₁.length < n)
    (hright : Outgrows (rule expression n (op.level + 1)) ts right) :
    Outgrows (rule expression n op.level) (ts₁ ++ ⟨.symbol op.symbol, line⟩ :: ts)
      (.binary left op right line₀) := by
  obtain ⟨j, hop⟩ : ∃ j, op.level = j + 1 := by cases op <;> exact ⟨_, rfl⟩
  have hj : j < 7 := Nat.lt_of_succ_le (Nat.le_trans (Nat.le_of_eq hop.symm) op.level_le)
  obtain ⟨level, hlevels, hlevel⟩ := levels_drop hj
  rw [hop] at hplace hright ⊢
  have hnext : Loose (j + 1 + 1) (⟨.symbol op.symbol, line⟩ :: ts) :=
    .of_continues (hlevel.continues_of_continuation? (hlevel.continuation?_operator hop))
      (Nat.lt_succ_self _)
  obtain ⟨left', fuel, hinto, heq, hfuel⟩ := level_into hlevel (by omega)
    (rule_reads hread (show j + 1 + 1 ≤ 8 by omega)) left hleft hplace (by omega) hnext
  obtain ⟨fuel, rfl⟩ : ∃ m, fuel = m + 1 := ⟨fuel - 1, by omega⟩
  rw [rule, hlevels]
  intro e' rest hrun
  have hrest := (hinto.trans (hlevel.rest_operator hop _ fuel left' line ts)).symm.trans hrun
  obtain ⟨right', ts₂, hright', hrest⟩ := Action.ok_of_bind hrest
  have hsize := hright right' ts₂ hright'
  refine level_rest_outweighs level fuel ?_ hrest
  simp only [Outweighs, Expr.unlined, heq, Expr.binary.sizeOf_spec] at hsize ⊢
  omega

theorem conditional_outgrows {condition onTrue onFalse : Expr} {ts₁ ts₂ : List Lexeme}
    {line₀ line₁ line₂ : Nat}
    (hcondition : Reads (binary (unary expression n) n levels) ts₁
      (⟨.symbol .question, line₁⟩ :: (ts₂ ++ ⟨.symbol .colon, line₂⟩ :: ts)) condition)
    (htrue : Reads expression ts₂ (⟨.symbol .colon, line₂⟩ :: ts) onTrue)
    (hfalse : Outgrows expression ts onFalse) :
    Outgrows (assignment expression n)
      (ts₁ ++ ⟨.symbol .question, line₁⟩ :: (ts₂ ++ ⟨.symbol .colon, line₂⟩ :: ts))
      (.conditional condition onTrue onFalse line₀) := by
  obtain ⟨condition', onTrue', heq₁, heq₂, hbranch⟩ := conditional_of_branch hcondition htrue
  intro e' rest hrun
  refine assignment_outweighs (fun left ts' hleft => ?_) hrun
  obtain ⟨onFalse', ts₃, hfalse', hbuild⟩ := Action.ok_of_bind (hbranch.symm.trans hleft)
  have hsize := hfalse onFalse' ts₃ hfalse'
  cases hbuild
  simp only [Outweighs, Expr.unlined, heq₁, heq₂, Expr.conditional.sizeOf_spec] at hsize ⊢
  omega

theorem assign_outgrows (hread : ReadsBelow n expression) {target : Target} {value : Expr}
    {ts₁ : List Lexeme} {line₀ : Nat} (htarget : target.WellFormed)
    (hts : Spells ts₁ target.tokens) (hle : ts₁.length ≤ n)
    (hvalue : Outgrows expression ts value) :
    Outgrows (assignment expression n) (ts₁ ++ ⟨.symbol .assign, line⟩ :: ts)
      (.assign target value line₀) := by
  have hmark : AssignOp.ofToken? (.symbol .assign) = some .replace := rfl
  obtain ⟨target', heq, hassign⟩ :=
    assignment_of_target hread .replace hmark htarget hts hle line ts
  intro e' rest hrun
  obtain ⟨value', ts₂, hvalue', hbuild⟩ := Action.ok_of_bind (hassign.symm.trans hrun)
  have hsize := hvalue value' ts₂ hvalue'
  cases hbuild
  simp only [Outweighs, AssignOp.build, Expr.unlined, heq, Expr.assign.sizeOf_spec] at hsize ⊢
  omega

/-- If the last literal of an open expression takes the colon, another expression is read or
none. -/
theorem open_outgrows : ∀ (e : Expr) {n k : Nat} {ts more : List Lexeme}, k ≤ 8 → e.WellFormed →
    Spells ts (e.openAt k) → ts.length ≤ n → e.opens k = true → e.TakesColon more →
    Outgrows (rule (expressionAt n) n k) (ts ++ more) e
  | e, n, k, ts, more, hk, he, hts, hle, hopens, hcolon => by
      have hread : ReadsBelow n (expressionAt n) := expressionAt_reads n
      rw [Expr.openAt, if_pos hopens] at hts
      have hlevel := level_of_opens hk hopens
      cases e with
      | array elements ty line =>
          obtain ⟨es, hes, hfollows⟩ := hcolon
          cases ty with
          | some ty => cases hes
          | none =>
              obtain rfl := Option.some.inj hes
              exact (array_outgrows hread he hts hle hfollows).loosen hk (Nat.le_refl 8)
      | unary op operand line =>
          obtain ⟨line₁, ts₁, rfl, h₁⟩ := Spells.cons_iff.mp hts
          obtain ⟨hpart, hcolon⟩ := (Expr.takesColon_iff rfl).mp hcolon
          have hoperand := open_outgrows operand (n := n) (Nat.le_refl 8) he h₁
            (Nat.le_of_succ_le hle) hpart hcolon
          exact (unary_outgrows hoperand).loosen hk (Nat.le_refl 8)
      | binary left op right line =>
          obtain ⟨ts₁, ts₂, rfl, h₁, h₂⟩ := Spells.append_iff.mp hts
          obtain ⟨line₁, ts₃, rfl, h₃⟩ := Spells.cons_iff.mp h₂
          obtain ⟨hpart, hcolon⟩ := (Expr.takesColon_iff rfl).mp hcolon
          rw [List.length_append, List.length_cons] at hle
          have hright := open_outgrows right (n := n) (Nat.succ_le_succ op.level_le) he.2 h₃
            (by omega) hpart hcolon
          rw [List.append_assoc]
          exact (operator_outgrows hread he.1 (.of_tokensAt h₁) (by omega) hright).loosen hlevel
            (Nat.le_succ_of_le op.level_le)
      | conditional condition onTrue onFalse line =>
          obtain rfl := Nat.le_zero.mp hlevel
          obtain ⟨ts₁, ts₂, rfl, h₁, h₂⟩ := Spells.append_iff.mp hts
          obtain ⟨line₁, ts₃, rfl, h₃⟩ := Spells.cons_iff.mp h₂
          obtain ⟨ts₄, ts₅, rfl, h₄, h₅⟩ := Spells.append_iff.mp h₃
          obtain ⟨line₂, ts₆, rfl, h₆⟩ := Spells.cons_iff.mp h₅
          obtain ⟨hpart, hcolon⟩ := (Expr.takesColon_iff rfl).mp hcolon
          simp only [List.length_append, List.length_cons] at hle
          obtain ⟨n, rfl⟩ : ∃ m, n = m + 1 := ⟨n - 1, by omega⟩
          have hfalse := open_outgrows onFalse (n := n) (Nat.zero_le 8) he.2.2 h₆ (by omega) hpart
            hcolon
          have hquestion : Loose 1 (⟨.symbol .question, line₁⟩ ::
              (ts₄ ++ ⟨.symbol .colon, line₂⟩ :: (ts₆ ++ more))) := .of_continues rfl Nat.one_pos
          have hnext : Loose 0 (⟨.symbol .colon, line₂⟩ :: (ts₆ ++ more)) := .of_none rfl
          simp only [List.append_assoc, List.cons_append]
          exact conditional_outgrows
            (binary_reads hread 7 0 rfl he.1 (.of_tokensAt h₁) (by omega) hquestion)
            (hread he.2.1 (.of_tokensAt h₄) (by omega) hnext) hfalse
      | assign target value line =>
          obtain rfl := Nat.le_zero.mp hlevel
          obtain ⟨ts₁, ts₂, rfl, h₁, h₂⟩ := Spells.append_iff.mp hts
          obtain ⟨line₁, ts₃, rfl, h₃⟩ := Spells.cons_iff.mp h₂
          obtain ⟨hpart, hcolon⟩ := (Expr.takesColon_iff rfl).mp hcolon
          simp only [List.length_append, List.length_cons] at hle
          obtain ⟨n, rfl⟩ : ∃ m, n = m + 1 := ⟨n - 1, by omega⟩
          have hvalue := open_outgrows value (n := n) (Nat.zero_le 8) he.2 h₃ (by omega) hpart
            hcolon
          rw [List.append_assoc]
          exact assign_outgrows hread he.1 h₁ (by omega) hvalue
      | _ =>
          obtain ⟨_, hes, -⟩ := hcolon
          cases hes

end Grammar

end ClassScript
