import ClassScript.Proofs.Precedence.Rules

/-!
# Updates of a target

`t op= e`, `++t` and `t++` are read as the assignments that they abbreviate, for every target and
with every operand; over anything else that stands in parentheses they are refused, and so is a
plain assignment. The assignment level, the leading operators and the suffixes each build such an
assignment.
-/

namespace ClassScript

/-! ## How a program writes an update -/

/-- The symbol that assigns to a target what the operator makes of it. -/
def BinaryOp.assignSymbol? : BinaryOp → Option Symbol
  | .add => some .plusAssign
  | .subtract => some .minusAssign
  | .multiply => some .starAssign
  | .divide => some .slashAssign
  | .modulo => some .percentAssign
  | _ => none

/-- The symbol that applies the operator to a target and one. -/
def BinaryOp.stepSymbol? : BinaryOp → Option Symbol
  | .add => some .plusPlus
  | .subtract => some .minusMinus
  | _ => none

/-- An update of a target: `t op= operand`, `++t` or `t++`. -/
inductive Update where
  | combine (op : BinaryOp) (operand : Expr)
  | stepBefore (op : BinaryOp)
  | stepAfter (op : BinaryOp)

namespace Update

def mark? : Update → Option Symbol
  | .combine op _ => op.assignSymbol?
  | .stepBefore op | .stepAfter op => op.stepSymbol?

def op : Update → BinaryOp
  | .combine op _ | .stepBefore op | .stepAfter op => op

def operand : Update → Expr
  | .combine _ operand => operand
  | .stepBefore _ | .stepAfter _ => .literal (.int 1) 0

/-- The tokens of the update of a place. -/
def tokens (mark : Symbol) (place : List Token) : Update → List Token
  | .combine _ operand => place ++ .symbol mark :: operand.tokens
  | .stepBefore _ => .symbol mark :: place
  | .stepAfter _ => place ++ [.symbol mark]

/-- The tokens of the right operand if the update is written out. -/
def operandTokens : Update → List Token
  | .combine _ operand => parens false operand.tokens
  | .stepBefore _ | .stepAfter _ => [.int 1]

/-- The tokens of the assignment that the update abbreviates: `t = t op (operand)` or
`t = t op 1`. -/
def spelledOut (place : List Token) (update : Update) : List Token :=
  place ++ .symbol .assign :: (place ++ .symbol update.op.symbol :: update.operandTokens)

end Update

namespace Grammar

variable {expression : Parser Expr} {n : Nat} {e : Expr} {ts more : List Lexeme} {line : Nat}

/-! ## Steps -/

section Steps

variable {op : BinaryOp} {mark : Symbol} (hmark : op.stepSymbol? = some mark)

include hmark

theorem leadingOp_of_stepSymbol? : LeadingOp.ofToken? (.symbol mark) = some (.step op) := by
  cases op <;> cases hmark <;> rfl

theorem suffix?_step : suffix? expression e (⟨.symbol mark, line⟩ :: more) =
    (stepped e op line >>= fun e => pure (some e) : Parser (Option Expr)) more := by
  cases op <;> cases hmark <;> rfl

theorem loose_of_stepSymbol? : Loose 10 (⟨.symbol mark, line⟩ :: more) := by
  refine .of_continues (j := 9) ?_ (Nat.lt_succ_self 9)
  cases op <;> cases hmark <;> rfl

end Steps

/-- The expression names a target up to lines, so it can be updated. -/
theorem stepped_of_unlined {target : Target} (op : BinaryOp) (line : Nat) {line₀ : Nat}
    (h : e.unlined = (target.toExpr line₀).unlined) :
    ∃ e', (∀ ts, stepped e op line ts = .ok e' ts) ∧
      e'.unlined = (updated target op (.literal (.int 1) 0) 0).unlined := by
  obtain ⟨target', htarget', heq⟩ := target?_of_unlined h
  have hof : targetOf e line = pure target' := by rw [targetOf, htarget']
  refine ⟨updated target' op (.literal (.int 1) line) line, fun ts => ?_, ?_⟩
  · rw [stepped, hof]
    rfl
  · exact updated_unlined heq rfl

theorem stepped_of_none {op : BinaryOp} (h : e.target? = none) :
    stepped e op line ts = .error (.invalidAssignmentTarget line) ts := by
  have hof : targetOf e line = Action.fail (.invalidAssignmentTarget line) := by rw [targetOf, h]
  rw [stepped, hof]
  rfl

/-! ## What an update is read as -/

section Reading

variable (hread : ReadsBelow n expression) {target : Target} (htarget : target.WellFormed)
  {op : BinaryOp} {mark : Symbol}

include hread htarget

theorem combine_reads {operand : Expr} (hmark : op.assignSymbol? = some mark)
    (hoperand : operand.WellFormed)
    (hts : Spells ts (target.tokens ++ .symbol mark :: operand.tokens)) (hle : ts.length ≤ n)
    (hmore : Loose 0 more) (hcolon : NotNext .colon more) :
    Reads (assignment expression n) ts more (updated target op operand 0) := by
  obtain ⟨ts₁, ts₂, rfl, h₁, h₂⟩ := Spells.append_iff.mp hts
  obtain ⟨line, ts₃, rfl, h₃⟩ := Spells.cons_iff.mp h₂
  rw [List.length_append, List.length_cons] at hle
  have hop : AssignOp.ofToken? (.symbol mark) = some (.combine op) := by
    cases op <;> cases hmark <;> rfl
  have hplace : Placed 0 operand ts₃ more :=
    .bare h₃ (Nat.zero_le _) fun _ => ⟨hmore.mono (Nat.zero_le 9), hcolon⟩
  exact assignment_of_parts hread _ hop htarget h₁ (by omega)
    (hread hoperand hplace (by omega) hmore)

theorem stepBefore_reads (hmark : op.stepSymbol? = some mark)
    (hts : Spells ts (.symbol mark :: target.tokens)) (hle : ts.length ≤ n) (hmore : Loose 9 more) :
    Reads (unary expression n) ts more (updated target op (.literal (.int 1) 0) 0) := by
  obtain ⟨line, ts₁, rfl, h₁⟩ := Spells.cons_iff.mp hts
  have hplace : Placed 9 (target.toExpr 0) ts₁ more := target_placed (Nat.le_refl 9) h₁
  obtain ⟨e', hrun, heq⟩ := unary_of_begins hplace.begins (suffixed_reads hread
    (Target.wellFormed_toExpr htarget) hplace (Nat.le_of_succ_le hle) hmore)
  obtain ⟨whole, hstep, hwhole⟩ := stepped_of_unlined op line heq
  refine ⟨whole, ?_, hwhole⟩
  exact (unary_leading n (leadingOp_of_stepSymbol? hmark) line _).trans
    ((Action.bind_of_ok hrun).trans (hstep more))

/-- The step is one more round of the suffixes of its target. -/
theorem stepAfter_reads (hmark : op.stepSymbol? = some mark)
    (hts : Spells ts (target.tokens ++ [.symbol mark])) (hle : ts.length ≤ n)
    (hmore : Loose 9 more) :
    Reads (unary expression n) ts more (updated target op (.literal (.int 1) 0) 0) := by
  obtain ⟨ts₁, ts₂, rfl, h₁, h₂⟩ := Spells.append_iff.mp hts
  obtain ⟨line, rfl⟩ := Spells.singleton_iff.mp h₂
  have hplace : Placed 9 (target.toExpr 0) ts₁ (⟨.symbol mark, line⟩ :: more) :=
    target_placed (Nat.le_refl 9) h₁
  have hlength : ts₁.length ≤ n := by
    rw [List.length_append] at hle
    omega
  have hround (left : Nat) (e' : Expr) (heq : e'.unlined = (target.toExpr 0).unlined) :
      ∃ whole, suffixes expression (left + 1) e' ([⟨.symbol mark, line⟩] ++ more) =
        suffixes expression left whole more ∧
        whole.unlined = (updated target op (.literal (.int 1) 0) 0).unlined := by
    obtain ⟨whole, hstep, hwhole⟩ := stepped_of_unlined op line heq
    refine ⟨whole, suffixes_of_some ?_, hwhole⟩
    exact (suffix?_step hmark).trans (Action.bind_of_ok (hstep more))
  have hinto : ReadsInto (primary expression) (suffixes expression) n
      (ts₁ ++ [⟨.symbol mark, line⟩]) more (updated target op (.literal (.int 1) 0) 0) :=
    (suffixes_into hread _ (Target.wellFormed_toExpr htarget) hplace hlength
      (loose_of_stepSymbol? hmark)).extend hle Nat.one_pos hround
  have hbegins : Begins true (List.map Lexeme.token (ts₁ ++ [⟨.symbol mark, line⟩])) := by
    rw [List.map_append]
    exact hplace.begins.append _
  exact unary_of_begins hbegins (hinto.reads hle fun left e' => suffixes_of_loose hmore)

/-- Each way to write an update is read as the assignment of `target op operand`. -/
theorem update_reads {update : Update} (hmark : update.mark? = some mark)
    (hoperand : update.operand.WellFormed) (hts : Spells ts (update.tokens mark target.tokens))
    (hle : ts.length ≤ n) (hmore : Loose 0 more) (hcolon : NotNext .colon more) :
    Reads (assignment expression n) ts more (updated target update.op update.operand 0) := by
  have hmore' : Loose 9 more := hmore.mono (Nat.zero_le 9)
  cases update with
  | combine op operand => exact combine_reads hread htarget hmark hoperand hts hle hmore hcolon
  | stepBefore op =>
      have hunary : Reads (rule expression n 8) ts more
          (updated target op (.literal (.int 1) 0) 0) :=
        stepBefore_reads hread htarget hmark hts hle hmore'
      have hpos : 0 < ts.length := by
        obtain ⟨_, _, rfl, -⟩ := Spells.cons_iff.mp hts
        exact Nat.succ_pos _
      exact hunary.loosen (Nat.zero_le 8) (Nat.le_refl 8) hpos hle hmore
  | stepAfter op =>
      have hunary : Reads (rule expression n 8) ts more
          (updated target op (.literal (.int 1) 0) 0) :=
        stepAfter_reads hread htarget hmark hts hle hmore'
      have hpos : 0 < ts.length := by
        obtain ⟨ts₁, _, rfl, -, h₂⟩ := Spells.append_iff.mp hts
        obtain ⟨_, rfl⟩ := Spells.singleton_iff.mp h₂
        rw [List.length_append]
        exact Nat.succ_pos _
      exact hunary.loosen (Nat.zero_le 8) (Nat.le_refl 8) hpos hle hmore

end Reading

theorem operand_placed {update : Update} {k : Nat} (hk : k ≤ 10)
    (hts : Spells ts update.operandTokens) : Placed k update.operand ts more := by
  cases update with
  | combine op operand => exact .enclosed hts
  | stepBefore op | stepAfter op => exact .bare hts hk nofun

/-- The assignment that an update abbreviates is read when it is written out. -/
theorem spelledOut_reads {update : Update} {target : Target} (htarget : target.WellFormed)
    (hoperand : update.operand.WellFormed) (hts : Spells ts (update.spelledOut target.tokens))
    (hlt : ts.length < n) (hmore : Loose 0 more) :
    Reads (expressionAt n) ts more (updated target update.op update.operand 0) := by
  obtain ⟨ts₁, ts₂, rfl, h₁, h₂⟩ := Spells.append_iff.mp hts
  obtain ⟨line₁, ts₃, rfl, h₃⟩ := Spells.cons_iff.mp h₂
  obtain ⟨ts₄, ts₅, rfl, h₄, h₅⟩ := Spells.append_iff.mp h₃
  obtain ⟨line₂, ts₆, rfl, h₆⟩ := Spells.cons_iff.mp h₅
  simp only [List.length_append, List.length_cons] at hlt
  obtain ⟨n, rfl⟩ : ∃ m, n = m + 2 := ⟨n - 2, by omega⟩
  have hop : update.op.level ≤ 7 := update.op.level_le
  have hright := rule_reads (expressionAt_reads n) (show update.op.level + 1 ≤ 8 by omega) hoperand
    (operand_placed (by omega) h₆) (by omega) (hmore.mono (Nat.zero_le _))
  have hlength : (ts₄ ++ ⟨.symbol update.op.symbol, line₂⟩ :: ts₆).length ≤ n := by
    rw [List.length_append, List.length_cons]
    omega
  have hoperation : Reads (rule (expressionAt n) n update.op.level)
      (ts₄ ++ ⟨.symbol update.op.symbol, line₂⟩ :: ts₆) more
      (.binary (target.toExpr 0) update.op update.operand 0) :=
    operator_reads (expressionAt_reads n) (Target.wellFormed_toExpr htarget)
      (target_placed (by omega) h₄) hright hlength (hmore.mono (Nat.zero_le _))
  have hvalue : Reads (expressionAt (n + 1)) (ts₄ ++ ⟨.symbol update.op.symbol, line₂⟩ :: ts₆) more
      (.binary (target.toExpr 0) update.op update.operand 0) := by
    refine hoperation.loosen (Nat.zero_le _) (by omega) ?_ hlength hmore
    rw [List.length_append, List.length_cons]
    omega
  exact assignment_of_parts (expressionAt_reads (n + 1)) .replace rfl htarget h₁ (by omega)
    hvalue

/-! ## What cannot be updated -/

theorem target?_unlined (e : Expr) : e.unlined.target? = e.target?.map Target.unlined := by
  cases e <;> rfl

theorem target?_of_none {e' : Expr} (h : e'.unlined = e.unlined) (hnone : e.target? = none) :
    e'.target? = none := by
  have hmap : e'.target?.map Target.unlined = none := by
    rw [← target?_unlined, h, target?_unlined, hnone]
    rfl
  exact Option.map_eq_none_iff.mp hmap

section Refusing

variable (hread : ReadsBelow n expression) (he : e.WellFormed) (hnone : e.target? = none)
  {mark : Symbol}

include hread he hnone

/-- An assignment to anything but a target is refused at its operator. -/
theorem assignment_refused {op : AssignOp} (hmark : AssignOp.ofToken? (.symbol mark) = some op)
    (hts : Spells ts (parens false e.tokens)) (hle : ts.length ≤ n) :
    assignment expression n (ts ++ ⟨.symbol mark, line⟩ :: more) =
      .error (.invalidAssignmentTarget line) more := by
  have hassign : Loose 1 (⟨.symbol mark, line⟩ :: more) :=
    .of_continues (AssignOp.continues_of_ofToken? hmark) Nat.one_pos
  obtain ⟨left, hleft, heq⟩ := conditional_of_notNext
    (binary_reads hread 7 0 rfl he (.enclosed hts) hle hassign) (AssignOp.notNext_question hmark)
  have hof : targetOf left line = Action.fail (.invalidAssignmentTarget line) := by
    rw [targetOf, target?_of_none heq hnone]
  refine (Action.bind_of_ok hleft).trans ?_
  refine (Action.bind_of_ok (peek?_cons _ _)).trans ?_
  simp only [hmark, hof]
  rfl

section Steps

variable {op : BinaryOp} (hmark : op.stepSymbol? = some mark)
  (hts : Spells ts (parens false e.tokens)) (hle : ts.length ≤ n)

include hmark hts hle

theorem stepBefore_refused (hmore : Loose 9 more) :
    unary expression n (⟨.symbol mark, line⟩ :: (ts ++ more)) =
      .error (.invalidAssignmentTarget line) more := by
  have hplace : Placed 9 e ts more := .enclosed hts
  obtain ⟨e', hrun, heq⟩ := unary_of_begins hplace.begins (suffixed_reads hread he hplace hle hmore)
  exact (unary_leading n (leadingOp_of_stepSymbol? hmark) line _).trans
    ((Action.bind_of_ok hrun).trans (stepped_of_none (target?_of_none heq hnone)))

theorem stepAfter_refused :
    unary expression n (ts ++ ⟨.symbol mark, line⟩ :: more) =
      .error (.invalidAssignmentTarget line) more := by
  have hplace : Placed 10 e ts (⟨.symbol mark, line⟩ :: more) := .enclosed hts
  have hpos := hplace.length_pos
  obtain ⟨n, rfl⟩ : ∃ m, n = m + 1 := ⟨n - 1, by omega⟩
  obtain ⟨e', hrun, heq⟩ := primary_reads hread he hplace hle (loose_of_stepSymbol? hmark)
  have hround : suffixes expression (n + 1) e' (⟨.symbol mark, line⟩ :: more) =
      .error (.invalidAssignmentTarget line) more := by
    refine Action.bind_of_error ?_
    rw [suffix?_step hmark]
    exact Action.bind_of_error (stepped_of_none (target?_of_none heq hnone))
  have hops : (Action.modifyGet leadingOps : Parser _) (ts ++ ⟨.symbol mark, line⟩ :: more) =
      .ok [] (ts ++ ⟨.symbol mark, line⟩ :: more) := by
    rw [Action.modifyGet, leadingOps_of_begins hplace.begins]
  refine (Action.bind_of_ok hops).trans ((Action.bind_of_ok hrun).trans ?_)
  exact Action.bind_of_error hround

end Steps

/-- An update of anything but a target is refused at its operator. -/
theorem update_refused {update : Update} (hmark : update.mark? = some mark)
    (hts : Spells ts (update.tokens mark (parens false e.tokens))) (hle : ts.length ≤ n)
    (hmore : Loose 9 more) :
    ∃ lexeme ∈ ts, lexeme.token = .symbol mark ∧ ∃ left, assignment expression n (ts ++ more) =
      .error (.invalidAssignmentTarget lexeme.line) left := by
  cases update with
  | combine op operand =>
      obtain ⟨ts₁, ts₂, rfl, h₁, h₂⟩ := Spells.append_iff.mp hts
      obtain ⟨line, ts₃, rfl, -⟩ := Spells.cons_iff.mp h₂
      have hop : AssignOp.ofToken? (.symbol mark) = some (.combine op) := by
        cases op <;> cases hmark <;> rfl
      rw [List.length_append] at hle
      refine ⟨⟨.symbol mark, line⟩, by simp, rfl, ts₃ ++ more, ?_⟩
      rw [List.append_assoc]
      exact assignment_refused hread he hnone hop h₁ (by omega)
  | stepBefore op =>
      obtain ⟨line, ts₁, rfl, h₁⟩ := Spells.cons_iff.mp hts
      refine ⟨⟨.symbol mark, line⟩, List.mem_cons_self, rfl, more, assignment_of_error ?_⟩
      exact stepBefore_refused hread he hnone hmark h₁ (Nat.le_of_succ_le hle) hmore
  | stepAfter op =>
      obtain ⟨ts₁, ts₂, rfl, h₁, h₂⟩ := Spells.append_iff.mp hts
      obtain ⟨line, rfl⟩ := Spells.singleton_iff.mp h₂
      rw [List.length_append, List.length_singleton] at hle
      refine ⟨⟨.symbol mark, line⟩, by simp, rfl, more, assignment_of_error ?_⟩
      rw [List.append_assoc]
      exact stepAfter_refused hread he hnone hmark h₁ (by omega)

end Refusing

end Grammar

/-- Updates are exactly the assignments that they abbreviate: over every target, `t op= operand` is
read as `t = t op (operand)` and a step before or after the target as `t = t op 1`, up to lines;
over an expression in parentheses that names no target, they and the plain assignment are refused,
on the line of the operator. -/
theorem Grammar.updates_abbreviate :
    (∀ (update : Update) (mark : Symbol) (target : Target) (ts ts' rest rest' : List Lexeme)
        (line line' : Nat), update.mark? = some mark → target.WellFormed →
      update.operand.WellFormed → Spells ts (update.tokens mark target.tokens) →
      Spells ts' (update.spelledOut target.tokens) →
      ∃ e e', expression (ts ++ ⟨.symbol .semicolon, line⟩ :: rest) =
          .ok e (⟨.symbol .semicolon, line⟩ :: rest) ∧
        expression (ts' ++ ⟨.symbol .semicolon, line'⟩ :: rest') =
          .ok e' (⟨.symbol .semicolon, line'⟩ :: rest') ∧
        e.unlined = e'.unlined ∧
        e'.unlined = (updated target update.op update.operand 0).unlined) ∧
    (∀ (e : Expr) (mark : Symbol) (ts rest : List Lexeme) (line : Nat), e.WellFormed →
      e.target? = none →
      ((∃ update : Update, update.mark? = some mark ∧
          Spells ts (update.tokens mark (parens false e.tokens))) ∨
        (mark = .assign ∧ ∃ value : Expr,
          Spells ts (parens false e.tokens ++ .symbol mark :: value.tokens))) →
      ∃ lexeme ∈ ts, lexeme.token = .symbol mark ∧
        ∃ left, expression (ts ++ ⟨.symbol .semicolon, line⟩ :: rest) =
          .error (.invalidAssignmentTarget lexeme.line) left) := by
  have hloose (k line : Nat) (rest : List Lexeme) : Loose k (⟨.symbol .semicolon, line⟩ :: rest) :=
    .of_none rfl
  have hlength (ts : List Lexeme) (line : Nat) (rest : List Lexeme) :
      ts.length ≤ (ts ++ ⟨.symbol .semicolon, line⟩ :: rest).length := by
    rw [List.length_append]
    omega
  refine ⟨?_, ?_⟩
  · intro update mark target ts ts' rest rest' line line' hmark htarget hoperand hts hts'
    have hcolon : NotNext .colon (⟨.symbol .semicolon, line⟩ :: rest) := by
      intro lexeme hlexeme
      obtain rfl := Option.some.inj hlexeme
      nofun
    obtain ⟨e, hrun, heq⟩ := update_reads (expressionAt_reads _) htarget hmark hoperand hts
      (hlength ts line rest) (hloose 0 line rest) hcolon
    obtain ⟨e', hrun', heq'⟩ := spelledOut_reads htarget hoperand hts'
      (Nat.lt_succ_of_le (hlength ts' line' rest')) (hloose 0 line' rest')
    exact ⟨e, e', hrun, hrun', heq.trans heq'.symm, heq'⟩
  · intro e mark ts rest line he hnone hform
    cases hform with
    | inl h =>
        obtain ⟨update, hmark, hts⟩ := h
        exact update_refused (expressionAt_reads _) he hnone hmark hts (hlength ts line rest)
          (hloose 9 line rest)
    | inr h =>
        obtain ⟨rfl, value, hts⟩ := h
        obtain ⟨ts₁, ts₂, rfl, h₁, h₂⟩ := Spells.append_iff.mp hts
        obtain ⟨line₁, ts₃, rfl, -⟩ := Spells.cons_iff.mp h₂
        refine ⟨⟨.symbol .assign, line₁⟩, by simp, rfl,
          ts₃ ++ ⟨.symbol .semicolon, line⟩ :: rest, ?_⟩
        rw [List.append_assoc]
        exact assignment_refused (expressionAt_reads _) he hnone rfl h₁
          (by rw [List.length_append]; omega)

/-- `this.a[i] %= x = y` is `this.a[i] = this.a[i] % (x = y)`, and `(a + 1)--` is refused. -/
theorem Grammar.updates_abbreviate_element :
    (∃ e e', expression ([⟨.keyword .kwThis, 1⟩, ⟨.symbol .dot, 1⟩, ⟨.name "a", 1⟩,
            ⟨.symbol .leftBracket, 1⟩, ⟨.name "i", 1⟩, ⟨.symbol .rightBracket, 1⟩,
            ⟨.symbol .percentAssign, 1⟩, ⟨.name "x", 1⟩, ⟨.symbol .assign, 1⟩, ⟨.name "y", 1⟩] ++
          [⟨.symbol .semicolon, 1⟩]) = .ok e [⟨.symbol .semicolon, 1⟩] ∧
        expression ([⟨.keyword .kwThis, 1⟩, ⟨.symbol .dot, 1⟩, ⟨.name "a", 1⟩,
            ⟨.symbol .leftBracket, 1⟩, ⟨.name "i", 1⟩, ⟨.symbol .rightBracket, 1⟩,
            ⟨.symbol .assign, 1⟩, ⟨.keyword .kwThis, 1⟩, ⟨.symbol .dot, 1⟩, ⟨.name "a", 1⟩,
            ⟨.symbol .leftBracket, 1⟩, ⟨.name "i", 1⟩, ⟨.symbol .rightBracket, 1⟩,
            ⟨.symbol .percent, 1⟩, ⟨.symbol .leftParen, 1⟩, ⟨.name "x", 1⟩, ⟨.symbol .assign, 1⟩,
            ⟨.name "y", 1⟩, ⟨.symbol .rightParen, 1⟩] ++ [⟨.symbol .semicolon, 1⟩]) =
          .ok e' [⟨.symbol .semicolon, 1⟩] ∧
        e.unlined = e'.unlined ∧
        e'.unlined = (updated (.index (.member (.self 0) "a" 0) (.var "i" 0)) .modulo
          (.assign (.var "x") (.var "y" 0) 0) 0).unlined) ∧
      ∃ lexeme ∈ ([⟨.symbol .leftParen, 1⟩, ⟨.name "a", 1⟩, ⟨.symbol .plus, 1⟩, ⟨.int 1, 1⟩,
          ⟨.symbol .rightParen, 1⟩, ⟨.symbol .minusMinus, 2⟩] : List Lexeme),
        lexeme.token = .symbol .minusMinus ∧
        ∃ left, expression ([⟨.symbol .leftParen, 1⟩, ⟨.name "a", 1⟩, ⟨.symbol .plus, 1⟩,
            ⟨.int 1, 1⟩, ⟨.symbol .rightParen, 1⟩, ⟨.symbol .minusMinus, 2⟩] ++
            [⟨.symbol .semicolon, 2⟩]) =
          .error (.invalidAssignmentTarget lexeme.line) left :=
  ⟨updates_abbreviate.1 (.combine .modulo (.assign (.var "x") (.var "y" 0) 0)) .percentAssign
      (.index (.member (.self 0) "a" 0) (.var "i" 0)) _ _ [] [] 1 1 rfl ⟨trivial, trivial⟩
      ⟨trivial, trivial⟩ rfl rfl,
    updates_abbreviate.2 (.binary (.var "a" 0) .add (.literal (.int 1) 0) 0) .minusMinus _ [] 2
      ⟨trivial, trivial⟩ rfl (.inl ⟨.stepAfter .subtract, rfl, rfl⟩)⟩

end ClassScript
