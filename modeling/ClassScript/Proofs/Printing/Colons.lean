import ClassScript.Proofs.Precedence.RightEnds
import ClassScript.Proofs.Printing.RoundTrip

/-!
# The colons around array literals

An array literal that stands bare in front of the colon of a conditional, of a `case` or of a `for`
header leaves that colon to the construct around it unless a name comes after it and the literal is
empty or the name is that of a primitive type. These are the only cases in which the construct is
not read as it is written.
-/

namespace ClassScript

namespace Expr

/-- With this token after a colon, the literal at the right end of the expression takes the colon
for its own. -/
def ClaimsColon (e : Expr) (after : Option Token) : Prop :=
  ∃ elements ∈ e.lastElements?, ∃ word, after = some (.name word) ∧
    (elements = [] ∨ Ty.isPrimitiveName word = true)

theorem opens_of_takesColon {e : Expr} {more : List Lexeme} (h : e.TakesColon more) :
    e.opens 0 = true := by
  obtain ⟨elements, h, -⟩ := h
  cases e with
  | array elements ty line =>
      cases ty with
      | none => rfl
      | some ty => cases h
  | _ => rfl

end Expr

namespace Grammar

variable {α β : Type} {more ts ts₁ ts₂ : List Lexeme} {line : Nat} {e : Expr}

theorem takesColon_iff (e : Expr) (line : Nat) :
    e.TakesColon (⟨.symbol .colon, line⟩ :: more) ↔ e.ClaimsColon (nextToken more) := by
  refine exists_congr fun elements => and_congr_right fun _ => ?_
  cases more with
  | nil => exact ⟨nofun, nofun⟩
  | cons lexeme more =>
      obtain ⟨token, line⟩ := lexeme
      cases token with
      | name word =>
          change (elements.isEmpty || Ty.isPrimitiveName word) = true ↔ _
          rw [Bool.or_eq_true, List.isEmpty_iff]
          constructor
          · exact fun h => ⟨word, rfl, h⟩
          · rintro ⟨_, heq, h⟩
            cases heq
            exact h
      | _ => exact ⟨nofun, nofun⟩

/-- If what comes after the first tokens is no name, only they can make an expression claim a
colon. -/
theorem claimsColon_append (e : Expr) {first rest : List Token}
    (hts : Spells ts (first ++ rest))
    (hrest : ∀ word, rest.head?.or (nextToken more) ≠ some (.name word)) :
    e.ClaimsColon (nextToken (ts ++ more)) ↔ e.ClaimsColon first.head? := by
  rw [nextToken_append hts]
  cases first with
  | nil =>
      constructor
      · rintro ⟨_, _, word, hword, -⟩
        exact absurd hword (hrest word)
      · rintro ⟨_, _, _, hword, -⟩
        cases hword
  | cons token tokens => rfl

/-! ## Recovering what was written -/

/-- The parser gives a result of this kind and leaves `more` if the condition holds; otherwise it
gives no such result. -/
def Recovers (p : Parser α) (ts more : List Lexeme) (P : α → Prop) (keeps : Prop) : Prop :=
  (keeps → ∃ a, p (ts ++ more) = .ok a more ∧ P a) ∧
    (¬ keeps → ∀ a rest, p (ts ++ more) = .ok a rest → ¬ P a)

namespace Recovers

variable {x p : Parser α} {f : α → Parser β} {P : α → Prop} {Q : β → Prop} {keeps : Prop}

theorem of_ok {a : α} (h : p (ts ++ more) = .ok a more) (ha : P a) : Recovers p ts more P True :=
  ⟨fun _ => ⟨a, h, ha⟩, fun hnot => absurd trivial hnot⟩

theorem of_takes {tokens : List Token} {next : Follow} (h : Takes p tokens next P)
    (hts : Spells ts tokens) (hnext : next (nextToken more) = true) :
    Recovers p ts more P True := by
  obtain ⟨a, hread, ha⟩ := h hts hnext
  exact of_ok hread ha

theorem congr {keeps' : Prop} (h : Recovers p ts more P keeps) (hiff : keeps' ↔ keeps) :
    Recovers p ts more P keeps' := by
  rwa [propext hiff]

/-- The rule comes down to another one on the lexemes that are left. -/
theorem of_eq {q : Parser α} {ts' : List Lexeme} (heq : p (ts ++ more) = q (ts' ++ more))
    (h : Recovers q ts' more P keeps) : Recovers p ts more P keeps := by
  rwa [Recovers, heq]

/-- The result is given exactly under the condition. -/
theorem iff (h : Recovers p ts more P keeps) :
    (∃ a, p (ts ++ more) = .ok a more ∧ P a) ↔ keeps := by
  refine ⟨fun ⟨a, hread, ha⟩ => Classical.byContradiction fun hnot => ?_, h.1⟩
  exact h.2 hnot a more hread ha

/-- A sequence gives the result if both parts do; what a part misses, the whole misses. -/
theorem bind {keeps' : Prop} (hx : Recovers x ts₁ (ts₂ ++ more) P keeps)
    (hf : ∀ a, P a → Recovers (f a) ts₂ more Q keeps')
    (hmiss : ∀ a, ¬ P a → Yields (f a) fun b => ¬ Q b) :
    Recovers (x >>= f) (ts₁ ++ ts₂) more Q (keeps ∧ keeps') := by
  rw [Recovers, List.append_assoc]
  constructor
  · rintro ⟨hkeeps, hkeeps'⟩
    obtain ⟨a, ha, hPa⟩ := hx.1 hkeeps
    obtain ⟨b, hb, hQb⟩ := (hf a hPa).1 hkeeps'
    exact ⟨b, (Action.bind_of_ok ha).trans hb, hQb⟩
  · intro hnot b rest hread
    by_cases hkeeps : keeps
    · obtain ⟨a, ha, hPa⟩ := hx.1 hkeeps
      exact (hf a hPa).2 (fun hkeeps' => hnot ⟨hkeeps, hkeeps'⟩) b rest
        ((Action.bind_of_ok ha).symm.trans hread)
    · obtain ⟨a, ts₃, ha, hb⟩ := Action.ok_of_bind hread
      exact hmiss a (hx.2 hkeeps a ts₃ ha) hb

/-- The first part is read anyway. -/
theorem after {tokens : List Token} {next : Follow} (hx : Takes x tokens next P)
    (hts : Spells ts₁ tokens) (hnext : next (nextToken (ts₂ ++ more)) = true)
    (hf : ∀ a, P a → Recovers (f a) ts₂ more Q keeps) :
    Recovers (x >>= f) (ts₁ ++ ts₂) more Q keeps := by
  obtain ⟨a, ha, hPa⟩ := hx hts hnext
  refine of_eq ?_ (hf a hPa)
  rw [List.append_assoc]
  exact Action.bind_of_ok ha

/-- The rest is read anyway. -/
theorem before {tokens : List Token} {next : Follow} (hx : Recovers x ts₁ (ts₂ ++ more) P keeps)
    (hf : ∀ a, P a → Takes (f a) tokens next Q) (hts : Spells ts₂ tokens)
    (hnext : next (nextToken more) = true) (hmiss : ∀ a, ¬ P a → Yields (f a) fun b => ¬ Q b) :
    Recovers (x >>= f) (ts₁ ++ ts₂) more Q keeps :=
  (bind hx (fun a ha => of_takes (hf a ha) hts hnext) hmiss).congr (and_iff_left trivial).symm

theorem last (hx : Recovers x ts more P keeps) (hf : ∀ a, P a → Takes (f a) [] anything Q)
    (hmiss : ∀ a, ¬ P a → Yields (f a) fun b => ¬ Q b) : Recovers (x >>= f) ts more Q keeps := by
  have hall : Recovers (x >>= f) (ts ++ []) more Q keeps := before hx hf rfl rfl hmiss
  rwa [List.append_nil] at hall

theorem map {g : α → β} (hx : Recovers x ts more P keeps) (hg : ∀ a, P a ↔ Q (g a)) :
    Recovers (x >>= fun a => pure (g a)) ts more Q keeps :=
  hx.last (fun a ha => .pure ((hg a).mp ha)) fun a ha => .pure fun hQ => ha ((hg a).mpr hQ)

theorem step {lexeme : Lexeme} {a : α} (hx : ∀ ts, x (lexeme :: ts) = .ok a ts)
    (hf : Recovers (f a) ts more Q keeps) : Recovers (x >>= f) (lexeme :: ts) more Q keeps :=
  of_eq (Action.bind_of_ok (hx (ts ++ more))) hf

theorem fuel {f : Nat → Parser β} (hf : Recovers (f ((ts ++ more).length + 1)) ts more Q keeps) :
    Recovers (Action.read (·.length + 1) >>= f) ts more Q keeps := hf

theorem expectSymbol {mark : Symbol} {what : String} {f : Nat → Parser β}
    (hf : Recovers (f line) ts more Q keeps) :
    Recovers (Grammar.expectSymbol mark what >>= f) (⟨.symbol mark, line⟩ :: ts) more Q keeps :=
  step (fun _ => expectSymbol_cons mark what) hf

end Recovers

/-! ## Expressions -/

/-- An expression in front of a colon is read as it is written unless it claims the colon. -/
theorem expressionAt_recovers {n : Nat} (he : e.WellFormed) (hts : Spells ts (e.openAt 0))
    (hlt : ts.length < n) (line : Nat) (more : List Lexeme) :
    Recovers (expressionAt n) ts (⟨.symbol .colon, line⟩ :: more)
      (fun e' => e'.unlined = e.unlined) (¬ e.ClaimsColon (nextToken more)) := by
  obtain ⟨n, rfl⟩ : ∃ m, n = m + 1 := ⟨n - 1, by omega⟩
  have hle := Nat.le_of_lt_succ hlt
  rw [← takesColon_iff e line]
  constructor
  · exact fun hkeeps => open_reads e (Nat.zero_le 8) he hts hle (.of_none rfl) fun _ => hkeeps
  · intro hnot e' rest hread heq
    have hclaims := Classical.not_not.mp hnot
    have hsize := open_outgrows e (n := n) (Nat.zero_le 8) he hts hle
      (Expr.opens_of_takesColon hclaims) hclaims e' rest hread
    rw [Outweighs, heq] at hsize
    exact absurd hsize (Nat.lt_irrefl _)

theorem expression_recovers (he : e.WellFormed) (hts : Spells ts (e.openAt 0)) (line : Nat)
    (more : List Lexeme) :
    Recovers expression ts (⟨.symbol .colon, line⟩ :: more) (fun e' => e'.unlined = e.unlined)
      (¬ e.ClaimsColon (nextToken more)) :=
  expressionAt_recovers he hts (by rw [List.length_append]; omega) line more

/-- The rule for assignments passes on what the rule for conditionals recovers: what it builds
itself is no conditional. -/
theorem assignment_recovers {expression : Parser Expr} {n : Nat} {condition onTrue onFalse : Expr}
    {keeps : Prop}
    (h : Recovers (conditional expression n) ts more
      (fun e => e.unlined = (Expr.conditional condition onTrue onFalse 0).unlined) keeps)
    (hmore : Loose 0 more) :
    Recovers (assignment expression n) ts more
      (fun e => e.unlined = (Expr.conditional condition onTrue onFalse 0).unlined) keeps := by
  constructor
  · intro hkeeps
    obtain ⟨e', hrun, heq⟩ := h.1 hkeeps
    exact assignment_of_loose ⟨e', hrun, heq⟩ hmore
  · intro hnot e' rest hrun
    obtain ⟨left, ts₁, hleft, hrest⟩ := Action.ok_of_bind hrun
    have hne := h.2 hnot left ts₁ hleft
    refine (show Yields _ fun e =>
      e.unlined ≠ (Expr.conditional condition onTrue onFalse 0).unlined from
        .after fun found => ?_) hrest
    split
    · split
      next op _ =>
        refine .after fun _ => .after fun target => .after fun value => .pure ?_
        intro heq
        cases op <;> cases heq
      · exact .pure hne
    · exact .pure hne

/-- The first branch of a conditional is recovered unless it claims the colon after it, and then the
conditional is another one. -/
theorem conditional_recovers {n : Nat} {condition onTrue onFalse : Expr}
    (hcondition : condition.WellFormed) (htrue : onTrue.WellFormed) (hfalse : onFalse.WellFormed)
    (hts : Spells ts (condition.tokensAt 1 ++ .symbol .question ::
      (onTrue.openAt 0 ++ .symbol .colon :: onFalse.tokens)))
    (hlt : ts.length < n) (hmore : Loose 0 more) (hcolon : NotNext .colon more) :
    Recovers (expressionAt n) ts more
      (fun e => e.unlined = (Expr.conditional condition onTrue onFalse 0).unlined)
      (¬ onTrue.ClaimsColon onFalse.tokens.head?) := by
  obtain ⟨ts₁, ts₂, rfl, h₁, h₂⟩ := Spells.append_iff.mp hts
  obtain ⟨line₁, ts₃, rfl, h₃⟩ := Spells.cons_iff.mp h₂
  obtain ⟨ts₄, ts₅, rfl, h₄, h₅⟩ := Spells.append_iff.mp h₃
  obtain ⟨line₂, ts₆, rfl, h₆⟩ := Spells.cons_iff.mp h₅
  simp only [List.length_append, List.length_cons] at hlt
  obtain ⟨n, rfl⟩ : ∃ m, n = m + 1 := ⟨n - 1, by omega⟩
  have hread : ReadsBelow n (expressionAt n) := expressionAt_reads n
  have hafter : nextToken (ts₆ ++ more) = onFalse.tokens.head? := by
    obtain ⟨token, hhead, -⟩ := onFalse.begins_tokens
    rw [nextToken_append h₆, hhead]
    rfl
  have hquestion : Loose 1 (⟨.symbol .question, line₁⟩ ::
      (ts₄ ++ ⟨.symbol .colon, line₂⟩ :: (ts₆ ++ more))) := .of_continues rfl Nat.one_pos
  obtain ⟨condition', heq₁, hbranches⟩ := conditional_of_condition
    (binary_reads hread 7 0 rfl hcondition (.of_tokensAt h₁) (by omega) hquestion)
  have hplace : Placed 0 onFalse ts₆ more :=
    .bare h₆ (Nat.zero_le _) fun _ => ⟨hmore.mono (Nat.zero_le 9), hcolon⟩
  obtain ⟨onFalse', hfalse', heq₃⟩ := hread hfalse hplace (by omega) hmore
  have hparts : Recovers (do
        let onTrue ← expressionAt n
        let _ ← expectSymbol .colon "':' in conditional expression"
        return Expr.conditional condition' onTrue (← expressionAt n) line₁)
      (ts₄ ++ ⟨.symbol .colon, line₂⟩ :: ts₆) more
      (fun e : Expr => e.unlined = (Expr.conditional condition onTrue onFalse 0).unlined)
      (¬ onTrue.ClaimsColon (nextToken (ts₆ ++ more)) ∧ True) := by
    have hlength : ts₄.length < n := by omega
    refine .bind (expressionAt_recovers htrue h₄ hlength line₂ (ts₆ ++ more))
      (fun onTrue' heq₂ => .expectSymbol ?_) fun onTrue' hne => ?_
    · let read : Expr := .conditional condition' onTrue' onFalse' line₁
      refine .of_ok (a := read) (Action.bind_of_ok hfalse') ?_
      rw [Expr.unlined, heq₁, heq₂, heq₃, Expr.unlined]
    · refine .after fun _ => .after fun onFalse' => .pure fun heq => hne ?_
      exact (Expr.conditional.inj heq).2.1
  rw [and_true, hafter] at hparts
  refine assignment_recovers (hparts.of_eq ?_) hmore
  simp only [List.append_assoc, List.cons_append]
  exact hbranches

end Grammar

/-! ## `for` headers -/

def openOptionalTokens : Option Expr → List Token
  | some e => e.openAt 0
  | none => []

def openInitializerTokens : Option Expr → List Token
  | some value => .symbol .assign :: value.openAt 0
  | none => []

/-- A variable declaration with a plain array literal at its end left bare. -/
def VariableDecl.openTokens (decl : VariableDecl) : List Token :=
  .name decl.name :: .symbol .colon ::
    (declaredTokens decl.ty decl.length ++ openInitializerTokens decl.initializer)

/-- The first part of a `for` header with a plain array literal at its end left bare. -/
def openStartTokens : Option Statement → List Token
  | some (.declare decl) => .keyword decl.keyword :: decl.openTokens
  | some (.expression expr _) => expr.openAt 0
  | _ => []

/-- The expression that the first part of a `for` header ends in. -/
def startEnd? : Option Statement → Option Expr
  | some (.declare decl) => decl.initializer
  | some (.expression expr _) => some expr
  | _ => none

namespace Grammar

variable {more ts : List Lexeme}

theorem initializer_recovers {value : Option Expr} (h : ∀ e ∈ value, e.WellFormed)
    (hts : Spells ts (openInitializerTokens value)) (line : Nat) (more : List Lexeme) :
    Recovers initializer ts (⟨.symbol .colon, line⟩ :: more)
      (fun value' => value'.map Expr.unlined = value.map Expr.unlined)
      (∀ e ∈ value, ¬ e.ClaimsColon (nextToken more)) := by
  cases value with
  | none =>
      have htakes : Takes initializer (initializerTokens none) expressionEnds
          fun value' => value'.map Expr.unlined = none := initializer_takes h
      exact (Recovers.of_takes htakes hts rfl).congr (by simp)
  | some e =>
      obtain ⟨line₁, ts₁, rfl, h₁⟩ := Spells.cons_iff.mp hts
      refine .step (fun _ => takeSymbol_cons .assign) ?_
      refine ((expression_recovers (h e rfl) h₁ line more).map fun e' => ?_).congr ?_
      · exact ⟨congrArg some, Option.some.inj⟩
      · simp

theorem variableDecl_recovers {decl : VariableDecl} (h : decl.WellFormed)
    (hts : Spells ts decl.openTokens) (line line₀ : Nat) (more : List Lexeme) :
    Recovers (variableDecl decl.isConst line₀) ts (⟨.symbol .colon, line⟩ :: more)
      (fun decl' => decl'.unlined = decl.unlined)
      (∀ e ∈ decl.initializer, ¬ e.ClaimsColon (nextToken more)) := by
  obtain ⟨line₁, ts₁, rfl, h₁⟩ := Spells.cons_iff.mp hts
  obtain ⟨line₂, ts₂, rfl, h₂⟩ := Spells.cons_iff.mp h₁
  obtain ⟨ts₃, ts₄, rfl, h₃, h₄⟩ := Spells.append_iff.mp h₂
  refine .step (fun _ => rfl) (.expectSymbol (.after (declaredType_takes h.ty) h₃ ?_ ?_))
  · rw [nextToken_append h₄]
    cases decl.initializer <;> rfl
  · rintro ⟨_, length⟩ ⟨rfl, hlength⟩
    refine (initializer_recovers h.initializer h₄ line more).last (fun value hvalue => ?_) ?_
    · exact checked_takes h (variableDecl_unlined_eq line₀ hlength hvalue)
    · intro value hne
      unfold checked
      split
      · exact .fail
      · exact .pure fun heq => hne (congrArg VariableDecl.initializer heq)

theorem loopStart_recovers {initial : Option Statement} (h : WellFormedStart initial)
    (hts : Spells ts (openStartTokens initial)) (line : Nat) (more : List Lexeme) :
    Recovers loopStart ts (⟨.symbol .colon, line⟩ :: more)
      (fun initial' => unlinedOptional initial' = unlinedOptional initial)
      (∀ e ∈ startEnd? initial, ¬ e.ClaimsColon (nextToken more)) := by
  match initial with
  | none =>
      obtain rfl := Spells.nil_iff.mp hts
      have hnone : Recovers loopStart [] (⟨.symbol .colon, line⟩ :: more)
          (fun initial' => unlinedOptional initial' = none) True := .of_ok (a := none) rfl rfl
      exact hnone.congr (by simp [startEnd?])
  | some (.declare decl) =>
      obtain ⟨line₁, ts₁, rfl, h₁⟩ := Spells.cons_iff.mp hts
      have hdecl := (variableDecl_recovers h h₁ line line₁ more).map
        (g := fun decl' => some (Statement.declare decl'))
        (Q := fun initial' => unlinedOptional initial' = some (.declare decl.unlined)) fun decl' =>
          ⟨fun heq => by rw [unlinedOptional, Statement.unlined, heq],
            fun heq => Statement.declare.inj (Option.some.inj heq)⟩
      refine hdecl.of_eq ?_
      rw [VariableDecl.keyword]
      cases decl.isConst <;> rfl
  | some (.expression e line₀) =>
      obtain ⟨token, hhead, hstarts, -⟩ := e.begins_openAt 0
      obtain ⟨line₁, ts₁, rfl⟩ : ∃ line₁ ts₁, ts = ⟨token, line₁⟩ :: ts₁ := by
        obtain ⟨rest, htokens⟩ := List.head?_eq_some_iff.mp hhead
        obtain ⟨line₁, ts₁, rfl, -⟩ := Spells.cons_iff.mp (hts.trans htokens)
        exact ⟨line₁, ts₁, rfl⟩
      have hread := (expression_recovers h hts line more).map
        (g := fun e' => some (Statement.expression e' line₁))
        (Q := fun initial' => unlinedOptional initial' = some (.expression e.unlined 0)) fun e' =>
          ⟨fun heq => by rw [unlinedOptional, Statement.unlined, heq],
            fun heq => (Statement.expression.inj (Option.some.inj heq)).1⟩
      refine (hread.of_eq ?_).congr (by simp [startEnd?])
      -- An expression begins neither with the colon nor with the word of a declaration.
      cases token with
      | symbol mark => cases mark <;> first | exact absurd hstarts Bool.false_ne_true | rfl
      | keyword word => cases word <;> first | exact absurd hstarts Bool.false_ne_true | rfl
      | _ => rfl

theorem optionalBefore_recovers {condition : Option Expr} (h : ∀ e ∈ condition, e.WellFormed)
    (hts : Spells ts (openOptionalTokens condition)) (line : Nat) (more : List Lexeme) :
    Recovers (optionalBefore .colon) ts (⟨.symbol .colon, line⟩ :: more)
      (fun condition' => condition'.map Expr.unlined = condition.map Expr.unlined)
      (∀ e ∈ condition, ¬ e.ClaimsColon (nextToken more)) := by
  cases condition with
  | none =>
      have htakes : Takes (optionalBefore .colon) (optionalTokens none) (isNext .colon)
          fun condition' => condition'.map Expr.unlined = none := optionalBefore_takes h rfl rfl
      exact (Recovers.of_takes htakes hts rfl).congr (by simp)
  | some e =>
      have hread := (expression_recovers (h e rfl) hts line more).map (g := some)
        (Q := fun condition' => condition'.map Expr.unlined = some e.unlined) fun e' =>
          ⟨congrArg some, Option.some.inj⟩
      refine (hread.of_eq ?_).congr (by simp)
      obtain ⟨token, hhead, hstarts, -⟩ := e.begins_openAt 0
      have hat : atSymbol .colon (ts ++ ⟨.symbol .colon, line⟩ :: more) =
          .ok false (ts ++ ⟨.symbol .colon, line⟩ :: more) := by
        refine (Takes.at?_eq hts).trans ?_
        rw [openOptionalTokens, hhead]
        exact congrArg (Outcome.ok · _) (isSymbol_of_starts rfl token hstarts)
      exact Action.bind_of_ok hat

/-- The first two parts of a `for` header are recovered unless one of them claims the colon after
it, and then the loop is another one. -/
theorem forLoop_recovers {n : Nat} {statement : Parser Statement}
    (hread : StatementsBelow n statement) {initial : Option Statement}
    {condition step : Option Expr} {body : Statement}
    (h : (Statement.forLoop initial condition step body 0).WellFormed)
    (hts : Spells ts (.symbol .leftParen :: (openStartTokens initial ++ .symbol .colon ::
      (openOptionalTokens condition ++ .symbol .colon ::
        (optionalTokens step ++ .symbol .rightParen :: body.tokens)))))
    (hlt : body.tokens.length < n)
    (hmore : follow (.forLoop initial condition step body 0) (nextToken more) = true) (line : Nat) :
    Recovers (forLoop statement line) ts more
      (fun s => s.unlined = (Statement.forLoop initial condition step body 0).unlined)
      ((∀ e ∈ startEnd? initial, ¬ e.ClaimsColon (openOptionalTokens condition).head?) ∧
        ∀ e ∈ condition, ¬ e.ClaimsColon (optionalTokens step).head?) := by
  obtain ⟨hinitial, hcondition, hstep, hbody⟩ := h
  obtain ⟨line₀, ts₀, rfl, h₀⟩ := Spells.cons_iff.mp hts
  obtain ⟨ts₁, ts₂, rfl, h₁, h₂⟩ := Spells.append_iff.mp h₀
  obtain ⟨line₁, ts₃, rfl, h₃⟩ := Spells.cons_iff.mp h₂
  obtain ⟨ts₄, ts₅, rfl, h₄, h₅⟩ := Spells.append_iff.mp h₃
  obtain ⟨line₂, ts₆, rfl, h₆⟩ := Spells.cons_iff.mp h₅
  obtain ⟨ts₇, ts₈, rfl, h₇, h₈⟩ := Spells.append_iff.mp h₆
  obtain ⟨line₃, ts₉, rfl, h₉⟩ := Spells.cons_iff.mp h₈
  have hfirst (e : Expr) : e.ClaimsColon (openOptionalTokens condition).head? ↔
      e.ClaimsColon (nextToken (ts₄ ++ ⟨.symbol .colon, line₂⟩ ::
        (ts₇ ++ ⟨.symbol .rightParen, line₃⟩ :: ts₉) ++ more)) :=
    (claimsColon_append e h₃ fun word => nofun).symm
  have hsecond (e : Expr) : e.ClaimsColon (optionalTokens step).head? ↔
      e.ClaimsColon (nextToken (ts₇ ++ ⟨.symbol .rightParen, line₃⟩ :: ts₉ ++ more)) :=
    (claimsColon_append e h₆ fun word => nofun).symm
  simp only [hfirst, hsecond]
  refine .expectSymbol (.bind (loopStart_recovers hinitial h₁ line₁ _)
    (fun initial' heq₁ => .expectSymbol (.before (optionalBefore_recovers hcondition h₄ line₂ _)
      (fun condition' heq₂ => .expectSymbol fun _ => .bind (optionalBefore_takes hstep rfl rfl)
        (fun _ _ => rfl) fun step' heq₃ => .expectSymbol fun _ => ?_) h₅ hmore ?_)) ?_)
  · refine ((hread hbody hlt).weaken fun t ht => follow_mono (fun hopen => hopen) ht).map
      fun body' heq₄ => ?_
    rw [Statement.unlined, Statement.unlined, heq₁, heq₂, heq₃, heq₄]
  · refine fun condition' hne => .after fun _ => .after fun _ => .after fun _ => .after fun _ => ?_
    exact .pure fun heq => hne (Statement.forLoop.inj heq).2.1
  · refine fun initial' hne => .after fun _ => .after fun _ => .after fun _ => .after fun _ =>
      .after fun _ => .after fun _ => ?_
    exact .pure fun heq => hne (Statement.forLoop.inj heq).1

end Grammar

/-! ## Cases -/

/-- The cases of a `switch` with a plain array literal at the end of a value left bare. -/
def openCasesTokens : List SwitchCase → List Token
  | [] => []
  | ⟨value, body, _⟩ :: rest =>
    .keyword .kwCase :: (value.openAt 0 ++ .symbol .colon ::
      (statementsTokens body ++ openCasesTokens rest))

namespace Grammar

variable {more ts : List Lexeme} {n : Nat} {statement : Parser Statement}
  (hread : StatementsBelow n statement)

/-- A label or the closing brace stands after the statements of a case. -/
theorem caseEnds_openCases (cases : List SwitchCase) (fallback : Option (List Statement))
    (t : Option Token) :
    caseEnds ((openCasesTokens cases ++
      (defaultTokens fallback ++ [Token.symbol .rightBrace])).head?.or t) = true := by
  match cases, fallback with
  | ⟨_, _, _⟩ :: _, _ | [], some _ | [], none => rfl

theorem not_name_of_caseEnds {t : Option Token} (h : caseEnds t = true) (word : String) :
    t ≠ some (.name word) := by
  rintro rfl
  cases h

include hread

theorem switchCases_recovers {fallback : Option (List Statement)} (h : WellFormedBlock fallback)
    (more : List Lexeme) : ∀ {cases : List SwitchCase}, WellFormedCases cases →
    (openCasesTokens cases ++ defaultTokens fallback).length < n → ∀ {fuel : Nat},
    (openCasesTokens cases ++
      (defaultTokens fallback ++ [Token.symbol .rightBrace])).length < fuel →
    ∀ {ts : List Lexeme},
    Spells ts (openCasesTokens cases ++ (defaultTokens fallback ++ [.symbol .rightBrace])) →
    Recovers (switchCases statement fuel none) ts more
      (fun result => unlinedCases result.1 = unlinedCases cases ∧
        unlinedOptionalBlock result.2 = unlinedOptionalBlock fallback)
      (∀ c ∈ cases, ¬ c.value.ClaimsColon (statementsTokens c.body).head?)
  | [], _, hlt, fuel, hfuel, ts, hts =>
      (Recovers.of_takes (switchCases_default hread h hlt hfuel) hts rfl).congr (by simp)
  | ⟨value, body, line₀⟩ :: cases, hcases, hlt, fuel, hfuel, ts, hts => by
      obtain ⟨fuel, rfl⟩ : ∃ m, fuel = m + 1 := ⟨fuel - 1, by omega⟩
      obtain ⟨hvalue, hbody, hcases⟩ := hcases
      simp only [openCasesTokens, List.cons_append, List.append_assoc] at hlt hfuel hts
      obtain ⟨line₁, ts₁, rfl, h₁⟩ := Spells.cons_iff.mp hts
      obtain ⟨ts₂, ts₃, rfl, h₂, h₃⟩ := Spells.append_iff.mp h₁
      obtain ⟨line₂, ts₄, rfl, h₄⟩ := Spells.cons_iff.mp h₃
      obtain ⟨ts₅, ts₆, rfl, h₅, h₆⟩ := Spells.append_iff.mp h₄
      simp only [List.length_cons, List.length_append] at hlt hfuel
      have hends : caseEnds (nextToken (ts₆ ++ more)) = true := by
        rw [nextToken_append h₆]
        exact caseEnds_openCases cases fallback _
      have hclaims : value.ClaimsColon (statementsTokens body).head? ↔
          value.ClaimsColon (nextToken (ts₅ ++ ts₆ ++ more)) :=
        (claimsColon_append value h₄
          (not_name_of_caseEnds (caseEnds_openCases cases fallback _))).symm
      have hlengths := congrArg List.length h₅
      rw [List.length_map] at hlengths
      rw [List.forall_mem_cons, hclaims]
      refine .step (fun _ => rfl) (.bind (expression_recovers hvalue h₂ line₂ _)
        (fun value' heq₁ => .expectSymbol (.fuel (.after
          (caseBody_takes hread hbody (by omega) (by simp only [List.length_append]; omega)) h₅
          hends fun body' heq₂ => ?_))) ?_)
      · have hshort : (openCasesTokens cases ++ defaultTokens fallback).length < n := by
          rw [List.length_append]
          omega
        refine (switchCases_recovers h more hcases hshort
          (by simp only [List.length_append, List.length_cons]; omega) h₆).last ?_ ?_
        · rintro ⟨cases', fallback'⟩ ⟨heq₃, heq₄⟩
          refine .pure ⟨?_, heq₄⟩
          rw [unlinedCases, unlinedCases, heq₁, heq₂, heq₃]
        · rintro ⟨cases', fallback'⟩ hne
          exact .pure fun h => hne ⟨(List.cons.inj h.1).2, h.2⟩
      · refine fun value' hne => .after fun _ => .after fun _ => .after fun _ => .after ?_
        rintro ⟨cases', fallback'⟩
        exact .pure fun h => hne (SwitchCase.mk.inj (List.cons.inj h.1).1).1

/-- The values of the cases are recovered unless one of them claims the colon after it, and then the
`switch` is another one. -/
theorem switch_recovers {subject : Expr} {cases : List SwitchCase}
    {fallback : Option (List Statement)}
    (h : (Statement.switch subject cases fallback 0).WellFormed)
    (hts : Spells ts (conditionTokens subject ++
      braces (openCasesTokens cases ++ defaultTokens fallback)))
    (hlt : (openCasesTokens cases ++ defaultTokens fallback).length < n) (line : Nat)
    (more : List Lexeme) :
    Recovers (switch statement line) ts more
      (fun s => s.unlined = (Statement.switch subject cases fallback 0).unlined)
      (∀ c ∈ cases, ¬ c.value.ClaimsColon (statementsTokens c.body).head?) := by
  obtain ⟨hsubject, hcases, hfallback⟩ := h
  obtain ⟨ts₁, ts₂, rfl, h₁, h₂⟩ := Spells.append_iff.mp hts
  obtain ⟨line₁, ts₃, rfl, h₃⟩ := Spells.cons_iff.mp h₂
  rw [List.append_assoc] at h₃
  have hlengths := congrArg List.length h₃
  rw [List.length_map] at hlengths
  refine .after (condition_takes hsubject _) h₁ rfl fun subject' heq₁ => .expectSymbol (.fuel ?_)
  refine (switchCases_recovers hread hfallback more hcases hlt
    (by rw [← hlengths, List.length_append]; omega) h₃).last ?_ ?_
  · rintro ⟨cases', fallback'⟩ ⟨heq₂, heq₃⟩
    refine .pure ?_
    rw [Statement.unlined, Statement.unlined, heq₁, heq₂, heq₃]
  · rintro ⟨cases', fallback'⟩ hne
    exact .pure fun heq => hne ⟨(Statement.switch.inj heq).2.1, (Statement.switch.inj heq).2.2.1⟩

end Grammar

/-- The colon after an array literal, or after an expression that ends in one, belongs to the
construct around it exactly if the literal does not claim it. Read from its tokens, a conditional is
recovered up to lines if and only if its first branch does not claim the colon, a `switch` if and
only if no value of a case does, and a `for` loop if and only if neither its first part nor its
condition does. -/
theorem Grammar.colons_stay_iff (ts rest : List Lexeme) :
    (∀ (condition onTrue onFalse : Expr) (line : Nat),
      condition.WellFormed → onTrue.WellFormed → onFalse.WellFormed →
      Spells ts (condition.tokensAt 1 ++ .symbol .question ::
        (onTrue.openAt 0 ++ .symbol .colon :: onFalse.tokens)) →
      ((∃ e, expression (ts ++ ⟨.symbol .semicolon, line⟩ :: rest) =
            .ok e (⟨.symbol .semicolon, line⟩ :: rest) ∧
          e.unlined = (Expr.conditional condition onTrue onFalse 0).unlined) ↔
        ¬ onTrue.ClaimsColon onFalse.tokens.head?)) ∧
    (∀ (subject : Expr) (cases : List SwitchCase) (fallback : Option (List Statement)),
      (Statement.switch subject cases fallback 0).WellFormed →
      Spells ts (.keyword .kwSwitch :: (conditionTokens subject ++
        braces (openCasesTokens cases ++ defaultTokens fallback))) →
      ((∃ s, statement (ts ++ rest) = .ok s rest ∧
          s.unlined = (Statement.switch subject cases fallback 0).unlined) ↔
        ∀ c ∈ cases, ¬ c.value.ClaimsColon (statementsTokens c.body).head?)) ∧
    (∀ (initial : Option Statement) (condition step : Option Expr) (body : Statement),
      (Statement.forLoop initial condition step body 0).WellFormed →
      Spells ts (.keyword .kwFor :: .symbol .leftParen :: (openStartTokens initial ++
        .symbol .colon :: (openOptionalTokens condition ++ .symbol .colon ::
          (optionalTokens step ++ .symbol .rightParen :: body.tokens)))) →
      follow (.forLoop initial condition step body 0) (nextToken rest) = true →
      ((∃ s, statement (ts ++ rest) = .ok s rest ∧
          s.unlined = (Statement.forLoop initial condition step body 0).unlined) ↔
        (∀ e ∈ startEnd? initial, ¬ e.ClaimsColon (openOptionalTokens condition).head?) ∧
          ∀ e ∈ condition, ¬ e.ClaimsColon (optionalTokens step).head?)) := by
  refine ⟨?_, ?_, ?_⟩
  · intro condition onTrue onFalse line hcondition htrue hfalse hts
    have hcolon : NotNext .colon (⟨.symbol .semicolon, line⟩ :: rest) := by
      intro lexeme hlexeme
      obtain rfl := Option.some.inj hlexeme
      nofun
    have hlt : ts.length < (ts ++ ⟨.symbol .semicolon, line⟩ :: rest).length + 1 := by
      rw [List.length_append]
      omega
    exact (conditional_recovers hcondition htrue hfalse hts hlt (.of_none rfl) hcolon).iff
  · intro subject cases fallback h hts
    obtain ⟨line, ts₁, rfl, h₁⟩ := Spells.cons_iff.mp hts
    have hlt : (openCasesTokens cases ++ defaultTokens fallback).length <
        (⟨.keyword .kwSwitch, line⟩ :: ts₁ ++ rest).length := by
      have hlengths := congrArg List.length h₁
      simp only [List.length_map, List.length_append, List.length_cons, braces] at hlengths ⊢
      omega
    exact (switch_recovers (statementAt_takes _) h h₁ hlt line rest).iff
  · intro initial condition step body h hts hnext
    obtain ⟨line, ts₁, rfl, h₁⟩ := Spells.cons_iff.mp hts
    have hlt : body.tokens.length < (⟨.keyword .kwFor, line⟩ :: ts₁ ++ rest).length := by
      have hlengths := congrArg List.length h₁
      simp only [List.length_map, List.length_append, List.length_cons] at hlengths ⊢
      omega
    exact (forLoop_recovers (statementAt_takes _) h h₁ hlt hnext line).iff

/-- `c ? [x] : d`, `switch (v) { case []: }` and `for ( : [x] : ) break;` are read as they are
written. -/
theorem Grammar.colons_stay_plain :
    (∃ e, expression ([⟨.name "c", 1⟩, ⟨.symbol .question, 1⟩, ⟨.symbol .leftBracket, 1⟩,
          ⟨.name "x", 1⟩, ⟨.symbol .rightBracket, 1⟩, ⟨.symbol .colon, 1⟩, ⟨.name "d", 1⟩] ++
          [⟨.symbol .semicolon, 1⟩]) = .ok e [⟨.symbol .semicolon, 1⟩] ∧
        e.unlined = (Expr.conditional (.var "c" 0) (.array [.var "x" 0] none 0) (.var "d" 0)
          0).unlined) ∧
      (∃ s, statement ([⟨.keyword .kwSwitch, 1⟩, ⟨.symbol .leftParen, 1⟩, ⟨.name "v", 1⟩,
          ⟨.symbol .rightParen, 1⟩, ⟨.symbol .leftBrace, 1⟩, ⟨.keyword .kwCase, 1⟩,
          ⟨.symbol .leftBracket, 1⟩, ⟨.symbol .rightBracket, 1⟩, ⟨.symbol .colon, 1⟩,
          ⟨.symbol .rightBrace, 1⟩] ++ []) = .ok s [] ∧
        s.unlined = (Statement.switch (.var "v" 0) [⟨.array [] none 0, [], 0⟩] none 0).unlined) ∧
      ∃ s, statement ([⟨.keyword .kwFor, 1⟩, ⟨.symbol .leftParen, 1⟩, ⟨.symbol .colon, 1⟩,
          ⟨.symbol .leftBracket, 1⟩, ⟨.name "x", 1⟩, ⟨.symbol .rightBracket, 1⟩,
          ⟨.symbol .colon, 1⟩, ⟨.symbol .rightParen, 1⟩, ⟨.keyword .kwBreak, 1⟩,
          ⟨.symbol .semicolon, 1⟩] ++ []) = .ok s [] ∧
        s.unlined = (Statement.forLoop none (some (.array [.var "x" 0] none 0)) none
          (.breakLoop 0) 0).unlined :=
  ⟨((colons_stay_iff [⟨.name "c", 1⟩, ⟨.symbol .question, 1⟩, ⟨.symbol .leftBracket, 1⟩,
        ⟨.name "x", 1⟩, ⟨.symbol .rightBracket, 1⟩, ⟨.symbol .colon, 1⟩, ⟨.name "d", 1⟩] []).1
      (.var "c" 0) (.array [.var "x" 0] none 0) (.var "d" 0) 1 trivial ⟨trivial, trivial⟩ trivial
      rfl).mpr (by
        rintro ⟨_, ⟨⟩, _, ⟨⟩, hempty | hname⟩
        · cases hempty
        · revert hname
          decide),
    ((colons_stay_iff [⟨.keyword .kwSwitch, 1⟩, ⟨.symbol .leftParen, 1⟩, ⟨.name "v", 1⟩,
        ⟨.symbol .rightParen, 1⟩, ⟨.symbol .leftBrace, 1⟩, ⟨.keyword .kwCase, 1⟩,
        ⟨.symbol .leftBracket, 1⟩, ⟨.symbol .rightBracket, 1⟩, ⟨.symbol .colon, 1⟩,
        ⟨.symbol .rightBrace, 1⟩] []).2.1 (.var "v" 0) [⟨.array [] none 0, [], 0⟩] none
      ⟨trivial, ⟨trivial, trivial, trivial⟩, trivial⟩ rfl).mpr (by
        rintro c hc ⟨_, _, _, hname, _⟩
        obtain rfl := List.mem_singleton.mp hc
        cases hname),
    ((colons_stay_iff [⟨.keyword .kwFor, 1⟩, ⟨.symbol .leftParen, 1⟩, ⟨.symbol .colon, 1⟩,
        ⟨.symbol .leftBracket, 1⟩, ⟨.name "x", 1⟩, ⟨.symbol .rightBracket, 1⟩,
        ⟨.symbol .colon, 1⟩, ⟨.symbol .rightParen, 1⟩, ⟨.keyword .kwBreak, 1⟩,
        ⟨.symbol .semicolon, 1⟩] []).2.2 none (some (.array [.var "x" 0] none 0)) none
      (.breakLoop 0) ⟨trivial, by rintro _ ⟨⟩; exact ⟨trivial, trivial⟩, nofun, trivial⟩ rfl
      rfl).mpr ⟨nofun, by
        rintro e ⟨⟩ ⟨_, _, _, hname, _⟩
        cases hname⟩⟩

/-- `c ? [] : x` is not read as a conditional: the empty literal takes the colon for its own. -/
theorem Grammar.empty_literal_takes_colon :
    Spells [⟨.name "c", 1⟩, ⟨.symbol .question, 1⟩, ⟨.symbol .leftBracket, 1⟩,
        ⟨.symbol .rightBracket, 1⟩, ⟨.symbol .colon, 1⟩, ⟨.name "x", 1⟩]
      ((Expr.var "c" 0).tokensAt 1 ++ .symbol .question ::
        ((Expr.array [] none 0).tokens ++ .symbol .colon :: (Expr.var "x" 0).tokens)) ∧
    expression [⟨.name "c", 1⟩, ⟨.symbol .question, 1⟩, ⟨.symbol .leftBracket, 1⟩,
        ⟨.symbol .rightBracket, 1⟩, ⟨.symbol .colon, 1⟩, ⟨.name "x", 1⟩, ⟨.symbol .semicolon, 1⟩] =
      .error (.expected "':' in conditional expression" (some (.symbol .semicolon)) 1) [] :=
  ⟨rfl, rfl⟩

end ClassScript
