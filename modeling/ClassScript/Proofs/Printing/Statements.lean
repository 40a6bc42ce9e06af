import ClassScript.Proofs.Printing.Classes

/-!
# Statements read back

A printed statement is read as what was printed, up to its lines, if what follows it does not
continue it: a `catch`, a `finally`, or an `else` after a statement that ends with an open `if`. The
statements inside it are shorter, and the parser that reads them is only asked about those.
-/

namespace ClassScript

/-! ## How statements begin and end -/

/-- The token goes on with the statement around it or ends that; no statement begins with it. -/
def Token.interrupts : Token → Bool
  | .symbol .rightBrace | .keyword .kwElse | .keyword .kwCatch | .keyword .kwFinally
  | .keyword .kwCase | .keyword .kwDefault => true
  | _ => false

theorem Token.interrupts_of_starts {token : Token} (h : token.starts = true) :
    token.interrupts = false := by
  unfold interrupts
  split
  all_goals first | rfl | cases h

theorem Statement.begins (s : Statement) : ∃ token ∈ s.tokens.head?, token.interrupts = false := by
  cases s with
  | expression expr line =>
      obtain ⟨token, hhead, hstarts⟩ := Grammar.begins_tokensAt expr [.symbol .semicolon]
      exact ⟨token, hhead, Token.interrupts_of_starts hstarts⟩
  | declare decl =>
      refine ⟨_, rfl, ?_⟩
      rw [VariableDecl.keyword]
      cases decl.isConst <;> rfl
  | classType decl =>
      rw [tokens]
      cases decl.isStatic <;> exact ⟨_, rfl, rfl⟩
  | _ => exact ⟨_, rfl, rfl⟩

theorem Statement.tokens_pos (s : Statement) : 0 < s.tokens.length := by
  obtain ⟨token, hhead, -⟩ := s.begins
  cases htokens : s.tokens with
  | nil =>
      rw [htokens] at hhead
      cases hhead
  | cons token rest => exact Nat.succ_pos _

namespace Grammar

/-- What may follow a statement: no `catch`, no `finally`, and after an open `if` no `else`. -/
def follow (s : Statement) : Follow :=
  fun t => noneOf [.kwCatch, .kwFinally] t && (noneOf [.kwElse] t || !s.isOpen)

theorem follow_of_not_interrupts (s : Statement) {token : Token} (h : token.interrupts = false) :
    follow s (some token) = true := by
  cases token with
  | keyword word => cases word <;> first | rfl | cases h
  | _ => rfl

/-- A statement may be followed by others. -/
theorem follow_statements (s : Statement) (rest : List Statement) (more : List Token)
    {t : Option Token} (h : follow s (more.head?.or t) = true) :
    follow s ((statementsTokens rest ++ more).head?.or t) = true := by
  cases rest with
  | nil => exact h
  | cons next rest =>
      obtain ⟨token, hhead, htoken⟩ := next.begins
      rw [statementsTokens, List.append_assoc, List.head?_append, hhead]
      exact follow_of_not_interrupts s htoken

theorem noneOf_of_follow {s : Statement} {t : Option Token} (h : follow s t = true) :
    noneOf [.kwCatch, .kwFinally] t = true := (Bool.and_eq_true_iff.mp h).1

/-- A statement that ends with another one may be followed by what may follow that. -/
theorem follow_mono {s inner : Statement} (hopen : inner.isOpen = true → s.isOpen = true)
    {t : Option Token} (h : follow s t = true) : follow inner t = true := by
  obtain ⟨hcatch, helse⟩ := Bool.and_eq_true_iff.mp h
  refine Bool.and_eq_true_iff.mpr ⟨hcatch, ?_⟩
  cases hinner : inner.isOpen with
  | false => exact Bool.or_true _
  | true =>
      rw [hopen hinner] at helse
      exact helse

/-- The parser reads back every statement of fewer than `n` tokens. -/
def StatementsBelow (n : Nat) (statement : Parser Statement) : Prop :=
  ∀ ⦃s : Statement⦄, s.WellFormed → s.tokens.length < n →
    Takes statement s.tokens (follow s) fun s' => s'.unlined = s.unlined

variable {n : Nat} {statement : Parser Statement}

/-! ## Blocks -/

section

variable (hread : StatementsBelow n statement)

include hread

theorem statementsToBrace_takes : ∀ {body : List Statement}, WellFormedStatements body →
    (statementsTokens body).length < n → ∀ {fuel : Nat}, (statementsTokens body).length < fuel →
    Takes (statementsToBrace statement fuel) (statementsTokens body ++ [.symbol .rightBrace])
      anything fun body' => unlinedStatements body' = unlinedStatements body
  | [], _, _, fuel + 1, _ => .peekCons fun _ => .skip (.pure rfl)
  | s :: body, hbody, hlt, fuel + 1, hfuel => by
      have hpos := s.tokens_pos
      rw [statementsTokens, List.length_append] at hlt hfuel
      obtain ⟨token, hhead, htoken⟩ := s.begins
      rw [statementsTokens, List.append_assoc]
      refine .peekHead (by rw [List.head?_append, hhead]; rfl) fun line => ?_
      split
      case h_1 heq =>
        cases heq
        cases htoken
      case h_2 =>
        refine .bind (hread hbody.1 (by omega)) (fun t _ => follow_statements s body _ rfl)
          fun s' hs => ?_
        refine (statementsToBrace_takes hbody.2 (by omega) (by omega)).map fun body' hbody' => ?_
        rw [unlinedStatements, unlinedStatements, hs, hbody']
      case h_3 heq => cases heq

theorem blockBody_takes {body : List Statement} (hbody : WellFormedStatements body)
    (hlt : (statementsTokens body).length < n) :
    Takes (blockBody statement) (statementsTokens body ++ [.symbol .rightBrace]) anything
      fun body' => unlinedStatements body' = unlinedStatements body := by
  refine .fuel fun fuel hfuel => ?_
  rw [List.length_append] at hfuel
  exact statementsToBrace_takes hread hbody hlt (by omega)

theorem block_takes : BlocksBelow n (block statement) :=
  fun _ hbody hlt => .expectSymbol fun _ => blockBody_takes hread hbody hlt

/-! ## Branches and loops -/

omit hread in
theorem condition_takes {e : Expr} (he : e.WellFormed) (word : String) :
    Takes (condition word) (conditionTokens e) anything fun e' => e'.unlined = e.unlined :=
  .expectSymbol fun _ => .bind (expression_takes he) (fun _ _ => rfl) fun _ heq =>
    .expectSymbol fun _ => .pure heq

theorem branch_takes {condition : Expr} {onTrue : Statement} {onFalse : Option Statement}
    {line₀ : Nat} (h : (Statement.branch condition onTrue onFalse line₀).WellFormed)
    (hle : (Statement.branch condition onTrue onFalse line₀).tokens.length ≤ n) (line : Nat) :
    Takes (branch statement line)
      (conditionTokens condition ++ (onTrue.tokens ++ elseTokens onFalse))
      (follow (.branch condition onTrue onFalse line₀))
      fun s => s.unlined = (Statement.branch condition onTrue onFalse line₀).unlined := by
  obtain ⟨hcondition, htrue, hclosed, hfalse⟩ := h
  simp only [Statement.tokens, List.length_cons, List.length_append] at hle
  refine .bind (condition_takes hcondition _) (fun _ _ => rfl) fun condition' hcondition' => ?_
  cases onFalse with
  | none =>
      refine .bind (hread htrue (by omega)) (fun t ht => follow_mono (fun _ => rfl) ht)
        fun onTrue' htrue' => ?_
      refine .notIf (fun t ht => ?_) (.pure ?_)
      · have helse : noneOf [.kwElse] t = true := by
          have hor := (Bool.and_eq_true_iff.mp ht).2
          exact (Bool.or_false _).symm.trans hor
        exact noneOf_mem helse List.mem_cons_self
      · rw [Statement.unlined, Statement.unlined, hcondition', htrue']
  | some onFalse =>
      rw [elseTokens, List.length_cons] at hle
      refine .bind (hread htrue (by omega)) (fun t _ => ?_) fun onTrue' htrue' => .takenKeyword ?_
      -- An open `if` in front of the `else` would take it.
      · change (!onTrue.isOpen) = true
        rw [hclosed rfl]
        rfl
      · refine ((hread hfalse (by omega)).weaken fun t ht => ?_).map fun onFalse' hfalse' => ?_
        · exact follow_mono (fun hopen => hopen) ht
        · rw [Statement.unlined, Statement.unlined, hcondition', htrue', unlinedOptional, hfalse']
          rfl

theorem whileLoop_takes {condition : Expr} {body : Statement} (hcondition : condition.WellFormed)
    (hbody : body.WellFormed) (hlt : body.tokens.length < n) (line line₀ : Nat) :
    Takes (whileLoop statement line) (conditionTokens condition ++ body.tokens)
      (follow (.whileLoop condition body line₀))
      fun s => s.unlined = (Statement.whileLoop condition body line₀).unlined := by
  refine .bind (condition_takes hcondition _) (fun _ _ => rfl) fun condition' hcondition' => ?_
  refine ((hread hbody hlt).weaken fun t ht => follow_mono (fun hopen => hopen) ht).map
    fun body' hbody' => ?_
  rw [Statement.unlined, Statement.unlined, hcondition', hbody']

theorem doWhile_takes {body : Statement} {condition : Expr} (hbody : body.WellFormed)
    (hcondition : condition.WellFormed) (hlt : body.tokens.length < n) (line line₀ : Nat) :
    Takes (doWhile statement line)
      (body.tokens ++ .keyword .kwWhile :: (conditionTokens condition ++ [.symbol .semicolon]))
      anything fun s => s.unlined = (Statement.doWhile body condition line₀).unlined := by
  refine .bind (hread hbody hlt) (fun t _ => ?_) fun body' hbody' => .expectKeyword fun _ => ?_
  · exact follow_of_not_interrupts body rfl
  · refine .bind (condition_takes hcondition _) (fun _ _ => rfl) fun condition' hcondition' => ?_
    refine .expectSymbol fun _ => .pure ?_
    rw [Statement.unlined, Statement.unlined, hcondition', hbody']

/-- The symbol comes next. -/
def isNext (mark : Symbol) : Follow := fun t => t.any (Token.isSymbol mark)

omit hread in
theorem eq_of_isNext {mark : Symbol} {t : Option Token} (h : isNext mark t = true) :
    t = some (.symbol mark) := by
  cases t with
  | none => cases h
  | some token =>
      cases token with
      | symbol other =>
          obtain rfl : other = mark := eq_of_beq h
          rfl
      | _ => cases h

omit hread in
theorem loopStart_takes {initial : Option Statement} (h : WellFormedStart initial) :
    Takes loopStart (loopStartTokens initial) (isNext .colon)
      fun initial' => unlinedOptional initial' = unlinedOptional initial := by
  have hdecl {decl : VariableDecl} (hdecl : decl.WellFormed) (line : Nat) :
      Takes (variableDecl decl.isConst line >>= fun decl => pure (some (.declare decl)))
        decl.tokens (isNext .colon)
        fun initial' => unlinedOptional initial' = some (.declare decl.unlined) := by
    refine ((variableDecl_takes hdecl line).weaken fun t ht => ?_).map fun decl' heq => ?_
    · obtain rfl := eq_of_isNext ht
      rfl
    · rw [unlinedOptional, Statement.unlined, heq]
  match initial with
  | none =>
      refine .peek? fun t found ht hfound => ?_
      obtain rfl := eq_of_isNext ht
      obtain ⟨⟨_, line⟩, rfl, rfl⟩ := Option.map_eq_some_iff.mp hfound
      exact .pure rfl
  | some (.declare decl) =>
      rw [loopStartTokens, VariableDecl.keyword]
      cases hconst : decl.isConst with
      | true =>
          refine .peekCons fun line => .skip ?_
          have hread := hdecl h line
          rwa [hconst] at hread
      | false =>
          refine .peekCons fun line => .skip ?_
          have hread := hdecl h line
          rwa [hconst] at hread
  | some (.expression e line₀) =>
      obtain ⟨token, hhead, hstarts⟩ := begins_tokensAt e []
      rw [List.append_nil] at hhead
      have hread : Takes (peekLine >>= fun line => expression >>= fun e =>
          pure (some (.expression e line))) (e.tokensAt 0) (isNext .colon)
          fun initial' => unlinedOptional initial' = some (.expression e.unlined 0) := by
        refine .peekLine fun line => ?_
        refine ((expression_takes h).weaken fun t ht => ?_).map fun e' heq => ?_
        · obtain rfl := eq_of_isNext ht
          rfl
        · rw [unlinedOptional, Statement.unlined, heq]
      refine .peekHead hhead fun line => ?_
      split
      case h_1 heq | h_2 heq | h_3 heq =>
        cases heq
        cases hstarts
      case h_4 => exact hread

omit hread in
theorem optionalBefore_takes {e : Option Expr} (h : ∀ value ∈ e, value.WellFormed)
    {closing : Symbol} (hstarts : (Token.symbol closing).starts = false)
    (hcontinues : (Token.symbol closing).continues = none) :
    Takes (optionalBefore closing) (optionalTokens e) (isNext closing)
      fun e' => e'.map Expr.unlined = e.map Expr.unlined := by
  refine .at? fun t ht => ?_
  obtain rfl := eq_of_isNext ht
  cases e with
  | none =>
      change Takes (if (closing == closing) = true then _ else _) _ _ _
      rw [beq_self_eq_true]
      exact .pure rfl
  | some e =>
      have hhead := head_tokensAt e [] (some (.symbol closing)) (isSymbol_of_starts hstarts)
      rw [List.append_nil] at hhead
      rw [optionalTokens, hhead]
      refine ((expression_takes (h e rfl)).weaken fun t ht => ?_).map fun _ he => congrArg some he
      obtain rfl := eq_of_isNext ht
      exact Option.isNone_iff_eq_none.mpr hcontinues

theorem forLoop_takes {initial : Option Statement} {condition step : Option Expr}
    {body : Statement} {line₀ : Nat}
    (h : (Statement.forLoop initial condition step body line₀).WellFormed)
    (hlt : body.tokens.length < n) (line : Nat) :
    Takes (forLoop statement line)
      (.symbol .leftParen :: (loopStartTokens initial ++ .symbol .colon ::
        (optionalTokens condition ++ .symbol .colon ::
          (optionalTokens step ++ .symbol .rightParen :: body.tokens))))
      (follow (.forLoop initial condition step body line₀))
      fun s => s.unlined = (Statement.forLoop initial condition step body line₀).unlined := by
  obtain ⟨hinitial, hcondition, hstep, hbody⟩ := h
  refine .expectSymbol fun _ => .bind (loopStart_takes hinitial) (fun _ _ => rfl)
    fun initial' hinitial' => .expectSymbol fun _ => ?_
  refine .bind (optionalBefore_takes hcondition rfl rfl) (fun _ _ => rfl)
    fun condition' hcondition' => .expectSymbol fun _ => ?_
  refine .bind (optionalBefore_takes hstep rfl rfl) (fun _ _ => rfl)
    fun step' hstep' => .expectSymbol fun _ => ?_
  refine ((hread hbody hlt).weaken fun t ht => follow_mono (fun hopen => hopen) ht).map
    fun body' hbody' => ?_
  rw [Statement.unlined, Statement.unlined, hinitial', hcondition', hstep', hbody']

/-! ## Switch -/

/-- The statements of a case end here. -/
def caseEnds : Follow := fun t => t.all endsCase

omit hread in
theorem follow_of_caseEnds (s : Statement) {t : Option Token} (h : caseEnds t = true) :
    follow s t = true := by
  cases t with
  | none => rfl
  | some token =>
      cases token with
      | keyword word => cases word <;> first | rfl | cases h
      | _ => rfl

omit hread in
theorem endsCase_of_not_interrupts {token : Token} (h : token.interrupts = false) :
    endsCase token = false := by
  unfold endsCase
  split
  all_goals first | rfl | cases h

theorem caseBody_takes : ∀ {body : List Statement}, WellFormedStatements body →
    (statementsTokens body).length < n → ∀ {fuel : Nat}, (statementsTokens body).length < fuel →
    Takes (caseBody statement fuel) (statementsTokens body) caseEnds
      fun body' => unlinedStatements body' = unlinedStatements body
  | [], _, _, fuel + 1, _ => by
      refine .peek? fun t found ht hfound => ?_
      split
      case h_1 token line =>
        obtain rfl : t = some token := hfound.symm
        have hends : endsCase token = true := ht
        rw [hends]
        exact .pure rfl
      case h_2 => exact .pure rfl
  | s :: body, hbody, hlt, fuel + 1, hfuel => by
      have hpos := s.tokens_pos
      rw [statementsTokens, List.length_append] at hlt hfuel
      obtain ⟨token, hhead, htoken⟩ := s.begins
      rw [statementsTokens]
      refine .peekHead (by rw [List.head?_append, hhead]; rfl) fun line => ?_
      change Takes (if endsCase token = true then _ else _) _ _ _
      rw [endsCase_of_not_interrupts htoken]
      refine .bind (hread hbody.1 (by omega)) (fun t ht => ?_) fun s' hs => ?_
      · have hfollow := follow_statements s body [] (follow_of_caseEnds s ht)
        rwa [List.append_nil] at hfollow
      · refine (caseBody_takes hbody.2 (by omega) (by omega)).map fun body' hbody' => ?_
        rw [unlinedStatements, unlinedStatements, hs, hbody']

/-- The statements under a label, which end where the next label or the closing brace stands. -/
theorem labelled_takes {β : Type} {f : List Statement → Parser β} {body : List Statement}
    {rest : List Token} {Q : β → Prop} (hbody : WellFormedStatements body)
    (hlt : (statementsTokens body).length < n) (hrest : ∀ t, caseEnds (rest.head?.or t) = true)
    (hf : ∀ body', unlinedStatements body' = unlinedStatements body →
      Takes (f body') rest anything Q) :
    Takes (Action.read (·.length + 1) >>= fun fuel => caseBody statement fuel >>= f)
      (statementsTokens body ++ rest) anything Q := by
  refine .fuel fun fuel hfuel => ?_
  rw [List.length_append] at hfuel
  exact .bind (caseBody_takes hread hbody hlt (by omega)) (fun t _ => hrest t) hf

theorem switchCases_default {fallback : Option (List Statement)} (h : WellFormedBlock fallback)
    (hlt : (defaultTokens fallback).length < n) {fuel : Nat}
    (hfuel : (defaultTokens fallback ++ [Token.symbol .rightBrace]).length < fuel) :
    Takes (switchCases statement fuel none) (defaultTokens fallback ++ [.symbol .rightBrace])
      anything fun result => unlinedCases result.1 = [] ∧
        unlinedOptionalBlock result.2 = unlinedOptionalBlock fallback := by
  obtain ⟨fuel, rfl⟩ : ∃ m, fuel = m + 1 := ⟨fuel - 1, by omega⟩
  cases fallback with
  | none => exact .next? fun _ => .pure ⟨rfl, rfl⟩
  | some body =>
      rw [defaultTokens, List.length_cons, List.length_cons] at hlt
      obtain ⟨fuel, rfl⟩ : ∃ m, fuel = m + 1 := by
        simp only [defaultTokens, List.length_append, List.length_cons] at hfuel
        exact ⟨fuel - 1, by omega⟩
      refine .next? fun line => .expectSymbol fun _ => ?_
      refine labelled_takes hread h (by omega) (fun _ => rfl) fun body' hbody' => ?_
      exact .next? fun _ => .pure ⟨rfl, congrArg some hbody'⟩

omit hread in
/-- A label or the closing brace stands after the statements of a case. -/
theorem caseEnds_cases (cases : List SwitchCase) (fallback : Option (List Statement))
    (t : Option Token) :
    caseEnds ((casesTokens cases ++
      (defaultTokens fallback ++ [Token.symbol .rightBrace])).head?.or t) = true := by
  match cases, fallback with
  | ⟨_, _, _⟩ :: _, _ | [], some _ | [], none => rfl

theorem switchCases_takes {fallback : Option (List Statement)} (h : WellFormedBlock fallback) :
    ∀ {cases : List SwitchCase}, WellFormedCases cases →
    (casesTokens cases ++ defaultTokens fallback).length < n → ∀ {fuel : Nat},
    (casesTokens cases ++ (defaultTokens fallback ++ [Token.symbol .rightBrace])).length < fuel →
    Takes (switchCases statement fuel none)
      (casesTokens cases ++ (defaultTokens fallback ++ [.symbol .rightBrace])) anything
      fun result => unlinedCases result.1 = unlinedCases cases ∧
        unlinedOptionalBlock result.2 = unlinedOptionalBlock fallback
  | [], _, hlt, fuel, hfuel => switchCases_default hread h hlt hfuel
  | ⟨value, body, line₀⟩ :: cases, hcases, hlt, fuel, hfuel => by
      obtain ⟨fuel, rfl⟩ : ∃ m, fuel = m + 1 := ⟨fuel - 1, by omega⟩
      obtain ⟨hvalue, hbody, hcases⟩ := hcases
      simp only [casesTokens, List.length_cons, List.length_append] at hlt
      rw [casesTokens, List.cons_append, List.append_assoc, List.cons_append, List.append_assoc]
        at hfuel ⊢
      rw [List.length_cons, List.length_append, List.length_cons, List.length_append] at hfuel
      refine .next? fun line => .bind (expression_takes hvalue) (fun _ _ => rfl)
        fun value' hvalue' => .expectSymbol fun _ => ?_
      refine labelled_takes hread hbody (by omega) (caseEnds_cases cases fallback)
        fun body' hbody' => ?_
      have hshort : (casesTokens cases ++ defaultTokens fallback).length < n := by
        rw [List.length_append]
        omega
      refine (switchCases_takes h hcases hshort (by omega)).last ?_
      rintro ⟨cases', fallback'⟩ ⟨hcases', hfallback'⟩
      refine .pure ⟨?_, hfallback'⟩
      rw [unlinedCases, unlinedCases, hvalue', hbody', hcases']

theorem switch_takes {subject : Expr} {cases : List SwitchCase}
    {fallback : Option (List Statement)} {line₀ : Nat}
    (h : (Statement.switch subject cases fallback line₀).WellFormed)
    (hlt : (casesTokens cases ++ defaultTokens fallback).length < n) (line : Nat) :
    Takes (switch statement line)
      (conditionTokens subject ++ braces (casesTokens cases ++ defaultTokens fallback)) anything
      fun s => s.unlined = (Statement.switch subject cases fallback line₀).unlined := by
  obtain ⟨hsubject, hcases, hfallback⟩ := h
  refine .bind (condition_takes hsubject _) (fun _ _ => rfl) fun subject' hsubject' => ?_
  refine .expectSymbol fun _ => .fuel fun fuel hfuel => ?_
  rw [List.append_assoc] at hfuel ⊢
  refine (switchCases_takes hread hfallback hcases hlt hfuel).last ?_
  rintro ⟨cases', fallback'⟩ ⟨hcases', hfallback'⟩
  refine .pure ?_
  rw [Statement.unlined, Statement.unlined, hsubject', hcases', hfallback']

/-! ## Exceptions -/

omit hread in
theorem optionalType_takes {ty : Option Ty} (h : ∀ caught ∈ ty, caught.Producible) :
    Takes optionalType (optionalTypeTokens ty) (isNext .rightParen) (· = ty) := by
  cases ty with
  | none =>
      refine .notIf (fun t ht => ?_) (.pure rfl)
      obtain rfl := eq_of_isNext ht
      rfl
  | some ty =>
      refine .takenSymbol (((type_takes (h ty rfl)).weaken fun t ht => ?_).map ?_)
      · obtain rfl := eq_of_isNext ht
        rfl
      · rintro _ rfl
        rfl

theorem catchClause_takes {name : String} {ty : Option Ty} {body : List Statement}
    (hty : ∀ caught ∈ ty, caught.Producible) (hbody : WellFormedStatements body)
    (hlt : (statementsTokens body).length < n) (line line₀ : Nat) :
    Takes (catchClause statement line)
      (.symbol .leftParen :: .name name :: (optionalTypeTokens ty ++
        .symbol .rightParen :: braces (statementsTokens body))) anything
      fun clause => unlinedCatches [clause] = unlinedCatches [⟨name, ty, body, line₀⟩] := by
  refine .expectSymbol fun _ => .identifier ?_
  refine .bind (optionalType_takes hty) (fun _ _ => rfl) ?_
  rintro _ rfl
  refine .expectSymbol fun _ => .expectSymbol fun _ => ?_
  refine (blockBody_takes hread hbody hlt).map fun body' hbody' => ?_
  rw [unlinedCatches, hbody']
  rfl

omit hread in
theorem unlinedCatches_cons (clause : CatchClause) (rest : List CatchClause) :
    unlinedCatches (clause :: rest) = unlinedCatches [clause] ++ unlinedCatches rest := by
  cases clause
  rfl

theorem catchClauses_takes : ∀ {catches : List CatchClause}, WellFormedCatches catches →
    (catchesTokens catches).length < n → ∀ {fuel : Nat}, (catchesTokens catches).length < fuel →
    Takes (catchClauses statement fuel) (catchesTokens catches) (noneOf [.kwCatch])
      fun catches' => unlinedCatches catches' = unlinedCatches catches
  | [], _, _, fuel + 1, _ => by
      refine .peek? fun t found ht hfound => ?_
      split
      · cases hfound
        cases ht
      · exact .pure rfl
  | ⟨name, ty, body, line₀⟩ :: catches, hcatches, hlt, fuel + 1, hfuel => by
      obtain ⟨hty, hbody, hcatches⟩ := hcatches
      simp only [catchesTokens, braces, List.length_append, List.length_cons] at hlt hfuel
      refine .peekCons fun line => .skip ?_
      refine .bind (catchClause_takes hread hty hbody (by omega) line line₀) (fun _ _ => rfl)
        fun clause hclause => ?_
      refine (catchClauses_takes hcatches (by omega) (by omega)).map fun catches' hcatches' => ?_
      rw [unlinedCatches_cons, hclause, hcatches', ← unlinedCatches_cons]

theorem finalizer_takes {body : Option (List Statement)} (h : WellFormedBlock body)
    (hlt : (finallyTokens body).length < n) :
    Takes (finalizer statement) (finallyTokens body) (noneOf [.kwFinally])
      fun body' => unlinedOptionalBlock body' = unlinedOptionalBlock body := by
  cases body with
  | none => exact .notIf (fun t ht => noneOf_mem ht List.mem_cons_self) (.pure rfl)
  | some body =>
      simp only [finallyTokens, braces, List.length_append, List.length_cons] at hlt
      refine .takenKeyword (((block_takes hread h (by omega)).weaken fun _ _ => rfl).map ?_)
      exact fun _ hbody => congrArg some hbody

omit hread in
theorem isEmpty_unlinedCatches (catches : List CatchClause) :
    (unlinedCatches catches).isEmpty = catches.isEmpty := by
  cases catches with
  | nil => rfl
  | cons clause rest =>
      cases clause
      rfl

omit hread in
theorem isNone_unlinedOptionalBlock (body : Option (List Statement)) :
    (unlinedOptionalBlock body).isNone = body.isNone := by
  cases body <;> rfl

theorem tryCatch_takes {body : List Statement} {catches : List CatchClause}
    {finally? : Option (List Statement)} {line₀ : Nat}
    (h : (Statement.tryCatch body catches finally? line₀).WellFormed)
    (hle : (Statement.tryCatch body catches finally? line₀).tokens.length ≤ n) (line : Nat) :
    Takes (tryCatch statement line)
      (braces (statementsTokens body) ++ (catchesTokens catches ++ finallyTokens finally?))
      (noneOf [.kwCatch, .kwFinally])
      fun s => s.unlined = (Statement.tryCatch body catches finally? line₀).unlined := by
  obtain ⟨hbody, hcatches, hfinally, hsome⟩ := h
  simp only [Statement.tokens, braces, List.length_cons, List.length_append] at hle
  refine .bind (block_takes hread hbody (by omega)) (fun _ _ => rfl) fun body' hbody' => ?_
  refine .fuel fun fuel hfuel => ?_
  rw [List.length_append] at hfuel
  refine .bind (catchClauses_takes hread hcatches (by omega) (by omega)) (fun t ht => ?_)
    fun catches' hcatches' => ?_
  · cases finally? with
    | none => exact noneOf_subset (by decide) ht
    | some body => rfl
  · refine .last ((finalizer_takes hread hfinally (by omega)).weaken fun t ht => ?_)
      fun finally' hfinally' => ?_
    · exact noneOf_subset (by decide) ht
    -- The statement that is read has a `catch` or a `finally` as well, so it is not rejected.
    · have hsome' : (catches'.isEmpty && finally'.isNone) = false := by
        rw [← isEmpty_unlinedCatches, hcatches', isEmpty_unlinedCatches,
          ← isNone_unlinedOptionalBlock, hfinally', isNone_unlinedOptionalBlock, hsome]
      change Takes (if (catches'.isEmpty && finally'.isNone) = true then _ else _) _ _ _
      rw [hsome']
      refine .pure ?_
      rw [Statement.unlined, Statement.unlined, hbody', hcatches', hfinally']

/-! ## One statement -/

omit hread in
theorem statementStep_keyword {word : Keyword} {rest : Nat → Parser Statement}
    {tokens : List Token} {next : Follow} {P : Statement → Prop}
    (hrest : ∀ line, keywordStatement? statement line word = some (rest line))
    (h : ∀ line, Takes (rest line) tokens next P) :
    Takes (statementStep statement) (.keyword word :: tokens) next P := by
  refine .peekCons fun line => ?_
  simp only [hrest]
  exact .skip (h line)

omit hread in
theorem statementStep_expression {e : Expr} (he : e.WellFormed) (line₀ : Nat) :
    Takes (statementStep statement) (e.tokensAt 0 ++ [.symbol .semicolon]) anything
      fun s => s.unlined = (Statement.expression e line₀).unlined := by
  have hread (line : Nat) : Takes (expressionStatement line)
      (e.tokensAt 0 ++ [.symbol .semicolon]) anything
      fun s => s.unlined = (Statement.expression e line₀).unlined := by
    refine .bind (expression_takes he) (fun _ _ => rfl) fun e' heq => ?_
    refine .expectSymbol fun _ => .pure ?_
    rw [Statement.unlined, Statement.unlined, heq]
  obtain ⟨token, hhead, hstarts⟩ := begins_tokensAt e [.symbol .semicolon]
  refine .peekHead hhead fun line => ?_
  -- An expression begins with no brace and with no keyword of another statement.
  split
  case h_1 heq =>
    cases heq
    cases hstarts
  case h_2 word _ heq =>
    cases heq
    cases word <;> first | exact absurd hstarts Bool.false_ne_true | exact hread line
  case h_3 => exact hread _
  case h_4 heq => cases heq

omit hread in
theorem declaration_takes {decl : VariableDecl} (h : decl.WellFormed) :
    Takes (statementStep statement) (.keyword decl.keyword :: (decl.tokens ++ [.symbol .semicolon]))
      anything fun s => s.unlined = (Statement.declare decl).unlined := by
  have hread (line : Nat) : Takes (declaration decl.isConst line)
      (decl.tokens ++ [.symbol .semicolon]) anything
      fun s => s.unlined = (Statement.declare decl).unlined := by
    refine .bind (variableDecl_takes h line) (fun _ _ => rfl) fun decl' heq => ?_
    refine .expectSymbol fun _ => .pure ?_
    rw [Statement.unlined, Statement.unlined, heq]
  rw [VariableDecl.keyword]
  cases hconst : decl.isConst with
  | true =>
      rw [hconst] at hread
      exact statementStep_keyword (fun _ => rfl) hread
  | false =>
      rw [hconst] at hread
      exact statementStep_keyword (fun _ => rfl) hread

theorem classType_takes {decl : ClassDecl} (h : decl.WellFormed) (hlt : decl.tokens.length < n) :
    Takes (statementStep statement)
      (staticTokens decl.isStatic ++ .keyword .kwClass :: decl.tokens) anything
      fun s => s.unlined = (Statement.classType decl).unlined := by
  have hclass (line : Nat) : Takes
      (classDecl (block statement) decl.isStatic line >>= fun decl =>
        pure (Statement.classType decl))
      decl.tokens anything fun s => s.unlined = (Statement.classType decl).unlined := by
    refine (classDecl_takes (block_takes hread) h hlt line).map fun decl' heq => ?_
    rw [Statement.unlined, Statement.unlined, heq]
  cases hstatic : decl.isStatic with
  | true =>
      rw [hstatic] at hclass
      exact statementStep_keyword (fun _ => rfl) fun line => .expectKeyword fun _ => hclass line
  | false =>
      rw [hstatic] at hclass
      exact statementStep_keyword (fun _ => rfl) hclass

/-- A statement is read if its parts are, which are shorter. -/
theorem statementStep_takes {s : Statement} (h : s.WellFormed) (hle : s.tokens.length ≤ n) :
    Takes (statementStep statement) s.tokens (follow s) fun s' => s'.unlined = s.unlined := by
  have hblock : BlocksBelow n (block statement) := block_takes hread
  cases s with
  | expression e line₀ => exact (statementStep_expression h line₀).weaken fun _ _ => rfl
  | declare decl => exact (declaration_takes h).weaken fun _ _ => rfl
  | function decl =>
      refine statementStep_keyword (fun _ => rfl) fun line => ?_
      refine ((function_takes hblock h hle line).weaken fun _ _ => rfl).map fun decl' heq => ?_
      rw [Statement.unlined, Statement.unlined, heq]
  | classType decl =>
      rw [Statement.tokens, List.length_append, List.length_cons] at hle
      exact (classType_takes hread h (by omega)).weaken fun _ _ => rfl
  | interface decl =>
      refine statementStep_keyword (fun _ => rfl) fun line => ?_
      refine ((interfaceDecl_takes h line).weaken fun _ _ => rfl).map fun decl' heq => ?_
      rw [Statement.unlined, Statement.unlined, heq]
  | enumeration decl =>
      refine statementStep_keyword (fun _ => rfl) fun line => ?_
      refine ((enumDecl_takes decl line).weaken fun _ _ => rfl).map fun decl' heq => ?_
      rw [Statement.unlined, Statement.unlined, heq]
  | block body line₀ =>
      have hshort : (statementsTokens body).length < n := by
        simp only [Statement.tokens, braces, List.length_cons, List.length_append] at hle
        omega
      refine .peekCons fun line => ?_
      refine ((hblock h hshort).weaken fun _ _ => rfl).map fun body' heq => ?_
      rw [Statement.unlined, Statement.unlined, heq]
  | branch condition onTrue onFalse line₀ =>
      exact statementStep_keyword (fun _ => rfl) (branch_takes hread h hle)
  | whileLoop condition body line₀ =>
      rw [Statement.tokens, List.length_cons, List.length_append] at hle
      exact statementStep_keyword (fun _ => rfl) fun line =>
        whileLoop_takes hread h.1 h.2 (by omega) line line₀
  | doWhile body condition line₀ =>
      rw [Statement.tokens, List.length_cons, List.length_append] at hle
      exact statementStep_keyword (fun _ => rfl) fun line =>
        (doWhile_takes hread h.1 h.2 (by omega) line line₀).weaken fun _ _ => rfl
  | forLoop initial condition step body line₀ =>
      simp only [Statement.tokens, List.length_cons, List.length_append] at hle
      exact statementStep_keyword (fun _ => rfl) (forLoop_takes hread h (by omega))
  | switch subject cases fallback line₀ =>
      simp only [Statement.tokens, braces, List.length_cons, List.length_append] at hle
      have hshort : (casesTokens cases ++ defaultTokens fallback).length < n := by
        rw [List.length_append]
        omega
      exact statementStep_keyword (fun _ => rfl) fun line =>
        (switch_takes hread h hshort line).weaken fun _ _ => rfl
  | breakLoop line₀ =>
      exact statementStep_keyword (fun _ => rfl) fun _ => .expectSymbol fun _ => .pure rfl
  | continueLoop line₀ =>
      exact statementStep_keyword (fun _ => rfl) fun _ => .expectSymbol fun _ => .pure rfl
  | returnValue value line₀ =>
      refine statementStep_keyword (fun _ => rfl) fun line => ?_
      refine .bind (optionalBefore_takes h rfl rfl) (fun _ _ => rfl) fun value' heq => ?_
      refine .expectSymbol fun _ => .pure ?_
      rw [Statement.unlined, Statement.unlined, heq]
  | throwValue value line₀ =>
      refine statementStep_keyword (fun _ => rfl) fun line => ?_
      refine .bind (expression_takes h) (fun _ _ => rfl) fun value' heq => ?_
      refine .expectSymbol fun _ => .pure ?_
      rw [Statement.unlined, Statement.unlined, heq]
  | tryCatch body catches finally? line₀ =>
      exact statementStep_keyword (fun _ => rfl) fun line =>
        (tryCatch_takes hread h hle line).weaken fun _ ht => noneOf_of_follow ht
  | includeModule path line₀ =>
      refine statementStep_keyword (fun _ => rfl) fun line => ?_
      refine .cons (P := fun read => read = path) (fun _ _ => ⟨path, rfl, rfl⟩) ?_
      rintro _ rfl
      exact .expectSymbol fun _ => .pure rfl

end

/-- Every statement is read with more fuel than it has tokens. -/
theorem statementAt_takes (n : Nat) : StatementsBelow n (statementAt n) := by
  induction n with
  | zero =>
      intro s _ hlt
      exact absurd hlt (Nat.not_lt_zero _)
  | succ n ih =>
      intro s h hlt
      exact statementStep_takes ih h (Nat.le_of_lt_succ hlt)

end Grammar

end ClassScript
