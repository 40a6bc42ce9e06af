import ClassScript.Proofs.Precedence.Types

/-!
# Reading expressions

What each rule of the grammar reads from the tokens of a rendered expression. A rule for a level
reads an expression if what follows continues only looser ones; the loops over operators and
suffixes pass through the left part of an expression before they come to the whole.
-/

namespace ClassScript

/-! ## What may follow an expression -/

/-- The level of the expressions that a token after them continues, if there are any. -/
def Token.continues (token : Token) : Option Nat :=
  match token.binaryOp? with
  | some op => some op.level
  | none =>
    match token with
    | .symbol .leftParen => some 10
    | .symbol .dot | .symbol .leftBracket | .symbol .plusPlus | .symbol .minusMinus => some 9
    | .keyword .kwIs => some 4
    | .symbol .question | .symbol .assign | .symbol .plusAssign | .symbol .minusAssign
    | .symbol .starAssign | .symbol .slashAssign | .symbol .percentAssign => some 0
    | _ => none

/-- The next token, if there is one, continues only expressions below this level. -/
def Loose (level : Nat) (ts : List Lexeme) : Prop :=
  ∀ lexeme ∈ ts.head?, ∀ j ∈ lexeme.token.continues, j < level

namespace Loose

variable {k : Nat} {more : List Lexeme}

theorem mono {k' : Nat} (h : Loose k more) (hle : k ≤ k') : Loose k' more :=
  fun lexeme hlexeme j hj => Nat.lt_of_lt_of_le (h lexeme hlexeme j hj) hle

theorem cons {token : Token} {line : Nat} (h : ∀ j ∈ token.continues, j < k) :
    Loose k (⟨token, line⟩ :: more) := by
  rintro lexeme hlexeme
  obtain rfl := Option.some.inj hlexeme
  exact h

theorem of_none {token : Token} {line : Nat} (h : token.continues = none) :
    Loose k (⟨token, line⟩ :: more) := by
  refine cons fun j hj => ?_
  rw [h] at hj
  cases hj

theorem of_continues {token : Token} {line j : Nat} (htoken : token.continues = some j)
    (hlt : j < k) : Loose k (⟨token, line⟩ :: more) := by
  refine cons fun i hi => ?_
  obtain rfl := Option.some.inj (htoken.symm.trans hi)
  exact hlt

theorem notNext (h : Loose k more) {mark : Symbol} {j : Nat}
    (hmark : (Token.symbol mark).continues = some j) (hle : k ≤ j) : NotNext mark more := by
  intro lexeme hlexeme heq
  have hlt := h lexeme hlexeme j (heq ▸ hmark)
  omega

end Loose

/-! ## How expressions begin -/

/-- An expression may begin with the token. -/
def Token.starts : Token → Bool
  | .name _ | .keyword .kwThis | .keyword .kwNew | .symbol .leftParen | .symbol .leftBracket
  | .symbol .minus | .symbol .bang => true
  | token => token.literal?.isSome

/-- The tokens begin like an expression, and if `plain` is set not with a leading operator. -/
def Begins (plain : Bool) (tokens : List Token) : Prop :=
  ∃ token ∈ tokens.head?, token.starts = true ∧
    (plain = true → Grammar.LeadingOp.ofToken? token = none)

namespace Begins

variable {plain : Bool} {tokens : List Token}

theorem append (h : Begins plain tokens) (more : List Token) : Begins plain (tokens ++ more) := by
  obtain ⟨token, hhead, hstarts⟩ := h
  refine ⟨token, ?_, hstarts⟩
  rw [List.head?_append, hhead]
  rfl

theorem parens {bare : Bool} (h : bare = true → Begins plain tokens) :
    Begins plain (parens bare tokens) := by
  cases bare with
  | true => exact h rfl
  | false => exact ⟨_, rfl, rfl, fun _ => rfl⟩

theorem weaken (h : Begins plain tokens) : Begins false tokens := by
  obtain ⟨token, hhead, hstarts, -⟩ := h
  exact ⟨token, hhead, hstarts, nofun⟩

end Begins

theorem BinaryOp.level_le (op : BinaryOp) : op.level ≤ 7 := by
  cases op <;> decide

theorem Literal.starts_token (value : Literal) :
    value.token.starts = true ∧ Grammar.LeadingOp.ofToken? value.token = none := by
  cases value <;> exact ⟨rfl, rfl⟩

theorem Expr.level_of_fits {k : Nat} {e : Expr} (h : e.fits k = true) : k ≤ e.level := by
  rw [fits, Bool.and_eq_true, decide_eq_true_eq] at h
  exact h.2

theorem Expr.isArray_of_fits {k : Nat} {e : Expr} (h : e.fits k = true) : e.isArray = false := by
  rw [fits, Bool.and_eq_true, Bool.not_eq_true'] at h
  exact h.1

/-- Only an expression with a leading operator at its left end begins with one. -/
theorem Expr.begins_tokens : ∀ e : Expr, Begins (decide (9 ≤ e.level)) e.tokens
  | .literal value _ => ⟨_, rfl, value.starts_token.1, fun _ => value.starts_token.2⟩
  | .var .. | .self _ | .call .. | .new .. | .array _ none _ | .array _ (some _) _ =>
    ⟨_, rfl, rfl, fun _ => rfl⟩
  | .unary op _ _ => by
      refine ⟨_, rfl, ?_, nofun⟩
      cases op <;> rfl
  | .binary left op _ _ => by
      have hop : ¬ 9 ≤ op.level := fun h => absurd (Nat.le_trans h op.level_le) (by decide)
      rw [level, decide_eq_false hop, tokens]
      exact (Begins.parens fun _ => (begins_tokens left).weaken).append _
  | .typeTest operand _ _ => (Begins.parens fun _ => (begins_tokens operand).weaken).append _
  | .conditional condition _ _ _ =>
    (Begins.parens fun _ => (begins_tokens condition).weaken).append _
  | .assign (.var _) _ _ => ⟨_, rfl, rfl, nofun⟩
  | .assign (.index base _) _ _ =>
    ((Begins.parens fun _ => (begins_tokens base).weaken).append _).append _
  | .assign (.member object _) _ _ =>
    ((Begins.parens fun _ => (begins_tokens object).weaken).append _).append _
  | .methodCall object _ _ _ => by
      refine (Begins.parens fun hfits => ?_).append _
      have h := begins_tokens object
      rwa [decide_eq_true (level_of_fits hfits)] at h
  | .member object _ _ => by
      refine (Begins.parens fun hfits => ?_).append _
      have h := begins_tokens object
      rwa [decide_eq_true (level_of_fits hfits)] at h
  | .index base _ _ => by
      refine (Begins.parens fun hfits => ?_).append _
      have h := begins_tokens base
      rwa [decide_eq_true (level_of_fits hfits)] at h

namespace Grammar

variable {expression : Parser Expr} {n : Nat} {e : Expr} {ts more : List Lexeme} {line : Nat}

/-- Read from the lexemes `ts`, with `more` after them, the result is the expression up to its
lines, and `more` is left. -/
def Reads (p : Parser Expr) (ts more : List Lexeme) (e : Expr) : Prop :=
  ∃ e', p (ts ++ more) = .ok e' more ∧ e'.unlined = e.unlined

/-- The lexemes render the expression for a place that demands this level, in parentheses or bare.
A bare array literal is followed neither by a colon nor by a suffix, which would be taken for its
element type or a part of that. -/
inductive Placed (k : Nat) (e : Expr) (ts more : List Lexeme) : Prop
  | enclosed (tokens : Spells ts (parens false e.tokens))
  | bare (tokens : Spells ts e.tokens) (level : k ≤ e.level)
    (array : e.isArray = true → Loose 9 more ∧ NotNext .colon more)

namespace Placed

theorem of_tokensAt {k : Nat} (hts : Spells ts (e.tokensAt k)) : Placed k e ts more := by
  cases hfits : e.fits k with
  | false =>
      rw [Expr.tokensAt, hfits] at hts
      exact .enclosed hts
  | true =>
      rw [Expr.tokensAt, hfits] at hts
      refine .bare hts (Expr.level_of_fits hfits) fun harray => ?_
      rw [Expr.isArray_of_fits hfits] at harray
      cases harray

/-- An expression of another level than the demanded one fits the next tighter place too. -/
theorem tighten {k : Nat} (h : Placed k e ts more) (hlevel : e.level ≠ k) :
    Placed (k + 1) e ts more := by
  cases h with
  | enclosed hts => exact .enclosed hts
  | bare hts hle harray => exact .bare hts (by omega) harray

theorem begins {k : Nat} (h : Placed k e ts more) :
    Begins (decide (9 ≤ k)) (ts.map Lexeme.token) := by
  cases h with
  | enclosed hts =>
      rw [hts]
      exact .parens nofun
  | bare hts hle _ =>
      rw [hts]
      obtain ⟨token, hhead, hstarts, hplain⟩ := e.begins_tokens
      refine ⟨token, hhead, hstarts, fun hk => hplain ?_⟩
      exact decide_eq_true (Nat.le_trans (of_decide_eq_true hk) hle)

theorem length_pos {k : Nat} (h : Placed k e ts more) : 0 < ts.length := by
  obtain ⟨token, hhead, -⟩ := h.begins
  cases ts with
  | nil => cases hhead
  | cons lexeme rest => exact Nat.succ_pos _

end Placed

/-- A rule for a level reads every expression of at most `n` tokens in its place, unless what
follows continues an expression of the level. -/
def ReadsAt (n k : Nat) (p : Parser Expr) : Prop :=
  ∀ {e : Expr} {ts more : List Lexeme}, e.WellFormed → Placed k e ts more → ts.length ≤ n →
    Loose k more → Reads p ts more e

/-- Every expression of fewer than `n` tokens is read. -/
def ReadsBelow (n : Nat) (expression : Parser Expr) : Prop :=
  ∀ {e : Expr} {ts more : List Lexeme}, e.WellFormed → Placed 0 e ts more → ts.length < n →
    Loose 0 more → Reads expression ts more e

/-! ## Small rules -/

theorem peek?_cons (lexeme : Lexeme) (ts : List Lexeme) :
    peek? (lexeme :: ts) = .ok (some lexeme) (lexeme :: ts) := rfl

theorem takeSymbol_of_notNext {mark : Symbol} (h : NotNext mark ts) :
    takeSymbol mark ts = .ok false ts := by
  cases ts with
  | nil => rfl
  | cons lexeme rest =>
      have hmark : lexeme.token.isSymbol mark = false := by
        cases htoken : lexeme.token with
        | symbol other =>
            refine beq_eq_false_iff_ne.mpr fun heq => ?_
            exact h lexeme rfl (htoken.trans (congrArg Token.symbol heq))
        | _ => rfl
      have hat : at? (Token.isSymbol mark) (lexeme :: rest) = .ok false (lexeme :: rest) :=
        congrArg (Outcome.ok · (lexeme :: rest)) hmark
      exact Action.bind_of_ok hat

theorem takeSymbol_cons (mark : Symbol) :
    takeSymbol mark (⟨.symbol mark, line⟩ :: ts) = .ok true ts := by
  have hat : at? (Token.isSymbol mark) (⟨.symbol mark, line⟩ :: ts) =
      .ok true (⟨.symbol mark, line⟩ :: ts) :=
    congrArg (Outcome.ok · (Lexeme.mk (.symbol mark) line :: ts)) (beq_self_eq_true mark)
  exact Action.bind_of_ok hat

theorem expectSymbol_cons (mark : Symbol) (what : String) :
    expectSymbol mark what (⟨.symbol mark, line⟩ :: ts) = .ok line ts := by
  have hif : (if Token.isSymbol mark (.symbol mark) then (pure line : Parser Nat)
      else mismatch what (some ⟨.symbol mark, line⟩)) = pure line := if_pos (beq_self_eq_true mark)
  exact congrFun hif ts

/-! ## Lists -/

theorem length_le_furtherTokens : ∀ es : List Expr, es.length ≤ (furtherTokens es).length
  | [] => Nat.le_refl 0
  | e :: rest => by
      have h := length_le_furtherTokens rest
      simp only [furtherTokens, List.length_cons, List.length_append]
      omega

/-- A symbol that ends a list of expressions: it neither separates them nor belongs to one. -/
structure Closes (mark : Symbol) : Prop where
  separates : mark ≠ .comma
  continues : (Token.symbol mark).continues = none
  starts : (Token.symbol mark).starts = false

theorem closes_rightParen : Closes .rightParen := ⟨nofun, rfl, rfl⟩

theorem closes_rightBracket : Closes .rightBracket := ⟨nofun, rfl, rfl⟩

theorem itemsUntil_reads (hread : ReadsBelow n expression) {closing : Symbol}
    (hclosing : Closes closing) (line : Nat) (more : List Lexeme) :
    ∀ (es : List Expr) {e : Expr} (fuel : Nat) {ts : List Lexeme}, e.WellFormed →
      WellFormedAll es → Spells ts (e.tokensAt 0 ++ furtherTokens es) → ts.length < n →
      es.length < fuel → ∃ es', itemsUntil expression closing fuel
        (ts ++ ⟨.symbol closing, line⟩ :: more) = .ok es' more ∧
        unlinedAll es' = unlinedAll (e :: es)
  | es, e, fuel + 1, ts, he, hes, hts, hlt, hfuel => by
      obtain ⟨ts₁, ts₂, rfl, h₁, h₂⟩ := Spells.append_iff.mp hts
      rw [List.length_append] at hlt
      rw [List.append_assoc]
      cases es with
      | nil =>
          obtain rfl := Spells.nil_iff.mp h₂
          have hloose : Loose 0 (⟨.symbol closing, line⟩ :: more) :=
            .of_none hclosing.continues
          obtain ⟨e', hfirst, heq⟩ := hread he (.of_tokensAt h₁) (by omega) hloose
          refine ⟨[e'], (Action.bind_of_ok hfirst).trans ?_, by rw [unlinedAll, heq]; rfl⟩
          change (if closing = .comma then _ else if closing = closing then _ else _ :
            Parser (List Expr)) more = _
          rw [if_neg hclosing.separates, if_pos rfl]
          rfl
      | cons next es =>
          obtain ⟨line₂, ts₃, rfl, h₃⟩ := Spells.cons_iff.mp h₂
          have hloose : Loose 0 (⟨.symbol .comma, line₂⟩ :: ts₃ ++
              ⟨.symbol closing, line⟩ :: more) := .of_none rfl
          obtain ⟨e', hfirst, heq⟩ := hread he (.of_tokensAt h₁) (by omega) hloose
          rw [List.length_cons] at hlt hfuel
          obtain ⟨es', hrest, heqs⟩ := itemsUntil_reads hread hclosing line more es fuel
            hes.1 hes.2 h₃ (by omega) (by omega)
          refine ⟨e' :: es', (Action.bind_of_ok hfirst).trans ?_, ?_⟩
          · exact Action.bind_of_ok hrest
          · rw [unlinedAll, heq, heqs]
            rfl

/-- A list of expressions is read up to its closing symbol. -/
theorem commaSeparated_reads (hread : ReadsBelow n expression) {closing : Symbol}
    (hclosing : Closes closing) (line : Nat) (more : List Lexeme) {es : List Expr}
    (hes : WellFormedAll es) (hts : Spells ts (listTokens es)) (hlt : ts.length < n) :
    ∃ es', commaSeparated expression closing (ts ++ ⟨.symbol closing, line⟩ :: more) =
      .ok es' more ∧ unlinedAll es' = unlinedAll es := by
  cases es with
  | nil =>
      obtain rfl := Spells.nil_iff.mp hts
      exact ⟨[], Action.bind_of_ok (takeSymbol_cons closing), rfl⟩
  | cons e es =>
      have hnext : NotNext closing (ts ++ ⟨.symbol closing, line⟩ :: more) := by
        have hfirst : Begins (decide (9 ≤ e.level)) (e.tokensAt 0) :=
          .parens fun _ => e.begins_tokens
        obtain ⟨token, hhead, hstart, -⟩ := hfirst.append (furtherTokens es)
        have hhead' : (ts ++ ⟨.symbol closing, line⟩ :: more).head?.map Lexeme.token =
            some token := by
          rw [List.head?_append, Option.map_or, ← List.head?_map, hts]
          exact congrArg (Option.or · _) hhead
        intro lexeme hlexeme heq
        rw [hlexeme, Option.map_some, heq] at hhead'
        rw [← Option.some.inj hhead', hclosing.starts] at hstart
        cases hstart
      have hlen : es.length ≤ ts.length := by
        have hfurther := length_le_furtherTokens es
        have htotal := congrArg List.length hts
        simp only [listTokens, List.length_map, List.length_append] at htotal
        omega
      obtain ⟨es', hitems, heqs⟩ := itemsUntil_reads hread hclosing line more es
        ((ts ++ ⟨.symbol closing, line⟩ :: more).length + 1) hes.1 hes.2 hts hlt
        (by rw [List.length_append]; omega)
      exact ⟨es', (Action.bind_of_ok (takeSymbol_of_notNext hnext)).trans hitems, heqs⟩

/-! ## Primary expressions -/

theorem length_unlinedAll : ∀ es : List Expr, (unlinedAll es).length = es.length
  | [] => rfl
  | _ :: rest => congrArg (· + 1) (length_unlinedAll rest)

theorem elementTypeFollows_of_notNext (es : List Expr) (h : NotNext .colon more) :
    elementTypeFollows es more = false := by
  unfold elementTypeFollows
  split
  · exact absurd rfl (h _ rfl)
  · rfl

/-- Whether an element type follows does not depend on lines. -/
theorem elementTypeFollows_of_unlined {es es' : List Expr} (h : unlinedAll es' = unlinedAll es) :
    elementTypeFollows es' more = elementTypeFollows es more := by
  have hlength := congrArg List.length h
  rw [length_unlinedAll, length_unlinedAll] at hlength
  have hempty : es'.isEmpty = es.isEmpty := by
    cases es <;> cases es' <;> first | rfl | cases hlength
  unfold elementTypeFollows
  split
  · rw [hempty]
  · rfl

theorem primary_parens (hread : ReadsBelow n expression) (he : e.WellFormed)
    (hts : Spells ts (parens false e.tokens)) (hle : ts.length ≤ n) :
    Reads (primary expression) ts more e := by
  obtain ⟨line₁, ts₁, rfl, h₁⟩ := Spells.cons_iff.mp hts
  obtain ⟨ts₂, ts₃, rfl, h₂, h₃⟩ := Spells.append_iff.mp h₁
  obtain ⟨line₂, rfl⟩ := Spells.singleton_iff.mp h₃
  simp only [List.length_cons, List.length_append] at hle
  have hclose : NotNext .colon (⟨.symbol .rightParen, line₂⟩ :: more) := by
    intro lexeme hlexeme
    obtain rfl := Option.some.inj hlexeme
    nofun
  have hloose : Loose 0 (⟨.symbol .rightParen, line₂⟩ :: more) := .of_none rfl
  have hplaced := Placed.bare h₂ (Nat.zero_le _) fun _ => ⟨hloose.mono (Nat.zero_le 9), hclose⟩
  obtain ⟨e', hinner, heq⟩ := hread he hplaced (by omega) hloose
  refine ⟨e', ?_, heq⟩
  change parenthesized expression (ts₂ ++ [⟨.symbol .rightParen, line₂⟩] ++ more) = _
  rw [List.append_assoc]
  exact (Action.bind_of_ok hinner).trans (Action.bind_of_ok (expectSymbol_cons .rightParen _))

/-- After the elements of an array literal the next two tokens decide on its element type. -/
theorem arrayLiteral_of_elements (hread : ReadsBelow n expression) {es : List Expr}
    (hes : WellFormedAll es) (hts : Spells ts (listTokens es ++ [.symbol .rightBracket]))
    (hle : ts.length ≤ n) (line : Nat) (more : List Lexeme) :
    ∃ es', unlinedAll es' = unlinedAll es ∧ arrayLiteral expression line (ts ++ more) =
      (if elementTypeFollows es more = true then do
        skip
        return .array es' (some (← type)) line
      else return .array es' none line : Parser Expr) more := by
  obtain ⟨ts₁, ts₂, rfl, h₁, h₂⟩ := Spells.append_iff.mp hts
  obtain ⟨line₂, rfl⟩ := Spells.singleton_iff.mp h₂
  rw [List.length_append, List.length_singleton] at hle
  obtain ⟨es', hlist, heqs⟩ := commaSeparated_reads hread closes_rightBracket line₂ more hes h₁ hle
  refine ⟨es', heqs, ?_⟩
  rw [List.append_assoc]
  refine (Action.bind_of_ok hlist).trans ?_
  change (if elementTypeFollows es' more = true then _ else _ : Parser Expr) more = _
  rw [elementTypeFollows_of_unlined heqs]

/-- The elements of an array literal, and its element type if it has one. -/
theorem arrayLiteral_reads (hread : ReadsBelow n expression) {es : List Expr} {ty : Option Ty}
    {line₀ : Nat} (he : (Expr.array es ty line₀).WellFormed)
    (hts : Spells (⟨.symbol .leftBracket, line⟩ :: ts) (Expr.array es ty line₀).tokens)
    (hlt : ts.length < n) (hloose : Loose 9 more) (hcolon : elementTypeFollows es more = false) :
    Reads (arrayLiteral expression line) ts more (.array es ty line₀) := by
  cases ty with
  | none =>
      obtain ⟨_, _, heq, h₁⟩ := Spells.cons_iff.mp hts
      obtain ⟨-, rfl⟩ := List.cons.inj heq
      obtain ⟨es', heqs, hrun⟩ := arrayLiteral_of_elements hread he h₁ (by omega) line more
      refine ⟨.array es' none line, ?_, by rw [Expr.unlined, Expr.unlined, heqs]⟩
      rw [hrun, hcolon]
      rfl
  | some ty =>
      obtain ⟨hes, hty, hstart⟩ := he
      obtain ⟨_, _, heq, h₁⟩ := Spells.cons_iff.mp hts
      obtain ⟨-, rfl⟩ := List.cons.inj heq
      rw [← List.singleton_append, ← List.append_assoc] at h₁
      obtain ⟨ts₂, ts₃, rfl, h₂, h₃⟩ := Spells.append_iff.mp h₁
      obtain ⟨line₃, ts₅, rfl, h₅⟩ := Spells.cons_iff.mp h₃
      rw [List.length_append] at hlt
      obtain ⟨es', heqs, hrun⟩ := arrayLiteral_of_elements hread hes h₂ (by omega) line
        (⟨.symbol .colon, line₃⟩ :: ts₅ ++ more)
      have hfollows : elementTypeFollows es (⟨.symbol .colon, line₃⟩ :: ts₅ ++ more) = true := by
        obtain ⟨word, rest, htokens, hhead⟩ := ty.tokens_eq_cons
        obtain ⟨line₄, ts₆, rfl, -⟩ := Spells.cons_iff.mp (htokens ▸ h₅)
        change (es.isEmpty || Ty.isPrimitiveName word) = true
        rcases hstart with rfl | ⟨first, hfirst, hprimitive⟩
        · rfl
        · obtain rfl : word = first := Option.some.inj (hhead.symm.trans hfirst)
          rw [hprimitive, Bool.or_true]
      have htype : type (ts₅ ++ more) = .ok ty more :=
        type_eq hty h₅ (hloose.notNext rfl (Nat.le_refl 9)) (hloose.notNext rfl (Nat.le_refl 9))
      refine ⟨.array es' (some ty) line, ?_, by rw [Expr.unlined, Expr.unlined, heqs]⟩
      rw [List.append_assoc, hrun, hfollows]
      exact Action.bind_of_ok htype

theorem arguments_reads (hread : ReadsBelow n expression) {es : List Expr}
    (hes : WellFormedAll es) (hts : Spells ts (listTokens es ++ [.symbol .rightParen]))
    (hle : ts.length ≤ n) :
    ∃ es', arguments expression (ts ++ more) = .ok es' more ∧ unlinedAll es' = unlinedAll es := by
  obtain ⟨ts₁, ts₂, rfl, h₁, h₂⟩ := Spells.append_iff.mp hts
  obtain ⟨line, rfl⟩ := Spells.singleton_iff.mp h₂
  rw [List.length_append, List.length_singleton] at hle
  rw [List.append_assoc]
  exact commaSeparated_reads hread closes_rightParen line more hes h₁ hle

/-- A primary expression without parentheses around it. -/
theorem primary_bare (hread : ReadsBelow n expression) (he : e.WellFormed) (hlevel : 10 ≤ e.level)
    (hts : Spells ts e.tokens) (hle : ts.length ≤ n) (hmore : Loose 10 more)
    (harray : e.isArray = true → Loose 9 more ∧ NotNext .colon more) :
    Reads (primary expression) ts more e := by
  have hparen : NotNext .leftParen more := hmore.notNext rfl (Nat.le_refl 10)
  cases e with
  | literal value line =>
      obtain ⟨line₁, rfl⟩ := Spells.singleton_iff.mp hts
      refine ⟨.literal value line₁, ?_, rfl⟩
      cases value <;> rfl
  | var name line =>
      obtain ⟨line₁, rfl⟩ := Spells.singleton_iff.mp hts
      exact ⟨.var name line₁, Action.bind_of_ok (takeSymbol_of_notNext hparen), rfl⟩
  | self line =>
      obtain ⟨line₁, rfl⟩ := Spells.singleton_iff.mp hts
      exact ⟨.self line₁, rfl, rfl⟩
  | call name es line =>
      obtain ⟨line₁, ts₁, rfl, h₁⟩ := Spells.cons_iff.mp hts
      obtain ⟨line₂, ts₂, rfl, h₂⟩ := Spells.cons_iff.mp h₁
      simp only [List.length_cons] at hle
      obtain ⟨es', hlist, heqs⟩ := arguments_reads hread he h₂ (by omega)
      refine ⟨.call name es' line₁, ?_, by rw [Expr.unlined, Expr.unlined, heqs]⟩
      change named expression name line₁ (⟨.symbol .leftParen, line₂⟩ :: ts₂ ++ more) = _
      exact (Action.bind_of_ok (takeSymbol_cons .leftParen)).trans (Action.bind_of_ok hlist)
  | new className es line =>
      obtain ⟨line₁, ts₁, rfl, h₁⟩ := Spells.cons_iff.mp hts
      obtain ⟨line₂, ts₂, rfl, h₂⟩ := Spells.cons_iff.mp h₁
      obtain ⟨line₃, ts₃, rfl, h₃⟩ := Spells.cons_iff.mp h₂
      simp only [List.length_cons] at hle
      obtain ⟨es', hlist, heqs⟩ := arguments_reads hread he h₃ (by omega)
      refine ⟨.new className es' line₁, ?_, by rw [Expr.unlined, Expr.unlined, heqs]⟩
      change (arguments expression >>= fun es => pure (Expr.new className es line₁))
        (ts₃ ++ more) = _
      exact Action.bind_of_ok hlist
  | array es ty line =>
      obtain ⟨line₁, ts₁, rfl⟩ : ∃ line₁ ts₁, ts = ⟨.symbol .leftBracket, line₁⟩ :: ts₁ := by
        cases ty <;> obtain ⟨line₁, ts₁, rfl, -⟩ := Spells.cons_iff.mp hts <;> exact ⟨_, _, rfl⟩
      exact arrayLiteral_reads hread he hts hle (harray rfl).1
        (elementTypeFollows_of_notNext es (harray rfl).2)
  | binary _ op _ _ => exact absurd (Nat.le_trans hlevel op.level_le) (by decide)
  | _ => exact absurd hlevel (by simp only [Expr.level]; decide)

/-- Primary expressions are read, and in parentheses all others too. -/
theorem primary_reads (hread : ReadsBelow n expression) : ReadsAt n 10 (primary expression) := by
  intro e ts more he h hle hmore
  cases h with
  | enclosed hts => exact primary_parens hread he hts hle
  | bare hts hlevel harray => exact primary_bare hread he hlevel hts hle hmore harray

end Grammar

end ClassScript
