import ClassScript.Proofs.Precedence.Reading

/-!
# Expressions read back

From primary expressions up through suffixes, leading operators and the seven levels of binary
operators to assignments, each rule reads the expressions that fit its place. The nesting is
resolved by induction on the number of tokens: what stands in parentheses, brackets or argument
lists is shorter than the whole.
-/

namespace ClassScript

namespace Grammar

variable {expression : Parser Expr} {n : Nat} {e : Expr} {ts more : List Lexeme} {line : Nat}

/-! ## Loops that extend an expression to the right -/

/-- The rule `first`, then the loop: after the lexemes `ts` the loop has arrived at the expression,
up to its lines, with `more` still to come. It has spent less fuel than there are lexemes. -/
def ReadsInto (first : Parser Expr) (loop : Nat → Expr → Parser Expr) (fuel : Nat)
    (ts more : List Lexeme) (e : Expr) : Prop :=
  ∃ e' left, (first >>= loop fuel) (ts ++ more) = loop left e' more ∧ e'.unlined = e.unlined ∧
    fuel < left + ts.length

namespace ReadsInto

variable {first : Parser Expr} {loop : Nat → Expr → Parser Expr} {fuel : Nat}

theorem start (h : Reads first ts more e) (hts : 0 < ts.length) :
    ReadsInto first loop fuel ts more e := by
  obtain ⟨e', hread, heq⟩ := h
  exact ⟨e', fuel, Action.bind_of_ok hread, heq, by omega⟩

/-- One more round of the loop takes the lexemes `ts₂`. -/
theorem extend {ts₂ : List Lexeme} {whole : Expr} (h : ReadsInto first loop fuel ts (ts₂ ++ more) e)
    (hfuel : (ts ++ ts₂).length ≤ fuel) (hts₂ : 0 < ts₂.length)
    (hround : ∀ left e', e'.unlined = e.unlined → ∃ whole',
      loop (left + 1) e' (ts₂ ++ more) = loop left whole' more ∧ whole'.unlined = whole.unlined) :
    ReadsInto first loop fuel (ts ++ ts₂) more whole := by
  obtain ⟨e', left, hrun, heq, hleft⟩ := h
  rw [List.length_append] at hfuel
  obtain ⟨left, rfl⟩ : ∃ left', left = left' + 1 := ⟨left - 1, by omega⟩
  obtain ⟨whole', hstep, hwhole⟩ := hround left e' heq
  refine ⟨whole', left, ?_, hwhole, ?_⟩
  · rw [List.append_assoc, hrun, hstep]
  · rw [List.length_append]
    omega

theorem reads (h : ReadsInto first loop fuel ts more e) (hfuel : ts.length ≤ fuel)
    (hdone : ∀ left e', loop (left + 1) e' more = .ok e' more) :
    Reads (first >>= loop fuel) ts more e := by
  obtain ⟨e', left, hrun, heq, hleft⟩ := h
  obtain ⟨left, rfl⟩ : ∃ left', left = left' + 1 := ⟨left - 1, by omega⟩
  exact ⟨e', hrun.trans (hdone left e'), heq⟩

end ReadsInto

/-! ## Suffixes -/

theorem suffixes_of_loose {fuel : Nat} (hmore : Loose 9 more) :
    suffixes expression (fuel + 1) e more = .ok e more := by
  have hnone : suffix? expression e more = .ok none more := by
    cases more with
    | nil => rfl
    | cons lexeme rest =>
        obtain ⟨token, line⟩ := lexeme
        have hmark {mark : Symbol} (hcontinues : (Token.symbol mark).continues = some 9) :
            token ≠ .symbol mark := by
          rintro rfl
          exact hmore.notNext hcontinues (Nat.le_refl 9) _ rfl rfl
        refine (Action.bind_of_ok (peek?_cons _ _)).trans ?_
        refine congrFun (g := (pure none : Parser (Option Expr))) ?_ _
        split
        · exact absurd (by cases ‹some _ = some _›; rfl) (hmark rfl)
        · exact absurd (by cases ‹some _ = some _›; rfl) (hmark rfl)
        · exact absurd (by cases ‹some _ = some _›; rfl) (hmark rfl)
        · exact absurd (by cases ‹some _ = some _›; rfl) (hmark rfl)
        · rfl
  exact Action.bind_of_ok hnone

/-- One suffix: the loop goes on with the extended expression. -/
theorem suffixes_of_some {fuel : Nat} {e' : Expr}
    (h : suffix? expression e ts = .ok (some e') more) :
    suffixes expression (fuel + 1) e ts = suffixes expression fuel e' more :=
  Action.bind_of_ok h

theorem suffix?_member {name : String} {line₂ : Nat} (hmore : NotNext .leftParen more) :
    suffix? expression e (⟨.symbol .dot, line⟩ :: ⟨.name name, line₂⟩ :: more) =
      .ok (some (.member e name line)) more := by
  have hmember : memberOf expression e line (⟨.name name, line₂⟩ :: more) =
      .ok (.member e name line) more := by
    change (takeSymbol .leftParen >>= fun taken => if taken = true then
      arguments expression >>= fun es => pure (Expr.methodCall e name es line)
      else pure (Expr.member e name line)) more = _
    exact Action.bind_of_ok (takeSymbol_of_notNext hmore)
  exact Action.bind_of_ok hmember

theorem suffix?_methodCall {name : String} {line₂ line₃ : Nat} {es : List Expr}
    (hlist : arguments expression ts = .ok es more) :
    suffix? expression e
        (⟨.symbol .dot, line⟩ :: ⟨.name name, line₂⟩ :: ⟨.symbol .leftParen, line₃⟩ :: ts) =
      .ok (some (.methodCall e name es line)) more := by
  have hcall : memberOf expression e line
      (⟨.name name, line₂⟩ :: ⟨.symbol .leftParen, line₃⟩ :: ts) =
      .ok (.methodCall e name es line) more := by
    change (takeSymbol .leftParen >>= fun taken => if taken = true then
      arguments expression >>= fun es => pure (Expr.methodCall e name es line)
      else pure (Expr.member e name line)) (⟨.symbol .leftParen, line₃⟩ :: ts) = _
    exact (Action.bind_of_ok (takeSymbol_cons .leftParen)).trans (Action.bind_of_ok hlist)
  exact Action.bind_of_ok hcall

theorem suffix?_index {position : Expr} {line₂ : Nat}
    (hposition : expression ts = .ok position (⟨.symbol .rightBracket, line₂⟩ :: more)) :
    suffix? expression e (⟨.symbol .leftBracket, line⟩ :: ts) =
      .ok (some (.index e position line)) more := by
  have hindex : elementOf expression e line ts = .ok (.index e position line) more :=
    (Action.bind_of_ok hposition).trans (Action.bind_of_ok (expectSymbol_cons .rightBracket _))
  exact Action.bind_of_ok hindex

/-- The loop over suffixes passes through the object of a member, a call or an element. -/
theorem suffixes_into (hread : ReadsBelow n expression) : ∀ (e : Expr) {ts more : List Lexeme},
    e.WellFormed → Placed 9 e ts more → ts.length ≤ n → Loose 10 more →
    ReadsInto (primary expression) (suffixes expression) n ts more e
  | e, ts, more, he, hplace, hle, hmore => by
      by_cases hlevel : e.level = 9
      case neg =>
        exact .start (primary_reads hread he (hplace.tighten hlevel) hle hmore) hplace.length_pos
      have hpos := hplace.length_pos
      cases hplace with
      | enclosed hts => exact .start (primary_reads hread he (.enclosed hts) hle hmore) hpos
      | bare hts _ _ =>
          have hparen : NotNext .leftParen more := hmore.notNext rfl (Nat.le_refl 10)
          cases e with
          | member object name line =>
              obtain ⟨ts₁, ts₂, rfl, h₁, h₂⟩ := Spells.append_iff.mp hts
              obtain ⟨line₁, ts₃, rfl, h₃⟩ := Spells.cons_iff.mp h₂
              obtain ⟨line₂, rfl⟩ := Spells.singleton_iff.mp h₃
              have hle₁ := hle
              rw [List.length_append] at hle₁
              have hnext : Loose 10 (⟨.symbol .dot, line₁⟩ :: [⟨.name name, line₂⟩] ++ more) :=
                .of_continues rfl (Nat.lt_succ_self 9)
              have hobject := suffixes_into hread object he (.of_tokensAt h₁) (by omega) hnext
              refine hobject.extend hle (Nat.succ_pos _) fun left e' heq => ?_
              refine ⟨_, suffixes_of_some (suffix?_member hparen), ?_⟩
              rw [Expr.unlined, heq, Expr.unlined]
          | methodCall object method es line =>
              obtain ⟨ts₁, ts₂, rfl, h₁, h₂⟩ := Spells.append_iff.mp hts
              obtain ⟨line₁, ts₃, rfl, h₃⟩ := Spells.cons_iff.mp h₂
              obtain ⟨line₂, ts₄, rfl, h₄⟩ := Spells.cons_iff.mp h₃
              obtain ⟨line₃, ts₅, rfl, h₅⟩ := Spells.cons_iff.mp h₄
              have hle₁ := hle
              simp only [List.length_append, List.length_cons] at hle₁
              have hnext : Loose 10 (⟨.symbol .dot, line₁⟩ :: ⟨.name method, line₂⟩ ::
                  ⟨.symbol .leftParen, line₃⟩ :: ts₅ ++ more) :=
                .of_continues rfl (Nat.lt_succ_self 9)
              have hobject := suffixes_into hread object he.1 (.of_tokensAt h₁) (by omega) hnext
              obtain ⟨es', hlist, heqs⟩ := arguments_reads hread he.2 h₅ (by omega)
              refine hobject.extend hle (Nat.succ_pos _) fun left e' heq => ?_
              refine ⟨_, suffixes_of_some (suffix?_methodCall hlist), ?_⟩
              rw [Expr.unlined, heq, heqs, Expr.unlined]
          | index base position line =>
              obtain ⟨ts₁, ts₂, rfl, h₁, h₂⟩ := Spells.append_iff.mp hts
              obtain ⟨line₁, ts₃, rfl, h₃⟩ := Spells.cons_iff.mp h₂
              obtain ⟨ts₄, ts₅, rfl, h₄, h₅⟩ := Spells.append_iff.mp h₃
              obtain ⟨line₂, rfl⟩ := Spells.singleton_iff.mp h₅
              have hle₁ := hle
              simp only [List.length_append, List.length_cons] at hle₁
              have hnext : Loose 10 (⟨.symbol .leftBracket, line₁⟩ ::
                  (ts₄ ++ [⟨.symbol .rightBracket, line₂⟩]) ++ more) :=
                .of_continues rfl (Nat.lt_succ_self 9)
              have hbase := suffixes_into hread base he.1 (.of_tokensAt h₁) (by omega) hnext
              have hloose : Loose 0 (⟨.symbol .rightBracket, line₂⟩ :: more) := .of_none rfl
              obtain ⟨position', hposition, heq₂⟩ :=
                hread he.2 (.of_tokensAt h₄) (by omega) hloose
              have hinner := (congrArg expression (List.append_assoc ts₄
                [⟨.symbol .rightBracket, line₂⟩] more)).trans hposition
              refine hbase.extend hle (Nat.succ_pos _) fun left e' heq => ?_
              refine ⟨.index e' position' line₁, suffixes_of_some (suffix?_index hinner), ?_⟩
              rw [Expr.unlined, heq, heq₂, Expr.unlined]
          | binary _ op _ _ =>
              exact absurd (Nat.le_trans (Nat.le_of_eq hlevel.symm) op.level_le) (by decide)
          | _ => cases hlevel

theorem suffixed_reads (hread : ReadsBelow n expression) :
    ReadsAt n 9 (primary expression >>= suffixes expression n) := by
  intro e ts more he hplace hle hmore
  have hinto := suffixes_into hread e he hplace hle (hmore.mono (by decide))
  exact hinto.reads hle fun left e' => suffixes_of_loose hmore

/-! ## Leading operators -/

theorem leadingOps_of_begins {ts : List Lexeme} (h : Begins true (ts.map Lexeme.token))
    (more : List Lexeme) : leadingOps (ts ++ more) = ([], ts ++ more) := by
  obtain ⟨token, hhead, -, hplain⟩ := h
  cases ts with
  | nil => cases hhead
  | cons lexeme rest =>
      obtain rfl := Option.some.inj hhead
      rw [List.cons_append, leadingOps, hplain rfl]

theorem unary_of_begins {fuel : Nat} (h : Begins true (ts.map Lexeme.token))
    (hread : Reads (primary expression >>= suffixes expression fuel) ts more e) :
    Reads (unary expression fuel) ts more e := by
  obtain ⟨e', hrun, heq⟩ := hread
  obtain ⟨first, ts', hfirst, hrest⟩ := Action.ok_of_bind hrun
  have hops : (Action.modifyGet leadingOps : Parser _) (ts ++ more) = .ok [] (ts ++ more) := by
    rw [Action.modifyGet, leadingOps_of_begins h]
  refine ⟨e', (Action.bind_of_ok hops).trans ?_, heq⟩
  exact (Action.bind_of_ok hfirst).trans (Action.bind_of_ok hrest)

/-- A leading operator applies to what is read after it. -/
theorem unary_leading (fuel : Nat) {token : Token} {op : LeadingOp}
    (htoken : LeadingOp.ofToken? token = some op) (line : Nat) (ts : List Lexeme) :
    unary expression fuel (⟨token, line⟩ :: ts) =
      (unary expression fuel >>= fun e => op.applyTo e line) ts := by
  obtain ⟨ops, ts₁, hops⟩ : ∃ ops ts₁, leadingOps ts = (ops, ts₁) := ⟨_, _, rfl⟩
  have hrest : (Action.modifyGet leadingOps : Parser _) ts = .ok ops ts₁ := by
    rw [Action.modifyGet, hops]
  have hall : (Action.modifyGet leadingOps : Parser _) (⟨token, line⟩ :: ts) =
      .ok ((op, line) :: ops) ts₁ := by
    rw [Action.modifyGet, leadingOps, htoken]
    simp only [hops]
  rw [unary, Action.bind_assoc]
  refine (Action.bind_of_ok hall).trans (Eq.trans ?_ (Action.bind_of_ok hrest).symm)
  simp only [applyLeading, Action.bind_assoc]

theorem unary_operator {fuel : Nat} (op : UnaryOp) (h : unary expression fuel ts = .ok e more) :
    unary expression fuel (⟨.symbol op.symbol, line⟩ :: ts) = .ok (.unary op e line) more := by
  have hop : LeadingOp.ofToken? (.symbol op.symbol) = some (.unary op) := by cases op <;> rfl
  exact (unary_leading fuel hop line ts).trans (Action.bind_of_ok h)

theorem unary_reads (hread : ReadsBelow n expression) : ∀ (e : Expr) {ts more : List Lexeme},
    e.WellFormed → Placed 8 e ts more → ts.length ≤ n → Loose 8 more →
    Reads (unary expression n) ts more e
  | e, ts, more, he, hplace, hle, hmore => by
      have hsuffixed (h : Placed 9 e ts more) : Reads (unary expression n) ts more e :=
        unary_of_begins h.begins (suffixed_reads hread he h hle (hmore.mono (by decide)))
      by_cases hlevel : e.level = 8
      case neg => exact hsuffixed (hplace.tighten hlevel)
      cases hplace with
      | enclosed hts => exact hsuffixed (.enclosed hts)
      | bare hts _ _ =>
          cases e with
          | unary op operand line =>
              obtain ⟨line₁, ts₁, rfl, h₁⟩ := Spells.cons_iff.mp hts
              have hle₁ : ts₁.length ≤ n := Nat.le_of_succ_le hle
              obtain ⟨e', hoperand, heq⟩ :=
                unary_reads hread operand he (.of_tokensAt h₁) hle₁ hmore
              refine ⟨.unary op e' line₁, unary_operator op hoperand, ?_⟩
              rw [Expr.unlined, heq, Expr.unlined]
          | binary _ op _ _ =>
              exact absurd (Nat.le_trans (Nat.le_of_eq hlevel.symm) op.level_le) (by decide)
          | _ => cases hlevel

/-! ## Levels of binary operators -/

/-- The operators of a level are those with its number, and the type test belongs to the fourth. -/
structure Level.Numbered (level : Level) (k : Nat) : Prop where
  ops : ∀ op : BinaryOp, level.ops.contains op = decide (op.level = k)
  typeTest : level.hasTypeTest = decide (k = 4)

theorem levels_drop {j : Nat} (hj : j < 7) :
    ∃ level, levels.drop j = level :: levels.drop (j + 1) ∧ level.Numbered (j + 1) := by
  match j with
  | 0 | 1 | 2 | 3 | 4 | 5 | 6 =>
    exact ⟨_, rfl, fun op => by cases op <;> rfl, rfl⟩

namespace Level.Numbered

variable {level : Level} {k : Nat} (h : level.Numbered k)

include h

theorem continuation?_operator {op : BinaryOp} (hop : op.level = k) :
    level.continuation? (.symbol op.symbol) = some (.operator op) := by
  have hkeyword : (Token.symbol op.symbol).isKeyword .kwIs = false := rfl
  have hbinary : (Token.symbol op.symbol).binaryOp? = some op := by cases op <;> rfl
  rw [Level.continuation?, hkeyword, Bool.and_false, if_neg Bool.false_ne_true, hbinary]
  change (if level.ops.contains op = true then _ else _) = _
  rw [h.ops, if_pos (decide_eq_true hop)]

theorem continuation?_typeTest (hk : k = 4) :
    level.continuation? (.keyword .kwIs) = some .typeTest := by
  have hkeyword : (Token.keyword .kwIs).isKeyword .kwIs = true := rfl
  rw [Level.continuation?, hkeyword, h.typeTest, decide_eq_true hk, Bool.and_self, if_pos rfl]

/-- What continues an expression of the level is a token with its number. -/
theorem continues_of_continuation? {token : Token} {c : Continuation}
    (hc : level.continuation? token = some c) : token.continues = some k := by
  rw [Level.continuation?] at hc
  split at hc
  case isTrue hif =>
    rw [Bool.and_eq_true, h.typeTest, decide_eq_true_eq] at hif
    obtain ⟨rfl, hkeyword⟩ := hif
    cases token with
    | keyword word =>
        obtain rfl := eq_of_beq hkeyword
        rfl
    | _ => cases hkeyword
  case isFalse =>
    split at hc
    case h_1 op hop =>
      split at hc
      case isTrue hmem =>
        rw [h.ops, decide_eq_true_eq] at hmem
        rw [Token.continues.eq_def, hop]
        exact congrArg some hmem
      case isFalse => cases hc
    case h_2 => cases hc

variable {operand : Parser Expr}

theorem rest_of_loose {fuel : Nat} (hmore : Loose k more) :
    level.rest operand (fuel + 1) e more = .ok e more := by
  have hnone : level.extend? operand e more = .ok none more := by
    cases more with
    | nil => rfl
    | cons lexeme rest =>
        obtain ⟨token, line⟩ := lexeme
        have hc : level.continuation? token = none := by
          cases hc : level.continuation? token with
          | none => rfl
          | some c =>
              exact absurd (hmore _ rfl k (h.continues_of_continuation? hc)) (Nat.lt_irrefl k)
        refine (Action.bind_of_ok (peek?_cons _ _)).trans ?_
        simp only [hc]
        rfl
  exact Action.bind_of_ok hnone

theorem rest_operator {op : BinaryOp} (hop : op.level = k) (operand : Parser Expr) (fuel : Nat)
    (e : Expr) (line : Nat) (ts : List Lexeme) :
    level.rest operand (fuel + 1) e (⟨.symbol op.symbol, line⟩ :: ts) =
      (operand >>= fun right => level.rest operand fuel (.binary e op right line)) ts := by
  have hextend : level.extend? operand e (⟨.symbol op.symbol, line⟩ :: ts) =
      (operand >>= fun right => pure (some (.binary e op right line)) :
        Parser (Option Expr)) ts := by
    refine (Action.bind_of_ok (peek?_cons _ _)).trans ?_
    simp only [h.continuation?_operator hop]
    rfl
  refine (Action.bind_of_eq hextend _).trans ?_
  rw [Action.bind_assoc]
  rfl

theorem rest_typeTest {fuel : Nat} (hk : k = 4) {ty : Ty} (hty : type ts = .ok ty more) :
    level.rest operand (fuel + 1) e (⟨.keyword .kwIs, line⟩ :: ts) =
      level.rest operand fuel (.typeTest e ty line) more := by
  have hextend : level.extend? operand e (⟨.keyword .kwIs, line⟩ :: ts) =
      .ok (some (.typeTest e ty line)) more := by
    refine (Action.bind_of_ok (peek?_cons _ _)).trans ?_
    simp only [h.continuation?_typeTest hk]
    exact Action.bind_of_ok hty
  exact Action.bind_of_ok hextend

end Level.Numbered

/-- An operator of the level and its right operand, after a left operand that the loop has
passed. -/
theorem operator_into {level : Level} {k : Nat} (h : level.Numbered k) {operand : Parser Expr}
    {left right : Expr} {op : BinaryOp} (hop : op.level = k) {ts₁ ts₂ : List Lexeme}
    {line₀ : Nat}
    (hleft : ReadsInto operand (level.rest operand) n ts₁
      (⟨.symbol op.symbol, line⟩ :: ts₂ ++ more) left)
    (hright : Reads operand ts₂ more right)
    (hle : (ts₁ ++ ⟨.symbol op.symbol, line⟩ :: ts₂).length ≤ n) :
    ReadsInto operand (level.rest operand) n (ts₁ ++ ⟨.symbol op.symbol, line⟩ :: ts₂) more
      (.binary left op right line₀) := by
  obtain ⟨right', hrun, heq₂⟩ := hright
  refine hleft.extend hle (Nat.succ_pos _) fun rounds e' heq => ?_
  refine ⟨_, (h.rest_operator hop operand rounds e' line _).trans (Action.bind_of_ok hrun), ?_⟩
  rw [Expr.unlined, heq, heq₂, Expr.unlined]

/-- The loop over the operators of a level passes through their left operands. -/
theorem level_into {level : Level} {k : Nat} (h : level.Numbered k) (hk : 1 ≤ k ∧ k ≤ 7)
    {operand : Parser Expr} (hoperand : ReadsAt n (k + 1) operand) :
    ∀ (e : Expr) {ts more : List Lexeme}, e.WellFormed → Placed k e ts more → ts.length ≤ n →
      Loose (k + 1) more → ReadsInto operand (level.rest operand) n ts more e
  | e, ts, more, he, hplace, hle, hmore => by
      by_cases hlevel : e.level = k
      case neg => exact .start (hoperand he (hplace.tighten hlevel) hle hmore) hplace.length_pos
      have hpos := hplace.length_pos
      cases hplace with
      | enclosed hts => exact .start (hoperand he (.enclosed hts) hle hmore) hpos
      | bare hts _ _ =>
          cases e with
          | binary left op right line =>
              obtain rfl : op.level = k := hlevel
              obtain ⟨ts₁, ts₂, rfl, h₁, h₂⟩ := Spells.append_iff.mp hts
              obtain ⟨line₁, ts₃, rfl, h₃⟩ := Spells.cons_iff.mp h₂
              have hle₁ := hle
              simp only [List.length_append, List.length_cons] at hle₁
              have hnext : Loose (op.level + 1) (⟨.symbol op.symbol, line₁⟩ :: ts₃ ++ more) :=
                .of_continues (h.continues_of_continuation? (h.continuation?_operator rfl))
                  (Nat.lt_succ_self _)
              have hleft := level_into h hk hoperand left he.1 (.of_tokensAt h₁) (by omega) hnext
              have hright := hoperand he.2 (.of_tokensAt h₃) (by omega) hmore
              exact operator_into h rfl hleft hright hle
          | typeTest operand ty line =>
              obtain rfl : 4 = k := hlevel
              obtain ⟨ts₁, ts₂, rfl, h₁, h₂⟩ := Spells.append_iff.mp hts
              obtain ⟨line₁, ts₃, rfl, h₃⟩ := Spells.cons_iff.mp h₂
              have hle₁ := hle
              rw [List.length_append] at hle₁
              have hnext : Loose 5 (⟨.keyword .kwIs, line₁⟩ :: ts₃ ++ more) :=
                .of_continues rfl (Nat.lt_succ_self 4)
              have hleft := level_into h hk hoperand operand he.1 (.of_tokensAt h₁) (by omega) hnext
              have hty : type (ts₃ ++ more) = .ok ty more :=
                type_eq he.2 h₃ (hmore.notNext rfl (by decide)) (hmore.notNext rfl (by decide))
              refine hleft.extend hle (Nat.succ_pos _) fun rounds e' heq => ?_
              refine ⟨_, h.rest_typeTest rfl hty, ?_⟩
              rw [Expr.unlined, heq, Expr.unlined]
          | _ =>
              simp only [Expr.level] at hlevel
              omega

/-- Every level of binary operators reads the expressions that fit its place: the tightest one over
leading operators, each looser one over the next tighter. -/
theorem binary_reads (hread : ReadsBelow n expression) (above j : Nat) (hj : above + j = 7) :
    ReadsAt n (j + 1) (binary (unary expression n) n (levels.drop j)) := by
  induction above generalizing j with
  | zero =>
      obtain rfl : j = 7 := by omega
      intro e ts more he hplace hle hmore
      exact unary_reads hread e he hplace hle hmore
  | succ above ih =>
      obtain ⟨level, hlevels, hlevel⟩ := levels_drop (show j < 7 by omega)
      intro e ts more he hplace hle hmore
      rw [hlevels]
      have hinto := level_into hlevel (by omega) (ih (j + 1) (by omega)) e he hplace hle
        (hmore.mono (Nat.le_succ _))
      exact hinto.reads hle fun left e' => hlevel.rest_of_loose hmore

/-! ## Conditionals and assignments -/

theorem conditional_of_notNext {fuel : Nat}
    (h : Reads (binary (unary expression fuel) fuel levels) ts more e)
    (hmore : NotNext .question more) : Reads (conditional expression fuel) ts more e := by
  obtain ⟨e', hcondition, heq⟩ := h
  refine ⟨e', (Action.bind_of_ok hcondition).trans ?_, heq⟩
  have hpeek : peek? more = .ok more.head? more := rfl
  refine (Action.bind_of_ok hpeek).trans ?_
  refine congrFun (g := (pure e' : Parser Expr)) ?_ more
  split
  · exact absurd rfl (hmore _ ‹_›)
  · rfl

theorem assignment_of_loose {fuel : Nat} (h : Reads (conditional expression fuel) ts more e)
    (hmore : Loose 0 more) : Reads (assignment expression fuel) ts more e := by
  obtain ⟨e', hleft, heq⟩ := h
  refine ⟨e', (Action.bind_of_ok hleft).trans ?_, heq⟩
  cases more with
  | nil => rfl
  | cons lexeme rest =>
      obtain ⟨token, line⟩ := lexeme
      have hnone : AssignOp.ofToken? token = none := by
        have hloose (j : Nat) : token.continues ≠ some j := fun hj =>
          absurd (hmore _ rfl j hj) (Nat.not_lt_zero j)
        unfold AssignOp.ofToken?
        split
        case h_7 => rfl
        all_goals exact absurd rfl (hloose 0)
      refine (Action.bind_of_ok (peek?_cons _ _)).trans ?_
      simp only [hnone]
      rfl

/-- After the condition a conditional reads its branches. -/
theorem conditional_of_condition {fuel : Nat} {condition : Expr}
    (hcondition : Reads (binary (unary expression fuel) fuel levels) ts
      (⟨.symbol .question, line⟩ :: more) condition) :
    ∃ condition', condition'.unlined = condition.unlined ∧
      conditional expression fuel (ts ++ ⟨.symbol .question, line⟩ :: more) =
        (do
          let onTrue ← expression
          let _ ← expectSymbol .colon "':' in conditional expression"
          return .conditional condition' onTrue (← expression) line : Parser Expr) more := by
  obtain ⟨condition', hcondition, heq⟩ := hcondition
  exact ⟨condition', heq, Action.bind_of_ok hcondition⟩

/-- After the condition and the first branch a conditional reads its second branch. -/
theorem conditional_of_branch {fuel : Nat} {condition onTrue : Expr} {ts₁ ts₂ : List Lexeme}
    {line₁ line₂ : Nat}
    (hcondition : Reads (binary (unary expression fuel) fuel levels) ts₁
      (⟨.symbol .question, line₁⟩ :: (ts₂ ++ ⟨.symbol .colon, line₂⟩ :: more)) condition)
    (htrue : Reads expression ts₂ (⟨.symbol .colon, line₂⟩ :: more) onTrue) :
    ∃ condition' onTrue', condition'.unlined = condition.unlined ∧
      onTrue'.unlined = onTrue.unlined ∧
      conditional expression fuel
          (ts₁ ++ ⟨.symbol .question, line₁⟩ :: (ts₂ ++ ⟨.symbol .colon, line₂⟩ :: more)) =
        (do return .conditional condition' onTrue' (← expression) line₁ : Parser Expr) more := by
  obtain ⟨condition', heq₁, hcondition⟩ := conditional_of_condition hcondition
  obtain ⟨onTrue', htrue, heq₂⟩ := htrue
  refine ⟨condition', onTrue', heq₁, heq₂, hcondition.trans ?_⟩
  exact (Action.bind_of_ok htrue).trans (Action.bind_of_ok (expectSymbol_cons .colon _))

/-- A conditional is read from its three parts. -/
theorem conditional_of_parts {fuel : Nat} {condition onTrue onFalse : Expr}
    {ts₁ ts₂ ts₃ : List Lexeme} {line₁ line₂ line₀ : Nat}
    (hcondition : Reads (binary (unary expression fuel) fuel levels) ts₁
      (⟨.symbol .question, line₁⟩ :: (ts₂ ++ ⟨.symbol .colon, line₂⟩ :: (ts₃ ++ more))) condition)
    (htrue : Reads expression ts₂ (⟨.symbol .colon, line₂⟩ :: (ts₃ ++ more)) onTrue)
    (hfalse : Reads expression ts₃ more onFalse) :
    Reads (conditional expression fuel)
      (ts₁ ++ ⟨.symbol .question, line₁⟩ :: (ts₂ ++ ⟨.symbol .colon, line₂⟩ :: ts₃)) more
      (.conditional condition onTrue onFalse line₀) := by
  obtain ⟨condition', onTrue', heq₁, heq₂, hrun⟩ := conditional_of_branch hcondition htrue
  obtain ⟨onFalse', hfalse, heq₃⟩ := hfalse
  refine ⟨.conditional condition' onTrue' onFalse' line₁, ?_, ?_⟩
  · simp only [List.append_assoc, List.cons_append]
    exact hrun.trans (Action.bind_of_ok hfalse)
  · rw [Expr.unlined, heq₁, heq₂, heq₃, Expr.unlined]

theorem conditional_reads (hread : ReadsBelow n expression) {condition onTrue onFalse : Expr}
    (he : (Expr.conditional condition onTrue onFalse line).WellFormed)
    (hts : Spells ts (Expr.conditional condition onTrue onFalse line).tokens)
    (hle : ts.length ≤ n) (hmore : Loose 0 more) :
    Reads (conditional expression n) ts more (.conditional condition onTrue onFalse line) := by
  obtain ⟨ts₁, ts₂, rfl, h₁, h₂⟩ := Spells.append_iff.mp hts
  obtain ⟨line₁, ts₃, rfl, h₃⟩ := Spells.cons_iff.mp h₂
  obtain ⟨ts₄, ts₅, rfl, h₄, h₅⟩ := Spells.append_iff.mp h₃
  obtain ⟨line₂, ts₆, rfl, h₆⟩ := Spells.cons_iff.mp h₅
  simp only [List.length_append, List.length_cons] at hle
  have hquestion : Loose 1 (⟨.symbol .question, line₁⟩ ::
      (ts₄ ++ ⟨.symbol .colon, line₂⟩ :: (ts₆ ++ more))) := .of_continues rfl Nat.one_pos
  have hcolon : Loose 0 (⟨.symbol .colon, line₂⟩ :: (ts₆ ++ more)) := .of_none rfl
  exact conditional_of_parts
    (binary_reads hread 7 0 rfl he.1 (.of_tokensAt h₁) (by omega) hquestion)
    (hread he.2.1 (.of_tokensAt h₄) (by omega) hcolon)
    (hread he.2.2 (.of_tokensAt h₆) (by omega) hmore)

theorem target?_of_unlined {target : Target} (h : e.unlined = (target.toExpr line).unlined) :
    ∃ target', e.target? = some target' ∧ target'.unlined = target.unlined := by
  cases target with
  | var name =>
      cases e with
      | var name' line' =>
          cases h
          exact ⟨_, rfl, rfl⟩
      | _ => cases h
  | index base position =>
      cases e with
      | index base' position' line' =>
          obtain ⟨hbase, hposition, -⟩ := Expr.index.inj h
          exact ⟨_, rfl, by rw [Target.unlined, hbase, hposition, Target.unlined]⟩
      | _ => cases h
  | member object name =>
      cases e with
      | member object' name' line' =>
          obtain ⟨hobject, rfl, -⟩ := Expr.member.inj h
          exact ⟨_, rfl, by rw [Target.unlined, hobject, Target.unlined]⟩
      | _ => cases h

theorem target_placed {k : Nat} (hk : k ≤ 9) {target : Target} (hts : Spells ts target.tokens) :
    Placed k (target.toExpr line) ts more := by
  have harray : (target.toExpr line).isArray = false := by cases target <;> rfl
  have hlevel : 9 ≤ (target.toExpr line).level := by
    cases target <;> simp only [Target.toExpr, Expr.level] <;> decide
  have hspells : Spells ts (target.toExpr line).tokens := by cases target <;> exact hts
  exact .bare hspells (Nat.le_trans hk hlevel) fun h =>
    absurd (harray.symm.trans h) Bool.false_ne_true

theorem updated_unlined {target target' : Target} {op : BinaryOp} {operand operand' : Expr}
    {line' : Nat} (htarget : target'.unlined = target.unlined)
    (hoperand : operand'.unlined = operand.unlined) :
    (updated target' op operand' line').unlined = (updated target op operand line).unlined := by
  have htoExpr (target : Target) (line : Nat) :
      (target.toExpr line).unlined = target.unlined.toExpr 0 := by
    cases target <;> rfl
  simp only [updated, Expr.unlined, htoExpr, htarget, hoperand]

theorem AssignOp.continues_of_ofToken? {token : Token} {op : AssignOp}
    (h : AssignOp.ofToken? token = some op) : token.continues = some 0 := by
  unfold AssignOp.ofToken? at h
  split at h
  case h_7 => cases h
  all_goals rfl

theorem AssignOp.notNext_question {mark : Symbol} {op : AssignOp}
    (h : AssignOp.ofToken? (.symbol mark) = some op) :
    NotNext .question (⟨.symbol mark, line⟩ :: more) := by
  intro lexeme hlexeme heq
  obtain rfl := Option.some.inj hlexeme
  obtain rfl := Token.symbol.inj heq
  cases h

/-- After a target and an assignment operator the right side is read. -/
theorem assignment_of_target (hread : ReadsBelow n expression) {mark : Symbol} (op : AssignOp)
    (hmark : AssignOp.ofToken? (.symbol mark) = some op) {target : Target}
    (htarget : target.WellFormed) (hts : Spells ts target.tokens) (hle : ts.length ≤ n)
    (line : Nat) (more : List Lexeme) :
    ∃ target', target'.unlined = target.unlined ∧
      assignment expression n (ts ++ ⟨.symbol mark, line⟩ :: more) =
        (expression >>= fun value => pure (op.build target' value line) : Parser Expr) more := by
  have hassign : Loose 1 (⟨.symbol mark, line⟩ :: more) :=
    .of_continues (AssignOp.continues_of_ofToken? hmark) Nat.one_pos
  have htargetExpr : (target.toExpr 0).WellFormed := Target.wellFormed_toExpr htarget
  obtain ⟨left, hleft, heq⟩ := conditional_of_notNext
    (binary_reads hread 7 0 rfl htargetExpr (target_placed (by decide) hts) hle hassign)
    (AssignOp.notNext_question hmark)
  obtain ⟨target', htarget', heq'⟩ := target?_of_unlined heq
  have hof : targetOf left line = pure target' := by rw [targetOf, htarget']
  refine ⟨target', heq', (Action.bind_of_ok hleft).trans ?_⟩
  refine (Action.bind_of_ok (peek?_cons _ _)).trans ?_
  simp only [hmark, hof]
  rfl

/-- A target, an assignment operator and the right side are read as the assignment. -/
theorem assignment_of_parts (hread : ReadsBelow n expression) {mark : Symbol} (op : AssignOp)
    (hmark : AssignOp.ofToken? (.symbol mark) = some op) {target : Target} {value : Expr}
    {ts₁ ts₂ : List Lexeme} {line₀ : Nat} (htarget : target.WellFormed)
    (hts₁ : Spells ts₁ target.tokens) (hle : ts₁.length ≤ n)
    (hvalue : Reads expression ts₂ more value) :
    Reads (assignment expression n) (ts₁ ++ ⟨.symbol mark, line⟩ :: ts₂) more
      (op.build target value line₀) := by
  obtain ⟨target', heq, hrun⟩ :=
    assignment_of_target hread op hmark htarget hts₁ hle line (ts₂ ++ more)
  obtain ⟨value', hvalue, heq'⟩ := hvalue
  refine ⟨op.build target' value' line, ?_, ?_⟩
  · rw [List.append_assoc]
    exact hrun.trans (Action.bind_of_ok hvalue)
  · cases op with
    | replace => rw [AssignOp.build, AssignOp.build, Expr.unlined, heq, heq', Expr.unlined]
    | combine op => exact updated_unlined heq heq'

theorem assign_reads (hread : ReadsBelow n expression) {target : Target} {value : Expr}
    (he : (Expr.assign target value line).WellFormed)
    (hts : Spells ts (Expr.assign target value line).tokens) (hle : ts.length ≤ n)
    (hmore : Loose 0 more) :
    Reads (assignment expression n) ts more (.assign target value line) := by
  obtain ⟨ts₁, ts₂, rfl, h₁, h₂⟩ := Spells.append_iff.mp hts
  obtain ⟨line₁, ts₃, rfl, h₃⟩ := Spells.cons_iff.mp h₂
  simp only [List.length_append, List.length_cons] at hle
  exact assignment_of_parts hread .replace rfl he.1 h₁ (by omega)
    (hread he.2 (.of_tokensAt h₃) (by omega) hmore)

theorem assignment_reads (hread : ReadsBelow n expression) :
    ReadsAt n 0 (assignment expression n) := by
  intro e ts more he hplace hle hmore
  have hbinary (h : Placed 1 e ts more) : Reads (assignment expression n) ts more e := by
    have hcondition := binary_reads hread 7 0 rfl he h hle (hmore.mono (Nat.zero_le 1))
    exact assignment_of_loose
      (conditional_of_notNext hcondition (hmore.notNext rfl (Nat.le_refl 0))) hmore
  by_cases hlevel : e.level = 0
  case neg => exact hbinary (hplace.tighten hlevel)
  cases hplace with
  | enclosed hts => exact hbinary (.enclosed hts)
  | bare hts _ _ =>
      cases e with
      | conditional condition onTrue onFalse line =>
          exact assignment_of_loose (conditional_reads hread he hts hle hmore) hmore
      | assign target value line => exact assign_reads hread he hts hle hmore
      | binary _ op _ _ => cases op <;> cases hlevel
      | _ => cases hlevel

/-! ## Whole expressions -/

theorem expressionAt_reads (n : Nat) : ReadsBelow n (expressionAt n) := by
  induction n with
  | zero =>
      intro e ts more _ _ hlt _
      exact absurd hlt (Nat.not_lt_zero _)
  | succ n ih =>
      intro e ts more he hplace hlt hmore
      exact assignment_reads ih he hplace (Nat.le_of_lt_succ hlt) hmore

end Grammar

/-- Precedence and associativity: a well-formed expression, written with no more parentheses than
the levels of its parts demand and followed by a semicolon, is read back, up to its lines, and the
semicolon is the next token. -/
theorem Grammar.expression_of_rendered (e : Expr) (ts rest : List Lexeme) (line : Nat)
    (he : e.WellFormed) (hts : Spells ts e.tokens) :
    ∃ e', expression (ts ++ ⟨.symbol .semicolon, line⟩ :: rest) =
        .ok e' (⟨.symbol .semicolon, line⟩ :: rest) ∧ e'.unlined = e.unlined := by
  have hloose : Loose 0 (⟨.symbol .semicolon, line⟩ :: rest) := .cons nofun
  have hcolon : NotNext .colon (⟨.symbol .semicolon, line⟩ :: rest) := by
    intro lexeme hlexeme
    obtain rfl := Option.some.inj hlexeme
    nofun
  have hplace : Placed 0 e ts (⟨.symbol .semicolon, line⟩ :: rest) :=
    .bare hts (Nat.zero_le _) fun _ => ⟨hloose.mono (Nat.zero_le 9), hcolon⟩
  have hlt : ts.length < (ts ++ ⟨.symbol .semicolon, line⟩ :: rest).length + 1 := by
    rw [List.length_append]
    omega
  exact expressionAt_reads _ he hplace hlt hloose

/-- `a = x - (y - ([1]: int)) is int[] ? b : -c.d`: the subtraction on the right needs parentheses,
and the array literal because it is a part. -/
theorem Grammar.expression_of_rendered_nested :
    ∃ e', expression
        ([⟨.name "a", 1⟩, ⟨.symbol .assign, 1⟩, ⟨.name "x", 1⟩, ⟨.symbol .minus, 1⟩,
          ⟨.symbol .leftParen, 1⟩, ⟨.name "y", 1⟩, ⟨.symbol .minus, 1⟩, ⟨.symbol .leftParen, 1⟩,
          ⟨.symbol .leftBracket, 1⟩, ⟨.int 1, 1⟩, ⟨.symbol .rightBracket, 1⟩, ⟨.symbol .colon, 1⟩,
          ⟨.name "int", 1⟩, ⟨.symbol .rightParen, 1⟩, ⟨.symbol .rightParen, 1⟩,
          ⟨.keyword .kwIs, 1⟩, ⟨.name "int", 1⟩, ⟨.symbol .leftBracket, 1⟩,
          ⟨.symbol .rightBracket, 1⟩, ⟨.symbol .question, 1⟩, ⟨.name "b", 2⟩, ⟨.symbol .colon, 2⟩,
          ⟨.symbol .minus, 2⟩, ⟨.name "c", 2⟩, ⟨.symbol .dot, 2⟩, ⟨.name "d", 2⟩] ++
          [⟨.symbol .semicolon, 2⟩]) = .ok e' [⟨.symbol .semicolon, 2⟩] ∧
      e'.unlined = .assign (.var "a")
        (.conditional
          (.typeTest
            (.binary (.var "x" 0) .subtract
              (.binary (.var "y" 0) .subtract (.array [.literal (.int 1) 0] (some .int) 0) 0) 0)
            (.array .int) 0)
          (.var "b" 0) (.unary .negate (.member (.var "c" 0) "d" 0) 0) 0) 0 :=
  expression_of_rendered
    (.assign (.var "a")
      (.conditional
        (.typeTest
          (.binary (.var "x" 0) .subtract
            (.binary (.var "y" 0) .subtract (.array [.literal (.int 1) 0] (some .int) 0) 0) 0)
          (.array .int) 0)
        (.var "b" 0) (.unary .negate (.member (.var "c" 0) "d" 0) 0) 0) 0)
    _ [] 2
    ⟨trivial, ⟨⟨trivial, trivial, ⟨trivial, trivial⟩, ⟨[⟨.name "int", 1⟩], [], rfl⟩,
      .inr ⟨"int", rfl, rfl⟩⟩, ⟨[⟨.name "int", 1⟩, ⟨.symbol .leftBracket, 1⟩,
        ⟨.symbol .rightBracket, 1⟩], [], rfl⟩⟩, trivial, trivial⟩
    rfl

end ClassScript
