import ClassScript.Grammar.Statement
import ClassScript.Proofs.Precedence.RoundTrip
import ClassScript.Proofs.Printing.Printer

/-!
# What parsers take

A parser takes a list of tokens if it reads lexemes with these tokens, whatever their lines are, and
leaves what comes after them. What comes after begins with a token that the parser does not want,
which is a condition on this one token. A sequence of parsers takes the tokens of its parts one
after the other; each part sees the first token of the next as what comes after it.
-/

namespace ClassScript

namespace Grammar

variable {α β : Type}

/-! ## The judgement -/

/-- What the next token may be, if there is one. -/
abbrev Follow : Type := Option Token → Bool

/-- Anything may come next. -/
def anything : Follow := fun _ => true

def nextToken (ts : List Lexeme) : Option Token := ts.head?.map Lexeme.token

/-- The parser reads the tokens, on whatever lines, if what comes after them is as `next` says. What
it gives satisfies `P`. -/
def Takes (p : Parser α) (tokens : List Token) (next : Follow) (P : α → Prop) : Prop :=
  ∀ ⦃ts more⦄, Spells ts tokens → next (nextToken more) = true →
    ∃ a, p (ts ++ more) = .ok a more ∧ P a

theorem nextToken_append {ts more : List Lexeme} {tokens : List Token} (hts : Spells ts tokens) :
    nextToken (ts ++ more) = tokens.head?.or (nextToken more) := by
  rw [nextToken, List.head?_append, Option.map_or, ← List.head?_map, hts, nextToken]

namespace Takes

variable {x : Parser α} {f : α → Parser β} {tokens left right : List Token} {next first : Follow}
  {P : α → Prop} {Q : β → Prop} {mark : Symbol} {word : Keyword} {what : String}

theorem pure {a : α} (h : P a) : Takes (Pure.pure a) [] next P := by
  intro ts more hts _
  obtain rfl := Spells.nil_iff.mp hts
  exact ⟨a, rfl, h⟩

theorem mono {P' : α → Prop} (h : Takes x tokens next P) (himp : ∀ a, P a → P' a) :
    Takes x tokens next P' := by
  intro ts more hts hmore
  obtain ⟨a, hread, ha⟩ := h hts hmore
  exact ⟨a, hread, himp a ha⟩

theorem weaken (h : Takes x tokens first P) (hnext : ∀ t, next t = true → first t = true) :
    Takes x tokens next P :=
  fun _ _ hts hmore => h hts (hnext _ hmore)

/-- The first part sees the first token of the second one. -/
theorem bind (hx : Takes x left first P)
    (hnext : ∀ t, next t = true → first (right.head?.or t) = true)
    (hf : ∀ a, P a → Takes (f a) right next Q) : Takes (x >>= f) (left ++ right) next Q := by
  intro ts more hts hmore
  obtain ⟨ts₁, ts₂, rfl, h₁, h₂⟩ := Spells.append_iff.mp hts
  have hfirst : first (nextToken (ts₂ ++ more)) = true := by
    rw [nextToken_append h₂]
    exact hnext _ hmore
  obtain ⟨a, ha, hPa⟩ := hx h₁ hfirst
  obtain ⟨b, hb, hQb⟩ := hf a hPa h₂ hmore
  refine ⟨b, ?_, hQb⟩
  rw [List.append_assoc]
  exact (Action.bind_of_ok ha).trans hb

/-- The second part takes no tokens. -/
theorem last (hx : Takes x tokens next P) (hf : ∀ a, P a → Takes (f a) [] next Q) :
    Takes (x >>= f) tokens next Q := by
  have h : Takes (x >>= f) (tokens ++ []) next Q := hx.bind (fun _ ht => ht) hf
  rwa [List.append_nil] at h

theorem map {g : α → β} (hx : Takes x tokens next P) (hg : ∀ a, P a → Q (g a)) :
    Takes (x >>= fun a => Pure.pure (g a)) tokens next Q :=
  hx.last fun a ha => .pure (hg a ha)

/-! ### Single tokens -/

/-- A step of the parser that reads one token. -/
theorem cons {token : Token} (hstep : ∀ line ts, ∃ a, x (⟨token, line⟩ :: ts) = .ok a ts ∧ P a)
    (hf : ∀ a, P a → Takes (f a) tokens next Q) : Takes (x >>= f) (token :: tokens) next Q := by
  intro ts more hts hmore
  obtain ⟨line, ts₁, rfl, h₁⟩ := Spells.cons_iff.mp hts
  obtain ⟨a, ha, hPa⟩ := hstep line (ts₁ ++ more)
  obtain ⟨b, hb, hQb⟩ := hf a hPa h₁ hmore
  exact ⟨b, (Action.bind_of_ok ha).trans hb, hQb⟩

theorem expectSymbol {f : Nat → Parser β} (hf : ∀ line, Takes (f line) tokens next Q) :
    Takes (Grammar.expectSymbol mark what >>= f) (.symbol mark :: tokens) next Q :=
  cons (P := fun _ => True) (fun line _ => ⟨line, expectSymbol_cons mark what, trivial⟩)
    fun line _ => hf line

theorem expectKeyword {f : Nat → Parser β} (hf : ∀ line, Takes (f line) tokens next Q) :
    Takes (Grammar.expectKeyword word what >>= f) (.keyword word :: tokens) next Q := by
  refine cons (P := fun _ => True) (fun line ts => ⟨line, ?_, trivial⟩) fun line _ => hf line
  have hif : (if Token.isKeyword word (.keyword word) then (Pure.pure line : Parser Nat)
      else mismatch what (some ⟨.keyword word, line⟩)) = Pure.pure line :=
    if_pos (beq_self_eq_true word)
  exact congrFun hif ts

theorem identifier {name : String} {f : String → Parser β}
    (hf : Takes (f name) tokens next Q) :
    Takes (Grammar.identifier what >>= f) (.name name :: tokens) next Q := by
  refine cons (P := fun read => read = name) (fun _ _ => ⟨name, rfl, rfl⟩) ?_
  rintro _ rfl
  exact hf

theorem next? {token : Token} {f : Option Lexeme → Parser β}
    (hf : ∀ line, Takes (f (some ⟨token, line⟩)) tokens next Q) :
    Takes (Grammar.next? >>= f) (token :: tokens) next Q := by
  refine cons (P := fun found => ∃ line, found = some ⟨token, line⟩)
    (fun line _ => ⟨_, rfl, line, rfl⟩) ?_
  rintro _ ⟨line, rfl⟩
  exact hf line

theorem skip {token : Token} {f : Unit → Parser β} (hf : Takes (f ()) tokens next Q) :
    Takes (Grammar.skip >>= f) (token :: tokens) next Q :=
  cons (P := fun _ => True) (fun _ _ => ⟨(), rfl, trivial⟩) fun _ _ => hf

theorem takenSymbol {f : Bool → Parser β} (hf : Takes (f true) tokens next Q) :
    Takes (takeSymbol mark >>= f) (.symbol mark :: tokens) next Q := by
  refine cons (P := fun taken => taken = true) (fun _ _ => ⟨true, takeSymbol_cons mark, rfl⟩) ?_
  rintro _ rfl
  exact hf

theorem takenKeyword {f : Bool → Parser β} (hf : Takes (f true) tokens next Q) :
    Takes (takeKeyword word >>= f) (.keyword word :: tokens) next Q := by
  refine cons (P := fun taken => taken = true) (fun line ts => ⟨true, ?_, rfl⟩) ?_
  · have hat : at? (Token.isKeyword word) (⟨.keyword word, line⟩ :: ts) =
        .ok true (⟨.keyword word, line⟩ :: ts) :=
      congrArg (Outcome.ok · (Lexeme.mk (.keyword word) line :: ts)) (beq_self_eq_true word)
    exact Action.bind_of_ok hat
  · rintro _ rfl
    exact hf

/-! ### Looking ahead -/

/-- A step that takes nothing may look at the next token. -/
theorem look (hstep : ∀ ts, ∃ a, x ts = .ok a ts ∧ P a)
    (hf : ∀ a, P a → Takes (f a) tokens next Q) : Takes (x >>= f) tokens next Q := by
  intro ts more hts hmore
  obtain ⟨a, ha, hPa⟩ := hstep (ts ++ more)
  obtain ⟨b, hb, hQb⟩ := hf a hPa hts hmore
  exact ⟨b, (Action.bind_of_ok ha).trans hb, hQb⟩

theorem peekLine {f : Nat → Parser β} (hf : ∀ line, Takes (f line) tokens next Q) :
    Takes (Grammar.peekLine >>= f) tokens next Q :=
  look (P := fun _ => True) (fun _ => ⟨_, rfl, trivial⟩) fun line _ => hf line

theorem peek? {f : Option Lexeme → Parser β}
    (hf : ∀ t found, next t = true → found.map Lexeme.token = tokens.head?.or t →
      Takes (f found) tokens next Q) :
    Takes (Grammar.peek? >>= f) tokens next Q := by
  intro ts more hts hmore
  have hfound : (ts ++ more).head?.map Lexeme.token = tokens.head?.or (nextToken more) :=
    nextToken_append hts
  obtain ⟨b, hb, hQb⟩ := hf _ _ hmore hfound hts hmore
  exact ⟨b, (Action.bind_of_ok rfl).trans hb, hQb⟩

theorem peekHead {token : Token} {f : Option Lexeme → Parser β} (hhead : token ∈ tokens.head?)
    (hf : ∀ line, Takes (f (some ⟨token, line⟩)) tokens next Q) :
    Takes (Grammar.peek? >>= f) tokens next Q := by
  refine peek? fun t found _ hfound => ?_
  rw [hhead] at hfound
  obtain ⟨⟨_, line⟩, rfl, rfl⟩ := Option.map_eq_some_iff.mp hfound
  exact hf line

theorem peekCons {token : Token} {f : Option Lexeme → Parser β}
    (hf : ∀ line, Takes (f (some ⟨token, line⟩)) (token :: tokens) next Q) :
    Takes (Grammar.peek? >>= f) (token :: tokens) next Q :=
  peekHead rfl hf

/-- The fuel that is read is more than there are tokens. -/
theorem fuel {f : Nat → Parser β} (hf : ∀ n, tokens.length < n → Takes (f n) tokens next Q) :
    Takes (Action.read (·.length + 1) >>= f) tokens next Q := by
  intro ts more hts hmore
  have hlength : tokens.length < (ts ++ more).length + 1 := by
    rw [← hts, List.length_map, List.length_append]
    omega
  obtain ⟨b, hb, hQb⟩ := hf _ hlength hts hmore
  exact ⟨b, (Action.bind_of_ok rfl).trans hb, hQb⟩

theorem at?_eq {p : Token → Bool} {ts more : List Lexeme} (hts : Spells ts tokens) :
    Grammar.at? p (ts ++ more) = .ok ((tokens.head?.or (nextToken more)).any p) (ts ++ more) := by
  refine congrArg (Outcome.ok · (ts ++ more)) ?_
  rw [← nextToken_append hts, nextToken]
  cases (ts ++ more).head? <;> rfl

theorem at? {p : Token → Bool} {f : Bool → Parser β}
    (hf : ∀ t, next t = true → Takes (f ((tokens.head?.or t).any p)) tokens next Q) :
    Takes (Grammar.at? p >>= f) tokens next Q := by
  intro ts more hts hmore
  obtain ⟨b, hb, hQb⟩ := hf _ hmore hts hmore
  exact ⟨b, (Action.bind_of_ok (at?_eq hts)).trans hb, hQb⟩

/-- The next token is not the one asked for. -/
theorem notIf {p : Token → Bool} {f : Bool → Parser β}
    (hnext : ∀ t, next t = true → (tokens.head?.or t).any p = false)
    (hf : Takes (f false) tokens next Q) : Takes (takeIf p >>= f) tokens next Q := by
  intro ts more hts hmore
  have hat : Grammar.at? p (ts ++ more) = .ok false (ts ++ more) := by
    rw [at?_eq hts, hnext _ hmore]
  have htake : takeIf p (ts ++ more) = .ok false (ts ++ more) := Action.bind_of_ok hat
  obtain ⟨b, hb, hQb⟩ := hf hts hmore
  exact ⟨b, (Action.bind_of_ok htake).trans hb, hQb⟩

/-! ### Lists with commas -/

variable {γ : Type} {item : Parser α} {erase : α → γ} {print : α → List Token}

theorem length_le_commaTokens (items : List (List Token)) :
    items.length ≤ (commaTokens items).length + 1 := by
  cases items with
  | nil => exact Nat.zero_le _
  | cons first rest =>
      have hrest : rest.length ≤ (rest.flatMap (Token.symbol .comma :: ·)).length := by
        induction rest with
        | nil => exact Nat.le_refl 0
        | cons second rest ih =>
            rw [List.flatMap_cons, List.length_append, List.length_cons, List.length_cons]
            omega
      rw [commaTokens, List.length_append, List.length_cons]
      omega

theorem itemsUntil (hclosing : mark ≠ .comma)
    (hcomma : first (some (.symbol .comma)) = true) (hmark : first (some (.symbol mark)) = true)
    (xs : List α) {y : α} {fuel : Nat} (hfuel : xs.length < fuel)
    (hy : Takes item (print y) first fun a => erase a = erase y)
    (hxs : ∀ x ∈ xs, Takes item (print x) first fun a => erase a = erase x) :
    Takes (Grammar.itemsUntil item mark fuel)
      (print y ++ ((xs.map print).flatMap (Token.symbol .comma :: ·) ++ [.symbol mark])) anything
      fun as => as.map erase = (y :: xs).map erase := by
  induction xs generalizing y fuel with
  | nil =>
      obtain ⟨fuel, rfl⟩ : ∃ n, fuel = n + 1 := ⟨fuel - 1, by simp at hfuel; omega⟩
      refine hy.bind (fun _ _ => hmark) fun a ha => .next? fun line => ?_
      change Takes (if mark = .comma then _ else if mark = mark then _ else _) _ _ _
      rw [if_neg hclosing, if_pos rfl]
      exact .pure (congrArg (fun c => [c]) ha)
  | cons x xs ih =>
      obtain ⟨fuel, rfl⟩ : ∃ n, fuel = n + 1 := ⟨fuel - 1, by simp at hfuel; omega⟩
      refine hy.bind (fun _ _ => hcomma) fun a ha => ?_
      rw [List.map_cons, List.flatMap_cons, List.append_assoc]
      have hrest := ih (Nat.lt_of_succ_lt_succ hfuel) (hxs x List.mem_cons_self)
        fun x' hx' => hxs x' (List.mem_cons_of_mem _ hx')
      refine .next? fun line => hrest.map fun as has => ?_
      rw [List.map_cons, ha, has]
      rfl

/-- A list with commas is read up to its closing symbol, with which none of its items begins. -/
theorem commaSeparated (closing : Symbol) (hclosing : closing ≠ .comma)
    (hcomma : first (some (.symbol .comma)) = true)
    (hmark : first (some (.symbol closing)) = true)
    {xs : List α} (hxs : ∀ x ∈ xs, Takes item (print x) first fun a => erase a = erase x)
    (hbegin : ∀ x ∈ xs, ∃ token ∈ (print x).head?, token.isSymbol closing = false) :
    Takes (Grammar.commaSeparated item closing)
      (commaTokens (xs.map print) ++ [.symbol closing]) anything
      fun as => as.map erase = xs.map erase := by
  cases xs with
  | nil => exact .takenSymbol (.pure rfl)
  | cons x xs =>
      have hle := length_le_commaTokens ((x :: xs).map print)
      rw [List.length_map, List.length_cons] at hle
      rw [List.map_cons, commaTokens, List.append_assoc]
      refine .notIf (fun t _ => ?_) ?_
      · obtain ⟨token, hhead, htoken⟩ := hbegin x List.mem_cons_self
        rw [List.head?_append, hhead]
        exact htoken
      · refine .fuel fun n hn => itemsUntil hclosing hcomma hmark xs ?_ (hxs x List.mem_cons_self)
          fun x' hx' => hxs x' (List.mem_cons_of_mem _ hx')
        rw [List.map_cons, commaTokens] at hle
        rw [← List.append_assoc, List.length_append, List.length_singleton] at hn
        omega

end Takes

end Grammar

end ClassScript
