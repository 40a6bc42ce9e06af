import ClassScript.Grammar.Types
import ClassScript.Proofs.Action

/-!
# Progress of parsers

The loops and the nesting of the grammar are counted by fuel, and so no parser could run forever
even if it never took a token. That the fuel decides nothing is shown here and in the next modules:
on fewer than `n` tokens, a parser does the same with any two amounts of fuel from `n` on, and it
does not run out. The reason is that every turn of a loop takes at least one token, and that no
parser puts one back. Two parsers are compared at a time, so agreement and progress go through the
grammar together.
-/

namespace ClassScript

/-- What a parser may leave of these tokens: a suffix, also if it fails, and a shorter one if it
gives a value for which `taken` holds. -/
def Outcome.Onward {α : Type} (taken : α → Bool) (ts : List Lexeme) :
    Outcome (List Lexeme) SyntaxError α → Prop
  | .ok a rest => rest <:+ ts ∧ (taken a = true → rest.length < ts.length)
  | .error _ rest => rest <:+ ts
  | .exhausted => False

namespace Outcome.Onward

variable {α : Type} {taken taken' : α → Bool} {ts ts' : List Lexeme}
  {outcome : Outcome (List Lexeme) SyntaxError α}

/-- Without a token taken, all are left. -/
theorem untouched {a : α} (ha : taken a = false) :
    (Outcome.ok a ts : Outcome (List Lexeme) SyntaxError α).Onward taken ts :=
  ⟨List.suffix_refl ts, fun htaken => absurd htaken (Bool.eq_false_iff.mp ha)⟩

theorem mono (h : outcome.Onward taken ts) (himp : ∀ a, taken' a = true → taken a = true) :
    outcome.Onward taken' ts := by
  cases outcome with
  | ok a rest => exact ⟨h.1, fun ha => h.2 (himp a ha)⟩
  | error e rest => exact h
  | exhausted => exact h

theorem of_suffix (h : outcome.Onward taken ts') (hsuffix : ts' <:+ ts) :
    outcome.Onward taken ts := by
  cases outcome with
  | ok a rest =>
      exact ⟨h.1.trans hsuffix, fun ha => Nat.lt_of_lt_of_le (h.2 ha) hsuffix.length_le⟩
  | error e rest => exact List.IsSuffix.trans h hsuffix
  | exhausted => exact h

/-- A token is gone already. -/
theorem of_shorter (h : outcome.Onward taken' ts') (hsuffix : ts' <:+ ts)
    (hshorter : ts'.length < ts.length) : outcome.Onward taken ts := by
  cases outcome with
  | ok a rest =>
      exact ⟨h.1.trans hsuffix, fun _ => Nat.lt_of_le_of_lt h.1.length_le hshorter⟩
  | error e rest => exact List.IsSuffix.trans h hsuffix
  | exhausted => exact h

end Outcome.Onward

namespace Grammar

variable {α β : Type}

/-! ## The judgement -/

/-- On these tokens the two parsers do the same, and go onward. -/
def ProceedsOn (ts : List Lexeme) (taken : α → Bool) (p q : Parser α) : Prop :=
  p ts = q ts ∧ (p ts).Onward taken ts

/-- On fewer than `n` tokens the two parsers do the same, and go onward. -/
def Proceeds (n : Nat) (taken : α → Bool) (p q : Parser α) : Prop :=
  ∀ ts : List Lexeme, ts.length < n → ProceedsOn ts taken p q

/-- So they do if there is a next token. -/
def ProceedsNext (n : Nat) (taken : α → Bool) (p q : Parser α) : Prop :=
  ∀ lexeme (ts : List Lexeme), (lexeme :: ts).length < n → ProceedsOn (lexeme :: ts) taken p q

/-- The parser takes at least one token whenever it gives a value. -/
abbrev always : α → Bool := fun _ => true

/-- The parser may give a value without taking a token. -/
abbrev perhaps : α → Bool := fun _ => false

namespace Proceeds

variable {n m : Nat} {taken taken' : α → Bool} {wanted : β → Bool} {p q x y : Parser α}
  {f g : α → Parser β}

theorem zero : Proceeds 0 taken p q := fun _ h => absurd h (Nat.not_lt_zero _)

theorem anti (h : Proceeds n taken p q) (hle : m ≤ n) : Proceeds m taken p q :=
  fun ts hts => h ts (Nat.lt_of_lt_of_le hts hle)

theorem mono (h : Proceeds n taken p q) (himp : ∀ a, taken' a = true → taken a = true) :
    Proceeds n taken' p q := by
  intro ts hts
  obtain ⟨heq, honward⟩ := h ts hts
  exact ⟨heq, honward.mono himp⟩

theorem to_perhaps (h : Proceeds n taken p q) : Proceeds n perhaps p q := h.mono nofun

theorem of_onward (h : ∀ ts, (p ts).Onward taken ts) : Proceeds n taken p p :=
  fun ts _ => ⟨rfl, h ts⟩

theorem onward (h : ∀ n, Proceeds n taken p p) (ts : List Lexeme) : (p ts).Onward taken ts :=
  (h (ts.length + 1) ts (Nat.lt_succ_self _)).2

theorem pure (a : α) : Proceeds n perhaps (Pure.pure a : Parser α) (Pure.pure a) :=
  fun _ _ => ⟨rfl, .untouched rfl⟩

theorem pure_none :
    Proceeds n Option.isSome (Pure.pure none : Parser (Option α)) (Pure.pure none) :=
  fun _ _ => ⟨rfl, .untouched rfl⟩

theorem fail (e : SyntaxError) : Proceeds n taken (Action.fail e : Parser α) (Action.fail e) :=
  fun ts _ => ⟨rfl, List.suffix_refl ts⟩

end Proceeds

/-- After a first part that took a token, fewer are left for the second. -/
theorem ProceedsOn.bind {ts : List Lexeme} {taken : α → Bool} {wanted : β → Bool}
    {x y : Parser α} {f g : α → Parser β} (hx : ProceedsOn ts taken x y)
    (hf : ∀ a, Proceeds (if taken a then ts.length else ts.length + 1)
      (fun b => !taken a && wanted b) (f a) (g a)) :
    ProceedsOn ts wanted (x >>= f) (y >>= g) := by
  obtain ⟨heq, honward⟩ := hx
  cases hxs : x ts with
  | ok a rest =>
      rw [hxs] at honward heq
      obtain ⟨hsuffix, hshorter⟩ := honward
      have hlength : rest.length < if taken a then ts.length else ts.length + 1 := by
        split
        next ha => exact hshorter ha
        next => exact Nat.lt_succ_of_le hsuffix.length_le
      obtain ⟨heq', honward'⟩ := hf a rest hlength
      rw [ProceedsOn, Action.bind_of_ok hxs, Action.bind_of_ok heq.symm]
      refine ⟨heq', ?_⟩
      cases ha : taken a with
      | true => exact honward'.of_shorter hsuffix (hshorter ha)
      | false => exact (honward'.of_suffix hsuffix).mono fun b hb => by rw [ha, hb]; rfl
  | error e rest =>
      rw [hxs] at honward heq
      rw [ProceedsOn, Action.bind_of_error hxs, Action.bind_of_error heq.symm]
      exact ⟨rfl, honward⟩
  | exhausted =>
      rw [hxs] at honward
      exact honward.elim

namespace Proceeds

variable {n : Nat} {taken : α → Bool} {wanted : β → Bool} {x y : Parser α} {f g : α → Parser β}

/-! ## Sequences -/

/-- The second part has fewer tokens before it after those values for which the first took one. -/
theorem bind (hx : Proceeds n taken x y)
    (hf : ∀ a, Proceeds (if taken a then n - 1 else n) (fun b => !taken a && wanted b)
      (f a) (g a)) :
    Proceeds n wanted (x >>= f) (y >>= g) := by
  intro ts hts
  refine (hx ts hts).bind fun a => (hf a).anti ?_
  split
  next => exact Nat.le_sub_one_of_lt hts
  next => exact hts

/-- Whether the first part has taken a token does not matter. -/
theorem after (hx : Proceeds n taken x y) (hf : ∀ a, Proceeds n wanted (f a) (g a)) :
    Proceeds n wanted (x >>= f) (y >>= g) :=
  hx.to_perhaps.bind hf

/-- The first part has taken a token. -/
theorem next (hx : Proceeds n always x y) (hf : ∀ a, Proceeds (n - 1) perhaps (f a) (g a)) :
    Proceeds n wanted (x >>= f) (y >>= g) :=
  hx.bind hf

/-- The first part has taken a token if it answers yes. -/
theorem ifTaken {x y : Parser Bool} {f g : Bool → Parser β} (hx : Proceeds n id x y)
    (htrue : Proceeds (n - 1) perhaps (f true) (g true))
    (hfalse : Proceeds n wanted (f false) (g false)) :
    Proceeds n wanted (x >>= f) (y >>= g) :=
  hx.bind fun
    | true => htrue
    | false => hfalse

/-- The first part has taken a token if it gives something. -/
theorem ifSome {x y : Parser (Option α)} {f g : Option α → Parser β}
    (hx : Proceeds n Option.isSome x y)
    (hsome : ∀ a, Proceeds (n - 1) perhaps (f (some a)) (g (some a)))
    (hnone : Proceeds n wanted (f none) (g none)) :
    Proceeds n wanted (x >>= f) (y >>= g) :=
  hx.bind fun
    | some a => hsome a
    | none => hnone

/-- The fuel is one more than the number of tokens. -/
theorem fuel {f g : Nat → Parser β} (hf : ∀ k ≤ n, Proceeds k wanted (f k) (g k)) :
    Proceeds n wanted (Action.read (·.length + 1) >>= f) (Action.read (·.length + 1) >>= g) :=
  fun ts hts => hf (ts.length + 1) hts ts (Nat.lt_succ_self _)

/-! ## Looking at the next token -/

theorem look (look : List Lexeme → α) :
    Proceeds n perhaps (Action.read look : Parser α) (Action.read look) :=
  fun _ _ => ⟨rfl, .untouched rfl⟩

/-- What comes next may be decided by the next token, which is still there. -/
theorem peek {f g : Option Lexeme → Parser β}
    (hsome : ∀ lexeme, ProceedsNext n wanted (f (some lexeme)) (g (some lexeme)))
    (hnone : Proceeds n wanted (f none) (g none)) :
    Proceeds n wanted (peek? >>= f) (peek? >>= g) := by
  intro ts hts
  cases ts with
  | nil => exact hnone [] hts
  | cons lexeme ts => exact hsome lexeme lexeme ts hts

end Proceeds

namespace ProceedsNext

variable {n : Nat} {taken : α → Bool} {p q : Parser α} {f g : Unit → Parser α}

theorem of (h : Proceeds n taken p q) : ProceedsNext n taken p q := fun _ _ hts => h _ hts

/-- Taking the token that has been looked at is progress. -/
theorem skip (hf : Proceeds (n - 1) perhaps (f ()) (g ())) :
    ProceedsNext n taken (skip >>= f) (skip >>= g) := by
  intro lexeme ts hts
  have hskip : ProceedsOn (lexeme :: ts) always Grammar.skip Grammar.skip :=
    ⟨rfl, List.suffix_cons _ _, fun _ => Nat.lt_succ_self _⟩
  exact hskip.bind fun _ => hf.anti (Nat.le_sub_one_of_lt hts)

end ProceedsNext

/-! ## Small parsers -/

section

variable {n : Nat}

theorem next?_proceeds : Proceeds n Option.isSome next? next? := by
  intro ts hts
  cases ts with
  | nil => exact ⟨rfl, .untouched rfl⟩
  | cons lexeme ts => exact ⟨rfl, List.suffix_cons _ _, fun _ => Nat.lt_succ_self _⟩

theorem skip_proceeds : Proceeds n perhaps skip skip :=
  fun ts _ => ⟨rfl, List.tail_suffix ts, nofun⟩

theorem peekLine_proceeds : Proceeds n perhaps peekLine peekLine := .look _

theorem at?_proceeds (p : Token → Bool) : Proceeds n perhaps (at? p) (at? p) := .look _

theorem takeIf_proceeds (p : Token → Bool) : Proceeds n id (takeIf p) (takeIf p) := by
  intro ts hts
  cases ts with
  | nil => exact ⟨rfl, .untouched rfl⟩
  | cons lexeme ts =>
      have hat : at? p (lexeme :: ts) = .ok (p lexeme.token) (lexeme :: ts) := rfl
      refine ⟨rfl, ?_⟩
      rw [takeIf, Action.bind_of_ok hat]
      cases p lexeme.token with
      | true => exact ⟨List.suffix_cons _ _, fun _ => Nat.lt_succ_self _⟩
      | false => exact .untouched rfl

theorem mismatch_proceeds (what : String) {taken : α → Bool} :
    ∀ found : Option Lexeme, Proceeds n taken (mismatch what found) (mismatch what found)
  | some ⟨_, _⟩ => .fail _
  | none => .fail _

theorem expect_proceeds (p : Token → Bool) (what : String) :
    Proceeds n always (expect p what) (expect p what) := by
  refine next?_proceeds.ifSome (fun ⟨token, line⟩ => ?_) (.fail _)
  dsimp only
  split
  next => exact .pure _
  next => exact mismatch_proceeds what _

theorem identifier_proceeds (what : String) :
    Proceeds n always (identifier what) (identifier what) := by
  refine next?_proceeds.ifSome (fun lexeme => ?_) (.fail _)
  split
  next => exact .pure _
  next => exact mismatch_proceeds what _

end

/-! ## Lists -/

/-- Every item takes a token, and so the fuel is not used up. -/
theorem itemsUntil_proceeds {item item' : Parser α} (closing : Symbol) :
    ∀ {n k k' : Nat}, Proceeds n always item item' → n ≤ k → n ≤ k' →
      Proceeds n always (itemsUntil item closing k) (itemsUntil item' closing k')
  | 0, _, _, _, _, _ => .zero
  | n + 1, _ + 1, _ + 1, hitem, hk, hk' => by
    have hmore := itemsUntil_proceeds closing (hitem.anti (Nat.le_succ n))
      (Nat.le_of_succ_le_succ hk) (Nat.le_of_succ_le_succ hk')
    refine hitem.next fun first => next?_proceeds.after fun found => ?_
    split
    next =>
      split
      next => exact hmore.after fun _ => .pure _
      next =>
        split
        next => exact .pure _
        next => exact .fail _
    next => exact .fail _
    next => exact .fail _

theorem commaSeparated_proceeds {item item' : Parser α} {n : Nat}
    (hitem : Proceeds n always item item') (closing : Symbol) :
    Proceeds n always (commaSeparated item closing) (commaSeparated item' closing) :=
  (takeIf_proceeds _).ifTaken (.pure _) <|
    .fuel fun k hk => itemsUntil_proceeds closing (hitem.anti hk) (Nat.le_refl k) (Nat.le_refl k)

end Grammar

end ClassScript
