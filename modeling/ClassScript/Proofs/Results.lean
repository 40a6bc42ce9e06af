import ClassScript.Proofs.Conformance

/-!
# Results

An action that finishes gives a result, a value or an error, and leaves a state behind. Seen this
way, a block and a call give what their body gives: they only open a block or a frame before it and
close it again, whatever the result is.
-/

namespace ClassScript

/-! ## Actions -/

namespace Action

variable {σ ε α β : Type} {x : Action σ ε α} {f : α → Action σ ε β} {s s' t : σ}

/-- The action ends with the result `r`, a value or an error, and leaves `s'` behind. -/
def Gives (x : Action σ ε α) (s : σ) (r : Except ε α) (s' : σ) : Prop :=
  attempt x s = .ok r s'

theorem gives_ok {a : α} : x.Gives s (.ok a) s' ↔ x s = .ok a s' := by
  unfold Gives attempt
  cases x s <;> simp

theorem gives_error {e : ε} : x.Gives s (.error e) s' ↔ x s = .error e s' := by
  unfold Gives attempt
  cases x s <;> simp

theorem gives_congr {y : Action σ ε α} (h : x s = y t) {r : Except ε α} :
    x.Gives s r s' ↔ y.Gives t r s' := by
  unfold Gives attempt
  rw [h]

theorem ofExcept_gives {r r' : Except ε α} :
    (ofExcept r : Action σ ε α).Gives s r' s' ↔ r' = r ∧ s' = s := by
  cases r <;> simp [Gives, attempt, ofExcept, eq_comm]

theorem attempt_bind_gives {f : Except ε α → Action σ ε β} {r : Except ε β} :
    (attempt x >>= f).Gives s r s' ↔ ∃ r₁ t, x.Gives s r₁ t ∧ (f r₁).Gives t r s' := by
  cases hx : attempt x s with
  | ok r₁ t =>
      rw [gives_congr (bind_of_ok hx)]
      constructor
      · intro h
        exact ⟨r₁, t, hx, h⟩
      · rintro ⟨r₂, t₂, h₂, h⟩
        obtain ⟨rfl, rfl⟩ : r₁ = r₂ ∧ t = t₂ := by simpa using hx.symm.trans h₂
        exact h
  | error e t => cases hxs : x s <;> simp [attempt, hxs] at hx
  | exhausted =>
      have hnone : ¬ (attempt x >>= f).Gives s r s' := by
        rw [Gives, attempt_of_exhausted (bind_of_exhausted hx)]
        intro h
        cases h
      refine iff_of_false hnone ?_
      rintro ⟨r₁, t, h₁, -⟩
      cases hx.symm.trans h₁

theorem bind_gives {r : Except ε β} :
    (x >>= f).Gives s r s' ↔
      (∃ a t, x.Gives s (.ok a) t ∧ (f a).Gives t r s') ∨
        ∃ e, x.Gives s (.error e) s' ∧ r = .error e := by
  cases hx : x s with
  | ok a t => simp [gives_congr (bind_of_ok hx), gives_ok, gives_error, hx]
  | error e t =>
      rw [Gives, attempt_of_error (bind_of_error hx)]
      simp [gives_ok, gives_error, hx, eq_comm, and_comm]
  | exhausted =>
      rw [Gives, attempt_of_exhausted (bind_of_exhausted hx)]
      simp [gives_ok, gives_error, hx]

/-- Actions that give the same results are equal: if neither gives one, both run out of fuel. -/
theorem eq_of_gives {y : Action σ ε α} (h : ∀ r s', x.Gives s r s' ↔ y.Gives t r s') :
    x s = y t := by
  cases hx : x s with
  | ok a s' => exact (gives_ok.mp ((h _ _).mp (gives_ok.mpr hx))).symm
  | error e s' => exact (gives_error.mp ((h _ _).mp (gives_error.mpr hx))).symm
  | exhausted =>
      cases hy : y t with
      | ok a s' => exact hx.symm.trans (gives_ok.mp ((h _ _).mpr (gives_ok.mpr hy)))
      | error e s' => exact hx.symm.trans (gives_error.mp ((h _ _).mpr (gives_error.mpr hy)))
      | exhausted => rfl

end Action

/-! ## Blocks and calls -/

namespace Session

/-- The session `s` after a block in it has ended in `t`. -/
def closing (s t : Session) : Session :=
  { t with scopes := s.scopes.closing t.scopes }

/-- The session `s` after a call in it has ended in `t`. -/
def resumed (s t : Session) : Session :=
  { t with scopes := s.scopes, calls := s.calls }

end Session

namespace Eval

variable {α : Type} {x : Eval α} {s s' : Session} {r : Except Fault α}

theorem thenAlways_gives {after : Eval Unit} {back : Session → Session}
    (h : ∀ r t, x.Gives s r t → after t = .ok () (back t)) :
    (thenAlways x after).Gives s r s' ↔ ∃ t, x.Gives s r t ∧ s' = back t := by
  rw [thenAlways, Action.attempt_bind_gives]
  constructor
  · rintro ⟨r₁, t, hx, hafter⟩
    rw [Action.gives_congr (Action.bind_of_ok (Action.attempt_of_ok (h r₁ t hx)))] at hafter
    refine ⟨t, ?_⟩
    cases r₁ with
    | ok a =>
        obtain ⟨rfl, rfl⟩ := Action.ofExcept_gives (r := Except.ok a).mp hafter
        exact ⟨hx, rfl⟩
    | error e =>
        obtain ⟨rfl, rfl⟩ := Action.ofExcept_gives (r := Except.error e).mp hafter
        exact ⟨hx, rfl⟩
  · rintro ⟨t, hx, rfl⟩
    refine ⟨r, t, hx, ?_⟩
    rw [Action.gives_congr (Action.bind_of_ok (Action.attempt_of_ok (h r t hx)))]
    cases r <;> rfl

end Eval

/-- A block in which nothing was bound is left without a trace. -/
theorem Session.Keeps.exitScope_amid {s s' : Session} (h : s.Keeps false s') (line : Nat) :
    Eval.exitScope line (s'.amid (s.outerScopes.entered s)) = .ok () s' := by
  obtain ⟨⟨⟨slots, ⟨base, bindings⟩, outer⟩, suspended⟩, _, _, _, _, _, _⟩ := s'
  obtain rfl : suspended = s.scopes.suspended := h.scopes.suspended
  obtain rfl : outer = s.scopes.current.outer := h.scopes.outer
  obtain rfl : base = s.scopes.current.block.base := h.scopes.base
  obtain rfl : bindings = s.scopes.current.block.bindings := h.scopes.bindings rfl
  have hslots : slots.shrink s.scopes.current.slots.size = slots := by
    rw [← show slots.size = _ from h.scopes.size rfl, Array.shrink_eq_take, Array.take_eq_extract,
      Array.extract_size]
  refine (Eval.exitScope_of_ok rfl line).trans ?_
  rw [Session.amid, OuterScopes.entered, hslots]
  rfl

namespace Discipline.Conforms

variable {D : Discipline} {α : Type} {binds : Bool} {x y : Eval α} {Q : Store → α → Prop}
  {s s' : Session} {r : Except Fault α}

theorem keeps_of_gives (h : D.Conforms binds s x y Q) (hx : x.Gives s r s') :
    s.Keeps binds s' := by
  have hends := h.ends
  cases r with
  | ok a =>
      rw [Action.gives_ok.mp hx] at hends
      exact hends.1
  | error fault =>
      rw [Action.gives_error.mp hx] at hends
      exact hends.1

theorem inScope_gives (h : D.Conforms true s.entered x y Q) (line : Nat) :
    (Eval.inScope line x).Gives s r s' ↔ ∃ t, x.Gives s.entered r t ∧ s' = s.closing t :=
  Eval.thenAlways_gives fun _ _ hx =>
    Eval.exitScope_of_ok (h.keeps_of_gives hx).scopes.exit_enter.1 line

/-- The line of a block shows only if the block cannot be left. -/
theorem inScope_line (h : D.Conforms true s.entered x y Q) (line line' : Nat) :
    Eval.inScope line x s = Eval.inScope line' x s :=
  Action.eq_of_gives fun _ _ => (h.inScope_gives line).trans (h.inScope_gives line').symm

/-- A block around code that binds nothing makes no difference. -/
theorem inScope_eq (h : D.Conforms false s x x Q) (line : Nat) : Eval.inScope line x s = x s := by
  have htwin : x s.entered = (x s).mapState (·.amid (s.outerScopes.entered s)) :=
    h.twin (s.outerScopes.entered s) nofun
  have hends := h.ends
  change Eval.thenAlways x (Eval.exitScope line) s.entered = x s
  cases hx : x s with
  | ok a s' =>
      rw [hx] at htwin hends
      rw [Eval.thenAlways_of_ok htwin (hends.1.exitScope_amid line)]
  | error fault s' =>
      rw [hx] at htwin hends
      rw [Eval.thenAlways_of_error htwin (hends.1.exitScope_amid line)]
  | exhausted =>
      rw [hx] at htwin
      exact Eval.thenAlways_of_exhausted htwin

theorem withFrame_gives {frame : CallFrame} (h : D.Conforms true (s.called frame) x y Q)
    (hroom : s.calls.length < maxCallDepth) (line : Nat) :
    (Eval.withFrame frame line x).Gives s r s' ↔
      ∃ t, x.Gives (s.called frame) r t ∧ s' = s.resumed t := by
  rw [Action.gives_congr (Eval.withFrame_of_lt hroom frame line x)]
  refine Eval.thenAlways_gives fun _ t hx => ?_
  have hk := h.keeps_of_gives hx
  rw [Eval.exitCall_of_ok hk.scopes.exit_enterIsolated line, hk.calls]
  rfl

end Discipline.Conforms

end ClassScript
