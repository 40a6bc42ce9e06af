import ClassScript.Action

/-!
# How sequences of actions run

A sequence runs its first action and then, if that gave a value, the second one in the state that
the first left. Parsers and evaluation are opened with these equations.
-/

namespace ClassScript

namespace Action

variable {σ ε α β : Type} {x : Action σ ε α} {f : α → Action σ ε β} {s s' : σ}

theorem bind_of_ok {a : α} (h : x s = .ok a s') : (x >>= f) s = f a s' := by
  change Action.bind x f s = f a s'
  rw [Action.bind, h]

theorem bind_of_error {e : ε} (h : x s = .error e s') : (x >>= f) s = .error e s' := by
  change Action.bind x f s = .error e s'
  rw [Action.bind, h]

theorem bind_of_exhausted (h : x s = .exhausted) : (x >>= f) s = .exhausted := by
  change Action.bind x f s = .exhausted
  rw [Action.bind, h]

/-- The rest of a sequence sees only how the first part ended. -/
theorem bind_of_eq {y : Action σ ε α} {s' : σ} (h : x s = y s') (f : α → Action σ ε β) :
    (x >>= f) s = (y >>= f) s' := by
  change Action.bind x f s = Action.bind y f s'
  rw [Action.bind, Action.bind, h]

theorem bind_assoc {γ : Type} (x : Action σ ε α) (f : α → Action σ ε β) (g : β → Action σ ε γ) :
    (x >>= f) >>= g = x >>= fun a => f a >>= g := by
  funext s
  change Action.bind (Action.bind x f) g s = Action.bind x (fun a => Action.bind (f a) g) s
  unfold Action.bind
  cases x s <;> rfl

theorem read_bind (look : σ → α) (f : α → Action σ ε β) (s : σ) :
    (read look >>= f) s = f (look s) s := rfl

/-- A sequence that gives a value ran all of its parts. -/
theorem ok_of_bind {b : β} (h : (x >>= f) s = .ok b s') :
    ∃ a s₁, x s = .ok a s₁ ∧ f a s₁ = .ok b s' := by
  cases hx : x s with
  | ok a s₁ =>
      rw [bind_of_ok hx] at h
      exact ⟨a, s₁, rfl, h⟩
  | error e s₁ =>
      rw [bind_of_error hx] at h
      cases h
  | exhausted =>
      rw [bind_of_exhausted hx] at h
      cases h

/-- A sequence depends on its parts only where they are run. -/
theorem bind_congr {y : Action σ ε α} {g : α → Action σ ε β} (hx : x s = y s)
    (hf : ∀ a s', y s = .ok a s' → f a s' = g a s') : (x >>= f) s = (y >>= g) s := by
  cases hy : y s with
  | ok a s' => rw [bind_of_ok (hx.trans hy), bind_of_ok hy, hf a s' hy]
  | error e s' => rw [bind_of_error (hx.trans hy), bind_of_error hy]
  | exhausted => rw [bind_of_exhausted (hx.trans hy), bind_of_exhausted hy]

theorem attempt_of_ok {a : α} (h : x s = .ok a s') : attempt x s = .ok (.ok a) s' := by
  rw [attempt, h]

theorem attempt_of_error {e : ε} (h : x s = .error e s') :
    attempt x s = .ok (.error e) s' := by
  rw [attempt, h]

theorem attempt_of_exhausted (h : x s = .exhausted) : attempt x s = .exhausted := by
  rw [attempt, h]

end Action

/-! ## What actions give -/

/-- Whatever value the action gives satisfies `P`. -/
def Yields {σ ε α : Type} (x : Action σ ε α) (P : α → Prop) : Prop :=
  ∀ ⦃s a s'⦄, x s = .ok a s' → P a

namespace Yields

variable {σ ε α β : Type} {x : Action σ ε α} {f : α → Action σ ε β} {P : α → Prop} {Q : β → Prop}

theorem pure {a : α} (h : P a) : Yields (Pure.pure a : Action σ ε α) P := by
  intro s b s' heq
  cases heq
  exact h

theorem some {a : α} (h : P a) :
    Yields (Pure.pure (some a) : Action σ ε (Option α)) fun a? => ∀ a ∈ a?, P a := by
  refine .pure fun b hb => ?_
  obtain rfl := Option.some.inj hb
  exact h

theorem fail {e : ε} : Yields (Action.fail e : Action σ ε α) P := nofun

theorem outOfFuel : Yields (Action.outOfFuel : Action σ ε α) P := nofun

theorem read {look : σ → α} (h : ∀ s, P (look s)) :
    Yields (Action.read look : Action σ ε α) P := by
  intro s a s' heq
  cases heq
  exact h s

theorem ofExcept {result : Except ε α} (h : ∀ a, result = .ok a → P a) :
    Yields (Action.ofExcept result : Action σ ε α) P := by
  cases result with
  | ok a => exact .pure (h a rfl)
  | error e => exact .fail

theorem bind (hx : Yields x P) (hf : ∀ a, P a → Yields (f a) Q) : Yields (x >>= f) Q := by
  intro s b s' h
  obtain ⟨a, s₁, ha, hb⟩ := Action.ok_of_bind h
  exact hf a (hx ha) hb

/-- Nothing needs to be known about the first part. -/
theorem after (hf : ∀ a, Yields (f a) Q) : Yields (x >>= f) Q := by
  intro s b s' h
  obtain ⟨a, s₁, -, hb⟩ := Action.ok_of_bind h
  exact hf a hb

theorem attempt (hx : Yields x P) :
    Yields (Action.attempt x) fun result => ∀ a, result = .ok a → P a := by
  intro s result s' h a ha
  subst ha
  unfold Action.attempt at h
  split at h
  next b s₁ hxs =>
    cases h
    exact hx hxs
  next => cases h
  next => cases h

theorem mono {P' : α → Prop} (h : Yields x P) (himp : ∀ a, P a → P' a) : Yields x P' :=
  fun _ a _ heq => himp a (h heq)

end Yields

end ClassScript
