import ClassScript.Proofs.Coupling

/-!
# Fuel

Fuel only bounds how far a run may get: what code does with some amount of it, it does with every
larger amount. That one interpreter gets as far as another is a regime, so it passes through all
code; only the rounds of a loop, which the fuel counts as well, are looked at here. So what a
statement comes to does not depend on the fuel, and a statement that comes to nothing diverges.
-/

namespace ClassScript

namespace Eval

/-- Wherever `x` ends, `y` ends in the same way. -/
def Approximates {α : Type} (x y : Eval α) : Prop := ∀ s, x s ≠ .exhausted → y s = x s

namespace Approximates

variable {α β : Type} {x y z : Eval α} {f g : α → Eval β}

@[refl]
protected theorem refl (x : Eval α) : Approximates x x := fun _ _ => rfl

protected theorem trans (hxy : Approximates x y) (hyz : Approximates y z) : Approximates x z := by
  intro s hx
  have hy := hxy s hx
  exact (hyz s (hy ▸ hx)).trans hy

theorem outOfFuel : Approximates Action.outOfFuel y := fun _ h => absurd rfl h

protected theorem bind (hx : Approximates x y) (hf : ∀ a, Approximates (f a) (g a)) :
    Approximates (x >>= f) (y >>= g) := by
  intro s h
  cases hxs : x s with
  | ok a s' =>
      have hys := (hx s (hxs ▸ nofun)).trans hxs
      rw [Action.bind_of_ok hxs] at h ⊢
      rw [Action.bind_of_ok hys, hf a s' h]
  | error fault s' =>
      have hys := (hx s (hxs ▸ nofun)).trans hxs
      rw [Action.bind_of_error hxs, Action.bind_of_error hys]
  | exhausted => exact absurd (Action.bind_of_exhausted hxs) h

theorem attempt (hx : Approximates x y) :
    Approximates (Action.attempt x) (Action.attempt y) := by
  intro s h
  have hxs : x s ≠ .exhausted := fun hxs => h (Action.attempt_of_exhausted hxs)
  rw [Action.attempt, Action.attempt, hx s hxs]

theorem thenAlways (hx : Approximates x y) (after : Eval Unit) :
    Approximates (Eval.thenAlways x after) (Eval.thenAlways y after) :=
  hx.attempt.bind fun _ => .refl _

theorem inScope (hx : Approximates x y) (line : Nat) :
    Approximates (Eval.inScope line x) (Eval.inScope line y) :=
  (Approximates.refl _).bind fun _ => hx.thenAlways _

theorem withFrame (hx : Approximates x y) (frame : CallFrame) (line : Nat) :
    Approximates (Eval.withFrame frame line x) (Eval.withFrame frame line y) := by
  refine (Approximates.refl _).bind fun depth => ?_
  split
  · exact .refl _
  · exact (Approximates.refl _).bind fun _ => hx.thenAlways _

/-- More rounds may be gone as well. -/
theorem iterate {test test' : Eval Bool} {body body' : Eval Signal} {after after' : Eval Unit}
    (htest : Approximates test test') (hbody : Approximates body body')
    (hafter : Approximates after after') {n m : Nat} (h : n ≤ m) :
    Approximates (ClassScript.iterate test body after n)
      (ClassScript.iterate test' body' after' m) := by
  induction n generalizing m with
  | zero => exact .outOfFuel
  | succ n ih =>
      obtain ⟨m, rfl⟩ : ∃ k, m = k + 1 := ⟨m - 1, by omega⟩
      refine htest.bind fun go => ?_
      cases go with
      | false => exact .refl _
      | true =>
          refine hbody.bind fun signal => ?_
          cases signal with
          | normal | continueLoop => exact hafter.bind fun _ => ih (Nat.le_of_succ_le_succ h)
          | _ => exact .refl _

end Approximates

end Eval

/-! ## More fuel -/

open Coupling (Side sides)

/-- The runs of the second interpreter get as far as those of the first. -/
def approximating : Regime Side where
  loops := True
  Level := Unit
  Under _ _ := True
  Rel _ _ X _ := (X .first).Approximates (X .second)

namespace approximating

variable {run run' : Interpreter}

theorem laws : approximating.Laws where
  under_trans _ _ := trivial
  step _ _ := .refl _
  findFunction _ := .refl _
  declareFunction _ := .refl _
  bind hX hF := hX.bind fun a => hF a (.inl trivial)
  inScope line hX := hX.inScope line
  withFrame frame line hX := (hX () trivial).withFrame frame line

theorem includeModule (hrun : ∀ z, approximating.Below (sides run run') () z) (path : String)
    (line : Nat) : (run.includeModule path line).Approximates (run'.includeModule path line) := by
  refine (Eval.Approximates.refl _).bind fun included => ?_
  split
  · exact .refl _
  · refine (Eval.Approximates.refl _).bind fun program => ?_
    refine (Eval.Approximates.refl _).bind fun _ => ?_
    refine Eval.Approximates.bind (.attempt ?_) fun _ => .refl _
    exact laws.execProgram_goes (hrun 0) (.inl trivial)

/-- Only the rounds of a loop are counted by the fuel that a statement is given itself. -/
theorem execStep_fuel (run : Interpreter) {n m : Nat} (h : n ≤ m) (statement : Statement) :
    (run.execStep n statement).Approximates (run.execStep m statement) := by
  cases statement with
  | whileLoop condition body line => exact .iterate (.refl _) (.refl _) (.refl _) h
  | doWhile body condition line =>
      refine (Eval.Approximates.refl _).bind fun signal => ?_
      cases signal with
      | normal | continueLoop => exact .iterate (.refl _) (.refl _) (.refl _) h
      | _ => exact .refl _
  | forLoop initial condition step body line =>
      refine Eval.Approximates.inScope ((Eval.Approximates.refl _).bind fun signal => ?_) line
      cases signal with
      | normal => exact .iterate (.refl _) (.refl _) (.refl _) h
      | _ => exact .refl _
  | _ => exact .refl _

/-- The induction is on the smaller amount of fuel. -/
theorem interpreter_runs {n m : Nat} (h : n ≤ m) (z : Nat) :
    approximating.Runs (sides (interpreter n) (interpreter m)) () z := by
  induction n generalizing m z with
  | zero => exact ⟨fun _ _ _ => .outOfFuel, fun _ _ => .outOfFuel, fun _ _ => .outOfFuel⟩
  | succ n ih =>
      obtain ⟨m, rfl⟩ : ∃ k, m = k + 1 := ⟨m - 1, by omega⟩
      have hle := Nat.le_of_succ_le_succ h
      have hbelow (z : Nat) : approximating.Below (sides (interpreter n) (interpreter m)) () z :=
        ⟨ih hle z, fun _ _ z' => ih hle z'⟩
      refine ⟨fun e expected _ => ?_, fun statement _ => ?_, fun c hc => ?_⟩
      · exact laws.evalStep_goes e (hbelow _) expected
      · have hstep : ((interpreter n).execStep n statement).Approximates
            ((interpreter m).execStep n statement) :=
          laws.execStep_goes statement (.inl trivial) (hbelow _) (fun _ => ⟨n, rfl⟩)
            (fun body catches finalizer line _ => laws.execTry_goes .attempt
              (hbelow _).toRuns (Nat.le_refl _) (.inl trivial) line)
            fun path line _ => includeModule hbelow path line
        exact hstep.trans (execStep_fuel _ hle statement)
      · exact laws.constructStep_goes (hbelow 0).under c hc

end approximating

section MoreFuel

variable {n m : Nat} (h : n ≤ m)
include h

theorem evaluate_approximates (e : Expr) (expected : Option Ty) :
    (evaluate n e expected).Approximates (evaluate m e expected) :=
  (approximating.interpreter_runs h _).eval e expected (Nat.lt_succ_self _)

theorem execute_approximates (statement : Statement) :
    (execute n statement).Approximates (execute m statement) :=
  (approximating.interpreter_runs h 0).exec statement (.inl trivial)

end MoreFuel

/-! ## With enough fuel -/

/-- With enough fuel the action ends like this. -/
def Reaches {α : Type} (x : Nat → Eval α) (s : Session) (o : Outcome Session Fault α) : Prop :=
  o ≠ .exhausted ∧ ∃ fuel, x fuel s = o

/-- With more fuel the action gets at least as far. -/
def Rising {α : Type} (x : Nat → Eval α) : Prop := ∀ ⦃n m⦄, n ≤ m → (x n).Approximates (x m)

namespace Rising

variable {α β : Type} {x : Nat → Eval α} {f : Nat → α → Eval β}

theorem const (x : Eval α) : Rising fun _ => x := fun _ _ _ => .refl x

theorem bind (hx : Rising x) (hf : ∀ a, Rising (f · a)) : Rising fun n => x n >>= f n :=
  fun _ _ h => (hx h).bind fun a => hf a h

end Rising

namespace Reaches

variable {α β : Type} {x : Nat → Eval α} {f : Nat → α → Eval β} {s s₁ s' : Session} {a : α}
  {fault : Fault} {o o' : Outcome Session Fault α} {r : Outcome Session Fault β}

theorem unique (hx : Rising x) (h : Reaches x s o) (h' : Reaches x s o') : o = o' := by
  obtain ⟨ho, n, rfl⟩ := h
  obtain ⟨ho', m, rfl⟩ := h'
  rcases Nat.le_total n m with hle | hle
  · exact (hx hle s ho).symm
  · exact hx hle s ho'

theorem of_ok {n : Nat} (h : x n s = .ok a s') : Reaches x s (.ok a s') := ⟨nofun, n, h⟩

theorem of_error {n : Nat} (h : x n s = .error fault s') : Reaches x s (.error fault s') :=
  ⟨nofun, n, h⟩

theorem bind (hx : Rising x) (hf : ∀ a, Rising (f · a)) (h : Reaches x s (.ok a s₁))
    (hrest : Reaches (f · a) s₁ r) : Reaches (fun n => x n >>= f n) s r := by
  obtain ⟨-, n, hn⟩ := h
  obtain ⟨hr, m, rfl⟩ := hrest
  refine ⟨hr, max n m, ?_⟩
  have hfirst : x (max n m) s = .ok a s₁ :=
    (hx (Nat.le_max_left n m) s (hn ▸ nofun)).trans hn
  exact (Action.bind_of_ok hfirst).trans (hf a (Nat.le_max_right n m) s₁ hr)

theorem bind_error (h : Reaches x s (.error fault s')) :
    Reaches (fun n => x n >>= f n) s (.error fault s') := by
  obtain ⟨-, n, hn⟩ := h
  exact of_error (Action.bind_of_error hn)

theorem of_bind {b : β} (h : Reaches (fun n => x n >>= f n) s (.ok b s')) :
    ∃ a s₁, Reaches x s (.ok a s₁) ∧ Reaches (f · a) s₁ (.ok b s') := by
  obtain ⟨-, n, hn⟩ := h
  obtain ⟨a, s₁, ha, hb⟩ := Action.ok_of_bind hn
  exact ⟨a, s₁, of_ok ha, of_ok hb⟩

end Reaches

/-! ## What a statement comes to -/

namespace Statement

/-- With enough fuel the statement ends like this. -/
def ComesTo (statement : Statement) (s : Session) (o : Outcome Session Fault Signal) : Prop :=
  o ≠ .exhausted ∧ ∃ fuel, execute fuel statement s = o

/-- No amount of fuel is enough. -/
def Diverges (statement : Statement) (s : Session) : Prop :=
  ∀ fuel, execute fuel statement s = .exhausted

variable {statement statement' : Statement} {s : Session} {o o' : Outcome Session Fault Signal}

/-- There is only one thing that a statement comes to. -/
theorem ComesTo.unique (h : statement.ComesTo s o) (h' : statement.ComesTo s o') : o = o' := by
  have hrising : Rising fun fuel => execute fuel statement :=
    fun _ _ hle => execute_approximates hle statement
  exact Reaches.unique hrising h h'

theorem diverges_iff : statement.Diverges s ↔ ∀ o, ¬ statement.ComesTo s o := by
  constructor
  · rintro h o ⟨ho, fuel, rfl⟩
    exact ho (h fuel)
  · intro h fuel
    exact Classical.byContradiction fun hne => h _ ⟨hne, fuel, rfl⟩

/-- With more fuel, the second statement gets as far as the first. -/
theorem ComesTo.mono (h : ∀ n, ∃ m, (execute n statement).Approximates (execute m statement'))
    (ho : statement.ComesTo s o) : statement'.ComesTo s o := by
  obtain ⟨hne, n, rfl⟩ := ho
  obtain ⟨m, happrox⟩ := h n
  exact ⟨hne, m, happrox s hne⟩

end Statement

end ClassScript
