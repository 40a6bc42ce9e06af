import ClassScript.Proofs.Conduct.Programs
import ClassScript.Proofs.Regimes.Statements

/-!
# Coupled runs

A coupling says how the functions and the included modules of two sessions may differ that are the
same in everything else. Two runs are coupled if they end in the same way, with such sessions again,
from any two such sessions. Evaluation meets the functions of a session only when it looks one up by
its name or declares one, and the included modules only when it executes an `include`. So if two
interpreters are coupled in how they execute an `include`, they are coupled on all code.
-/

namespace ClassScript

/-- The outcomes differ in their states only, which `R` relates. -/
inductive Outcome.SameUpTo {σ ε α : Type} (R : σ → σ → Prop) :
    Outcome σ ε α → Outcome σ ε α → Prop where
  | ok (a : α) {s t : σ} (h : R s t) : SameUpTo R (.ok a s) (.ok a t)
  | error (e : ε) {s t : σ} (h : R s t) : SameUpTo R (.error e s) (.error e t)
  | exhausted : SameUpTo R .exhausted .exhausted

theorem Outcome.SameUpTo.mono {σ ε α : Type} {R R' : σ → σ → Prop} {o o' : Outcome σ ε α}
    (h : o.SameUpTo R o') (hR : ∀ s t, R s t → R' s t) : o.SameUpTo R' o' := by
  cases h with
  | ok a h => exact .ok a (hR _ _ h)
  | error e h => exact .error e (hR _ _ h)
  | exhausted => exact .exhausted

namespace Interpreter

/-- Runs programs one level deeper than `run`, and executes `include` in its own way. -/
def nextVia (run : Interpreter) (execInclude : String → Nat → Eval Unit) (fuel : Nat) :
    Interpreter where
  eval e expected := run.evalStep e expected
  exec statement :=
    match statement with
    | .includeModule path line => normally (execInclude path line)
    | statement => run.execStep fuel statement
  construct c := run.constructStep c

theorem nextVia_exec {run : Interpreter} {execInclude : String → Nat → Eval Unit} {fuel : Nat}
    {statement : Statement} (h : ∀ path line, statement ≠ .includeModule path line) :
    (run.nextVia execInclude fuel).exec statement = run.execStep fuel statement := by
  change (match statement with
    | .includeModule path line => normally (execInclude path line)
    | statement => run.execStep fuel statement) = _
  split
  next path line => exact absurd rfl (h path line)
  next => rfl

theorem nextVia_includeModule (run : Interpreter) (fuel : Nat) :
    run.nextVia run.includeModule fuel = run.next fuel := by
  have hexec : (run.nextVia run.includeModule fuel).exec = (run.next fuel).exec := by
    funext statement
    cases statement <;> rfl
  rw [nextVia, next, Interpreter.mk.injEq]
  exact ⟨rfl, hexec, rfl⟩

end Interpreter

theorem checkFunction_eq_ok_iff {decl : FunctionDecl} {s : Session} :
    checkFunction decl s = .ok () ↔
      Builtin.ofName? decl.name = none ∧ s.functions.find? decl.name = none := by
  rw [checkFunction, Table.contains]
  cases Builtin.ofName? decl.name <;> cases s.functions.find? decl.name <;> simp

theorem declareFunction_of_ok {decl : FunctionDecl} {s : Session}
    (h : checkFunction decl s = .ok ()) :
    declareFunction decl s = .ok () { s with functions := s.functions.insert decl.name decl } :=
  Action.bind_of_ok (Eval.ask_of_ok h decl.line)

theorem declareFunction_of_error {decl : FunctionDecl} {s : Session} {cause : Cause}
    (h : checkFunction decl s = .error cause) :
    declareFunction decl s = .error { cause, line := decl.line } s :=
  Action.bind_of_error (Eval.ask_of_error h decl.line)

/-- How the functions and the included modules of two sessions belong together. -/
structure Coupling where
  Functions : Table FunctionDecl → Table FunctionDecl → Prop
  Included : List String → List String → Prop
  /-- What is kept of the included modules of the second session. -/
  Since : List String → List String → Prop

namespace Coupling

structure Laws (C : Coupling) : Prop where
  find? {F G : Table FunctionDecl} (name : String) : C.Functions F G → F.find? name = G.find? name
  insert {F G : Table FunctionDecl} {name : String} (decl : FunctionDecl) : C.Functions F G →
    F.find? name = none → C.Functions (F.insert name decl) (G.insert name decl)
  since_refl (included : List String) : C.Since included included
  since_trans {I J K : List String} : C.Since I J → C.Since J K → C.Since I K

/-- The sessions differ in their functions and included modules only. -/
structure Matches (C : Coupling) (s t : Session) : Prop where
  functions : C.Functions s.functions t.functions
  included : C.Included s.included t.included
  rest : t = { s with functions := t.functions, included := t.included }

/-- The two runs end in the same way, in matching sessions again. -/
def Couples (C : Coupling) {α : Type} (x y : Eval α) : Prop :=
  ∀ s t, C.Matches s t →
    (x s).SameUpTo (fun s' t' => C.Matches s' t' ∧ C.Since t.included t'.included) (y t)

variable {C : Coupling} {α β : Type}

/-! ## Rules -/

variable {x y : Eval α} {f g : α → Eval β}

namespace Couples

protected theorem bind (L : C.Laws) (hx : C.Couples x y) (hf : ∀ a, C.Couples (f a) (g a)) :
    C.Couples (x >>= f) (y >>= g) := by
  intro s t h
  have hsame := hx s t h
  generalize hxs : x s = o at hsame
  generalize hyt : y t = o' at hsame
  cases hsame with
  | @ok a s' t' h' =>
      rw [Action.bind_of_ok hxs, Action.bind_of_ok hyt]
      exact (hf a s' t' h'.1).mono fun _ _ h'' => ⟨h''.1, L.since_trans h'.2 h''.2⟩
  | error fault h' =>
      rw [Action.bind_of_error hxs, Action.bind_of_error hyt]
      exact .error fault h'
  | exhausted =>
      rw [Action.bind_of_exhausted hxs, Action.bind_of_exhausted hyt]
      exact .exhausted

/-- The second action matters only in sessions that match another one. -/
theorem congr {z : Eval α} (hx : C.Couples x y) (hy : ∀ s t, C.Matches s t → z t = y t) :
    C.Couples x z := by
  intro s t h
  rw [hy s t h]
  exact hx s t h

theorem attempt (hx : C.Couples x y) : C.Couples (Action.attempt x) (Action.attempt y) := by
  intro s t h
  have hsame := hx s t h
  rw [Action.attempt, Action.attempt]
  generalize x s = o at hsame
  generalize y t = o' at hsame
  cases hsame with
  | ok a h' => exact .ok (Except.ok a) h'
  | error fault h' => exact .ok (Except.error fault) h'
  | exhausted => exact .exhausted

/-- A blind action does the same in both sessions, and leaves alone what may differ. -/
theorem blind (L : C.Laws) (hx : x.Blind) : C.Couples x x := by
  intro s t h
  have hself : x s = (x s).mapState fun s' =>
      { s' with functions := s.functions, included := s.included } := hx s _ _
  have hother := hx s t.functions t.included
  rw [← h.rest] at hother
  rw [hother]
  cases hxs : x s with
  | ok a s' =>
      rw [hxs] at hself
      obtain ⟨-, hkept⟩ := Outcome.ok.inj hself
      exact .ok a ⟨⟨hkept ▸ h.functions, hkept ▸ h.included, rfl⟩, L.since_refl _⟩
  | error fault s' =>
      rw [hxs] at hself
      obtain ⟨-, hkept⟩ := Outcome.error.inj hself
      exact .error fault ⟨⟨hkept ▸ h.functions, hkept ▸ h.included, rfl⟩, L.since_refl _⟩
  | exhausted => exact .exhausted

theorem findFunction (L : C.Laws) (name : String) :
    C.Couples (Action.read (·.functions.find? name)) (Action.read (·.functions.find? name)) := by
  intro s t h
  rw [Action.read, Action.read, L.find? name h.functions]
  exact .ok _ ⟨h, L.since_refl _⟩

/-- Both sessions accept the declaration or neither does. -/
theorem declareFunction (L : C.Laws) (decl : FunctionDecl) :
    C.Couples (ClassScript.declareFunction decl) (ClassScript.declareFunction decl) := by
  intro s t h
  have hcheck : checkFunction decl t = checkFunction decl s := by
    rw [checkFunction, checkFunction, Table.contains, Table.contains,
      L.find? decl.name h.functions]
  cases hs : checkFunction decl s with
  | ok _ =>
      rw [declareFunction_of_ok hs, declareFunction_of_ok (hcheck.trans hs)]
      refine .ok () ⟨⟨?_, h.included, ?_⟩, L.since_refl _⟩
      · exact L.insert decl h.functions (checkFunction_eq_ok_iff.mp hs).2
      · rw [h.rest]
  | error cause =>
      rw [declareFunction_of_error hs, declareFunction_of_error (hcheck.trans hs)]
      exact .error _ ⟨h, L.since_refl _⟩

end Couples

/-! ## Coupling as a regime -/

/-- The two runs that are compared. -/
inductive Side where
  | first
  | second

/-- The interpreters of the two runs. -/
def sides (run run' : Interpreter) : Side → Interpreter
  | .first => run
  | .second => run'

def regime (C : Coupling) : Regime Side where
  loops := True
  Level := Unit
  Under _ _ := True
  Rel _ _ X _ := C.Couples (X .first) (X .second)

variable {run run' : Interpreter}

theorem below (hrun : ∀ z, C.regime.Runs (sides run run') () z) (z : Nat) :
    C.regime.Below (sides run run') () z :=
  ⟨hrun z, fun _ _ z' => hrun z'⟩

/-- A guard that no coupled session trips does nothing. -/
theorem runs_within {P : Session → Prop} [DecidablePred P] {other : Interpreter}
    (hP : ∀ s t, C.Matches s t → P t) (hrun : ∀ z, C.regime.Runs (sides run run') () z) (z : Nat) :
    C.regime.Runs (sides run (.within P other run')) () z where
  eval e expected hsize :=
    Couples.congr ((hrun z).eval e expected hsize) fun s t h => if_pos (hP s t h)
  exec statement hsize :=
    Couples.congr ((hrun z).exec statement hsize) fun s t h => if_pos (hP s t h)
  construct c hc :=
    Couples.congr ((hrun z).construct c hc) fun s t h => if_pos (hP s t h)

namespace Laws

theorem thenAlways (L : C.Laws) (hx : C.Couples x y) {after : Eval Unit} (hafter : after.Blind) :
    C.Couples (Eval.thenAlways x after) (Eval.thenAlways y after) :=
  hx.attempt.bind L fun result => (Couples.blind L hafter).attempt.bind L fun finished =>
    .blind L ((Eval.Blind.ofExcept result).bind fun a =>
      (Eval.Blind.ofExcept finished).bind fun _ => .pure a)

theorem regime (L : C.Laws) : C.regime.Laws where
  under_trans _ _ := trivial
  step hblind _ := .blind L hblind
  findFunction name := .findFunction L name
  declareFunction {_ decl} _ := .declareFunction L decl
  bind hX hF := hX.bind L fun a => hF a (.inl trivial)
  inScope line hX :=
    (Couples.blind L (x := Eval.enterScope) fun _ _ _ => rfl).bind L fun _ =>
      L.thenAlways hX (.exitScope line)
  withFrame frame line hX := by
    have hdepth : C.Couples (Action.read fun s => s.calls.length)
        (Action.read fun s => s.calls.length) := .blind L (.read fun _ _ _ => rfl)
    refine hdepth.bind L fun depth => ?_
    split
    · exact .blind L fun _ _ _ => rfl
    · refine (Couples.blind L (x := Eval.enterCall frame) fun _ _ _ => rfl).bind L fun _ => ?_
      exact L.thenAlways (hX () trivial) (.exitCall line)

theorem execProgram_couples (L : C.Laws) (hrun : ∀ z, C.regime.Runs (sides run run') () z)
    (program : Program) : C.Couples (run.execProgram program) (run'.execProgram program) :=
  L.regime.execProgram_goes (below hrun 0) (.inl trivial)

/-- With one more unit of fuel the interpreters are still coupled if their `include` statements
are. -/
theorem runs_next (L : C.Laws) (hrun : ∀ z, C.regime.Runs (sides run run') () z)
    {execInclude : String → Nat → Eval Unit}
    (hinclude : ∀ path line, C.Couples (run.includeModule path line) (execInclude path line))
    (fuel z : Nat) :
    C.regime.Runs (sides (run.next fuel) (run'.nextVia execInclude fuel)) () z where
  eval e expected _ := L.regime.evalStep_goes e (below hrun _) expected
  exec statement _ := by
    by_cases h : ∃ path line, statement = .includeModule path line
    · obtain ⟨path, line, rfl⟩ := h
      exact (hinclude path line).bind L fun _ => .blind L (.pure Signal.normal)
    · have hother (path line) : statement ≠ .includeModule path line := fun heq => h ⟨_, _, heq⟩
      have hrun := below hrun
      have hstep : C.Couples (run.execStep fuel statement) (run'.execStep fuel statement) :=
        L.regime.execStep_goes statement (.inl trivial) (hrun _) (fun _ => ⟨fuel, rfl⟩)
          (fun body catches finalizer line _ => L.regime.execTry_goes .attempt
            (hrun _).toRuns (Nat.le_refl _) (.inl trivial) line)
          fun path line heq => absurd heq (hother path line)
      exact hstep.congr fun s t _ => congrFun (Interpreter.nextVia_exec hother) t
  construct c _ := by
    have hstep : C.Couples (run.constructStep c) (run'.constructStep c) :=
      L.regime.constructStep_goes (below hrun 0).under c (.inl trivial)
    exact hstep

theorem runs_zero (L : C.Laws) (z : Nat) :
    C.regime.Runs (sides (interpreter 0) (interpreter 0)) () z :=
  ⟨fun _ _ _ => .blind L .outOfFuel, fun _ _ => .blind L .outOfFuel,
    fun _ _ => .blind L .outOfFuel⟩

end Laws

end Coupling

end ClassScript
