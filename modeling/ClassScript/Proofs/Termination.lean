import ClassScript.Proofs.Conformance
import ClassScript.Proofs.Regimes.Statements

/-!
# Termination without loops

A program without loops, in a session without loops, finishes: with enough fuel the outcome is
always the same value or error. What shrinks is not the code, since a call or an `include` goes on
with code of any size. Every call uses up one of the calls that may still nest, every module one of
the modules that the loader has and that are not included yet; between two of them the code that
runs is a part of the code that ran before.
-/

namespace ClassScript

/-! ## What is left to use up -/

/-- The loader has programs under no other paths. -/
def Loader.Serves (loader : Loader) (paths : List String) : Prop :=
  ∀ path program, loader path = .ok program → path ∈ paths

namespace Session

/-- The paths of modules that are not included. -/
def missing (paths : List String) (s : Session) : List String :=
  paths.filter fun path => !s.included.contains path

/-- How many more calls may nest, and how many modules can be included. -/
def budget (paths : List String) (s : Session) : Nat :=
  maxCallDepth - s.calls.length + (s.missing paths).length

variable {paths : List String} {s s' : Session}

theorem length_missing_le (h : s.included ⊆ s'.included) :
    (s'.missing paths).length ≤ (s.missing paths).length := by
  refine (List.monotone_filter_right paths fun path hpath => ?_).length_le
  simp only [Bool.not_eq_true', List.contains_eq_mem, decide_eq_false_iff_not] at hpath ⊢
  exact fun hmem => hpath (h hmem)

theorem Advances.budget_le (h : s.Advances s') : s'.budget paths ≤ s.budget paths := by
  have hmissing : (s'.missing paths).length ≤ (s.missing paths).length :=
    length_missing_le h.included
  rw [budget, budget, h.calls]
  omega

theorem budget_called (h : s.calls.length < maxCallDepth) (frame : CallFrame) :
    (s.called frame).budget paths < s.budget paths := by
  change maxCallDepth - (s.calls.length + 1) + (s.missing paths).length < _
  rw [budget]
  omega

/-- A module that starts is no longer missing. -/
theorem budget_including {path : String} (hmem : path ∈ paths)
    (hnew : s.included.contains path = false) :
    budget paths { s with included := path :: s.included } < s.budget paths := by
  have hmissing : path ∈ s.missing paths := List.mem_filter.mpr ⟨hmem, by rw [hnew]; rfl⟩
  have hfilter : ({ s with included := path :: s.included } : Session).missing paths =
      (s.missing paths).filter (· != path) := by
    rw [missing, missing, List.filter_filter]
    refine List.filter_congr fun other _ => ?_
    rw [List.contains_cons, Bool.not_or]
    rfl
  have hlt : ((s.missing paths).filter (· != path)).length < (s.missing paths).length := by
    refine List.length_filter_lt_length_iff_exists.mpr ⟨path, hmissing, ?_⟩
    simp
  rw [budget, budget, hfilter]
  exact Nat.add_lt_add_left hlt _

end Session

namespace Eval

variable {α : Type} {x : Eval α} {after : Eval Unit} {s : Session}

/-- An action that sees how a first one ended finishes if it does so for every way to end. -/
theorem attempt_bind_finishes {β : Type} {K K' : Session → Prop} {Q : α → Prop} {Q' : β → Prop}
    {f : Except Fault α → Eval β} (hx : (x s).Finishes K Q)
    (hf : ∀ result s', K s' → (∀ a, result = .ok a → Q a) → (f result s').Finishes K' Q') :
    ((Action.attempt x >>= f) s).Finishes K' Q' := by
  cases hxs : x s with
  | ok a s' =>
      rw [hxs] at hx
      rw [Action.bind_of_ok (Action.attempt_of_ok hxs)]
      refine hf _ s' hx.1 fun a' h => ?_
      obtain rfl := Except.ok.inj h
      exact hx.2
  | error fault s' =>
      rw [hxs] at hx
      rw [Action.bind_of_ok (Action.attempt_of_error hxs)]
      exact hf _ s' hx nofun
  | exhausted =>
      rw [hxs] at hx
      exact hx.elim

/-- If both actions finish, so does the whole, in a session that the second one leaves. -/
theorem thenAlways_finishes {K K' : Session → Prop} {Q : α → Prop} (hx : (x s).Finishes K Q)
    (hafter : ∀ s', K s' → (after s').Finishes K' fun _ => True) :
    (thenAlways x after s).Finishes K' Q := by
  refine attempt_bind_finishes hx fun result s' hs' hresult => ?_
  refine attempt_bind_finishes (hafter s' hs') fun finished s'' hs'' _ => ?_
  cases result with
  | ok a =>
      cases finished with
      | ok _ => exact ⟨hs'', hresult a rfl⟩
      | error fault => exact hs''
  | error fault => exact hs''

theorem exitScope_finishing (line : Nat) : (exitScope line).Finishing fun _ => True := by
  intro s hs
  rw [exitScope]
  cases s.scopes.exit with
  | ok scopes => exact ⟨hs.advances_with hs.classes scopes s.console, trivial⟩
  | error cause => exact hs.advances

/-- A call that ends leaves the calls that were in progress when it started. -/
theorem exitCall_finishes {s s' : Session} {frame : CallFrame} (h : (s.called frame).Advances s')
    (line : Nat) : (exitCall line s').Finishes s.Advances fun _ => True := by
  have hexit := exitScope_finishing line s' h.loopFree
  have hback (s'' : Session) (h' : s'.Advances s'') :
      s.Advances { s'' with calls := s''.calls.tail } := by
    have hall := h.trans h'
    refine ⟨⟨hall.loopFree.functions, hall.loopFree.classes, hall.loopFree.modules⟩, ?_,
      hall.included, hall.loader⟩
    rw [hall.calls]
    rfl
  refine attempt_bind_finishes hexit fun exited s'' hs'' _ => ?_
  cases exited with
  | ok _ => exact ⟨hback s'' hs'', trivial⟩
  | error fault => exact hback s'' hs''

end Eval

/-! ## Settled runs -/

/-- Runs of enough fuel all end in the same way: with a value that satisfies `Q` or an error. -/
def Settles {α : Type} (s : Session) (X : Nat → Eval α) (Q : α → Prop) : Prop :=
  ∃ o, o.Finishes s.Advances Q ∧ ∃ N, ∀ n, N ≤ n → X n s = o

namespace Settles

variable {α β : Type} {s : Session} {X : Nat → Eval α} {Q : α → Prop}

theorem of_finishing {x : Eval α} (h : x.Finishing Q) (hs : s.LoopFree) :
    Settles s (fun _ => x) Q :=
  ⟨x s, h s hs, 0, fun _ _ => rfl⟩

theorem bind {F : Nat → α → Eval β} {Q' : β → Prop} (hX : Settles s X Q)
    (hF : ∀ a s', s.Advances s' → Q a → Settles s' (fun n => F n a) Q') :
    Settles s (fun n => X n >>= F n) Q' := by
  obtain ⟨o, ho, N, hN⟩ := hX
  cases o with
  | ok a s' =>
      obtain ⟨o', ho', N', hN'⟩ := hF a s' ho.1 ho.2
      refine ⟨o', ho'.mono (fun _ => ho.1.trans) fun _ h => h, max N N', fun n hn => ?_⟩
      exact (Action.bind_of_ok (hN n (Nat.le_trans (Nat.le_max_left N N') hn))).trans
        (hN' n (Nat.le_trans (Nat.le_max_right N N') hn))
  | error fault s' => exact ⟨.error fault s', ho, N, fun n hn => Action.bind_of_error (hN n hn)⟩
  | exhausted => exact ho.elim

theorem attempt (hX : Settles s X Q) :
    Settles s (fun n => Action.attempt (X n)) fun _ => True := by
  obtain ⟨o, ho, N, hN⟩ := hX
  cases o with
  | ok a s' =>
      exact ⟨.ok (.ok a) s', ⟨ho.1, trivial⟩, N, fun n hn => Action.attempt_of_ok (hN n hn)⟩
  | error fault s' =>
      exact ⟨.ok (.error fault) s', ⟨ho, trivial⟩, N,
        fun n hn => Action.attempt_of_error (hN n hn)⟩
  | exhausted => exact ho.elim

/-- Blocks and calls: the body settles in the session `s'` in which it starts, and a fixed action
always follows. -/
theorem thenAlways {s' : Session} (hX : Settles s' X Q) {after : Eval Unit}
    (hafter : ∀ s'', s'.Advances s'' → (after s'').Finishes s.Advances fun _ => True) :
    ∃ o, o.Finishes s.Advances Q ∧ ∃ N, ∀ n, N ≤ n → Eval.thenAlways (X n) after s' = o := by
  obtain ⟨o, ho, N, hN⟩ := hX
  refine ⟨Eval.thenAlways (fun _ => o) after s', ?_, N, fun n hn => ?_⟩
  · exact Eval.thenAlways_finishes ho hafter
  · exact Eval.thenAlways_congr (hN n hn)

theorem inScope (line : Nat) (hX : Settles s.entered X Q) (hs : s.LoopFree) :
    Settles s (fun n => Eval.inScope line (X n)) Q := by
  refine hX.thenAlways fun s' h => ?_
  refine (Eval.exitScope_finishing line s' h.loopFree).mono (fun s'' h' => ?_) fun _ h => h
  have hentered : s.Advances s.entered := hs.advances_with hs.classes _ _
  exact hentered.trans (h.trans h')

theorem withFrame (frame : CallFrame) (line : Nat) (hs : s.LoopFree)
    (hX : s.calls.length < maxCallDepth → Settles (s.called frame) X Q) :
    Settles s (fun n => Eval.withFrame frame line (X n)) Q := by
  rcases Nat.lt_or_ge s.calls.length maxCallDepth with hlt | hge
  · obtain ⟨o, ho, N, hN⟩ := (hX hlt).thenAlways fun s' h => Eval.exitCall_finishes h line
    exact ⟨o, ho, N, fun n hn => (Eval.withFrame_of_lt hlt frame line (X n)).trans (hN n hn)⟩
  · exact ⟨.error { cause := .stackOverflow maxCallDepth, line } s, hs.advances, 0,
      fun n _ => Eval.withFrame_of_le hge frame line (X n)⟩

/-- Only the module's own path is forgotten, which was not there before it started. -/
theorem forgetting_finishes {path : String} (hnew : s.included.contains path = false)
    {o : Outcome Session Fault Unit}
    (h : o.Finishes (Session.Advances { s with included := path :: s.included }) fun _ => True) :
    (o.forgetting path).Finishes s.Advances fun _ => True := by
  have hincluded (s' : Session)
      (h : Session.Advances { s with included := path :: s.included } s') :
      s.included ⊆ s'.included :=
    fun _ hmem => h.included (List.mem_cons_of_mem _ hmem)
  cases o with
  | ok _ s' =>
      exact ⟨⟨h.1.loopFree, h.1.calls, hincluded s' h.1, h.1.loader⟩, trivial⟩
  | error fault s' =>
      refine ⟨⟨h.loopFree.functions, h.loopFree.classes, h.loopFree.modules⟩, h.calls, ?_,
        h.loader⟩
      intro other hmem
      have hne : other ≠ path := by
        rintro rfl
        rw [List.contains_eq_mem, decide_eq_false_iff_not] at hnew
        exact hnew hmem
      exact (List.mem_erase_of_ne hne).mpr (hincluded s' h hmem)
  | exhausted => exact h.elim

/-- A module uses up its path. -/
theorem includeModule {run : Nat → Interpreter} (path : String) (line : Nat) (hs : s.LoopFree)
    (hprogram : ∀ program, s.loader path = .ok program → s.included.contains path = false →
      Settles { s with included := path :: s.included } (fun n => (run n).execProgram program)
        fun _ => True) :
    Settles s (fun n => (run n).includeModule path line) fun _ => True := by
  cases hnew : s.included.contains path with
  | true =>
      exact ⟨.ok () s, ⟨hs.advances, trivial⟩, 0,
        fun n _ => (run n).includeModule_of_included line hnew⟩
  | false =>
      cases hload : s.loader path with
      | error problem =>
          exact ⟨.error { cause := .inclusion path problem, line } s, hs.advances, 0,
            fun n _ => (run n).includeModule_of_unserved line hnew hload⟩
      | ok program =>
          obtain ⟨o, ho, N, hN⟩ := hprogram program hload hnew
          refine ⟨o.forgetting path, forgetting_finishes hnew ho, N, fun n hn => ?_⟩
          have hrun : (run n).execProgram program { s with included := path :: s.included } = o :=
            hN n hn
          exact ((run n).includeModule_of_new line hnew hload).trans (hrun ▸ rfl)

/-- Runs that settle with one more unit of fuel settle. -/
theorem of_succ (h : Settles s (fun n => X (n + 1)) Q) : Settles s X Q := by
  obtain ⟨o, ho, N, hN⟩ := h
  refine ⟨o, ho, N + 1, fun n hn => ?_⟩
  obtain ⟨k, rfl⟩ := Nat.exists_eq_add_of_le' hn
  exact hN (k + N) (Nat.le_add_left N k)

end Settles

/-! ## Settling as a regime -/

/-- The session is loop-free, its loader has programs under these paths only, and at most `m` more
calls and modules are left to it. -/
structure Session.Within (paths : List String) (m : Nat) (s : Session) : Prop where
  loopFree : s.LoopFree
  serves : s.loader.Serves paths
  budget_le : s.budget paths ≤ m

namespace Session.Within

variable {paths : List String} {m : Nat} {s s' : Session}

theorem advance (h : s.Within paths m) (hadv : s.Advances s') : s'.Within paths m :=
  ⟨hadv.loopFree, hadv.loader ▸ h.serves, Nat.le_trans hadv.budget_le h.budget_le⟩

theorem call (h : s.Within paths m) (hlt : s.calls.length < maxCallDepth) (frame : CallFrame) :
    (s.called frame).budget paths < m ∧
      (s.called frame).Within paths ((s.called frame).budget paths) := by
  refine ⟨Nat.lt_of_lt_of_le (budget_called hlt frame) h.budget_le, ?_, h.serves, Nat.le_refl _⟩
  exact ⟨h.loopFree.functions, h.loopFree.classes, h.loopFree.modules⟩

theorem including (h : s.Within paths m) {path : String} {program : Program}
    (hload : s.loader path = .ok program) (hnew : s.included.contains path = false) :
    budget paths { s with included := path :: s.included } < m ∧
      Within paths (budget paths { s with included := path :: s.included })
        { s with included := path :: s.included } := by
  have hlt := budget_including (h.serves path program hload) hnew
  refine ⟨Nat.lt_of_lt_of_le hlt h.budget_le, ?_, h.serves, Nat.le_refl _⟩
  exact ⟨h.loopFree.functions, h.loopFree.classes, h.loopFree.modules⟩

end Session.Within

/-- Runs settle in all sessions that have at most so many calls and modules left. -/
def settling (paths : List String) : Regime Nat where
  loops := False
  Level := Nat
  Under := (· < ·)
  Rel m _ X Q := ∀ s : Session, s.Within paths m → Settles s X Q

namespace settling

variable {paths : List String}

theorem laws (paths : List String) : (settling paths).Laws where
  under_trans := Nat.lt_trans
  step _ hx s hs := .of_finishing (hx.resolve_left id) hs.loopFree
  findFunction name s hs := .of_finishing (Eval.findFunction_finishing name) hs.loopFree
  declareFunction hdecl s hs :=
    .of_finishing (Eval.declareFunction_finishing (hdecl.resolve_left id)) hs.loopFree
  bind hX hF s hs := (hX s hs).bind fun a s' hadv ha => hF a (.inr ha) s' (hs.advance hadv)
  inScope line hX s hs := by
    have hentered : s.Advances s.entered :=
      hs.loopFree.advances_with hs.loopFree.classes _ s.console
    exact .inScope line (hX s.entered (hs.advance hentered)) hs.loopFree
  withFrame frame line hX s hs := by
    -- Within the limit a call has one call less left; beyond it there is nothing to run.
    refine .withFrame frame line hs.loopFree fun hlt => ?_
    obtain ⟨hm, hcalled⟩ := hs.call hlt frame
    exact hX _ hm (s.called frame) hcalled

theorem attempt_goes {α : Type} {m : Nat} {X : Nat → Eval α} (h : (settling paths).Goes m X) :
    (settling paths).Goes m fun n => Action.attempt (X n) :=
  fun s hs => (h s hs).attempt

/-- A module runs at a lower level, since it uses up its path. -/
theorem includeModule_goes {run : Nat → Interpreter} {m z : Nat}
    (hrun : (settling paths).Below run m z) (path : String) (line : Nat) :
    (settling paths).Goes m fun n => (run n).includeModule path line := by
  have L := laws paths
  intro s hs
  refine .includeModule path line hs.loopFree fun program hload hnew => ?_
  obtain ⟨hm, hincluding⟩ := hs.including hload hnew
  have hprogram := hs.loopFree.modules hload
  exact L.execProgram_goes (hrun.descend L hm _) (.inr ⟨Nat.le_refl _, hprogram⟩) _ hincluding

theorem goes_of_succ {α : Type} {m : Nat} {X : Nat → Eval α}
    (h : (settling paths).Goes m fun n => X (n + 1)) : (settling paths).Goes m X :=
  fun s hs => (h s hs).of_succ

/-- All loop-free code settles: the induction is on the calls and modules left, and for each number
of them on the size of the code. -/
theorem interpreter_runs (m z : Nat) : (settling paths).Runs interpreter m z := by
  have L := laws paths
  induction m using Nat.strongRecOn generalizing z with
  | ind m ihm =>
  induction z using Nat.strongRecOn with
  | ind z ihz =>
  -- Calls and modules run code of any size, so the induction on `m` comes first.
  have hunder (m' : Nat) (hm : m' < m) (z' : Nat) := ihm m' hm z'
  refine ⟨fun e expected hsize => ?_, fun statement h => ?_, fun c hc => ?_⟩
  · refine goes_of_succ (X := fun n => (interpreter n).eval e expected) ?_
    exact L.evalStep_goes e ⟨ihz _ hsize, hunder⟩ expected
  · obtain ⟨hsize, hfree⟩ := h.resolve_left id
    have hrun : (settling paths).Below interpreter m (sizeOf statement) := ⟨ihz _ hsize, hunder⟩
    refine goes_of_succ (X := fun n => (interpreter n).exec statement) ?_
    refine L.execStep_goes statement (.inr hfree) hrun (fun h => h.elim) ?_ fun path line _ =>
      includeModule_goes hrun path line
    rintro body catches finalizer line rfl
    refine L.execTry_goes attempt_goes hrun.toRuns ?_ (.inr hfree) line
    simp only [Statement.tryCatch.sizeOf_spec]
    omega
  · refine goes_of_succ (X := fun n => (interpreter n).construct c) ?_
    exact L.constructStep_goes hunder c hc

end settling

end ClassScript
