import ClassScript.Proofs.Coupling
import ClassScript.Proofs.Includes.Journal

/-!
# Modules run once

A session only keeps the paths of the modules it has included, and it forgets a path when its module
fails. To speak of all that happened to modules, the interpreter is run beside one that keeps a
journal in the place of those paths, and that decides by the journal what an `include` does. The two
do the same, and the paths are always the ones that the journal records; so what holds of every
orderly journal holds of every run.
-/

namespace ClassScript

/-! ## Keeping a journal -/

namespace Mark

def letter : Mark → Char
  | .skipped => 's'
  | .consulted => 'c'
  | .succeeded => 'd'
  | .failed => 'f'

def ofLetter? : Char → Option Mark
  | 's' => some .skipped
  | 'c' => some .consulted
  | 'd' => some .succeeded
  | 'f' => some .failed
  | _ => none

theorem ofLetter?_letter (mark : Mark) : ofLetter? mark.letter = some mark := by
  cases mark <;> rfl

end Mark

namespace Entry

/-- An entry as a text: a letter and the path. -/
def text (entry : Entry) : String := String.ofList (entry.mark.letter :: entry.path.toList)

def ofText? (text : String) : Option Entry :=
  match text.toList with
  | letter :: path => (Mark.ofLetter? letter).map fun mark => ⟨mark, String.ofList path⟩
  | [] => none

theorem ofText?_text (entry : Entry) : ofText? entry.text = some entry := by
  rw [ofText?, text, String.toList_ofList]
  change (Mark.ofLetter? entry.mark.letter).map _ = _
  rw [Mark.ofLetter?_letter, Option.map_some, String.ofList_toList]

end Entry

def journalOf (texts : List String) : Journal := texts.filterMap Entry.ofText?

namespace Session

/-- The journal that a session keeps in the place of its included modules. -/
def journal (s : Session) : Journal := journalOf s.included

/-- The session with one more entry in its journal. -/
def noted (s : Session) (entry : Entry) : Session :=
  { s with included := entry.text :: s.included }

theorem journal_noted (s : Session) (entry : Entry) :
    (s.noted entry).journal = entry :: s.journal :=
  List.filterMap_cons_some entry.ofText?_text

end Session

def note (mark : Mark) (path : String) : Eval Unit := Action.update fun s => s.noted ⟨mark, path⟩

namespace Interpreter

/-- Skips a module that has been started and has not failed. Runs any other one, and notes what
happens. -/
def includeNoting (run : Interpreter) (path : String) (line : Nat) : Eval Unit := do
  match ← Action.read fun s => s.journal.phase path with
  | .running | .done => note .skipped path
  | .absent =>
    note .consulted path
    let result ← Action.attempt do
      let program ← Eval.ask line (loadModule path)
      run.execProgram program
    match result with
    | .ok () => note .succeeded path
    | .error fault =>
      note .failed path
      Action.fail fault

end Interpreter

/-- The interpreter that keeps a journal. It leaves a part of a program to `other` if the journal is
not orderly when the part starts. -/
def interpreterNoting (other : Interpreter) : Nat → Interpreter
  | 0 => .within (fun s => s.journal.Orderly) other (interpreter 0)
  | fuel + 1 =>
    .within (fun s => s.journal.Orderly) other
      ((interpreterNoting other fuel).nextVia (interpreterNoting other fuel).includeNoting fuel)

/-! ## What the journaling interpreter does with a module -/

/-- How a module ends is noted. -/
def Outcome.concluded (path : String) :
    Outcome Session Fault Unit → Outcome Session Fault Unit
  | .ok a s => .ok a (s.noted ⟨.succeeded, path⟩)
  | .error fault s => .error fault (s.noted ⟨.failed, path⟩)
  | .exhausted => .exhausted

namespace Interpreter

variable {run : Interpreter} {path : String} {line : Nat} {t : Session}

/-- Asks the loader for a module and runs it, with its path among those included. -/
def loadAndRun (run : Interpreter) (path : String) (line : Nat) (s : Session) :
    Outcome Session Fault Unit :=
  match s.loader path with
  | .error problem => .error { cause := .inclusion path problem, line } s
  | .ok program =>
    (run.execProgram program { s with included := path :: s.included }).forgetting path

theorem includeModule_eq_loadAndRun {s : Session} (run : Interpreter) (line : Nat)
    (h : s.included.contains path = false) :
    run.includeModule path line s = run.loadAndRun path line s := by
  rw [loadAndRun]
  cases hload : s.loader path with
  | error problem => exact includeModule_of_unserved run line h hload
  | ok program => exact includeModule_of_new run line h hload

/-- A new path may as well be recorded before the loader is asked: if there is no program, it is
taken back. -/
theorem includeModule_eq {s : Session} (run : Interpreter) (line : Nat)
    (h : s.included.contains path = false) :
    run.includeModule path line s =
      ((Eval.ask line (loadModule path) >>= run.execProgram)
        { s with included := path :: s.included }).forgetting path := by
  cases hload : s.loader path with
  | error problem =>
      have hask : loadModule path { s with included := path :: s.included } =
          .error (.inclusion path problem) := by rw [loadModule, hload]
      rw [includeModule_of_unserved run line h hload,
        Action.bind_of_error (Eval.ask_of_error hask _), Outcome.forgetting, List.erase_cons_head]
  | ok program =>
      have hask : loadModule path { s with included := path :: s.included } = .ok program := by
        rw [loadModule, hload]
      rw [includeModule_of_new run line h hload, Action.bind_of_ok (Eval.ask_of_ok hask _)]

theorem includeNoting_of_started (h : t.journal.phase path ≠ .absent) :
    run.includeNoting path line t = .ok () (t.noted ⟨.skipped, path⟩) := by
  rw [includeNoting, Action.read_bind]
  cases hphase : t.journal.phase path with
  | absent => exact absurd hphase h
  | running | done => rfl

theorem includeNoting_of_absent (h : t.journal.phase path = .absent) :
    run.includeNoting path line t =
      ((Eval.ask line (loadModule path) >>= run.execProgram)
        (t.noted ⟨.consulted, path⟩)).concluded path := by
  rw [includeNoting, Action.read_bind, h]
  refine (Action.bind_of_ok rfl).trans ?_
  cases hbody : (Eval.ask line (loadModule path) >>= run.execProgram)
      (t.noted ⟨.consulted, path⟩) with
  | ok _ t' => exact Action.bind_of_ok (Action.attempt_of_ok hbody)
  | error fault t' => exact Action.bind_of_ok (Action.attempt_of_error hbody)
  | exhausted => exact Action.bind_of_exhausted (Action.attempt_of_exhausted hbody)

theorem phase_of_includeNoting_failed {fault : Fault} {t' : Session}
    (h : run.includeNoting path line t = .error fault t') : t'.journal.phase path = .absent := by
  by_cases hphase : t.journal.phase path = .absent
  · rw [includeNoting_of_absent hphase] at h
    generalize (Eval.ask line (loadModule path) >>= run.execProgram)
      (t.noted ⟨.consulted, path⟩) = o at h
    cases o with
    | error other t'' =>
        cases h
        rw [t''.journal_noted]
        exact Journal.phase_cons_self
    | _ => cases h
  · rw [includeNoting_of_started hphase] at h
    cases h

end Interpreter

/-! ## The two runs -/

/-- The second session keeps an orderly journal of the first one. -/
structure Session.Journaled (s t : Session) : Prop where
  orderly : t.journal.Orderly
  included : s.included = t.journal.recorded
  rest : t = { s with included := t.included }

def journaling : Coupling where
  Functions := Eq
  Included included texts :=
    (journalOf texts).Orderly ∧ included = (journalOf texts).recorded
  Since texts texts' := (journalOf texts).Keeps (journalOf texts')

namespace journaling

theorem laws : journaling.Laws where
  find? _ h := congrArg (Table.find? · _) h
  insert _ h _ := congrArg (Table.insert · _ _) h
  since_refl _ := .refl _
  since_trans := .trans

variable {s t s' t' : Session} {path : String} {line : Nat} {run run' : Interpreter}

theorem matches_iff : journaling.Matches s t ↔ s.Journaled t := by
  refine ⟨fun h => ⟨h.included.1, h.included.2, ?_⟩, fun h => ⟨?_, ⟨h.orderly, h.included⟩, ?_⟩⟩
  · have hrest := h.rest
    rw [← (show s.functions = t.functions from h.functions)] at hrest
    exact hrest
  · rw [h.rest]
    rfl
  · exact h.rest.trans (by rw [h.rest])

/-- Whatever the first session makes of its paths, one more entry in the journal keeps up with it
if the entry fits and records the same. -/
theorem matches_noted (h : journaling.Matches s t) (mark : Mark) {path : String}
    (hfits : mark.fits (t.journal.phase path) = true) {included : List String}
    (hincluded : included = Journal.recorded (⟨mark, path⟩ :: t.journal)) :
    journaling.Matches { s with included } (t.noted ⟨mark, path⟩) := by
  have hjournaled := matches_iff.mp h
  refine matches_iff.mpr ⟨?_, ?_, ?_⟩
  · rw [t.journal_noted]
    exact ⟨hfits, hjournaled.orderly⟩
  · rw [t.journal_noted]
    exact hincluded
  · rw [Session.noted, hjournaled.rest]

theorem keeps_noted (h : t.journal.Keeps t'.journal) (hpath : t.journal.phase path = .absent)
    (mark : Mark) : t.journal.Keeps (t'.noted ⟨mark, path⟩).journal := by
  rw [t'.journal_noted]
  exact h.absent hpath mark

/-- The paths of the first session are those of the modules that are not absent. -/
theorem contains_eq (h : s.Journaled t) (path : String) :
    s.included.contains path = decide (t.journal.phase path ≠ .absent) := by
  rw [List.contains_eq_mem, h.included]
  exact decide_eq_decide.mpr h.orderly.mem_recorded_iff

/-- A module that runs to its end: whatever it did to other modules, it is still running itself, and
then succeeds or fails. -/
theorem concluded_same (hphase : t.journal.phase path = .absent)
    {o o' : Outcome Session Fault Unit}
    (h : o.SameUpTo (fun s' t' => journaling.Matches s' t' ∧
      (t.noted ⟨.consulted, path⟩).journal.Keeps t'.journal) o') :
    (o.forgetting path).SameUpTo
      (fun s' t' => journaling.Matches s' t' ∧ t.journal.Keeps t'.journal)
      (o'.concluded path) := by
  have hkeeps : t.journal.Keeps (t.noted ⟨.consulted, path⟩).journal :=
    keeps_noted (.refl _) hphase .consulted
  have hrunning {t' : Session} (h' : (t.noted ⟨.consulted, path⟩).journal.Keeps t'.journal) :
      t'.journal.phase path = .running := by
    have hstarted : (t.noted ⟨.consulted, path⟩).journal.phase path = .running := by
      rw [t.journal_noted]
      exact Journal.phase_cons_self
    exact (h' path (by rw [hstarted]; nofun)).trans hstarted
  cases h with
  | ok a h' =>
      have hfits := decide_eq_true (hrunning h'.2)
      refine .ok a ⟨matches_noted h'.1 .succeeded hfits (matches_iff.mp h'.1).included, ?_⟩
      exact keeps_noted (hkeeps.trans h'.2) hphase .succeeded
  | error fault h' =>
      have hfits := decide_eq_true (hrunning h'.2)
      have hincluded := congrArg (List.erase · path) (matches_iff.mp h'.1).included
      refine .error fault ⟨matches_noted h'.1 .failed hfits hincluded, ?_⟩
      exact keeps_noted (hkeeps.trans h'.2) hphase .failed
  | exhausted => exact .exhausted

theorem includeModule_couples (hrun : ∀ z, journaling.regime.Runs (Coupling.sides run run') () z)
    (path : String) (line : Nat) :
    journaling.Couples (run.includeModule path line) (run'.includeNoting path line) := by
  intro s t h
  have hjournaled := matches_iff.mp h
  have hcontains := contains_eq hjournaled path
  by_cases hphase : t.journal.phase path = .absent
  · have hnew : s.included.contains path = false := by rw [hcontains, hphase]; rfl
    have hstart : journaling.Matches { s with included := path :: s.included }
        (t.noted ⟨.consulted, path⟩) :=
      matches_noted h .consulted (decide_eq_true hphase)
        (congrArg (path :: ·) hjournaled.included)
    rw [Interpreter.includeModule_eq run line hnew, Interpreter.includeNoting_of_absent hphase]
    refine concluded_same hphase ?_
    refine Coupling.Couples.bind laws ?_ (laws.execProgram_couples hrun) _ _ hstart
    exact .blind laws (.ask line fun _ _ _ => rfl)
  · have hknown : s.included.contains path = true := by
      rw [hcontains]
      exact decide_eq_true hphase
    rw [Interpreter.includeModule_of_included run line hknown,
      Interpreter.includeNoting_of_started hphase]
    refine .ok () ⟨matches_noted h .skipped (decide_eq_true hphase) hjournaled.included, ?_⟩
    have hskip := Journal.Keeps.skip t.journal path
    rw [← t.journal_noted] at hskip
    exact hskip

/-- The interpreter and the one that keeps a journal do the same; the induction is on the fuel. -/
theorem interpreter_runs (other : Interpreter) (fuel z : Nat) :
    journaling.regime.Runs
      (Coupling.sides (interpreter fuel) (interpreterNoting other fuel)) () z := by
  have horderly (s t : Session) (h : journaling.Matches s t) : t.journal.Orderly :=
    (matches_iff.mp h).orderly
  induction fuel generalizing z with
  | zero => exact Coupling.runs_within horderly laws.runs_zero z
  | succ fuel ih =>
      exact Coupling.runs_within horderly (laws.runs_next ih (includeModule_couples ih) fuel) z

/-- A module that fails is not recorded afterwards. -/
theorem not_mem_of_failed (hjournaled : s.Journaled t) {fuel : Nat} {fault : Fault}
    (hfailed : (interpreter fuel).includeModule path line s = .error fault s') :
    path ∉ s'.included := by
  have hsame := includeModule_couples (interpreter_runs (interpreter 0) fuel) path line s t
    (matches_iff.mpr hjournaled)
  rw [hfailed] at hsame
  generalize hnoting : (interpreterNoting (interpreter 0) fuel).includeNoting path line t = o
    at hsame
  cases hsame with
  | error _ h =>
      have hafter := matches_iff.mp h.1
      rw [hafter.included, hafter.orderly.mem_recorded_iff,
        Interpreter.phase_of_includeNoting_failed hnoting]
      exact fun h => h rfl

end journaling

/-! ## Sequences of programs -/

/-- A program that a host runs, with modules from this loader. -/
structure Turn where
  loader : Loader
  program : Program
  fuel : Nat

/-- Runs programs one after the other, whether they succeed or fail. -/
def runTurns (run : Nat → Interpreter) : List Turn → Eval Unit
  | [] => return ()
  | turn :: rest => do
    Action.update fun s => { s with loader := turn.loader }
    let _ ← Action.attempt ((run turn.fuel).execProgram turn.program)
    runTurns run rest

theorem journaling.runTurns_couples (other : Interpreter) (turns : List Turn) :
    journaling.Couples (runTurns interpreter turns)
      (runTurns (interpreterNoting other) turns) := by
  induction turns with
  | nil => exact .blind laws (.pure ())
  | cons turn rest ih =>
      refine (Coupling.Couples.blind laws (.update fun _ _ _ => rfl)).bind laws fun _ => ?_
      have hrun := interpreter_runs other turn.fuel
      exact (laws.execProgram_couples hrun turn.program).attempt.bind laws fun _ => ih

/-- Any sequence of programs does the same, in a fresh session, as under the interpreter that keeps
an orderly journal of all modules, and in an orderly journal no module succeeds twice.

When an `include` is executed, the journal decides what it does. A module that has succeeded or is
still running is skipped, whatever the loader, and nothing changes. Any other module is asked for
and run; if there is none or it fails, its path is not recorded afterwards, so the next `include`
asks for it again. -/
theorem includes_run_once (turns : List Turn) (loader : Loader) (input : List InputLine)
    (other : Interpreter) :
    (runTurns interpreter turns (.start loader input)).SameUpTo Session.Journaled
      (runTurns (interpreterNoting other) turns (.start loader input)) ∧
    (∀ journal : Journal, journal.Orderly → ∀ path, journal.count ⟨.succeeded, path⟩ ≤ 1) ∧
    ∀ s t : Session, s.Journaled t → ∀ fuel path line,
      (t.journal.phase path ≠ .absent → ∀ loader,
        (interpreter fuel).includeModule path line { s with loader } = .ok () { s with loader }) ∧
      (t.journal.phase path = .absent →
        (interpreter fuel).includeModule path line s =
          (interpreter fuel).loadAndRun path line s) ∧
      ∀ fault s', (interpreter fuel).includeModule path line s = .error fault s' →
        path ∉ s'.included ∧ ∀ fuel' line', (interpreter fuel').includeModule path line' s' =
          (interpreter fuel').loadAndRun path line' s' := by
  refine ⟨?_, fun journal h path => ?_, fun s t h fuel path line => ⟨?_, ?_, ?_⟩⟩
  · have hstart : Session.Journaled (.start loader input) (.start loader input) :=
      ⟨trivial, rfl, rfl⟩
    have hsame := journaling.runTurns_couples other turns _ _ (journaling.matches_iff.mpr hstart)
    exact hsame.mono fun s t h => journaling.matches_iff.mp h.1
  · rw [h.count_succeeded]
    split <;> omega
  · intro hphase loader
    refine Interpreter.includeModule_of_included _ line ?_
    exact (journaling.contains_eq h path).trans (decide_eq_true hphase)
  · intro hphase
    refine Interpreter.includeModule_eq_loadAndRun _ line ?_
    rw [journaling.contains_eq h path, hphase]
    rfl
  · intro fault s' hfailed
    have hnew := journaling.not_mem_of_failed h hfailed
    refine ⟨hnew, fun fuel' line' => Interpreter.includeModule_eq_loadAndRun _ line' ?_⟩
    rw [List.contains_eq_mem]
    exact decide_eq_false hnew

/-- Two modules that include each other, and one that fails, is caught, and succeeds under another
loader: the journal of the two programs. -/
theorem includes_run_once_cyclic :
    let modules (retried : Program) : Loader := fun path =>
      if path = "a" then .ok [.includeModule "b" 1]
      else if path = "b" then .ok [.includeModule "a" 1]
      else if path = "c" then .ok retried
      else .error .unknownModule
    let program : Program :=
      [.includeModule "a" 1, .tryCatch [.includeModule "c" 2] [⟨"e", none, [], 3⟩] none 2,
        .includeModule "b" 4]
    let turns : List Turn :=
      [⟨modules [.throwValue (.literal (.int 1) 1) 1], program, 9⟩,
        ⟨modules [], [.includeModule "c" 1], 9⟩]
    let run := runTurns (interpreterNoting (interpreter 0)) turns (.start (modules []) [])
    run.isOk = true ∧
      run.Ends (fun _ t => t.journal =
        [⟨.succeeded, "c"⟩, ⟨.consulted, "c"⟩, ⟨.skipped, "b"⟩, ⟨.failed, "c"⟩, ⟨.consulted, "c"⟩,
          ⟨.succeeded, "a"⟩, ⟨.succeeded, "b"⟩, ⟨.skipped, "a"⟩, ⟨.consulted, "b"⟩,
          ⟨.consulted, "a"⟩]) (fun _ _ => False) ∧
      (runTurns interpreter turns (.start (modules []) [])).SameUpTo Session.Journaled run := by
  intro modules program turns run
  refine ⟨by decide +kernel, by decide +kernel, ?_⟩
  exact (includes_run_once turns (modules []) [] (interpreter 0)).1

end ClassScript
