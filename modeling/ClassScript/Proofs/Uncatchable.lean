import ClassScript.Proofs.Conduct.Programs
import ClassScript.Proofs.Regimes.Statements

/-!
# Uncatchable faults

A fault that no clause may catch ends the program, wherever it is raised: in a function, a method, a
constructor or a module, and under any number of `try` statements. Only a finalizer can get in its
way. A finalizer runs while the fault is pending, and if it does not end normally, its own end takes
the place of the fault.

That a fault is raised somewhere in a run, and that a finalizer takes its place, does not show in
how the run ends. Both are read off runs that go on only as long as it does not happen: one gives up
where a part of the program ends with the fault, the other where a finalizer that runs while the
fault is pending does not end normally.
-/

namespace ClassScript

/-! ## One fault among all -/

/-- The other fault is this one. Only uncatchable faults are told apart. -/
def Fault.identifies (fault other : Fault) : Bool :=
  fault.line == other.line &&
    match fault.cause, other.cause with
    | .controlFlowEscape jump, .controlFlowEscape jump' => jump == jump'
    | .scopeUnderflow, .scopeUnderflow => true
    | .stackOverflow depth, .stackOverflow depth' => depth == depth'
    | _, _ => false

namespace Fault

variable {fault other : Fault}

/-- A fault that is identified is the fault itself, which is uncatchable. -/
theorem eq_of_identifies (h : fault.identifies other = true) :
    other = fault ∧ fault.cause.isCatchable = false := by
  obtain ⟨cause, line⟩ := fault
  obtain ⟨cause', line'⟩ := other
  simp only [identifies, Bool.and_eq_true, beq_iff_eq] at h
  obtain ⟨rfl, hcause⟩ := h
  split at hcause
  · obtain rfl := beq_iff_eq.mp hcause
    exact ⟨rfl, rfl⟩
  · exact ⟨rfl, rfl⟩
  · obtain rfl := beq_iff_eq.mp hcause
    exact ⟨rfl, rfl⟩
  · cases hcause

theorem identifies_self (h : fault.cause.isCatchable = false) : fault.identifies fault = true := by
  obtain ⟨cause, line⟩ := fault
  cases cause with
  | controlFlowEscape | scopeUnderflow | stackOverflow => simp [identifies]
  | _ => cases h

end Fault

/-! ## Runs that give up -/

/-- The outcome, unless it is the fault. -/
def Outcome.stopAt {α : Type} (fault : Fault) :
    Outcome Session Fault α → Outcome Session Fault α
  | .error other s => if fault.identifies other then .exhausted else .error other s
  | o => o

theorem Outcome.stopAt_eq_exhausted {α : Type} {fault : Fault}
    (hfault : fault.cause.isCatchable = false) {o : Outcome Session Fault α} (ho : o ≠ .exhausted) :
    o.stopAt fault = .exhausted ↔ ∃ s, o = .error fault s := by
  cases o with
  | ok a s => simp [stopAt]
  | error other s =>
      rw [stopAt]
      split
      next h =>
          obtain ⟨rfl, _⟩ := Fault.eq_of_identifies h
          simp
      next h =>
          have hne : other ≠ fault := by
            rintro rfl
            exact h (Fault.identifies_self hfault)
          simp [hne]
  | exhausted => exact absurd rfl ho

namespace Interpreter

/-- Gives up where a part of a program ends with the fault. -/
def stopping (fault : Fault) (run : Interpreter) : Interpreter where
  eval e expected s := (run.eval e expected s).stopAt fault
  exec statement s := (run.exec statement s).stopAt fault
  construct c s := (run.construct c s).stopAt fault

/-- What a `try` does after its body and its clauses. -/
def finish (run : Interpreter) (finalizer : Option (List Statement)) (line : Nat)
    (result : Except Fault Signal) : Eval Signal := do
  match finalizer with
  | none => Action.ofExcept result
  | some statements =>
    match ← Eval.inScope line (run.execAll statements) with
    | .normal => Action.ofExcept result
    | signal => return signal

theorem execTry_eq (run : Interpreter) (body : List Statement) (catches : List CatchClause)
    (finalizer : Option (List Statement)) (line : Nat) :
    run.execTry body catches finalizer line = (do
      let result ← Action.attempt (Eval.inScope line (run.execAll body))
      let result ← Action.attempt (run.execCatches catches result)
      run.finish finalizer line result) :=
  rfl

/-- Gives up if the action does not end normally. -/
def expectNormal (x : Eval Signal) : Eval Unit := fun s =>
  match x s with
  | .ok .normal s => .ok () s
  | _ => .exhausted

/-- Gives up if the fault is pending and the finalizer does not end normally. -/
def finishKeeping (fault : Fault) (run : Interpreter) (finalizer : Option (List Statement))
    (line : Nat) (result : Except Fault Signal) : Eval Signal :=
  match finalizer, result with
  | some statements, .error other =>
    if fault.identifies other then do
      expectNormal (Eval.inScope line (run.execAll statements))
      Action.fail other
    else run.finish finalizer line result
  | _, _ => run.finish finalizer line result

def execTryKeeping (fault : Fault) (run : Interpreter) (body : List Statement)
    (catches : List CatchClause) (finalizer : Option (List Statement)) (line : Nat) :
    Eval Signal := do
  let result ← Action.attempt (Eval.inScope line (run.execAll body))
  let result ← Action.attempt (run.execCatches catches result)
  run.finishKeeping fault finalizer line result

/-- Runs programs one level deeper than `run`, and gives up where a finalizer takes the place of
the fault. -/
def nextKeeping (fault : Fault) (run : Interpreter) (fuel : Nat) : Interpreter where
  eval e expected := run.evalStep e expected
  exec statement :=
    match statement with
    | .tryCatch body catches finalizer line =>
      run.execTryKeeping fault body catches finalizer line
    | statement => run.execStep fuel statement
  construct c := run.constructStep c

theorem nextKeeping_exec {fault : Fault} {run : Interpreter} {fuel : Nat} {statement : Statement}
    (h : ∀ body catches finalizer line, statement ≠ .tryCatch body catches finalizer line) :
    (run.nextKeeping fault fuel).exec statement = run.execStep fuel statement := by
  change (match statement with
    | .tryCatch body catches finalizer line =>
      run.execTryKeeping fault body catches finalizer line
    | statement => run.execStep fuel statement) = _
  split
  next body catches finalizer line => exact absurd rfl (h body catches finalizer line)
  next => rfl

end Interpreter

/-- The interpreter that gives up where a part of a program ends with the fault. -/
def interpreterStopping (fault : Fault) : Nat → Interpreter :=
  interpreterWrapped (·.stopping fault)

/-- The interpreter that gives up where a finalizer takes the place of the fault. -/
def interpreterKeeping (fault : Fault) : Nat → Interpreter
  | 0 => interpreter 0
  | fuel + 1 => (interpreterKeeping fault fuel).nextKeeping fault fuel

/-- The fault is raised in the run: the program or a part of it ends with the fault. -/
def Raises (fault : Fault) (fuel : Nat) (program : Program) (s : Session) : Prop :=
  ((interpreterStopping fault fuel).execProgram program s).stopAt fault = .exhausted

/-- The run finishes, and every finalizer that runs while the fault is pending ends normally. -/
def KeepsPending (fault : Fault) (fuel : Nat) (program : Program) (s : Session) : Prop :=
  (interpreterKeeping fault fuel).execProgram program s ≠ .exhausted

/-! ## How the three runs belong together -/

/-- The outcomes of a run, of the run that keeps the fault, and of the run that stops at it: the
second gave up, or all three agree, or the third gave up because the others end with the fault. -/
inductive Agree (fault : Fault) {α : Type} :
    (plain keeping stopping : Outcome Session Fault α) → Prop where
  | displaced (plain stopping : Outcome Session Fault α) : Agree fault plain .exhausted stopping
  | alike (o : Outcome Session Fault α) : Agree fault o o o
  | raised (s : Session) : Agree fault (.error fault s) (.error fault s) .exhausted

namespace Agree

variable {α β : Type} {fault : Fault} {x y z : Eval α} {s : Session}

theorem stopAt {p k t : Outcome Session Fault α} (h : Agree fault p k t) :
    Agree fault p k (t.stopAt fault) := by
  cases h with
  | displaced => exact .displaced _ _
  | alike =>
      cases p with
      | error other s =>
          rw [Outcome.stopAt]
          split
          next h =>
              obtain ⟨rfl, _⟩ := Fault.eq_of_identifies h
              exact .raised s
          next => exact .alike _
      | _ => exact .alike _
  | raised s => exact .raised s

theorem bind {f g h : α → Eval β} (hx : Agree fault (x s) (y s) (z s))
    (hf : ∀ a s, Agree fault (f a s) (g a s) (h a s)) :
    Agree fault ((x >>= f) s) ((y >>= g) s) ((z >>= h) s) := by
  generalize hxs : x s = p at hx
  generalize hys : y s = k at hx
  generalize hzs : z s = t at hx
  cases hx with
  | displaced =>
      rw [Action.bind_of_exhausted hys]
      exact .displaced _ _
  | alike =>
      cases p with
      | ok a s' =>
          rw [Action.bind_of_ok hxs, Action.bind_of_ok hys, Action.bind_of_ok hzs]
          exact hf a s'
      | error other s' =>
          rw [Action.bind_of_error hxs, Action.bind_of_error hys, Action.bind_of_error hzs]
          exact .alike _
      | exhausted =>
          rw [Action.bind_of_exhausted hys]
          exact .displaced _ _
  | raised s' =>
      rw [Action.bind_of_error hxs, Action.bind_of_error hys, Action.bind_of_exhausted hzs]
      exact .raised s'

/-- The rule for actions that see how `x` ended. If `x` ends with the fault, the run that stops at
it is over. -/
theorem attempt_bind {f g h : Except Fault α → Eval β} (hx : Agree fault (x s) (y s) (z s))
    (hf : ∀ result s, Agree fault (f result s) (g result s) (h result s))
    (hraised : ∀ s, Agree fault (f (.error fault) s) (g (.error fault) s) .exhausted) :
    Agree fault ((Action.attempt x >>= f) s) ((Action.attempt y >>= g) s)
      ((Action.attempt z >>= h) s) := by
  generalize hxs : x s = p at hx
  generalize hys : y s = k at hx
  generalize hzs : z s = t at hx
  cases hx with
  | displaced =>
      rw [Action.bind_of_exhausted (Action.attempt_of_exhausted hys)]
      exact .displaced _ _
  | alike =>
      cases p with
      | ok a s' =>
          rw [Action.bind_of_ok (Action.attempt_of_ok hxs),
            Action.bind_of_ok (Action.attempt_of_ok hys),
            Action.bind_of_ok (Action.attempt_of_ok hzs)]
          exact hf (.ok a) s'
      | error other s' =>
          rw [Action.bind_of_ok (Action.attempt_of_error hxs),
            Action.bind_of_ok (Action.attempt_of_error hys),
            Action.bind_of_ok (Action.attempt_of_error hzs)]
          exact hf (.error other) s'
      | exhausted =>
          rw [Action.bind_of_exhausted (Action.attempt_of_exhausted hys)]
          exact .displaced _ _
  | raised s' =>
      rw [Action.bind_of_ok (Action.attempt_of_error hxs),
        Action.bind_of_ok (Action.attempt_of_error hys),
        Action.bind_of_exhausted (Action.attempt_of_exhausted hzs)]
      exact hraised s'

/-- What always follows is the same in all three runs, and never takes the place of a fault. -/
theorem thenAlways (h : Agree fault (x s) (y s) (z s)) (after : Eval Unit) :
    Agree fault (Eval.thenAlways x after s) (Eval.thenAlways y after s)
      (Eval.thenAlways z after s) := by
  generalize hxs : x s = p at h
  generalize hys : y s = k at h
  generalize hzs : z s = t at h
  cases h with
  | displaced =>
      rw [Eval.thenAlways_of_exhausted hys]
      exact .displaced _ _
  | alike =>
      rw [Eval.thenAlways_congr (hys.trans hxs.symm), Eval.thenAlways_congr (hzs.trans hxs.symm)]
      exact .alike _
  | raised s' =>
      rw [Eval.thenAlways_of_exhausted hzs, Eval.thenAlways_congr (hys.trans hxs.symm),
        Eval.thenAlways, Action.bind_of_ok (Action.attempt_of_error hxs)]
      cases hafter : after s' with
      | ok _ s'' =>
          rw [Action.bind_of_ok (Action.attempt_of_ok hafter)]
          exact .raised s''
      | error _ s'' =>
          rw [Action.bind_of_ok (Action.attempt_of_error hafter)]
          exact .raised s''
      | exhausted =>
          rw [Action.bind_of_exhausted (Action.attempt_of_exhausted hafter)]
          exact .displaced _ _

theorem forgetting {p k t : Outcome Session Fault Unit} (h : Agree fault p k t) (path : String) :
    Agree fault (p.forgetting path) (k.forgetting path) (t.forgetting path) := by
  cases h with
  | displaced => exact .displaced _ _
  | alike => exact .alike _
  | raised s => exact .raised _

end Agree

/-! ## The comparison as a regime -/

/-- The runs that are compared. -/
inductive Watch where
  | plain
  | keeping
  | stopping

/-- The interpreters of the three runs. -/
def watched (fault : Fault) (fuel : Nat) : Watch → Interpreter
  | .plain => interpreter fuel
  | .keeping => interpreterKeeping fault fuel
  | .stopping => interpreterStopping fault fuel

/-- The three runs belong together, in every session. -/
def watching (fault : Fault) : Regime Watch where
  loops := True
  Level := Unit
  Under _ _ := True
  Rel _ _ X _ := ∀ s, Agree fault (X .plain s) (X .keeping s) (X .stopping s)

namespace watching

variable {α : Type} {fault : Fault}

theorem laws (fault : Fault) : (watching fault).Laws where
  under_trans _ _ := trivial
  step _ _ s := .alike _
  findFunction name s := .alike _
  declareFunction _ s := .alike _
  bind hX hF s := (hX s).bind fun a s' => hF a (.inl trivial) s'
  inScope line hX s := (hX s.entered).thenAlways (Eval.exitScope line)
  withFrame frame line hX s := by
    rcases Nat.lt_or_ge s.calls.length maxCallDepth with hlt | hge
    · simp only [Eval.withFrame_of_lt hlt]
      exact (hX () trivial (s.called frame)).thenAlways (Eval.exitCall line)
    · simp only [Eval.withFrame_of_le hge]
      exact .alike _

theorem includeModule_goes {run : Watch → Interpreter}
    (hrun : ∀ z, (watching fault).Below run () z) (path : String) (line : Nat) :
    (watching fault).Goes () fun i => (run i).includeModule path line := by
  intro s
  cases hnew : s.included.contains path with
  | true =>
      simp only [Interpreter.includeModule_of_included _ line hnew]
      exact .alike _
  | false =>
      cases hload : s.loader path with
      | error problem =>
          simp only [Interpreter.includeModule_of_unserved _ line hnew hload]
          exact .alike _
      | ok program =>
          simp only [Interpreter.includeModule_of_new _ line hnew hload]
          exact ((laws fault).execProgram_goes (hrun 0) (.inl trivial) _).forgetting path

/-! ## Try statements -/

variable {run : Watch → Interpreter} {z : Nat}

/-- The clauses pass on what they may not catch. -/
theorem execCatches_uncatchable (run : Interpreter) (hfault : fault.cause.isCatchable = false)
    (catches : List CatchClause) (s : Session) :
    run.execCatches catches (.error fault) s = .error fault s := by
  have hthrown : Interpreter.thrownValue? (.error fault) s.store = none := by
    rw [Interpreter.thrownValue?, hfault]
    rfl
  have hread : (Action.read fun s : Session =>
      Interpreter.thrownValue? (.error fault) s.store : Eval _) s = .ok none s := by
    rw [Action.read, hthrown]
  exact Action.bind_of_ok hread

theorem finishKeeping_of_ne {run : Interpreter} {result : Except Fault Signal}
    (h : result ≠ .error fault) (finalizer : Option (List Statement)) (line : Nat) :
    run.finishKeeping fault finalizer line result = run.finish finalizer line result := by
  unfold Interpreter.finishKeeping
  split
  next statements other =>
      have hidentifies : ¬ fault.identifies other = true := by
        intro hidentifies
        obtain ⟨rfl, _⟩ := Fault.eq_of_identifies hidentifies
        exact h rfl
      rw [if_neg hidentifies]
  next => rfl

/-- While the fault is pending, the finalizer gives up, or the fault outlives it in all runs. -/
theorem finish_pending (hfault : fault.cause.isCatchable = false)
    (hrun : (watching fault).Runs run () z) (finalizer : Option (List Statement)) (line : Nat)
    (s : Session) :
    (run .keeping).finishKeeping fault finalizer line (.error fault) s = .exhausted ∨
      ∃ s', (run .keeping).finishKeeping fault finalizer line (.error fault) s = .error fault s' ∧
        ∀ i, i ≠ .keeping →
          (run i).finish finalizer line (.error fault) s = .error fault s' := by
  cases finalizer with
  | none => exact .inr ⟨s, rfl, fun _ _ => rfl⟩
  | some statements =>
      have L := laws fault
      have hkeeping : (run .keeping).finishKeeping fault (some statements) line (.error fault) =
          Interpreter.expectNormal (Eval.inScope line ((run .keeping).execAll statements)) >>=
            fun _ => Action.fail fault :=
        if_pos (Fault.identifies_self hfault)
      have hgoes : Agree fault (Eval.inScope line ((run .plain).execAll statements) s)
          (Eval.inScope line ((run .keeping).execAll statements) s)
          (Eval.inScope line ((run .stopping).execAll statements) s) :=
        L.inScope line (L.execAll_goes hrun (.inl trivial)) s
      rw [hkeeping]
      generalize hp : Eval.inScope line ((run .plain).execAll statements) s = p at hgoes
      generalize hk : Eval.inScope line ((run .keeping).execAll statements) s = k at hgoes
      generalize ht : Eval.inScope line ((run .stopping).execAll statements) s = t at hgoes
      -- The run that keeps the fault gives up unless its finalizer ends normally, and then the
      -- finalizers of the other two do so too.
      cases hgoes with
      | displaced | raised =>
          refine .inl (Action.bind_of_exhausted ?_)
          rw [Interpreter.expectNormal, hk]
      | alike =>
          cases p with
          | ok signal s' =>
              cases signal with
              | normal =>
                  refine .inr ⟨s', ?_, fun i hi => ?_⟩
                  · refine Action.bind_of_ok (a := ()) ?_
                    rw [Interpreter.expectNormal, hk]
                  · cases i with
                    | plain => exact Action.bind_of_ok hp
                    | keeping => exact absurd rfl hi
                    | stopping => exact Action.bind_of_ok ht
              | _ =>
                  refine .inl (Action.bind_of_exhausted ?_)
                  rw [Interpreter.expectNormal, hk]
          | _ =>
              refine .inl (Action.bind_of_exhausted ?_)
              rw [Interpreter.expectNormal, hk]

/-- If the body or the clauses end with the fault, the run that stops at it is over. -/
theorem finish_raised (hfault : fault.cause.isCatchable = false)
    (hrun : (watching fault).Runs run () z) (finalizer : Option (List Statement)) (line : Nat)
    (s : Session) :
    Agree fault ((run .plain).finish finalizer line (.error fault) s)
      ((run .keeping).finishKeeping fault finalizer line (.error fault) s) .exhausted := by
  obtain hgone | ⟨s', hkeeping, hothers⟩ := finish_pending hfault hrun finalizer line s
  · rw [hgone]
    exact .displaced _ _
  · rw [hkeeping, hothers .plain nofun]
    exact .raised s'

theorem finish_agree (hfault : fault.cause.isCatchable = false)
    (hrun : (watching fault).Runs run () z) (finalizer : Option (List Statement)) (line : Nat)
    (result : Except Fault Signal) (s : Session) :
    Agree fault ((run .plain).finish finalizer line result s)
      ((run .keeping).finishKeeping fault finalizer line result s)
      ((run .stopping).finish finalizer line result s) := by
  have L := laws fault
  have hplain : (watching fault).Goes () fun i => (run i).finish finalizer line result := by
    cases finalizer with
    | none => exact L.harmless (.ofExcept fun _ _ => trivial)
    | some statements =>
        refine L.bind (L.inScope line (L.execAll_goes hrun (.inl trivial))) fun signal _ => ?_
        cases signal with
        | normal => exact L.harmless (.ofExcept fun _ _ => trivial)
        | _ => exact L.pure _
  by_cases hresult : result = .error fault
  · subst hresult
    obtain hgone | ⟨s', hkeeping, hothers⟩ := finish_pending hfault hrun finalizer line s
    · rw [hgone]
      exact .displaced _ _
    · rw [hkeeping, hothers .plain nofun, hothers .stopping nofun]
      exact .alike _
  · rw [finishKeeping_of_ne hresult]
    exact hplain s

/-- The three runs of a `try` belong together if those of its parts do. -/
theorem execTry_agree (hfault : fault.cause.isCatchable = false)
    (hrun : (watching fault).Runs run () z) (body : List Statement) (catches : List CatchClause)
    (finalizer : Option (List Statement)) (line : Nat) (s : Session) :
    Agree fault ((run .plain).execTry body catches finalizer line s)
      ((run .keeping).execTryKeeping fault body catches finalizer line s)
      ((run .stopping).execTry body catches finalizer line s) := by
  have L := laws fault
  rw [Interpreter.execTry_eq, Interpreter.execTry_eq]
  refine (L.inScope line (L.execAll_goes hrun (.inl trivial)) s).attempt_bind
    (fun result s₁ => ?_) fun s₁ => ?_
  · refine (L.execCatches_goes hrun (.inl trivial) result s₁).attempt_bind ?_ ?_
    · exact fun result s₂ => finish_agree hfault hrun finalizer line result s₂
    · exact fun s₂ => finish_raised hfault hrun finalizer line s₂
  · -- The body ended with the fault: the clauses pass it on, and only the finalizer is left.
    have hcatches (run : Interpreter) :=
      Action.attempt_of_error (execCatches_uncatchable run hfault catches s₁)
    rw [Action.bind_of_ok (hcatches _), Action.bind_of_ok (hcatches _)]
    exact finish_raised hfault hrun finalizer line s₁

/-- The three interpreters belong together on all code; the induction is on the fuel. -/
theorem watched_runs (hfault : fault.cause.isCatchable = false) (fuel z : Nat) :
    (watching fault).Runs (watched fault fuel) () z := by
  have L := laws fault
  induction fuel generalizing z with
  | zero =>
      exact ⟨fun _ _ _ _ => (Agree.alike _).stopAt, fun _ _ _ => (Agree.alike _).stopAt,
        fun _ _ _ => (Agree.alike _).stopAt⟩
  | succ fuel ih =>
      have hbelow (z : Nat) : (watching fault).Below (watched fault fuel) () z :=
        ⟨ih z, fun _ _ z' => ih z'⟩
      -- At each level the third run gives up over its own outcome, which `stopAt` allows for.
      refine ⟨fun e expected _ s => ?_, fun statement _ s => ?_, fun c _ s => ?_⟩
      · exact (L.evalStep_goes e (hbelow _) expected s).stopAt
      · by_cases htry : ∃ body catches finalizer line,
            statement = .tryCatch body catches finalizer line
        · obtain ⟨body, catches, finalizer, line, rfl⟩ := htry
          exact (execTry_agree hfault (ih 0) body catches finalizer line s).stopAt
        · have hother (body catches finalizer line) :
              statement ≠ .tryCatch body catches finalizer line :=
            fun h => htry ⟨body, catches, finalizer, line, h⟩
          have hstep := L.execStep_goes statement (.inl trivial) (hbelow _)
            (fun _ => ⟨fuel, rfl⟩) (fun _ _ _ _ h => (hother _ _ _ _ h).elim)
            (fun path line _ => includeModule_goes hbelow path line) s
          change Agree fault _ (((interpreterKeeping fault fuel).nextKeeping fault fuel).exec _ s) _
          rw [Interpreter.nextKeeping_exec hother]
          exact hstep.stopAt
      · exact (L.constructStep_goes (hbelow 0).under c (.inl trivial) s).stopAt

end watching

/-- An uncatchable fault that is raised anywhere in a run ends the program, and nothing else makes
the program end with it, if every finalizer that runs while the fault is pending ends normally. -/
theorem uncatchable_ends_program {fault : Fault} (hfault : fault.cause.isCatchable = false)
    {fuel : Nat} {program : Program} {s : Session} (hkept : KeepsPending fault fuel program s) :
    Raises fault fuel program s ↔ ∃ s', runProgram fuel program s = .error fault s' := by
  have hrun : (watching fault).Below (watched fault fuel) () 0 :=
    ⟨watching.watched_runs hfault fuel 0, fun _ _ z => watching.watched_runs hfault fuel z⟩
  have hagree : Agree fault (runProgram fuel program s)
      ((interpreterKeeping fault fuel).execProgram program s)
      ((interpreterStopping fault fuel).execProgram program s) :=
    (watching.laws fault).execProgram_goes hrun (.inl trivial) s
  unfold KeepsPending at hkept
  unfold Raises
  generalize runProgram fuel program s = p at hagree ⊢
  generalize (interpreterKeeping fault fuel).execProgram program s = k at hagree hkept
  generalize (interpreterStopping fault fuel).execProgram program s = t at hagree ⊢
  cases hagree with
  | displaced => exact absurd rfl hkept
  | alike => exact Outcome.stopAt_eq_exhausted hfault hkept
  | raised s' => exact ⟨fun _ => ⟨s', rfl⟩, fun _ => rfl⟩

/-- A function ends with `break`; the clause around its call does not catch that, and the finalizer
ends normally. -/
theorem uncatchable_ends_program_escape :
    let f : FunctionDecl :=
      { name := "f", params := [], returnType := .void, body := [.breakLoop 2], line := 1 }
    let g : FunctionDecl :=
      { name := "g", params := [], returnType := .void,
        body := [.tryCatch [.expression (.call "f" [] 5) 5] [⟨"e", none, [], 6⟩] (some []) 4],
        line := 3 }
    let program : Program := [.function f, .function g, .expression (.call "g" [] 8) 8]
    let s := Session.start (fun _ => .error .unknownModule) []
    let fault : Fault := { cause := .controlFlowEscape .breakLoop, line := 5 }
    fault.cause.isCatchable = false ∧ KeepsPending fault 9 program s ∧
      Raises fault 9 program s ∧ ∃ s', runProgram 9 program s = .error fault s' := by
  intro f g program s fault
  have hfault : fault.cause.isCatchable = false := rfl
  have hkept : KeepsPending fault 9 program s := nofun
  have hraised : Raises fault 9 program s := rfl
  exact ⟨hfault, hkept, hraised, (uncatchable_ends_program hfault hkept).mp hraised⟩

/-- An uncatchable fault does not always end the program: a finalizer that returns takes its
place. -/
theorem finalizer_displaces_uncatchable :
    let f : FunctionDecl :=
      { name := "f", params := [], returnType := .void, body := [.breakLoop 2], line := 1 }
    let g : FunctionDecl :=
      { name := "g", params := [], returnType := .int,
        body := [.tryCatch [.expression (.call "f" [] 5) 5] []
          (some [.returnValue (some (.literal (.int 1) 6)) 6]) 4],
        line := 3 }
    let program : Program := [.function f, .function g, .expression (.call "g" [] 8) 8]
    let s := Session.start (fun _ => .error .unknownModule) []
    let fault : Fault := { cause := .controlFlowEscape .breakLoop, line := 5 }
    fault.cause.isCatchable = false ∧ Raises fault 9 program s ∧
      ∃ s', runProgram 9 program s = .ok () s' := by
  intro f g program s fault
  exact ⟨rfl, rfl, _, rfl⟩

end ClassScript
