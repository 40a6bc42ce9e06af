import ClassScript.Proofs.Conduct.Statements

/-!
# Conduct of programs

Modules, whole programs and single statements conform to a lawful discipline if their parts do;
closing the circle by induction on the fuel, the interpreter itself does.

The induction shows more than what a run ends with. The interpreter may be replaced by any other
one in the sessions that the discipline's invariant excludes, and nothing changes: no part of a
program is ever run in such a session.
-/

namespace ClassScript

/-! ## Wrapped interpreters -/

namespace Interpreter

/-- Runs a part of a program as `other` does if the session it starts in is outside `P`. -/
def within (P : Session → Prop) [DecidablePred P] (other run : Interpreter) : Interpreter where
  eval e expected s := if P s then run.eval e expected s else other.eval e expected s
  exec statement s := if P s then run.exec statement s else other.exec statement s
  construct c s := if P s then run.construct c s else other.construct c s

/-- Runs programs one level deeper than `run`; loops go round at most `fuel` times. -/
def next (run : Interpreter) (fuel : Nat) : Interpreter where
  eval e expected := run.evalStep e expected
  exec statement := run.execStep fuel statement
  construct c := run.constructStep c

end Interpreter

/-- The interpreter with each of its levels put through `wrap`. -/
def interpreterWrapped (wrap : Interpreter → Interpreter) : Nat → Interpreter
  | 0 => wrap (interpreter 0)
  | fuel + 1 => wrap ((interpreterWrapped wrap fuel).next fuel)

/-- The interpreter that, at every level, runs as `other` does wherever a session is outside `P`. -/
def interpreterWithin (P : Session → Prop) [DecidablePred P] (other : Interpreter) :
    Nat → Interpreter :=
  interpreterWrapped (.within P other)

namespace Discipline

variable {D : Discipline} {run run' : Interpreter} {s : Session} {binds : Bool}

namespace Conforms

variable {α : Type} {x x' y : Eval α} {Q : Store → α → Prop}

/-- An action conforms that does what a conforming one does, in the session at hand. -/
theorem congr (h : D.Conforms binds s x y Q) (heq : x' s = x s) : D.Conforms binds s x' y Q := by
  obtain ⟨twin, ends⟩ := h
  rw [← heq] at twin ends
  exact ⟨twin, ends⟩

/-- Code that binds may stand only where code may bind. -/
theorem widen (h : D.Conforms binds s x y Q) {binds' : Bool}
    (hle : binds = true → binds' = true) : D.Conforms binds' s x y Q := by
  cases binds with
  | false => exact h.weaken binds'
  | true =>
      rw [hle rfl]
      exact h

end Conforms

namespace Laws

/-! ## Programs and modules -/

theorem forEach_conforms {declare declare' : Statement → Eval Unit} (hs : D.Inv s)
    (program : Program)
    (h : ∀ statement ∈ program, ∀ {s}, D.Inv s →
      D.Conforms binds s (declare statement) (declare' statement) fun _ _ => True) :
    D.Conforms binds s (Interpreter.forEach declare program)
      (Interpreter.forEach declare' program) fun _ _ => True := by
  induction program generalizing s with
  | nil => exact .pure hs trivial
  | cons statement rest ih =>
      refine (h statement List.mem_cons_self hs).bind fun _ s₁ _ hs₁ _ => ih hs₁ ?_
      intro other hother
      exact h other (List.mem_cons_of_mem _ hother)

theorem hoistFunction_conforms (L : D.Laws) (hs : D.Inv s) (statement : Statement) :
    D.Conforms false s (Interpreter.hoistFunction statement)
      (Interpreter.hoistFunction statement) fun _ _ => True := by
  unfold Interpreter.hoistFunction
  split
  · exact L.declareFunction_conforms hs _
  · exact .pure hs trivial

theorem hoistInterface_conforms (L : D.Laws) (hs : D.Inv s) (statement : Statement) :
    D.Conforms false s (Interpreter.hoistInterface statement)
      (Interpreter.hoistInterface statement) fun _ _ => True := by
  unfold Interpreter.hoistInterface
  split
  · exact L.declareInterface_conforms hs _
  · exact L.declareEnum_conforms hs _
  · exact .pure hs trivial

theorem hoistClass_conforms (L : D.Laws) (hrun : D.Runs run run') (hs : D.Inv s)
    (statement : Statement) :
    D.Conforms false s (run.hoistClass statement) (run'.hoistClass statement)
      fun _ _ => True := by
  unfold Interpreter.hoistClass
  split
  · exact L.declareClass_conforms hrun hs _
  · exact .pure hs trivial

/-- A jump out of the top level is a fault; only a thrown value is carried by it. -/
theorem err_escape (L : D.Laws) {st : Store} {signal : Signal} (hsig : D.Sig st signal)
    {cause : Cause} (h : Interpreter.escape? signal = some cause) : D.Err st cause := by
  cases signal with
  | normal => cases h
  | breakLoop | continueLoop | returned _ =>
      obtain rfl := Option.some.inj h
      exact L.err_ordinary rfl
  | thrown v =>
      obtain rfl := Option.some.inj h
      exact L.err_thrown.mpr hsig

theorem execTopLevel_conforms (L : D.Laws) (hrun : D.Runs run run') (hs : D.Inv s)
    (statement : Statement) :
    D.Conforms statement.binds s (run.execTopLevel statement) (run'.execTopLevel statement)
      fun _ _ => True := by
  unfold Interpreter.execTopLevel
  split
  · exact .pure hs trivial
  · refine (hrun.exec hs statement).bind fun signal s₁ _ hs₁ hsig => ?_
    cases hescape : Interpreter.escape? signal with
    | some cause => exact .raise hs₁ statement.line (L.err_escape hsig hescape)
    | none => exact .pure hs₁ trivial

/-- A program binds names in the innermost block if one of its statements does so directly. -/
theorem execProgram_conforms (L : D.Laws) (hrun : D.Runs run run') (hs : D.Inv s)
    (program : Program) :
    D.Conforms (program.any Statement.binds) s (run.execProgram program)
      (run'.execProgram program) fun _ _ => True := by
  refine (forEach_conforms hs program fun statement _ _ hs =>
    (L.hoistFunction_conforms hs statement).weaken _).bind fun _ s₁ _ hs₁ _ => ?_
  refine (forEach_conforms hs₁ program fun statement _ _ hs =>
    (L.hoistInterface_conforms hs statement).weaken _).bind fun _ s₂ _ hs₂ _ => ?_
  refine (forEach_conforms hs₂ program fun statement _ _ hs =>
    (L.hoistClass_conforms hrun hs statement).weaken _).bind fun _ s₃ _ hs₃ _ => ?_
  refine forEach_conforms hs₃ program fun statement hmem _ hs =>
    (L.execTopLevel_conforms hrun hs statement).widen fun hbinds => ?_
  exact List.any_eq_true.mpr ⟨statement, hmem, hbinds⟩

theorem includeModule_conforms (L : D.Laws) (hrun : D.Runs run run') (hs : D.Inv s)
    (path : String) (line : Nat) :
    D.Conforms true s (run.includeModule path line) (run'.includeModule path line)
      fun _ _ => True := by
  refine .readThen (fun _ => rfl) ?_
  split
  · exact .pure hs trivial
  refine L.askThen_conforms hs line (fun _ _ => rfl) (s.loadModule_answers path)
    fun program _ _ => ?_
  have hmark : D.Conforms true s (Action.update fun s => { s with included := path :: s.included })
      (Action.update fun s => { s with included := path :: s.included }) fun _ _ => True :=
    .update (fun _ => rfl) ⟨.refl _ _, rfl, .refl _⟩ (L.included hs) trivial
  refine hmark.bind fun _ s₁ _ hs₁ _ => ?_
  refine (L.execProgram_conforms hrun hs₁ program).toBinding.attempt.bind
    fun result s₂ _ hs₂ hresult => ?_
  cases result with
  | ok _ => exact .pure hs₂ trivial
  | error fault =>
      have hunmark : D.Conforms true s₂
          (Action.update fun s => { s with included := s.included.erase path })
          (Action.update fun s => { s with included := s.included.erase path })
          fun st _ => D.Err st fault.cause :=
        .update (fun _ => rfl) ⟨.refl _ _, rfl, .refl _⟩ (L.included hs₂) hresult
      exact hunmark.bind fun _ s₃ _ hs₃ hfault => .fail hs₃ hfault

/-! ## Statements -/

theorem execReturn_conforms (hrun : D.Runs run run') (hs : D.Inv s) (value : Option Expr) :
    D.Conforms false s (run.execReturn value) (run'.execReturn value) D.Sig := by
  cases value with
  | none => exact .pure hs trivial
  | some e =>
      refine .readThen (fun _ => rfl) ?_
      exact (hrun.eval hs e _).bind fun v s₁ _ hs₁ hv => .pure hs₁ hv

theorem execDeclaration_conforms (L : D.Laws) (hrun : D.Runs run run') (hs : D.Inv s)
    (decl : VariableDecl) :
    D.Conforms true s (run.execDeclaration decl) (run'.execDeclaration decl)
      fun _ _ => True :=
  (L.declaredValue_conforms hrun hs decl).toBinding.bind fun _ _ _ hs₁ hv =>
    L.declareVariable_conforms hs₁ hv decl.name decl.ty decl.isConst decl.line

theorem normally_conforms {x y : Eval Unit} (h : D.Conforms binds s x y fun _ _ => True) :
    D.Conforms binds s (Interpreter.normally x) (Interpreter.normally y) D.Sig :=
  h.bind fun _ _ _ hs₁ _ => .pure hs₁ trivial

theorem execStep_conforms (L : D.Laws) (hrun : D.Runs run run') (hs : D.Inv s) (fuel : Nat)
    (statement : Statement) :
    D.Conforms statement.binds s (run.execStep fuel statement) (run'.execStep fuel statement)
      D.Sig := by
  cases statement with
  | expression e _ => exact (hrun.eval hs e none).bind fun _ _ _ hs₁ _ => .pure hs₁ trivial
  | declare decl => exact normally_conforms (L.execDeclaration_conforms hrun hs decl)
  | function decl => exact normally_conforms (L.declareFunction_conforms hs decl)
  | classType decl => exact normally_conforms (L.declareClass_conforms hrun hs decl)
  | interface decl => exact normally_conforms (L.declareInterface_conforms hs decl)
  | enumeration decl => exact normally_conforms (L.declareEnum_conforms hs decl)
  | block statements line => exact L.execBlock_conforms hrun hs statements line
  | branch condition onTrue onFalse line =>
      exact L.execBranch_conforms hrun hs condition onTrue onFalse line
  | whileLoop condition body line => exact L.execWhile_conforms hrun hs fuel condition body line
  | doWhile body condition line => exact L.execDoWhile_conforms hrun hs fuel body condition line
  | forLoop initial condition step body line =>
      exact L.execFor_conforms hrun hs fuel initial condition step body line
  | switch subject cases fallback line =>
      exact L.execSwitch_conforms hrun hs subject cases fallback line
  | breakLoop | continueLoop => exact .pure hs trivial
  | returnValue value _ => exact execReturn_conforms hrun hs value
  | throwValue value _ => exact (hrun.eval hs value none).bind fun _ _ _ hs₁ hv => .pure hs₁ hv
  | tryCatch body catches finalizer line =>
      exact L.execTry_conforms hrun hs body catches finalizer line
  | includeModule path line => exact normally_conforms (L.includeModule_conforms hrun hs path line)

/-! ## The interpreter -/

theorem runs_zero : D.Runs (interpreter 0) (interpreter 0) :=
  ⟨fun _ _ _ => .outOfFuel, fun _ _ => .outOfFuel, fun _ _ _ _ _ => .outOfFuel⟩

theorem runs_next (L : D.Laws) (hrun : D.Runs run run') (fuel : Nat) :
    D.Runs (run.next fuel) (run'.next fuel) where
  eval hs e expected := L.evalStep_conforms hrun hs e expected
  exec hs statement := L.execStep_conforms hrun hs fuel statement
  construct hs c hbuilt hself hargs := L.constructStep_conforms hrun hs c hbuilt hself hargs

/-- An interpreter conforms that is wrapped, at every level, by what leaves conforming interpreters
conforming. -/
theorem interpreterWrapped_runs (L : D.Laws) {wrap : Interpreter → Interpreter}
    (hwrap : ∀ {run run'}, D.Runs run run' → D.Runs (wrap run) run') (fuel : Nat) :
    D.Runs (interpreterWrapped wrap fuel) (interpreter fuel) := by
  induction fuel with
  | zero => exact hwrap runs_zero
  | succ fuel ih => exact hwrap (L.runs_next ih fuel)

/-- Every expression, every statement and every construction conforms. -/
theorem interpreter_runs (L : D.Laws) (fuel : Nat) :
    D.Runs (interpreter fuel) (interpreter fuel) := by
  induction fuel with
  | zero => exact runs_zero
  | succ fuel ih => exact L.runs_next ih fuel

variable {P : Session → Prop} [DecidablePred P] {other : Interpreter}

/-- A session that observes the discipline is inside the guard, so the guard does nothing. -/
theorem runs_within (hrun : D.Runs run run') (hP : ∀ s, D.Inv s → P s) :
    D.Runs (.within P other run) run' where
  eval hs e expected := (hrun.eval hs e expected).congr (if_pos (hP _ hs))
  exec hs statement := (hrun.exec hs statement).congr (if_pos (hP _ hs))
  construct hs c hbuilt hself hargs :=
    (hrun.construct hs c hbuilt hself hargs).congr (if_pos (hP _ hs))

/-- No part of a program is ever run in a session outside the guard. -/
theorem interpreterWithin_runs (L : D.Laws) (hP : ∀ s, D.Inv s → P s) (other : Interpreter)
    (fuel : Nat) :
    D.Runs (interpreterWithin P other fuel) (interpreter fuel) :=
  L.interpreterWrapped_runs (runs_within · hP) fuel

end Laws

end Discipline

end ClassScript
