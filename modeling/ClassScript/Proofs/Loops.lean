import ClassScript.Proofs.Fuel
import ClassScript.Proofs.Isolation
import ClassScript.Proofs.Results

/-!
# `for` loops as `while` loops

A `for` loop is the block that runs the initial statement and then a `while` loop whose body ends
with the step. The two differ in their blocks only: the `while` loop opens one more for the step and
one around its body, and a block that binds nothing leaves no trace. This holds unless the body has
a `continue` for the loop, which would skip the step of the `while` loop.
-/

namespace ClassScript

/-! ## Statements without `continue` -/

mutual

/-- No `continue` in the statement is for a loop around it. -/
def Statement.Uncontinued : Statement → Prop
  | .continueLoop _ => False
  | .block statements _ => UncontinuedAll statements
  | .branch _ onTrue onFalse _ => onTrue.Uncontinued ∧ UncontinuedOptional onFalse
  | .forLoop initial _ _ _ _ => UncontinuedOptional initial
  | .switch _ cases fallback _ => UncontinuedCases cases ∧ UncontinuedBlock fallback
  | .tryCatch body catches finalizer _ =>
    UncontinuedAll body ∧ UncontinuedCatches catches ∧ UncontinuedBlock finalizer
  | .expression .. | .declare _ | .function _ | .classType _ | .interface _ | .enumeration _
  | .whileLoop .. | .doWhile .. | .breakLoop _ | .returnValue .. | .throwValue ..
  | .includeModule .. => True

def UncontinuedAll : List Statement → Prop
  | [] => True
  | statement :: rest => statement.Uncontinued ∧ UncontinuedAll rest

def UncontinuedOptional : Option Statement → Prop
  | some statement => statement.Uncontinued
  | none => True

def UncontinuedBlock : Option (List Statement) → Prop
  | some statements => UncontinuedAll statements
  | none => True

def UncontinuedCases : List SwitchCase → Prop
  | [] => True
  | ⟨_, body, _⟩ :: rest => UncontinuedAll body ∧ UncontinuedCases rest

def UncontinuedCatches : List CatchClause → Prop
  | [] => True
  | ⟨_, _, body, _⟩ :: rest => UncontinuedAll body ∧ UncontinuedCatches rest

end

theorem UncontinuedCases.of_mem {cases : List SwitchCase} (h : UncontinuedCases cases)
    {case : SwitchCase} (hmem : case ∈ cases) : UncontinuedAll case.body := by
  induction cases with
  | nil => cases hmem
  | cons first rest ih =>
      obtain ⟨_, _, _⟩ := first
      rcases List.mem_cons.mp hmem with rfl | hrest
      · exact h.1
      · exact ih h.2 hrest

theorem UncontinuedCatches.of_mem {catches : List CatchClause} (h : UncontinuedCatches catches)
    {clause : CatchClause} (hmem : clause ∈ catches) : UncontinuedAll clause.body := by
  induction catches with
  | nil => cases hmem
  | cons first rest ih =>
      obtain ⟨_, _, _, _⟩ := first
      rcases List.mem_cons.mp hmem with rfl | hrest
      · exact h.1
      · exact ih h.2 hrest

namespace Yields

variable {α : Type} {x : Eval α} {P : α → Prop}

theorem thenAlways (hx : Yields x P) (after : Eval Unit) : Yields (Eval.thenAlways x after) P :=
  hx.attempt.bind fun _ hresult => .after fun _ =>
    (Yields.ofExcept hresult).bind fun _ ha => .after fun _ => .pure ha

theorem inScope (hx : Yields x P) (line : Nat) : Yields (Eval.inScope line x) P :=
  .after fun _ => hx.thenAlways _

end Yields

/-- The action does not end with a `continue`. -/
abbrev Eval.Uncontinued (x : Eval Signal) : Prop := Yields x (· ≠ .continueLoop)

/-- A loop takes every `continue` of its body for its own. -/
theorem iterate_uncontinued (test : Eval Bool) (body : Eval Signal) (after : Eval Unit)
    (fuel : Nat) : (iterate test body after fuel).Uncontinued := by
  induction fuel with
  | zero => exact .outOfFuel
  | succ fuel ih =>
      refine .after fun go => ?_
      cases go with
      | false => exact .pure nofun
      | true =>
          refine .after fun signal => ?_
          cases signal with
          | normal | continueLoop => exact .after fun _ => ih
          | _ => exact .pure nofun

namespace Interpreter

variable {run : Interpreter}

theorem selectCase_mem (run : Interpreter) (subject : Value) (cases : List SwitchCase) :
    Yields (run.selectCase subject cases) fun found => ∀ case ∈ found, case ∈ cases := by
  induction cases with
  | nil => exact .pure nofun
  | cons case rest ih =>
      refine .after fun candidate => .after fun equal => ?_
      split
      · exact .some List.mem_cons_self
      · exact ih.mono fun _ h other hother => List.mem_cons_of_mem _ (h other hother)

variable (hrun : ∀ statement : Statement, statement.Uncontinued → (run.exec statement).Uncontinued)
include hrun

theorem execAll_uncontinued {statements : List Statement} (h : UncontinuedAll statements) :
    (run.execAll statements).Uncontinued := by
  induction statements with
  | nil => exact .pure nofun
  | cons statement rest ih =>
      refine (hrun statement h.1).bind fun signal hsignal => ?_
      cases signal with
      | normal => exact ih h.2
      | _ => exact .pure hsignal

theorem execBody_uncontinued {body : Statement} (h : body.Uncontinued) :
    (run.execBody body).Uncontinued := by
  cases body with
  | block statements line => exact (execAll_uncontinued hrun h).inScope line
  | _ => exact (hrun _ h).inScope _

theorem execBranch_uncontinued (condition : Expr) {onTrue : Statement} {onFalse : Option Statement}
    (htrue : onTrue.Uncontinued) (hfalse : UncontinuedOptional onFalse) (line : Nat) :
    (run.execBranch condition onTrue onFalse line).Uncontinued := by
  refine .after fun test => ?_
  split
  · exact execBody_uncontinued hrun htrue
  · cases onFalse with
    | some statement => exact execBody_uncontinued hrun hfalse
    | none => exact .pure nofun

theorem execFor_uncontinued (fuel : Nat) {initial : Option Statement}
    (h : UncontinuedOptional initial) (condition step : Option Expr) (body : Statement)
    (line : Nat) : (run.execFor fuel initial condition step body line).Uncontinued := by
  have hstart : (run.optionalStart initial).Uncontinued := by
    cases initial with
    | some statement => exact hrun statement h
    | none => exact .pure nofun
  refine Yields.inScope (hstart.bind fun signal hsignal => ?_) line
  cases signal with
  | normal => exact iterate_uncontinued _ _ _ fuel
  | _ => exact .pure hsignal

theorem execCase_uncontinued {body : List Statement} (h : UncontinuedAll body) (line : Nat) :
    (run.execCase body line).Uncontinued := by
  refine ((execAll_uncontinued hrun h).inScope line).bind fun signal hsignal => ?_
  cases signal with
  | breakLoop => exact .pure nofun
  | _ => exact .pure hsignal

theorem execSwitch_uncontinued (subject : Expr) {cases : List SwitchCase}
    {fallback : Option (List Statement)} (hcases : UncontinuedCases cases)
    (hfallback : UncontinuedBlock fallback) (line : Nat) :
    (run.execSwitch subject cases fallback line).Uncontinued := by
  refine .after fun v => (selectCase_mem run v cases).bind fun found hfound => ?_
  cases found with
  | some case => exact execCase_uncontinued hrun (hcases.of_mem (hfound case rfl)) case.line
  | none =>
      cases fallback with
      | some body => exact execCase_uncontinued hrun hfallback line
      | none => exact .pure nofun

/-- What the clauses pass on is the result of the body. -/
theorem execCatches_uncontinued {catches : List CatchClause} (h : UncontinuedCatches catches)
    {result : Except Fault Signal} (hresult : ∀ signal, result = .ok signal →
      signal ≠ .continueLoop) : (run.execCatches catches result).Uncontinued := by
  refine .after fun thrown? => ?_
  cases thrown? with
  | none => exact .ofExcept hresult
  | some v =>
      have hfind : Yields (Action.read fun s => findClause? catches v s.store : Eval _)
          fun found => ∀ clause ∈ found, clause ∈ catches :=
        .read fun _ _ => List.mem_of_find?_eq_some
      refine hfind.bind fun found hfound => ?_
      cases found with
      | none => exact .ofExcept hresult
      | some clause =>
          refine .after fun ty => Yields.inScope (.after fun _ => ?_) clause.line
          exact execAll_uncontinued hrun (h.of_mem (hfound clause rfl))

theorem execTry_uncontinued {body : List Statement} {catches : List CatchClause}
    {finalizer : Option (List Statement)} (hbody : UncontinuedAll body)
    (hcatches : UncontinuedCatches catches) (hfinalizer : UncontinuedBlock finalizer) (line : Nat) :
    (run.execTry body catches finalizer line).Uncontinued := by
  refine ((execAll_uncontinued hrun hbody).inScope line).attempt.bind fun result hresult => ?_
  refine (execCatches_uncontinued hrun hcatches hresult).attempt.bind fun result hresult => ?_
  cases finalizer with
  | none => exact .ofExcept hresult
  | some statements =>
      refine ((execAll_uncontinued hrun hfinalizer).inScope line).bind fun signal hsignal => ?_
      cases signal with
      | normal => exact .ofExcept hresult
      | _ => exact .pure hsignal

theorem execStep_uncontinued (fuel : Nat) {statement : Statement} (h : statement.Uncontinued) :
    (run.execStep fuel statement).Uncontinued := by
  cases statement with
  | block statements line => exact (execAll_uncontinued hrun h).inScope line
  | branch condition onTrue onFalse line =>
      exact execBranch_uncontinued hrun condition h.1 h.2 line
  | whileLoop condition body line => exact iterate_uncontinued _ _ _ fuel
  | doWhile body condition line =>
      refine .after fun signal => ?_
      cases signal with
      | normal | continueLoop => exact iterate_uncontinued _ _ _ fuel
      | _ => exact .pure nofun
  | forLoop initial condition step body line =>
      exact execFor_uncontinued hrun fuel h condition step body line
  | switch subject cases fallback line => exact execSwitch_uncontinued hrun subject h.1 h.2 line
  | continueLoop line => exact h.elim
  | returnValue value line =>
      cases value with
      | none => exact .pure nofun
      | some e => exact .after fun _ => .after fun _ => .pure nofun
  | tryCatch body catches finalizer line => exact execTry_uncontinued hrun h.1 h.2.1 h.2.2 line
  | breakLoop line => exact .pure nofun
  | _ => exact .after fun _ => .pure nofun

end Interpreter

theorem execute_uncontinued (fuel : Nat) {statement : Statement} (h : statement.Uncontinued) :
    (execute fuel statement).Uncontinued := by
  induction fuel generalizing statement with
  | zero => exact .outOfFuel
  | succ fuel ih => exact Interpreter.execStep_uncontinued (fun _ h => ih h) fuel h

/-! ## Loops under a header -/

/-- Runs a loop in a block that `start` opens. -/
def headed (line : Nat) (start : Eval Signal) (test : Eval Bool) (body : Eval Signal)
    (after : Eval Unit) (fuel : Nat) : Eval Signal :=
  Eval.inScope line do
    match ← start with
    | .normal => iterate test body after fuel
    | signal => return signal

theorem headed_approximates {start start' : Eval Signal} {test test' : Eval Bool}
    {body body' : Eval Signal} {after after' : Eval Unit} {n m : Nat} (line : Nat)
    (hstart : start.Approximates start') (htest : test.Approximates test')
    (hbody : body.Approximates body') (hafter : after.Approximates after') (h : n ≤ m) :
    (headed line start test body after n).Approximates
      (headed line start' test' body' after' m) := by
  refine Eval.Approximates.inScope (hstart.bind fun signal => ?_) line
  cases signal with
  | normal => exact .iterate htest hbody hafter h
  | _ => exact .refl _

/-- Runs what follows a statement unless that jumps away. -/
def followed (body : Eval Signal) (after : Eval Unit) : Eval Signal := do
  match ← body with
  | .normal => Interpreter.normally after
  | signal => return signal

/-- The step of a loop may stand in its body if no `continue` of the body skips it. -/
theorem iterate_followed {body : Eval Signal} (hbody : body.Uncontinued) (test : Eval Bool)
    (after : Eval Unit) (fuel : Nat) :
    iterate test (followed body after) (pure ()) fuel = iterate test body after fuel := by
  induction fuel with
  | zero => rfl
  | succ fuel ih =>
      funext s
      refine Action.bind_congr rfl fun go s₁ _ => ?_
      cases go with
      | false => rfl
      | true =>
          refine (congrFun (Action.bind_assoc body _ _) s₁).trans ?_
          refine Action.bind_congr rfl fun signal s₂ hsignal => ?_
          cases signal with
          | normal =>
              refine (congrFun (Action.bind_assoc after _ _) s₂).trans ?_
              refine Action.bind_congr rfl fun _ s₃ _ => ?_
              exact congrFun ih s₃
          -- A `continue` would go to the step on the right and past it on the left.
          | continueLoop => exact absurd rfl (hbody hsignal)
          | _ => rfl

/-! ## The expansion -/

/-- The block `{ initial; while (condition) { { body } step; } }`, all on one line. -/
def whileForm (initial : Option Statement) (condition step : Option Expr) (body : Statement)
    (line : Nat) : Statement :=
  let round := .block [body] line :: (step.map (Statement.expression · line)).toList
  let loop := .whileLoop (condition.getD (.literal (.bool true) line)) (.block round line) line
  .block (initial.toList ++ [loop]) line

namespace Interpreter

theorem execAll_singleton (run : Interpreter) (statement : Statement) :
    run.execAll [statement] = run.exec statement := by
  funext s
  change (run.exec statement >>= fun signal => _) s = _
  cases h : run.exec statement s with
  | ok signal s' =>
      rw [Action.bind_of_ok h]
      cases signal <;> rfl
  | error fault s' => rw [Action.bind_of_error h]
  | exhausted => rw [Action.bind_of_exhausted h]

open Discipline

variable (n : Nat) (body : Statement) (step : Option Expr) (line : Nat)

/-- A body in a further block runs as it would as the body of a loop. -/
theorem inScope_exec : ∃ m, n ≤ m ∧ m ≤ n + 1 ∧
    Eval.inScope line ((interpreter (n + 1)).exec body) = (interpreter m).execBody body := by
  have hrun := free_laws.interpreter_runs
  have hother (hnot : ∀ statements line, body ≠ .block statements line) :
      Eval.inScope line ((interpreter (n + 1)).exec body) =
        (interpreter (n + 1)).execBody body := by
    funext s
    have hline := ((hrun (n + 1)).exec (free_inv s.entered) body).toBinding.inScope_line line
      body.line
    cases body with
    | block statements line' => exact absurd rfl (hnot statements line')
    | _ => exact hline
  cases body with
  -- A loop opens the block of its body itself, which takes one unit of fuel less.
  | block statements line' =>
      refine ⟨n, Nat.le_refl n, Nat.le_succ n, funext fun s => ?_⟩
      have hblock := Laws.execBlock_conforms free_laws (hrun n) (free_inv s) statements line'
      exact hblock.inScope_eq line
  | _ => exact ⟨n + 1, Nat.le_succ n, Nat.le_refl _, hother nofun⟩

/-- One round of the `while` loop: its block binds nothing. -/
theorem execBody_round {m : Nat}
    (hm : Eval.inScope line ((interpreter (n + 1)).exec body) = (interpreter m).execBody body) :
    (interpreter (n + 2)).execBody
        (.block (.block [body] line :: (step.map (Statement.expression · line)).toList) line) =
      followed ((interpreter m).execBody body) ((interpreter (n + 1)).optionalStep step) := by
  have hblock : (interpreter (n + 2)).exec (.block [body] line) = (interpreter m).execBody body :=
    (congrArg (Eval.inScope line) (execAll_singleton _ body)).trans hm
  have hround : (interpreter (n + 2)).execAll
        (.block [body] line :: (step.map (Statement.expression · line)).toList) =
      followed ((interpreter m).execBody body) ((interpreter (n + 1)).optionalStep step) := by
    rw [execAll, hblock]
    cases step with
    | none => rfl
    | some step =>
        refine congrArg (_ >>= ·) (funext fun signal => ?_)
        cases signal with
        | normal =>
            refine (execAll_singleton _ _).trans ?_
            exact (Action.bind_assoc ((interpreter (n + 1)).eval step none) (fun _ => pure ())
              fun _ => pure Signal.normal).symm
        | _ => rfl
  have hrun := free_laws.interpreter_runs
  funext s
  refine (congrFun (congrArg (Eval.inScope line) hround) s).trans ?_
  refine Conforms.inScope_eq (D := free) (Q := free.Sig) ?_ line
  refine (Laws.execBody_conforms free_laws (hrun m) (free_inv s) body).bind
    fun signal s₁ _ hs₁ hsig => ?_
  cases signal with
  | normal =>
      exact (Laws.optionalStep_conforms (hrun (n + 1)) hs₁ step).bind fun _ _ _ hs₂ _ =>
        .pure hs₂ trivial
  | _ => exact .pure hs₁ hsig

end Interpreter

section MoreFuel

variable {n m : Nat} (h : n ≤ m)
include h

theorem optionalStart_approximates (initial : Option Statement) :
    ((interpreter n).optionalStart initial).Approximates
      ((interpreter m).optionalStart initial) := by
  cases initial with
  | some statement => exact execute_approximates h statement
  | none => exact .refl _

theorem optionalCondition_approximates (condition : Option Expr) (line : Nat) :
    ((interpreter n).optionalCondition condition line).Approximates
      ((interpreter m).optionalCondition condition line) := by
  cases condition with
  | some condition => exact (evaluate_approximates h condition none).bind fun _ => .refl _
  | none => exact .refl _

theorem optionalStep_approximates (step : Option Expr) :
    ((interpreter n).optionalStep step).Approximates ((interpreter m).optionalStep step) := by
  cases step with
  | some step => exact (evaluate_approximates h step none).bind fun _ => .refl _
  | none => exact .refl _

theorem execBody_approximates (body : Statement) :
    ((interpreter n).execBody body).Approximates ((interpreter m).execBody body) :=
  approximating.laws.execBody_goes (approximating.interpreter_runs h 0) (.inl trivial)

end MoreFuel

section

variable (initial : Option Statement) (condition step : Option Expr) {body : Statement}
  (hbody : body.Uncontinued) (line n : Nat)
include hbody

/-- The `while` form runs the same loop under the same header, with its parts deeper down. -/
theorem execute_whileForm : ∃ m, n ≤ m ∧ m ≤ n + 1 ∧
    execute (n + 4) (whileForm initial condition step body line) =
      headed line ((interpreter (n + 3)).optionalStart initial)
        ((interpreter (n + 2)).optionalCondition condition line)
        ((interpreter m).execBody body) ((interpreter (n + 1)).optionalStep step) (n + 2) := by
  obtain ⟨m, hle, hle', hm⟩ := Interpreter.inScope_exec n body line
  refine ⟨m, hle, hle', ?_⟩
  have huncontinued : ((interpreter m).execBody body).Uncontinued :=
    Interpreter.execBody_uncontinued (fun _ h => execute_uncontinued m h) hbody
  let round := .block [body] line :: (step.map (Statement.expression · line)).toList
  let condition' := condition.getD (.literal (.bool true) line)
  have htest : (interpreter (n + 2)).evalCondition condition' line =
      (interpreter (n + 2)).optionalCondition condition line := by
    cases condition <;> rfl
  have hloop : (interpreter (n + 3)).exec (.whileLoop condition' (.block round line) line) =
      iterate ((interpreter (n + 2)).optionalCondition condition line)
        ((interpreter m).execBody body) ((interpreter (n + 1)).optionalStep step) (n + 2) := by
    change iterate ((interpreter (n + 2)).evalCondition condition' line)
      ((interpreter (n + 2)).execBody (.block round line)) (pure ()) (n + 2) = _
    rw [htest, Interpreter.execBody_round n body step line hm, iterate_followed huncontinued]
  change Eval.inScope line ((interpreter (n + 3)).execAll _) = Eval.inScope line _
  rw [← hloop, ← Interpreter.execAll_singleton]
  cases initial <;> rfl

/-- Each form gets as far as the other with a little more fuel. -/
theorem forLoop_approximates_whileForm :
    (execute (n + 1) (.forLoop initial condition step body line)).Approximates
      (execute (n + 4) (whileForm initial condition step body line)) ∧
    (execute (n + 4) (whileForm initial condition step body line)).Approximates
      (execute (n + 4) (.forLoop initial condition step body line)) := by
  obtain ⟨m, hle, hle', hform⟩ := execute_whileForm initial condition step hbody line n
  have hfor (n : Nat) : execute (n + 1) (.forLoop initial condition step body line) =
      headed line ((interpreter n).optionalStart initial)
        ((interpreter n).optionalCondition condition line) ((interpreter n).execBody body)
        ((interpreter n).optionalStep step) n := rfl
  rw [hform, hfor n, hfor (n + 3)]
  constructor
  · exact headed_approximates line (optionalStart_approximates (by omega) initial)
      (optionalCondition_approximates (by omega) condition line) (execBody_approximates hle body)
      (optionalStep_approximates (by omega) step) (by omega)
  · exact headed_approximates line (.refl _)
      (optionalCondition_approximates (by omega) condition line)
      (execBody_approximates (by omega) body) (optionalStep_approximates (by omega) step) (by omega)

end

/-- A `for` loop whose body has no `continue` for it comes to the same as its `while` form, from
every session: the same signal or error in the same session, console included. One diverges exactly
if the other does. -/
theorem forLoop_eq_whileForm (initial : Option Statement) (condition step : Option Expr)
    (body : Statement) (line : Nat) (hbody : body.Uncontinued) (s : Session) :
    (∀ o, (Statement.forLoop initial condition step body line).ComesTo s o ↔
      (whileForm initial condition step body line).ComesTo s o) ∧
    ((Statement.forLoop initial condition step body line).Diverges s ↔
      (whileForm initial condition step body line).Diverges s) := by
  have hboth (o : Outcome Session Fault Signal) :
      (Statement.forLoop initial condition step body line).ComesTo s o ↔
        (whileForm initial condition step body line).ComesTo s o := by
    constructor
    · refine Statement.ComesTo.mono fun n => ⟨n + 4, ?_⟩
      exact (execute_approximates (Nat.le_succ n) _).trans
        (forLoop_approximates_whileForm initial condition step hbody line n).1
    · refine Statement.ComesTo.mono fun n => ⟨n + 4, ?_⟩
      exact (execute_approximates (Nat.le_add_right n 4) _).trans
        (forLoop_approximates_whileForm initial condition step hbody line n).2
  refine ⟨hboth, ?_⟩
  rw [Statement.diverges_iff, Statement.diverges_iff]
  exact forall_congr' fun o => not_congr (hboth o)

/-- `for (let i: int = 0 : : i = 1) if (true) { let i: int = 2; break; }` ends normally at the start
and leaves nothing behind, and so does its `while` form. -/
theorem forLoop_eq_whileForm_break :
    let s := Session.start (fun _ => .error .unknownModule) []
    let declared (value : Int64) : Statement :=
      .declare { name := "i", ty := .int, length := none,
                 initializer := some (.literal (.int value) 1), isConst := false, line := 1 }
    let step : Expr := .assign (.var "i") (.literal (.int 1) 1) 1
    let body : Statement :=
      .branch (.literal (.bool true) 1) (.block [declared 2, .breakLoop 1] 1) none 1
    body.Uncontinued ∧
      (Statement.forLoop (some (declared 0)) none (some step) body 1).ComesTo s (.ok .normal s) ∧
      (whileForm (some (declared 0)) none (some step) body 1).ComesTo s (.ok .normal s) := by
  intro s declared step body
  have hbody : body.Uncontinued := ⟨⟨trivial, trivial, trivial⟩, trivial⟩
  have hfor : (Statement.forLoop (some (declared 0)) none (some step) body 1).ComesTo s
      (.ok .normal s) := ⟨nofun, 9, rfl⟩
  exact ⟨hbody, hfor, ((forLoop_eq_whileForm _ none _ body 1 hbody s).1 _).mp hfor⟩

end ClassScript
