import ClassScript.Proofs.Regimes.Expressions

/-!
# Statements and programs under a regime

Every statement and every program goes under a lawful regime if its parts do, and if all code does
at the levels under. How a regime passes through `try` and `include` is left to it: what is done
with a fault and with the included modules is what regimes differ in.
-/

namespace ClassScript

/-- The parts of a case together are smaller than the case. -/
theorem SwitchCase.sizeOf_parts (case : SwitchCase) :
    sizeOf case.value + sizeOf case.body < sizeOf case := by
  cases case
  simp only [SwitchCase.mk.sizeOf_spec]
  omega

theorem CatchClause.sizeOf_body (clause : CatchClause) : sizeOf clause.body < sizeOf clause := by
  cases clause
  simp only [CatchClause.mk.sizeOf_spec]
  omega

namespace Interpreter

/-- What a program does after its functions are declared. -/
def execHoisted (run : Interpreter) (program : Program) : Eval Unit := do
  forEach hoistInterface program
  forEach run.hoistClass program
  forEach run.execTopLevel program

theorem execProgram_eq (run : Interpreter) (program : Program) :
    run.execProgram program = (do
      forEach hoistFunction program
      run.execHoisted program) := rfl

end Interpreter

namespace Regime.Laws

variable {ι : Type} {R : Regime ι} {run : ι → Interpreter} {ℓ : R.Level} {z : Nat}

/-! ## Declarations of classes -/

theorem initializeStatics_goes (L : R.Laws) (hrun : R.Below run ℓ z) (cls : ClassId)
    (className : String) (line : Nat) (fields : List FieldInfo) :
    R.Goes ℓ fun i => (run i).initializeStatics cls className line fields := by
  induction fields with
  | nil => exact L.pure ()
  | cons field rest ih =>
      refine L.bind (L.fieldValue_goes hrun field _ line) fun v _ => ?_
      exact L.bind (L.harmless (.putStatic cls field.name v)) fun _ _ => ih

theorem declareClass_goes (L : R.Laws) (hrun : R.Below run ℓ z) {decl : ClassDecl}
    (hdecl : R.Allows decl.LoopFree) : R.Goes ℓ fun i => (run i).declareClass decl := by
  refine L.bind (L.harmless (.describeClass decl)) fun info hfree => ?_
  have hdeclare : R.Goes ℓ fun _ => declareClassInfo info decl.line :=
    L.step (.declareClassInfo info decl.line) ((hdecl.and hfree).imp fun h =>
      (Eval.Harmless.declareClassInfo (h.2 h.1) decl.line).finishing)
  exact L.bind hdeclare fun cls _ => L.initializeStatics_goes hrun cls _ decl.line _

/-! ## Branches and loops -/

/-- Loops go only under a regime that allows them. -/
theorem iterate_goes (L : R.Laws) (hloops : R.loops) {test : ι → Eval Bool}
    {body : ι → Eval Signal} {after : ι → Eval Unit} (fuel : Nat) (htest : R.Goes ℓ test)
    (hbody : R.Goes ℓ body) (hafter : R.Goes ℓ after) :
    R.Goes ℓ fun i => iterate (test i) (body i) (after i) fuel := by
  induction fuel with
  | zero => exact L.step .outOfFuel (.inl hloops)
  | succ fuel ih =>
      refine L.bind htest fun go _ => ?_
      cases go with
      | false => exact L.pure _
      | true =>
          refine L.bind hbody fun signal _ => ?_
          cases signal with
          | normal | continueLoop => exact L.bind hafter fun _ _ => ih
          | _ => exact L.pure _

theorem evalCondition_goes (L : R.Laws) (hrun : R.Runs run ℓ z) {condition : Expr}
    (hsize : sizeOf condition < z) (line : Nat) :
    R.Goes ℓ fun i => (run i).evalCondition condition line :=
  L.bind (hrun.eval condition none hsize) fun _ _ => L.query line fun _ _ _ => rfl

theorem execBody_goes (L : R.Laws) (hrun : R.Runs run ℓ z) {body : Statement}
    (hbody : R.Allows (sizeOf body < z ∧ body.LoopFree)) :
    R.Goes ℓ fun i => (run i).execBody body := by
  cases body with
  | block statements line =>
      refine L.inScope line (L.execAll_goes hrun (hbody.imp fun h => ⟨?_, h.2⟩))
      have hsize := h.1
      rw [Statement.block.sizeOf_spec] at hsize
      omega
  | _ => exact L.inScope _ (hrun.exec _ hbody)

theorem execBranch_goes (L : R.Laws) (hrun : R.Runs run ℓ z) (condition : Expr)
    (onTrue : Statement) (onFalse : Option Statement) (line : Nat)
    (hsize : sizeOf condition + sizeOf onTrue + sizeOf onFalse < z)
    (hfree : R.Allows (onTrue.LoopFree ∧ LoopFreeOptional onFalse)) :
    R.Goes ℓ fun i => (run i).execBranch condition onTrue onFalse line := by
  refine L.bind (L.evalCondition_goes hrun (by omega) line) fun test _ => ?_
  split
  · exact L.execBody_goes hrun (hfree.imp fun h => ⟨by omega, h.1⟩)
  · cases onFalse with
    | some statement =>
        rw [Option.some.sizeOf_spec] at hsize
        exact L.execBody_goes hrun (hfree.imp fun h => ⟨by omega, h.2⟩)
    | none => exact L.pure _

theorem execWhile_goes (L : R.Laws) (hloops : R.loops) (hrun : R.Runs run ℓ z) (fuel : Nat)
    (condition : Expr) (body : Statement) (line : Nat)
    (hsize : sizeOf condition < z) :
    R.Goes ℓ fun i => (run i).execWhile fuel condition body line :=
  L.iterate_goes hloops fuel (L.evalCondition_goes hrun (by omega) line)
    (L.execBody_goes hrun (.inl hloops)) (L.pure ())

theorem execDoWhile_goes (L : R.Laws) (hloops : R.loops) (hrun : R.Runs run ℓ z) (fuel : Nat)
    (body : Statement) (condition : Expr) (line : Nat)
    (hsize : sizeOf condition < z) :
    R.Goes ℓ fun i => (run i).execDoWhile fuel body condition line := by
  refine L.bind (L.execBody_goes hrun (.inl hloops)) fun signal _ => ?_
  cases signal with
  | normal | continueLoop => exact L.execWhile_goes hloops hrun fuel condition body line hsize
  | _ => exact L.pure _

theorem execFor_goes (L : R.Laws) (hloops : R.loops) (hrun : R.Runs run ℓ z) (fuel : Nat)
    (initial : Option Statement) (condition step : Option Expr) (body : Statement) (line : Nat)
    (hsize : sizeOf condition + sizeOf step < z) :
    R.Goes ℓ fun i => (run i).execFor fuel initial condition step body line := by
  have hstart : R.Goes ℓ fun i => (run i).optionalStart initial := by
    cases initial with
    | some statement => exact hrun.exec statement (.inl hloops)
    | none => exact L.pure _
  have htest : R.Goes ℓ fun i => (run i).optionalCondition condition line := by
    cases condition with
    | some condition =>
        rw [Option.some.sizeOf_spec] at hsize
        exact L.evalCondition_goes hrun (by omega) line
    | none => exact L.pure true
  have hstep : R.Goes ℓ fun i => (run i).optionalStep step := by
    cases step with
    | some step =>
        simp only [Option.some.sizeOf_spec] at hsize
        exact L.bind (hrun.eval step none (by omega)) fun _ _ => L.pure ()
    | none => exact L.pure ()
  have hbody : R.Goes ℓ fun i => (run i).execBody body := L.execBody_goes hrun (.inl hloops)
  refine L.inScope line (L.bind hstart fun signal _ => ?_)
  cases signal with
  | normal => exact L.iterate_goes hloops fuel htest hbody hstep
  | _ => exact L.pure _

/-! ## Switch -/

theorem selectCase_goes (L : R.Laws) (hrun : R.Runs run ℓ z) (subject : Value)
    {P : SwitchCase → Prop} (cases : List SwitchCase) (hsize : sizeOf cases ≤ z)
    (hP : ∀ case ∈ cases, P case) :
    R.Rel ℓ (fun i => (run i).selectCase subject cases) fun found => ∀ case ∈ found, P case := by
  induction cases with
  | nil => exact L.harmless (.pure nofun)
  | cons case rest ih =>
      have hvalue : sizeOf case.value + sizeOf rest < z := by
        rw [List.cons.sizeOf_spec] at hsize
        have hcase := case.sizeOf_parts
        omega
      refine L.bind (hrun.eval case.value none (by omega)) fun candidate _ => ?_
      refine L.bind (L.query case.line fun _ _ _ => rfl) fun equal _ => ?_
      split
      · refine L.harmless (.pure fun other hother => ?_)
        obtain rfl := Option.some.inj hother
        exact hP case List.mem_cons_self
      · exact ih (by omega) fun other hother => hP other (List.mem_cons_of_mem _ hother)

theorem execCase_goes (L : R.Laws) {body : List Statement}
    (hbody : R.Goes ℓ fun i => (run i).execAll body) (line : Nat) :
    R.Goes ℓ fun i => (run i).execCase body line := by
  refine L.bind (L.inScope line hbody) fun signal _ => ?_
  cases signal <;> exact L.pure _

theorem execSwitch_goes (L : R.Laws) (hrun : R.Runs run ℓ z) (subject : Expr)
    (cases : List SwitchCase) (fallback : Option (List Statement)) (line : Nat)
    (hsize : sizeOf subject + sizeOf cases + sizeOf fallback < z)
    (hfree : R.Allows (LoopFreeCases cases ∧ LoopFreeBlock fallback)) :
    R.Goes ℓ fun i => (run i).execSwitch subject cases fallback line := by
  have hcase (case : SwitchCase) (h : R.Allows (case ∈ cases)) :
      R.Goes ℓ fun i => (run i).execAll case.body := by
    refine L.execAll_goes hrun ((hfree.and h).imp fun h => ⟨?_, h.1.1.of_mem h.2⟩)
    have hcase := case.sizeOf_parts
    have hmem := List.sizeOf_lt_of_mem h.2
    omega
  refine L.bind (hrun.eval subject none (by omega)) fun v _ => ?_
  refine L.bind (L.selectCase_goes hrun v cases (by omega) fun _ h => h)
    fun found hfound => ?_
  cases found with
  | some case => exact L.execCase_goes (hcase case (hfound.imp fun h => h case rfl)) case.line
  | none =>
      cases fallback with
      | some body =>
          rw [Option.some.sizeOf_spec] at hsize
          exact L.execCase_goes (L.execAll_goes hrun (hfree.imp fun h => ⟨by omega, h.2⟩)) line
      | none => exact L.pure _

/-! ## Exceptions -/

theorem execClause_goes (L : R.Laws) (hrun : R.Runs run ℓ z) {clause : CatchClause}
    (hclause : R.Allows (sizeOf clause ≤ z ∧ LoopFreeAll clause.body)) (v : Value) :
    R.Goes ℓ fun i => (run i).execClause clause v := by
  refine L.bind (L.look fun _ _ _ => rfl) fun ty _ => L.inScope clause.line ?_
  refine L.bind (L.harmless (.declareVariable clause.name ty v false clause.line)) fun _ _ => ?_
  refine L.execAll_goes hrun (hclause.imp fun h => ⟨?_, h.2⟩)
  have hbody := clause.sizeOf_body
  omega

theorem execCatches_goes (L : R.Laws) (hrun : R.Runs run ℓ z) {catches : List CatchClause}
    (hcatches : R.Allows (sizeOf catches ≤ z ∧ LoopFreeCatches catches))
    (result : Except Fault Signal) : R.Goes ℓ fun i => (run i).execCatches catches result := by
  refine L.bind (L.look fun _ _ _ => rfl) fun thrown? _ => ?_
  cases thrown? with
  | none => exact L.harmless (.ofExcept fun _ _ => trivial)
  | some v =>
      have hclause : R.Rel ℓ
          (fun _ => (Action.read fun s => Interpreter.findClause? catches v s.store : Eval _))
          fun found => ∀ clause ∈ found, clause ∈ catches :=
        L.harmless (.read (fun _ _ h => List.mem_of_find?_eq_some h) fun _ _ _ => rfl)
      refine L.bind hclause fun found hfound => ?_
      cases found with
      | none => exact L.harmless (.ofExcept fun _ _ => trivial)
      | some clause =>
          refine L.execClause_goes hrun ((hcatches.and hfound).imp fun h => ?_) v
          have hmem := h.2 clause rfl
          have hsize := List.sizeOf_lt_of_mem hmem
          exact ⟨by omega, h.1.2.of_mem hmem⟩

/-- A `try` goes if what was caught does. -/
theorem execTry_goes (L : R.Laws)
    (hattempt : ∀ {α : Type} {X : ι → Eval α}, R.Goes ℓ X → R.Goes ℓ fun i => Action.attempt (X i))
    (hrun : R.Runs run ℓ z) {body : List Statement} {catches : List CatchClause}
    {finalizer : Option (List Statement)}
    (hsize : sizeOf body + sizeOf catches + sizeOf finalizer ≤ z)
    (hfree : R.Allows (LoopFreeAll body ∧ LoopFreeCatches catches ∧ LoopFreeBlock finalizer))
    (line : Nat) : R.Goes ℓ fun i => (run i).execTry body catches finalizer line := by
  have hbody := L.execAll_goes hrun (hfree.imp fun h => ⟨by omega, h.1⟩)
  refine L.bind (hattempt (L.inScope line hbody)) fun result _ => ?_
  have hcatches := L.execCatches_goes hrun (hfree.imp fun h => ⟨by omega, h.2.1⟩) result
  refine L.bind (hattempt hcatches) fun result _ => ?_
  cases finalizer with
  | none => exact L.harmless (.ofExcept fun _ _ => trivial)
  | some statements =>
      have hfinalizer := L.execAll_goes hrun (hfree.imp fun h =>
        ⟨by rw [Option.some.sizeOf_spec] at hsize; omega, h.2.2⟩)
      refine L.bind (L.inScope line hfinalizer) fun signal _ => ?_
      cases signal with
      | normal => exact L.harmless (.ofExcept fun _ _ => trivial)
      | _ => exact L.pure _

/-! ## Programs -/

theorem forEach_goes (L : R.Laws) {declare : ι → Statement → Eval Unit} (program : Program)
    (h : ∀ statement ∈ program, R.Goes ℓ fun i => declare i statement) :
    R.Goes ℓ fun i => Interpreter.forEach (declare i) program := by
  induction program with
  | nil => exact L.pure ()
  | cons statement rest ih =>
      refine L.bind (h statement List.mem_cons_self) fun _ _ => ih ?_
      exact fun other hother => h other (List.mem_cons_of_mem _ hother)

theorem hoistFunction_goes (L : R.Laws) {statement : Statement}
    (hfree : R.Allows statement.LoopFree) :
    R.Goes ℓ fun _ => Interpreter.hoistFunction statement := by
  cases statement with
  | function decl => exact L.declareFunction hfree
  | _ => exact L.pure ()

theorem hoistInterface_goes (L : R.Laws) (statement : Statement) :
    R.Goes ℓ fun _ => Interpreter.hoistInterface statement := by
  cases statement with
  | interface decl => exact L.harmless (.declareInterface decl)
  | enumeration decl => exact L.harmless (.declareEnum decl)
  | _ => exact L.pure ()

theorem hoistClass_goes (L : R.Laws) (hrun : R.Below run ℓ z) {statement : Statement}
    (hfree : R.Allows statement.LoopFree) :
    R.Goes ℓ fun i => (run i).hoistClass statement := by
  cases statement with
  | classType decl => exact L.declareClass_goes hrun hfree
  | _ => exact L.pure ()

theorem execTopLevel_goes (L : R.Laws) (hrun : R.Runs run ℓ z) {statement : Statement}
    (h : R.Allows (sizeOf statement < z ∧ statement.LoopFree)) :
    R.Goes ℓ fun i => (run i).execTopLevel statement := by
  unfold Interpreter.execTopLevel
  split
  · exact L.pure ()
  · refine L.bind (hrun.exec statement h) fun signal _ => ?_
    split
    · exact L.raise _ statement.line
    · exact L.pure ()

theorem execHoisted_goes (L : R.Laws) (hrun : R.Below run ℓ z) {program : Program}
    (hprogram : R.Allows (sizeOf program ≤ z ∧ LoopFreeAll program)) :
    R.Goes ℓ fun i => (run i).execHoisted program := by
  have hfree (statement : Statement) (hmem : statement ∈ program) :=
    hprogram.imp fun h => h.2.of_mem hmem
  refine L.bind (L.forEach_goes program fun statement _ => L.hoistInterface_goes statement)
    fun _ _ => ?_
  refine L.bind (L.forEach_goes program fun statement hmem =>
    L.hoistClass_goes hrun (hfree statement hmem)) fun _ _ => ?_
  refine L.forEach_goes program fun statement hmem =>
    L.execTopLevel_goes hrun.toRuns (hprogram.imp fun h => ⟨?_, h.2.of_mem hmem⟩)
  have hsize := List.sizeOf_lt_of_mem hmem
  omega

theorem execProgram_goes (L : R.Laws) (hrun : R.Below run ℓ z) {program : Program}
    (hprogram : R.Allows (sizeOf program ≤ z ∧ LoopFreeAll program)) :
    R.Goes ℓ fun i => (run i).execProgram program := by
  simp only [Interpreter.execProgram_eq]
  refine L.bind (L.forEach_goes program fun statement hmem => ?_) fun _ _ =>
    L.execHoisted_goes hrun hprogram
  exact L.hoistFunction_goes (hprogram.imp fun h => h.2.of_mem hmem)

/-! ## Statements -/

theorem normally_goes (L : R.Laws) {X : ι → Eval Unit} (h : R.Goes ℓ X) :
    R.Goes ℓ fun i => Interpreter.normally (X i) :=
  L.bind h fun _ _ => L.pure _

theorem execDeclaration_goes (L : R.Laws) (hrun : R.Runs run ℓ z) (decl : VariableDecl)
    (hdecl : sizeOf decl ≤ z) : R.Goes ℓ fun i => (run i).execDeclaration decl :=
  L.bind (L.declaredValue_goes hrun decl hdecl) fun v _ =>
    L.harmless (.declareVariable decl.name decl.ty v decl.isConst decl.line)

/-- A statement goes if all smaller statements and expressions do, if a `try` and an `include` do,
and if loops have the same fuel everywhere. -/
theorem execStep_goes (L : R.Laws) (statement : Statement) (hfree : R.Allows statement.LoopFree)
    (hrun : R.Below run ℓ (sizeOf statement)) {fuel : ι → Nat}
    (hfuel : R.loops → ∃ k, fuel = fun _ => k)
    (htry : ∀ body catches finalizer line, statement = .tryCatch body catches finalizer line →
      R.Goes ℓ fun i => (run i).execTry body catches finalizer line)
    (hinclude : ∀ path line, statement = .includeModule path line →
      R.Goes ℓ fun i => (run i).includeModule path line) :
    R.Goes ℓ fun i => (run i).execStep (fuel i) statement := by
  cases statement with
  | expression e line =>
      exact L.bind (hrun.eval e none (by simp; omega)) fun _ _ => L.pure _
  | declare decl =>
      exact L.normally_goes (L.execDeclaration_goes hrun.toRuns decl (by simp))
  | function decl => exact L.normally_goes (L.declareFunction hfree)
  | classType decl => exact L.normally_goes (L.declareClass_goes hrun hfree)
  | interface decl => exact L.normally_goes (L.harmless (.declareInterface decl))
  | enumeration decl => exact L.normally_goes (L.harmless (.declareEnum decl))
  | block statements line =>
      refine L.inScope line (L.execAll_goes hrun.toRuns (hfree.imp fun h => ⟨?_, h⟩))
      simp only [Statement.block.sizeOf_spec]
      omega
  | branch condition onTrue onFalse line =>
      refine L.execBranch_goes hrun.toRuns condition onTrue onFalse line ?_ hfree
      simp only [Statement.branch.sizeOf_spec]
      omega
  | whileLoop condition body line =>
      have hloops : R.loops := hfree.resolve_right id
      obtain ⟨k, rfl⟩ := hfuel hloops
      refine L.execWhile_goes hloops hrun.toRuns k condition body line ?_
      simp only [Statement.whileLoop.sizeOf_spec]
      omega
  | doWhile body condition line =>
      have hloops : R.loops := hfree.resolve_right id
      obtain ⟨k, rfl⟩ := hfuel hloops
      refine L.execDoWhile_goes hloops hrun.toRuns k body condition line ?_
      simp only [Statement.doWhile.sizeOf_spec]
      omega
  | forLoop initial condition step body line =>
      have hloops : R.loops := hfree.resolve_right id
      obtain ⟨k, rfl⟩ := hfuel hloops
      refine L.execFor_goes hloops hrun.toRuns k initial condition step body line ?_
      simp only [Statement.forLoop.sizeOf_spec]
      omega
  | switch subject cases fallback line =>
      refine L.execSwitch_goes hrun.toRuns subject cases fallback line ?_ hfree
      simp only [Statement.switch.sizeOf_spec]
      omega
  | breakLoop line => exact L.pure _
  | continueLoop line => exact L.pure _
  | returnValue value line =>
      cases value with
      | none => exact L.pure _
      | some e =>
          refine L.bind (L.look fun _ _ _ => rfl) fun expected _ => ?_
          exact L.bind (hrun.eval e expected (by simp; omega)) fun _ _ => L.pure _
  | throwValue value line =>
      exact L.bind (hrun.eval value none (by simp; omega)) fun _ _ => L.pure _
  | tryCatch body catches finalizer line => exact htry body catches finalizer line rfl
  | includeModule path line => exact L.normally_goes (hinclude path line rfl)

end Regime.Laws

end ClassScript
