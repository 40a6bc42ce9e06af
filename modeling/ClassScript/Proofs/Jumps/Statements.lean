import ClassScript.Proofs.Jumps.Expressions
import ClassScript.Proofs.Uncatchable

/-!
# Well-placed jumps do not escape

Every statement ends as its place allows: loops handle `break` and `continue`, `switch` handles
`break` and passes `continue` on, a finalizer puts its own end in place of the one before, and calls
handle `return`. At the top level nothing is allowed, so no jump gets there. By induction on the
fuel the interpreter is orderly, and so a well-placed program, run in a well-placed session, never
fails with an escaped jump; nor does any part of it, however a `try` around that part might hide it.
-/

namespace ClassScript

namespace Interpreter.Orderly

variable {run run' : Interpreter} {p : Place}

/-! ## Declarations of classes -/

theorem initializeStatics (h : run.Orderly run') (cls : ClassId) (className : String) (line : Nat)
    (fields : List FieldInfo) :
    Eval.Tame (run.initializeStatics cls className line fields)
      (run'.initializeStatics cls className line fields) := by
  induction fields with
  | nil => exact .pure trivial
  | cons field rest ih =>
      refine (h.fieldValue field _ line).bind fun v _ => ?_
      exact (Eval.Orderly.putStatic cls field.name v).bind fun _ _ => ih

theorem declareClass (h : run.Orderly run') {decl : ClassDecl} (hdecl : decl.WellPlaced) :
    Eval.Tame (run.declareClass decl) (run'.declareClass decl) := by
  refine (Eval.Orderly.describeClass hdecl).bind fun info hinfo => ?_
  refine (Eval.Orderly.declareClassInfo hinfo decl.line).bind fun cls _ => ?_
  exact h.initializeStatics cls _ decl.line _

/-! ## Branches and loops -/

theorem evalCondition (h : run.Orderly run') (condition : Expr) (line : Nat) :
    Eval.Tame (run.evalCondition condition line) (run'.evalCondition condition line) :=
  (h.eval condition none).bind fun v _ => .queryStore line fun st => st.asBool_answers v

theorem execBody (h : run.Orderly run') {body : Statement} (hplaced : body.WellPlaced p) :
    Eval.Orderly (run.execBody body) (run'.execBody body) p.Allows := by
  cases body with
  | block statements line => exact (h.execAll hplaced).inScope line
  | _ => exact (h.exec hplaced).inScope _

theorem execBranch (h : run.Orderly run') (condition : Expr) {onTrue : Statement}
    {onFalse : Option Statement} (hplaced : onTrue.WellPlaced p ∧ WellPlacedOptional p onFalse)
    (line : Nat) :
    Eval.Orderly (run.execBranch condition onTrue onFalse line)
      (run'.execBranch condition onTrue onFalse line) p.Allows := by
  refine (h.evalCondition condition line).bind fun test _ => ?_
  split
  · exact h.execBody hplaced.1
  · cases onFalse with
    | some statement => exact h.execBody hplaced.2
    | none => exact .pure trivial

/-- A loop handles the jumps that are for it: what is left is allowed where the loop stands. -/
theorem iterate {test test' : Eval Bool} {body body' : Eval Signal} {after after' : Eval Unit}
    (htest : Eval.Tame test test') (hbody : Eval.Orderly body body' p.inLoop.Allows)
    (hafter : Eval.Tame after after') (fuel : Nat) :
    Eval.Orderly (iterate test body after fuel) (ClassScript.iterate test' body' after' fuel)
      p.Allows := by
  induction fuel with
  | zero => exact .outOfFuel
  | succ fuel ih =>
      refine htest.bind fun go _ => ?_
      cases go with
      | false => exact .pure trivial
      | true =>
          refine hbody.bind fun signal hsignal => ?_
          cases signal with
          | normal | continueLoop => exact hafter.bind fun _ _ => ih
          | breakLoop => exact .pure trivial
          | returned _ | thrown _ => exact .pure hsignal

theorem execWhile (h : run.Orderly run') (fuel : Nat) (condition : Expr) {body : Statement}
    (hplaced : body.WellPlaced p.inLoop) (line : Nat) :
    Eval.Orderly (run.execWhile fuel condition body line)
      (run'.execWhile fuel condition body line) p.Allows :=
  iterate (h.evalCondition condition line) (h.execBody hplaced) (.pure trivial) fuel

theorem execDoWhile (h : run.Orderly run') (fuel : Nat) {body : Statement}
    (hplaced : body.WellPlaced p.inLoop) (condition : Expr) (line : Nat) :
    Eval.Orderly (run.execDoWhile fuel body condition line)
      (run'.execDoWhile fuel body condition line) p.Allows := by
  refine (h.execBody hplaced).bind fun signal hsignal => ?_
  cases signal with
  | normal | continueLoop => exact h.execWhile fuel condition hplaced line
  | breakLoop => exact .pure trivial
  | returned _ | thrown _ => exact .pure hsignal

/-- The initial statement is not in the loop: a jump that it makes leaves the whole. -/
theorem execFor (h : run.Orderly run') (fuel : Nat) {initial : Option Statement}
    (hinitial : WellPlacedOptional p initial) (condition step : Option Expr) {body : Statement}
    (hbody : body.WellPlaced p.inLoop) (line : Nat) :
    Eval.Orderly (run.execFor fuel initial condition step body line)
      (run'.execFor fuel initial condition step body line) p.Allows := by
  have hstart : Eval.Orderly (run.optionalStart initial) (run'.optionalStart initial) p.Allows := by
    cases initial with
    | some statement => exact h.exec hinitial
    | none => exact .pure trivial
  have htest : Eval.Tame (run.optionalCondition condition line)
      (run'.optionalCondition condition line) := by
    cases condition with
    | some condition => exact h.evalCondition condition line
    | none => exact .pure trivial
  have hstep : Eval.Tame (run.optionalStep step) (run'.optionalStep step) := by
    cases step with
    | some step => exact (h.eval step none).bind fun _ _ => .pure trivial
    | none => exact .pure trivial
  refine Eval.Orderly.inScope line (hstart.bind fun signal hsignal => ?_)
  cases signal with
  | normal => exact iterate htest (h.execBody hbody) hstep fuel
  | _ => exact .pure hsignal

/-! ## Switch -/

theorem selectCase (h : run.Orderly run') (subject : Value) {P : SwitchCase → Prop}
    (cases : List SwitchCase) (hP : ∀ case ∈ cases, P case) :
    Eval.Orderly (run.selectCase subject cases) (run'.selectCase subject cases)
      fun found => ∀ case ∈ found, P case := by
  induction cases with
  | nil => exact .pure nofun
  | cons case rest ih =>
      obtain ⟨hcase, hrest⟩ := List.forall_mem_cons.mp hP
      refine (h.eval case.value none).bind fun candidate _ => ?_
      refine (Eval.Orderly.queryStore case.line fun st =>
        st.caseTest_answers subject candidate).bind fun equal _ => ?_
      split
      · refine .pure fun other hother => ?_
        obtain rfl := Option.some.inj hother
        exact hcase
      · exact ih hrest

/-- A case handles `break`; a `continue` goes on to the loop around. -/
theorem execCase (h : run.Orderly run') {body : List Statement}
    (hplaced : WellPlacedAll p.inSwitch body) (line : Nat) :
    Eval.Orderly (run.execCase body line) (run'.execCase body line) p.Allows := by
  refine ((h.execAll hplaced).inScope line).bind fun signal hsignal => ?_
  cases signal with
  | breakLoop => exact .pure trivial
  | _ => exact .pure hsignal

theorem execSwitch (h : run.Orderly run') (subject : Expr) {cases : List SwitchCase}
    {fallback : Option (List Statement)}
    (hplaced : WellPlacedCases p.inSwitch cases ∧ WellPlacedBlock p.inSwitch fallback)
    (line : Nat) :
    Eval.Orderly (run.execSwitch subject cases fallback line)
      (run'.execSwitch subject cases fallback line) p.Allows := by
  refine (h.eval subject none).bind fun v _ => ?_
  refine (h.selectCase v cases fun case hmem => hplaced.1.of_mem hmem).bind fun found hfound => ?_
  cases found with
  | some case => exact h.execCase (hfound case rfl) case.line
  | none =>
      cases fallback with
      | some body => exact h.execCase hplaced.2 line
      | none => exact .pure trivial

/-! ## Exceptions -/

theorem execClause (h : run.Orderly run') {clause : CatchClause}
    (hplaced : WellPlacedAll p clause.body) (v : Value) :
    Eval.Orderly (run.execClause clause v) (run'.execClause clause v) p.Allows := by
  refine Eval.Orderly.look.bind fun ty _ => Eval.Orderly.inScope clause.line ?_
  exact (Eval.Orderly.declareVariable clause.name ty v false clause.line).bind
    fun _ _ => h.execAll hplaced

theorem execCatches (h : run.Orderly run') {catches : List CatchClause}
    (hplaced : WellPlacedCatches p catches) {result : Except Fault Signal}
    (hresult : Eval.Settled p.Allows result) :
    Eval.Orderly (run.execCatches catches result) (run'.execCatches catches result) p.Allows := by
  refine Eval.Orderly.look.bind fun thrown? _ => ?_
  cases thrown? with
  | none => exact .ofExcept hresult
  | some v =>
      have hclause : Eval.Orderly
          (Action.read fun s => findClause? catches v s.store : Eval _) _
          fun found => ∀ clause ∈ found, clause ∈ catches :=
        .read fun _ _ h => List.mem_of_find?_eq_some h
      refine hclause.bind fun found hfound => ?_
      cases found with
      | none => exact .ofExcept hresult
      | some clause => exact h.execClause (hplaced.of_mem (hfound clause rfl)) v

/-- The result so far stands if the finalizer ends normally; otherwise the finalizer's own end,
which its place allows, takes the place of it. -/
theorem finish (h : run.Orderly run') {finalizer : Option (List Statement)}
    (hplaced : WellPlacedBlock p finalizer) (line : Nat) {result : Except Fault Signal}
    (hresult : Eval.Settled p.Allows result) :
    Eval.Orderly (run.finish finalizer line result) (run'.finish finalizer line result)
      p.Allows := by
  cases finalizer with
  | none => exact .ofExcept hresult
  | some statements =>
      refine ((h.execAll hplaced).inScope line).bind fun signal hsignal => ?_
      cases signal with
      | normal => exact .ofExcept hresult
      | _ => exact .pure hsignal

theorem execTry (h : run.Orderly run') {body : List Statement} {catches : List CatchClause}
    {finalizer : Option (List Statement)}
    (hplaced : WellPlacedAll p body ∧ WellPlacedCatches p catches ∧ WellPlacedBlock p finalizer)
    (line : Nat) :
    Eval.Orderly (run.execTry body catches finalizer line)
      (run'.execTry body catches finalizer line) p.Allows := by
  obtain ⟨hbody, hcatches, hfinalizer⟩ := hplaced
  rw [execTry_eq, execTry_eq]
  -- The catches see how the body ended, and the finalizer how the catches did.
  refine ((h.execAll hbody).inScope line).attempt.bind fun result hresult => ?_
  exact (h.execCatches hcatches hresult).attempt.bind fun result hresult =>
    h.finish hfinalizer line hresult

/-! ## Programs and modules -/

theorem forEach {declare declare' : Statement → Eval Unit} {program : Program}
    (h : ∀ statement ∈ program, Eval.Tame (declare statement) (declare' statement)) :
    Eval.Tame (forEach declare program) (Interpreter.forEach declare' program) := by
  induction program with
  | nil => exact .pure trivial
  | cons statement rest ih =>
      obtain ⟨hfirst, hrest⟩ := List.forall_mem_cons.mp h
      exact hfirst.bind fun _ _ => ih hrest

theorem hoistFunction {statement : Statement} (hplaced : statement.WellPlaced p) :
    Eval.Tame (hoistFunction statement) (Interpreter.hoistFunction statement) := by
  cases statement with
  | function decl => exact .declareFunction hplaced
  | _ => exact .pure trivial

theorem hoistInterface (statement : Statement) :
    Eval.Tame (hoistInterface statement) (Interpreter.hoistInterface statement) := by
  cases statement with
  | interface decl => exact .declareInterface decl
  | enumeration decl => exact .declareEnum decl
  | _ => exact .pure trivial

theorem hoistClass (h : run.Orderly run') {statement : Statement}
    (hplaced : statement.WellPlaced p) :
    Eval.Tame (run.hoistClass statement) (run'.hoistClass statement) := by
  cases statement with
  | classType decl => exact h.declareClass hplaced
  | _ => exact .pure trivial

/-- The top level allows no jump, so there is none to be reported. -/
theorem execTopLevel (h : run.Orderly run') {statement : Statement}
    (hplaced : statement.WellPlaced .top) :
    Eval.Tame (run.execTopLevel statement) (run'.execTopLevel statement) := by
  unfold Interpreter.execTopLevel
  split
  · exact .pure trivial
  · refine (h.exec hplaced).bind fun signal hsignal => ?_
    cases signal with
    | normal => exact .pure trivial
    | thrown v => exact .raise rfl statement.line
    | breakLoop => cases hsignal
    | continueLoop => cases hsignal
    | returned v => cases hsignal

theorem execProgram (h : run.Orderly run') {program : Program}
    (hplaced : WellPlacedAll .top program) :
    Eval.Tame (run.execProgram program) (run'.execProgram program) := by
  refine (forEach fun _ hmem => hoistFunction (hplaced.of_mem hmem)).bind fun _ _ => ?_
  refine (forEach fun statement _ => hoistInterface statement).bind fun _ _ => ?_
  refine (forEach fun _ hmem => h.hoistClass (hplaced.of_mem hmem)).bind fun _ _ => ?_
  exact forEach fun _ hmem => h.execTopLevel (hplaced.of_mem hmem)

theorem includeModule (h : run.Orderly run') (path : String) (line : Nat) :
    Eval.Tame (run.includeModule path line) (run'.includeModule path line) := by
  refine Eval.Orderly.look.bind fun known _ => ?_
  split
  · exact .pure trivial
  have hload : Eval.Orderly (Eval.ask line (loadModule path)) (Eval.ask line (loadModule path))
      (WellPlacedAll .top) := by
    refine .ask line (fun {s program} hs hok => ?_) fun {s cause} _ herror =>
      Cause.not_isEscape_of_isReason ((s.loadModule_answers path).isReason_of_error herror)
    unfold loadModule at hok
    cases hserved : s.loader path with
    | error problem =>
        rw [hserved] at hok
        cases hok
    | ok served =>
        rw [hserved] at hok
        cases hok
        exact hs.modules hserved
  refine hload.bind fun program hprogram => ?_
  refine (Eval.Orderly.update fun hs => hs.with hs.classes _ _ _ _).bind fun _ _ => ?_
  -- A module is a top level of its own, wherever the statement that includes it stands.
  refine (h.execProgram hprogram).attempt.bind fun result hresult => ?_
  cases result with
  | ok _ => exact .pure trivial
  | error fault =>
      exact (Eval.Orderly.update fun hs => hs.with hs.classes _ _ _ _).bind
        fun _ _ => .fail hresult

/-! ## Statements -/

theorem normally {x y : Eval Unit} (h : Eval.Tame x y) :
    Eval.Orderly (normally x) (Interpreter.normally y) p.Allows :=
  h.bind fun _ _ => .pure trivial

/-- A statement ends as its place allows if its parts do. -/
theorem execStep (h : run.Orderly run') (fuel : Nat) {statement : Statement}
    (hplaced : statement.WellPlaced p) :
    Eval.Orderly (run.execStep fuel statement) (run'.execStep fuel statement) p.Allows := by
  cases statement with
  | expression e line => exact (h.eval e none).bind fun _ _ => .pure trivial
  | declare decl =>
      exact normally ((h.declaredValue decl).bind fun v _ => .declareVariable _ _ v _ _)
  | function decl => exact normally (.declareFunction hplaced)
  | classType decl => exact normally (h.declareClass hplaced)
  | interface decl => exact normally (.declareInterface decl)
  | enumeration decl => exact normally (.declareEnum decl)
  | block statements line => exact (h.execAll hplaced).inScope line
  | branch condition onTrue onFalse line => exact h.execBranch condition hplaced line
  | whileLoop condition body line => exact h.execWhile fuel condition hplaced line
  | doWhile body condition line => exact h.execDoWhile fuel hplaced condition line
  | forLoop initial condition step body line =>
      exact h.execFor fuel hplaced.1 condition step hplaced.2 line
  | switch subject cases fallback line => exact h.execSwitch subject hplaced line
  | breakLoop line => exact .pure hplaced
  | continueLoop line => exact .pure hplaced
  | returnValue value line =>
      cases value with
      | none => exact .pure hplaced
      | some e =>
          refine Eval.Orderly.look.bind fun expected _ => ?_
          exact (h.eval e expected).bind fun _ _ => .pure hplaced
  | throwValue value line => exact (h.eval value none).bind fun _ _ => .pure trivial
  | tryCatch body catches finalizer line => exact h.execTry hplaced line
  | includeModule path line => exact normally (h.includeModule path line)

/-! ## The interpreter -/

/-- An interpreter that gives up over an escaped jump has nothing to give up over. -/
theorem stopping {fault : Fault} (hfault : fault.cause.isEscape = true) {α : Type} {x y : Eval α}
    {Q : α → Prop} (h : Eval.Orderly x y Q) : Eval.Orderly x (fun s => (y s).stopAt fault) Q := by
  intro s hs
  obtain ⟨heq, hends⟩ := h s hs
  refine ⟨?_, hends⟩
  dsimp only
  rw [heq]
  cases hrun : x s with
  | error other s' =>
      rw [hrun] at hends
      -- The two runs could only part on this fault, and no tame run ends with an escaped jump.
      have hother : ¬ fault.identifies other = true := by
        intro hidentifies
        obtain ⟨rfl, -⟩ := Fault.eq_of_identifies hidentifies
        rw [hends.2] at hfault
        cases hfault
      rw [Outcome.stopAt, if_neg hother]
  | _ => rfl

/-- The interpreter that gives up over an escaped jump does what the interpreter does; the induction
is on the fuel. -/
theorem interpreter {fault : Fault} (hfault : fault.cause.isEscape = true) (fuel : Nat) :
    (interpreter fuel).Orderly (interpreterStopping fault fuel) := by
  induction fuel with
  | zero =>
      exact ⟨fun _ _ => stopping hfault .outOfFuel, fun _ => stopping hfault .outOfFuel,
        fun _ => stopping hfault .outOfFuel⟩
  | succ fuel ih =>
      exact ⟨fun e expected => stopping hfault (ih.evalStep e expected),
        fun hplaced => stopping hfault (ih.execStep fuel hplaced),
        fun hc => stopping hfault (ih.constructStep hc)⟩

end Interpreter.Orderly

/-- A well-placed program, run in a well-placed session, never fails with an escaped jump, and an
interpreter that gives up as soon as any part of the program does runs it in the same way. -/
theorem wellPlaced_never_escapes {program : Program} (hprogram : WellPlacedAll .top program)
    {s : Session} (hs : s.WellPlaced) (fuel : Nat) (jump : Jump) (line : Nat) :
    (∀ s', runProgram fuel program s ≠ .error { cause := .controlFlowEscape jump, line } s') ∧
      (interpreterStopping { cause := .controlFlowEscape jump, line } fuel).execProgram program s =
        runProgram fuel program s := by
  let fault : Fault := { cause := .controlFlowEscape jump, line }
  have hrun : (interpreter fuel).Orderly (interpreterStopping fault fuel) := .interpreter rfl fuel
  obtain ⟨heq, hends⟩ := hrun.execProgram hprogram s hs
  refine ⟨fun s' herror => ?_, heq⟩
  change (runProgram fuel program s).Ends _ _ at hends
  rw [herror] at hends
  cases hends.2

/-- In a function, `break` ends a `switch` and then, out of a `try`, a loop; a module breaks out of
its own. -/
theorem wellPlaced_never_escapes_nested :
    let f : FunctionDecl :=
      { name := "f", params := [], returnType := .int, line := 1
        body :=
          [.whileLoop (.literal (.bool true) 2)
            (.block
              [.switch (.literal (.int 1) 3) [⟨.literal (.int 1) 4, [.breakLoop 4], 4⟩] none 3,
                .tryCatch [.breakLoop 6] [] (some []) 5] 2) 2,
            .returnValue (some (.literal (.int 7) 8)) 8] }
    let program : Program :=
      [.function f, .expression (.call "f" [] 9) 9, .includeModule "m" 10]
    let loader : Loader := fun path =>
      if path = "m" then .ok [.forLoop none none none (.breakLoop 1) 1] else .error .unknownModule
    let s := Session.start loader []
    WellPlacedAll .top program ∧ s.WellPlaced ∧
      (match runProgram 12 program s with | .ok _ _ => true | _ => false) = true ∧
      (∀ s', runProgram 12 program s ≠
        .error { cause := .controlFlowEscape .breakLoop, line := 4 } s') ∧
      (interpreterStopping { cause := .controlFlowEscape .breakLoop, line := 4 } 12).execProgram
        program s = runProgram 12 program s := by
  intro f program loader s
  have hprogram : WellPlacedAll .top program := by
    simp [program, f, WellPlacedAll, Statement.WellPlaced, FunctionDecl.WellPlaced,
      WellPlacedCases, WellPlacedCatches, WellPlacedBlock, Place.inLoop, Place.inSwitch, Place.body]
  have hs : s.WellPlaced := by
    refine ⟨fun hfind => (by cases hfind), fun cls => ?_, fun {path program} hload => ?_⟩
    · exact ClassInfo.Coded.blank "" false false
    · change (if path = "m" then _ else _) = _ at hload
      split at hload
      · cases hload
        exact ⟨⟨trivial, rfl⟩, trivial⟩
      · cases hload
  have hends : (match runProgram 12 program s with | .ok _ _ => true | _ => false) = true := by
    subst s loader program f
    decide +kernel
  exact ⟨hprogram, hs, hends, wellPlaced_never_escapes hprogram hs 12 .breakLoop 4⟩

end ClassScript
