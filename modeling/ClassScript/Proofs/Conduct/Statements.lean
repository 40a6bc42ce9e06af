import ClassScript.Proofs.Conduct.Expressions

/-!
# Conduct of statements

Declarations, loops, branches and exception handling conform to a lawful discipline if their parts
do.
-/

namespace ClassScript

namespace Discipline

variable {D : Discipline} {run run' : Interpreter} {s : Session} {binds : Bool}

theorem Sig.grows (L : D.Laws) {st st' : Store} (h : st.Grows st') {signal : Signal}
    (hsig : D.Sig st signal) : D.Sig st' signal := by
  cases signal with
  | normal | breakLoop | continueLoop => trivial
  | thrown v => exact L.val_grows h hsig
  | returned result =>
      cases result with
      | none => trivial
      | some v => exact L.val_grows h hsig

theorem Caught.grows (L : D.Laws) {st st' : Store} (h : st.Grows st')
    {result : Except Fault Signal} (hresult : D.Caught D.Sig st result) :
    D.Caught D.Sig st' result := by
  cases result with
  | ok signal => exact Sig.grows L h hresult
  | error fault => exact L.err_grows h hresult

namespace Laws

/-! ## Declarations -/

theorem declareFunction_conforms (L : D.Laws) (hs : D.Inv s) (decl : FunctionDecl) :
    D.Conforms false s (declareFunction decl) (declareFunction decl) fun _ _ => True :=
  L.askThen_conforms hs decl.line (fun _ _ => rfl) (s.checkFunction_answers decl) fun _ _ _ =>
    .update (fun _ => rfl) ⟨.refl _ _, rfl, .refl _⟩ (L.functions hs) trivial

/-- The new class is known, and its description is the one given. -/
theorem declareClassInfo_conforms (L : D.Laws) (hs : D.Inv s) {info : ClassInfo}
    (hinfo : ClassInfo.Declared s.store info) (line : Nat) :
    D.Conforms false s (declareClassInfo info line) (declareClassInfo info line)
      fun st cls => D.Cls st cls ∧ st.classes[cls]? = some info := by
  refine L.askStoreThen_conforms hs line (s.store.checkClassName_answers info.name)
    fun _ hfree _ => ?_
  have h := L.enroll hs hinfo hfree
  refine .allocate (s.store.grows_enrollClass info) h.1 ⟨h.2, ?_⟩
  simp [Store.enrollClass]

theorem declareInterface_conforms (L : D.Laws) (hs : D.Inv s) (decl : InterfaceDecl) :
    D.Conforms false s (declareInterface decl) (declareInterface decl) fun _ _ => True :=
  (L.declareClassInfo_conforms hs (.ofInterface decl) decl.line).bind
    fun _ _ _ hs₁ _ => .pure hs₁ trivial

theorem declareEnum_conforms (L : D.Laws) (hs : D.Inv s) (decl : EnumDecl) :
    D.Conforms false s (declareEnum decl) (declareEnum decl) fun _ _ => True :=
  L.askThen_conforms hs decl.line (fun _ _ => rfl)
    (ClassInfo.addMembers_answers _ _ decl.members) fun _ hinfo _ =>
      (L.declareClassInfo_conforms hs (.ofEnum hinfo) decl.line).bind
        fun _ _ _ hs₁ _ => .pure hs₁ trivial

theorem initializeStatics_conforms (L : D.Laws) (hrun : D.Runs run run') (hs : D.Inv s)
    {cls : ClassId} {info : ClassInfo} (hcls : s.store.classes[cls]? = some info) (line : Nat)
    (fields : List FieldInfo)
    (hfields : ∀ field ∈ fields, D.Init s.store cls field ∧ field.isStatic = true ∧
      field.owner = info.name) :
    D.Conforms false s (run.initializeStatics cls info.name line fields)
      (run'.initializeStatics cls info.name line fields) fun _ _ => True := by
  have hname : ∃ info', s.store.classes[cls]? = some info' ∧ info'.name = info.name :=
    ⟨info, hcls, rfl⟩
  clear hcls
  induction fields generalizing s with
  | nil => exact .pure hs trivial
  | cons field rest ih =>
      obtain ⟨hinit, hstatic, howner⟩ := hfields field List.mem_cons_self
      have hgrown {st : Store} (hg : s.store.Grows st) :
          ∃ info', st.classes[cls]? = some info' ∧ info'.name = info.name := by
        obtain ⟨info₁, hinfo₁, hname₁⟩ := hname
        obtain ⟨info₂, hinfo₂, hshape⟩ := hg.classes cls info₁ hinfo₁
        have hsame := congrArg ClassInfo.name hshape
        change info₂.name = info₁.name at hsame
        exact ⟨info₂, hinfo₂, hsame.trans hname₁⟩
      refine (L.fieldValue_conforms hrun hs (fun v => L.init_value hinit)
        { cls, owner := info.name, self := none } line nofun).bind fun v s₁ hk₁ hs₁ hv => ?_
      obtain ⟨info₁, hinfo₁, hname₁⟩ := hgrown hk₁.store
      have hput := L.initStatic hs₁ (L.init_grows hk₁.store hinit) hstatic hinfo₁
        (howner.trans hname₁.symm) hv.1 hv.2
      refine (Conforms.updateStore (Q := fun _ _ => True) (s₁.store.grows_putStatic _ _ _) hput
        trivial).bind fun _ s₂ hk₂ hs₂ _ => ih hs₂ (fun other hother => ?_)
          (hgrown (hk₁.store.trans hk₂.store))
      have h := hfields other (List.mem_cons_of_mem _ hother)
      exact ⟨L.init_grows (hk₁.store.trans hk₂.store) h.1, h.2⟩

/-- The description of a class depends on the store of this very session. -/
theorem describeClass_conforms (L : D.Laws) (hs : D.Inv s) (decl : ClassDecl) :
    D.Conforms false s
      (fun s => (Action.ofExcept (ClassInfo.ofDecl s.store decl) : Eval ClassInfo) s)
      (fun s => (Action.ofExcept (ClassInfo.ofDecl s.store decl) : Eval ClassInfo) s)
      fun st info => ClassInfo.ofDecl st decl = .ok info := by
  have h : D.Conforms false s (Action.ofExcept (ClassInfo.ofDecl s.store decl))
      (Action.ofExcept (ClassInfo.ofDecl s.store decl))
      fun _ info => ClassInfo.ofDecl s.store decl = .ok info := by
    refine .ofExcept hs ?_
    cases hdecl : ClassInfo.ofDecl s.store decl with
    | ok info => rfl
    | error fault => exact L.err_ordinary (ClassInfo.ofDecl_error hdecl)
  refine ⟨h.twin, ?_⟩
  cases hdecl : ClassInfo.ofDecl s.store decl with
  | ok info => exact ⟨.refl _ _, hs, hdecl⟩
  | error fault => exact ⟨.refl _ _, hs, L.err_ordinary (ClassInfo.ofDecl_error hdecl)⟩

theorem declareClass_conforms (L : D.Laws) (hrun : D.Runs run run') (hs : D.Inv s)
    (decl : ClassDecl) :
    D.Conforms false s (run.declareClass decl) (run'.declareClass decl) fun _ _ => True := by
  refine (L.describeClass_conforms hs decl).bind fun info s₁ _ hs₁ hinfo => ?_
  refine (L.declareClassInfo_conforms hs₁ (.ofClass hinfo) decl.line).bind
    fun cls s₂ _ hs₂ hcls => ?_
  refine L.initializeStatics_conforms hrun hs₂ hcls.2 decl.line _ fun field hfield => ?_
  obtain ⟨hmem, hown⟩ := List.mem_filter.mp hfield
  rw [Bool.and_eq_true, beq_iff_eq] at hown
  have hinfo : s₂.store.classInfo cls = info := by
    rw [Store.classInfo, hcls.2]
    rfl
  exact ⟨L.init_field hs₂ hcls.1 (hinfo ▸ hmem), hown⟩

/-! ## Conditions, bodies and loops -/

theorem evalCondition_conforms (L : D.Laws) (hrun : D.Runs run run') (hs : D.Inv s)
    (condition : Expr) (line : Nat) :
    D.Conforms false s (run.evalCondition condition line) (run'.evalCondition condition line)
      fun _ _ => True :=
  (hrun.eval hs condition none).bind fun v s₁ _ hs₁ _ =>
    L.askStore_conforms hs₁ line (s₁.store.asBool_answers v) fun _ _ => trivial

theorem execBlock_conforms (L : D.Laws) (hrun : D.Runs run run') (hs : D.Inv s)
    (statements : List Statement) (line : Nat) :
    D.Conforms false s (Eval.inScope line (run.execAll statements))
      (Eval.inScope line (run'.execAll statements)) D.Sig :=
  .inScope L hs line (execAll_conforms hrun (L.enter hs) statements)

theorem execBody_conforms (L : D.Laws) (hrun : D.Runs run run') (hs : D.Inv s)
    (body : Statement) :
    D.Conforms false s (run.execBody body) (run'.execBody body) D.Sig := by
  unfold Interpreter.execBody
  split
  · exact L.execBlock_conforms hrun hs _ _
  · exact .inScope L hs _ (hrun.exec (L.enter hs) body).toBinding

theorem execBranch_conforms (L : D.Laws) (hrun : D.Runs run run') (hs : D.Inv s)
    (condition : Expr) (onTrue : Statement) (onFalse : Option Statement) (line : Nat) :
    D.Conforms false s (run.execBranch condition onTrue onFalse line)
      (run'.execBranch condition onTrue onFalse line) D.Sig := by
  refine (L.evalCondition_conforms hrun hs condition line).bind fun b s₁ _ hs₁ _ => ?_
  split
  · exact L.execBody_conforms hrun hs₁ onTrue
  · cases onFalse with
    | some statement => exact L.execBody_conforms hrun hs₁ statement
    | none => exact .pure hs₁ trivial

/-- A loop conforms if its test, its body and its step do, in every permitted session. -/
theorem iterate_conforms (hs : D.Inv s) {test test' : Eval Bool} {body body' : Eval Signal}
    {after after' : Eval Unit}
    (htest : ∀ {s}, D.Inv s → D.Conforms false s test test' fun _ _ => True)
    (hbody : ∀ {s}, D.Inv s → D.Conforms false s body body' D.Sig)
    (hafter : ∀ {s}, D.Inv s → D.Conforms false s after after' fun _ _ => True) (fuel : Nat) :
    D.Conforms false s (iterate test body after fuel) (iterate test' body' after' fuel)
      D.Sig := by
  induction fuel generalizing s with
  | zero => exact .outOfFuel
  | succ fuel ih =>
      refine (htest hs).bind fun b s₁ _ hs₁ _ => ?_
      cases b with
      | false => exact .pure hs₁ trivial
      | true =>
          refine (hbody hs₁).bind fun signal s₂ _ hs₂ hsig => ?_
          cases signal with
          | normal | continueLoop => exact (hafter hs₂).bind fun _ s₃ _ hs₃ _ => ih hs₃
          | breakLoop => exact .pure hs₂ trivial
          | returned _ | thrown _ => exact .pure hs₂ hsig

theorem execWhile_conforms (L : D.Laws) (hrun : D.Runs run run') (hs : D.Inv s) (fuel : Nat)
    (condition : Expr) (body : Statement) (line : Nat) :
    D.Conforms false s (run.execWhile fuel condition body line)
      (run'.execWhile fuel condition body line) D.Sig :=
  iterate_conforms hs (fun hs => L.evalCondition_conforms hrun hs condition line)
    (fun hs => L.execBody_conforms hrun hs body) (fun hs => .pure hs trivial) fuel

theorem execDoWhile_conforms (L : D.Laws) (hrun : D.Runs run run') (hs : D.Inv s) (fuel : Nat)
    (body : Statement) (condition : Expr) (line : Nat) :
    D.Conforms false s (run.execDoWhile fuel body condition line)
      (run'.execDoWhile fuel body condition line) D.Sig := by
  refine (L.execBody_conforms hrun hs body).bind fun signal s₁ _ hs₁ hsig => ?_
  cases signal with
  | normal | continueLoop => exact L.execWhile_conforms hrun hs₁ fuel condition body line
  | breakLoop => exact .pure hs₁ trivial
  | returned _ | thrown _ => exact .pure hs₁ hsig

theorem optionalCondition_conforms (L : D.Laws) (hrun : D.Runs run run') (hs : D.Inv s)
    (condition : Option Expr) (line : Nat) :
    D.Conforms false s (run.optionalCondition condition line)
      (run'.optionalCondition condition line) fun _ _ => True := by
  cases condition with
  | some condition => exact L.evalCondition_conforms hrun hs condition line
  | none => exact .pure hs trivial

theorem optionalStep_conforms (hrun : D.Runs run run') (hs : D.Inv s) (step : Option Expr) :
    D.Conforms false s (run.optionalStep step) (run'.optionalStep step) fun _ _ => True := by
  cases step with
  | some step => exact (hrun.eval hs step none).bind fun _ s₁ _ hs₁ _ => .pure hs₁ trivial
  | none => exact .pure hs trivial

theorem optionalStart_conforms (hrun : D.Runs run run') (hs : D.Inv s)
    (initial : Option Statement) :
    D.Conforms true s (run.optionalStart initial) (run'.optionalStart initial) D.Sig := by
  cases initial with
  | some statement => exact (hrun.exec hs statement).toBinding
  | none => exact .pure hs trivial

theorem execFor_conforms (L : D.Laws) (hrun : D.Runs run run') (hs : D.Inv s) (fuel : Nat)
    (initial : Option Statement) (condition step : Option Expr) (body : Statement) (line : Nat) :
    D.Conforms false s (run.execFor fuel initial condition step body line)
      (run'.execFor fuel initial condition step body line) D.Sig := by
  refine .inScope L hs line ?_
  refine (optionalStart_conforms hrun (L.enter hs) initial).bind fun signal s₁ _ hs₁ hsig => ?_
  cases signal with
  | normal =>
      exact (iterate_conforms hs₁
        (fun hs => L.optionalCondition_conforms hrun hs condition line)
        (fun hs => L.execBody_conforms hrun hs body)
        (fun hs => optionalStep_conforms hrun hs step) fuel).toBinding
  | breakLoop | continueLoop | returned _ | thrown _ => exact .pure hs₁ hsig

/-! ## Switch -/

theorem selectCase_conforms (L : D.Laws) (hrun : D.Runs run run') (hs : D.Inv s)
    (subject : Value) (cases : List SwitchCase) :
    D.Conforms false s (run.selectCase subject cases) (run'.selectCase subject cases)
      fun _ _ => True := by
  induction cases generalizing s with
  | nil => exact .pure hs trivial
  | cons case rest ih =>
      refine (hrun.eval hs case.value none).bind fun candidate s₁ _ hs₁ _ => ?_
      refine L.askStoreThen_conforms hs₁ case.line (s₁.store.caseTest_answers subject candidate)
        fun equal _ _ => ?_
      cases equal with
      | true => exact .pure hs₁ trivial
      | false => exact ih hs₁

theorem execCase_conforms (L : D.Laws) (hrun : D.Runs run run') (hs : D.Inv s)
    (body : List Statement) (line : Nat) :
    D.Conforms false s (run.execCase body line) (run'.execCase body line) D.Sig := by
  refine (L.execBlock_conforms hrun hs body line).bind fun signal s₁ _ hs₁ hsig => ?_
  cases signal with
  | breakLoop => exact .pure hs₁ trivial
  | normal | continueLoop | returned _ | thrown _ => exact .pure hs₁ hsig

theorem execSwitch_conforms (L : D.Laws) (hrun : D.Runs run run') (hs : D.Inv s)
    (subject : Expr) (cases : List SwitchCase) (fallback : Option (List Statement))
    (line : Nat) :
    D.Conforms false s (run.execSwitch subject cases fallback line)
      (run'.execSwitch subject cases fallback line) D.Sig := by
  refine (hrun.eval hs subject none).bind fun v s₁ _ hs₁ _ => ?_
  refine (L.selectCase_conforms hrun hs₁ v cases).bind fun selected s₂ _ hs₂ _ => ?_
  cases selected with
  | some case => exact L.execCase_conforms hrun hs₂ case.body case.line
  | none =>
      cases fallback with
      | some body => exact L.execCase_conforms hrun hs₂ body line
      | none => exact .pure hs₂ trivial

/-! ## Exceptions -/

/-- What a `try` hands to its clauses was thrown by the program or is a text. -/
theorem val_thrownValue (L : D.Laws) {st : Store} {result : Except Fault Signal}
    (hresult : D.Caught D.Sig st result) {v : Value}
    (h : Interpreter.thrownValue? result st = some v) : D.Val st v := by
  cases result with
  | ok signal =>
      cases signal with
      | thrown w =>
          obtain rfl : w = v := Option.some.inj h
          exact hresult
      | normal | breakLoop | continueLoop | returned _ => cases h
  | error fault =>
      obtain ⟨cause, line⟩ := fault
      obtain ⟨-, hcaught⟩ := Option.ite_none_right_eq_some.mp h
      obtain rfl := Option.some.inj hcaught
      cases cause with
      | thrown w => exact L.err_thrown.mp hresult
      | _ => exact L.val_plain rfl

theorem execClause_conforms (L : D.Laws) (hrun : D.Runs run run') (hs : D.Inv s)
    (clause : CatchClause) {v : Value} (hv : D.Val s.store v) :
    D.Conforms false s (run.execClause clause v) (run'.execClause clause v) D.Sig := by
  refine .readThen (fun _ => rfl) (.inScope L hs clause.line ?_)
  exact (L.declareVariable_conforms (L.enter hs) hv clause.name _ false clause.line).bind
    fun _ s₁ _ hs₁ _ => execAll_conforms hrun hs₁ clause.body

theorem execCatches_conforms (L : D.Laws) (hrun : D.Runs run run') (hs : D.Inv s)
    (catches : List CatchClause) {result : Except Fault Signal}
    (hresult : D.Caught D.Sig s.store result) :
    D.Conforms false s (run.execCatches catches result) (run'.execCatches catches result)
      D.Sig := by
  refine .readThen (fun _ => rfl) ?_
  cases hthrown : Interpreter.thrownValue? result s.store with
  | none => exact .ofExcept hs hresult
  | some v =>
      refine .readThen (fun _ => rfl) ?_
      cases Interpreter.findClause? catches v s.store with
      | some clause =>
          exact L.execClause_conforms hrun hs clause (L.val_thrownValue hresult hthrown)
      | none => exact .ofExcept hs hresult

theorem execTry_conforms (L : D.Laws) (hrun : D.Runs run run') (hs : D.Inv s)
    (body : List Statement) (catches : List CatchClause) (finalizer : Option (List Statement))
    (line : Nat) :
    D.Conforms false s (run.execTry body catches finalizer line)
      (run'.execTry body catches finalizer line) D.Sig := by
  refine (L.execBlock_conforms hrun hs body line).attempt.bind fun result s₁ _ hs₁ hresult => ?_
  refine (L.execCatches_conforms hrun hs₁ catches hresult).attempt.bind
    fun result s₂ _ hs₂ hresult => ?_
  cases finalizer with
  | none => exact .ofExcept hs₂ hresult
  | some statements =>
      refine (L.execBlock_conforms hrun hs₂ statements line).bind fun signal s₃ hk₃ hs₃ hsig => ?_
      cases signal with
      -- The result from before the finalizer still stands; the store may have grown since.
      | normal => exact .ofExcept hs₃ (Caught.grows L hk₃.store hresult)
      | breakLoop | continueLoop | returned _ | thrown _ => exact .pure hs₃ hsig

end Laws

end Discipline

end ClassScript
