import ClassScript.Proofs.Answers
import ClassScript.Proofs.Conformance

/-!
# Conduct of calls

The small steps on variables, members and the console, and the calls of functions and methods,
conform to every discipline whose laws hold, if the interpreters of the parts do.
-/

namespace ClassScript

/-- The statement binds names directly in the innermost block. -/
def Statement.binds : Statement → Bool
  | .declare _ | .includeModule .. => true
  | _ => false

namespace Discipline

variable {D : Discipline}

/-- The two interpreters conform in every session that observes the discipline. -/
structure Runs (D : Discipline) (run run' : Interpreter) : Prop where
  eval {s : Session} (hs : D.Inv s) (e : Expr) (expected : Option Ty) :
    D.Conforms false s (run.eval e expected) (run'.eval e expected) D.Val
  exec {s : Session} (hs : D.Inv s) (statement : Statement) :
    D.Conforms statement.binds s (run.exec statement) (run'.exec statement) D.Sig
  construct {s : Session} (hs : D.Inv s) (c : Construction)
    (hbuilt : D.Built c.self) (hself : D.Admits s.store c.cls c.self)
    (hargs : ∀ a ∈ c.arguments, D.Val s.store a) :
    D.Conforms false s (run.construct c) (run'.construct c) fun _ _ => True

namespace Laws

variable {run run' : Interpreter} {s : Session} {binds : Bool} {α β : Type}
  {Q : Store → α → Prop} {R : Store → β → Prop} {P : α → Prop}

/-! ## Questions with an answer or an ordinary fault -/

theorem ask_conforms (L : D.Laws) (hs : D.Inv s) {question : Session → Except Cause α} (line : Nat)
    (hlocal : ∀ around : OuterScopes, around.Suit binds s → question (s.amid around) = question s)
    (h : Answers P (question s)) (hQ : ∀ a, P a → Q s.store a) :
    D.Conforms binds s (Eval.ask line question) (Eval.ask line question) Q :=
  .ask hs line hlocal (fun a ha => hQ a (h.of_ok ha)) fun _ hc => L.err_ordinary (h.of_error hc)

theorem askStore_conforms (L : D.Laws) (hs : D.Inv s) {question : Store → Except Cause α}
    (line : Nat)
    (h : Answers P (question s.store)) (hQ : ∀ a, P a → Q s.store a) :
    D.Conforms binds s (Eval.askStore line question) (Eval.askStore line question) Q :=
  L.ask_conforms hs line (fun _ _ => rfl) h hQ

theorem askThen_conforms (L : D.Laws) (hs : D.Inv s) {question : Session → Except Cause α}
    {f g : α → Eval β} (line : Nat)
    (hlocal : ∀ around : OuterScopes, around.Suit binds s → question (s.amid around) = question s)
    (h : Answers P (question s))
    (hf : ∀ a, question s = .ok a → P a → D.Conforms binds s (f a) (g a) R) :
    D.Conforms binds s (Eval.ask line question >>= f) (Eval.ask line question >>= g) R :=
  .askThen hs line hlocal (fun _ hc => L.err_ordinary (h.of_error hc))
    fun a ha => hf a ha (h.of_ok ha)

theorem askStoreThen_conforms (L : D.Laws) (hs : D.Inv s) {question : Store → Except Cause α}
    {f g : α → Eval β} (line : Nat) (h : Answers P (question s.store))
    (hf : ∀ a, question s.store = .ok a → P a → D.Conforms binds s (f a) (g a) R) :
    D.Conforms binds s (Eval.askStore line question >>= f) (Eval.askStore line question >>= g) R :=
  L.askThen_conforms hs line (fun _ _ => rfl) h hf

/-! ## Variables, arrays and members -/

theorem declareVariable_conforms (L : D.Laws) (hs : D.Inv s) {v : Value}
    (hv : D.Val s.store v) (name : String) (ty : Ty)
    (isConst : Bool) (line : Nat) :
    D.Conforms true s (Eval.declareVariable name ty v isConst line)
      (Eval.declareVariable name ty v isConst line) fun _ _ => True := by
  refine L.askThen_conforms hs line (fun _ hsuit => hsuit.declarable name ty v)
    (s.scopes.declarable_answers s.store name ty v)
    fun _ hok _ => ?_
  exact .update (fun _ => rfl) ⟨.bind _ _ _, rfl, .refl _⟩ (L.declare hs hv hok) trivial

theorem assignVariable_conforms (L : D.Laws) (hs : D.Inv s) {v : Value}
    (hv : D.Val s.store v) (name : String) (line : Nat) :
    D.Conforms false s (Eval.assignVariable name v line) (Eval.assignVariable name v line)
      fun _ _ => True := by
  refine L.askThen_conforms hs line (fun _ _ => rfl) (s.scopes.assignable_answers s.store name v)
    fun slot hok _ => ?_
  exact .update (fun _ => rfl) ⟨.write _ _ _, rfl, .refl _⟩ (L.assign hs hv hok) trivial

theorem assignItem_conforms (L : D.Laws) (hs : D.Inv s) {v : Value}
    (hv : D.Val s.store v) (target : Value) (index : Int64)
    (line : Nat) :
    D.Conforms false s (Eval.assignItem target index v line)
      (Eval.assignItem target index v line) fun _ _ => True := by
  refine L.askStoreThen_conforms hs line (s.store.itemTarget_answers target index v)
    fun place hok _ => ?_
  exact .updateStore (s.store.grows_putItem _ _ _) (L.putItem hs hv hok) trivial

theorem writeStatic_conforms (L : D.Laws) (hs : D.Inv s) {v : Value}
    (hv : D.Val s.store v) (cls : ClassId) (name : String)
    (line : Nat) :
    D.Conforms false s (Eval.writeStatic cls name v line) (Eval.writeStatic cls name v line)
      fun _ _ => True := by
  refine L.askThen_conforms hs line (fun _ _ => rfl) (s.staticTarget_answers cls name v)
    fun holder hok _ => ?_
  exact .updateStore (s.store.grows_putStatic _ _ _) (L.writeStatic hs hv hok) trivial

theorem writeField_conforms (L : D.Laws) (hs : D.Inv s) {v : Value}
    (hv : D.Val s.store v) (id : ObjectId) (name : String)
    (line : Nat) :
    D.Conforms false s (Eval.writeField id name v line) (Eval.writeField id name v line)
      fun _ _ => True := by
  refine L.askThen_conforms hs line (fun _ _ => rfl) (s.checkFieldWrite_answers id name v)
    fun _ hok _ => ?_
  exact .updateStore (s.store.grows_putField _ _ _) (L.writeField hs hv hok) trivial

theorem writeImplicit_conforms (L : D.Laws) (hs : D.Inv s) {v : Value}
    (hv : D.Val s.store v) (name : String) (line : Nat) :
    D.Conforms false s (Eval.writeImplicit name v line) (Eval.writeImplicit name v line)
      fun _ _ => True := by
  refine .readThen (fun _ => rfl) ?_
  cases s.implicitField? name with
  | none => exact .raise hs line (L.err_ordinary rfl)
  | some member =>
      obtain ⟨scope, field⟩ := member
      dsimp only
      split
      · exact L.writeStatic_conforms hs hv scope.cls name line
      · exact L.askThen_conforms hs line (fun _ _ => rfl) (s.receiver_answers scope name)
          fun id _ _ => L.writeField_conforms hs hv id name line

theorem writeName_conforms (L : D.Laws) (hs : D.Inv s) {v : Value}
    (hv : D.Val s.store v) (name : String) (line : Nat) :
    D.Conforms false s (Eval.writeName name v line) (Eval.writeName name v line)
      fun _ _ => True := by
  refine .readThen (fun _ => rfl) ?_
  split
  · exact L.assignVariable_conforms hs hv name line
  · exact L.writeImplicit_conforms hs hv name line

/-! ## The console -/

theorem printLine_conforms (L : D.Laws) (hs : D.Inv s) (text : String) :
    D.Conforms false s (Eval.printLine text) (Eval.printLine text) fun _ _ => True :=
  .update (fun _ => rfl) ⟨.refl _ _, rfl, .refl _⟩ (L.console hs) trivial

theorem readLine_conforms (L : D.Laws) (hs : D.Inv s) (line : Nat) :
    D.Conforms false s (Eval.readLine line) (Eval.readLine line) fun _ _ => True := by
  have hconsole : D.Inv { s with console := s.console.readLine.2 } := L.console hs
  have hkeeps : s.Keeps false { s with console := s.console.readLine.2 } :=
    ⟨.refl _ _, rfl, .refl _⟩
  refine .bind (Q := fun _ _ => True) ⟨fun _ _ => rfl, hkeeps, hconsole, trivial⟩
    fun input s' _ hs' _ => ?_
  cases input with
  | some text => exact .pure hs' trivial
  | none => exact .raise hs' line (L.err_ordinary rfl)

theorem builtinCall_conforms (L : D.Laws) (hs : D.Inv s) (b : Builtin) (name : String)
    (args : List Value) (line : Nat) :
    D.Conforms false s (b.call name args line) (b.call name args line) D.Val := by
  unfold Builtin.call
  split
  · cases b with
    | print | println =>
        refine .readThen (fun _ => rfl) ?_
        exact (L.printLine_conforms hs _).bind fun _ s' _ hs' _ => .pure hs' (L.val_plain rfl)
    | read =>
        exact (L.readLine_conforms hs line).bind fun _ s' _ hs' _ => .pure hs' (L.val_plain rfl)
    | str => exact .readThen (fun _ => rfl) (.pure hs (L.val_plain rfl))
  · exact .raise hs line (L.err_ordinary rfl)

/-! ## Lists of expressions and statements -/

theorem evalAll_conforms (L : D.Laws) (hrun : D.Runs run run') (hs : D.Inv s) (es : List Expr) :
    D.Conforms false s (run.evalAll es) (run'.evalAll es)
      fun st vs => ∀ v ∈ vs, D.Val st v := by
  induction es generalizing s with
  | nil => exact .pure hs fun _ h => absurd h List.not_mem_nil
  | cons e rest ih =>
      refine (hrun.eval hs e none).bind fun v s₁ _ hs₁ hv => ?_
      refine (ih hs₁).bind fun vs s₂ hk₂ hs₂ hvs => .pure hs₂ fun w hw => ?_
      rcases List.mem_cons.mp hw with rfl | hw
      · exact L.val_grows hk₂.store hv
      · exact hvs w hw

theorem execAll_conforms (hrun : D.Runs run run') (hs : D.Inv s) (statements : List Statement) :
    D.Conforms true s (run.execAll statements) (run'.execAll statements) D.Sig := by
  induction statements generalizing s with
  | nil => exact .pure hs trivial
  | cons statement rest ih =>
      refine (hrun.exec hs statement).toBinding.bind fun signal s₁ _ hs₁ hsig => ?_
      cases signal with
      | normal => exact ih hs₁
      | breakLoop | continueLoop | returned _ | thrown _ => exact .pure hs₁ hsig

/-! ## Functions and methods -/

theorem bindParameters_conforms (L : D.Laws) (hs : D.Inv s) (line : Nat) (params : List Param)
    (args : List Value) (hargs : ∀ a ∈ args, D.Val s.store a) :
    D.Conforms true s (bindParameters line params args) (bindParameters line params args)
      fun _ _ => True := by
  induction params generalizing args s with
  | nil => exact .pure hs trivial
  | cons param params ih =>
      cases args with
      | nil => exact .pure hs trivial
      | cons arg args =>
          have hhead := hargs arg List.mem_cons_self
          refine (L.declareVariable_conforms hs hhead param.name param.ty false line).bind
            fun _ s₁ hk hs₁ _ => ih hs₁ args fun a ha => ?_
          exact L.val_grows hk.store (hargs a (List.mem_cons_of_mem _ ha))

/-- What a call gives back, if its body ended with a permitted signal. -/
theorem callResult_replies (L : D.Laws) {st : Store} {signal : Signal} (hsig : D.Sig st signal)
    (name : String) (returnType : Ty) :
    (∀ v, callResult name returnType signal st = .ok v → D.Val st v) ∧
      ∀ c, callResult name returnType signal st = .error c → D.Err st c := by
  have hchecked (v : Value) (hv : D.Val st v) :
      (∀ w, (do st.check returnType v; .ok v : Except Cause Value) = .ok w → D.Val st w) ∧
        ∀ c, (do st.check returnType v; .ok v : Except Cause Value) = .error c → D.Err st c := by
    have h : Answers (· = v) (do st.check returnType v; .ok v) :=
      (st.check_answers returnType v).bind fun _ _ => rfl
    exact ⟨fun w hw => h.of_ok hw ▸ hv, fun c hc => L.err_ordinary (h.of_error hc)⟩
  cases signal with
  | normal =>
      have h : Answers (·.isPlain = true) (callResult name returnType .normal st) := by
        unfold callResult
        dsimp only
        split <;> rfl
      exact ⟨fun v hv => L.val_plain (h.of_ok hv), fun c hc => L.err_ordinary (h.of_error hc)⟩
  | breakLoop | continueLoop => exact ⟨nofun, fun c hc => by cases hc; exact L.err_ordinary rfl⟩
  | thrown v => exact ⟨nofun, fun c hc => by cases hc; exact L.err_thrown.mpr hsig⟩
  | returned result =>
      cases result with
      | none =>
          unfold callResult
          dsimp only
          split
          · exact ⟨fun v hv => by cases hv; exact L.val_plain rfl, nofun⟩
          · exact hchecked .void (L.val_plain rfl)
      | some v =>
          unfold callResult
          dsimp only
          split
          · exact ⟨nofun, fun c hc => by cases hc; exact L.err_ordinary rfl⟩
          · exact hchecked v hsig

theorem callFunction_conforms (L : D.Laws) (hrun : D.Runs run run') (hs : D.Inv s)
    (decl : FunctionDecl) (frame : CallFrame) (args : List Value) (line : Nat)
    (hargs : ∀ a ∈ args, D.Val s.store a)
    (hself : ∀ scope id, frame.member = some scope → scope.self = some id →
      D.Admits s.store scope.cls id) :
    D.Conforms false s (run.callFunction decl frame args line)
      (run'.callFunction decl frame args line) D.Val := by
  refine L.askStoreThen_conforms hs line (s.store.checkArguments_answers _ _ _) fun _ _ _ => ?_
  refine (Conforms.withFrame (Q := D.Sig) L hs frame line hself fun hs₁ => ?_).bind
    fun signal s₂ _ hs₂ hsig => ?_
  · exact (L.bindParameters_conforms hs₁ line decl.params args hargs).bind
      fun _ s₂ _ hs₂ _ => execAll_conforms hrun hs₂ decl.body
  · have h := L.callResult_replies hsig frame.name decl.returnType
    exact .askStore hs₂ line h.1 h.2

theorem invoke_conforms (L : D.Laws) (hrun : D.Runs run run') (hs : D.Inv s) (cls : ClassId)
    {method : MethodInfo} (hmethod : D.Meth s.store method) (self : Option ObjectId)
    (args : List Value) (line : Nat) (hargs : ∀ a ∈ args, D.Val s.store a)
    (hself : ∀ id, self = some id → D.Admits s.store cls id) :
    D.Conforms false s (run.invoke cls method self args line)
      (run'.invoke cls method self args line) D.Val := by
  unfold Interpreter.invoke
  cases hbody : method.body with
  | user decl =>
      refine .readThen (fun _ => rfl) ?_
      refine L.callFunction_conforms hrun hs decl _ args line hargs fun scope id hscope hid => ?_
      obtain rfl : _ = scope := Option.some.inj hscope
      exact hself id hid
  | native native =>
      have h := L.native cls hs hmethod hbody hargs
      exact .askStore hs line h.1 h.2
  | abstract => exact .readThen (fun _ => rfl) (.raise hs line (L.err_ordinary rfl))

theorem callOwnMethod_conforms (L : D.Laws) (hrun : D.Runs run run') (hs : D.Inv s)
    {scope : MemberScope} (hscope : s.member? = some scope) (name : String) (args : List Value)
    (line : Nat) (hargs : ∀ a ∈ args, D.Val s.store a) :
    D.Conforms false s (run.callOwnMethod scope name args line)
      (run'.callOwnMethod scope name args line) D.Val := by
  refine L.askThen_conforms hs line (fun _ _ => rfl) (s.findMethod_answers scope.cls name)
    fun method _ hfind => ?_
  have hmethod := L.meth_found hs hfind
  split
  · exact L.invoke_conforms hrun hs scope.cls hmethod none args line hargs nofun
  · refine L.askThen_conforms hs line (fun _ _ => rfl) (s.receiver_answers scope name)
      fun self _ hself => ?_
    refine L.invoke_conforms hrun hs scope.cls hmethod (some self) args line hargs
      fun id hid => ?_
    obtain rfl := Option.some.inj hid
    exact ⟨L.val_self hs hscope hself, L.receives_self hs hscope hself⟩

theorem callNamed_conforms (L : D.Laws) (hrun : D.Runs run run') (hs : D.Inv s) (name : String)
    (args : List Value) (line : Nat) (hargs : ∀ a ∈ args, D.Val s.store a) :
    D.Conforms false s (run.callNamed name args line) (run'.callNamed name args line) D.Val := by
  unfold Interpreter.callNamed
  cases Builtin.ofName? name with
  | some b => exact L.builtinCall_conforms hs b name args line
  | none =>
      refine .readThen (fun _ => rfl) ?_
      cases hown : Interpreter.ownMethodScope? name s with
      | some scope =>
          obtain ⟨scope', hscope, hguard⟩ := Option.bind_eq_some_iff.mp hown
          obtain ⟨_, _, hpure⟩ := Option.bind_eq_some_iff.mp hguard
          obtain rfl : scope' = scope := Option.some.inj hpure
          exact L.callOwnMethod_conforms hrun hs hscope name args line hargs
      | none =>
          refine .readThen (fun _ => rfl) ?_
          cases s.functions.find? name with
          | some decl => exact L.callFunction_conforms hrun hs decl _ args line hargs nofun
          | none => exact .raise hs line (L.err_ordinary rfl)

end Laws

end Discipline

end ClassScript
