import ClassScript.Proofs.Jumps.Steps

/-!
# Orderly expressions

Calls are where jumps are stopped. The body of a well-placed function ends normally, with `return`
or with a thrown value, so the call has a result or fails for another reason than an escaped jump.
Every expression and every constructor is orderly if its parts are.
-/

namespace ClassScript

/-- Both interpreters run well-placed code in an orderly way: the second does what the first does,
and a statement ends as its place allows. -/
structure Interpreter.Orderly (run run' : Interpreter) : Prop where
  eval (e : Expr) (expected : Option Ty) : Eval.Tame (run.eval e expected) (run'.eval e expected)
  exec {p : Place} {statement : Statement} (h : statement.WellPlaced p) :
    Eval.Orderly (run.exec statement) (run'.exec statement) p.Allows
  construct {c : Construction} (h : c.constructor.decl.WellPlaced) :
    Eval.Tame (run.construct c) (run'.construct c)

namespace Interpreter.Orderly

variable {run run' : Interpreter}

/-! ## Lists of parts -/

theorem evalAll (h : run.Orderly run') (es : List Expr) :
    Eval.Tame (run.evalAll es) (run'.evalAll es) := by
  induction es with
  | nil => exact .pure trivial
  | cons e rest ih => exact (h.eval e none).bind fun _ _ => ih.bind fun _ _ => .pure trivial

/-- Statements end as the first one does that does not end normally. -/
theorem execAll (h : run.Orderly run') {p : Place} {statements : List Statement}
    (hplaced : WellPlacedAll p statements) :
    Eval.Orderly (run.execAll statements) (run'.execAll statements) p.Allows := by
  induction statements with
  | nil => exact .pure trivial
  | cons statement rest ih =>
      refine (h.exec hplaced.1).bind fun signal hsignal => ?_
      cases signal with
      | normal => exact ih hplaced.2
      | _ => exact .pure hsignal

/-! ## Calls -/

/-- If its body ended as the body of a function may end, a call has a result, or the reason why it
has none is no escaped jump. -/
theorem callResult {signal : Signal} (hsignal : Place.body.Allows signal) (name : String) (ty : Ty)
    (line : Nat) :
    Eval.Tame (Eval.askStore line (callResult name ty signal))
      (Eval.askStore line (ClassScript.callResult name ty signal)) := by
  refine .ask line (fun _ _ => trivial) fun {s cause} _ herror => ?_
  have hchecked (v : Value) : Answers (fun _ => True)
      (do s.store.check ty v; .ok v : Except Cause Value) :=
    (s.store.check_answers ty v).bind fun _ _ => trivial
  have hreason (v : Value) (herror : (do s.store.check ty v; .ok v : Except Cause Value) =
      .error cause) : cause.isEscape = false :=
    Cause.not_isEscape_of_isReason ((hchecked v).isReason_of_error herror)
  unfold ClassScript.callResult at herror
  cases signal with
  | breakLoop => cases hsignal
  | continueLoop => cases hsignal
  | thrown v =>
      cases herror
      rfl
  | normal =>
      dsimp only at herror
      split at herror
      · cases herror
      · cases herror
        rfl
  | returned result =>
      cases result with
      | none =>
          dsimp only at herror
          split at herror
          · cases herror
          · exact hreason .void herror
      | some v =>
          dsimp only at herror
          split at herror
          · cases herror
            rfl
          · exact hreason v herror

theorem callFunction (h : run.Orderly run') {decl : FunctionDecl} (hdecl : decl.WellPlaced)
    (frame : CallFrame) (args : List Value) (line : Nat) :
    Eval.Tame (run.callFunction decl frame args line) (run'.callFunction decl frame args line) := by
  refine (Eval.Orderly.queryStore line fun st => st.checkArguments_answers _ _ _).bind
    fun _ _ => ?_
  have hbody := (Eval.Orderly.bindParameters line decl.params args).bind
    fun _ _ => h.execAll hdecl.all
  exact (hbody.withFrame frame line).bind fun signal hsignal => callResult hsignal _ _ line

/-- A native method fails for a reason of the call or for one of its own, which is no jump. -/
theorem callNative {cls : ClassId} {method : MethodInfo} {native : NativeMethod}
    (hnative : (MethodBody.native native).WellPlaced) (args : List Value) (line : Nat) :
    Eval.Tame (Eval.askStore line (callNative cls method native args))
      (Eval.askStore line (Interpreter.callNative cls method native args)) := by
  refine .ask line (fun _ _ => trivial) fun {s cause} _ herror => ?_
  rcases Store.callNative_isReason herror with hreason | hown
  · exact Cause.not_isEscape_of_isReason hreason
  · cases cause with
    | controlFlowEscape jump => exact absurd hown (hnative _ _ jump)
    | _ => rfl

theorem invoke (h : run.Orderly run') (cls : ClassId) {method : MethodInfo}
    (hmethod : method.body.WellPlaced) (self : Option ObjectId) (args : List Value) (line : Nat) :
    Eval.Tame (run.invoke cls method self args line) (run'.invoke cls method self args line) := by
  unfold Interpreter.invoke
  cases hbody : method.body with
  | user decl =>
      rw [hbody] at hmethod
      exact Eval.Orderly.look.bind fun frame _ => h.callFunction hmethod frame args line
  | native native =>
      rw [hbody] at hmethod
      exact callNative hmethod args line
  | abstract => exact Eval.Orderly.look.bind fun _ _ => .raise rfl line

/-- The methods that a question finds are well placed. -/
theorem findMethod {question : Session → Except Cause MethodInfo} (line : Nat)
    (h : ∀ s, Answers (fun method => ∃ cls name,
      (s.store.classInfo cls).methods.find? name = some method) (question s)) :
    Eval.Orderly (Eval.ask line question) (Eval.ask line question)
      fun method => method.body.WellPlaced := by
  refine .ask line (fun {s method} hs hok => ?_) fun _ hq =>
    Cause.not_isEscape_of_isReason ((h _).isReason_of_error hq)
  obtain ⟨cls, name, hfind⟩ := (h s).of_ok hok
  exact (hs.classes cls).methods hfind

theorem callOwnMethod (h : run.Orderly run') (scope : MemberScope) (name : String)
    (args : List Value) (line : Nat) :
    Eval.Tame (run.callOwnMethod scope name args line)
      (run'.callOwnMethod scope name args line) := by
  refine (findMethod line fun s =>
    (s.findMethod_answers scope.cls name).mono fun _ h => ⟨_, _, h⟩).bind fun method hmethod => ?_
  split
  · exact h.invoke scope.cls hmethod none args line
  · exact (Eval.Orderly.query line fun s => s.receiver_answers scope name).bind fun self _ =>
      h.invoke scope.cls hmethod (some self) args line

theorem callNamed (h : run.Orderly run') (name : String) (args : List Value) (line : Nat) :
    Eval.Tame (run.callNamed name args line) (run'.callNamed name args line) := by
  unfold Interpreter.callNamed
  cases Builtin.ofName? name with
  | some b => exact .builtin b name args line
  | none =>
      refine Eval.Orderly.look.bind fun own _ => ?_
      cases own with
      | some scope => exact h.callOwnMethod scope name args line
      | none =>
          have hfunction : Eval.Orderly (Action.read (·.functions.find? name) : Eval _) _
              fun found => ∀ decl ∈ found, decl.WellPlaced :=
            .read fun hs decl hdecl => hs.functions hdecl
          refine hfunction.bind fun found hfound => ?_
          cases found with
          | some decl => exact h.callFunction (hfound decl rfl) _ args line
          | none => exact .raise rfl line

/-! ## Declared values and instances -/

theorem declaredSize (h : run.Orderly run') (decl : VariableDecl) :
    Eval.Tame (run.declaredSize decl) (run'.declaredSize decl) := by
  obtain ⟨name, ty, length, initializer, isConst, line⟩ := decl
  cases length with
  | none => exact .pure trivial
  | some length =>
      cases length with
      | inferred => exact .pure trivial
      | explicit size =>
          refine (h.eval size none).bind fun v _ => ?_
          refine (Eval.Orderly.queryStore line fun st => st.asInt_answers v).bind fun count _ => ?_
          refine (Eval.Orderly.query line fun _ => Store.itemCount_answers count).bind fun _ _ => ?_
          exact .pure trivial

theorem declaredValue (h : run.Orderly run') (decl : VariableDecl) :
    Eval.Tame (run.declaredValue decl) (run'.declaredValue decl) := by
  refine (h.declaredSize decl).bind fun size _ => ?_
  obtain ⟨name, ty, length, initializer, isConst, line⟩ := decl
  cases initializer with
  | some initializer =>
      refine (h.eval initializer (some ty)).bind fun v _ => ?_
      exact (Eval.Orderly.queryStore line fun st => st.checkSize_answers size v).bind
        fun _ _ => .pure trivial
  | none =>
      cases size with
      | some size =>
          exact (Eval.Orderly.query line fun _ => Store.itemCount_answers size).bind
            fun count _ => .allocate fun h => h
      | none => exact .pure trivial

theorem fieldValue (h : run.Orderly run') (field : FieldInfo) (scope : MemberScope) (line : Nat) :
    Eval.Tame (run.fieldValue field scope line) (run'.fieldValue field scope line) := by
  have hcheck (v : Value) : Eval.Tame
      (do Eval.askStore line fun st => st.check field.ty v
          return v : Eval Value) _ :=
    (Eval.Orderly.queryStore line fun st => st.check_answers field.ty v).bind
      fun _ _ => .pure trivial
  unfold Interpreter.fieldValue
  cases field.init with
  | value v => exact hcheck v
  | declared decl =>
      refine Eval.Orderly.look.bind fun frame _ => ?_
      exact ((h.declaredValue decl).withFrame frame line).bind fun v _ => hcheck v

theorem initializeFields (h : run.Orderly run') (cls : ClassId) (self : ObjectId) (line : Nat)
    (fields : List FieldInfo) :
    Eval.Tame (run.initializeFields cls self line fields)
      (run'.initializeFields cls self line fields) := by
  induction fields with
  | nil => exact .pure trivial
  | cons field rest ih =>
      refine (h.fieldValue field _ line).bind fun v _ => ?_
      exact (Eval.Orderly.putField self field.name v).bind fun _ _ => ih

theorem new (h : run.Orderly run') (className : String) (arguments : List Expr) (line : Nat) :
    Eval.Tame (run.new className arguments line) (run'.new className arguments line) := by
  refine (Eval.Orderly.queryStore line fun st => st.instantiable_answers className).bind
    fun cls _ => ?_
  refine (h.evalAll arguments).bind fun args _ => ?_
  refine (Eval.Orderly.query line fun s => s.checkConstructor_answers cls args).bind fun _ _ => ?_
  refine (Eval.Orderly.allocate fun h => h).bind fun self _ => ?_
  refine Eval.Orderly.look.bind fun fields _ => ?_
  refine (h.initializeFields cls self line fields).bind fun _ _ => ?_
  have hfind : Eval.Orderly
      (Action.read fun s => (s.store.classInfo cls).constructor : Eval _) _
      fun found => ∀ c ∈ found, c.decl.WellPlaced :=
    .read fun hs _ hc => (hs.classes cls).constructor hc
  refine hfind.bind fun found hfound => ?_
  cases found with
  | some constructor =>
      exact (h.construct (hfound constructor rfl)).bind fun _ _ => .pure trivial
  | none => exact .pure trivial

theorem constructParent (h : run.Orderly run') (c : Construction) :
    Eval.Tame (run.constructParent c) (run'.constructParent c) := by
  refine (Eval.Orderly.queryStore c.line fun st => st.getClass_answers _).bind
    fun ownerClass _ => ?_
  refine Eval.Orderly.look.bind fun parent? _ => ?_
  cases parent? with
  | none =>
      dsimp only
      split
      · exact .raise rfl c.line
      · exact .pure trivial
  | some parent =>
      refine (h.evalAll _).bind fun args _ => ?_
      have hinfo : Eval.Orderly (Action.read fun s => s.store.classInfo parent : Eval _) _
          ClassInfo.WellPlaced :=
        .read fun hs => hs.classes parent
      refine hinfo.bind fun info hinfo => ?_
      cases hc : info.constructor with
      | some constructor => exact h.construct (hinfo.constructor hc)
      | none =>
          dsimp only
          split
          · exact .pure trivial
          · exact .raise rfl c.line

theorem constructStep (h : run.Orderly run') {c : Construction}
    (hc : c.constructor.decl.WellPlaced) :
    Eval.Tame (run.constructStep c) (run'.constructStep c) := by
  refine (Eval.Orderly.queryStore c.line fun st => st.checkArguments_answers _ _ _).bind
    fun _ _ => ?_
  refine Eval.Orderly.look.bind fun frame _ => ?_
  -- The body is placed as that of a function, so of all jumps only `return` can end it.
  have hbody := (Eval.Orderly.bindParameters c.line c.constructor.decl.params c.arguments).bind
    fun _ _ => (h.constructParent c).bind fun _ _ => h.execAll hc.all
  refine (hbody.withFrame frame c.line).bind fun signal hsignal => ?_
  exact (callResult hsignal _ _ c.line).bind fun _ _ => .pure trivial

/-! ## Members and methods -/

theorem evalMember (h : run.Orderly run') (object : Expr) (name : String) (line : Nat) :
    Eval.Tame (run.evalMember object name line) (run'.evalMember object name line) := by
  refine Eval.Orderly.look.bind fun static? _ => ?_
  cases static? with
  | some cls => exact .query line fun s => s.readStatic_answers cls name
  | none =>
      refine (h.eval object none).bind fun receiver _ => ?_
      have hread : Eval.Tame
          (Eval.ask line fun s => do s.readField (← s.objectOf receiver name) name) _ :=
        .query line fun s => (s.objectOf_answers receiver name).bind
          fun id _ => (s.readField_answers id name).mono fun _ _ => trivial
      split
      · exact .queryStore line fun st => st.length_answers _
      · exact .queryStore line fun st => st.length_answers _
      · exact hread

theorem callStatic (h : run.Orderly run') (cls : ClassId) (name : String) (arguments : List Expr)
    (line : Nat) :
    Eval.Tame (run.callStatic cls name arguments line)
      (run'.callStatic cls name arguments line) := by
  refine (findMethod line fun s => (s.findMethod_answers cls name).bind
    fun method hfind => ?_).bind fun method hmethod => ?_
  · split
    · exact ⟨cls, name, hfind⟩
    · rfl
  · exact (h.evalAll arguments).bind fun args _ => h.invoke cls hmethod none args line

theorem callInstance (h : run.Orderly run') (receiver : Value) (name : String)
    (arguments : List Expr) (line : Nat) :
    Eval.Tame (run.callInstance receiver name arguments line)
      (run'.callInstance receiver name arguments line) := by
  refine (Eval.Orderly.query line fun s => s.objectOf_answers receiver name).bind fun self _ => ?_
  refine Eval.Orderly.look.bind fun cls _ => ?_
  refine (findMethod line fun s => (s.findMethod_answers cls name).bind
    fun method hfind => ?_).bind fun method hmethod => ?_
  · split
    · rfl
    · exact ⟨cls, name, hfind⟩
  · exact (h.evalAll arguments).bind fun args _ => h.invoke cls hmethod (some self) args line

theorem evalMethodCall (h : run.Orderly run') (object : Expr) (name : String)
    (arguments : List Expr) (line : Nat) :
    Eval.Tame (run.evalMethodCall object name arguments line)
      (run'.evalMethodCall object name arguments line) := by
  refine Eval.Orderly.look.bind fun static? _ => ?_
  cases static? with
  | some cls => exact h.callStatic cls name arguments line
  | none =>
      refine (h.eval object none).bind fun receiver _ => ?_
      exact h.callInstance receiver name arguments line

/-! ## Assignments, operators and array literals -/

theorem writeMember (h : run.Orderly run') (object : Expr) (name : String) (v : Value)
    (line : Nat) :
    Eval.Tame (run.writeMember object name v line) (run'.writeMember object name v line) := by
  refine Eval.Orderly.look.bind fun static? _ => ?_
  cases static? with
  | some cls => exact .writeStatic cls name v line
  | none =>
      refine (h.eval object none).bind fun receiver _ => ?_
      exact (Eval.Orderly.query line fun s => s.objectOf_answers receiver name).bind
        fun id _ => .writeField id name v line

theorem evalAssign (h : run.Orderly run') (target : Target) (value : Expr) (line : Nat) :
    Eval.Tame (run.evalAssign target value line) (run'.evalAssign target value line) := by
  cases target with
  | var name =>
      refine (h.eval value none).bind fun v _ => ?_
      exact (Eval.Orderly.writeName name v line).bind fun _ _ => .pure trivial
  | index array position =>
      refine (h.eval array none).bind fun array _ => ?_
      refine (h.eval position none).bind fun position _ => ?_
      refine (Eval.Orderly.queryStore line fun st => st.asInt_answers position).bind
        fun index _ => ?_
      refine (h.eval value none).bind fun v _ => ?_
      exact (Eval.Orderly.assignItem array index v line).bind fun _ _ => .pure trivial
  | member object name =>
      refine (h.eval value none).bind fun v _ => ?_
      exact (h.writeMember object name v line).bind fun _ _ => .pure trivial

theorem evalBinary (h : run.Orderly run') (left : Expr) (op : BinaryOp) (right : Expr)
    (line : Nat) :
    Eval.Tame (run.evalBinary left op right line) (run'.evalBinary left op right line) := by
  refine (h.eval left none).bind fun a _ => ?_
  split
  · exact .pure trivial
  · refine (h.eval right none).bind fun b _ => ?_
    exact .queryStore line fun st => st.applyBinary_answers op a b

theorem evalElements (h : run.Orderly run') (elementType : Option Ty) (es : List Expr) :
    Eval.Tame (run.evalElements elementType es) (run'.evalElements elementType es) := by
  induction es with
  | nil => exact .pure trivial
  | cons e rest ih =>
      exact (h.eval e elementType).bind fun _ _ => ih.bind fun _ _ => .pure trivial

theorem evalArray (h : run.Orderly run') (es : List Expr) (elementType : Option Ty) (line : Nat) :
    Eval.Tame (run.evalArray es elementType line) (run'.evalArray es elementType line) := by
  refine (h.evalElements elementType es).bind fun items _ => ?_
  exact (Eval.Orderly.queryStore line fun st => st.literalType_answers elementType items).bind
    fun element _ => .allocate fun h => h

/-- An expression is orderly if its parts are. -/
theorem evalStep (h : run.Orderly run') (e : Expr) (expected : Option Ty) :
    Eval.Tame (run.evalStep e expected) (run'.evalStep e expected) := by
  cases e with
  | literal value line => exact .pure trivial
  | var name line => exact .query line fun s => s.readName_answers name
  | self line => exact .query line fun s => s.currentSelf_answers
  | unary op operand line =>
      refine (h.eval operand none).bind fun v _ => ?_
      exact .queryStore line fun st => st.applyUnary_answers op v
  | binary left op right line => exact h.evalBinary left op right line
  | conditional condition onTrue onFalse line =>
      refine (h.eval condition none).bind fun v _ => ?_
      refine (Eval.Orderly.queryStore line fun st => st.asBool_answers v).bind fun test _ => ?_
      split
      · exact h.eval onTrue none
      · exact h.eval onFalse none
  | assign target value line => exact h.evalAssign target value line
  | call name arguments line =>
      exact (h.evalAll arguments).bind fun args _ => h.callNamed name args line
  | methodCall object name arguments line => exact h.evalMethodCall object name arguments line
  | member object name line => exact h.evalMember object name line
  | index array position line =>
      refine (h.eval array none).bind fun a _ => ?_
      refine (h.eval position none).bind fun i _ => ?_
      refine (Eval.Orderly.queryStore line fun st => st.asInt_answers i).bind fun index _ => ?_
      exact .queryStore line fun st => (st.item_answers a index)
  | array elements elementType line =>
      cases elementType with
      | some element => exact h.evalArray elements (some element) line
      | none => exact h.evalArray elements _ line
  | new className arguments line => exact h.new className arguments line
  | typeTest operand ty line =>
      refine (h.eval operand none).bind fun v _ => ?_
      exact Eval.Orderly.look.bind fun test _ => .pure trivial

end Interpreter.Orderly

end ClassScript
