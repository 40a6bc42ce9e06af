import ClassScript.Evaluation.Interpreter

/-!
# The parts of an interpreter

Which part of an interpreter the rules of evaluation use: lists of expressions and the first values
of fields need only expressions, lists of statements and calls only statements. Constructors are
needed by instantiation and by other constructors, by nothing else.
-/

namespace ClassScript.Interpreter

variable {run run' : Interpreter}

/-! ## Lists and fields -/

theorem evalAll_congr (h : run.eval = run'.eval) (es : List Expr) :
    run.evalAll es = run'.evalAll es := by
  induction es with
  | nil => rfl
  | cons e rest ih => rw [evalAll, evalAll, h, ih]

theorem execAll_congr (h : run.exec = run'.exec) (statements : List Statement) :
    run.execAll statements = run'.execAll statements := by
  induction statements with
  | nil => rfl
  | cons statement rest ih => rw [execAll, execAll, h, ih]

theorem declaredValue_congr (h : run.eval = run'.eval) (decl : VariableDecl) :
    run.declaredValue decl = run'.declaredValue decl := by
  rw [declaredValue, declaredValue, declaredSize, declaredSize, h]

theorem fieldValue_congr (h : run.eval = run'.eval) (field : FieldInfo) (scope : MemberScope)
    (line : Nat) : run.fieldValue field scope line = run'.fieldValue field scope line := by
  simp only [fieldValue, declaredValue_congr h]

theorem initializeFields_congr (h : run.eval = run'.eval) (cls : ClassId) (self : ObjectId)
    (line : Nat) (fields : List FieldInfo) :
    run.initializeFields cls self line fields = run'.initializeFields cls self line fields := by
  induction fields with
  | nil => rfl
  | cons field rest ih =>
      rw [initializeFields, initializeFields]
      simp only [fieldValue_congr h, ih]

/-! ## Expressions -/

theorem evalElements_congr (h : run.eval = run'.eval) (elementType : Option Ty) (es : List Expr) :
    run.evalElements elementType es = run'.evalElements elementType es := by
  induction es with
  | nil => rfl
  | cons e rest ih => rw [evalElements, evalElements, h, ih]

theorem callFunction_congr (h : run.exec = run'.exec) (decl : FunctionDecl) (frame : CallFrame)
    (args : List Value) (line : Nat) :
    run.callFunction decl frame args line = run'.callFunction decl frame args line := by
  rw [callFunction, callFunction, execAll_congr h]

theorem invoke_congr (h : run.exec = run'.exec) (cls : ClassId) (method : MethodInfo)
    (self : Option ObjectId) (args : List Value) (line : Nat) :
    run.invoke cls method self args line = run'.invoke cls method self args line := by
  simp only [invoke, callFunction_congr h]

theorem callNamed_congr (h : run.exec = run'.exec) (name : String) (args : List Value)
    (line : Nat) : run.callNamed name args line = run'.callNamed name args line := by
  simp only [callNamed, callOwnMethod, callFunction_congr h, invoke_congr h]

theorem evalMethodCall_congr (heval : run.eval = run'.eval) (hexec : run.exec = run'.exec)
    (object : Expr) (name : String) (arguments : List Expr) (line : Nat) :
    run.evalMethodCall object name arguments line =
      run'.evalMethodCall object name arguments line := by
  simp only [evalMethodCall, callStatic, callInstance, heval, evalAll_congr heval,
    invoke_congr hexec]

/-- Only instantiation runs constructors. -/
theorem evalStep_congr (heval : run.eval = run'.eval) (hexec : run.exec = run'.exec)
    (hnew : run.new = run'.new) (e : Expr) (expected : Option Ty) :
    run.evalStep e expected = run'.evalStep e expected := by
  cases e with
  | literal | var | self => rfl
  | unary | conditional | index | typeTest => rw [evalStep, evalStep, heval]
  | binary left op right line => rw [evalStep, evalStep, evalBinary, evalBinary, heval]
  | assign target value line =>
      simp only [evalStep, evalAssign, writeMember, heval]
  | call name arguments line =>
      simp only [evalStep, evalAll_congr heval, callNamed_congr hexec]
  | methodCall object name arguments line => exact evalMethodCall_congr heval hexec _ _ _ _
  | member object name line => rw [evalStep, evalStep, evalMember, evalMember, heval]
  | array elements elementType line =>
      cases elementType <;> simp only [evalStep, evalArray, evalElements_congr heval]
  | new className arguments line => rw [evalStep, evalStep, hnew]

/-! ## Statements and programs -/

theorem selectCase_congr (h : run.eval = run'.eval) (subject : Value) (cases : List SwitchCase) :
    run.selectCase subject cases = run'.selectCase subject cases := by
  induction cases with
  | nil => rfl
  | cons case rest ih => rw [selectCase, selectCase, h, ih]

theorem initializeStatics_congr (h : run.eval = run'.eval) (cls : ClassId) (className : String)
    (line : Nat) (fields : List FieldInfo) :
    run.initializeStatics cls className line fields =
      run'.initializeStatics cls className line fields := by
  induction fields with
  | nil => rfl
  | cons field rest ih =>
      rw [initializeStatics, initializeStatics]
      simp only [fieldValue_congr h, ih]

theorem declareClass_congr (h : run.eval = run'.eval) (decl : ClassDecl) :
    run.declareClass decl = run'.declareClass decl := by
  simp only [declareClass, initializeStatics_congr h]

theorem execProgram_congr (heval : run.eval = run'.eval) (hexec : run.exec = run'.exec)
    (program : Program) : run.execProgram program = run'.execProgram program := by
  have hclass : run.hoistClass = run'.hoistClass := by
    funext statement
    cases statement <;> simp only [hoistClass, declareClass_congr heval]
  have htop : run.execTopLevel = run'.execTopLevel := by
    funext statement
    rw [execTopLevel, execTopLevel, hexec]
  rw [execProgram, execProgram, hclass, htop]

theorem execBody_congr (h : run.exec = run'.exec) (body : Statement) :
    run.execBody body = run'.execBody body := by
  cases body <;> simp only [execBody, execAll_congr h, h]

/-- Statements run no constructor themselves. -/
theorem execStep_congr (heval : run.eval = run'.eval) (hexec : run.exec = run'.exec) (fuel : Nat)
    (statement : Statement) : run.execStep fuel statement = run'.execStep fuel statement := by
  have hcondition : run.evalCondition = run'.evalCondition := by
    funext condition line
    rw [evalCondition, evalCondition, heval]
  cases statement with
  | function | interface | enumeration | breakLoop | continueLoop => rfl
  | expression | throwValue => rw [execStep, execStep, heval]
  | declare decl =>
      rw [execStep, execStep, execDeclaration, execDeclaration, declaredValue_congr heval]
  | classType decl => rw [execStep, execStep, declareClass_congr heval]
  | block statements line => rw [execStep, execStep, execAll_congr hexec]
  | branch condition onTrue onFalse line =>
      simp only [execStep, execBranch, hcondition, execBody_congr hexec]
  | whileLoop condition body line =>
      simp only [execStep, execWhile, hcondition, execBody_congr hexec]
  | doWhile body condition line =>
      simp only [execStep, execDoWhile, execWhile, hcondition, execBody_congr hexec]
  | forLoop initial condition step body line =>
      simp only [execStep, execFor, optionalStart, optionalCondition, optionalStep, heval, hexec,
        hcondition, execBody_congr hexec]
  | switch subject cases fallback line =>
      simp only [execStep, execSwitch, execCase, heval, selectCase_congr heval,
        execAll_congr hexec]
  | returnValue value line =>
      simp only [execStep, execReturn, heval]
  | tryCatch body catches finalizer line =>
      simp only [execStep, execTry, execCatches, execClause, execAll_congr hexec]
  | includeModule path line =>
      simp only [execStep, includeModule, execProgram_congr heval hexec]

end ClassScript.Interpreter
