import ClassScript.Evaluation.Declarations

/-!
# Executing statements and programs
-/

namespace ClassScript

/-! ## Loops -/

/-- What a loop does after its body ended. -/
inductive LoopStep where
  | next
  | stop
  | leave (signal : Signal)

def Signal.loopStep : Signal → LoopStep
  | .normal | .continueLoop => .next
  | .breakLoop => .stop
  | signal => .leave signal

/-- Repeats `body` and `after` while `test` holds. -/
def iterate (test : Eval Bool) (body : Eval Signal) (after : Eval Unit) : Nat → Eval Signal
  | 0 => Action.outOfFuel
  | fuel + 1 => do
    if ← test then
      match (← body).loopStep with
      | .next =>
        after
        iterate test body after fuel
      | .stop => return .normal
      | .leave signal => return signal
    else return .normal

namespace Interpreter

/-- The truth value of a condition. -/
def evalCondition (run : Interpreter) (condition : Expr) (line : Nat) : Eval Bool := do
  let value ← run.eval condition none
  Eval.askStore line fun st => st.asBool value

/-- Runs the body of a branch or a loop in a scope of its own. -/
def execBody (run : Interpreter) (body : Statement) : Eval Signal :=
  match body with
  | .block statements line => Eval.inScope line (run.execAll statements)
  | statement => Eval.inScope statement.line (run.exec statement)

def execBranch (run : Interpreter) (condition : Expr) (onTrue : Statement)
    (onFalse : Option Statement) (line : Nat) : Eval Signal := do
  if ← run.evalCondition condition line then run.execBody onTrue
  else
    match onFalse with
    | some statement => run.execBody statement
    | none => return .normal

def execWhile (run : Interpreter) (fuel : Nat) (condition : Expr) (body : Statement)
    (line : Nat) : Eval Signal :=
  iterate (run.evalCondition condition line) (run.execBody body) (return ()) fuel

/-- The body runs once before the condition is tested. -/
def execDoWhile (run : Interpreter) (fuel : Nat) (body : Statement) (condition : Expr)
    (line : Nat) : Eval Signal := do
  match (← run.execBody body).loopStep with
  | .next => run.execWhile fuel condition body line
  | .stop => return .normal
  | .leave signal => return signal

def optionalCondition (run : Interpreter) (condition : Option Expr) (line : Nat) : Eval Bool :=
  match condition with
  | some condition => run.evalCondition condition line
  | none => return true

def optionalStep (run : Interpreter) (step : Option Expr) : Eval Unit := do
  match step with
  | some step =>
    let _ ← run.eval step none
    return ()
  | none => return ()

def optionalStart (run : Interpreter) (initial : Option Statement) : Eval Signal :=
  match initial with
  | some statement => run.exec statement
  | none => return .normal

/-- The header of a `for` loop has a scope around that of the body. -/
def execFor (run : Interpreter) (fuel : Nat) (initial : Option Statement)
    (condition step : Option Expr) (body : Statement) (line : Nat) : Eval Signal :=
  Eval.inScope line do
    match ← run.optionalStart initial with
    | .normal =>
      iterate (run.optionalCondition condition line) (run.execBody body) (run.optionalStep step)
        fuel
    | signal => return signal

/-! ## Switch -/

/-- The first case whose value equals the subject. -/
def selectCase (run : Interpreter) (subject : Value) : List SwitchCase → Eval (Option SwitchCase)
  | [] => return none
  | case :: rest => do
    let candidate ← run.eval case.value none
    let equal ← Eval.askStore case.line fun st => do st.asBool (← st.equals subject candidate)
    if equal then return some case
    run.selectCase subject rest

/-- Runs the statements of a case in a scope; `break` ends them. -/
def execCase (run : Interpreter) (body : List Statement) (line : Nat) : Eval Signal := do
  match ← Eval.inScope line (run.execAll body) with
  | .breakLoop => return .normal
  | signal => return signal

def execSwitch (run : Interpreter) (subject : Expr) (cases : List SwitchCase)
    (fallback : Option (List Statement)) (line : Nat) : Eval Signal := do
  let value ← run.eval subject none
  match ← run.selectCase value cases, fallback with
  | some case, _ => run.execCase case.body case.line
  | none, some body => run.execCase body line
  | none, none => return .normal

/-! ## Exceptions -/

/-- The first clause that catches the value. -/
def findClause? (catches : List CatchClause) (value : Value) (st : Store) : Option CatchClause :=
  catches.find? fun clause =>
    match clause.ty with
    | some ty => st.accepts ty value
    | none => true

def execClause (run : Interpreter) (clause : CatchClause) (value : Value) : Eval Signal := do
  let ty ← Action.read fun s => clause.ty.getD (s.store.typeOf value)
  Eval.inScope clause.line do
    Eval.declareVariable clause.name ty value false clause.line
    run.execAll clause.body

/-- The value that the clauses of a `try` see when its body ended with this result. -/
def thrownValue? (result : Except Fault Signal) (st : Store) : Option Value :=
  match result with
  | .ok (.thrown value) => some value
  | .ok _ => none
  | .error fault => if fault.cause.isCatchable then some (fault.caughtValue st) else none

/-- Gives a thrown value to the first clause that catches it; otherwise the result stands. -/
def execCatches (run : Interpreter) (catches : List CatchClause) (result : Except Fault Signal) :
    Eval Signal := do
  match ← Action.read fun s => thrownValue? result s.store with
  | none => Action.ofExcept result
  | some value =>
    match ← Action.read fun s => findClause? catches value s.store with
    | some clause => run.execClause clause value
    | none => Action.ofExcept result

/-- Runs the body, then at most one clause, then the finalizer. A finalizer that does not end
normally replaces the result. -/
def execTry (run : Interpreter) (body : List Statement) (catches : List CatchClause)
    (finalizer : Option (List Statement)) (line : Nat) : Eval Signal := do
  let result ← Action.attempt (Eval.inScope line (run.execAll body))
  let result ← Action.attempt (run.execCatches catches result)
  match finalizer with
  | none => Action.ofExcept result
  | some statements =>
    match ← Eval.inScope line (run.execAll statements) with
    | .normal => Action.ofExcept result
    | signal => return signal

/-! ## Programs and modules -/

/-- Runs `declare` on the statements that it is for. -/
def forEach (declare : Statement → Eval Unit) : Program → Eval Unit
  | [] => return ()
  | statement :: rest => do
    declare statement
    forEach declare rest

def hoistFunction : Statement → Eval Unit
  | .function decl => declareFunction decl
  | _ => return ()

def hoistInterface : Statement → Eval Unit
  | .interface decl => declareInterface decl
  | .enumeration decl => declareEnum decl
  | _ => return ()

def hoistClass (run : Interpreter) : Statement → Eval Unit
  | .classType decl => run.declareClass decl
  | _ => return ()

/-- A jump that leaves the top level is a fault. -/
def escape? : Signal → Option Cause
  | .normal => none
  | .breakLoop => some (.controlFlowEscape .breakLoop)
  | .continueLoop => some (.controlFlowEscape .continueLoop)
  | .returned _ => some (.controlFlowEscape .returnValue)
  | .thrown value => some (.thrown value)

/-- Runs one statement of the top level; declarations have been hoisted. -/
def execTopLevel (run : Interpreter) (statement : Statement) : Eval Unit := do
  if statement.isHoisted then return ()
  match escape? (← run.exec statement) with
  | some cause => Eval.raise cause statement.line
  | none => return ()

/-- Runs a program: first it declares the functions, then the interfaces and enumerations, then the
classes, and then it runs the other statements. -/
def execProgram (run : Interpreter) (program : Program) : Eval Unit := do
  forEach hoistFunction program
  forEach hoistInterface program
  forEach run.hoistClass program
  forEach run.execTopLevel program

/-- The program of a module. -/
def loadModule (path : String) (s : Session) : Except Cause Program :=
  match s.loader path with
  | .ok program => .ok program
  | .error problem => .error (.inclusion path problem)

/-- Runs a module that has not been included. A module that fails can be included again. -/
def includeModule (run : Interpreter) (path : String) (line : Nat) : Eval Unit := do
  if ← Action.read (·.included.contains path) then return ()
  let program ← Eval.ask line (loadModule path)
  Action.update fun s => { s with included := path :: s.included }
  match ← Action.attempt (run.execProgram program) with
  | .ok () => return ()
  | .error fault =>
    Action.update fun s => { s with included := s.included.erase path }
    Action.fail fault

/-! ## Statements -/

/-- The value of a `return`; the return type of the running function is expected of it. -/
def execReturn (run : Interpreter) (value : Option Expr) : Eval Signal := do
  match value with
  | none => return .returned none
  | some e =>
    let expected ← Action.read fun s => s.calls.head?.map CallFrame.returnType
    return .returned (some (← run.eval e expected))

def execDeclaration (run : Interpreter) (decl : VariableDecl) : Eval Unit := do
  let value ← run.declaredValue decl
  Eval.declareVariable decl.name decl.ty value decl.isConst decl.line

/-- Runs an action that never jumps. -/
def normally (x : Eval Unit) : Eval Signal := do
  x
  return .normal

/-- Executes a statement whose parts are run by `run`; its loops go round at most `fuel` times. -/
def execStep (run : Interpreter) (fuel : Nat) (statement : Statement) : Eval Signal :=
  match statement with
  | .expression e _ => do
    let _ ← run.eval e none
    return .normal
  | .declare decl => normally (run.execDeclaration decl)
  | .function decl => normally (declareFunction decl)
  | .classType decl => normally (run.declareClass decl)
  | .interface decl => normally (declareInterface decl)
  | .enumeration decl => normally (declareEnum decl)
  | .block statements line => Eval.inScope line (run.execAll statements)
  | .branch condition onTrue onFalse line => run.execBranch condition onTrue onFalse line
  | .whileLoop condition body line => run.execWhile fuel condition body line
  | .doWhile body condition line => run.execDoWhile fuel body condition line
  | .forLoop initial condition step body line => run.execFor fuel initial condition step body line
  | .switch subject cases fallback line => run.execSwitch subject cases fallback line
  | .breakLoop _ => return .breakLoop
  | .continueLoop _ => return .continueLoop
  | .returnValue value _ => run.execReturn value
  | .throwValue value _ => do return .thrown (← run.eval value none)
  | .tryCatch body catches finalizer line => run.execTry body catches finalizer line
  | .includeModule path line => normally (run.includeModule path line)

end Interpreter

end ClassScript
