import ClassScript.Evaluation.Members

/-!
# Calls

Calling functions and methods: the arguments must fit the parameters, the body runs in a frame of
its own, and what it returns must fit the return type. Four functions are built in.
-/

namespace ClassScript

/-- A constructor to be run on an object. -/
structure Construction where
  /-- The class of the object. -/
  cls : ClassId
  constructor : ConstructorInfo
  self : ObjectId
  arguments : List Value
  line : Nat

/-- How the parts of a program are run. The rules of evaluation are stated over such a record; it is
closed by `interpreter`. -/
structure Interpreter where
  /-- The value of an expression; an array literal may take its element type from the type that is
  expected of it. -/
  eval : Expr → Option Ty → Eval Value
  exec : Statement → Eval Signal
  construct : Construction → Eval Unit

namespace Interpreter

/-- Evaluates expressions from left to right. -/
def evalAll (run : Interpreter) : List Expr → Eval (List Value)
  | [] => return []
  | e :: rest => do
    let value ← run.eval e none
    return value :: (← run.evalAll rest)

/-- Runs statements until one of them jumps. -/
def execAll (run : Interpreter) : List Statement → Eval Signal
  | [] => return .normal
  | statement :: rest => do
    match ← run.exec statement with
    | .normal => run.execAll rest
    | signal => return signal

end Interpreter

/-! ## Arguments and results -/

/-- Every argument fits its parameter. -/
def checkEach (st : Store) : List Param → List Value → Except Cause Unit
  | param :: params, arg :: args => do
    st.check param.ty arg
    checkEach st params args
  | _, _ => .ok ()

/-- There are as many arguments as parameters, and they fit. -/
def checkArguments (name : String) (params : List Param) (args : List Value) (st : Store) :
    Except Cause Unit :=
  if params.length = args.length then checkEach st params args
  else .error (.argumentCountMismatch name params.length args.length)

/-- Declares the parameters as variables. -/
def bindParameters (line : Nat) : List Param → List Value → Eval Unit
  | param :: params, arg :: args => do
    Eval.declareVariable param.name param.ty arg false line
    bindParameters line params args
  | _, _ => return ()

/-- The result of a call whose body ended with `signal`. -/
def callResult (name : String) (returnType : Ty) (signal : Signal) (st : Store) :
    Except Cause Value :=
  let checked (value : Value) : Except Cause Value := do
    st.check returnType value
    .ok value
  match signal with
  | .returned (some value) =>
    if returnType = .void then .error (.voidReturnWithValue name) else checked value
  | .returned none => if returnType = .void then .ok .void else checked .void
  | .normal => if returnType = .void then .ok .void else .error (.notAllPathsReturn name)
  | .breakLoop => .error (.controlFlowEscape .breakLoop)
  | .continueLoop => .error (.controlFlowEscape .continueLoop)
  | .thrown value => .error (.thrown value)

/-! ## Functions and methods -/

def functionFrame (decl : FunctionDecl) : CallFrame where
  name := decl.name
  member := none
  returnType := decl.returnType

/-- The frame of code that runs for a member of a class. -/
def memberFrame (st : Store) (name : String) (scope : MemberScope) (returnType : Ty) :
    CallFrame where
  name := st.className scope.cls ++ "." ++ name
  member := some scope
  returnType := returnType

namespace Interpreter

def callFunction (run : Interpreter) (decl : FunctionDecl) (frame : CallFrame)
    (args : List Value) (line : Nat) : Eval Value := do
  Eval.askStore line (checkArguments frame.name decl.params args)
  let signal ← Eval.withFrame frame line do
    bindParameters line decl.params args
    run.execAll decl.body
  Eval.askStore line (callResult frame.name decl.returnType signal)

/-- Calls a method supplied by the host. -/
def callNative (cls : ClassId) (method : MethodInfo) (native : NativeMethod) (args : List Value)
    (st : Store) : Except Cause Value := do
  checkArguments (st.className cls ++ "." ++ method.name) method.params args st
  let value ← native st.typeOf args
  st.check method.returnType value
  .ok value

/-- Calls a method of the class `cls` on a receiver, or on none if it is static. -/
def invoke (run : Interpreter) (cls : ClassId) (method : MethodInfo) (self : Option ObjectId)
    (args : List Value) (line : Nat) : Eval Value := do
  match method.body with
  | .user decl =>
    let scope : MemberScope := { cls, owner := method.owner, self }
    let frame ← Action.read fun s => memberFrame s.store method.name scope method.returnType
    run.callFunction decl frame args line
  | .native native => Eval.askStore line (callNative cls method native args)
  | .abstract =>
    let className ← Action.read (·.store.className cls)
    Eval.raise (.missingMethodBody className method.name) line

end Interpreter

/-! ## Built-in functions -/

inductive Builtin where
  | print
  | println
  | read
  | str
  deriving DecidableEq

namespace Builtin

def ofName? : String → Option Builtin
  | "print" => some .print
  | "println" => some .println
  | "read" => some .read
  | "str" => some .str
  | _ => none

/-- The numbers of arguments that it takes. -/
def arities : Builtin → List Nat
  | .print => [1]
  | .println => [0, 1]
  | .read => [0]
  | .str => [1]

/-- The number of arguments, among those it takes, that is nearest to `found`. -/
def nearestArity (b : Builtin) (found : Nat) : Nat :=
  b.arities.foldl (fun best n => if distance n < distance best then n else best)
    (b.arities.headD 0)
where
  distance (n : Nat) : Nat := (n - found) + (found - n)

/-- What it does with the right number of arguments. -/
def apply (b : Builtin) (args : List Value) (line : Nat) : Eval Value := do
  match b with
  | .print | .println =>
    let text ← Action.read fun s => (args.head?.map s.store.text).getD ""
    Eval.printLine text
    return .void
  | .read => return .string (← Eval.readLine line)
  | .str =>
    let text ← Action.read fun s => String.join (args.map s.store.text)
    return .string text

def call (b : Builtin) (name : String) (args : List Value) (line : Nat) : Eval Value :=
  if b.arities.contains args.length then b.apply args line
  else Eval.raise (.argumentCountMismatch name (b.nearestArity args.length) args.length) line

end Builtin

namespace Interpreter

/-- Calls the method of the running class that a bare name means. -/
def callOwnMethod (run : Interpreter) (scope : MemberScope) (name : String) (args : List Value)
    (line : Nat) : Eval Value := do
  let method ← Eval.ask line fun s => s.findMethod scope.cls name
  if method.isStatic then run.invoke scope.cls method none args line
  else
    let self ← Eval.ask line fun s => s.receiver scope name
    run.invoke scope.cls method (some self) args line

/-- The class whose method a bare name means. -/
def ownMethodScope? (name : String) (s : Session) : Option MemberScope := do
  let scope ← s.member?
  guard ((s.store.classInfo scope.cls).methods.contains name)
  return scope

/-- Calls what a bare name means: a built-in function, a method of the running class, or a
function. -/
def callNamed (run : Interpreter) (name : String) (args : List Value) (line : Nat) :
    Eval Value := do
  match Builtin.ofName? name with
  | some builtin => builtin.call name args line
  | none =>
    match ← Action.read (ownMethodScope? name) with
    | some scope => run.callOwnMethod scope name args line
    | none =>
      match ← Action.read (·.functions.find? name) with
      | some decl => run.callFunction decl (functionFrame decl) args line
      | none => Eval.raise (.unknownFunction name) line

end Interpreter

end ClassScript
