import ClassScript.Evaluation.Calls

/-!
# Evaluating expressions

Operands are evaluated from left to right, except that an assignment to a member evaluates its right
side before its receiver. `&&` and `||` skip their right operand when the left one decides.
-/

namespace ClassScript.Interpreter

/-! ## Declared values -/

/-- The size of an array that a declaration asks for. -/
def declaredSize (run : Interpreter) (decl : VariableDecl) : Eval (Option Int64) := do
  match decl.length with
  | some (.explicit size) =>
    let value ← run.eval size none
    let size ← Eval.askStore decl.line fun st => st.asInt value
    let _ ← Eval.ask decl.line fun _ => Store.itemCount size
    return some size
  | _ => return none

/-- An array that initializes a declaration with a size other than zero has that many items. -/
def checkSize (size : Option Int64) (value : Value) (st : Store) : Except Cause Unit :=
  match size, value with
  | some size, .array id =>
    let count := (st.arrayCell id).items.size
    if size ≠ 0 ∧ size.toInt ≠ count then .error (.arraySizeMismatch size count) else .ok ()
  | _, _ => .ok ()

/-- The first value of a declared variable or field. -/
def declaredValue (run : Interpreter) (decl : VariableDecl) : Eval Value := do
  let size ← run.declaredSize decl
  match decl.initializer, size with
  | some initializer, size =>
    let value ← run.eval initializer (some decl.ty)
    Eval.askStore decl.line (checkSize size value)
    return value
  | none, some size =>
    let element := decl.ty.element?.getD .void
    let count ← Eval.ask decl.line fun _ => Store.itemCount size
    Eval.allocate fun st => st.newArray element (Array.replicate count (.defaultFor element))
  | none, none => return .defaultFor decl.ty

/-! ## Instances -/

/-- A class of which instances can be made. -/
def instantiable (name : String) (st : Store) : Except Cause ClassId := do
  let cls ← st.getClass name
  let info := st.classInfo cls
  if info.isInterface then .error (.abstractInstantiation info.name)
  else if info.isStatic then .error (.staticInstantiation info.name)
  else .ok cls

/-- The constructor of a class may be used here; without one there are no arguments. -/
def checkConstructor (cls : ClassId) (args : List Value) (s : Session) : Except Cause Unit :=
  let info := s.store.classInfo cls
  match info.constructor with
  | some constructor =>
    s.checkAccess cls "constructor" constructor.decl.access constructor.owner
  | none =>
    if args.isEmpty then .ok () else .error (.argumentCountMismatch info.name 0 args.length)

/-- The first value of a field; its initializer runs as code of the class that declared it. -/
def fieldValue (run : Interpreter) (field : FieldInfo) (scope : MemberScope) (line : Nat) :
    Eval Value := do
  let value ← match field.init with
    | .value value => pure value
    | .declared decl =>
      let frame ← Action.read fun s => memberFrame s.store field.name scope field.ty
      Eval.withFrame frame line (run.declaredValue decl)
  Eval.askStore line fun st => st.check field.ty value
  return value

/-- Gives an object its fields, one after the other. -/
def initializeFields (run : Interpreter) (cls : ClassId) (self : ObjectId) (line : Nat) :
    List FieldInfo → Eval Unit
  | [] => return ()
  | field :: rest => do
    let scope : MemberScope := { cls, owner := field.owner, self := some self }
    let value ← run.fieldValue field scope line
    Eval.updateStore fun st => st.putField self field.name value
    run.initializeFields cls self line rest

def instanceFields (info : ClassInfo) : List FieldInfo :=
  info.fields.values.filter fun field => !field.isStatic

def new (run : Interpreter) (className : String) (arguments : List Expr) (line : Nat) :
    Eval Value := do
  let cls ← Eval.askStore line (instantiable className)
  let args ← run.evalAll arguments
  Eval.ask line (checkConstructor cls args)
  let self ← Eval.allocate fun st => st.newObject cls
  let fields ← Action.read fun s => instanceFields (s.store.classInfo cls)
  run.initializeFields cls self line fields
  match ← Action.read fun s => (s.store.classInfo cls).constructor with
  | some constructor => run.construct { cls, constructor, self, arguments := args, line }
  | none => pure ()
  return .object self

/-- Runs the constructor of the parent class of `owner`, if there is one. -/
def constructParent (run : Interpreter) (c : Construction) : Eval Unit := do
  let owner := c.constructor.owner
  let ownerClass ← Eval.askStore c.line fun st => st.getClass owner
  match ← Action.read fun s => (s.store.classInfo ownerClass).parent? with
  | none =>
    if c.constructor.decl.parentArguments.isSome then
      Eval.raise (.invalidInheritance owner .noParent) c.line
    else return ()
  | some parent =>
    let args ← run.evalAll (c.constructor.decl.parentArguments.getD [])
    let info ← Action.read fun s => s.store.classInfo parent
    match info.constructor with
    | some constructor => run.construct { c with constructor, arguments := args }
    | none =>
      if args.isEmpty then return ()
      else Eval.raise (.argumentCountMismatch (info.name ++ ".constructor") 0 args.length) c.line

/-- Runs a constructor: first the one of the parent class, then its own body. -/
def constructStep (run : Interpreter) (c : Construction) : Eval Unit := do
  let decl := c.constructor.decl
  let name := c.constructor.owner ++ ".constructor"
  Eval.askStore c.line (checkArguments name decl.params c.arguments)
  let scope : MemberScope := { cls := c.cls, owner := c.constructor.owner, self := some c.self }
  let frame ← Action.read fun s => memberFrame s.store "constructor" scope .void
  let signal ← Eval.withFrame frame c.line do
    bindParameters c.line decl.params c.arguments
    run.constructParent c
    run.execAll decl.body
  let _ ← Eval.askStore c.line (callResult name .void signal)
  return ()

/-! ## Members and methods -/

def evalMember (run : Interpreter) (object : Expr) (name : String) (line : Nat) : Eval Value := do
  match ← Action.read (·.staticReceiver? object) with
  | some cls => Eval.ask line fun s => s.readStatic cls name
  | none =>
    let receiver ← run.eval object none
    match receiver, name with
    | .array _, "length" | .string _, "length" => Eval.askStore line fun st => st.length receiver
    | _, _ =>
      Eval.ask line fun s => do s.readField (← s.objectOf receiver name) name

/-- Calls a method through its class. -/
def callStatic (run : Interpreter) (cls : ClassId) (name : String) (arguments : List Expr)
    (line : Nat) : Eval Value := do
  let method ← Eval.ask line fun s => do
    let method ← s.findMethod cls name
    if method.isStatic then .ok method
    else .error (.instanceAccess (s.store.className cls) name)
  let args ← run.evalAll arguments
  run.invoke cls method none args line

/-- Calls a method on an object. -/
def callInstance (run : Interpreter) (receiver : Value) (name : String) (arguments : List Expr)
    (line : Nat) : Eval Value := do
  let self ← Eval.ask line fun s => s.objectOf receiver name
  let cls ← Action.read (·.objectClass self)
  let method ← Eval.ask line fun s => do
    let method ← s.findMethod cls name
    if method.isStatic then .error (.staticAccess (s.store.className cls) name)
    else .ok method
  let args ← run.evalAll arguments
  run.invoke cls method (some self) args line

def evalMethodCall (run : Interpreter) (object : Expr) (name : String) (arguments : List Expr)
    (line : Nat) : Eval Value := do
  match ← Action.read (·.staticReceiver? object) with
  | some cls => run.callStatic cls name arguments line
  | none =>
    let receiver ← run.eval object none
    run.callInstance receiver name arguments line

/-! ## Assignments -/

def writeMember (run : Interpreter) (object : Expr) (name : String) (value : Value) (line : Nat) :
    Eval Unit := do
  match ← Action.read (·.staticReceiver? object) with
  | some cls => Eval.writeStatic cls name value line
  | none =>
    let receiver ← run.eval object none
    let id ← Eval.ask line fun s => s.objectOf receiver name
    Eval.writeField id name value line

def evalAssign (run : Interpreter) (target : Target) (value : Expr) (line : Nat) :
    Eval Value := do
  match target with
  | .var name =>
    let value ← run.eval value none
    Eval.writeName name value line
    return value
  | .index array position =>
    let array ← run.eval array none
    let position ← run.eval position none
    let index ← Eval.askStore line fun st => st.asInt position
    let value ← run.eval value none
    Eval.assignItem array index value line
    return value
  | .member object name =>
    let value ← run.eval value none
    run.writeMember object name value line
    return value

/-! ## Operators and array literals -/

/-- The value of `left op right` that `left` decides alone. -/
def decided? (op : BinaryOp) (left : Value) : Option Value :=
  match op, left with
  | .and, .bool false => some (.bool false)
  | .or, .bool true => some (.bool true)
  | _, _ => none

def evalBinary (run : Interpreter) (left : Expr) (op : BinaryOp) (right : Expr) (line : Nat) :
    Eval Value := do
  let left ← run.eval left none
  match decided? op left with
  | some value => return value
  | none =>
    let right ← run.eval right none
    Eval.askStore line fun st => st.applyBinary op left right

/-- Evaluates the elements of an array literal. -/
def evalElements (run : Interpreter) (elementType : Option Ty) : List Expr → Eval (List Value)
  | [] => return []
  | e :: rest => do
    let value ← run.eval e elementType
    return value :: (← run.evalElements elementType rest)

/-- The element type of an array literal: the one given, or that of its first item. All items must
be accepted by it. -/
def literalType (elementType : Option Ty) (items : List Value) (st : Store) : Except Cause Ty := do
  let element ← match elementType, items with
    | some ty, _ => .ok ty
    | none, first :: _ => .ok (st.typeOf first)
    | none, [] => .error .untypedEmptyArray
  match items.find? fun item => !st.accepts element item with
  | some item => .error (.typeMismatch element (st.typeOf item))
  | none => .ok element

def evalArray (run : Interpreter) (elements : List Expr) (elementType : Option Ty) (line : Nat) :
    Eval Value := do
  let items ← run.evalElements elementType elements
  let element ← Eval.askStore line (literalType elementType items)
  Eval.newArray element items

/-- The value is of the type. Unlike a variable, a test does not take `void` for an array or an
object. -/
def isOfType (ty : Ty) (value : Value) (st : Store) : Bool :=
  match value with
  | .void => ty == .void
  | _ => st.accepts ty value

/-- The element type that a literal takes from the type expected of it. -/
def expectedElement (expected : Option Ty) : Option Ty := expected.bind Ty.element?

def currentSelf (s : Session) : Except Cause Value :=
  match s.member?.bind MemberScope.self with
  | some id => .ok (.object id)
  | none => .error .selfOutsideInstance

/-- Evaluates an expression whose parts are evaluated by `run`. -/
def evalStep (run : Interpreter) (e : Expr) (expected : Option Ty) : Eval Value := do
  match e with
  | .literal value _ => return .ofLiteral value
  | .var name line => Eval.ask line fun s => s.readName name
  | .self line => Eval.ask line currentSelf
  | .unary op operand line =>
    let value ← run.eval operand none
    Eval.askStore line fun st => st.applyUnary op value
  | .binary left op right line => run.evalBinary left op right line
  | .conditional condition onTrue onFalse line =>
    let value ← run.eval condition none
    if ← Eval.askStore line fun st => st.asBool value then run.eval onTrue none
    else run.eval onFalse none
  | .assign target value line => run.evalAssign target value line
  | .call name arguments line =>
    let args ← run.evalAll arguments
    run.callNamed name args line
  | .methodCall object name arguments line => run.evalMethodCall object name arguments line
  | .member object name line => run.evalMember object name line
  | .index array position line =>
    let array ← run.eval array none
    let position ← run.eval position none
    let index ← Eval.askStore line fun st => st.asInt position
    Eval.askStore line fun st => st.item array index
  | .array elements (some element) line => run.evalArray elements (some element) line
  | .array elements none line => run.evalArray elements (expectedElement expected) line
  | .new className arguments line => run.new className arguments line
  | .typeTest operand ty _ =>
    let value ← run.eval operand none
    return .bool (← Action.read fun s => isOfType ty value s.store)

end ClassScript.Interpreter
