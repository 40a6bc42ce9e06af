import ClassScript.Evaluation.Session

/-!
# Members

Reading and writing fields and finding methods, with the checks that come before: the member must
exist, must be static exactly when it is used through the class, and must be accessible from the
code that runs. Inside the code of a class its fields can be used by their bare names.
-/

namespace ClassScript

namespace Session

/-- The class on whose behalf code runs now. -/
def member? (s : Session) : Option MemberScope := s.calls.head?.bind CallFrame.member

/-- The running code may use a member of this access declared by `owner`. -/
def mayAccess (s : Session) (access : Access) (owner : String) : Bool :=
  match access with
  | .everyone => true
  | .ownerOnly => (s.member?.map fun m => m.owner == owner).getD false

def checkAccess (s : Session) (cls : ClassId) (member : String) (access : Access)
    (owner : String) : Except Cause Unit :=
  if s.mayAccess access owner then .ok ()
  else .error (.privateAccess (s.store.className cls) member)

def unknownMember (s : Session) (cls : ClassId) (member : String) : Cause :=
  .unknownMember (s.store.className cls) member

/-! ## Methods -/

def findMethod (s : Session) (cls : ClassId) (name : String) : Except Cause MethodInfo :=
  match (s.store.classInfo cls).methods.find? name with
  | some method => do
    s.checkAccess cls name method.access method.owner
    .ok method
  | none => .error (s.unknownMember cls name)

/-! ## Fields -/

def findField (s : Session) (cls : ClassId) (name : String) : Except Cause FieldInfo :=
  match (s.store.classInfo cls).fields.find? name with
  | some field => .ok field
  | none => .error (s.unknownMember cls name)

/-- A field that may be used through the class. -/
def staticField (s : Session) (cls : ClassId) (name : String) : Except Cause FieldInfo := do
  let field ← s.findField cls name
  if field.isStatic then
    s.checkAccess cls name field.access field.owner
    .ok field
  else .error (.instanceAccess (s.store.className cls) name)

/-- A field that may be used through an instance. -/
def instanceField (s : Session) (cls : ClassId) (name : String) : Except Cause FieldInfo := do
  let field ← s.findField cls name
  if field.isStatic then .error (.staticAccess (s.store.className cls) name)
  else
    s.checkAccess cls name field.access field.owner
    .ok field

/-- A field may receive a value: it is no constant, and its type accepts the value. -/
def checkWrite (s : Session) (cls : ClassId) (field : FieldInfo) (name : String) (value : Value) :
    Except Cause Unit :=
  if field.isConst then .error (.constAssignment (s.store.className cls ++ "." ++ name))
  else s.store.check field.ty value

def readStatic (s : Session) (cls : ClassId) (name : String) : Except Cause Value := do
  let _ ← s.staticField cls name
  match s.store.staticValue? cls name with
  | some value => .ok value
  | none => .error (s.unknownMember cls name)

/-- The class that a write to a static field changes, if the write is allowed. -/
def staticTarget (s : Session) (cls : ClassId) (name : String) (value : Value) :
    Except Cause ClassId := do
  let field ← s.staticField cls name
  s.checkWrite cls field name value
  match s.store.staticHolder? cls name with
  | some holder => .ok holder
  | none => .error (s.unknownMember cls name)

def objectClass (s : Session) (id : ObjectId) : ClassId := (s.store.objectCell id).cls

def readField (s : Session) (id : ObjectId) (name : String) : Except Cause Value := do
  let cls := s.objectClass id
  let _ ← s.instanceField cls name
  match (s.store.objectCell id).fields.find? name with
  | some value => .ok value
  | none => .error (s.unknownMember cls name)

/-- A write to a field of an object is allowed. -/
def checkFieldWrite (s : Session) (id : ObjectId) (name : String) (value : Value) :
    Except Cause Unit := do
  let cls := s.objectClass id
  let field ← s.instanceField cls name
  s.checkWrite cls field name value

/-- The object that a value is; nothing else has the member. -/
def objectOf (s : Session) (value : Value) (member : String) : Except Cause ObjectId :=
  match value with
  | .object id => .ok id
  | _ => .error (.invalidMemberTarget (s.store.typeOf value) member)

/-! ## Bare names -/

/-- The field that a bare name means in the code of a class. -/
def implicitField? (s : Session) (name : String) : Option (MemberScope × FieldInfo) := do
  let scope ← s.member?
  let field ← (s.store.classInfo scope.cls).fields.find? name
  return (scope, field)

/-- The receiver that the member of this name needs. -/
def receiver (s : Session) (scope : MemberScope) (member : String) : Except Cause ObjectId :=
  match scope.self with
  | some id => .ok id
  | none => .error (.instanceAccess (s.store.className scope.cls) member)

/-- The value of a bare name that is no variable. -/
def readImplicit (s : Session) (name : String) : Except Cause Value :=
  match s.implicitField? name with
  | none => .error (.unknownVariable name)
  | some (scope, field) =>
    if field.isStatic then s.readStatic scope.cls name
    else do s.readField (← s.receiver scope name) name

/-- The value of a bare name: of the variable, or else of the field. -/
def readName (s : Session) (name : String) : Except Cause Value :=
  match s.scopes.lookup? name with
  | some value => .ok value
  | none => s.readImplicit name

/-- The class that an expression names as the receiver of a static member: a bare name that is
neither a variable nor a field of the running class. -/
def staticReceiver? (s : Session) (object : Expr) : Option ClassId :=
  match object with
  | .var name _ =>
    if s.scopes.contains name || (s.implicitField? name).isSome then none
    else s.store.findClass? name
  | _ => none

end Session

namespace Eval

def writeStatic (cls : ClassId) (name : String) (value : Value) (line : Nat) : Eval Unit := do
  let holder ← ask line fun s => s.staticTarget cls name value
  updateStore fun st => st.putStatic holder name value

def writeField (id : ObjectId) (name : String) (value : Value) (line : Nat) : Eval Unit := do
  ask line fun s => s.checkFieldWrite id name value
  updateStore fun st => st.putField id name value

/-- Assigns to a bare name that is no variable. -/
def writeImplicit (name : String) (value : Value) (line : Nat) : Eval Unit := do
  match ← Action.read (·.implicitField? name) with
  | none => raise (.unknownVariable name) line
  | some (scope, field) =>
    if field.isStatic then writeStatic scope.cls name value line
    else
      let id ← ask line fun s => s.receiver scope name
      writeField id name value line

/-- Assigns to a bare name: to the variable, or else to the field. -/
def writeName (name : String) (value : Value) (line : Nat) : Eval Unit := do
  if ← Action.read (·.scopes.contains name) then assignVariable name value line
  else writeImplicit name value line

end Eval

end ClassScript
