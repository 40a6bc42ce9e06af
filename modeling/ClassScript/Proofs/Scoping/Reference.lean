import ClassScript.Scope

/-!
# Lexical scoping

What scopes are asked and what they reply, and ordinary lexical scoping as a reference: every frame
keeps its own declarations and nothing else, a name is looked for from the innermost frame outward
up to the frame of the running call, and leaving a frame forgets what was declared in it.
-/

namespace ClassScript

/-! ## Requests and replies -/

/-- What can be asked of scopes. The store tells which values a type accepts. -/
inductive ScopeRequest where
  | new
  | enter
  | enterIsolated
  | exit (line : Nat)
  | declare (st : Store) (name : String) (ty : Ty) (value : Value) (isConst : Bool) (line : Nat)
  | set (st : Store) (name : String) (value : Value) (line : Nat)
  | get (name : String) (line : Nat)
  | lookup (name : String)
  | contains (name : String)
  | names
  | depth

inductive ScopeReply where
  | done
  | value (value : Value)
  | optional (value : Option Value)
  | flag (flag : Bool)
  | names (names : List String)
  | depth (depth : Nat)
  | failed (fault : Fault)

/-- The reply that a value was found, or that none was. -/
def ScopeReply.ofValue (line : Nat) : Except Cause Value → ScopeReply
  | .ok v => .value v
  | .error cause => .failed { cause, line }

/-- The operations on scopes whose states are `σ`. -/
structure Scoping (σ : Type) where
  start : σ
  enter : σ → σ
  enterIsolated : σ → σ
  exit : σ → Except Cause σ
  declare : σ → Store → String → Ty → Value → Bool → Except Cause σ
  set : σ → Store → String → Value → Except Cause σ
  get : σ → String → Except Cause Value
  lookup? : σ → String → Option Value
  contains : σ → String → Bool
  names : σ → List String
  depth : σ → Nat

namespace Scoping

variable {σ : Type}

/-- An operation that fails leaves the state as it is. -/
def attempt (s : σ) (line : Nat) : Except Cause σ → ScopeReply × σ
  | .ok s' => (.done, s')
  | .error cause => (.failed { cause, line }, s)

def serve (M : Scoping σ) (s : σ) : ScopeRequest → ScopeReply × σ
  | .new => (.done, M.start)
  | .enter => (.done, M.enter s)
  | .enterIsolated => (.done, M.enterIsolated s)
  | .exit line => attempt s line (M.exit s)
  | .declare st name ty value isConst line =>
    attempt s line (M.declare s st name ty value isConst)
  | .set st name value line => attempt s line (M.set s st name value)
  | .get name line => (.ofValue line (M.get s name), s)
  | .lookup name => (.optional (M.lookup? s name), s)
  | .contains name => (.flag (M.contains s name), s)
  | .names => (.names (M.names s), s)
  | .depth => (.depth (M.depth s), s)

/-- The replies to a sequence of requests. -/
def replies (M : Scoping σ) (s : σ) : List ScopeRequest → List ScopeReply
  | [] => []
  | request :: rest => (M.serve s request).1 :: M.replies (M.serve s request).2 rest

/-- The scopes of the interpreter. -/
def shared : Scoping ScopeStack where
  start := ScopeStack.start
  enter := ScopeStack.enter
  enterIsolated := ScopeStack.enterIsolated
  exit := ScopeStack.exit
  declare := ScopeStack.declare
  set := ScopeStack.set
  get := ScopeStack.get
  lookup? := ScopeStack.lookup?
  contains := ScopeStack.contains
  names := ScopeStack.names
  depth := ScopeStack.depth

end Scoping

/-! ## The reference -/

/-- The declarations of one frame, the latest first. -/
abbrev Declarations : Type := List (String × Slot)

namespace Declarations

/-- Gives the variable another value. -/
def assign (name : String) (value : Value) : Declarations → Declarations
  | [] => []
  | (n, slot) :: rest =>
    if n = name then (n, { slot with value }) :: rest else (n, slot) :: assign name value rest

/-- The names in the order of their declaration. -/
def names (own : Declarations) : List String := (own.map Prod.fst).reverse

end Declarations

/-- Frames with their own declarations: the global frame, or the frame of a block or of a call
with what was there when it was entered. -/
inductive LexicalScopes where
  | global (own : Declarations)
  | block (own : Declarations) (outside : LexicalScopes)
  | call (own : Declarations) (caller : LexicalScopes)

namespace LexicalScopes

/-- The declarations of the innermost frame. -/
def own : LexicalScopes → Declarations
  | .global own | .block own _ | .call own _ => own

/-- The variable that a name means: the one of the nearest frame that declares it. The frame of a
call hides everything outside. -/
def find? (name : String) : LexicalScopes → Option Slot
  | .global own | .call own _ => own.lookup name
  | .block own outside => (own.lookup name).or (outside.find? name)

/-- Gives another value to the variable that a name means. -/
def assign (name : String) (value : Value) : LexicalScopes → LexicalScopes
  | .global own => .global (own.assign name value)
  | .call own caller => .call (own.assign name value) caller
  | .block own outside =>
    if (own.lookup name).isSome then .block (own.assign name value) outside
    else .block own (outside.assign name value)

/-- Adds a declaration to the innermost frame. -/
def add (entry : String × Slot) : LexicalScopes → LexicalScopes
  | .global own => .global (entry :: own)
  | .block own outside => .block (entry :: own) outside
  | .call own caller => .call (entry :: own) caller

/-- Forgets the innermost frame; the global one stays. -/
def exit : LexicalScopes → Except Cause LexicalScopes
  | .global _ => .error .scopeUnderflow
  | .block _ outside => .ok outside
  | .call _ caller => .ok caller

/-- The visible names: those from outside, in their order, and then the new ones. -/
def names : LexicalScopes → List String
  | .global own | .call own _ => own.names
  | .block own outside => outside.names ++ own.names.filter fun name => name ∉ outside.names

def depth : LexicalScopes → Nat
  | .global _ => 1
  | .block _ outside => outside.depth + 1
  | .call _ caller => caller.depth + 1

/-- Declares a variable: its type must accept the value, and the innermost frame itself must not
have declared the name. -/
def declare (s : LexicalScopes) (st : Store) (name : String) (ty : Ty) (value : Value)
    (isConst : Bool) : Except Cause LexicalScopes :=
  if st.accepts ty value = false then .error (.typeMismatch ty (st.typeOf value))
  else if (s.own.lookup name).isSome then .error (.alreadyDeclared name)
  else .ok (s.add (name, { value, ty, isConst }))

/-- Assigns to the variable that a name means. -/
def set (s : LexicalScopes) (st : Store) (name : String) (value : Value) :
    Except Cause LexicalScopes :=
  match s.find? name with
  | none => .error (.unknownVariable name)
  | some slot =>
    if slot.isConst then .error (.constAssignment name)
    else if st.accepts slot.ty value = false then
      .error (.typeMismatch slot.ty (st.typeOf value))
    else .ok (s.assign name value)

def get (s : LexicalScopes) (name : String) : Except Cause Value :=
  match s.find? name with
  | some slot => .ok slot.value
  | none => .error (.unknownVariable name)

end LexicalScopes

/-- Lexical scoping. -/
def Scoping.lexical : Scoping LexicalScopes where
  start := .global []
  enter := .block []
  enterIsolated := .call []
  exit := LexicalScopes.exit
  declare := LexicalScopes.declare
  set := LexicalScopes.set
  get := LexicalScopes.get
  lookup? s name := (s.find? name).map Slot.value
  contains s name := (s.find? name).isSome
  names := LexicalScopes.names
  depth := LexicalScopes.depth

/-- Lexical scoping that looks at the name of a declaration before it looks at the value: it always
refuses a name that the innermost frame has declared for that reason. -/
def Scoping.nameFirst : Scoping LexicalScopes :=
  { lexical with
    declare := fun s st name ty value isConst =>
      if (s.own.lookup name).isSome then .error (.alreadyDeclared name)
      else s.declare st name ty value isConst }

end ClassScript
