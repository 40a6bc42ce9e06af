import ClassScript.Action
import ClassScript.Console
import ClassScript.Fault.Message
import ClassScript.Module.Loader
import ClassScript.Scope
import ClassScript.Store.Operators

/-!
# Sessions

A session is all that running a program can read and change: variables, the store, functions, the
console, the module loader, the calls in progress and the modules included so far. The actions of
this module are the small steps from which evaluation is built; `inScope` and `withFrame` open a
scope or a call and close it again however the enclosed action ends.
-/

namespace ClassScript

/-- The class on whose behalf code runs. -/
structure MemberScope where
  /-- The class of the receiver, or the class named in a static call. -/
  cls : ClassId
  /-- The class that declared the running member; it may use its private members. -/
  owner : String
  /-- The receiver, in code of an instance. -/
  self : Option ObjectId

structure CallFrame where
  name : String
  /-- Set in the code of a class. -/
  member : Option MemberScope
  returnType : Ty

/-- How a statement ends. -/
inductive Signal where
  | normal
  | breakLoop
  | continueLoop
  | returned (value : Option Value)
  | thrown (value : Value)

structure Session where
  scopes : ScopeStack
  store : Store
  functions : Table FunctionDecl
  console : Console
  loader : Loader
  /-- The calls in progress, innermost first. -/
  calls : List CallFrame
  /-- The modules included, those in progress too. -/
  included : List String

/-- A session in which nothing has happened. -/
def Session.start (loader : Loader) (input : List InputLine) : Session where
  scopes := .start
  store := .empty
  functions := .empty
  console := .ofInput input
  loader := loader
  calls := []
  included := []

abbrev Eval (α : Type) : Type := Action Session Fault α

/-- Calls nest at most this deep. -/
def maxCallDepth : Nat := 200

namespace Eval

variable {α : Type}

def raise (cause : Cause) (line : Nat) : Eval α := Action.fail { cause, line }

/-- Asks the session a question that may have no answer; the reason is reported on `line`. -/
@[inline]
def ask (line : Nat) (question : Session → Except Cause α) : Eval α := fun s =>
  match question s with
  | .ok a => .ok a s
  | .error cause => .error { cause, line } s

/-- Asks the store a question that may have no answer. -/
@[inline]
def askStore (line : Nat) (question : Store → Except Cause α) : Eval α :=
  ask line fun s => question s.store

@[inline]
def updateStore (f : Store → Store) : Eval Unit :=
  Action.update fun s => { s with store := f s.store }

/-- Adds something to the store and gives its name. -/
@[inline]
def allocate (f : Store → α × Store) : Eval α := fun s =>
  match s with
  | { scopes, store, functions, console, loader, calls, included } =>
    match f store with
    | (a, store) => .ok a { scopes, store, functions, console, loader, calls, included }

/-! ## Scopes and calls -/

def enterScope : Eval Unit :=
  Action.update fun s => { s with scopes := s.scopes.enter }

def exitScope (line : Nat) : Eval Unit := fun s =>
  match s.scopes.exit with
  | .ok scopes => .ok () { s with scopes }
  | .error cause => .error { cause, line } s

/-- Runs an action and then, however it ended, a second one. The first error counts. -/
@[inline]
def thenAlways (x : Eval α) (after : Eval Unit) : Eval α := do
  let result ← Action.attempt x
  let finished ← Action.attempt after
  let value ← Action.ofExcept result
  Action.ofExcept finished
  return value

/-- Runs an action in a block of its own. -/
@[inline]
def inScope (line : Nat) (body : Eval α) : Eval α := do
  enterScope
  thenAlways body (exitScope line)

/-- Starts a call: its frame is the innermost, and it sees no variables. -/
def enterCall (frame : CallFrame) : Eval Unit :=
  Action.update fun s =>
    { s with calls := frame :: s.calls, scopes := s.scopes.enterIsolated }

/-- Ends the innermost call. -/
def exitCall (line : Nat) : Eval Unit := do
  let exited ← Action.attempt (exitScope line)
  Action.update fun s => { s with calls := s.calls.tail }
  Action.ofExcept exited

/-- Runs an action as the body of a call, unless too many calls are in progress. -/
@[inline]
def withFrame (frame : CallFrame) (line : Nat) (body : Eval α) : Eval α := do
  if maxCallDepth ≤ (← Action.read (·.calls.length)) then
    raise (.stackOverflow maxCallDepth) line
  else
    enterCall frame
    thenAlways body (exitCall line)

/-! ## Variables -/

def declareVariable (name : String) (ty : Ty) (value : Value) (isConst : Bool) (line : Nat) :
    Eval Unit := do
  ask line fun s => s.scopes.declarable s.store name ty value
  Action.update fun s => { s with scopes := s.scopes.bind name { value, ty, isConst } }

def assignVariable (name : String) (value : Value) (line : Nat) : Eval Unit := do
  let slot ← ask line fun s => s.scopes.assignable s.store name value
  Action.update fun s => { s with scopes := s.scopes.write slot value }

/-! ## Arrays -/

def newArray (element : Ty) (items : List Value) : Eval Value :=
  allocate fun st => st.newArray element items.toArray

def assignItem (target : Value) (index : Int64) (value : Value) (line : Nat) : Eval Unit := do
  let (id, position) ← askStore line fun st => st.itemTarget target index value
  updateStore fun st => st.putItem id position value

/-! ## Console -/

def printLine (text : String) : Eval Unit :=
  Action.update fun s => { s with console := s.console.print text }

/-- What the operating system says about input that is not text. -/
def malformedInput : String := FileProblem.notText.message

def readLine (line : Nat) : Eval String := do
  let input ← Action.modifyGet fun s =>
    let (input, console) := s.console.readLine
    (input, { s with console })
  match input with
  | some text => return text
  | none => raise (.io malformedInput) line

end Eval

end ClassScript
