import ClassScript.Store.Basic

/-!
# Scopes

An activation holds the variables of one call, or of the top level: a stack of slots and the blocks
that are open. A block knows every name visible in it, its own and those of the blocks around it,
so a look-up searches one table; the slots are shared, so an assignment in an inner block is seen
outside. The slots from the base of a block upward are the ones it declared itself; leaving the
block drops them.

A call suspends the current activation and starts an empty one, so it sees none of its caller's
variables.
-/

namespace ClassScript

structure Slot where
  value : Value
  ty : Ty
  isConst : Bool

structure Block where
  /-- The number of slots that existed when the block was entered. -/
  base : Nat
  /-- The slot of every visible name. -/
  bindings : Table Nat

structure Activation where
  slots : Array Slot
  /-- The innermost block. -/
  block : Block
  /-- The blocks around it, from the inside out. -/
  outer : List Block

def Activation.fresh : Activation where
  slots := #[]
  block := { base := 0, bindings := .empty }
  outer := []

/-- The number of open blocks. -/
def Activation.depth (a : Activation) : Nat := a.outer.length + 1

structure ScopeStack where
  current : Activation
  suspended : List Activation

namespace ScopeStack

def start : ScopeStack where
  current := .fresh
  suspended := []

/-- The number of open blocks, those of suspended activations included. -/
def depth (s : ScopeStack) : Nat :=
  s.suspended.foldl (fun n a => n + a.depth) s.current.depth

/-- Opens a block that sees everything visible now. -/
def enter (s : ScopeStack) : ScopeStack :=
  let a := s.current
  { s with
    current :=
      { a with
        block := { base := a.slots.size, bindings := a.block.bindings }
        outer := a.block :: a.outer } }

/-- Opens a block that sees nothing. -/
def enterIsolated (s : ScopeStack) : ScopeStack where
  current := .fresh
  suspended := s.current :: s.suspended

/-- Closes the innermost block. The block of the top level stays open. -/
def exit (s : ScopeStack) : Except Cause ScopeStack :=
  match s.current.outer, s.suspended with
  | block :: outer, _ =>
    let slots := s.current.slots.shrink s.current.block.base
    .ok { s with current := { slots, block, outer } }
  | [], caller :: suspended => .ok { current := caller, suspended }
  | [], [] => .error .scopeUnderflow

/-- The slot that a name is bound to. -/
def slotOf? (s : ScopeStack) (name : String) : Option Nat :=
  s.current.block.bindings.find? name

def contains (s : ScopeStack) (name : String) : Bool := (s.slotOf? name).isSome

/-- The value of a variable. -/
def lookup? (s : ScopeStack) (name : String) : Option Value := do
  let slot ← s.slotOf? name
  (s.current.slots[slot]?).map Slot.value

def get (s : ScopeStack) (name : String) : Except Cause Value :=
  match s.lookup? name with
  | some value => .ok value
  | none => .error (.unknownVariable name)

/-- The innermost block itself declared the name. -/
def isDeclaredHere (s : ScopeStack) (name : String) : Bool :=
  match s.slotOf? name with
  | some slot => s.current.block.base ≤ slot
  | none => false

/-- A variable may be declared: its type accepts the value, and the block has not declared the name
before. -/
def declarable (s : ScopeStack) (st : Store) (name : String) (ty : Ty) (value : Value) :
    Except Cause Unit := do
  st.check ty value
  if s.isDeclaredHere name then .error (.alreadyDeclared name) else .ok ()

/-- Adds a slot and binds the name to it in the innermost block. -/
def bind (s : ScopeStack) (name : String) (slot : Slot) : ScopeStack :=
  let a := s.current
  { s with
    current :=
      { a with
        slots := a.slots.push slot
        block := { a.block with bindings := a.block.bindings.insert name a.slots.size } } }

/-- Declares a variable in the innermost block. -/
def declare (s : ScopeStack) (st : Store) (name : String) (ty : Ty) (value : Value)
    (isConst : Bool) : Except Cause ScopeStack := do
  s.declarable st name ty value
  .ok (s.bind name { value, ty, isConst })

/-- The slot that an assignment to a variable writes to, if it may. -/
def assignable (s : ScopeStack) (st : Store) (name : String) (value : Value) :
    Except Cause Nat :=
  match s.slotOf? name with
  | none => .error (.unknownVariable name)
  | some id =>
    match s.current.slots[id]? with
    | none => .error (.unknownVariable name)
    | some slot =>
      if slot.isConst then .error (.constAssignment name)
      else do
        st.check slot.ty value
        .ok id

/-- Writes a value into a slot. -/
def write (s : ScopeStack) (id : Nat) (value : Value) : ScopeStack :=
  let a := s.current
  { s with current := { a with slots := a.slots.modify id fun slot => { slot with value } } }

/-- Assigns to a variable. -/
def set (s : ScopeStack) (st : Store) (name : String) (value : Value) :
    Except Cause ScopeStack := do
  let id ← s.assignable st name value
  .ok (s.write id value)

/-- The names visible in the innermost block. A name that shadows another stands in its place. -/
def names (s : ScopeStack) : List String := s.current.block.bindings.names

end ScopeStack

end ClassScript
