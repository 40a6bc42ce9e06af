/-!
# Actions

An action reads and changes a state. It ends with a value, with an error, or because the fuel it
was given did not suffice; in the first two cases the state it leaves behind is part of the
outcome, so an error never undoes what happened before it.

The grammar runs actions whose state is the list of tokens still to be read; the evaluator runs
actions whose state is the whole session.
-/

namespace ClassScript

/-- How an action ends: with a value, with an error, or out of fuel. -/
inductive Outcome (σ ε α : Type) where
  | ok (value : α) (state : σ)
  | error (cause : ε) (state : σ)
  | exhausted

/-- A computation over a state `σ` that may fail with an error `ε`. -/
def Action (σ ε α : Type) : Type :=
  σ → Outcome σ ε α

namespace Action

variable {σ ε α β : Type}

/-- Runs `x` and passes its value on; an error or missing fuel ends the whole. -/
@[always_inline, inline]
protected def bind (x : Action σ ε α) (f : α → Action σ ε β) : Action σ ε β := fun s =>
  match x s with
  | .ok a s => f a s
  | .error e s => .error e s
  | .exhausted => .exhausted

@[always_inline]
instance : Monad (Action σ ε) where
  pure a := fun s => .ok a s
  bind := Action.bind

/-- Ends with the error `e`. -/
@[always_inline, inline]
def fail (e : ε) : Action σ ε α := fun s => .error e s

/-- The fuel is spent. -/
@[always_inline, inline]
def outOfFuel : Action σ ε α := fun _ => .exhausted

/-- Reads a part of the state. -/
@[always_inline, inline]
def read (f : σ → α) : Action σ ε α := fun s => .ok (f s) s

/-- Changes the state. -/
@[always_inline, inline]
def update (f : σ → σ) : Action σ ε Unit := fun s => .ok () (f s)

/-- Reads and changes the state at once. -/
@[always_inline, inline]
def modifyGet (f : σ → α × σ) : Action σ ε α := fun s =>
  match f s with
  | (a, s) => .ok a s

/-- An error that is already decided. -/
@[always_inline, inline]
def ofExcept (r : Except ε α) : Action σ ε α := fun s =>
  match r with
  | .ok a => .ok a s
  | .error e => .error e s

/-- Runs `x` and hands over how it ended, keeping the state it left. Missing fuel is not caught. -/
@[always_inline, inline]
def attempt (x : Action σ ε α) : Action σ ε (Except ε α) := fun s =>
  match x s with
  | .ok a s => .ok (.ok a) s
  | .error e s => .ok (.error e) s
  | .exhausted => .exhausted

end Action

end ClassScript
