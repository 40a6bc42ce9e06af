import ClassScript.Proofs.Isolation
import ClassScript.Proofs.Parts

/-!
# Uses of members

An expression uses a member directly by reading, writing or calling it, behind an object, behind a
class or by its bare name. What happens before the member is looked up is the same for all members:
operands are evaluated, and it turns out in which class the look-up takes place.
-/

namespace ClassScript

/-! ## Expressions that use a member -/

/-- What an expression does with a member. -/
inductive Use where
  | read
  | write (value : Expr)
  | call (arguments : List Expr)

/-- A member as code names it: behind an object or a class, or by its bare name. -/
structure MemberRef where
  object : Option Expr
  name : String

/-- What a member is looked up in. -/
inductive Receiver where
  | ofClass (cls : ClassId)
  | ofValue (value : Value)

/-- The class whose tables say what the member is; a value that is no object has no members. -/
def Receiver.cls? (s : Session) : Receiver → Option ClassId
  | .ofClass cls => some cls
  | .ofValue (.object id) => some (s.objectClass id)
  | .ofValue _ => none

namespace MemberRef

/-- The member as the target of an assignment. -/
def target (m : MemberRef) : Target :=
  match m.object with
  | some object => .member object m.name
  | none => .var m.name

/-- The expression that uses the member. -/
def expr (m : MemberRef) (line : Nat) : Use → Expr
  | .read => m.target.toExpr line
  | .write value => .assign m.target value line
  | .call arguments =>
    match m.object with
    | some object => .methodCall object m.name arguments line
    | none => .call m.name arguments line

end MemberRef

namespace Session

/-- What a bare name that is no variable is looked up in, if it is a field. -/
def implicitReceiver? (s : Session) (name : String) : Option Receiver :=
  (s.implicitField? name).map fun (scope, field) =>
    match field.isStatic, scope.self with
    | false, some id => .ofValue (.object id)
    | _, _ => .ofClass scope.cls

/-- What a bare name is looked up in, if it is a member: variables come before fields, and built-in
functions before methods. -/
def bareReceiver? (s : Session) (name : String) : Use → Option Receiver
  | .read => if (s.scopes.lookup? name).isSome then none else s.implicitReceiver? name
  | .write _ => if s.scopes.contains name then none else s.implicitReceiver? name
  | .call _ =>
    if (Builtin.ofName? name).isSome then none
    else (Interpreter.ownMethodScope? name s).map fun scope => .ofClass scope.cls

/-- There is a receiver, and its class has, under this name, a member that is private to `owner`: a
field if it is read or written, a method if it is called. -/
def MeansPrivate (s : Session) (receiver : Option Receiver) (name : String) (use : Use)
    (owner : String) : Prop :=
  ∃ r, receiver = some r ∧ ∃ cls, r.cls? s = some cls ∧
    match use with
    | .read | .write _ => ∃ field, (s.store.classInfo cls).fields.find? name = some field ∧
        field.access = .ownerOnly ∧ field.owner = owner
    | .call _ => ∃ method, (s.store.classInfo cls).methods.find? name = some method ∧
        method.access = .ownerOnly ∧ method.owner = owner

end Session

namespace Interpreter

/-- Finds out what stands before the dot: a class, or else the value of an expression. -/
def objectReceiver (run : Interpreter) (object : Expr) : Eval (Option Receiver) := do
  match ← Action.read (·.staticReceiver? object) with
  | some cls => return some (.ofClass cls)
  | none => return some (.ofValue (← run.eval object none))

/-- Evaluates the operands that come before the access and finds out what the member is looked up
in; `none` if a bare name is no member. -/
def receiverOf (run : Interpreter) (m : MemberRef) (use : Use) : Eval (Option Receiver) := do
  match m.object, use with
  | some object, .write value =>
    let _ ← run.eval value none
    run.objectReceiver object
  | some object, _ => run.objectReceiver object
  | none, .read => Action.read (·.bareReceiver? m.name .read)
  | none, .write value =>
    let _ ← run.eval value none
    Action.read (·.bareReceiver? m.name (.write value))
  | none, .call arguments =>
    let _ ← run.evalAll arguments
    Action.read (·.bareReceiver? m.name (.call arguments))

end Interpreter

/-! ## On whose behalf code runs -/

namespace Session

variable {s s' : Session}

theorem member?_of_calls (h : s'.calls = s.calls) : s'.member? = s.member? := by
  rw [member?, member?, h]

/-- What is private to a class may be used by code of this class. -/
theorem mayAccess_ownerOnly {owner : String} :
    s.mayAccess .ownerOnly owner = true ↔ s.member?.map MemberScope.owner = some owner := by
  dsimp only [mayAccess]
  cases s.member? with
  | none => simp
  | some scope => simp

variable {scope : MemberScope} {id : ObjectId}

/-- A bare name that means a field means a field of the running class. -/
theorem implicitField?_of_member (h : s.member? = some scope) (name : String) :
    s.implicitField? name =
      ((s.store.classInfo scope.cls).fields.find? name).map fun field => (scope, field) := by
  rw [implicitField?, h, Option.map_eq_bind]
  rfl

theorem ownMethodScope?_of_member (h : s.member? = some scope) (name : String) :
    Interpreter.ownMethodScope? name s =
      ((s.store.classInfo scope.cls).methods.find? name).map fun _ => scope := by
  rw [Interpreter.ownMethodScope?, h]
  change (guard ((s.store.classInfo scope.cls).methods.contains name) : Option Unit).bind _ = _
  rw [Table.contains]
  cases (s.store.classInfo scope.cls).methods.find? name <;> rfl

theorem receiver_of_self (h : scope.self = some id) (s : Session) (member : String) :
    s.receiver scope member = .ok id := by
  rw [receiver, h]

end Session

/-- In code that runs on an object, `this` is the object. -/
theorem Interpreter.eval_self_of_member {s : Session} {scope : MemberScope} {id : ObjectId}
    (hscope : s.member? = some scope) (hself : scope.self = some id) (fuel line : Nat)
    (expected : Option Ty) :
    (interpreter (fuel + 1)).eval (.self line) expected s = .ok (.object id) s := by
  refine Eval.ask_of_ok ?_ line
  have hobject : s.member?.bind MemberScope.self = some id := by
    rw [hscope]
    exact hself
  rw [currentSelf, hobject]

/-! ## Finding the receiver -/

namespace Discipline.Laws

variable {D : Discipline} {run run' : Interpreter} {s : Session}

theorem objectReceiver_conforms (hrun : D.Runs run run') (hs : D.Inv s)
    (object : Expr) :
    D.Conforms false s (run.objectReceiver object) (run'.objectReceiver object)
      fun _ _ => True := by
  refine .readThen (fun _ => rfl) ?_
  cases s.staticReceiver? object with
  | some cls => exact .pure hs trivial
  | none => exact (hrun.eval hs object none).bind fun _ _ _ hs₁ _ => .pure hs₁ trivial

theorem receiverOf_conforms (L : D.Laws) (hrun : D.Runs run run') (hs : D.Inv s) (m : MemberRef)
    (use : Use) :
    D.Conforms false s (run.receiverOf m use) (run'.receiverOf m use) fun _ _ => True := by
  have hbare {s₁ : Session} (hs₁ : D.Inv s₁) :
      D.Conforms false s₁ (Action.read (·.bareReceiver? m.name use))
        (Action.read (·.bareReceiver? m.name use)) fun _ _ => True := by
    cases use <;> exact .readThen (fun _ => rfl) (.pure hs₁ trivial)
  obtain ⟨object, name⟩ := m
  cases object with
  | some object =>
      cases use with
      | read | call _ => exact objectReceiver_conforms hrun hs object
      | write value =>
          exact (hrun.eval hs value none).bind fun _ _ _ hs₁ _ =>
            objectReceiver_conforms hrun hs₁ object
  | none =>
      cases use with
      | read => exact hbare hs
      | write value => exact (hrun.eval hs value none).bind fun _ _ _ hs₁ _ => hbare hs₁
      | call arguments =>
          exact (L.evalAll_conforms hrun hs arguments).bind fun _ _ _ hs₁ _ => hbare hs₁

end Discipline.Laws

/-- Finding the receiver runs no body itself. -/
theorem Interpreter.receiverOf_congr {run run' : Interpreter} (h : run.eval = run'.eval)
    (m : MemberRef) (use : Use) : run.receiverOf m use = run'.receiverOf m use := by
  have hobject (object : Expr) : run.objectReceiver object = run'.objectReceiver object := by
    rw [objectReceiver, objectReceiver, h]
  obtain ⟨object, name⟩ := m
  cases object <;> cases use <;>
    simp only [receiverOf, hobject, h, evalAll_congr h]

open Discipline in
/-- Finding the receiver leaves the calls in progress as they are. -/
theorem Interpreter.calls_of_receiverOf {fuel : Nat} {m : MemberRef} {use : Use} {s s' : Session}
    {receiver : Option Receiver}
    (h : (interpreter fuel).receiverOf m use s = .ok receiver s') : s'.calls = s.calls := by
  have hconforms := free_laws.receiverOf_conforms (free_laws.interpreter_runs fuel)
    (free_inv s) m use
  exact (hconforms.of_ok h).1.calls

end ClassScript
