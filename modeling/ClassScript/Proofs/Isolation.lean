import ClassScript.Proofs.Balance

/-!
# Isolation of calls

A call does not see the variables of its caller and does not touch them. Two sessions that agree on
everything but their variables cannot be told apart by calling a function, a method or a
constructor: the result, the console and everything else that the call changes are the same, and
the variables of either session are exactly as before.
-/

namespace ClassScript

/-- The sessions agree on everything but their variables. -/
structure Session.AgreeBeyondScopes (s₁ s₂ : Session) : Prop where
  store : s₁.store = s₂.store
  functions : s₁.functions = s₂.functions
  console : s₁.console = s₂.console
  loader : s₁.loader = s₂.loader
  calls : s₁.calls = s₂.calls
  included : s₁.included = s₂.included

/-- Two runs, from `s₁` and `s₂`, have the same outcome, and each leaves its variables as they
were: their values, their types and their constancy. -/
inductive Outcome.Alike {α : Type} (s₁ s₂ : Session) :
    Outcome Session Fault α → Outcome Session Fault α → Prop where
  | ok (v : α) {s₁' s₂' : Session} (agree : s₁'.AgreeBeyondScopes s₂')
      (scopes₁ : s₁'.scopes = s₁.scopes) (scopes₂ : s₂'.scopes = s₂.scopes) :
      Alike s₁ s₂ (.ok v s₁') (.ok v s₂')
  | error (fault : Fault) {s₁' s₂' : Session} (agree : s₁'.AgreeBeyondScopes s₂')
      (scopes₁ : s₁'.scopes = s₁.scopes) (scopes₂ : s₂'.scopes = s₂.scopes) :
      Alike s₁ s₂ (.error fault s₁') (.error fault s₂')
  | exhausted : Alike s₁ s₂ .exhausted .exhausted

namespace Discipline

/-- The discipline that forbids nothing. -/
abbrev free : Discipline := balance False False

theorem free_laws : free.Laws := balance_laws False False

theorem free_inv (s : Session) : free.Inv s := ⟨False.elim, False.elim⟩

theorem free_made (id : ObjectId) : free.MadeUnder id :=
  ⟨Session.start (fun _ => .error .unknownModule) [], free_inv _, Nat.zero_le id⟩

end Discipline

namespace Interpreter

open Discipline

variable {fuel : Nat} {s s' : Session}

theorem keeps_of_eval {e : Expr} {expected : Option Ty} {v : Value}
    (h : (interpreter fuel).eval e expected s = .ok v s') : s.Keeps false s' :=
  (((free_laws.interpreter_runs fuel).eval (free_inv s) e expected).of_ok h).1

theorem keeps_of_evalAll {es : List Expr} {vs : List Value}
    (h : (interpreter fuel).evalAll es s = .ok vs s') : s.Keeps false s' :=
  ((free_laws.evalAll_conforms (free_laws.interpreter_runs fuel) (free_inv s) es).of_ok h).1

end Interpreter

namespace Eval

/-! ## Isolated actions -/

/-- The action does the same under all variables and leaves them as they are. -/
def Isolated {α : Type} (x : Eval α) : Prop :=
  ∀ (s : Session) (scopes : ScopeStack),
    x { s with scopes } = (x s).mapState fun s' => { s' with scopes }

namespace Isolated

variable {α β : Type} {x : Eval α} {f : α → Eval β}

protected theorem pure (a : α) : Isolated (Pure.pure a) := fun _ _ => rfl

theorem raise (cause : Cause) (line : Nat) : Isolated (Eval.raise cause line : Eval α) :=
  fun _ _ => rfl

protected theorem bind (hx : Isolated x) (hf : ∀ a, Isolated (f a)) : Isolated (x >>= f) := by
  intro s scopes
  have hscopes := hx s scopes
  cases hxs : x s with
  | ok a s' =>
      rw [hxs] at hscopes
      rw [Action.bind_of_ok hscopes, Action.bind_of_ok hxs]
      exact hf a s' scopes
  | error fault s' =>
      rw [hxs] at hscopes
      rw [Action.bind_of_error hscopes, Action.bind_of_error hxs]
      rfl
  | exhausted =>
      rw [hxs] at hscopes
      rw [Action.bind_of_exhausted hscopes, Action.bind_of_exhausted hxs]
      rfl

theorem ask {question : Session → Except Cause α} (line : Nat)
    (h : ∀ (s : Session) scopes, question { s with scopes } = question s) :
    Isolated (Eval.ask line question) := by
  intro s scopes
  rw [Eval.ask, Eval.ask, h s scopes]
  cases question s <;> rfl

theorem askStore (question : Store → Except Cause α) (line : Nat) :
    Isolated (Eval.askStore line question) :=
  ask line fun _ _ => rfl

theorem read {look : Session → α} (h : ∀ (s : Session) scopes, look { s with scopes } = look s) :
    Isolated (Action.read look) := by
  intro s scopes
  rw [Action.read, Action.read, h s scopes]
  rfl

/-- An update of what is not a variable. -/
theorem update {change : Session → Session}
    (h : ∀ (s : Session) scopes, change { s with scopes } = { change s with scopes }) :
    Isolated (Action.update change) := by
  intro s scopes
  rw [Action.update, Action.update, h s scopes]
  rfl

/-- The body of a call starts in an activation of its own, so it is enough that it conforms. -/
theorem withFrame {Q : Store → α → Prop} (hx : ∀ s, Discipline.free.Conforms true s x x Q)
    (frame : CallFrame) (line : Nat) : Isolated (Eval.withFrame frame line x) := by
  intro s scopes
  have h := Discipline.Conforms.withFrame_scopes Discipline.free_laws (Discipline.free_inv s)
    frame line (fun _ _ _ _ => ⟨trivial, trivial⟩) fun _ => hx (s.called frame)
  exact h.1 scopes

/-- Two runs of an isolated action from sessions that differ only in their variables. -/
theorem alike (hx : Isolated x) {s₁ s₂ : Session} (h : s₁.AgreeBeyondScopes s₂) :
    Outcome.Alike s₁ s₂ (x s₁) (x s₂) := by
  obtain ⟨scopes₂, store, functions, console, loader, calls, included⟩ := s₂
  obtain ⟨rfl, rfl, rfl, rfl, rfl, rfl⟩ := h
  have hsame := hx s₁ s₁.scopes
  have hother := hx s₁ scopes₂
  change x s₁ = _ at hsame
  cases hxs : x s₁ with
  | ok v s' =>
      rw [hxs] at hsame hother
      rw [hother]
      injection hsame with _ hstate
      have hscopes := congrArg Session.scopes hstate
      exact .ok v ⟨rfl, rfl, rfl, rfl, rfl, rfl⟩ hscopes rfl
  | error fault s' =>
      rw [hxs] at hsame hother
      rw [hother]
      injection hsame with _ hstate
      have hscopes := congrArg Session.scopes hstate
      exact .error fault ⟨rfl, rfl, rfl, rfl, rfl, rfl⟩ hscopes rfl
  | exhausted =>
      rw [hxs] at hother
      rw [hother]
      exact .exhausted

end Isolated

end Eval

/-! ## Calls are isolated -/

namespace Interpreter

open Eval Discipline

variable (fuel : Nat)

theorem callFunction_isolated (decl : FunctionDecl) (frame : CallFrame) (args : List Value)
    (line : Nat) : Isolated ((interpreter fuel).callFunction decl frame args line) := by
  have hbody (s : Session) : free.Conforms true s
      (bindParameters line decl.params args >>= fun _ => (interpreter fuel).execAll decl.body)
      (bindParameters line decl.params args >>= fun _ => (interpreter fuel).execAll decl.body)
      free.Sig :=
    (free_laws.bindParameters_conforms (free_inv s) line decl.params args fun _ _ => trivial).bind
      fun _ _ _ hs₁ _ => Laws.execAll_conforms (free_laws.interpreter_runs fuel) hs₁ decl.body
  refine (Isolated.askStore _ line).bind fun _ => ?_
  exact (Isolated.withFrame hbody frame line).bind fun signal => .askStore _ line

theorem invoke_isolated (cls : ClassId) (method : MethodInfo) (self : Option ObjectId)
    (args : List Value) (line : Nat) :
    Isolated ((interpreter fuel).invoke cls method self args line) := by
  unfold invoke
  cases method.body with
  | user decl =>
      exact (Isolated.read fun _ _ => rfl).bind fun frame =>
        callFunction_isolated fuel decl frame args line
  | native native => exact .askStore _ line
  | abstract => exact (Isolated.read fun _ _ => rfl).bind fun _ => .raise _ line

theorem builtin_isolated (b : Builtin) (name : String) (args : List Value) (line : Nat) :
    Isolated (b.call name args line) := by
  unfold Builtin.call
  split
  · cases b with
    | print | println =>
        refine (Isolated.read fun _ _ => rfl).bind fun text => ?_
        exact (Isolated.update fun _ _ => rfl).bind fun _ => .pure _
    | read =>
        have hread : Isolated (Action.modifyGet fun s : Session =>
            (s.console.readLine.1, { s with console := s.console.readLine.2 })) :=
          fun _ _ => rfl
        refine Isolated.bind (hread.bind fun input => ?_) fun _ => .pure _
        cases input with
        | some text => exact .pure _
        | none => exact .raise _ line
    | str => exact (Isolated.read fun _ _ => rfl).bind fun _ => .pure _
  · exact .raise _ line

theorem callOwnMethod_isolated (scope : MemberScope) (name : String) (args : List Value)
    (line : Nat) : Isolated ((interpreter fuel).callOwnMethod scope name args line) := by
  refine (Isolated.ask line fun _ _ => rfl).bind fun method => ?_
  split
  · exact invoke_isolated fuel scope.cls method none args line
  · exact (Isolated.ask line fun _ _ => rfl).bind fun self =>
      invoke_isolated fuel scope.cls method (some self) args line

theorem callNamed_isolated (name : String) (args : List Value) (line : Nat) :
    Isolated ((interpreter fuel).callNamed name args line) := by
  unfold callNamed
  cases Builtin.ofName? name with
  | some b => exact builtin_isolated b name args line
  | none =>
      refine (Isolated.read fun _ _ => rfl).bind fun own => ?_
      cases own with
      | some scope => exact callOwnMethod_isolated fuel scope name args line
      | none =>
          refine (Isolated.read fun _ _ => rfl).bind fun decl => ?_
          cases decl with
          | some decl => exact callFunction_isolated fuel decl _ args line
          | none => exact .raise _ line

theorem fieldValue_isolated (field : FieldInfo) (scope : MemberScope) (line : Nat) :
    Isolated ((interpreter fuel).fieldValue field scope line) := by
  have hcheck (v : Value) : Isolated (do
      Eval.askStore line fun st => st.check field.ty v
      return v) :=
    (Isolated.askStore _ line).bind fun _ => .pure v
  unfold fieldValue
  cases field.init with
  | value v => exact hcheck v
  | declared decl =>
      have hbody (s : Session) :=
        free_laws.declaredValue_conforms (free_laws.interpreter_runs fuel) (free_inv s) decl
      refine (Isolated.read fun _ _ => rfl).bind fun frame => ?_
      exact (Isolated.withFrame (fun s => (hbody s).toBinding) frame line).bind hcheck

theorem initializeFields_isolated (cls : ClassId) (self : ObjectId) (line : Nat)
    (fields : List FieldInfo) :
    Isolated ((interpreter fuel).initializeFields cls self line fields) := by
  induction fields with
  | nil => exact .pure ()
  | cons field rest ih =>
      refine (fieldValue_isolated fuel field _ line).bind fun v => ?_
      exact (Isolated.update fun _ _ => rfl).bind fun _ => ih

theorem construct_isolated (c : Construction) : Isolated ((interpreter fuel).construct c) := by
  cases fuel with
  | zero => exact fun _ _ => rfl
  | succ fuel =>
      have hrun := free_laws.interpreter_runs fuel
      refine (Isolated.askStore _ c.line).bind fun _ => ?_
      refine (Isolated.read fun _ _ => rfl).bind fun frame => ?_
      have hcode (s : Session) := free_laws.constructorCode_conforms hrun (free_inv s) c trivial
        ⟨trivial, trivial⟩ fun _ _ => trivial
      exact (Isolated.withFrame hcode frame c.line).bind fun signal =>
        (Isolated.askStore _ c.line).bind fun _ => .pure ()

/-- Only the arguments of `new` are evaluated among the variables of the caller. -/
theorem new_isolated (className : String) {arguments : List Expr} (line : Nat)
    (hargs : Isolated ((interpreter fuel).evalAll arguments)) :
    Isolated ((interpreter fuel).new className arguments line) := by
  refine (Isolated.askStore _ line).bind fun cls => ?_
  refine hargs.bind fun args => ?_
  refine (Isolated.ask line fun _ _ => rfl).bind fun _ => ?_
  have hallocate : Isolated (Eval.allocate fun st => st.newObject cls) := fun _ _ => rfl
  refine hallocate.bind fun self => ?_
  refine (Isolated.read fun _ _ => rfl).bind fun fields => ?_
  refine (initializeFields_isolated fuel cls self line fields).bind fun _ => ?_
  refine (Isolated.read fun _ _ => rfl).bind fun constructor => ?_
  cases constructor with
  | some constructor => exact (construct_isolated fuel _).bind fun _ => .pure _
  | none => exact .pure _

end Interpreter

/-- Calls of functions, by their declaration or by a bare name, of methods and of constructors are
isolated from the variables of their caller; so is `new`, field initializers included, if its
arguments are. -/
theorem calls_isolated (fuel : Nat) (s₁ s₂ : Session) (h : s₁.AgreeBeyondScopes s₂) :
    (∀ decl args line,
      Outcome.Alike s₁ s₂
        ((interpreter fuel).callFunction decl (functionFrame decl) args line s₁)
        ((interpreter fuel).callFunction decl (functionFrame decl) args line s₂)) ∧
    (∀ name args line,
      Outcome.Alike s₁ s₂ ((interpreter fuel).callNamed name args line s₁)
        ((interpreter fuel).callNamed name args line s₂)) ∧
    (∀ cls method self args line,
      Outcome.Alike s₁ s₂ ((interpreter fuel).invoke cls method self args line s₁)
        ((interpreter fuel).invoke cls method self args line s₂)) ∧
    (∀ c, Outcome.Alike s₁ s₂ ((interpreter fuel).construct c s₁)
      ((interpreter fuel).construct c s₂)) ∧
    ∀ className arguments line, Eval.Isolated ((interpreter fuel).evalAll arguments) →
      Outcome.Alike s₁ s₂ ((interpreter fuel).new className arguments line s₁)
        ((interpreter fuel).new className arguments line s₂) := by
  refine ⟨?_, ?_, ?_, ?_, ?_⟩
  · intro decl args line
    exact (Interpreter.callFunction_isolated fuel decl _ args line).alike h
  · intro name args line
    exact (Interpreter.callNamed_isolated fuel name args line).alike h
  · intro cls method self args line
    exact (Interpreter.invoke_isolated fuel cls method self args line).alike h
  · intro c
    exact (Interpreter.construct_isolated fuel c).alike h
  · intro className arguments line hargs
    exact (Interpreter.new_isolated fuel className line hargs).alike h

/-- A function that reads a variable of its caller fails in the same way whether or not the caller
has that variable. -/
theorem calls_isolated_from_variable :
    let s₁ := Session.start (fun _ => .error .unknownModule) []
    let x : Slot := { value := .int 1, ty := .int, isConst := true }
    let s₂ := { s₁ with scopes := s₁.scopes.bind "x" x }
    let f : FunctionDecl :=
      { name := "f", params := [], returnType := .int,
        body := [.returnValue (some (.var "x" 2)) 2], line := 1 }
    s₁.scopes.contains "x" = false ∧ s₂.scopes.contains "x" = true ∧
      Outcome.Alike s₁ s₂ ((interpreter 5).callFunction f (functionFrame f) [] 3 s₁)
        ((interpreter 5).callFunction f (functionFrame f) [] 3 s₂) := by
  intro s₁ x s₂ f
  have hagree : s₁.AgreeBeyondScopes s₂ := ⟨rfl, rfl, rfl, rfl, rfl, rfl⟩
  exact ⟨rfl, rfl, (calls_isolated 5 s₁ s₂ hagree).1 f [] 3⟩

end ClassScript
