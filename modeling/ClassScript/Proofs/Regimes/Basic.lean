import ClassScript.Proofs.Regimes.Steps

/-!
# Regimes

A regime relates the ways in which the interpreters of a family run the same thing. Its laws say
that it holds of harmless steps, which no interpreter takes part in, of looking up and declaring a
function, and that it passes through sequences, blocks and calls; this module and the two after it
show that then it passes through every expression, every statement and every program. Three kinds of
regimes are used: that the runs of all interpreters of enough fuel finish alike, which holds only
without loops; that runs which give up over a fault differ from the run itself only if the fault is
at work there; and that two interpreters do the same in sessions that differ in their functions and
included modules only.

Calls and modules run at a level under that of the code that starts them. A regime that forbids
loops asks for loop-free code; what it does not forbid need not be shown, which is what `Allows`
says.
-/

namespace ClassScript

/-- How the runs of one thing by all interpreters of a family belong together. -/
structure Regime (ι : Type) where
  /-- Code may have loops. -/
  loops : Prop
  Level : Type
  /-- Calls and modules that start at the second level run at the first. -/
  Under : Level → Level → Prop
  /-- The runs belong together, and if code has no loops, a value satisfies `Q`. -/
  Rel : Level → {α : Type} → (ι → Eval α) → (α → Prop) → Prop

namespace Regime

variable {ι : Type}

/-- What has to hold only if loops are forbidden. -/
def Allows (R : Regime ι) (p : Prop) : Prop := R.loops ∨ p

/-- The runs belong together, whatever value they give. -/
abbrev Goes (R : Regime ι) (ℓ : R.Level) {α : Type} (X : ι → Eval α) : Prop :=
  R.Rel ℓ X fun _ => True

structure Laws (R : Regime ι) : Prop where
  under_trans {a b c : R.Level} : R.Under a b → R.Under b c → R.Under a c
  step {ℓ : R.Level} {α : Type} {x : Eval α} {Q : α → Prop} :
    x.Blind → R.Allows (x.Finishing Q) → R.Rel ℓ (fun _ => x) Q
  findFunction {ℓ : R.Level} (name : String) :
    R.Rel ℓ (fun _ => (Action.read (·.functions.find? name) : Eval _))
      fun found => ∀ decl ∈ found, decl.LoopFree
  declareFunction {ℓ : R.Level} {decl : FunctionDecl} :
    R.Allows decl.LoopFree → R.Goes ℓ fun _ => ClassScript.declareFunction decl
  bind {ℓ : R.Level} {α β : Type} {X : ι → Eval α} {F : ι → α → Eval β} {Q : α → Prop}
    {Q' : β → Prop} : R.Rel ℓ X Q → (∀ a, R.Allows (Q a) → R.Rel ℓ (fun i => F i a) Q') →
    R.Rel ℓ (fun i => X i >>= F i) Q'
  inScope {ℓ : R.Level} {α : Type} {X : ι → Eval α} {Q : α → Prop} (line : Nat) :
    R.Rel ℓ X Q → R.Rel ℓ (fun i => Eval.inScope line (X i)) Q
  withFrame {ℓ : R.Level} {α : Type} {X : ι → Eval α} {Q : α → Prop} (frame : CallFrame)
    (line : Nat) : (∀ ℓ', R.Under ℓ' ℓ → R.Rel ℓ' X Q) →
    R.Rel ℓ (fun i => Eval.withFrame frame line (X i)) Q

/-- The interpreters run the parts of code smaller than `z`, and all constructors. -/
structure Runs (R : Regime ι) (run : ι → Interpreter) (ℓ : R.Level) (z : Nat) : Prop where
  eval (e : Expr) (expected : Option Ty) : sizeOf e < z →
    R.Goes ℓ fun i => (run i).eval e expected
  exec (statement : Statement) : R.Allows (sizeOf statement < z ∧ statement.LoopFree) →
    R.Goes ℓ fun i => (run i).exec statement
  construct (c : Construction) : R.Allows c.constructor.decl.LoopFree →
    R.Goes ℓ fun i => (run i).construct c

/-- The interpreters run the parts of code smaller than `z`, and all code at the levels under. -/
structure Below (R : Regime ι) (run : ι → Interpreter) (ℓ : R.Level) (z : Nat) : Prop
    extends R.Runs run ℓ z where
  under : ∀ ℓ', R.Under ℓ' ℓ → ∀ z', R.Runs run ℓ' z'

variable {R : Regime ι} {run : ι → Interpreter} {ℓ : R.Level} {z : Nat} {α : Type}

theorem Allows.imp {p q : Prop} (h : R.Allows p) (hpq : p → q) : R.Allows q := Or.imp_right hpq h

theorem Allows.and {p q : Prop} (hp : R.Allows p) (hq : R.Allows q) : R.Allows (p ∧ q) := by
  rcases hp with hloops | hp
  · exact .inl hloops
  · exact hq.imp fun hq => ⟨hp, hq⟩

theorem Below.descend (h : R.Below run ℓ z) (L : R.Laws) {ℓ' : R.Level} (hℓ : R.Under ℓ' ℓ)
    (z' : Nat) : R.Below run ℓ' z' :=
  ⟨h.under ℓ' hℓ z', fun ℓ'' hunder => h.under ℓ'' (L.under_trans hunder hℓ)⟩

namespace Laws

theorem harmless (L : R.Laws) {x : Eval α} {Q : α → Prop} (h : Eval.Harmless x Q) :
    R.Rel ℓ (fun _ => x) Q :=
  L.step h.blind (.inr h.finishing)

protected theorem pure (L : R.Laws) (a : α) : R.Goes ℓ fun _ => (Pure.pure a : Eval α) :=
  L.harmless (.pure trivial)

theorem raise (L : R.Laws) (cause : Cause) (line : Nat) :
    R.Goes ℓ fun _ => (Eval.raise cause line : Eval α) :=
  L.harmless (.raise cause line)

theorem query (L : R.Laws) {question : Session → Except Cause α} (line : Nat)
    (hblind : ∀ s functions included, question { s with functions, included } = question s) :
    R.Goes ℓ fun _ => Eval.ask line question :=
  L.harmless (.query line hblind)

theorem look (L : R.Laws) {look : Session → α}
    (hblind : ∀ s functions included, look { s with functions, included } = look s) :
    R.Goes ℓ fun _ => (Action.read look : Eval α) :=
  L.harmless (.look hblind)

/-! ## Lists of parts -/

theorem evalAll_goes (L : R.Laws) (hrun : R.Runs run ℓ z) {es : List Expr}
    (hes : ∀ e ∈ es, sizeOf e < z) : R.Goes ℓ fun i => (run i).evalAll es := by
  induction es with
  | nil => exact L.pure []
  | cons e rest ih =>
      refine L.bind (hrun.eval e none (hes e List.mem_cons_self)) fun v _ => ?_
      refine L.bind (ih fun e' he' => hes e' (List.mem_cons_of_mem _ he')) fun vs _ => ?_
      exact L.pure (v :: vs)

theorem execAll_goes (L : R.Laws) (hrun : R.Runs run ℓ z) {body : List Statement}
    (hbody : R.Allows (sizeOf body ≤ z ∧ LoopFreeAll body)) :
    R.Goes ℓ fun i => (run i).execAll body := by
  induction body with
  | nil => exact L.pure Signal.normal
  | cons statement rest ih =>
      have hsplit := hbody.imp fun h => And.intro (List.cons.sizeOf_spec statement rest ▸ h.1) h.2
      refine L.bind (hrun.exec statement (hsplit.imp fun h => ⟨by omega, h.2.1⟩)) fun signal _ => ?_
      cases signal with
      | normal => exact ih (hsplit.imp fun h => ⟨by omega, h.2.2⟩)
      | _ => exact L.pure _

/-! ## Calls -/

theorem callFunction_goes (L : R.Laws) (hrun : R.Below run ℓ z) {decl : FunctionDecl}
    (hdecl : R.Allows decl.LoopFree) (frame : CallFrame) (args : List Value) (line : Nat) :
    R.Goes ℓ fun i => (run i).callFunction decl frame args line := by
  refine L.bind (L.query line fun _ _ _ => rfl) fun _ _ => ?_
  refine L.bind (Q := fun _ => True) (L.withFrame frame line fun ℓ' hℓ => ?_)
    fun _ _ => L.query line fun _ _ _ => rfl
  refine L.bind (L.harmless (.bindParameters line decl.params args)) fun _ _ => ?_
  refine L.execAll_goes (hrun.under ℓ' hℓ _) (hdecl.imp fun h => ⟨Nat.le_refl _, ?_⟩)
  cases decl
  exact h

theorem invoke_goes (L : R.Laws) (hrun : R.Below run ℓ z) (cls : ClassId) {method : MethodInfo}
    (hmethod : R.Allows method.LoopFree) (self : Option ObjectId) (args : List Value)
    (line : Nat) : R.Goes ℓ fun i => (run i).invoke cls method self args line := by
  unfold Interpreter.invoke
  unfold MethodInfo.LoopFree at hmethod
  cases hbody : method.body with
  | user decl =>
      rw [hbody] at hmethod
      exact L.bind (L.look fun _ _ _ => rfl) fun frame _ =>
        L.callFunction_goes hrun hmethod frame args line
  | native native => exact L.query line fun _ _ _ => rfl
  | abstract => exact L.bind (L.look fun _ _ _ => rfl) fun _ _ => L.raise _ line

/-- The methods that a question finds are loop-free. -/
theorem findMethod (L : R.Laws) {question : Session → Except Cause MethodInfo} (line : Nat)
    (h : ∀ s, Answers (fun method => ∃ cls name,
      (s.store.classInfo cls).methods.find? name = some method) (question s))
    (hblind : ∀ s functions included, question { s with functions, included } = question s) :
    R.Rel ℓ (fun _ => Eval.ask line question) MethodInfo.LoopFree := by
  refine L.harmless (.ask line (fun {s method} hs hok => ?_) hblind)
  obtain ⟨cls, name, hfind⟩ := (h s).of_ok hok
  exact (hs.classes cls).methods hfind

theorem callOwnMethod_goes (L : R.Laws) (hrun : R.Below run ℓ z) (scope : MemberScope)
    (name : String) (args : List Value) (line : Nat) :
    R.Goes ℓ fun i => (run i).callOwnMethod scope name args line := by
  refine L.bind (L.findMethod line (fun s =>
    (s.findMethod_answers scope.cls name).mono fun _ h => ⟨_, _, h⟩) fun _ _ _ => rfl)
    fun method hmethod => ?_
  split
  · exact L.invoke_goes hrun scope.cls hmethod none args line
  · exact L.bind (L.query line fun _ _ _ => rfl) fun self _ =>
      L.invoke_goes hrun scope.cls hmethod (some self) args line

theorem callNamed_goes (L : R.Laws) (hrun : R.Below run ℓ z) (name : String) (args : List Value)
    (line : Nat) : R.Goes ℓ fun i => (run i).callNamed name args line := by
  unfold Interpreter.callNamed
  cases Builtin.ofName? name with
  | some b => exact L.harmless (.builtin b name args line)
  | none =>
      refine L.bind (L.look fun _ _ _ => rfl) fun own _ => ?_
      cases own with
      | some scope => exact L.callOwnMethod_goes hrun scope name args line
      | none =>
          refine L.bind (L.findFunction name) fun found hfound => ?_
          cases found with
          | some decl =>
              exact L.callFunction_goes hrun (hfound.imp fun h => h decl rfl) _ args line
          | none => exact L.raise _ line

end Laws

end Regime

end ClassScript
