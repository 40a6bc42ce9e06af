import ClassScript.Proofs.Discipline
import ClassScript.Proofs.Regimes.LoopFree

/-!
# Harmless steps

The actions from which evaluation is built, apart from running code: each of them finishes, and in
a loop-free session it leaves a loop-free one, with the same calls in progress, the same included
modules and the same loader. They are also blind to the functions and to the included modules of
the session, with two exceptions: a call by name looks up a function, and a declaration adds one.
-/

namespace ClassScript

/-! ## Outcomes and sessions -/

/-- The outcome is a value that satisfies `Q` or an error, with a state that satisfies `K`. -/
def Outcome.Finishes {σ ε α : Type} (K : σ → Prop) (Q : α → Prop) : Outcome σ ε α → Prop
  | .ok a s => K s ∧ Q a
  | .error _ s => K s
  | .exhausted => False

/-- What is kept of a loop-free session. Modules may have been included. -/
structure Session.Advances (s s' : Session) : Prop where
  loopFree : s'.LoopFree
  calls : s'.calls = s.calls
  included : s.included ⊆ s'.included
  loader : s'.loader = s.loader

namespace Session

variable {s s' s'' : Session}

theorem LoopFree.advances (h : s.LoopFree) : s.Advances s := ⟨h, rfl, List.Subset.refl _, rfl⟩

theorem Advances.trans (h : s.Advances s') (h' : s'.Advances s'') : s.Advances s'' :=
  ⟨h'.loopFree, h'.calls.trans h.calls, List.Subset.trans h.included h'.included,
    h'.loader.trans h.loader⟩

/-- Variables and the console play no part. -/
theorem LoopFree.advances_with (h : s.LoopFree) {st : Store} (hst : st.LoopFree)
    (scopes : ScopeStack) (console : Console) :
    s.Advances { s with scopes, console, store := st } :=
  ⟨⟨h.functions, hst, h.modules⟩, rfl, List.Subset.refl _, rfl⟩

end Session

namespace Outcome

variable {σ ε α : Type} {K K' : σ → Prop} {Q Q' : α → Prop} {o : Outcome σ ε α}

theorem Finishes.mono (h : o.Finishes K Q) (hK : ∀ s, K s → K' s) (hQ : ∀ a, Q a → Q' a) :
    o.Finishes K' Q' := by
  cases o with
  | ok a s => exact ⟨hK s h.1, hQ a h.2⟩
  | error e s => exact hK s h
  | exhausted => exact h

end Outcome

namespace Eval

/-- The action finishes in every loop-free session, which advances, and a value satisfies `Q`. -/
def Finishing {α : Type} (x : Eval α) (Q : α → Prop) : Prop :=
  ∀ s : Session, s.LoopFree → (x s).Finishes s.Advances Q

/-- The action does not look at the functions and the included modules, and leaves them alone. -/
def Blind {α : Type} (x : Eval α) : Prop :=
  ∀ s functions included, x { s with functions, included } =
    (x s).mapState fun s' => { s' with functions, included }

/-- The action finishes and is blind. -/
structure Harmless {α : Type} (x : Eval α) (Q : α → Prop) : Prop where
  finishing : x.Finishing Q
  blind : x.Blind

variable {α β : Type} {x : Eval α} {f : α → Eval β} {Q : α → Prop} {R : β → Prop}

/-! ## Finishing actions -/

namespace Finishing

protected theorem bind (hx : x.Finishing Q) (hf : ∀ a, Q a → (f a).Finishing R) :
    (x >>= f : Eval β).Finishing R := by
  intro s hs
  have hxs := hx s hs
  cases hrun : x s with
  | ok a s' =>
      rw [hrun] at hxs
      rw [Action.bind_of_ok hrun]
      exact (hf a hxs.2 s' hxs.1.loopFree).mono (fun _ => hxs.1.trans) fun _ h => h
  | error fault s' =>
      rw [hrun] at hxs
      rw [Action.bind_of_error hrun]
      exact hxs
  | exhausted =>
      rw [hrun] at hxs
      exact hxs.elim

theorem ask {question : Session → Except Cause α} (line : Nat)
    (hQ : ∀ {s : Session} {a : α}, s.LoopFree → question s = .ok a → Q a) :
    (Eval.ask line question).Finishing Q := by
  intro s hs
  rw [Eval.ask]
  cases h : question s with
  | ok a => exact ⟨hs.advances, hQ hs h⟩
  | error cause => exact hs.advances

theorem read {look : Session → α} (hQ : ∀ {s : Session}, s.LoopFree → Q (look s)) :
    Finishing (Action.read look) Q :=
  fun _ hs => ⟨hs.advances, hQ hs⟩

theorem update {change : Session → Session}
    (h : ∀ {s : Session}, s.LoopFree → s.Advances (change s)) :
    Finishing (Action.update change) fun _ => True :=
  fun _ hs => ⟨h hs, trivial⟩

end Finishing

/-! ## Blind actions -/

namespace Blind

protected theorem pure (a : α) : Blind (Pure.pure a) := fun _ _ _ => rfl

protected theorem bind (hx : x.Blind) (hf : ∀ a, (f a).Blind) : Blind (x >>= f) := by
  intro s functions included
  have hxs := hx s functions included
  cases hrun : x s with
  | ok a s' =>
      rw [hrun] at hxs
      rw [Action.bind_of_ok hrun, Action.bind_of_ok hxs]
      exact hf a s' functions included
  | error fault s' =>
      rw [hrun] at hxs
      rw [Action.bind_of_error hrun, Action.bind_of_error hxs]
      rfl
  | exhausted =>
      rw [hrun] at hxs
      rw [Action.bind_of_exhausted hrun, Action.bind_of_exhausted hxs]
      rfl

theorem outOfFuel : Blind (Action.outOfFuel : Eval α) := fun _ _ _ => rfl

theorem ask {question : Session → Except Cause α} (line : Nat)
    (h : ∀ s functions included, question { s with functions, included } = question s) :
    (Eval.ask line question).Blind := by
  intro s functions included
  rw [Eval.ask, Eval.ask, h s functions included]
  cases question s <;> rfl

theorem read {look : Session → α}
    (h : ∀ s functions included, look { s with functions, included } = look s) :
    Blind (Action.read look) := by
  intro s functions included
  rw [Action.read, Action.read, h s functions included]
  rfl

theorem ofExcept (result : Except Fault α) : Blind (Action.ofExcept result) := by
  cases result with
  | ok a => exact fun _ _ _ => rfl
  | error fault => exact fun _ _ _ => rfl

theorem attempt (hx : x.Blind) : Blind (Action.attempt x) := by
  intro s functions included
  rw [Action.attempt, Action.attempt, hx s functions included]
  cases x s <;> rfl

theorem update {change : Session → Session}
    (h : ∀ s functions included,
      change { s with functions, included } = { change s with functions, included }) :
    Blind (Action.update change) := by
  intro s functions included
  rw [Action.update, Action.update, h s functions included]
  rfl

theorem allocate (change : Store → α × Store) : (Eval.allocate change).Blind := fun _ _ _ => rfl

theorem exitScope (line : Nat) : (Eval.exitScope line).Blind := by
  intro s functions included
  rw [Eval.exitScope, Eval.exitScope]
  cases s.scopes.exit <;> rfl

theorem exitCall (line : Nat) : (Eval.exitCall line).Blind :=
  (exitScope line).attempt.bind fun exited =>
    (update fun _ _ _ => rfl).bind fun _ => ofExcept exited

theorem declareClassInfo (info : ClassInfo) (line : Nat) :
    (ClassScript.declareClassInfo info line).Blind :=
  (ask line fun _ _ _ => rfl).bind fun _ => allocate _

end Blind

/-! ## Harmless actions -/

namespace Harmless

protected theorem pure {a : α} (h : Q a) : Harmless (Pure.pure a) Q :=
  ⟨fun _ hs => ⟨hs.advances, h⟩, .pure a⟩

protected theorem bind (hx : x.Harmless Q) (hf : ∀ a, (f a).Harmless R) : Harmless (x >>= f) R :=
  ⟨hx.finishing.bind fun a _ => (hf a).finishing, hx.blind.bind fun a => (hf a).blind⟩

theorem raise (cause : Cause) (line : Nat) : Harmless (Eval.raise cause line : Eval α) Q :=
  ⟨fun _ hs => hs.advances, fun _ _ _ => rfl⟩

theorem ask {question : Session → Except Cause α} (line : Nat)
    (hQ : ∀ {s : Session} {a : α}, s.LoopFree → question s = .ok a → Q a)
    (hblind : ∀ s functions included, question { s with functions, included } = question s) :
    Harmless (Eval.ask line question) Q :=
  ⟨.ask line hQ, .ask line hblind⟩

/-- A question of which only the answer is used. -/
theorem query {question : Session → Except Cause α} (line : Nat)
    (hblind : ∀ s functions included, question { s with functions, included } = question s) :
    Harmless (Eval.ask line question) fun _ => True :=
  ask line (fun _ _ => trivial) hblind

theorem read {look : Session → α} (hQ : ∀ {s : Session}, s.LoopFree → Q (look s))
    (hblind : ∀ s functions included, look { s with functions, included } = look s) :
    Harmless (Action.read look) Q :=
  ⟨.read hQ, .read hblind⟩

/-- A part of the session of which only the value is used. -/
theorem look {look : Session → α}
    (hblind : ∀ s functions included, look { s with functions, included } = look s) :
    Harmless (Action.read look) fun _ => True :=
  read (fun _ => trivial) hblind

theorem ofExcept {result : Except Fault α} (h : ∀ a, result = .ok a → Q a) :
    Harmless (Action.ofExcept result) Q := by
  refine ⟨fun s hs => ?_, .ofExcept result⟩
  cases result with
  | ok a => exact ⟨hs.advances, h a rfl⟩
  | error fault => exact hs.advances

theorem update {change : Session → Session}
    (h : ∀ {s : Session}, s.LoopFree → s.Advances (change s))
    (hblind : ∀ s functions included,
      change { s with functions, included } = { change s with functions, included }) :
    Harmless (Action.update change) fun _ => True :=
  ⟨.update h, .update hblind⟩

theorem updateStore {change : Store → Store}
    (h : ∀ {st : Store}, st.LoopFree → (change st).LoopFree) :
    Harmless (Eval.updateStore change) fun _ => True :=
  update (fun hs => hs.advances_with (h hs.classes) _ _) fun _ _ _ => rfl

theorem allocate {change : Store → α × Store}
    (h : ∀ {st : Store}, st.LoopFree → (change st).2.LoopFree) :
    Harmless (Eval.allocate change) fun _ => True :=
  ⟨fun _ hs => ⟨hs.advances_with (h hs.classes) _ _, trivial⟩, .allocate change⟩

/-! ## Variables, members and the console -/

theorem declareVariable (name : String) (ty : Ty) (v : Value) (isConst : Bool) (line : Nat) :
    Harmless (Eval.declareVariable name ty v isConst line) fun _ => True :=
  (query line fun _ _ _ => rfl).bind fun _ =>
    update (fun hs => hs.advances_with hs.classes _ _) fun _ _ _ => rfl

theorem bindParameters (line : Nat) (params : List Param) (args : List Value) :
    Harmless (ClassScript.bindParameters line params args) fun _ => True := by
  induction params generalizing args with
  | nil => exact .pure trivial
  | cons param params ih =>
      cases args with
      | nil => exact .pure trivial
      | cons arg args =>
          exact (declareVariable param.name param.ty arg false line).bind fun _ => ih args

theorem assignVariable (name : String) (v : Value) (line : Nat) :
    Harmless (Eval.assignVariable name v line) fun _ => True :=
  (query line fun _ _ _ => rfl).bind fun _ =>
    update (fun hs => hs.advances_with hs.classes _ _) fun _ _ _ => rfl

theorem assignItem (target : Value) (index : Int64) (v : Value) (line : Nat) :
    Harmless (Eval.assignItem target index v line) fun _ => True :=
  (query line fun _ _ _ => rfl).bind fun _ => updateStore fun h => h

theorem putField (id : ObjectId) (name : String) (v : Value) :
    Harmless (Eval.updateStore fun st => st.putField id name v) fun _ => True :=
  updateStore fun h => h

theorem putStatic (cls : ClassId) (name : String) (v : Value) :
    Harmless (Eval.updateStore fun st => st.putStatic cls name v) fun _ => True :=
  updateStore fun h => h.putStatic cls name v

theorem writeStatic (cls : ClassId) (name : String) (v : Value) (line : Nat) :
    Harmless (Eval.writeStatic cls name v line) fun _ => True :=
  (query line fun _ _ _ => rfl).bind fun holder => putStatic holder name v

theorem writeField (id : ObjectId) (name : String) (v : Value) (line : Nat) :
    Harmless (Eval.writeField id name v line) fun _ => True :=
  (query line fun _ _ _ => rfl).bind fun _ => putField id name v

theorem writeName (name : String) (v : Value) (line : Nat) :
    Harmless (Eval.writeName name v line) fun _ => True := by
  refine .bind (look fun _ _ _ => rfl) fun declared => ?_
  split
  · exact assignVariable name v line
  refine .bind (look fun _ _ _ => rfl) fun member => ?_
  split
  · exact raise _ line
  · split
    · exact writeStatic _ name v line
    · exact (query line fun _ _ _ => rfl).bind fun id => writeField id name v line

theorem builtin (b : Builtin) (name : String) (args : List Value) (line : Nat) :
    Harmless (b.call name args line) fun _ => True := by
  unfold Builtin.call
  split
  · cases b with
    | print | println =>
        refine .bind (look fun _ _ _ => rfl) fun text => ?_
        exact (update (fun hs => hs.advances_with hs.classes _ _) fun _ _ _ => rfl).bind
          fun _ => .pure trivial
    | read =>
        have hread : Harmless (Action.modifyGet fun s : Session =>
            (s.console.readLine.1, { s with console := s.console.readLine.2 })) fun _ => True :=
          ⟨fun _ hs => ⟨hs.advances_with hs.classes _ _, trivial⟩, fun _ _ _ => rfl⟩
        have hline : Harmless (Eval.readLine line) fun _ => True := by
          refine hread.bind fun input => ?_
          cases input with
          | some text => exact .pure trivial
          | none => exact raise _ line
        exact hline.bind fun _ => .pure trivial
    | str => exact .bind (look fun _ _ _ => rfl) fun _ => .pure trivial
  · exact raise _ line

/-! ## Declarations -/

/-- Describing a class only looks at the store. -/
theorem describeClass (decl : ClassDecl) :
    Harmless (fun s => (Action.ofExcept (ClassInfo.ofDecl s.store decl) : Eval ClassInfo) s)
      fun info => decl.LoopFree → info.LoopFree := by
  refine ⟨fun s hs => ?_, fun s functions included => ?_⟩
  · cases hok : ClassInfo.ofDecl s.store decl with
    | ok info => exact ⟨hs.advances, fun h => .ofDecl hs.classes h hok⟩
    | error fault => exact hs.advances
  · exact Blind.ofExcept (ClassInfo.ofDecl s.store decl) s functions included

theorem declareClassInfo {info : ClassInfo} (h : info.LoopFree) (line : Nat) :
    Harmless (ClassScript.declareClassInfo info line) fun _ => True :=
  (query line fun _ _ _ => rfl).bind fun _ => allocate fun hst => hst.enrollClass h

theorem declareInterface (decl : InterfaceDecl) :
    Harmless (ClassScript.declareInterface decl) fun _ => True :=
  (declareClassInfo (ClassInfo.loopFree_ofInterface decl) decl.line).bind fun _ => .pure trivial

theorem declareEnum (decl : EnumDecl) :
    Harmless (ClassScript.declareEnum decl) fun _ => True := by
  have hinfo : (Eval.ask decl.line fun _ => ClassInfo.ofEnum decl).Finishing ClassInfo.LoopFree :=
    .ask decl.line fun _ h => ClassInfo.loopFree_ofEnum h
  refine ⟨hinfo.bind fun info hinfo => ?_, ?_⟩
  · exact ((declareClassInfo hinfo decl.line).bind fun _ => .pure trivial).finishing
  · exact (Blind.ask decl.line fun _ _ _ => rfl).bind fun info =>
      (Blind.declareClassInfo info decl.line).bind fun _ => .pure ()

end Harmless

/-! ## Functions -/

/-- A function found by its name is loop-free. -/
theorem findFunction_finishing (name : String) :
    Finishing (Action.read fun s : Session => s.functions.find? name)
      fun found => ∀ decl ∈ found, decl.LoopFree :=
  .read fun hs _ hdecl => hs.functions hdecl

theorem declareFunction_finishing {decl : FunctionDecl} (h : decl.LoopFree) :
    (ClassScript.declareFunction decl).Finishing fun _ => True := by
  have hcheck : (Eval.ask decl.line (checkFunction decl)).Finishing fun _ => True :=
    .ask decl.line fun _ _ => trivial
  refine hcheck.bind fun _ _ => .update fun {s} hs => ?_
  refine ⟨⟨fun {name found} hfind => ?_, hs.classes, hs.modules⟩, rfl, List.Subset.refl _, rfl⟩
  rw [Table.find?_insert] at hfind
  split at hfind
  · obtain rfl := Option.some.inj hfind
    exact h
  · exact hs.functions hfind

end Eval

/-! ## Modules -/

/-- If the program of a module failed, its path is no longer among those included. -/
def Outcome.forgetting (path : String) :
    Outcome Session Fault Unit → Outcome Session Fault Unit
  | .ok a s => .ok a s
  | .error fault s => .error fault { s with included := s.included.erase path }
  | .exhausted => .exhausted

namespace Interpreter

variable {s : Session} {path : String} (run : Interpreter) (line : Nat)

theorem includeModule_of_included (h : s.included.contains path = true) :
    run.includeModule path line s = .ok () s := by
  change (if s.included.contains path = true then (pure () : Eval Unit) else _) s = _
  rw [if_pos h]
  rfl

theorem includeModule_of_unserved (h : s.included.contains path = false) {problem : ModuleProblem}
    (hload : s.loader path = .error problem) :
    run.includeModule path line s = .error { cause := .inclusion path problem, line } s := by
  change (if s.included.contains path = true then (pure () : Eval Unit) else _) s = _
  rw [if_neg (h ▸ Bool.false_ne_true)]
  refine Action.bind_of_error ?_
  rw [Eval.ask, loadModule, hload]

/-- A new module runs as a program, with its path among those included. -/
theorem includeModule_of_new (h : s.included.contains path = false) {program : Program}
    (hload : s.loader path = .ok program) :
    run.includeModule path line s =
      (run.execProgram program { s with included := path :: s.included }).forgetting path := by
  have hask : Eval.ask line (loadModule path) s = .ok program s := by
    rw [Eval.ask, loadModule, hload]
  change (if s.included.contains path = true then (pure () : Eval Unit) else _) s = _
  rw [if_neg (h ▸ Bool.false_ne_true)]
  refine (Action.bind_of_ok hask).trans ?_
  cases hrun : run.execProgram program { s with included := path :: s.included } with
  | ok _ s' => exact (Action.bind_of_ok rfl).trans (Action.bind_of_ok (Action.attempt_of_ok hrun))
  | error fault s' =>
      exact (Action.bind_of_ok rfl).trans (Action.bind_of_ok (Action.attempt_of_error hrun))
  | exhausted =>
      exact (Action.bind_of_ok rfl).trans
        (Action.bind_of_exhausted (Action.attempt_of_exhausted hrun))

end Interpreter

end ClassScript
