import ClassScript.Proofs.Growth

/-!
# Disciplines

A discipline says what must hold of every session, of every value and of every fault while a
program runs. Its laws say that each small step of evaluation respects it; the modules after this
one show that then every expression, every statement and every program does, so a fact about all
runs comes down to one fact about each small step.

The judgement `Conforms` compares two runs at once. The second run may use another interpreter for
the parts, and it starts in other surroundings, with other blocks and calls around the innermost
block; it must do the same as the first and leave its own surroundings alone.
-/

namespace ClassScript

/-! ## Outcomes -/

namespace Outcome

variable {σ ε α : Type}

/-- The action ended with a value. -/
def isOk : Outcome σ ε α → Bool
  | .ok _ _ => true
  | .error .. | .exhausted => false

theorem exists_of_isOk {o : Outcome σ ε α} (h : o.isOk = true) : ∃ a s, o = .ok a s := by
  cases o with
  | ok a s => exact ⟨a, s, rfl⟩
  | error _ _ | exhausted => cases h

/-- The action ended with a value, and `p` holds of it and the state with it. -/
def isOkWith (p : α → σ → Bool) : Outcome σ ε α → Bool
  | .ok a s => p a s
  | .error .. | .exhausted => false

theorem exists_of_isOkWith {o : Outcome σ ε α} {p : α → σ → Bool} (h : o.isOkWith p = true) :
    ∃ a s, o = .ok a s ∧ p a s = true := by
  cases o with
  | ok a s => exact ⟨a, s, rfl, h⟩
  | error _ _ | exhausted => cases h

/-- The action ended with an error, and `p` holds of it and the state with it. -/
def isErrorWith (p : ε → σ → Bool) : Outcome σ ε α → Bool
  | .error e s => p e s
  | .ok .. | .exhausted => false

theorem exists_of_isErrorWith {o : Outcome σ ε α} {p : ε → σ → Bool}
    (h : o.isErrorWith p = true) : ∃ e s, o = .error e s ∧ p e s = true := by
  cases o with
  | error e s => exact ⟨e, s, rfl, h⟩
  | ok _ _ | exhausted => cases h

/-- The outcome with its final state changed by `f`. -/
def mapState (f : σ → σ) : Outcome σ ε α → Outcome σ ε α
  | .ok a s => .ok a (f s)
  | .error e s => .error e (f s)
  | .exhausted => .exhausted

/-- A value and the state with it satisfy `P`, an error and the state with it satisfy `E`. -/
def Ends (P : α → σ → Prop) (E : ε → σ → Prop) : Outcome σ ε α → Prop
  | .ok a s => P a s
  | .error e s => E e s
  | .exhausted => True

instance (P : α → σ → Prop) (E : ε → σ → Prop) [∀ a s, Decidable (P a s)]
    [∀ e s, Decidable (E e s)] (o : Outcome σ ε α) : Decidable (o.Ends P E) :=
  match o with
  | .ok a s => inferInstanceAs (Decidable (P a s))
  | .error e s => inferInstanceAs (Decidable (E e s))
  | .exhausted => isTrue trivial

theorem Ends.mono {P P' : α → σ → Prop} {E E' : ε → σ → Prop} {o : Outcome σ ε α}
    (h : o.Ends P E) (hP : ∀ a s, P a s → P' a s) (hE : ∀ e s, E e s → E' e s) :
    o.Ends P' E' := by
  cases o with
  | ok a s => exact hP a s h
  | error e s => exact hE e s h
  | exhausted => trivial

end Outcome

/-! ## Sessions in other surroundings -/

/-- What lies around the innermost block: the number of slots that were there when it was entered,
the blocks outside it, and the suspended activations. -/
structure OuterScopes where
  base : Nat
  outer : List Block
  suspended : List Activation

/-- The surroundings may stand for those of the session. Code that declares variables can tell which
of the visible ones the innermost block has declared itself. -/
def OuterScopes.Suit (around : OuterScopes) (binds : Bool) (s : Session) : Prop :=
  binds = true → around.base = s.scopes.current.block.base

/-- The session with other surroundings: the same names are visible, bound to the same slots. -/
def Session.amid (s : Session) (around : OuterScopes) : Session :=
  { s with
    scopes :=
      { current :=
          { slots := s.scopes.current.slots
            block := { base := around.base, bindings := s.scopes.current.block.bindings }
            outer := around.outer }
        suspended := around.suspended } }

theorem OuterScopes.Suit.declarable {around : OuterScopes} {s : Session}
    (h : around.Suit true s) (name : String) (ty : Ty) (v : Value) :
    (s.amid around).scopes.declarable s.store name ty v =
      s.scopes.declarable s.store name ty v := by
  simp only [ScopeStack.declarable, ScopeStack.isDeclaredHere, Session.amid, h rfl]
  rfl

def Session.outerScopes (s : Session) : OuterScopes where
  base := s.scopes.current.block.base
  outer := s.scopes.current.outer
  suspended := s.scopes.suspended

theorem Session.Keeps.amid_outerScopes {s s' : Session} {binds : Bool} (h : s.Keeps binds s') :
    s'.amid s.outerScopes = s' := by
  rw [amid, outerScopes, ← h.scopes.base, ← h.scopes.outer, ← h.scopes.suspended]

/-- The session in which the body of a block starts. -/
def Session.entered (s : Session) : Session := { s with scopes := s.scopes.enter }

/-- What lies around a block that is entered in `s` if `around` lies around `s`. -/
def OuterScopes.entered (around : OuterScopes) (s : Session) : OuterScopes where
  base := s.scopes.current.slots.size
  outer := { base := around.base, bindings := s.scopes.current.block.bindings } :: around.outer
  suspended := around.suspended

/-- What lies around the body of a call that is made under these scopes. -/
def OuterScopes.called (scopes : ScopeStack) : OuterScopes where
  base := 0
  outer := []
  suspended := scopes.current :: scopes.suspended

/-- The session in which the body of a call starts. -/
def Session.called (s : Session) (frame : CallFrame) : Session :=
  { s with calls := frame :: s.calls, scopes := s.scopes.enterIsolated }

/-! ## Causes, values and classes -/

/-- A value that names no cell. -/
def Value.isPlain : Value → Bool
  | .array _ | .object _ => false
  | _ => true

/-- The value is somewhere in the session where a program can read it. -/
inductive Session.Stores (s : Session) (v : Value) : Prop where
  | named {name : String} (h : s.scopes.lookup? name = some v)
  | item {id : ArrayId} (h : v ∈ (s.store.arrayCell id).items)
  | field {id : ObjectId} {name : String}
      (h : (s.store.objectCell id).fields.find? name = some v)
  | static {cls : ClassId} {name : String} (h : s.store.staticValue? cls name = some v)

/-- A cause other than the two that do not come from an operation itself: a value thrown by the
program, and a scope that cannot be left. -/
def Cause.isOrdinary : Cause → Bool
  | .scopeUnderflow | .thrown _ => false
  | _ => true

/-- The description comes from a declaration of the program. -/
inductive ClassInfo.Declared (st : Store) : ClassInfo → Prop where
  | ofClass {decl : ClassDecl} {info : ClassInfo} (h : ofDecl st decl = .ok info) :
      Declared st info
  | ofInterface (decl : InterfaceDecl) : Declared st (ofInterface decl)
  | ofEnum {decl : EnumDecl} {info : ClassInfo} (h : ofEnum decl = .ok info) : Declared st info

/-! ## Disciplines and their laws -/

/-- What is required of sessions, and what of the values, faults, classes, fields and methods that
a program meets. -/
structure Discipline where
  Inv : Session → Prop
  Val : Store → Value → Prop
  Err : Store → Cause → Prop
  Cls : Store → ClassId → Prop
  /-- A field of a class, as its description lists it. -/
  Init : Store → ClassId → FieldInfo → Prop
  Meth : Store → MethodInfo → Prop
  /-- An object on which constructors may run. -/
  Built : ObjectId → Prop := fun _ => True
  /-- A class whose code may run on the object. -/
  Receives : Store → ClassId → ObjectId → Prop := fun _ _ _ => True

namespace Discipline

/-- The object was not there yet in a session that observed the discipline. -/
def MadeUnder (D : Discipline) (id : ObjectId) : Prop :=
  ∃ s, D.Inv s ∧ s.store.objects.size ≤ id

/-- Code of the class may be called on the object. -/
def Admits (D : Discipline) (st : Store) (cls : ClassId) (self : ObjectId) : Prop :=
  D.Val st (.object self) ∧ D.Receives st cls self

/-- Every small step of evaluation respects the discipline. -/
structure Laws (D : Discipline) : Prop where
  -- What is known stays known while the store grows.
  val_grows {st st' v} : st.Grows st' → D.Val st v → D.Val st' v
  err_grows {st st' c} : st.Grows st' → D.Err st c → D.Err st' c
  cls_grows {st st' cls} : st.Grows st' → D.Cls st cls → D.Cls st' cls
  init_grows {st st' cls field} : st.Grows st' → D.Init st cls field → D.Init st' cls field
  meth_grows {st st' method} : st.Grows st' → D.Meth st method → D.Meth st' method
  receives_grows {st st' cls id} : st.Grows st' → D.Receives st cls id → D.Receives st' cls id :=
    by intros; trivial
  -- What can be read.
  val_plain {st v} : v.isPlain = true → D.Val st v
  val_stored {s v} : D.Inv s → s.Stores v → D.Val s.store v
  val_self {s scope id} : D.Inv s → s.member? = some scope → scope.self = some id →
    D.Val s.store (.object id)
  cls_named {s name cls} : D.Inv s → s.store.findClass? name = some cls → D.Cls s.store cls
  init_field {s cls field} : D.Inv s → D.Cls s.store cls →
    field ∈ (s.store.classInfo cls).fields.values → D.Init s.store cls field
  init_value {st cls field v} : D.Init st cls field → field.init = .value v → D.Val st v
  meth_found {s cls name method} : D.Inv s →
    (s.store.classInfo cls).methods.find? name = some method → D.Meth s.store method
  -- What can be raised.
  err_ordinary {st c} : c.isOrdinary = true → D.Err st c
  err_thrown {st v} : D.Err st (.thrown v) ↔ D.Val st v
  native {s method run args} (cls : ClassId) : D.Inv s → D.Meth s.store method →
    method.body = .native run → (∀ a ∈ args, D.Val s.store a) →
    (∀ v, Interpreter.callNative cls method run args s.store = .ok v → D.Val s.store v) ∧
      ∀ c, Interpreter.callNative cls method run args s.store = .error c → D.Err s.store c
  -- Scopes and calls.
  enter {s} : D.Inv s → D.Inv s.entered
  exit {s s' scopes} : D.Inv s → s.entered.Keeps true s' → D.Inv s' →
    s'.scopes.exit = .ok scopes → D.Inv { s' with scopes }
  call {s frame} : D.Inv s → s.calls.length < maxCallDepth →
    (∀ scope id, frame.member = some scope → scope.self = some id →
      D.Admits s.store scope.cls id) →
    D.Inv (s.called frame)
  receives_object {s id} : D.Inv s → D.Val s.store (.object id) →
    D.Receives s.store (s.objectClass id) id := by intros; trivial
  receives_self {s scope id} : D.Inv s → s.member? = some scope → scope.self = some id →
    D.Receives s.store scope.cls id := by intros; trivial
  finish {s s' frame scopes} : D.Inv s → (s.called frame).Keeps true s' → D.Inv s' →
    s'.scopes.exit = .ok scopes → D.Inv { s' with scopes, calls := s'.calls.tail }
  declare {s name ty v isConst} : D.Inv s → D.Val s.store v →
    s.scopes.declarable s.store name ty v = .ok () →
    D.Inv { s with scopes := s.scopes.bind name { value := v, ty, isConst } }
  assign {s name v slot} : D.Inv s → D.Val s.store v →
    s.scopes.assignable s.store name v = .ok slot →
    D.Inv { s with scopes := s.scopes.write slot v }
  -- Arrays and objects.
  newArray {s element items} : D.Inv s →
    (∀ v ∈ items, D.Val s.store v ∧ s.store.accepts element v = true) →
    D.Inv { s with store := (s.store.newArray element items).2 } ∧
      D.Val (s.store.newArray element items).2 (s.store.newArray element items).1
  putItem {s target index v id position} : D.Inv s → D.Val s.store v →
    s.store.itemTarget target index v = .ok (id, position) →
    D.Inv { s with store := s.store.putItem id position v }
  newObject {s cls} : D.Inv s → D.Cls s.store cls →
    D.Inv { s with store := (s.store.newObject cls).2 } ∧
      D.Val (s.store.newObject cls).2 (.object (s.store.newObject cls).1)
  built_new {s} : D.Inv s → D.Built s.store.objects.size := by intros; trivial
  initField {s cls field self v} : D.MadeUnder self → D.Inv s → D.Init s.store cls field →
    field.isStatic = false → (s.store.objectCell self).cls = cls → D.Val s.store v →
    s.store.accepts field.ty v = true →
    D.Inv { s with store := s.store.putField self field.name v }
  writeField {s id name v} : D.Inv s → D.Val s.store v → s.checkFieldWrite id name v = .ok () →
    D.Inv { s with store := s.store.putField id name v }
  -- Classes and static fields.
  enroll {s info} : D.Inv s → ClassInfo.Declared s.store info →
    s.store.checkClassName info.name = .ok () →
    D.Inv { s with store := (s.store.enrollClass info).2 } ∧
      D.Cls (s.store.enrollClass info).2 (s.store.enrollClass info).1
  initStatic {s cls info field v} : D.Inv s → D.Init s.store cls field → field.isStatic = true →
    s.store.classes[cls]? = some info → field.owner = info.name →
    D.Val s.store v → s.store.accepts field.ty v = true →
    D.Inv { s with store := s.store.putStatic cls field.name v }
  writeStatic {s cls name v holder} : D.Inv s → D.Val s.store v →
    s.staticTarget cls name v = .ok holder →
    D.Inv { s with store := s.store.putStatic holder name v }
  -- The rest of the session.
  functions {s functions} : D.Inv s → D.Inv { s with functions }
  console {s console} : D.Inv s → D.Inv { s with console }
  included {s included} : D.Inv s → D.Inv { s with included }

namespace Laws

variable {D : Discipline}

theorem admits_grows (L : D.Laws) {st st' : Store} {cls : ClassId} {self : ObjectId}
    (hgrows : st.Grows st') (h : D.Admits st cls self) : D.Admits st' cls self :=
  ⟨L.val_grows hgrows h.1, L.receives_grows hgrows h.2⟩

/-- Code of its own class may be called on an object. -/
theorem admits_object (L : D.Laws) {s : Session} {id : ObjectId} (hs : D.Inv s)
    (h : D.Val s.store (.object id)) : D.Admits s.store (s.objectClass id) id :=
  ⟨h, L.receives_object hs h⟩

end Laws

/-- What is required of the way a statement ends. -/
def Sig (D : Discipline) (st : Store) : Signal → Prop
  | .returned (some v) | .thrown v => D.Val st v
  | _ => True

/-- What is required of a result that was caught. -/
def Caught (D : Discipline) {α : Type} (Q : Store → α → Prop) (st : Store) :
    Except Fault α → Prop
  | .ok a => Q st a
  | .error fault => D.Err st fault.cause

end Discipline

end ClassScript
