import ClassScript.Proofs.Instantiation
import ClassScript.Proofs.Isolation
import ClassScript.Proofs.Typing.Soundness

/-!
# Constants

A variable or a field that is declared `const` gets its value once. Its slot may be seen from many
blocks, and its object may be known under many names, also to code that runs while the object is
still being built; but every write goes by the declaration of the slot or of the field itself. So a
constant keeps its value as long as its slot exists, or for as long as the store does. Of an array
or an object only the identity is meant: its items and its own fields may change.
-/

namespace ClassScript

/-! ## Places of constants -/

/-- Where a constant is kept. -/
inductive ConstantPlace where
  /-- A slot of an activation; the activations are numbered from the bottom of the stack. -/
  | slot (activation number : Nat)
  | field (id : ObjectId) (name : String)

/-- The slot of this number in an activation, if it exists. -/
def ScopeStack.slotAt? (s : ScopeStack) (activation number : Nat) : Option Slot := do
  let a ← (s.current :: s.suspended).reverse[activation]?
  a.slots[number]?

/-- The slot exists, is constant and holds `v`. -/
def ScopeStack.HasConstant (s : ScopeStack) (activation number : Nat) (v : Value) : Prop :=
  ∃ slot, s.slotAt? activation number = some slot ∧ slot.isConst = true ∧ slot.value = v

/-- The class of the object declares the field constant, and the object has it with value `v`. -/
def Store.HasConstant (st : Store) (id : ObjectId) (name : String) (v : Value) : Prop :=
  ∃ cell field, st.objects[id]? = some cell ∧
    (st.classInfo cell.cls).fields.find? name = some field ∧ field.isStatic = false ∧
    field.isConst = true ∧ cell.fields.find? name = some v

/-- The place holds a constant, and the value of the constant is `v`. -/
def Session.HasConstant (s : Session) (place : ConstantPlace) (v : Value) : Prop :=
  match place with
  | .slot activation number => s.scopes.HasConstant activation number v
  | .field id name => s.store.HasConstant id name v

noncomputable instance (place : ConstantPlace) (v : Value) :
    DecidablePred fun s : Session => s.HasConstant place v := Classical.decPred _

/-! ## Slots -/

namespace ScopeStack

variable {a b : ScopeStack} {activation number : Nat} {v : Value}

theorem slotAt?_current (a : ScopeStack) (number : Nat) :
    a.slotAt? a.suspended.length number = a.current.slots[number]? := by
  simp [slotAt?]

theorem slotAt?_suspended (h : activation ≠ a.suspended.length) (number : Nat) :
    a.slotAt? activation number =
      a.suspended.reverse[activation]?.bind fun caller => caller.slots[number]? := by
  rw [slotAt?, List.reverse_cons]
  rcases Nat.lt_or_gt_of_ne h with hlt | hgt
  · rw [List.getElem?_append_left (by simpa using hlt)]
    rfl
  · have hge : (a.suspended.reverse ++ [a.current]).length ≤ activation := by
      rw [List.length_append, List.length_reverse]
      exact hgt
    rw [List.getElem?_eq_none hge, List.getElem?_eq_none (by simpa using Nat.le_of_lt hgt)]
    rfl

namespace HasConstant

/-- Only the slots of the current activation have to be looked at, if the others are the same. -/
theorem of_current (h : a.HasConstant activation number v) (hsuspended : b.suspended = a.suspended)
    (hcurrent : ∀ slot, activation = a.suspended.length →
      a.current.slots[number]? = some slot → slot.isConst = true →
      b.current.slots[number]? = some slot) : b.HasConstant activation number v := by
  obtain ⟨slot, hslot, hconst, hv⟩ := h
  refine ⟨slot, ?_, hconst, hv⟩
  by_cases hact : activation = a.suspended.length
  · subst hact
    rw [slotAt?_current] at hslot
    rw [← hsuspended, slotAt?_current]
    exact hcurrent slot rfl hslot hconst
  · rw [slotAt?_suspended hact] at hslot
    rw [slotAt?_suspended (hsuspended ▸ hact), hsuspended]
    exact hslot

theorem enter (h : a.HasConstant activation number v) : a.enter.HasConstant activation number v :=
  h.of_current rfl fun _ _ hslot _ => hslot

/-- A new activation lies on top of those that there are. -/
theorem enterIsolated (h : a.HasConstant activation number v) :
    a.enterIsolated.HasConstant activation number v := by
  obtain ⟨slot, hslot, hconst, hv⟩ := h
  obtain ⟨frame, hframe, hnumber⟩ := Option.bind_eq_some_iff.mp hslot
  refine ⟨slot, Option.bind_eq_some_iff.mpr ⟨frame, ?_, hnumber⟩, hconst, hv⟩
  obtain ⟨hlt, -⟩ := List.getElem?_eq_some_iff.mp hframe
  rw [List.reverse_cons]
  exact (List.getElem?_append_left hlt).trans hframe

/-- A block that is left takes its own slots with it, and no other. -/
theorem closing (h : a.HasConstant activation number v) (hkeeps : a.enter.Keeps true b)
    (h' : b.HasConstant activation number v) :
    (a.closing b).HasConstant activation number v := by
  refine h'.of_current rfl fun slot hact hslot _ => ?_
  obtain ⟨old, hold, -, -⟩ := h
  have hsuspended : b.suspended = a.suspended := hkeeps.suspended
  rw [hact, hsuspended, slotAt?_current] at hold
  obtain ⟨hlt, -⟩ := Array.getElem?_eq_some_iff.mp hold
  rw [ScopeStack.closing, ← Array.getElem?_toList, Array.toList_shrink,
    List.getElem?_take_of_lt hlt, Array.getElem?_toList]
  exact hslot

theorem bind (h : a.HasConstant activation number v) (name : String) (slot : Slot) :
    (a.bind name slot).HasConstant activation number v := by
  refine h.of_current rfl fun old _ hold _ => ?_
  obtain ⟨hlt, -⟩ := Array.getElem?_eq_some_iff.mp hold
  rw [ScopeStack.bind, Array.getElem?_push, if_neg (Nat.ne_of_lt hlt)]
  exact hold

/-- A write goes to another slot if it goes to one that is not constant. -/
theorem write (h : a.HasConstant activation number v) {id : Nat} {slot : Slot}
    (hid : a.current.slots[id]? = some slot) (hvariable : slot.isConst = false) (w : Value) :
    (a.write id w).HasConstant activation number v := by
  refine h.of_current rfl fun old _ hold hconst => ?_
  have hne : id ≠ number := by
    rintro rfl
    obtain rfl := Option.some.inj (hid.symm.trans hold)
    rw [hvariable] at hconst
    cases hconst
  rw [ScopeStack.write, Array.getElem?_modify, if_neg hne]
  exact hold

/-- A name that is bound to the slot of a constant reads its value. -/
theorem lookup? (h : a.HasConstant a.suspended.length number v) {name : String}
    (hname : a.slotOf? name = some number) : a.lookup? name = some v := by
  obtain ⟨slot, hslot, -, hv⟩ := h
  rw [slotAt?_current] at hslot
  rw [ScopeStack.lookup?, hname]
  change (a.current.slots[number]?).map Slot.value = some v
  rw [hslot, ← hv]
  rfl

end HasConstant

end ScopeStack

/-! ## Fields -/

namespace Store.HasConstant

variable {st st' : Store} {id : ObjectId} {name : String} {v : Value}

theorem lt (h : st.HasConstant id name v) : id < st.objects.size := by
  obtain ⟨cell, field, hcell, -⟩ := h
  exact (Array.getElem?_eq_some_iff.mp hcell).1

/-- A class that has a field is in the store. -/
theorem class_lt {cls : ClassId} {field : FieldInfo}
    (hfind : (st.classInfo cls).fields.find? name = some field) : cls < st.classes.size := by
  by_contra hge
  rw [classInfo_of_le (Nat.le_of_not_lt hge)] at hfind
  cases hfind

/-- A field of an object belongs to its class for good, so only the object has to be looked at. -/
theorem grows (h : st.HasConstant id name v) (hgrows : st.Grows st')
    (hfields : (st'.objectCell id).fields.find? name = (st.objectCell id).fields.find? name) :
    st'.HasConstant id name v := by
  obtain ⟨cell, field, hcell, hfind, hstatic, hconst, hv⟩ := h
  obtain ⟨cell', hcell', hcls⟩ := hgrows.objects id cell hcell
  rw [objectCell, objectCell, hcell, hcell'] at hfields
  refine ⟨cell', field, hcell', ?_, hstatic, hconst, hfields.trans hv⟩
  rw [hcls, hgrows.fields (class_lt hfind)]
  exact hfind

/-- A constant field has the value that was written. -/
theorem of_putField {cls : ClassId} (hclass : st.HasClass id cls) {field : FieldInfo}
    (hfind : (st.classInfo cls).fields.find? name = some field) (hstatic : field.isStatic = false)
    (hconst : field.isConst = true) (v : Value) :
    (st.putField id name v).HasConstant id name v := by
  obtain ⟨cell, hcell, rfl⟩ := hclass
  refine ⟨{ cell with fields := cell.fields.insert name v }, field, ?_, hfind, hstatic, hconst, ?_⟩
  · rw [Store.putField, Array.getElem?_modify, if_pos rfl, hcell]
    rfl
  · exact (Table.find?_insert _ _ _ _).trans (if_pos rfl)

/-- A write to another object or to another field. -/
theorem putField (h : st.HasConstant id name v) {other : ObjectId} {member : String}
    (hne : ConstantPlace.field id name ≠ .field other member) (w : Value) :
    (st.putField other member w).HasConstant id name v := by
  refine h.grows (st.grows_putField other member w) ?_
  rw [objectCell, objectCell, Store.putField, Array.getElem?_modify]
  split
  · next heq =>
      subst heq
      have hname : name ≠ member := fun hname => hne (hname ▸ rfl)
      cases st.objects[other]? with
      | none => rfl
      | some cell => exact (Table.find?_insert _ _ _ _).trans (if_neg hname)
  · rfl

theorem newObject (h : st.HasConstant id name v) (cls : ClassId) :
    (st.newObject cls).2.HasConstant id name v := by
  refine h.grows (st.grows_newObject cls) ?_
  rw [objectCell, objectCell, Store.newObject, Array.getElem?_push, if_neg (Nat.ne_of_lt h.lt)]

/-- A field that may be assigned is not constant. -/
theorem ne_of_checkFieldWrite {s : Session} (h : s.store.HasConstant id name v)
    {other : ObjectId} {member : String} {w : Value}
    (hcheck : s.checkFieldWrite other member w = .ok ()) :
    ConstantPlace.field id name ≠ .field other member := by
  rintro ⟨⟩
  obtain ⟨cell, field, hcell, hfind, hstatic, hconst, -⟩ := h
  have hfound : s.findField (s.objectClass id) name = .ok field := by
    rw [Session.findField, Session.objectClass, objectCell, hcell]
    exact hfind ▸ rfl
  rw [Session.checkFieldWrite, Session.instanceField, hfound] at hcheck
  cases haccess : s.checkAccess (s.objectClass id) name field.access field.owner <;>
    simp [bind, Except.bind, hstatic, haccess, Session.checkWrite, hconst] at hcheck

end Store.HasConstant

/-! ## The discipline of a constant -/

namespace Discipline

/-- The place holds the constant `v`. -/
def constant (place : ConstantPlace) (v : Value) : Discipline :=
  { free with Inv := fun s => s.HasConstant place v }

end Discipline

namespace Session.HasConstant

variable {s s' : Session} {place : ConstantPlace} {v : Value}

/-- Slots and objects stay as they are. -/
theorem congr (h : s.HasConstant place v) (hscopes : s'.scopes = s.scopes)
    (hgrows : s.store.Grows s'.store) (hobjects : s'.store.objects = s.store.objects) :
    s'.HasConstant place v := by
  cases place with
  | slot activation number =>
      change s'.scopes.HasConstant activation number v
      exact hscopes.symm ▸ h
  | field id name =>
      refine Store.HasConstant.grows h hgrows ?_
      rw [Store.objectCell, Store.objectCell, hobjects]

/-- The objects stay as they are, and so do the slots of constants. -/
theorem withScopes (h : s.HasConstant place v) {scopes : ScopeStack}
    (hscopes : ∀ activation number, s.scopes.HasConstant activation number v →
      scopes.HasConstant activation number v) {calls : List CallFrame} :
    Session.HasConstant { s with scopes, calls } place v := by
  cases place with
  | slot activation number => exact hscopes activation number h
  | field id name => exact h

/-- A first value, or another one, for a field that is not this place. -/
theorem putField (h : s.HasConstant place v) {id : ObjectId} {name : String}
    (hne : place ≠ .field id name) (w : Value) :
    Session.HasConstant { s with store := s.store.putField id name w } place v := by
  cases place with
  | slot activation number => exact h
  | field other member => exact Store.HasConstant.putField h hne w

end Session.HasConstant

namespace Discipline

theorem constant_laws (place : ConstantPlace) (v : Value) : (constant place v).Laws where
  __ := free_laws
  val_stored _ _ := trivial
  val_self _ _ _ := trivial
  cls_named _ _ := trivial
  init_field _ _ _ := trivial
  meth_found _ _ := False.elim
  native {s _ _ _} cls _ := free_laws.native cls (free_inv s)
  enter hs := hs.withScopes fun _ _ h => h.enter
  exit {s s' scopes} hs hk hs' hexit := by
    obtain rfl : s.scopes.closing s'.scopes = scopes :=
      Except.ok.inj (hk.scopes.exit_enter.1.symm.trans hexit)
    cases place with
    | slot activation number => exact ScopeStack.HasConstant.closing hs hk.scopes hs'
    | field id name => exact hs'
  call hs _ _ := hs.withScopes fun _ _ h => h.enterIsolated
  finish {s s' _ scopes} hs hk hs' hexit := by
    obtain rfl : s.scopes = scopes :=
      Except.ok.inj (hk.scopes.exit_enterIsolated.symm.trans hexit)
    cases place with
    | slot activation number => exact hs
    | field id name => exact hs'
  declare hs _ _ := hs.withScopes fun _ _ h => h.bind _ _
  assign {s name w slot} hs _ hok := by
    obtain ⟨old, hold, hvariable, -⟩ := (s.scopes.assignable_answers _ _ _).of_ok hok
    exact hs.withScopes fun _ _ h => h.write hold hvariable w
  newArray {s _ _} hs _ := ⟨hs.congr rfl (s.store.grows_newArray _ _) rfl, trivial⟩
  putItem {s _ _ _ _ _} hs _ _ := hs.congr rfl (s.store.grows_putItem _ _ _) rfl
  newObject {s cls} hs _ := by
    cases place with
    | slot activation number => exact ⟨hs, trivial⟩
    | field id name => exact ⟨Store.HasConstant.newObject hs cls, trivial⟩
  built_new _ := trivial
  receives_object _ _ := trivial
  receives_self _ _ _ := trivial
  -- The object is newer than the constant.
  initField {_ _ field self w} hmade hs _ _ _ _ _ := by
    obtain ⟨s₀, hs₀, hle⟩ := hmade
    refine hs.putField ?_ w
    rintro rfl
    exact Nat.not_lt_of_le hle (Store.HasConstant.lt hs₀)
  writeField {_ id name w} hs _ hok := by
    refine hs.putField ?_ w
    rintro rfl
    exact Store.HasConstant.ne_of_checkFieldWrite hs hok rfl
  enroll {s info} hs _ _ := ⟨hs.congr rfl (s.store.grows_enrollClass info) rfl, trivial⟩
  initStatic {s _ _ _ _} hs _ _ _ _ _ _ := hs.congr rfl (s.store.grows_putStatic _ _ _) rfl
  writeStatic {s _ _ _ _} hs _ _ := hs.congr rfl (s.store.grows_putStatic _ _ _) rfl
  functions hs := hs
  console hs := hs
  included hs := hs

end Discipline

/-! ## How constants come about -/

namespace Interpreter

variable {fuel : Nat} {run run' : Interpreter} {s s' : Session} {place : ConstantPlace} {v : Value}

/-- A declaration that succeeds puts the declared value into a new slot and binds the name to it. -/
theorem execDeclaration_constant {decl : VariableDecl} (hconst : decl.isConst = true)
    (h : (interpreter fuel).execDeclaration decl s = .ok () s') :
    ∃ v s₁, (interpreter fuel).declaredValue decl s = .ok v s₁ ∧
      s'.HasConstant (.slot s.scopes.suspended.length s.scopes.current.slots.size) v ∧
      s'.scopes.suspended = s.scopes.suspended ∧
      s'.scopes.slotOf? decl.name = some s.scopes.current.slots.size := by
  obtain ⟨v, s₁, hvalue, hdeclare⟩ := Action.ok_of_bind h
  obtain ⟨_, s₂, hask, hbind⟩ := Action.ok_of_bind hdeclare
  obtain ⟨rfl, -⟩ := Eval.ok_of_ask hask
  cases hbind
  have L := Discipline.free_laws
  obtain ⟨hkept, -⟩ := (L.declaredValue_conforms (L.interpreter_runs fuel)
    (Discipline.free_inv s) decl).of_ok hvalue
  have hsize := hkept.scopes.size rfl
  have hsuspended := hkept.scopes.suspended
  refine ⟨v, s₂, hvalue, ?_, hsuspended, ?_⟩
  · rw [← hsize, ← hsuspended]
    let slot : Slot := { value := v, ty := decl.ty, isConst := decl.isConst }
    refine ⟨slot, ?_, hconst, rfl⟩
    refine (ScopeStack.slotAt?_current (s₂.scopes.bind decl.name slot) _).trans ?_
    exact Array.getElem?_push_size
  · rw [← hsize]
    exact (Table.find?_insert _ _ _ _).trans (if_pos rfl)

/-- The place of a constant is not among the fields that get their first values. -/
theorem initializeFields_constant (hrun : (Discipline.constant place v).Runs run run')
    (hs : s.HasConstant place v) {cls : ClassId} {self : ObjectId} (line : Nat)
    {fields : List FieldInfo} (hclass : s.store.HasClass self cls)
    (hfields : ∀ field ∈ fields, place ≠ .field self field.name) :
    (Discipline.constant place v).Conforms false s (run.initializeFields cls self line fields)
      (run'.initializeFields cls self line fields) fun _ _ => True :=
  (Discipline.constant_laws place v).initializeFields_conforms_of hrun hs line fields hclass trivial
    fun field hfield => ⟨trivial, fun hs _ _ _ _ => hs.putField (hfields field hfield) _⟩

/-- A constant field has the value of its initializer from the moment when this is written. -/
theorem initializeFields_initialized {cls : ClassId} {self : ObjectId} {line : Nat}
    {before after : List FieldInfo} {field : FieldInfo} (hclass : s.store.HasClass self cls)
    (hfind : (s.store.classInfo cls).fields.find? field.name = some field)
    (hstatic : field.isStatic = false) (hconst : field.isConst = true)
    (hafter : field.name ∉ after.map FieldInfo.name)
    (h : (interpreter fuel).initializeFields cls self line (before ++ field :: after) s =
      .ok () s') :
    ∃ s₁ w s₂ s₃, (interpreter fuel).fieldValue field
        { cls, owner := field.owner, self := some self } line s₁ = .ok w s₂ ∧
      s₃.HasConstant (.field self field.name) w ∧
      (interpreter fuel).initializeFields cls self line after s₃ = .ok () s' ∧
      s'.HasConstant (.field self field.name) w := by
  have L := Discipline.free_laws
  have hrun := L.interpreter_runs fuel
  obtain ⟨s₁, w, s₂, hbefore, hvalue, hrest⟩ := initializeFields_split h
  obtain ⟨hk₁, -⟩ := (L.initializeFields_conforms_of hrun (Discipline.free_inv s) line before hclass
    trivial fun _ _ => ⟨trivial, fun _ _ _ _ _ => Discipline.free_inv _⟩).of_ok hbefore
  obtain ⟨hk₂, -⟩ := (L.fieldValue_conforms hrun (Discipline.free_inv s₁) (fun _ _ => trivial) _
    line fun _ _ => ⟨trivial, trivial⟩).of_ok hvalue
  have hgrows := hk₁.store.trans hk₂.store
  have hclass₂ := hclass.grows hgrows
  have hfind₂ : (s₂.store.classInfo cls).fields.find? field.name = some field := by
    rw [hgrows.fields (Store.HasConstant.class_lt hfind)]
    exact hfind
  let s₃ : Session := { s₂ with store := s₂.store.putField self field.name w }
  have hwritten : s₃.HasConstant (.field self field.name) w :=
    Store.HasConstant.of_putField hclass₂ hfind₂ hstatic hconst w
  have hclass₃ : s₃.store.HasClass self cls := hclass₂.grows (s₂.store.grows_putField _ _ _)
  have hkept := initializeFields_constant
    ((Discipline.constant_laws (.field self field.name) w).interpreter_runs fuel) hwritten line
    hclass₃ fun other hother heq => hafter (by
      rw [(ConstantPlace.field.inj heq).2]
      exact List.mem_map_of_mem hother)
  exact ⟨s₁, w, s₂, s₃, hvalue, hwritten, hrest, (hkept.of_ok hrest).2.1⟩

/-- The names of the fields that an object is given are different. -/
theorem instanceFields_nodup {st : Store} (hst : st.Sound) (cls : ClassId) :
    ((instanceFields (st.classInfo cls)).map FieldInfo.name).Nodup := by
  have hclass := hst.classInfo cls
  have hnames : (st.classInfo cls).fields.values.map FieldInfo.name =
      (st.classInfo cls).fields.names := by
    rw [Table.values, Table.names, List.map_map]
    refine List.map_congr_left fun entry hentry => ?_
    exact hclass.named _ _ (hclass.keyed.find?_of_mem hentry)
  refine List.Nodup.sublist (List.Sublist.map _ List.filter_sublist) ?_
  rw [hnames]
  exact hclass.keyed

/-- Each constant field of a new object has the value that its initializer gave. -/
theorem new_constant (hs : s.Sound) {className : String} {arguments : List Expr} {line : Nat}
    (h : (interpreter fuel).new className arguments line s = .ok v s') :
    ∃ cls id, s.store.findClass? className = some cls ∧ v = .object id ∧
      ∀ name field, (s.store.classInfo cls).fields.find? name = some field →
        field.isStatic = false → field.isConst = true →
        ∃ s₁ w s₂, (interpreter fuel).fieldValue field
            { cls, owner := field.owner, self := some id } line s₁ = .ok w s₂ ∧
          s'.HasConstant (.field id name) w := by
  have L := Discipline.typing_laws
  obtain ⟨cls, args, s₁, s₂, rfl, stages⟩ := new_stages h
  refine ⟨cls, _, stages.named, rfl, fun name field hfind hstatic hconst => ?_⟩
  obtain ⟨hk₁, hs₁, -⟩ :=
    (L.evalAll_conforms (L.interpreter_runs fuel) hs arguments).of_ok stages.evaluated
  obtain rfl := (hs.store.classInfo cls).named name field hfind
  rw [← hk₁.store.fields (Store.HasConstant.class_lt hfind)] at hfind
  have hmem := (hs₁.store.classInfo cls).mem_instanceFields.mpr ⟨hfind, hstatic⟩
  obtain ⟨before, after, hsplit⟩ := List.append_of_mem hmem
  have hnodup := instanceFields_nodup hs₁.store cls
  rw [hsplit, List.map_append, List.map_cons] at hnodup
  have hafter := (List.nodup_cons.mp (List.nodup_append.mp hnodup).2.1).1
  have hinitialized := stages.initialized
  rw [hsplit] at hinitialized
  obtain ⟨s₃, w, s₄, s₅, hvalue, -, -, hheld⟩ := initializeFields_initialized
    (s := s₁.made cls) (.newObject _ cls) hfind hstatic hconst hafter hinitialized
  refine ⟨s₃, w, s₄, hvalue, ?_⟩
  cases hconstructor : (s₂.store.classInfo cls).constructor with
  | none =>
      rw [stages.unconstructed hconstructor]
      exact hheld
  | some constructor =>
      have L' := Discipline.constant_laws (.field s₁.store.objects.size field.name) w
      exact (((L'.interpreter_runs fuel).construct hheld _ trivial ⟨trivial, trivial⟩
        fun _ _ => trivial).of_ok (stages.constructed constructor hconstructor)).2.1

end Interpreter

/-! ## Constants are constant -/

/-- Code that may run while a constant is there: an expression, a statement or a program, what is
left of a block, of a program or of a loop, a constructor, and the initializers of other fields. -/
inductive Interpreter.Continuation (s : Session) (place : ConstantPlace) :
    (α : Type) → (Interpreter → Eval α) → Prop where
  | expression (e : Expr) (expected : Option Ty) :
      Continuation s place Value fun run => run.eval e expected
  | statement (statement : Statement) : Continuation s place Signal fun run => run.exec statement
  | program (program : Program) : Continuation s place Unit fun run => run.execProgram program
  | restOfBlock (rest : List Statement) : Continuation s place Signal fun run => run.execAll rest
  | restOfProgram (rest : Program) :
      Continuation s place Unit fun run => forEach run.execTopLevel rest
  | restOfLoop (condition step : Option Expr) (body : Statement) (line rounds : Nat) :
      Continuation s place Signal fun run =>
        iterate (run.optionalCondition condition line) (run.execBody body) (run.optionalStep step)
          rounds
  | constructor (c : Construction) : Continuation s place Unit fun run => run.construct c
  | restOfFields {cls : ClassId} {self : ObjectId} (line : Nat) {rest : List FieldInfo}
      (hclass : s.store.HasClass self cls)
      (hrest : ∀ field ∈ rest, place ≠ .field self field.name) :
      Continuation s place Unit fun run => run.initializeFields cls self line rest

/-- The code leaves the constant where it is with its value, however it ends; and the constant is
there whenever a part of the code is run, so what any `other` interpreter would do elsewhere makes
no difference. -/
structure KeepsConstant {α : Type} (fuel : Nat) (s : Session) (place : ConstantPlace) (v : Value)
    (code : Interpreter → Eval α) : Prop where
  left : (code (interpreter fuel) s).Leaves fun s' => s'.HasConstant place v
  throughout : ∀ other, code (interpreterWithin (fun s' => s'.HasConstant place v) other fuel) s =
    code (interpreter fuel) s

theorem Interpreter.Continuation.keepsConstant {s : Session} {place : ConstantPlace} {v : Value}
    (hs : s.HasConstant place v) (fuel : Nat) {α : Type} {code : Interpreter → Eval α}
    (h : Continuation s place α code) : KeepsConstant fuel s place v code := by
  have L := Discipline.constant_laws place v
  have hconforms {run run' : Interpreter} (hrun : (Discipline.constant place v).Runs run run') :
      ∃ binds Q, (Discipline.constant place v).Conforms binds s (code run) (code run') Q := by
    cases h with
    | expression e expected => exact ⟨_, _, hrun.eval hs e expected⟩
    | statement statement => exact ⟨_, _, hrun.exec hs statement⟩
    | program program => exact ⟨_, _, L.execProgram_conforms hrun hs program⟩
    | restOfBlock rest => exact ⟨_, _, Discipline.Laws.execAll_conforms hrun hs rest⟩
    | restOfProgram rest =>
        exact ⟨true, _, Discipline.Laws.forEach_conforms hs rest fun statement _ _ hs =>
          (L.execTopLevel_conforms hrun hs statement).toBinding⟩
    | restOfLoop condition step body line rounds =>
        exact ⟨_, _, Discipline.Laws.iterate_conforms hs
          (fun hs => L.optionalCondition_conforms hrun hs condition line)
          (fun hs => L.execBody_conforms hrun hs body)
          (fun hs => Discipline.Laws.optionalStep_conforms hrun hs step) rounds⟩
    | constructor c =>
        exact ⟨_, _, hrun.construct hs c trivial ⟨trivial, trivial⟩ fun _ _ => trivial⟩
    | restOfFields line hclass hrest =>
        exact ⟨_, _, initializeFields_constant hrun hs line hclass hrest⟩
  obtain ⟨_, _, hcode⟩ := hconforms (L.interpreter_runs fuel)
  refine ⟨hcode.leaves, fun other => ?_⟩
  obtain ⟨_, _, hwithin⟩ := hconforms (L.interpreterWithin_runs
    (P := fun s' => s'.HasConstant place v) (fun _ hs => hs) other fuel)
  exact hwithin.eq.symm

/-- A constant keeps its value. A declaration that succeeds puts the declared value of a constant
variable into a new slot and binds the name to it; an object that is given its fields has each
constant one with the value of its initializer from the moment when this is written, and so each
constant field of a new object. From then on no code changes it, whatever it does and however it
ends, and it has this value whenever a part of that code is run. -/
theorem constants_kept (fuel : Nat) :
    (∀ (s : Session) (place : ConstantPlace) (v : Value), s.HasConstant place v →
      ∀ (α : Type) (code : Interpreter → Eval α), Interpreter.Continuation s place α code →
        KeepsConstant fuel s place v code) ∧
    (∀ decl s signal s', decl.isConst = true →
      execute (fuel + 1) (.declare decl) s = .ok signal s' →
      ∃ v s₁, (interpreter fuel).declaredValue decl s = .ok v s₁ ∧
        s'.HasConstant (.slot s.scopes.suspended.length s.scopes.current.slots.size) v ∧
        s'.scopes.slotOf? decl.name = some s.scopes.current.slots.size ∧
        s'.scopes.lookup? decl.name = some v) ∧
    (∀ (s s' : Session) (cls : ClassId) (self : ObjectId) (line : Nat)
      (before after : List FieldInfo) (field : FieldInfo), s.store.HasClass self cls →
      (s.store.classInfo cls).fields.find? field.name = some field → field.isStatic = false →
      field.isConst = true → field.name ∉ after.map FieldInfo.name →
      (interpreter fuel).initializeFields cls self line (before ++ field :: after) s = .ok () s' →
      ∃ s₁ w s₂ s₃, (interpreter fuel).fieldValue field
          { cls, owner := field.owner, self := some self } line s₁ = .ok w s₂ ∧
        s₃.HasConstant (.field self field.name) w ∧
        (interpreter fuel).initializeFields cls self line after s₃ = .ok () s' ∧
        s'.HasConstant (.field self field.name) w) ∧
    ∀ (s : Session) className arguments line expected v s', s.Sound →
      evaluate (fuel + 1) (.new className arguments line) expected s = .ok v s' →
      ∃ cls id, s.store.findClass? className = some cls ∧ v = .object id ∧
        ∀ name field, (s.store.classInfo cls).fields.find? name = some field →
          field.isStatic = false → field.isConst = true →
          ∃ s₁ w s₂, (interpreter fuel).fieldValue field
              { cls, owner := field.owner, self := some id } line s₁ = .ok w s₂ ∧
            s'.HasConstant (.field id name) w := by
  refine ⟨fun s place v hs α code hcode => hcode.keepsConstant hs fuel, ?_, ?_, ?_⟩
  · intro decl s signal s' hconst h
    obtain ⟨_, s₁, hdeclaration, hnormal⟩ := Action.ok_of_bind h
    cases hnormal
    obtain ⟨v, s₂, hvalue, hheld, hsuspended, hname⟩ :=
      Interpreter.execDeclaration_constant hconst hdeclaration
    refine ⟨v, s₂, hvalue, hheld, hname, ?_⟩
    refine ScopeStack.HasConstant.lookup? ?_ hname
    exact hsuspended.symm ▸ hheld
  · intro s s' cls self line before after field hclass hfind hstatic hconst hafter h
    exact Interpreter.initializeFields_initialized hclass hfind hstatic hconst hafter h
  · intro s className arguments line expected v s' hs h
    exact Interpreter.new_constant hs h

/-- The constructor of a class, and later the top level, try to assign to a constant field. -/
theorem constants_kept_field :
    let a : FieldDecl :=
      { decl := { name := "a", ty := .int, length := none,
                  initializer := some (.literal (.int 1) 1), isConst := true, line := 1 }
        access := .everyone, isStatic := false, accessors := { getter := false, setter := false } }
    let attempt (object : Expr) : Statement :=
      .tryCatch [.expression (.assign (.member object "a") (.literal (.int 2) 2) 2) 2]
        [{ name := "e", ty := none, body := [], line := 3 }] none 2
    let constructor : ConstructorDecl :=
      { params := [], parentArguments := none, body := [attempt (.self 2)], access := .everyone,
        line := 2 }
    let decl : ClassDecl :=
      { name := "C", isStatic := false, supertypes := [], methods := [],
        constructor := some constructor, fields := [a], line := 1 }
    let c : VariableDecl :=
      { name := "c", ty := .named "C", length := none, initializer := some (.new "C" [] 4),
        isConst := true, line := 4 }
    let s := Session.start (fun _ => .error .unknownModule) []
    ∃ s₁ v s₂ id w, runProgram 9 [.classType decl] s = .ok () s₁ ∧
      evaluate 9 (.new "C" [] 4) none s₁ = .ok v s₂ ∧ v = .object id ∧
      s₂.HasConstant (.field id "a") w ∧
      KeepsConstant 8 s₂ (.field id "a") w fun run =>
        run.execAll [.declare c, attempt (.var "c" 5)] := by
  intro a attempt constructor decl c s
  have hok : ((runProgram 9 [.classType decl] >>= fun _ => evaluate 9 (.new "C" [] 4) none)
      s).isOk = true := by decide +kernel
  have hdeclares : (runProgram 9 [.classType decl] s).Ends
      (fun _ s₁ => (s₁.store.findClass? "C").any (fun cls =>
        ((s₁.store.classInfo cls).fields.find? "a").any fun field =>
          field.isConst && !field.isStatic) = true) fun _ _ => True := by
    decide +kernel
  obtain ⟨v, s₂, hrun⟩ := Outcome.exists_of_isOk hok
  obtain ⟨_, s₁, hprogram, hnew⟩ := Action.ok_of_bind hrun
  have hreachable : s.Reachable := .fresh rfl rfl Store.sound_empty
  obtain ⟨hkept, -, -, hmade⟩ := constants_kept 8
  obtain ⟨cls, id, hnamed, hv, hfields⟩ :=
    hmade s₁ "C" [] 4 none v s₂ (hreachable.finished hprogram).sound hnew
  rw [hprogram, Outcome.Ends, hnamed, Option.any_some] at hdeclares
  obtain ⟨field, hfind, hflags⟩ := (Option.any_eq_true _ _).mp hdeclares
  rw [Bool.and_eq_true, Bool.not_eq_true'] at hflags
  obtain ⟨_, w, _, -, hheld⟩ := hfields "a" field hfind hflags.2 hflags.1
  exact ⟨s₁, v, s₂, id, w, hprogram, hnew, hv, hheld,
    hkept s₂ _ w hheld Signal _ (.restOfBlock [.declare c, attempt (.var "c" 5)])⟩

end ClassScript
