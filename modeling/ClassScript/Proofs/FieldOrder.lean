import Mathlib.Data.List.Perm.Subperm
import ClassScript.Proofs.Constants
import ClassScript.Proofs.Locations
import ClassScript.Proofs.Shapes

/-!
# The order of an object's fields

The fields of a new object are given their values in the order of the class's table, but a field
takes its place with the first value that is written to it, and the initializers before its own may
run code that writes to it. So the order is that of the first writes. It is the order of the table
exactly if no initializer writes to a field before the turn of another one, and once the object is
made the order stays as it is.
-/

namespace ClassScript

/-- The names of the fields that an instance of the class is given, in the order of its table. -/
def ClassInfo.instanceNames (info : ClassInfo) : List String :=
  (Interpreter.instanceFields info).map FieldInfo.name

/-- The names of the object's fields, in the order in which it keeps them. -/
def Store.fieldOrder (st : Store) (id : ObjectId) : List String := (st.objectCell id).fields.names

/-! ## Orders of names -/

/-- If all names but the last come in their order, the last has its place or takes it. -/
theorem order_of_prefix {names before : List String} {last : String}
    (hnodup : (before ++ [last]).Nodup) (hstart : names <+: before ++ [last])
    (hbefore : before ⊆ names) :
    (if last ∈ names then names else names ++ [last]) = before ++ [last] := by
  obtain ⟨hdistinct, -, hnew⟩ := List.nodup_append.mp hnodup
  rcases List.prefix_concat_iff.mp hstart with rfl | hshort
  · exact if_pos (List.mem_append_right _ List.mem_cons_self)
  · have hlength := (List.subperm_of_subset hdistinct hbefore).length_le
    obtain rfl := hshort.eq_of_length_le hlength
    exact if_neg fun hmem => hnew _ hmem _ List.mem_cons_self rfl

namespace Store

variable {st : Store} {id : ObjectId} {cls : ClassId}

/-- A field without a value takes the last place. -/
theorem HasClass.fieldOrder_putField (h : st.HasClass id cls) (name : String) (v : Value) :
    (st.putField id name v).fieldOrder id =
      if name ∈ st.fieldOrder id then st.fieldOrder id else st.fieldOrder id ++ [name] := by
  rw [fieldOrder, objectCell_putField st h.holds, if_pos rfl]
  exact Table.names_insert _ name v

theorem fieldOrder_newObject (st : Store) (cls : ClassId) :
    (st.newObject cls).2.fieldOrder st.objects.size = [] := by
  simp [fieldOrder, objectCell, newObject, Table.names, Table.empty]

/-- The names of the instance fields are those of the fields that are not static. -/
theorem ClassSound.mem_instanceNames {info : ClassInfo} (h : st.ClassSound info) {name : String} :
    name ∈ info.instanceNames ↔ info.HasInstanceField name := by
  constructor
  · intro hname
    obtain ⟨field, hfield, rfl⟩ := List.mem_map.mp hname
    exact ⟨field, h.mem_instanceFields.mp hfield⟩
  · rintro ⟨field, hfind, hstatic⟩
    obtain rfl := h.named name field hfind
    exact List.mem_map_of_mem (h.mem_instanceFields.mpr ⟨hfind, hstatic⟩)

/-! ## No name stands twice -/

/-- No field of the object is listed twice. -/
def Keyed (id : ObjectId) (st : Store) : Prop := (st.fieldOrder id).Nodup

theorem Keyed.newObject (h : st.Keyed id) (cls : ClassId) : (st.newObject cls).2.Keyed id := by
  rcases eq_or_ne id st.objects.size with rfl | hne
  · rw [Keyed, fieldOrder_newObject]
    exact List.nodup_nil
  · have hcell : (st.newObject cls).2.objectCell id = st.objectCell id := by
      simp [objectCell, Store.newObject, Array.getElem?_push, hne]
    rw [Keyed, fieldOrder, hcell]
    exact h

theorem Keyed.putField (h : st.Keyed id) (other : ObjectId) (name : String) (v : Value) :
    (st.putField other name v).Keyed id := by
  have hcell : (st.putField other name v).objects[id]? = if other = id then
      st.objects[id]?.map fun cell => { cell with fields := cell.fields.insert name v }
      else st.objects[id]? := Array.getElem?_modify
  rw [Keyed, fieldOrder, objectCell] at h ⊢
  rw [hcell]
  split
  next =>
      cases hid : st.objects[id]? with
      | none => exact List.nodup_nil
      | some cell =>
          rw [hid] at h
          exact Table.WellKeyed.insert h name v
  next => exact h

end Store

namespace Discipline

/-- Shapes are kept from `s₀` on, and no field of the object is listed twice. -/
def keyed (s₀ : Session) (id : ObjectId) : Discipline :=
  { shapes s₀ with Inv s := s₀.KeepsShapes s ∧ s.store.Keyed id }

theorem keyed_laws (s₀ : Session) (id : ObjectId) : (keyed s₀ id).Laws where
  __ := shapes_laws s₀
  val_stored hs := (shapes_laws s₀).val_stored hs.1
  val_self hs := (shapes_laws s₀).val_self hs.1
  cls_named hs := (shapes_laws s₀).cls_named hs.1
  init_field hs := (shapes_laws s₀).init_field hs.1
  meth_found hs := (shapes_laws s₀).meth_found hs.1
  native cls hs := (shapes_laws s₀).native cls hs.1
  enter hs := ⟨(shapes_laws s₀).enter hs.1, hs.2⟩
  exit hs hk hs' hexit := ⟨(shapes_laws s₀).exit hs.1 hk hs'.1 hexit, hs'.2⟩
  call hs hlt hself := ⟨(shapes_laws s₀).call hs.1 hlt hself, hs.2⟩
  finish hs hk hs' hexit := ⟨(shapes_laws s₀).finish hs.1 hk hs'.1 hexit, hs'.2⟩
  declare hs hv hok := ⟨(shapes_laws s₀).declare hs.1 hv hok, hs.2⟩
  assign hs hv hok := ⟨(shapes_laws s₀).assign hs.1 hv hok, hs.2⟩
  newArray hs hitems := by
    have h := (shapes_laws s₀).newArray hs.1 hitems
    exact ⟨⟨h.1, hs.2⟩, h.2⟩
  putItem hs hv hok := ⟨(shapes_laws s₀).putItem hs.1 hv hok, hs.2⟩
  newObject hs hcls := by
    have h := (shapes_laws s₀).newObject hs.1 hcls
    exact ⟨⟨h.1, hs.2.newObject _⟩, h.2⟩
  built_new _ := trivial
  receives_object _ _ := trivial
  receives_self _ _ _ := trivial
  initField hmade hs hinit hstatic hself hv haccepts :=
    ⟨(shapes_laws s₀).initField (hmade.imp fun _ h => ⟨h.1.1, h.2⟩) hs.1 hinit hstatic hself hv
        haccepts,
      hs.2.putField _ _ _⟩
  writeField hs hv hok := ⟨(shapes_laws s₀).writeField hs.1 hv hok, hs.2.putField _ _ _⟩
  enroll hs hinfo hname := by
    have h := (shapes_laws s₀).enroll hs.1 hinfo hname
    exact ⟨⟨h.1, hs.2⟩, h.2⟩
  initStatic hs hinit hstatic hinfo howner hv haccepts :=
    ⟨(shapes_laws s₀).initStatic hs.1 hinit hstatic hinfo howner hv haccepts, hs.2⟩
  writeStatic hs hv hok := ⟨(shapes_laws s₀).writeStatic hs.1 hv hok, hs.2⟩
  functions hs := ⟨(shapes_laws s₀).functions hs.1, hs.2⟩
  console hs := ⟨(shapes_laws s₀).console hs.1, hs.2⟩
  included hs := ⟨(shapes_laws s₀).included hs.1, hs.2⟩

end Discipline

/-! ## Arranged objects -/

/-- The object has all fields of its class, each once, and keeps them in the order `names`. -/
structure Session.Arranged (s : Session) (id : ObjectId) (cls : ClassId) (names : List String) :
    Prop where
  sound : s.Sound
  complete : s.store.Complete id cls
  keyed : s.store.Keyed id
  order : s.store.fieldOrder id = names

namespace Session.Arranged

variable {s s' : Session} {id : ObjectId} {cls : ClassId} {names : List String}

/-- What later code adds to an object with all its fields is nothing, so the order stays. -/
theorem kept (h : s.Arranged id cls names) (hkept : s.KeepsShapes s') (hkeyed : s'.store.Keyed id) :
    s'.Arranged id cls names := by
  have hcomplete := h.complete.kept h.sound.store hkept.sound.store hkept.store
  refine ⟨hkept.sound, hcomplete, hkeyed, ?_⟩
  have hsubset : s'.store.fieldOrder id ⊆ s.store.fieldOrder id := fun name hname => by
    obtain ⟨field, hfind, hstatic⟩ := (hcomplete.names name).mp hname
    rw [hkept.store.fields h.sound.store h.complete.hasClass] at hfind
    exact (h.complete.names name).mpr ⟨field, hfind, hstatic⟩
  have hlength := (List.subperm_of_subset hkeyed hsubset).length_le
  exact ((hkept.store.fieldNames id).eq_of_length_le hlength).symm.trans h.order

theorem keyed_inv (h : s.Arranged id cls names) : (Discipline.keyed s id).Inv s :=
  ⟨h.sound.keepsShapes, h.keyed⟩

/-- The names are those of the class's fields, in some order. -/
theorem perm (h : s.Arranged id cls names) :
    names.Perm (s.store.classInfo cls).instanceNames := by
  rw [← h.order]
  refine (List.perm_ext_iff_of_nodup h.keyed
    (Interpreter.instanceFields_nodup h.sound.store cls)).mpr fun name => ?_
  exact (h.complete.names name).trans (h.sound.store.classInfo cls).mem_instanceNames.symm

noncomputable instance (id : ObjectId) (cls : ClassId) (names : List String) :
    DecidablePred fun s : Session => s.Arranged id cls names := Classical.decPred _

/-- Code of any kind leaves the object arranged as it is, however it ends; so it is whenever a part
of a program is run. -/
theorem runs (h : s.Arranged id cls names) (fuel : Nat) :
    (∀ e expected, (evaluate fuel e expected s).Leaves fun s' => s'.Arranged id cls names) ∧
    (∀ statement, (execute fuel statement s).Leaves fun s' => s'.Arranged id cls names) ∧
    ∀ program, (runProgram fuel program s).Leaves (fun s' => s'.Arranged id cls names) ∧
      ∀ other, (interpreterWithin (fun s' => s'.Arranged id cls names) other fuel).execProgram
        program s = runProgram fuel program s := by
  have L := Discipline.keyed_laws s id
  have hruns := L.interpreter_runs fuel
  have hkept (s' : Session) (hs' : (Discipline.keyed s id).Inv s') : s'.Arranged id cls names :=
    h.kept hs'.1 hs'.2
  have hleaves {α : Type} {outcome : Outcome Session Fault α}
      (houtcome : outcome.Leaves (Discipline.keyed s id).Inv) :
      outcome.Leaves fun s' => s'.Arranged id cls names :=
    houtcome.mono (fun _ => hkept) fun _ => hkept
  refine ⟨fun e expected => ?_, fun statement => ?_, fun program => ⟨?_, fun other => ?_⟩⟩
  · exact hleaves (hruns.eval h.keyed_inv e expected).leaves
  · exact hleaves (hruns.exec h.keyed_inv statement).leaves
  · exact hleaves (L.execProgram_conforms hruns h.keyed_inv program).leaves
  · have hwithin := L.interpreterWithin_runs hkept other fuel
    exact (L.execProgram_conforms hwithin h.keyed_inv program).eq.symm

end Session.Arranged

/-! ## The order of the first writes -/

namespace Interpreter

variable {run : Interpreter} {s s' : Session} {line : Nat} {cls : ClassId} {self : ObjectId}

/-- From `s` on the object was given the fields `before`, and in `t` the initializer of the next
field has come to its value, which is not written yet. -/
def Initializes (run : Interpreter) (cls : ClassId) (self : ObjectId) (line : Nat)
    (before : List FieldInfo) (field : FieldInfo) (s t : Session) : Prop :=
  ∃ s₁ v, run.initializeFields cls self line before s = .ok () s₁ ∧
    run.fieldValue field { cls, owner := field.owner, self := some self } line s₁ = .ok v t

theorem Initializes.unique {before : List FieldInfo} {field : FieldInfo} {t t' : Session}
    (h : run.Initializes cls self line before field s t)
    (h' : run.Initializes cls self line before field s t') : t' = t := by
  obtain ⟨s₁, v, hbefore, hvalue⟩ := h
  obtain ⟨s₁', v', hbefore', hvalue'⟩ := h'
  cases hbefore.symm.trans hbefore'
  cases hvalue.symm.trans hvalue'
  rfl

/-- The order that an object comes to when it is given the fields. Each of them follows those that
the object has when its initializer is done, unless it is one of them already. The order is that of
the list exactly if every initializer leaves the fields in this order, as far as they are there. -/
structure OrdersFields (run : Interpreter) (cls : ClassId) (id : ObjectId) (line : Nat)
    (fields : List FieldInfo) (s : Session) (names : List String) : Prop where
  written : ∀ before field after, fields = before ++ field :: after →
    ∃ t, run.Initializes cls id line before field s t ∧
      (if field.name ∈ t.store.fieldOrder id then t.store.fieldOrder id
        else t.store.fieldOrder id ++ [field.name]) <+: names
  declared_iff : names = fields.map FieldInfo.name ↔
    ∀ before field after t, fields = before ++ field :: after →
      run.Initializes cls id line before field s t →
      t.store.fieldOrder id <+: fields.map FieldInfo.name

/-- Around the write of a field. -/
theorem initializeFields_stage (hrun : ∀ s₀, (Discipline.shapes s₀).Runs run run) (hs : s.Sound)
    {before after : List FieldInfo} {field : FieldInfo} (hclass : s.store.HasClass self cls)
    (hfields : ∀ other ∈ before ++ field :: after,
      Discipline.typing.Init s.store cls other ∧ other.isStatic = false)
    (h : run.initializeFields cls self line (before ++ field :: after) s = .ok () s') :
    ∃ t v, run.Initializes cls self line before field s t ∧
      (∀ other ∈ before, other.name ∈ t.store.fieldOrder self) ∧ t.store.HasClass self cls ∧
      run.initializeFields cls self line after
        { t with store := t.store.putField self field.name v } = .ok () s' ∧
      Session.KeepsShapes { t with store := t.store.putField self field.name v } s' := by
  obtain ⟨s₁, v, t, hbefore, hvalue, hafter⟩ := initializeFields_split h
  obtain ⟨hk₁, hnames⟩ := initializeFields_keepsShapes hrun hs hclass
    (fun other hother => hfields other (List.mem_append_left _ hother)) hbefore
  have hfields₁ (other : FieldInfo) (hother : other ∈ field :: after) {st : Store}
      (hgrows : s.store.Grows st) :
      Discipline.typing.Init st cls other ∧ other.isStatic = false := by
    have hother := hfields other (List.mem_append_right _ hother)
    exact ⟨Discipline.typing_laws.init_grows hgrows hother.1, hother.2⟩
  obtain ⟨hinit, hstatic⟩ := hfields₁ field List.mem_cons_self hk₁.store.toGrows
  have hclass₁ := hclass.grows hk₁.store.toGrows
  obtain ⟨hk₂, hwritten⟩ := fieldValue_keepsShapes hrun hk₁.sound hclass₁ hinit hstatic hvalue
  have hclass₂ := hclass₁.grows hk₂.store.toGrows
  have hk₃ := (hk₁.trans hk₂).trans hwritten
  obtain ⟨hk, -⟩ := initializeFields_keepsShapes hrun hwritten.sound
    (hclass₂.grows hwritten.store.toGrows)
    (fun other hother => hfields₁ other (List.mem_cons_of_mem _ hother) hk₃.store.toGrows) hafter
  refine ⟨t, v, ⟨s₁, v, hbefore, hvalue⟩, fun other hother => ?_, hclass₂, hafter, hk⟩
  exact (hk₂.store.fieldNames self).subset (hnames other hother)

theorem initializeFields_orders (hrun : ∀ s₀, (Discipline.shapes s₀).Runs run run) (hs : s.Sound)
    {fields : List FieldInfo} (hclass : s.store.HasClass self cls)
    (hnew : s.store.fieldOrder self = [])
    (hfields : ∀ field ∈ fields, Discipline.typing.Init s.store cls field ∧ field.isStatic = false)
    (hnodup : (fields.map FieldInfo.name).Nodup)
    (h : run.initializeFields cls self line fields s = .ok () s') :
    run.OrdersFields cls self line fields s (s'.store.fieldOrder self) := by
  have hwritten (before : List FieldInfo) (field : FieldInfo) (after : List FieldInfo)
      (hsplit : fields = before ++ field :: after) :
      ∃ t, run.Initializes cls self line before field s t ∧
        (if field.name ∈ t.store.fieldOrder self then t.store.fieldOrder self
          else t.store.fieldOrder self ++ [field.name]) <+: s'.store.fieldOrder self := by
    subst hsplit
    obtain ⟨t, v, ht, -, hclass', -, hk⟩ := initializeFields_stage hrun hs hclass hfields h
    refine ⟨t, ht, ?_⟩
    rw [← hclass'.fieldOrder_putField field.name v]
    exact hk.store.fieldNames self
  refine ⟨hwritten, fun heq before field after t hsplit ht => ?_, fun hdeclared => ?_⟩
  · obtain ⟨t', ht', hstart⟩ := hwritten before field after hsplit
    obtain rfl := ht.unique ht'
    rw [← heq]
    refine List.IsPrefix.trans ?_ hstart
    split
    next => exact List.prefix_rfl
    next => exact List.prefix_append _ _
  · -- Only the last initializer matters: all other fields are there when it is done.
    rcases List.eq_nil_or_concat fields with rfl | ⟨before, field, rfl⟩
    · cases h
      exact hnew
    · rw [List.concat_eq_append] at *
      obtain ⟨t, v, ht, hbefore, hclass', hlast, -⟩ :=
        initializeFields_stage hrun hs hclass hfields h
      cases hlast
      have hstart := hdeclared before field [] t rfl ht
      rw [List.map_append, List.map_cons, List.map_nil] at hstart hnodup ⊢
      rw [hclass'.fieldOrder_putField]
      refine order_of_prefix hnodup hstart fun name hname => ?_
      obtain ⟨other, hother, rfl⟩ := List.mem_map.mp hname
      exact hbefore other hother

/-- A new object is given all its fields, in the order in which they are first written to. -/
theorem initializeFields_arranges {fuel : Nat} (hs : s.Sound) (hcls : cls < s.store.classes.size)
    (h : (interpreter fuel).initializeFields cls s.store.objects.size line
      (instanceFields (s.store.classInfo cls)) (s.made cls) = .ok () s') :
    s.KeepsShapes s' ∧
      s'.Arranged s.store.objects.size cls (s'.store.fieldOrder s.store.objects.size) ∧
      (interpreter fuel).OrdersFields cls s.store.objects.size line
        (instanceFields (s.store.classInfo cls)) (s.made cls)
        (s'.store.fieldOrder s.store.objects.size) := by
  have hrun (s₀ : Session) := (Discipline.shapes_laws s₀).interpreter_runs fuel
  have L := Discipline.keyed_laws s s.store.objects.size
  have hinv : (Discipline.keyed s s.store.objects.size).Inv s := by
    refine ⟨hs.keepsShapes, ?_⟩
    rw [Store.Keyed, Store.fieldOrder, Store.objectCell, Array.getElem?_size]
    exact List.nodup_nil
  have hmade : (Discipline.keyed s s.store.objects.size).Inv (s.made cls) :=
    (L.newObject hinv hcls).1
  have hclass : (s.made cls).store.HasClass s.store.objects.size cls := .newObject _ cls
  have hinit := L.init_instanceFields hmade (L.cls_grows (s.store.grows_newObject cls) hcls)
  have hinv' := ((L.initializeFields_conforms (L.interpreter_runs fuel) hmade line _
    ⟨s, hinv, Nat.le_refl _⟩ hclass hclass.holds hinit).of_ok h).2.1
  have hcomplete := (initializeFields_complete hrun hmade.1.sound hclass h).2
  refine ⟨hinv'.1, ⟨hinv'.1.sound, hcomplete, hinv'.2, rfl⟩, ?_⟩
  exact initializeFields_orders hrun hmade.1.sound hclass (Store.fieldOrder_newObject _ cls) hinit
    (instanceFields_nodup hs.store cls) h

/-- A constructor does not change the order of the fields. -/
theorem construct_arranged {fuel : Nat} {names : List String} (hs : s.Arranged self cls names)
    {constructor : ConstructorInfo} {arguments : List Value}
    (harguments : ∀ a ∈ arguments, s.store.Holds a)
    (h : (interpreter fuel).construct { cls, constructor, self, arguments, line } s = .ok () s') :
    s'.Arranged self cls names := by
  have L := Discipline.keyed_laws s self
  obtain ⟨-, hinv, -⟩ := ((L.interpreter_runs fuel).construct hs.keyed_inv
    { cls, constructor, self, arguments, line } trivial ⟨hs.complete.hasClass.holds, trivial⟩
    harguments).of_ok h
  exact hs.kept hinv.1 hinv.2

/-- A finished `new` gives an object whose fields stand in the order in which they were first
written to while they were initialized. -/
theorem new_orders {fuel : Nat} (hs : s.Sound) {className : String} {arguments : List Expr}
    {v : Value} (h : (interpreter fuel).new className arguments line s = .ok v s') :
    ∃ cls args s₁ s₂ names, v = .object s₁.store.objects.size ∧
      (interpreter fuel).Instantiates className arguments line cls args s s₁ s₂ s' ∧
      s₂.Arranged s₁.store.objects.size cls names ∧
      s'.Arranged s₁.store.objects.size cls names ∧
      names.Perm (s.store.classInfo cls).instanceNames ∧
      (interpreter fuel).OrdersFields cls s₁.store.objects.size line
        (instanceFields (s.store.classInfo cls)) (s₁.made cls) names := by
  obtain ⟨cls, args, s₁, s₂, rfl, stages⟩ := new_stages h
  have L := Discipline.typing_laws
  obtain ⟨hk₁, hs₁, hargs⟩ :=
    (L.evalAll_conforms (L.interpreter_runs fuel) hs arguments).of_ok stages.evaluated
  have hcls := hs.store.names className cls stages.named
  obtain ⟨hk₂, harranged, hordered⟩ :=
    initializeFields_arranges hs₁ (hk₁.store.lt_size hcls) stages.initialized
  have hfields {st : Store} (hgrows : s.store.Grows st) :
      instanceFields (st.classInfo cls) = instanceFields (s.store.classInfo cls) := by
    rw [instanceFields, instanceFields, hgrows.fields hcls]
  have hperm := harranged.perm
  rw [ClassInfo.instanceNames, hfields (hk₁.store.trans hk₂.store.toGrows)] at hperm
  rw [hfields hk₁.store] at hordered
  refine ⟨cls, args, s₁, s₂, _, rfl, stages, harranged, ?_, hperm, hordered⟩
  cases hconstructor : (s₂.store.classInfo cls).constructor with
  | none =>
      obtain rfl := stages.unconstructed hconstructor
      exact harranged
  | some constructor =>
      exact construct_arranged harranged (fun a ha => (hargs a ha).grows hk₂.store.toGrows)
        (stages.constructed constructor hconstructor)

end Interpreter

/-- The fields of a new object are those of its class, each once, in the order in which they were
first written to while they were initialized: a field follows those that the object has when its
initializer is done, unless it is one of them already. This is the order of the class's table
exactly if every initializer leaves the fields in that order, as far as they are there. Neither the
constructors nor any later code, however it ends, change the order again. -/
theorem fields_in_order_of_first_writes {s s' : Session} (hs : s.Sound) {fuel : Nat}
    {className : String} {arguments : List Expr} {line : Nat} {expected : Option Ty} {v : Value}
    (h : evaluate (fuel + 1) (.new className arguments line) expected s = .ok v s') :
    ∃ cls args s₁ s₂ id names, v = .object id ∧ id = s₁.store.objects.size ∧
      (interpreter fuel).Instantiates className arguments line cls args s s₁ s₂ s' ∧
      s'.store.fieldOrder id = names ∧ s₂.store.fieldOrder id = names ∧
      names.Perm (s.store.classInfo cls).instanceNames ∧
      (∀ before field after,
        Interpreter.instanceFields (s.store.classInfo cls) = before ++ field :: after →
        ∃ t, (interpreter fuel).Initializes cls id line before field (s₁.made cls) t ∧
          (if field.name ∈ t.store.fieldOrder id then t.store.fieldOrder id
            else t.store.fieldOrder id ++ [field.name]) <+: names) ∧
      (names = (s.store.classInfo cls).instanceNames ↔ ∀ before field after t,
        Interpreter.instanceFields (s.store.classInfo cls) = before ++ field :: after →
        (interpreter fuel).Initializes cls id line before field (s₁.made cls) t →
        t.store.fieldOrder id <+: (s.store.classInfo cls).instanceNames) ∧
      s'.Arranged id cls names ∧
      ∀ t, t.Arranged id cls names → ∀ later,
        (∀ e expected, (evaluate later e expected t).Leaves fun t' => t'.Arranged id cls names) ∧
        (∀ statement, (execute later statement t).Leaves fun t' => t'.Arranged id cls names) ∧
        ∀ program, (runProgram later program t).Leaves (fun t' => t'.Arranged id cls names) ∧
          ∀ other, (interpreterWithin (fun t' => t'.Arranged id cls names) other later).execProgram
            program t = runProgram later program t := by
  obtain ⟨cls, args, s₁, s₂, names, hv, stages, hgiven, hdone, hperm, hordered⟩ :=
    Interpreter.new_orders hs h
  exact ⟨cls, args, s₁, s₂, _, names, hv, rfl, stages, hdone.order, hgiven.order, hperm,
    hordered.written, hordered.declared_iff, hdone, fun t ht later => ht.runs later⟩

/-- A class with these fields, all of type `int`, and nothing else. -/
def ClassDecl.ofFields (name : String) (fields : List (String × Expr)) : ClassDecl where
  name := name
  isStatic := false
  supertypes := []
  fields := fields.map fun (field, value) =>
    { decl := { name := field, ty := .int, length := none, initializer := some value,
                isConst := false, line := 1 }
      access := .everyone, isStatic := false, accessors := { getter := false, setter := false } }
  methods := []
  constructor := none
  line := 1

/-- The initializer of the second field writes to the third field. -/
theorem fields_in_order_of_first_writes_early :
    let one : Expr := .literal (.int 1) 1
    let decl := ClassDecl.ofFields "C" [("a", one), ("b", .assign (.var "c") one 1), ("c", one)]
    let s := Session.start (fun _ => .error .unknownModule) []
    ∃ s₁ v s₂, runProgram 9 [.classType decl] s = .ok () s₁ ∧ s₁.Sound ∧
      evaluate 9 (.new "C" [] 2) none s₁ = .ok v s₂ ∧
      ∃ cls id names, v = .object id ∧ s₂.Arranged id cls names ∧
        names.Perm (s₁.store.classInfo cls).instanceNames := by
  intro one decl s
  have hok : ((runProgram 9 [.classType decl] >>= fun _ => evaluate 9 (.new "C" [] 2) none)
      s).isOk = true := by decide +kernel
  obtain ⟨v, s₂, hrun⟩ := Outcome.exists_of_isOk hok
  obtain ⟨_, s₁, hprogram, hnew⟩ := Action.ok_of_bind hrun
  have hreachable : s.Reachable := .fresh rfl rfl Store.sound_empty
  have hsound := (hreachable.finished hprogram).sound
  obtain ⟨cls, -, -, -, id, names, hv, -, -, -, -, hperm, -, -, harranged, -⟩ :=
    fields_in_order_of_first_writes hsound hnew
  exact ⟨s₁, v, s₂, hprogram, hsound, hnew, cls, id, names, hv, harranged, hperm⟩

/-- A field that is written to before its turn stands before the field whose initializer wrote to
it, against the order of the table. -/
theorem early_write_comes_first :
    let early : Expr := .assign (.var "b") (.literal (.int 7) 2) 2
    let decl := ClassDecl.ofFields "A" [("a", early), ("b", .literal (.int 2) 3)]
    let s := Session.start (fun _ => .error .unknownModule) []
    (match (runProgram 9 [.classType decl] >>= fun _ => evaluate 9 (.new "A" [] 4) none) s with
      | .ok (.object id) s' =>
          some (s'.store.fieldOrder id, (s'.store.classInfo (s'.objectClass id)).instanceNames)
      | _ => none) = some (["b", "a"], ["a", "b"]) := by
  decide +kernel

end ClassScript
