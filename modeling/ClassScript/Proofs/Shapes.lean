import ClassScript.Proofs.Instantiation
import ClassScript.Proofs.Typing.Soundness

/-!
# Shapes of shared values

Variables, items, fields and calls in progress may all name the same array or object, and code that
runs while an object is being built may already write to it. Whichever way a write takes, an array
keeps its element type and its number of items, an object keeps its class, and no field is ever
taken from an object. An object only has fields of its class, and `new` gives it a first value for
each of them; so once it is made it has all of them for good.
-/

namespace ClassScript

/-! ## Kept shapes -/

namespace Store

/-- Everything in `st` is in `st'` with the same shape, and every object still has its fields. -/
structure KeepsShapes (st st' : Store) : Prop extends st.Grows st' where
  fieldNames : ∀ id, (st.objectCell id).fields.names <+: (st'.objectCell id).fields.names

/-- A write adds a field or replaces its value; the other fields keep their places. -/
theorem names_prefix_putField (st : Store) (id other : ObjectId) (name : String) (v : Value) :
    (st.objectCell other).fields.names <+:
      ((st.putField id name v).objectCell other).fields.names := by
  have hcell : (st.putField id name v).objects[other]? = if id = other then
      st.objects[other]?.map fun cell => { cell with fields := cell.fields.insert name v }
      else st.objects[other]? := Array.getElem?_modify
  rw [objectCell, objectCell, hcell]
  split
  · cases st.objects[other]? with
    | none => exact List.prefix_rfl
    | some cell => exact Table.names_prefix_insert cell.fields name v
  · exact List.prefix_rfl

namespace KeepsShapes

variable {st st' st'' : Store}

@[refl]
theorem refl (st : Store) : st.KeepsShapes st := ⟨.refl st, fun _ => List.prefix_rfl⟩

theorem trans (h : st.KeepsShapes st') (h' : st'.KeepsShapes st'') : st.KeepsShapes st'' :=
  ⟨h.toGrows.trans h'.toGrows, fun id => (h.fieldNames id).trans (h'.fieldNames id)⟩

/-- A change that leaves the objects alone. -/
theorem of_objects (hgrows : st.Grows st') (h : st'.objects = st.objects) : st.KeepsShapes st' := by
  refine ⟨hgrows, fun id => ?_⟩
  have hcell : st'.objectCell id = st.objectCell id := by rw [objectCell, objectCell, h]
  exact hcell ▸ List.prefix_rfl

theorem newObject (st : Store) (cls : ClassId) : st.KeepsShapes (st.newObject cls).2 := by
  refine ⟨st.grows_newObject cls, fun id => ?_⟩
  cases hcell : st.objects[id]? with
  | none =>
      rw [objectCell, hcell]
      exact List.nil_prefix
  | some cell =>
      obtain ⟨hlt, -⟩ := Array.getElem?_eq_some_iff.mp hcell
      simp [objectCell, Store.newObject, Array.getElem?_push, Nat.ne_of_lt hlt]

theorem putField (st : Store) (id : ObjectId) (name : String) (v : Value) :
    st.KeepsShapes (st.putField id name v) :=
  ⟨st.grows_putField id name v, fun other => st.names_prefix_putField id other name v⟩

end KeepsShapes

end Store

/-- The later session is sound, and everything in the store kept its shape. -/
structure Session.KeepsShapes (s s' : Session) : Prop where
  sound : s'.Sound
  store : s.store.KeepsShapes s'.store

theorem Session.KeepsShapes.trans {s s' s'' : Session} (h : s.KeepsShapes s')
    (h' : s'.KeepsShapes s'') : s.KeepsShapes s'' :=
  ⟨h'.sound, h.store.trans h'.store⟩

theorem Session.Sound.keepsShapes {s : Session} (h : s.Sound) : s.KeepsShapes s :=
  ⟨h, .refl _⟩

noncomputable instance (s : Session) : DecidablePred s.KeepsShapes := Classical.decPred _

/-! ## The discipline of shapes -/

namespace Discipline

/-- Everything is of its type and keeps the shape that it had in `s₀`. -/
def shapes (s₀ : Session) : Discipline := { typing with Inv := s₀.KeepsShapes }

theorem shapes_laws (s₀ : Session) : (shapes s₀).Laws where
  __ := typing_laws
  val_stored hs := typing_laws.val_stored hs.sound
  val_self hs := typing_laws.val_self hs.sound
  cls_named hs := typing_laws.cls_named hs.sound
  init_field hs := typing_laws.init_field hs.sound
  meth_found hs := typing_laws.meth_found hs.sound
  native cls hs := typing_laws.native cls hs.sound
  enter hs := ⟨typing_laws.enter hs.sound, hs.store⟩
  exit hs hk hs' hexit := ⟨typing_laws.exit hs.sound hk hs'.sound hexit, hs'.store⟩
  call hs hlt hself := ⟨typing_laws.call hs.sound hlt hself, hs.store⟩
  finish hs hk hs' hexit := ⟨typing_laws.finish hs.sound hk hs'.sound hexit, hs'.store⟩
  declare hs hv hok := ⟨typing_laws.declare hs.sound hv hok, hs.store⟩
  assign hs hv hok := ⟨typing_laws.assign hs.sound hv hok, hs.store⟩
  newArray {s _ _} hs hitems := by
    have h := typing_laws.newArray hs.sound hitems
    exact ⟨⟨h.1, hs.store.trans (.of_objects (s.store.grows_newArray _ _) rfl)⟩, h.2⟩
  putItem {s _ _ _ _ _} hs hv hok :=
    ⟨typing_laws.putItem hs.sound hv hok,
      hs.store.trans (.of_objects (s.store.grows_putItem _ _ _) rfl)⟩
  newObject {s cls} hs hcls := by
    have h := typing_laws.newObject hs.sound hcls
    exact ⟨⟨h.1, hs.store.trans (.newObject s.store cls)⟩, h.2⟩
  built_new _ := trivial
  receives_object _ _ := trivial
  receives_self _ _ _ := trivial
  initField hmade hs hinit hstatic hself hv haccepts :=
    ⟨typing_laws.initField (hmade.imp fun _ h => ⟨h.1.sound, h.2⟩) hs.sound hinit hstatic hself hv
        haccepts,
      hs.store.trans (.putField _ _ _ _)⟩
  writeField hs hv hok :=
    ⟨typing_laws.writeField hs.sound hv hok, hs.store.trans (.putField _ _ _ _)⟩
  enroll {s info} hs hinfo hname := by
    have h := typing_laws.enroll hs.sound hinfo hname
    exact ⟨⟨h.1, hs.store.trans (.of_objects (s.store.grows_enrollClass info) rfl)⟩, h.2⟩
  initStatic {s _ _ _ _} hs hinit hstatic hinfo howner hv haccepts :=
    ⟨typing_laws.initStatic hs.sound hinit hstatic hinfo howner hv haccepts,
      hs.store.trans (.of_objects (s.store.grows_putStatic _ _ _) rfl)⟩
  writeStatic {s _ _ _ _} hs hv hok :=
    ⟨typing_laws.writeStatic hs.sound hv hok,
      hs.store.trans (.of_objects (s.store.grows_putStatic _ _ _) rfl)⟩
  functions hs := ⟨typing_laws.functions hs.sound, hs.store⟩
  console hs := ⟨typing_laws.console hs.sound, hs.store⟩
  included hs := ⟨typing_laws.included hs.sound, hs.store⟩

end Discipline

/-! ## Complete objects -/

/-- The class has a field of the name that is not static. -/
def ClassInfo.HasInstanceField (info : ClassInfo) (name : String) : Prop :=
  ∃ field, info.fields.find? name = some field ∧ field.isStatic = false

namespace Store

variable {st st' : Store} {id : ObjectId} {cls : ClassId}

/-- The object is of the class and has exactly the fields of the class that are not static. -/
structure Complete (st : Store) (id : ObjectId) (cls : ClassId) : Prop where
  hasClass : st.HasClass id cls
  names : ∀ name, name ∈ (st.objectCell id).fields.names ↔
    (st.classInfo cls).HasInstanceField name

theorem Sound.class_lt (h : st.Sound) (hclass : st.HasClass id cls) : cls < st.classes.size := by
  obtain ⟨cell, hcell, rfl⟩ := hclass
  exact (h.objects id cell hcell).cls

/-- Whatever state of construction an object is in, its fields are fields of its class. -/
theorem Sound.hasInstanceField (h : st.Sound) (hclass : st.HasClass id cls) {name : String}
    (hname : name ∈ (st.objectCell id).fields.names) :
    (st.classInfo cls).HasInstanceField name := by
  obtain ⟨cell, hcell, rfl⟩ := hclass
  rw [objectCell, hcell] at hname
  obtain ⟨⟨_, v⟩, hentry, rfl⟩ := List.mem_map.mp hname
  obtain ⟨field, hfind, hstatic, -⟩ := (h.objects id cell hcell).fields _ v hentry
  exact ⟨field, hfind, hstatic⟩

theorem KeepsShapes.fields (h : st.KeepsShapes st') (hst : st.Sound)
    (hclass : st.HasClass id cls) :
    (st'.classInfo cls).fields = (st.classInfo cls).fields :=
  h.toGrows.fields (hst.class_lt hclass)

/-- An object with all the fields of its class has them for good. -/
theorem Complete.kept (h : st.Complete id cls) (hst : st.Sound) (hst' : st'.Sound)
    (hkept : st.KeepsShapes st') : st'.Complete id cls := by
  have hclass' := h.hasClass.grows hkept.toGrows
  refine ⟨hclass', fun name => ⟨hst'.hasInstanceField hclass', fun hfield => ?_⟩⟩
  obtain ⟨field, hfind, hstatic⟩ := hfield
  rw [hkept.fields hst h.hasClass] at hfind
  exact (hkept.fieldNames id).subset ((h.names name).mpr ⟨field, hfind, hstatic⟩)

end Store

/-- A read of a field of a complete object is refused or gives a value. -/
theorem Store.Complete.readField {s : Session} {id : ObjectId} {cls : ClassId}
    (h : s.store.Complete id cls) {name : String} {field : FieldInfo}
    (hfind : (s.store.classInfo cls).fields.find? name = some field)
    (hstatic : field.isStatic = false) :
    ∃ v, (s.store.objectCell id).fields.find? name = some v ∧
      s.readField id name = if s.mayAccess field.access field.owner then .ok v
        else .error (.privateAccess (s.store.className cls) name) := by
  obtain ⟨v, hv⟩ := Table.mem_names_iff.mp ((h.names name).mpr ⟨field, hfind, hstatic⟩)
  refine ⟨v, hv, ?_⟩
  have hcls : s.objectClass id = cls := h.hasClass.objectCell
  have hfield : s.findField cls name = .ok field := by rw [Session.findField, hfind]
  rw [Session.readField, hcls, hv, Session.instanceField, hfield]
  cases haccess : s.mayAccess field.access field.owner <;>
    simp [bind, Except.bind, hstatic, Session.checkAccess, haccess]

/-! ## New objects are complete -/

theorem Store.HasClass.mem_names_putField {st : Store} {id : ObjectId} {cls : ClassId}
    (h : st.HasClass id cls) (name : String) (v : Value) :
    name ∈ ((st.putField id name v).objectCell id).fields.names := by
  obtain ⟨cell, hcell, -⟩ := h
  rw [Store.objectCell, Store.putField, Array.getElem?_modify, if_pos rfl, hcell]
  exact Table.mem_names_insert _ _ _

theorem Store.HasClass.holds {st : Store} {id : ObjectId} {cls : ClassId}
    (h : st.HasClass id cls) : st.Holds (.object id) := by
  obtain ⟨cell, hcell, -⟩ := h
  exact (Array.getElem?_eq_some_iff.mp hcell).1

namespace Interpreter

variable {run : Interpreter} {s s' : Session} {line : Nat}

/-- The initializer of a field keeps all shapes, and so does writing its value to the field. -/
theorem fieldValue_keepsShapes (hrun : ∀ s₀, (Discipline.shapes s₀).Runs run run) (hs : s.Sound)
    {cls : ClassId} {self : ObjectId} {field : FieldInfo} {v : Value}
    (hclass : s.store.HasClass self cls) (hinit : Discipline.typing.Init s.store cls field)
    (hstatic : field.isStatic = false)
    (h : run.fieldValue field { cls, owner := field.owner, self := some self } line s = .ok v s') :
    s.KeepsShapes s' ∧
      s'.KeepsShapes { s' with store := s'.store.putField self field.name v } := by
  have L := Discipline.shapes_laws s
  obtain ⟨hgrows, hs', hv, haccepts⟩ := (L.fieldValue_conforms (hrun s) hs.keepsShapes
    (fun v => L.init_value hinit) _ line fun id hid => by
      obtain rfl : self = id := Option.some.inj hid
      exact ⟨hclass.holds, trivial⟩).of_ok h
  have hfind := (L.init_grows hgrows.store hinit).2.1
  have hclass' := hclass.grows hgrows.store
  exact ⟨hs', hs'.sound.putField (hclass'.objectCell ▸ hfind) hstatic ⟨hv, haccepts⟩,
    .putField _ _ _ _⟩

/-- The initializers may run any code, which may write to the object early and make other objects;
when all are done, each field of the list is there. -/
theorem initializeFields_keepsShapes (hrun : ∀ s₀, (Discipline.shapes s₀).Runs run run)
    (hs : s.Sound) {cls : ClassId} {self : ObjectId} {fields : List FieldInfo}
    (hclass : s.store.HasClass self cls)
    (hfields : ∀ field ∈ fields, Discipline.typing.Init s.store cls field ∧ field.isStatic = false)
    (h : run.initializeFields cls self line fields s = .ok () s') :
    s.KeepsShapes s' ∧ ∀ field ∈ fields, field.name ∈ (s'.store.objectCell self).fields.names := by
  induction fields generalizing s with
  | nil =>
      cases h
      exact ⟨hs.keepsShapes, fun _ hmem => absurd hmem List.not_mem_nil⟩
  | cons field rest ih =>
      obtain ⟨v, s₁, hvalue, h₁⟩ := Action.ok_of_bind h
      obtain ⟨_, s₂, hput, hrest⟩ := Action.ok_of_bind h₁
      obtain ⟨hinit, hstatic⟩ := hfields field List.mem_cons_self
      obtain ⟨hs₁, hwritten⟩ := fieldValue_keepsShapes hrun hs hclass hinit hstatic hvalue
      have hclass₁ := hclass.grows hs₁.store.toGrows
      cases hput
      have hs₂ := hs₁.trans hwritten
      have hgrows := hs₂.store.toGrows
      obtain ⟨hs', hnames⟩ := ih hs₂.sound (hclass.grows hgrows)
        (fun other hother => by
          have hother := hfields other (List.mem_cons_of_mem _ hother)
          exact ⟨Discipline.typing_laws.init_grows hgrows hother.1, hother.2⟩) hrest
      refine ⟨hs₂.trans hs', fun other hother => ?_⟩
      rcases List.mem_cons.mp hother with rfl | hother
      · exact (hs'.store.fieldNames self).subset (hclass₁.mem_names_putField _ v)
      · exact hnames other hother

/-- The fields that are initialized are all that an instance of the class has. -/
theorem initializeFields_complete (hrun : ∀ s₀, (Discipline.shapes s₀).Runs run run)
    (hs : s.Sound) {cls : ClassId} {self : ObjectId} (hclass : s.store.HasClass self cls)
    (h : run.initializeFields cls self line (instanceFields (s.store.classInfo cls)) s =
      .ok () s') :
    s.KeepsShapes s' ∧ s'.store.Complete self cls := by
  have hlt := hs.store.class_lt hclass
  obtain ⟨hkept, hnames⟩ := initializeFields_keepsShapes hrun hs hclass
    (Discipline.typing_laws.init_instanceFields hs hlt) h
  have hclass' := hclass.grows hkept.store.toGrows
  refine ⟨hkept, hclass', fun name => ⟨hkept.sound.store.hasInstanceField hclass', ?_⟩⟩
  rintro ⟨field, hfind, hstatic⟩
  have hinfo := hs.store.classInfo cls
  rw [hkept.store.fields hs.store hclass] at hfind
  obtain rfl := hinfo.named name field hfind
  exact hnames field (hinfo.mem_instanceFields.mpr ⟨hfind, hstatic⟩)

/-- A finished `new` gives an object that has all the fields of its class. -/
theorem new_complete (hrun : ∀ s₀, (Discipline.shapes s₀).Runs run run) (hs : s.Sound)
    {className : String} {arguments : List Expr} {v : Value}
    (h : run.new className arguments line s = .ok v s') :
    ∃ cls id, s.store.findClass? className = some cls ∧ v = .object id ∧ s.KeepsShapes s' ∧
      s'.store.Complete id cls := by
  have L := Discipline.shapes_laws s
  obtain ⟨cls, args, s₁, s₂, rfl, stages⟩ := new_stages h
  obtain ⟨hk₁, hs₁, hargs⟩ :=
    (L.evalAll_conforms (hrun s) hs.keepsShapes arguments).of_ok stages.evaluated
  have hnamed := L.cls_named hs.keepsShapes stages.named
  have hmade : s.KeepsShapes (s₁.made cls) :=
    (L.newObject hs₁ (L.cls_grows hk₁.store hnamed)).1
  obtain ⟨hs₂, hcomplete⟩ :=
    initializeFields_complete hrun hmade.sound (.newObject _ cls) stages.initialized
  cases hconstructor : (s₂.store.classInfo cls).constructor with
  | none =>
      obtain rfl := stages.unconstructed hconstructor
      exact ⟨cls, _, stages.named, rfl, hmade.trans hs₂, hcomplete⟩
  | some constructor =>
      have hgrows := (s₁.store.grows_newObject cls).trans hs₂.store.toGrows
      obtain ⟨-, hs₃, -⟩ := ((hrun s₂).construct hs₂.sound.keepsShapes
        { cls, constructor, self := s₁.store.objects.size, arguments := args, line } trivial
        ⟨hcomplete.hasClass.holds, trivial⟩ fun a ha => L.val_grows hgrows (hargs a ha)).of_ok
        (stages.constructed constructor hconstructor)
      exact ⟨cls, _, stages.named, rfl, (hmade.trans hs₂).trans hs₃,
        hcomplete.kept hs₂.sound.store hs₃.sound.store hs₃.store⟩

end Interpreter

/-! ## Every run keeps shapes -/

theorem evaluate_new_complete {s s' : Session} (hs : s.Sound) {fuel : Nat} {className : String}
    {arguments : List Expr} {line : Nat} {expected : Option Ty} {v : Value}
    (h : evaluate fuel (.new className arguments line) expected s = .ok v s') :
    ∃ cls id, s.store.findClass? className = some cls ∧ v = .object id ∧ s.KeepsShapes s' ∧
      s'.store.Complete id cls := by
  cases fuel with
  | zero => cases h
  | succ fuel =>
      exact Interpreter.new_complete
        (fun s₀ => (Discipline.shapes_laws s₀).interpreter_runs fuel) hs h

/-- Every run from a sound session keeps the shapes of all arrays and objects, those of an earlier
session `s₀` too; so it is at the end of an expression, a statement or a program, and whenever a
part of a program is run, where it makes no difference what any `other` interpreter would do
elsewhere. A finished `new` gives an object with exactly the fields of its class that are not
static. It has them in every later session, where a read of one is refused or gives its value. -/
theorem shapes_kept {s₀ s : Session} (h : s₀.KeepsShapes s) (fuel : Nat) :
    (∀ e expected, (evaluate fuel e expected s).Leaves s₀.KeepsShapes) ∧
    (∀ statement, (execute fuel statement s).Leaves s₀.KeepsShapes) ∧
    (∀ program, (runProgram fuel program s).Leaves s₀.KeepsShapes ∧
      ∀ other, (interpreterWithin s₀.KeepsShapes other fuel).execProgram program s =
        runProgram fuel program s) ∧
    ∀ className arguments line expected v s',
      evaluate fuel (.new className arguments line) expected s = .ok v s' →
      ∃ cls id, s.store.findClass? className = some cls ∧ v = .object id ∧ s'.KeepsShapes s' ∧
        ∀ t, s'.KeepsShapes t → t.store.Complete id cls ∧
          (t.store.classInfo cls).fields = (s.store.classInfo cls).fields ∧
          ∀ name field, (s.store.classInfo cls).fields.find? name = some field →
            field.isStatic = false →
            ∃ w, (t.store.objectCell id).fields.find? name = some w ∧
              t.readField id name = if t.mayAccess field.access field.owner then .ok w
                else .error (.privateAccess (t.store.className cls) name) := by
  have L := Discipline.shapes_laws s₀
  have hruns := L.interpreter_runs fuel
  refine ⟨fun e expected => (hruns.eval h e expected).leaves,
    fun statement => (hruns.exec h statement).leaves, fun program => ⟨?_, fun other => ?_⟩, ?_⟩
  · exact (L.execProgram_conforms hruns h program).leaves
  · have hwithin := L.interpreterWithin_runs (P := s₀.KeepsShapes) (fun _ hs => hs) other fuel
    exact (L.execProgram_conforms hwithin h program).eq.symm
  · intro className arguments line expected v s' hnew
    obtain ⟨cls, id, hnamed, rfl, hs', hcomplete⟩ := evaluate_new_complete h.sound hnew
    refine ⟨cls, id, hnamed, rfl, hs'.sound.keepsShapes, fun t ht => ?_⟩
    have hlt := h.sound.store.names className cls hnamed
    have hfields := (hs'.trans ht).store.toGrows.fields hlt
    have hcomplete' := hcomplete.kept hs'.sound.store ht.sound.store ht.store
    refine ⟨hcomplete', hfields, fun name field hfind hstatic => ?_⟩
    exact hcomplete'.readField (hfields.symm ▸ hfind) hstatic

/-- The initializer of the first field writes to the second field before that has a value. -/
theorem shapes_kept_early_write :
    let field (name : String) (initializer : Expr) : FieldDecl :=
      { decl := { name, ty := .int, length := none, initializer := some initializer,
                  isConst := false, line := 1 }
        access := .everyone, isStatic := false, accessors := { getter := false, setter := false } }
    let early : Expr := .assign (.var "b") (.literal (.int 7) 1) 1
    let decl : ClassDecl :=
      { name := "C", isStatic := false, supertypes := [], methods := [], constructor := none,
        fields := [field "a" early, field "b" (.literal (.int 2) 1)], line := 1 }
    let s := Session.start (fun _ => .error .unknownModule) []
    ∃ s₁ v s₂, runProgram 9 [.classType decl] s = .ok () s₁ ∧ s₁.KeepsShapes s₁ ∧
      evaluate 9 (.new "C" [] 2) none s₁ = .ok v s₂ ∧
      ∃ cls id, v = .object id ∧ s₂.store.Complete id cls := by
  intro field early decl s
  have hok : ((runProgram 9 [.classType decl] >>= fun _ => evaluate 9 (.new "C" [] 2) none)
      s).isOk = true := by decide +kernel
  obtain ⟨v, s₂, hrun⟩ := Outcome.exists_of_isOk hok
  obtain ⟨_, s₁, hprogram, hnew⟩ := Action.ok_of_bind hrun
  have hreachable : s.Reachable := .fresh rfl rfl Store.sound_empty
  have hkept := (hreachable.finished hprogram).sound.keepsShapes
  obtain ⟨cls, id, -, hv, hs₂, hlater⟩ := (shapes_kept hkept 9).2.2.2 "C" [] 2 none v s₂ hnew
  exact ⟨s₁, v, s₂, hprogram, hkept, hnew, cls, id, hv, (hlater s₂ hs₂).1⟩

end ClassScript
