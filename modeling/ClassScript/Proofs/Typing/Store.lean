import ClassScript.Proofs.Classes

/-!
# Typed stores

A store is sound if its cells hold values of the types they were made for. The definitions speak of
a cell or a class in a store, which need not contain it yet; all of them are stable while the store
grows, so an operation has to be checked only for the cell that it changes.
-/

namespace ClassScript

/-! ## Values of a store -/

namespace Store

variable {st st' : Store}

/-- The cell that the value names, if it names one, is in the store. -/
def Holds (st : Store) : Value → Prop
  | .array id => id < st.arrays.size
  | .object id => id < st.objects.size
  | _ => True

/-- The value is one of the store, and the type accepts it. -/
structure Typed (st : Store) (ty : Ty) (v : Value) : Prop where
  holds : st.Holds v
  accepts : st.accepts ty v = true

theorem holds_of_isPlain {v : Value} (h : v.isPlain = true) : st.Holds v := by
  cases v with
  | array _ | object _ => cases h
  | _ => trivial

/-! ## Cells and classes -/

/-- Every item of the array is of its element type. -/
def ArraySound (st : Store) (cell : ArrayCell) : Prop :=
  ∀ v ∈ cell.items, st.Typed cell.element v

/-- Every value in an object belongs to a field of its class that is not static, and is of the type
of the field. -/
structure ObjectSound (st : Store) (cell : ObjectCell) : Prop where
  cls : cell.cls < st.classes.size
  fields : ∀ name v, (name, v) ∈ cell.fields.entries →
    ∃ field, (st.classInfo cell.cls).fields.find? name = some field ∧ field.isStatic = false ∧
      st.Typed field.ty v

/-- A method of the host makes no values up: given values of the store it returns or throws values
of the store, now and whenever it is called later. -/
def MethodSound (st : Store) (method : MethodInfo) : Prop :=
  ∀ run, method.body = .native run → ∀ st', st.Grows st' → ∀ args, (∀ a ∈ args, st'.Holds a) →
    (∀ v, run st'.typeOf args = .ok v → st'.Holds v) ∧
      ∀ v, run st'.typeOf args = .error (.thrown v) → st'.Holds v

/-- The description of a class fits into the store: its ancestors are there, its fields are listed
under their own names, and the values in it are values of the store. -/
structure ClassSound (st : Store) (info : ClassInfo) : Prop where
  ancestors : ∀ cls ∈ info.ancestors, cls < st.classes.size
  keyed : info.fields.WellKeyed
  named : ∀ name field, info.fields.find? name = some field → field.name = name
  inits : ∀ name field v, info.fields.find? name = some field → field.init = .value v → st.Holds v
  statics : ∀ name v, info.statics.find? name = some v → st.Holds v
  methods : ∀ name method, info.methods.find? name = some method → st.MethodSound method

/-- Everything in the store is sound. -/
structure Sound (st : Store) : Prop where
  arrays : ∀ (id : ArrayId) (cell : ArrayCell), st.arrays[id]? = some cell → st.ArraySound cell
  objects : ∀ (id : ObjectId) (cell : ObjectCell), st.objects[id]? = some cell →
    st.ObjectSound cell
  classes : ∀ (cls : ClassId) (info : ClassInfo), st.classes[cls]? = some info →
    st.ClassSound info
  names : ∀ name cls, st.findClass? name = some cls → cls < st.classes.size

theorem sound_empty : Sound empty where
  arrays _ _ h := by cases h
  objects _ _ h := by cases h
  classes _ _ h := by cases h
  names _ _ h := by cases h

theorem classSound_blank (name : String) (isStatic isInterface : Bool) :
    st.ClassSound { ClassInfo.blank name with isStatic, isInterface } where
  ancestors _ h := absurd h List.not_mem_nil
  keyed := Table.wellKeyed_empty
  named _ _ h := by cases h
  inits _ _ _ h := by cases h
  statics _ _ h := by cases h
  methods _ _ h := by cases h

/-- An unknown class has no members, so nothing has to be known about it. -/
theorem Sound.classInfo (h : st.Sound) (cls : ClassId) : st.ClassSound (st.classInfo cls) := by
  cases hinfo : st.classes[cls]? with
  | some info =>
      rw [classInfo_of_getElem? hinfo]
      exact h.classes cls info hinfo
  | none =>
      have hblank : st.classInfo cls = .blank "" := by rw [Store.classInfo, hinfo]; rfl
      rw [hblank]
      exact classSound_blank "" false false

/-- The fields of a class are those that a look-up of their own names finds. -/
theorem ClassSound.mem_fields {info : ClassInfo} (h : st.ClassSound info) {field : FieldInfo} :
    field ∈ info.fields.values ↔ info.fields.find? field.name = some field := by
  constructor
  · intro hfield
    obtain ⟨⟨name, _⟩, hentry, rfl⟩ := List.mem_map.mp hfield
    have hfind := h.keyed.find?_of_mem hentry
    rw [h.named name _ hfind]
    exact hfind
  · intro hfind
    exact List.mem_map.mpr ⟨_, Table.mem_entries_of_find? hfind, rfl⟩

/-- The fields that an instance is given are those that are not static. -/
theorem ClassSound.mem_instanceFields {info : ClassInfo} (h : st.ClassSound info)
    {field : FieldInfo} : field ∈ Interpreter.instanceFields info ↔
      info.fields.find? field.name = some field ∧ field.isStatic = false := by
  rw [Interpreter.instanceFields, List.mem_filter, h.mem_fields, Bool.not_eq_true']

/-! ## Growing -/

theorem Holds.grows {v : Value} (hv : st.Holds v) (hg : st.Grows st') : st'.Holds v := by
  cases v with
  | array id =>
      have hcell : st.arrays[id]? = some st.arrays[id] := Array.getElem?_eq_getElem hv
      obtain ⟨_, hcell', -⟩ := hg.arrays id _ hcell
      exact (Array.getElem?_eq_some_iff.mp hcell').1
  | object id =>
      have hcell : st.objects[id]? = some st.objects[id] := Array.getElem?_eq_getElem hv
      obtain ⟨_, hcell', -⟩ := hg.objects id _ hcell
      exact (Array.getElem?_eq_some_iff.mp hcell').1
  | _ => trivial

theorem Grows.lt_size (hg : st.Grows st') {cls : ClassId} (h : cls < st.classes.size) :
    cls < st'.classes.size := by
  obtain ⟨_, hinfo, -⟩ := hg.classes cls _ (Array.getElem?_eq_getElem h)
  exact (Array.getElem?_eq_some_iff.mp hinfo).1

theorem Grows.shape (hg : st.Grows st') {cls : ClassId} (h : cls < st.classes.size) :
    (st'.classInfo cls).shape = (st.classInfo cls).shape := by
  obtain ⟨info, hinfo, hshape⟩ := hg.classes cls _ (Array.getElem?_eq_getElem h)
  rw [classInfo_of_getElem? hinfo, classInfo_of_getElem? (Array.getElem?_eq_getElem h), hshape]

theorem Grows.fields (hg : st.Grows st') {cls : ClassId} (h : cls < st.classes.size) :
    (st'.classInfo cls).fields = (st.classInfo cls).fields := by
  have hfields := congrArg ClassInfo.fields (hg.shape h)
  exact hfields

/-- A class of the store stays below the same classes. -/
theorem Grows.isA (hg : st.Grows st') (h : st.Sound) {cls : ClassId}
    (hcls : cls < st.classes.size) (name : String) : st'.isA cls name = st.isA cls name := by
  have hancestors : (st'.classInfo cls).ancestors = (st.classInfo cls).ancestors := by
    have := congrArg ClassInfo.ancestors (hg.shape hcls)
    exact this
  have hlineage : ∀ c ∈ st.lineage cls, c < st.classes.size := by
    intro c hc
    rcases List.mem_cons.mp hc with rfl | hc
    · exact hcls
    · exact (h.classInfo cls).ancestors c hc
  have hnames (c : ClassId) (hc : c ∈ st.lineage cls) :
      ((st'.classInfo c).name == name || (st'.classInfo c).implements.contains name) =
        ((st.classInfo c).name == name || (st.classInfo c).implements.contains name) := by
    have hshape := hg.shape (hlineage c hc)
    have hname := congrArg ClassInfo.name hshape
    have himplements := congrArg ClassInfo.implements hshape
    change (st'.classInfo c).name = (st.classInfo c).name at hname
    change (st'.classInfo c).implements = (st.classInfo c).implements at himplements
    rw [hname, himplements]
  have hsame : st'.lineage cls = st.lineage cls := by rw [lineage, lineage, hancestors]
  rw [Store.isA, Store.isA, hsame]
  apply Bool.eq_iff_iff.mpr
  rw [List.any_eq_true, List.any_eq_true]
  constructor
  · rintro ⟨c, hc, hany⟩
    exact ⟨c, hc, (hnames c hc).symm.trans hany⟩
  · rintro ⟨c, hc, hany⟩
    exact ⟨c, hc, (hnames c hc).trans hany⟩

/-- What a type accepts, it accepts for good. -/
theorem Typed.grows (h : st.Sound) (hg : st.Grows st') {ty : Ty} {v : Value}
    (hv : st.Typed ty v) : st'.Typed ty v := by
  obtain ⟨hholds, haccepts⟩ := hv
  refine ⟨hholds.grows hg, ?_⟩
  cases v with
  | array id =>
      have hcell : st.arrays[id]? = some st.arrays[id] := Array.getElem?_eq_getElem hholds
      obtain ⟨cell', hcell', helement, -⟩ := hg.arrays id _ hcell
      cases ty with
      | array element =>
          simp only [Store.accepts, arrayCell, hcell, hcell', Option.getD_some] at haccepts ⊢
          rw [helement]
          exact haccepts
      | _ => cases haccepts
  | object id =>
      have hcell : st.objects[id]? = some st.objects[id] := Array.getElem?_eq_getElem hholds
      obtain ⟨cell', hcell', hcls⟩ := hg.objects id _ hcell
      cases ty with
      | named name =>
          simp only [Store.accepts, objectCell, hcell, hcell', Option.getD_some] at haccepts ⊢
          rw [hcls, hg.isA h (h.objects id _ hcell).cls]
          exact haccepts
      | _ => cases haccepts
  | _ => cases ty <;> exact haccepts

theorem ArraySound.grows (h : st.Sound) (hg : st.Grows st') {cell : ArrayCell}
    (hcell : st.ArraySound cell) : st'.ArraySound cell :=
  fun v hv => (hcell v hv).grows h hg

theorem ObjectSound.grows (h : st.Sound) (hg : st.Grows st') {cell : ObjectCell}
    (hcell : st.ObjectSound cell) : st'.ObjectSound cell := by
  refine ⟨hg.lt_size hcell.cls, fun name v hv => ?_⟩
  obtain ⟨field, hfind, hstatic, htyped⟩ := hcell.fields name v hv
  refine ⟨field, ?_, hstatic, htyped.grows h hg⟩
  rw [hg.fields hcell.cls]
  exact hfind

theorem MethodSound.grows (hg : st.Grows st') {method : MethodInfo}
    (h : st.MethodSound method) : st'.MethodSound method :=
  fun run hrun st'' hg' => h run hrun st'' (hg.trans hg')

theorem ClassSound.grows (hg : st.Grows st') {info : ClassInfo} (h : st.ClassSound info) :
    st'.ClassSound info where
  ancestors cls hcls := hg.lt_size (h.ancestors cls hcls)
  keyed := h.keyed
  named := h.named
  inits name field v hfind hinit := (h.inits name field v hfind hinit).grows hg
  statics name v hfind := (h.statics name v hfind).grows hg
  methods name method hfind := (h.methods name method hfind).grows hg

/-! ## Operations -/

/-- What was in the store before is still sound; only what is new or changed has to be checked. -/
theorem Sound.step (h : st.Sound) (hg : st.Grows st')
    (harrays : ∀ (id : ArrayId) (cell : ArrayCell), st'.arrays[id]? = some cell →
      st.arrays[id]? = some cell ∨ st'.ArraySound cell)
    (hobjects : ∀ (id : ObjectId) (cell : ObjectCell), st'.objects[id]? = some cell →
      st.objects[id]? = some cell ∨ st'.ObjectSound cell)
    (hclasses : ∀ (cls : ClassId) (info : ClassInfo), st'.classes[cls]? = some info →
      st.classes[cls]? = some info ∨ st'.ClassSound info)
    (hnames : ∀ name cls, st'.findClass? name = some cls →
      st.findClass? name = some cls ∨ cls < st'.classes.size) : st'.Sound where
  arrays id cell hcell := by
    rcases harrays id cell hcell with hold | hnew
    · exact (h.arrays id cell hold).grows h hg
    · exact hnew
  objects id cell hcell := by
    rcases hobjects id cell hcell with hold | hnew
    · exact (h.objects id cell hold).grows h hg
    · exact hnew
  classes cls info hinfo := by
    rcases hclasses cls info hinfo with hold | hnew
    · exact (h.classes cls info hold).grows hg
    · exact hnew
  names name cls hname := by
    rcases hnames name cls hname with hold | hnew
    · exact hg.lt_size (h.names name cls hold)
    · exact hnew

theorem Sound.newArray (h : st.Sound) {element : Ty} {items : Array Value}
    (hitems : ∀ v ∈ items, st.Typed element v) : (st.newArray element items).2.Sound := by
  have hg := st.grows_newArray element items
  refine h.step hg (fun id cell hcell => ?_) (fun _ _ => Or.inl) (fun _ _ => Or.inl)
    fun _ _ => Or.inl
  simp only [Store.newArray, Array.getElem?_push] at hcell
  split at hcell
  · obtain rfl := Option.some.inj hcell
    exact Or.inr fun v hv => (hitems v hv).grows h hg
  · exact Or.inl hcell

theorem Sound.newObject (h : st.Sound) {cls : ClassId} (hcls : cls < st.classes.size) :
    (st.newObject cls).2.Sound := by
  refine h.step (st.grows_newObject cls) (fun _ _ => Or.inl) (fun id cell hcell => ?_)
    (fun _ _ => Or.inl) fun _ _ => Or.inl
  simp only [Store.newObject, Array.getElem?_push] at hcell
  split at hcell
  · obtain rfl := Option.some.inj hcell
    exact Or.inr ⟨hcls, fun _ _ hentry => absurd hentry List.not_mem_nil⟩
  · exact Or.inl hcell

theorem Sound.putItem (h : st.Sound) {id : ArrayId} {v : Value} (position : Nat)
    (hv : st.Typed (st.arrayCell id).element v) : (st.putItem id position v).Sound := by
  have hg := st.grows_putItem id position v
  refine h.step hg (fun other cell hcell => ?_) (fun _ _ => Or.inl) (fun _ _ => Or.inl)
    fun _ _ => Or.inl
  simp only [Store.putItem, Array.getElem?_modify] at hcell
  split at hcell
  · next heq =>
      subst heq
      obtain ⟨old, hold, rfl⟩ := Option.map_eq_some_iff.mp hcell
      have helement : (st.arrayCell id).element = old.element := by rw [arrayCell, hold]; rfl
      refine Or.inr fun w hw => ?_
      rcases Array.mem_or_eq_of_mem_setIfInBounds hw with hw | rfl
      · exact (h.arrays id old hold w hw).grows h hg
      · exact (helement ▸ hv).grows h hg
  · exact Or.inl hcell

theorem Sound.putField (h : st.Sound) {id : ObjectId} {name : String} {v : Value}
    {field : FieldInfo}
    (hfind : (st.classInfo (st.objectCell id).cls).fields.find? name = some field)
    (hstatic : field.isStatic = false) (hv : st.Typed field.ty v) :
    (st.putField id name v).Sound := by
  have hg := st.grows_putField id name v
  refine h.step hg (fun _ _ => Or.inl) (fun other cell hcell => ?_) (fun _ _ => Or.inl)
    fun _ _ => Or.inl
  simp only [Store.putField, Array.getElem?_modify] at hcell
  split at hcell
  · next heq =>
      subst heq
      obtain ⟨old, hold, rfl⟩ := Option.map_eq_some_iff.mp hcell
      have hcls : (st.objectCell id).cls = old.cls := by rw [objectCell, hold]; rfl
      have hsound := (h.objects id old hold).grows h hg
      refine Or.inr ⟨hsound.cls, fun other w hentry => ?_⟩
      rcases Table.mem_insert hentry with heq | hentry
      · obtain ⟨rfl, rfl⟩ := Prod.mk.inj heq
        exact ⟨field, hcls ▸ hfind, hstatic, hv.grows h hg⟩
      · exact hsound.fields other w hentry
  · exact Or.inl hcell

theorem Sound.putStatic (h : st.Sound) (cls : ClassId) (name : String) {v : Value}
    (hv : st.Holds v) : (st.putStatic cls name v).Sound := by
  have hg := st.grows_putStatic cls name v
  refine h.step hg (fun _ _ => Or.inl) (fun _ _ => Or.inl) (fun other info hinfo => ?_)
    fun _ _ => Or.inl
  simp only [Store.putStatic, Array.getElem?_modify] at hinfo
  split at hinfo
  · next heq =>
      subst heq
      obtain ⟨old, hold, rfl⟩ := Option.map_eq_some_iff.mp hinfo
      have hsound := (h.classes cls old hold).grows hg
      refine Or.inr { hsound with statics := fun other w hfind => ?_ }
      rw [Table.find?_insert] at hfind
      split at hfind
      · obtain rfl := Option.some.inj hfind
        exact hv.grows hg
      · exact hsound.statics other w hfind
  · exact Or.inl hinfo

theorem Sound.enrollClass (h : st.Sound) {info : ClassInfo} (hinfo : st.ClassSound info) :
    (st.enrollClass info).2.Sound := by
  have hg := st.grows_enrollClass info
  refine h.step hg (fun _ _ => Or.inl) (fun _ _ => Or.inl) (fun cls other hother => ?_)
    fun name cls hname => ?_
  · simp only [Store.enrollClass, Array.getElem?_push] at hother
    split at hother
    · obtain rfl := Option.some.inj hother
      exact Or.inr (hinfo.grows hg)
    · exact Or.inl hother
  · simp only [Store.enrollClass, findClass?, Table.find?_insert] at hname
    split at hname
    · obtain rfl := Option.some.inj hname
      exact Or.inr (by simp [Store.enrollClass])
    · exact Or.inl hname

/-- What a program declares fits into the store. -/
theorem Sound.built (h : st.Sound) {info : ClassInfo} (hbuilt : info.Built st) :
    st.ClassSound info := by
  induction hbuilt with
  | blank name isStatic isInterface => exact classSound_blank name isStatic isInterface
  | implementing built name ih => exact { ih with }
  | @inheriting info built name cls hcls ih =>
      have hparent := h.classInfo cls
      refine { hparent with statics := ih.statics, ancestors := fun ancestor hmem => ?_ }
      rcases List.mem_cons.mp hmem with rfl | hmem
      · exact h.names _ _ hcls
      · exact hparent.ancestors ancestor hmem
  | withField built field hinit ih =>
      refine { ih with
        keyed := ih.keyed.insert _ _
        named := fun name other hfind => ?_
        inits := fun name other v hfind hvalue => ?_ }
      · rw [Table.find?_insert] at hfind
        split at hfind
        · next heq =>
            obtain rfl := Option.some.inj hfind
            exact heq.symm
        · exact ih.named name other hfind
      · rw [Table.find?_insert] at hfind
        split at hfind
        · obtain rfl := Option.some.inj hfind
          rw [hinit] at hvalue
          cases hvalue
        · exact ih.inits name other v hfind hvalue
  | withMethod built method hbody ih =>
      refine { ih with methods := fun name other hfind => ?_ }
      rw [Table.find?_insert] at hfind
      split at hfind
      · obtain rfl := Option.some.inj hfind
        exact fun run hrun => absurd hrun (hbody run)
      · exact ih.methods name other hfind
  | withConstructor built decl ih =>
      cases decl with
      | none => exact ih
      | some decl => exact { ih with }
  | withConstant built name value ih =>
      refine { ih with
        keyed := ih.keyed.insert _ _
        named := fun other field hfind => ?_
        inits := fun other field v hfind hvalue => ?_
        statics := fun other v hfind => ?_ }
      · rw [ClassInfo.withConstant, Table.find?_insert] at hfind
        split at hfind
        · next heq =>
            obtain rfl := Option.some.inj hfind
            exact heq.symm
        · exact ih.named other field hfind
      · rw [ClassInfo.withConstant, Table.find?_insert] at hfind
        split at hfind
        · obtain rfl := Option.some.inj hfind
          cases hvalue
          trivial
        · exact ih.inits other field v hfind hvalue
      · rw [ClassInfo.withConstant, Table.find?_insert] at hfind
        split at hfind
        · obtain rfl := Option.some.inj hfind
          trivial
        · exact ih.statics other v hfind

end Store

end ClassScript
