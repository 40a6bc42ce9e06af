import ClassScript.Proofs.Balance
import ClassScript.Proofs.Typing.Store

/-!
# Static fields

The value of a static field is kept in the class that declared the field. Which class that is stands
in the tables of fields; a read or a write, though, goes to the nearest class of the lineage that
has a value of that name. Once the declaring class has its value, the two agree. They do not while a
class that redeclares a static field of an ancestor has no value of its own yet: until then the
value of the ancestor is read in its place, and overwritten, whatever the ancestor's type for it is.
-/

namespace ClassScript

/-- The state with which the outcome ends, if it ends. -/
def Outcome.state? {σ ε α : Type} : Outcome σ ε α → Option σ
  | .ok _ s | .error _ s => some s
  | .exhausted => none

theorem Outcome.Leaves.of_state? {σ ε α : Type} {P : σ → Prop} {o : Outcome σ ε α} {s : σ}
    (h : o.Leaves P) (hs : o.state? = some s) : P s := by
  cases o with
  | ok _ _ | error _ _ => exact Option.some.inj hs ▸ h
  | exhausted => cases hs

/-! ## Where values are kept -/

/-- The class has values only for static fields that it declared, and every other field of it is a
field of its parent. -/
structure ClassInfo.Placed (st : Store) (info : ClassInfo) : Prop where
  keyed : info.fields.WellKeyed
  named : ∀ {name field}, info.fields.find? name = some field → field.name = name
  own : ∀ {name}, info.statics.contains name = true →
    ∃ field, info.fields.find? name = some field ∧ field.owner = info.name
  inherited : ∀ {name field}, info.fields.find? name = some field → field.owner ≠ info.name →
    ∃ parent, parent < st.classes.size ∧ info.ancestors = st.lineage parent ∧
      (st.classInfo parent).fields.find? name = some field

structure Store.Placed (st : Store) : Prop where
  classes : ∀ {cls : ClassId} {info}, st.classes[cls]? = some info → info.Placed st
  names : ∀ {name cls}, st.findClass? name = some cls → cls < st.classes.size

namespace ClassInfo.Placed

variable {st st' : Store} {info info' : ClassInfo}

theorem blank (name : String) (isStatic isInterface : Bool) :
    { ClassInfo.blank name with isStatic, isInterface }.Placed st where
  keyed := Table.wellKeyed_empty
  named h := by cases h
  own h := by cases h
  inherited h := by cases h

theorem grows (h : info.Placed st) (hg : st.Grows st') : info.Placed st' where
  keyed := h.keyed
  named := h.named
  own := h.own
  inherited hfind howner := by
    obtain ⟨parent, hlt, hancestors, hparent⟩ := h.inherited hfind howner
    have hshape := congrArg ClassInfo.ancestors (hg.shape hlt)
    change (st'.classInfo parent).ancestors = (st.classInfo parent).ancestors at hshape
    refine ⟨parent, hg.lt_size hlt, ?_, (hg.fields hlt).symm ▸ hparent⟩
    rw [hancestors, Store.lineage, Store.lineage, hshape]

/-- The values themselves do not matter, only for which fields there are some. -/
theorem withStatic (h : info.Placed st) {name : String} (v : Value)
    (hown : ∃ field, info.fields.find? name = some field ∧ field.owner = info.name) :
    { info with statics := info.statics.insert name v }.Placed st where
  keyed := h.keyed
  named := h.named
  own {other} hcontains := by
    rw [Table.contains, Table.find?_insert] at hcontains
    split at hcontains
    next heq => exact heq ▸ hown
    next => exact h.own hcontains
  inherited := h.inherited

/-- A class declares a field of its own, in place of an inherited one. -/
theorem withField (h : info.Placed st) (field : FieldInfo) (howner : field.owner = info.name) :
    { info with fields := info.fields.insert field.name field }.Placed st where
  keyed := h.keyed.insert _ _
  named {name other} hfind := by
    rw [Table.find?_insert] at hfind
    split at hfind
    next heq =>
        obtain rfl := Option.some.inj hfind
        exact heq.symm
    next => exact h.named hfind
  own {name} hcontains := by
    obtain ⟨other, hfind, hother⟩ := h.own hcontains
    by_cases heq : name = field.name
    · exact ⟨field, by rw [Table.find?_insert, if_pos heq], howner⟩
    · exact ⟨other, by rw [Table.find?_insert, if_neg heq, hfind], hother⟩
  inherited {name other} hfind hother := by
    rw [Table.find?_insert] at hfind
    split at hfind
    next =>
        obtain rfl := Option.some.inj hfind
        exact absurd howner hother
    next => exact h.inherited hfind hother

end ClassInfo.Placed

namespace Store.Placed

variable {st st' : Store}

theorem empty : Store.empty.Placed where
  classes h := by cases h
  names h := by cases h

theorem classInfo (h : st.Placed) (cls : ClassId) : (st.classInfo cls).Placed st := by
  cases hinfo : st.classes[cls]? with
  | some info =>
      rw [classInfo_of_getElem? hinfo]
      exact h.classes hinfo
  | none =>
      have hblank : st.classInfo cls = .blank "" := by rw [Store.classInfo, hinfo]; rfl
      rw [hblank]
      exact .blank "" false false

/-- What was in the store before stays in place; only what is new or changed has to be checked. -/
theorem step (h : st.Placed) (hg : st.Grows st')
    (hclasses : ∀ (cls : ClassId) (info : ClassInfo), st'.classes[cls]? = some info →
      st.classes[cls]? = some info ∨ info.Placed st')
    (hnames : ∀ name cls, st'.findClass? name = some cls →
      st.findClass? name = some cls ∨ cls < st'.classes.size) : st'.Placed where
  classes {cls info} hinfo := by
    rcases hclasses cls info hinfo with hold | hnew
    · exact (h.classes hold).grows hg
    · exact hnew
  names {name cls} hname := by
    rcases hnames name cls hname with hold | hnew
    · exact hg.lt_size (h.names hold)
    · exact hnew

theorem enrollClass (h : st.Placed) {info : ClassInfo} (hinfo : info.Placed st) :
    (st.enrollClass info).2.Placed := by
  have hg := st.grows_enrollClass info
  refine h.step hg (fun cls other hother => ?_) fun name cls hname => ?_
  · simp only [Store.enrollClass, Array.getElem?_push] at hother
    split at hother
    · obtain rfl := Option.some.inj hother
      exact .inr (hinfo.grows hg)
    · exact .inl hother
  · simp only [Store.enrollClass, findClass?, Table.find?_insert] at hname
    split at hname
    · obtain rfl := Option.some.inj hname
      exact .inr (by simp [Store.enrollClass])
    · exact .inl hname

theorem putStatic (h : st.Placed) (cls : ClassId) {name : String} (v : Value)
    (hown : ∀ info, st.classes[cls]? = some info →
      ∃ field, info.fields.find? name = some field ∧ field.owner = info.name) :
    (st.putStatic cls name v).Placed := by
  have hg := st.grows_putStatic cls name v
  refine h.step hg (fun other info hinfo => ?_) fun _ _ => .inl
  simp only [Store.putStatic, Array.getElem?_modify] at hinfo
  split at hinfo
  next heq =>
      subst heq
      obtain ⟨old, hold, rfl⟩ := Option.map_eq_some_iff.mp hinfo
      exact .inr (((h.classes hold).grows hg).withStatic v (hown old hold))
  next => exact .inl hinfo

end Store.Placed

/-! ## Declared classes -/

namespace ClassInfo

variable {st : Store} {info info' : ClassInfo}

theorem Placed.addSupertype (hst : st.Placed) (h : info.Placed st)
    (hnone : info.statics = .empty) {name : String} (hok : addSupertype st info name = .ok info') :
    info'.Placed st ∧ info'.statics = .empty := by
  unfold ClassInfo.addSupertype at hok
  cases hcls : st.getClass name with
  | error cause =>
      rw [hcls] at hok
      cases hok
  | ok cls =>
      have hlt := hst.names ((st.getClass_answers name).of_ok hcls)
      have hparent := hst.classInfo cls
      simp only [hcls, bind, Except.bind] at hok
      split at hok
      · cases hok
        exact ⟨{ h with }, hnone⟩
      · split at hok
        · cases hok
        · split at hok
          · cases hok
          · cases hok
            refine ⟨⟨hparent.keyed, hparent.named, fun hcontains => ?_, fun hfind _ => ?_⟩, hnone⟩
            · change info.statics.contains _ = true at hcontains
              rw [hnone] at hcontains
              cases hcontains
            · exact ⟨cls, hlt, rfl, hfind⟩

theorem Placed.addField (h : info.Placed st) {decl : FieldDecl}
    (hok : addField info decl = .ok info') : info'.Placed st := by
  unfold ClassInfo.addField at hok
  dsimp only at hok
  split at hok
  · cases hok
  · cases hok
    exact h.withField { name := decl.decl.name, owner := info.name, .. } rfl

theorem Placed.addMethod (h : info.Placed st) {decl : MethodDecl}
    (hok : addMethod info decl = .ok info') : info'.Placed st := by
  unfold ClassInfo.addMethod at hok
  dsimp only at hok
  split at hok
  · cases hok
  · cases hok
    exact { h with }

theorem Placed.ofDecl (hst : st.Placed) {decl : ClassDecl} (h : ofDecl st decl = .ok info) :
    info.Placed st := by
  obtain ⟨header, withFields, withMethods, hheader, hfields, hmethods, rfl⟩ := ofDecl_stages h
  have placed₀ : header.Placed st ∧ header.statics = .empty :=
    foldlM_ok (fun _ _ _ placed hok => Placed.addSupertype hst placed.1 placed.2 hok)
      ⟨Placed.blank decl.name decl.isStatic false, rfl⟩ hheader
  have placed₁ : withFields.Placed st :=
    foldlM_ok (fun _ _ _ placed hok => Placed.addField placed hok) placed₀.1 hfields
  have placed₂ : withMethods.Placed st :=
    foldlM_ok (fun _ _ _ placed hok => Placed.addMethod placed hok) placed₁ hmethods
  cases decl.constructor with
  | none => exact placed₂
  | some _ => exact { placed₂ with }

theorem Placed.ofInterface (decl : InterfaceDecl) : (ofInterface decl).Placed st := by
  have h (signatures : List MethodSignature) {info : ClassInfo} (placed : info.Placed st) :
      (signatures.foldl ClassInfo.addSignature info).Placed st := by
    induction signatures generalizing info with
    | nil => exact placed
    | cons signature rest ih =>
        have hnext : (info.addSignature signature).Placed st := { placed with }
        exact ih hnext
  exact h decl.methods (.blank decl.name false true)

theorem Placed.addMembers (h : info.Placed st) {next : Option Int64}
    {members : List (String × Option Int64)} (hok : addMembers info next members = .ok info') :
    info'.Placed st := by
  induction members generalizing info next with
  | nil =>
      cases hok
      exact h
  | cons member rest ih =>
      obtain ⟨name, explicit⟩ := member
      unfold ClassInfo.addMembers at hok
      split at hok
      · cases hok
      · split at hok
        next value _ =>
            refine ih ?_ hok
            let field : FieldInfo :=
              { name, ty := .int, access := .everyone, isStatic := true, isConst := true,
                accessors := { getter := false, setter := false }, owner := info.name,
                init := .value (.int value) }
            refine (h.withField field rfl).withStatic (.int value) ⟨field, ?_, rfl⟩
            rw [Table.find?_insert, if_pos rfl]
        next => cases hok

theorem Declared.placed (h : info.Declared st) (hst : st.Placed) : info.Placed st := by
  cases h with
  | ofClass h => exact .ofDecl hst h
  | ofInterface decl => exact .ofInterface decl
  | ofEnum h => exact (Placed.blank _ true false).addMembers h

end ClassInfo

/-! ## The owner of a field -/

namespace Store

variable {st : Store} {name : String} {field : FieldInfo}

/-- The class that declared a field is in the lineage, and the search for a value of the field comes
to it before it comes to any value. -/
theorem Placed.owner (h : st.Placed) {cls : ClassId}
    (hfind : (st.classInfo cls).fields.find? name = some field) :
    ∃ owner ∈ st.lineage cls, st.className owner = field.owner ∧
      (st.classInfo owner).fields.find? name = some field ∧
      st.staticHolder? cls name = st.staticHolder? owner name := by
  by_cases howner : field.owner = st.className cls
  · exact ⟨cls, List.mem_cons_self, howner.symm, hfind, rfl⟩
  · obtain ⟨parent, -, hancestors, hparent⟩ := (h.classInfo cls).inherited hfind howner
    obtain ⟨owner, hmem, hname, hentry, hsame⟩ := h.owner hparent
    have hlineage : st.lineage cls = cls :: st.lineage parent := by rw [lineage, hancestors]
    have hnone : ¬ (st.classInfo cls).statics.contains name = true := by
      intro hcontains
      obtain ⟨other, hother, hown⟩ := (h.classInfo cls).own hcontains
      obtain rfl := Option.some.inj (hother.symm.trans hfind)
      exact howner hown
    refine ⟨owner, hlineage ▸ List.mem_cons_of_mem _ hmem, hname, hentry, ?_⟩
    rw [← hsame, staticHolder?, hlineage]
    exact List.find?_cons_of_neg hnone
termination_by (st.classInfo cls).ancestors.length
decreasing_by
  -- The parent has one ancestor less.
  rw [hancestors]
  exact Nat.lt_succ_self _

/-- The class has no value for the field, but an ancestor of it has one of that name. -/
def Exposes (st : Store) (owner : ClassId) (name : String) : Prop :=
  (st.classInfo owner).statics.contains name = false ∧
    ∃ ancestor ∈ (st.classInfo owner).ancestors,
      (st.classInfo ancestor).statics.contains name = true

theorem holder_eq_or_exposes {owner holder : ClassId}
    (h : st.staticHolder? owner name = some holder) : holder = owner ∨ st.Exposes owner name := by
  rw [staticHolder?, lineage, List.find?_cons] at h
  split at h
  next => exact .inl (Option.some.inj h).symm
  next hnone =>
      have hholds := List.find?_some h
      exact .inr ⟨hnone, holder, List.mem_of_find?_eq_some h, hholds⟩

end Store

/-! ## Reading and writing -/

namespace Session

variable {s : Session} {cls : ClassId} {name : String}

theorem readStatic_ok {v : Value} (h : s.readStatic cls name = .ok v) :
    s.store.staticValue? cls name = some v := by
  have hanswers : Answers (fun v => s.store.staticValue? cls name = some v)
      (s.readStatic cls name) := by
    refine (s.staticField_answers cls name).bind fun _ _ => ?_
    split
    · assumption
    · rfl
  exact hanswers.of_ok h

/-- A write that is allowed goes where the search ends, and the field admits it. -/
theorem staticTarget_ok {v : Value} {holder : ClassId}
    (h : s.staticTarget cls name v = .ok holder) :
    s.store.staticHolder? cls name = some holder ∧
      ∃ field, (s.store.classInfo cls).fields.find? name = some field ∧ field.isConst = false ∧
        s.store.accepts field.ty v = true := by
  have hwrite (field : FieldInfo) : Answers
      (fun _ => field.isConst = false ∧ s.store.accepts field.ty v = true)
      (s.checkWrite cls field name v) := by
    unfold checkWrite
    split
    · rfl
    next hconst =>
        exact (s.store.check_answers field.ty v).mono fun _ haccepts =>
          ⟨Bool.eq_false_iff.mpr hconst, haccepts⟩
  have hanswers : Answers (fun holder => s.store.staticHolder? cls name = some holder ∧
      ∃ field, (s.store.classInfo cls).fields.find? name = some field ∧ field.isConst = false ∧
        s.store.accepts field.ty v = true) (s.staticTarget cls name v) := by
    refine (s.staticField_answers cls name).bind fun field hfield => ?_
    refine (hwrite field).bind fun _ hadmits => ?_
    split
    next holder hholder => exact ⟨hholder, field, hfield.1, hadmits⟩
    next => rfl
  exact hanswers.of_ok h

/-- The store that a write leaves: the field is asked for and has to admit the value, and then the
value is replaced where the lineage holds one. -/
theorem staticTarget_map (v : Value) :
    (s.staticTarget cls name v).map (fun holder => s.store.putStatic holder name v) = (do
      let field ← s.staticField cls name
      s.checkWrite cls field name v
      (s.store.setStatic? cls name v).elim (.error (s.unknownMember cls name)) .ok) := by
  simp only [staticTarget, Store.setStatic?, bind, Except.bind]
  cases s.staticField cls name with
  | error cause => rfl
  | ok field =>
      dsimp only
      cases s.checkWrite cls field name v with
      | error cause => rfl
      | ok _ => cases s.store.staticHolder? cls name <;> rfl

theorem writeStatic_ok {v : Value} {line : Nat} {s' : Session}
    (h : Eval.writeStatic cls name v line s = .ok () s') :
    ∃ holder, s.staticTarget cls name v = .ok holder ∧
      s' = { s with store := s.store.putStatic holder name v } := by
  obtain ⟨holder, s₁, hask, hput⟩ := Action.ok_of_bind h
  obtain ⟨rfl, htarget⟩ := Eval.ok_of_ask hask
  cases hput
  exact ⟨holder, htarget, rfl⟩

/-- The field of the class is a field that the owner declared. Through the class, the value of the
owner is read and overwritten, unless the owner exposes that of an ancestor; what the field does not
admit is never written. -/
structure Owned (s : Session) (cls : ClassId) (name : String) (field : FieldInfo)
    (owner : ClassId) : Prop where
  lineage : owner ∈ s.store.lineage cls
  className : s.store.className owner = field.owner
  entry : (s.store.classInfo owner).fields.find? name = some field
  read : ∀ v, s.readStatic cls name = .ok v →
    (s.store.classInfo owner).statics.find? name = some v ∨ s.store.Exposes owner name
  write : ∀ v line s', Eval.writeStatic cls name v line s = .ok () s' →
    field.isConst = false ∧ s.store.accepts field.ty v = true ∧
      (s' = { s with store := s.store.putStatic owner name v } ∨ s.store.Exposes owner name)

/-- Every field of every class is owned by the class that declared it. -/
def StaticsOwned (s : Session) : Prop :=
  ∀ cls name field, (s.store.classInfo cls).fields.find? name = some field →
    ∃ owner, s.Owned cls name field owner

noncomputable instance : DecidablePred StaticsOwned := Classical.decPred _

end Session

theorem Store.Placed.staticsOwned {s : Session} (h : s.store.Placed) : s.StaticsOwned := by
  intro cls name field hfind
  obtain ⟨owner, hmem, hname, hentry, hsame⟩ := h.owner hfind
  refine ⟨owner, hmem, hname, hentry, fun v hread => ?_, fun v line s' hwrite => ?_⟩
  · obtain ⟨holder, hholder, hvalue⟩ := Option.bind_eq_some_iff.mp (Session.readStatic_ok hread)
    rcases Store.holder_eq_or_exposes (hsame.symm.trans hholder) with rfl | hexposes
    · exact .inl hvalue
    · exact .inr hexposes
  · obtain ⟨holder, htarget, hs'⟩ := Session.writeStatic_ok hwrite
    obtain ⟨hholder, other, hother, hadmits⟩ := Session.staticTarget_ok htarget
    obtain rfl := Option.some.inj (hother.symm.trans hfind)
    refine ⟨hadmits.1, hadmits.2, ?_⟩
    rcases Store.holder_eq_or_exposes (hsame.symm.trans hholder) with rfl | hexposes
    · exact .inl hs'
    · exact .inr hexposes

/-! ## Every run keeps values in place -/

namespace Discipline

/-- Static values are in their places. -/
def placement : Discipline where
  Inv s := s.store.Placed
  Val _ _ := True
  Err _ _ := True
  Cls _ _ := True
  Init st cls field := ∃ info, st.classes[cls]? = some info ∧
    info.fields.find? field.name = some field
  Meth _ _ := True

theorem placement_laws : placement.Laws where
  val_grows _ h := h
  err_grows _ h := h
  cls_grows _ h := h
  init_grows {st st' cls field} hg hinit := by
    obtain ⟨info, hinfo, hfind⟩ := hinit
    obtain ⟨info', hinfo', hshape⟩ := hg.classes cls info hinfo
    have hfields := congrArg ClassInfo.fields hshape
    change info'.fields = info.fields at hfields
    exact ⟨info', hinfo', hfields ▸ hfind⟩
  meth_grows _ h := h
  val_plain _ := trivial
  val_stored _ _ := trivial
  val_self _ _ _ := trivial
  cls_named _ _ := trivial
  init_field {s cls field} hs _ hmem := by
    cases hinfo : s.store.classes[cls]? with
    | none =>
        rw [Store.classInfo, hinfo] at hmem
        cases hmem
    | some info =>
        rw [Store.classInfo_of_getElem? hinfo] at hmem
        obtain ⟨⟨name, _⟩, hentry, rfl⟩ := List.mem_map.mp hmem
        have hfind := (hs.classes hinfo).keyed.find?_of_mem hentry
        exact ⟨info, hinfo, by rw [(hs.classes hinfo).named hfind]; exact hfind⟩
  init_value _ _ := trivial
  meth_found _ _ := trivial
  err_ordinary _ := trivial
  err_thrown := Iff.rfl
  native _ _ _ _ _ := ⟨fun _ _ => trivial, fun _ _ => trivial⟩
  enter hs := hs
  exit _ _ hs _ := hs
  call hs _ _ := hs
  finish _ _ hs _ := hs
  declare hs _ _ := hs
  assign hs _ _ := hs
  newArray {s _ _} hs _ :=
    ⟨hs.step (s.store.grows_newArray _ _) (fun _ _ => .inl) fun _ _ => .inl, trivial⟩
  putItem {s _ _ _ _ _} hs _ _ :=
    hs.step (s.store.grows_putItem _ _ _) (fun _ _ => .inl) fun _ _ => .inl
  newObject {s _} hs _ :=
    ⟨hs.step (s.store.grows_newObject _) (fun _ _ => .inl) fun _ _ => .inl, trivial⟩
  initField {s _ _ _ _} _ hs _ _ _ _ _ :=
    hs.step (s.store.grows_putField _ _ _) (fun _ _ => .inl) fun _ _ => .inl
  writeField {s _ _ _} hs _ _ :=
    hs.step (s.store.grows_putField _ _ _) (fun _ _ => .inl) fun _ _ => .inl
  enroll hs hinfo _ := ⟨hs.enrollClass (hinfo.placed hs), trivial⟩
  -- A class initializes only the fields that it declared.
  initStatic {s cls info field v} hs hinit _ hcls howner _ _ := by
    refine hs.putStatic cls v fun info' hinfo' => ?_
    obtain ⟨info'', hinfo'', hfind⟩ := hinit
    obtain rfl := Option.some.inj (hinfo'.symm.trans hinfo'')
    obtain rfl := Option.some.inj (hinfo'.symm.trans hcls)
    exact ⟨field, hfind, howner⟩
  -- A write goes only where a value is already.
  writeStatic {s cls name v holder} hs _ htarget := by
    refine hs.putStatic holder v fun info hinfo => ?_
    have hcontains := List.find?_some (Session.staticTarget_ok htarget).1
    rw [Store.classInfo_of_getElem? hinfo] at hcontains
    exact (hs.classes hinfo).own hcontains
  functions hs := hs
  console hs := hs
  included hs := hs

end Discipline

/-- Static values are in their places after any sequence of programs, whether they succeed or fail,
and whenever a part of a program is run, so what any `other` interpreter would do elsewhere makes no
difference. There every field is owned by the class that declared it. -/
theorem statics_stay_owned {s : Session} (h : s.store.Placed) :
    s.StaticsOwned ∧
    (∀ fuel program, (runProgram fuel program s).Leaves fun s' => s'.store.Placed) ∧
    ∀ fuel program other,
      (interpreterWithin Session.StaticsOwned other fuel).execProgram program s =
        runProgram fuel program s := by
  have L := Discipline.placement_laws
  refine ⟨h.staticsOwned, fun fuel program => ?_, fun fuel program other => ?_⟩
  · have hconforms := L.execProgram_conforms (L.interpreter_runs fuel) h program
    exact hconforms.ends.mono (fun _ _ hok => hok.2.1) fun _ _ herror => herror.2.1
  · have hruns := L.interpreterWithin_runs (fun s hs => Store.Placed.staticsOwned hs) other fuel
    exact (L.execProgram_conforms hruns h program).eq.symm

/-- The declaration of a class with one static field. -/
def ClassDecl.ofStatic (name : String) (supertypes : List String) (field : String) (ty : Ty)
    (value : Expr) : ClassDecl where
  name := name
  isStatic := false
  supertypes := supertypes
  fields :=
    [{ decl := { name := field, ty, length := none, initializer := some value, isConst := false,
                 line := 1 }
       access := .everyone, isStatic := true, accessors := { getter := false, setter := false } }]
  methods := []
  constructor := none
  line := 1

/-- A class that redeclares a static field of its parent, and has a value of its own for it. -/
theorem statics_stay_owned_redeclared :
    let program : Program :=
      [.classType (.ofStatic "A" [] "n" .int (.literal (.int 1) 1)),
        .classType (.ofStatic "B" ["A"] "n" .string (.literal (.string "x") 1))]
    let s := Session.start (fun _ => .error .unknownModule) []
    s.store.Placed ∧ ∃ s', (runProgram 9 program s).state? = some s' ∧ s'.store.Placed ∧
      s'.StaticsOwned := by
  intro program s
  have hstart : s.store.Placed := .empty
  have hends : (runProgram 9 program s).state?.isSome = true := by decide +kernel
  obtain ⟨s', hs'⟩ := Option.isSome_iff_exists.mp hends
  obtain ⟨-, hruns, -⟩ := statics_stay_owned hstart
  have hplaced : s'.store.Placed := (hruns 9 _).of_state? hs'
  exact ⟨hstart, s', hs', hplaced, (statics_stay_owned hplaced).1⟩

/-- Before it has its own value, what it writes to the field reaches the parent, where the value is
not of the type that the parent declared. -/
theorem redeclared_static_overwrites_parent :
    let overwrite : Expr := .assign (.var "n") (.literal (.string "x") 1) 1
    let program : Program :=
      [.classType (.ofStatic "A" [] "n" .int (.literal (.int 1) 1)),
        .classType (.ofStatic "B" ["A"] "n" .string overwrite)]
    let s := Session.start (fun _ => .error .unknownModule) []
    (runProgram 9 program s).state?.map (fun s' =>
      let parent := s'.store.classInfo 0
      (parent.name, (parent.fields.find? "n").map FieldInfo.ty,
        (parent.statics.find? "n").map s'.store.typeOf)) =
      some ("A", some .int, some .string) := by
  decide +kernel

end ClassScript
