import ClassScript.Proofs.Inheritance.History
import ClassScript.Proofs.Statics

/-!
# Subtyping

Whether a class is below another one is decided by names: those of the classes of its lineage, and
those of the interfaces that these implement. It is a sound notion of subtyping as long as a name
means one class, what a class implements are interfaces, and what it extends is not. Declarations
see to that, so subtyping is sound in every session whose other classes have no supertypes.
-/

namespace ClassScript

/-! ## What a description says of the classes above -/

namespace ClassInfo

variable {st st' : Store} {info info' : ClassInfo}

/-- The class stands at the top. -/
structure IsRoot (info : ClassInfo) : Prop where
  ancestors : info.ancestors = []
  implements : info.implements = []

/-- The class extends `parent`, which is no interface, and has all its members. -/
structure Below (st : Store) (info : ClassInfo) (parent : ClassId) : Prop where
  lt_size : parent < st.classes.size
  extensible : (st.classInfo parent).isInterface = false
  ancestors : info.ancestors = st.lineage parent
  fields : (st.classInfo parent).fields.names ⊆ info.fields.names
  methods : (st.classInfo parent).methods.names ⊆ info.methods.names

/-- The class implements interfaces and extends at most one class; an interface does neither. -/
structure Derived (st : Store) (info : ClassInfo) : Prop where
  implements : ∀ name ∈ info.implements,
    ∃ cls, st.findClass? name = some cls ∧ (st.classInfo cls).isInterface = true
  parent : info.ancestors = [] ∨ ∃ parent, info.Below st parent
  interface : info.isInterface = true → info.IsRoot

theorem IsRoot.derived (h : info.IsRoot) : info.Derived st where
  implements _ hname := absurd (h.implements ▸ hname) List.not_mem_nil
  parent := .inl h.ancestors
  interface _ := h

/-- Classes of one shape differ at most in constructor, statics and the values of these. -/
theorem parts_of_shape (h : info'.shape = info.shape) :
    info'.name = info.name ∧ info'.fields = info.fields ∧ info'.methods = info.methods ∧
      info'.isInterface = info.isInterface ∧ info'.implements = info.implements ∧
      info'.ancestors = info.ancestors := by
  obtain ⟨hname, hfields, hmethods, -, -, hinterface, himplements, hancestors, -⟩ :=
    ClassInfo.mk.inj h
  exact ⟨hname, hfields, hmethods, hinterface, himplements, hancestors⟩

theorem Below.of_shape {parent : ClassId} (h : info.Below st parent)
    (hshape : info'.shape = info.shape) : info'.Below st parent := by
  obtain ⟨-, hfields, hmethods, -, -, hancestors⟩ := parts_of_shape hshape
  exact ⟨h.lt_size, h.extensible, hancestors.trans h.ancestors, hfields ▸ h.fields,
    hmethods ▸ h.methods⟩

theorem Below.grows {parent : ClassId} (h : info.Below st parent) (hg : st.Grows st') :
    info.Below st' parent := by
  obtain ⟨-, hfields, hmethods, hinterface, -, hancestors⟩ := parts_of_shape (hg.shape h.lt_size)
  have hlineage : st'.lineage parent = st.lineage parent := congrArg (parent :: ·) hancestors
  exact ⟨hg.lt_size h.lt_size, hinterface.trans h.extensible, h.ancestors.trans hlineage.symm,
    hfields ▸ h.fields, hmethods ▸ h.methods⟩

theorem Derived.of_shape (h : info.Derived st) (hshape : info'.shape = info.shape) :
    info'.Derived st := by
  obtain ⟨-, -, -, hinterface, himplements, hancestors⟩ := parts_of_shape hshape
  refine ⟨himplements ▸ h.implements, ?_, fun hi => ?_⟩
  · rw [hancestors]
    exact h.parent.imp_right fun ⟨parent, hbelow⟩ => ⟨parent, hbelow.of_shape hshape⟩
  · obtain ⟨hnone, hbare⟩ := h.interface (hinterface.symm.trans hi)
    exact ⟨hancestors.trans hnone, himplements.trans hbare⟩

theorem Derived.extended (h : info.Derived st) (hext : st.Extended st') : info.Derived st' where
  implements name hname := by
    obtain ⟨cls, hfind, hinterface⟩ := h.implements name hname
    obtain ⟨-, -, -, hsame, -⟩ := parts_of_shape (hext.grows.shape (hext.named name cls hfind))
    exact ⟨cls, hext.findClass? name cls hfind, hsame.trans hinterface⟩
  parent := h.parent.imp_right fun ⟨parent, hbelow⟩ => ⟨parent, hbelow.grows hext.grows⟩
  interface := h.interface

/-! ## Descriptions of declared classes -/

/-- A header collects interfaces among its supertypes. -/
structure Collects (st : Store) (info : ClassInfo) : Prop where
  implements : ∀ name ∈ info.implements,
    ∃ cls, st.findClass? name = some cls ∧ (st.classInfo cls).isInterface = true
  isClass : info.isInterface = false

theorem Collects.addSupertype (h : info.Collects st) {name : String}
    (hok : addSupertype st info name = .ok info') : info'.Collects st := by
  unfold ClassInfo.addSupertype at hok
  cases hcls : st.getClass name with
  | error cause =>
      rw [hcls] at hok
      cases hok
  | ok cls =>
      have hfind := (st.getClass_answers name).of_ok hcls
      simp only [hcls, bind, Except.bind] at hok
      split at hok
      next hinterface =>
          cases hok
          refine ⟨fun other hother => ?_, h.isClass⟩
          rcases List.mem_append.mp hother with hold | hnew
          · exact h.implements other hold
          · exact List.mem_singleton.mp hnew ▸ ⟨cls, hfind, hinterface⟩
      next =>
          split at hok
          · cases hok
          · split at hok
            · cases hok
            · cases hok
              exact ⟨h.implements, h.isClass⟩

theorem Collects.ofDecl {decl : ClassDecl} (h : ofDecl st decl = .ok info) : info.Collects st := by
  obtain ⟨header, withFields, withMethods, hheader, hfields, hmethods, rfl⟩ := ofDecl_stages h
  have hblank :
      Inherits st decl none { ClassInfo.blank decl.name with isStatic := decl.isStatic } :=
    ⟨rfl, rfl, rfl, rfl, rfl, rfl⟩
  obtain ⟨-, hinherits⟩ := hblank.addSupertypes hheader
  have hcollects : header.Collects st :=
    foldlM_ok (fun _ _ _ hinfo hok => Collects.addSupertype hinfo hok)
      ⟨fun _ hname => absurd hname List.not_mem_nil, rfl⟩ hheader
  -- Members change neither what the class implements nor that it is a class.
  obtain ⟨-, hfields⟩ := addFields_ok hinherits.name hinherits.isStatic hfields
  have hname₁ : withFields.name = decl.name := by rw [hfields, hinherits.name]
  have hstatic₁ : withFields.isStatic = decl.isStatic := by rw [hfields, hinherits.isStatic]
  obtain ⟨-, hmethods⟩ := addMethods_ok hname₁ hstatic₁ hmethods
  have hname₂ : withMethods.name = decl.name := by rw [hmethods, hname₁]
  rw [setConstructor_eq hname₂, hmethods, hfields]
  exact ⟨hcollects.implements, hcollects.isClass⟩

/-- A declared class takes over all members of the parent that it names. -/
theorem Extends.below {decl : ClassDecl} (h : info.Extends st decl) (hnamed : st.NamesClasses)
    {parent : ClassId} (hparent : decl.parentIn? st = some parent) : info.Below st parent := by
  obtain ⟨name, -, hname⟩ := List.exists_of_findSome?_eq_some hparent
  have hextensible := (Option.filter_eq_some_iff.mp hname).2
  have hancestors := h.ancestors
  have hfields := h.fields
  have hmethods := h.methods
  rw [hparent] at hancestors hfields hmethods
  refine ⟨hnamed.parent_lt hparent, by simpa using hextensible, hancestors, ?_, ?_⟩
  · rw [hfields, Table.names_overlay h.distinctFields]
    exact List.subset_append_left _ _
  · rw [hmethods, Table.names_overlay h.distinctMethods]
    exact List.subset_append_left _ _

theorem Derived.ofDecl (hnamed : st.NamesClasses) {decl : ClassDecl}
    (h : ofDecl st decl = .ok info) : info.Derived st := by
  have hcollects := Collects.ofDecl h
  have hextends := Extends.ofDecl h
  refine ⟨hcollects.implements, ?_, fun hinterface => ?_⟩
  · cases hparent : decl.parentIn? st with
    | none => exact .inl (by rw [hextends.ancestors, hparent]; rfl)
    | some parent => exact .inr ⟨parent, hextends.below hnamed hparent⟩
  · rw [hcollects.isClass] at hinterface
    cases hinterface

theorem isRoot_ofInterface (decl : InterfaceDecl) : (ofInterface decl).IsRoot := by
  have h (signatures : List MethodSignature) {info : ClassInfo} (hroot : info.IsRoot) :
      (signatures.foldl ClassInfo.addSignature info).IsRoot := by
    induction signatures generalizing info with
    | nil => exact hroot
    | cons signature rest ih =>
        have hnext : (info.addSignature signature).IsRoot := ⟨hroot.ancestors, hroot.implements⟩
        exact ih hnext
  exact h decl.methods ⟨rfl, rfl⟩

theorem IsRoot.addMembers (h : info.IsRoot) {next : Option Int64}
    {members : List (String × Option Int64)} (hok : addMembers info next members = .ok info') :
    info'.IsRoot := by
  induction members generalizing info next with
  | nil =>
      cases hok
      exact h
  | cons member rest ih =>
      obtain ⟨name, explicit⟩ := member
      unfold ClassInfo.addMembers at hok
      split at hok
      · cases hok
      · split at hok
        next value _ =>
            have hnext : (info.withConstant name .int (.int value)).IsRoot :=
              ⟨h.ancestors, h.implements⟩
            exact ih hnext hok
        next => cases hok

theorem Declared.derived (h : info.Declared st) (hnamed : st.NamesClasses) : info.Derived st := by
  cases h with
  | ofClass h => exact .ofDecl hnamed h
  | ofInterface decl => exact (isRoot_ofInterface decl).derived
  | ofEnum h =>
      have hblank (name : String) : { ClassInfo.blank name with isStatic := true }.IsRoot :=
        ⟨rfl, rfl⟩
      exact ((hblank _).addMembers h).derived

end ClassInfo

/-! ## Hierarchies -/

namespace Store

/-- Every class has a name of its own, under which it is known, and is derived from classes of the
store; every object is of a class of the store. -/
structure Hierarchy (st : Store) : Prop where
  named : ∀ cls, cls < st.classes.size → st.findClass? (st.className cls) = some cls
  names : ∀ name cls, st.findClass? name = some cls →
    cls < st.classes.size ∧ st.className cls = name
  derived : ∀ cls, (st.classInfo cls).Derived st
  objects : ∀ (id : ObjectId) (cell : ObjectCell), st.objects[id]? = some cell →
    cell.cls < st.classes.size

variable {st st' : Store}

theorem hierarchy_empty : Hierarchy empty where
  named _ h := absurd h (Nat.not_lt_zero _)
  names _ _ h := by cases h
  derived _ := ClassInfo.IsRoot.derived ⟨rfl, rfl⟩
  objects _ _ h := by cases h

namespace Hierarchy

theorem namesClasses (h : st.Hierarchy) : st.NamesClasses :=
  fun name cls hfind => (h.names name cls hfind).1

/-! ### Steps -/

/-- New objects and new values of static fields leave the hierarchy as it is. -/
theorem kept (h : st.Hierarchy) (hkeeps : st.KeepsClasses st')
    (hobjects : ∀ (id : ObjectId) (cell : ObjectCell), st'.objects[id]? = some cell →
      cell.cls < st.classes.size) : st'.Hierarchy := by
  have hname (cls : ClassId) : st'.className cls = st.className cls :=
    (ClassInfo.parts_of_shape (hkeeps.shape cls)).1
  exact {
    named := fun cls hlt => by
      rw [hname, hkeeps.findClass?]
      exact h.named cls (hkeeps.size ▸ hlt)
    names := fun name cls hfind => by
      rw [hname, hkeeps.size]
      exact h.names name cls ((hkeeps.findClass? name).symm.trans hfind)
    derived := fun cls =>
      ((h.derived cls).extended (hkeeps.extended h.namesClasses)).of_shape (hkeeps.shape cls)
    objects := fun id cell hcell => hkeeps.size.symm ▸ hobjects id cell hcell }

theorem newObject (h : st.Hierarchy) {cls : ClassId} (hcls : cls < st.classes.size) :
    (st.newObject cls).2.Hierarchy := by
  refine h.kept ⟨st.grows_newObject cls, rfl, rfl⟩ fun id cell hcell => ?_
  simp only [Store.newObject, Array.getElem?_push] at hcell
  split at hcell
  · obtain rfl := Option.some.inj hcell
    exact hcls
  · exact h.objects id cell hcell

theorem putField (h : st.Hierarchy) (self : ObjectId) (name : String) (v : Value) :
    (st.putField self name v).Hierarchy := by
  refine h.kept ⟨st.grows_putField self name v, rfl, rfl⟩ fun id cell hcell => ?_
  simp only [Store.putField, Array.getElem?_modify] at hcell
  split at hcell
  · obtain ⟨old, hold, rfl⟩ := Option.map_eq_some_iff.mp hcell
    exact h.objects id old hold
  · exact h.objects id cell hcell

theorem putStatic (h : st.Hierarchy) (cls : ClassId) (name : String) (v : Value) :
    (st.putStatic cls name v).Hierarchy :=
  h.kept (st.keepsClasses_putStatic cls name v) h.objects

theorem enrollClass (h : st.Hierarchy) {info : ClassInfo} (hinfo : info.Derived st)
    (hfree : st.checkClassName info.name = .ok ()) : (st.enrollClass info).2.Hierarchy := by
  have hext := extended_enrollClass h.namesClasses hfree
  have hsize := st.size_enrollClass info
  have hnew : (st.enrollClass info).2.classInfo st.classes.size = info := by
    rw [classInfo_enrollClass, if_pos rfl]
  have hold {cls : ClassId} (hne : cls ≠ st.classes.size) :
      (st.enrollClass info).2.classInfo cls = st.classInfo cls := by
    rw [classInfo_enrollClass, if_neg hne]
  refine ⟨fun cls hlt => ?_, fun name cls hfind => ?_, fun cls => ?_, fun id cell hcell => ?_⟩
  · by_cases hcls : cls = st.classes.size
    · subst hcls
      rw [className, hnew, findClass?_enrollClass, if_pos rfl]
    · rw [hsize] at hlt
      have hfind := h.named cls (Nat.lt_of_le_of_ne (Nat.le_of_lt_succ hlt) hcls)
      rw [className, hold hcls]
      exact hext.findClass? _ cls hfind
  · rw [findClass?_enrollClass] at hfind
    split at hfind
    next heq =>
        obtain rfl := Option.some.inj hfind
        rw [className, hnew, hsize]
        exact ⟨Nat.lt_succ_self _, heq.symm⟩
    next =>
        obtain ⟨hlt, hname⟩ := h.names name cls hfind
        rw [className, hold (Nat.ne_of_lt hlt), hsize]
        exact ⟨Nat.lt_succ_of_lt hlt, hname⟩
  · by_cases hcls : cls = st.classes.size
    · subst hcls
      rw [hnew]
      exact hinfo.extended hext
    · rw [hold hcls]
      exact (h.derived cls).extended hext
  · rw [hsize]
    exact Nat.lt_succ_of_lt (h.objects id cell hcell)

/-! ### Along a lineage -/

/-- What is above `d` is above `c`, and `c` has the members of `d`. -/
structure Above (st : Store) (d c : ClassId) : Prop where
  lt_size : c < st.classes.size → d < st.classes.size
  lineage : st.lineage d ⊆ st.lineage c
  fields : (st.classInfo d).fields.names ⊆ (st.classInfo c).fields.names
  methods : (st.classInfo d).methods.names ⊆ (st.classInfo c).methods.names

/-- The induction follows the lineage from a class to its parent. -/
theorem above_of_mem (h : st.Hierarchy) {c d : ClassId} (hmem : d ∈ st.lineage c) :
    Above st d c := by
  rcases List.mem_cons.mp hmem with rfl | hancestor
  · exact ⟨id, List.Subset.refl _, List.Subset.refl _, List.Subset.refl _⟩
  · rcases (h.derived c).parent with hnone | ⟨parent, hbelow⟩
    · rw [hnone] at hancestor
      cases hancestor
    · have hancestors := hbelow.ancestors
      rw [hancestors] at hancestor
      have hparent : Above st d parent := h.above_of_mem hancestor
      have hlineage : st.lineage parent ⊆ st.lineage c :=
        hancestors ▸ List.subset_cons_self c (st.classInfo c).ancestors
      exact {
        lt_size := fun _ => hparent.lt_size hbelow.lt_size
        lineage := List.Subset.trans hparent.lineage hlineage
        fields := List.Subset.trans hparent.fields hbelow.fields
        methods := List.Subset.trans hparent.methods hbelow.methods }
termination_by (st.classInfo c).ancestors.length
decreasing_by
  -- The parent has one ancestor less.
  rw [hancestors]
  exact Nat.lt_succ_self _

end Hierarchy

/-! ## Subtyping -/

theorem isA_iff {c : ClassId} {name : String} :
    st.isA c name = true ↔
      ∃ x ∈ st.lineage c, st.className x = name ∨ name ∈ (st.classInfo x).implements := by
  simp [isA, className]

namespace Hierarchy

variable {c d : ClassId} {nameD nameE : String}

theorem isA_self (h : st.Hierarchy) (hd : st.findClass? nameD = some d) :
    st.isA d nameD = true :=
  isA_iff.mpr ⟨d, List.mem_cons_self, .inl (h.names nameD d hd).2⟩

/-- A class is below another one through its lineage; or the other one is an interface. -/
theorem mem_lineage_of_isA (h : st.Hierarchy) (hc : c < st.classes.size)
    (hd : st.findClass? nameD = some d) (hcd : st.isA c nameD = true) :
    d ∈ st.lineage c ∨ (st.classInfo d).isInterface = true := by
  obtain ⟨x, hx, hname | himplements⟩ := isA_iff.mp hcd
  · -- A name means one class, so the class of that name in the lineage is the declared one.
    have hfind := h.named x ((h.above_of_mem hx).lt_size hc)
    rw [hname, hd] at hfind
    exact .inl (Option.some.inj hfind ▸ hx)
  · obtain ⟨cls, hfind, hinterface⟩ := (h.derived x).implements nameD himplements
    rw [hd] at hfind
    exact .inr (Option.some.inj hfind ▸ hinterface)

theorem isA_trans (h : st.Hierarchy) (hc : c < st.classes.size)
    (hd : st.findClass? nameD = some d) (hcd : st.isA c nameD = true)
    (hde : st.isA d nameE = true) : st.isA c nameE = true := by
  obtain ⟨x, hx, hname⟩ := isA_iff.mp hde
  rcases h.mem_lineage_of_isA hc hd hcd with hmem | hinterface
  · exact isA_iff.mpr ⟨x, (h.above_of_mem hmem).lineage hx, hname⟩
  · -- Nothing is above an interface but itself.
    obtain ⟨hancestors, himplements⟩ := (h.derived d).interface hinterface
    rw [lineage, hancestors, List.mem_singleton] at hx
    subst hx
    rw [himplements, (h.names nameD x hd).2] at hname
    rcases hname with rfl | hnone
    · exact hcd
    · cases hnone

theorem above_of_isA (h : st.Hierarchy) (hc : c < st.classes.size)
    (hd : st.findClass? nameD = some d) (hclass : (st.classInfo d).isInterface = false)
    (hcd : st.isA c nameD = true) : Above st d c := by
  rcases h.mem_lineage_of_isA hc hd hcd with hmem | hinterface
  · exact h.above_of_mem hmem
  · rw [hclass] at hinterface
    cases hinterface

/-- An object that is not there stands for one of the oldest class. -/
theorem objectCell_cls_lt (h : st.Hierarchy) (hsome : 0 < st.classes.size) (id : ObjectId) :
    (st.objectCell id).cls < st.classes.size := by
  rw [objectCell]
  cases hcell : st.objects[id]? with
  | some cell => exact h.objects id cell hcell
  | none => exact hsome

/-- A slot of a supertype takes whatever a slot of the type takes. -/
theorem accepts_of_isA (h : st.Hierarchy) (hd : st.findClass? nameD = some d)
    (hde : st.isA d nameE = true) {v : Value} (hv : st.accepts (.named nameD) v = true) :
    st.accepts (.named nameE) v = true := by
  cases v with
  | object id =>
      have hsome : 0 < st.classes.size := Nat.zero_lt_of_lt (h.names nameD d hd).1
      exact h.isA_trans (h.objectCell_cls_lt hsome id) hd hv hde
  | void => rfl
  | _ => cases hv

end Hierarchy

end Store

/-! ## Every run keeps the hierarchy -/

namespace Discipline

/-- Classes are derived from classes, and objects are of classes. -/
def hierarchy : Discipline where
  Inv s := s.store.Hierarchy
  Val _ _ := True
  Err _ _ := True
  Cls st cls := cls < st.classes.size
  Init _ _ _ := True
  Meth _ _ := True

theorem hierarchy_laws : hierarchy.Laws where
  val_grows _ h := h
  err_grows _ h := h
  cls_grows hg h := hg.lt_size h
  init_grows _ h := h
  meth_grows _ h := h
  val_plain _ := trivial
  val_stored _ _ := trivial
  val_self _ _ _ := trivial
  cls_named hs hfind := hs.namesClasses _ _ hfind
  init_field _ _ _ := trivial
  init_value _ _ := trivial
  meth_found _ _ := trivial
  err_ordinary _ := trivial
  err_thrown := Iff.rfl
  native _ _ _ _ _ := ⟨fun _ _ => trivial, fun _ _ => trivial⟩
  enter hs := hs
  exit _ _ hs _ := hs
  call hs _ _ := hs
  finish _ _ hs _ := hs
  declare hs _ _ := hs
  assign hs _ _ := hs
  newArray {s _ _} hs _ := ⟨hs.kept ⟨s.store.grows_newArray _ _, rfl, rfl⟩ hs.objects, trivial⟩
  putItem {s _ _ _ _ _} hs _ _ := hs.kept ⟨s.store.grows_putItem _ _ _, rfl, rfl⟩ hs.objects
  newObject hs hcls := ⟨hs.newObject hcls, trivial⟩
  initField _ hs _ _ _ _ _ := hs.putField _ _ _
  writeField hs _ _ := hs.putField _ _ _
  enroll {s info} hs hinfo hfree := by
    refine ⟨hs.enrollClass (hinfo.derived hs.namesClasses) hfree, ?_⟩
    exact Nat.lt_of_lt_of_eq (Nat.lt_succ_self _) (s.store.size_enrollClass info).symm
  initStatic hs _ _ _ _ _ _ := hs.putStatic _ _ _
  writeStatic hs _ _ := hs.putStatic _ _ _
  functions hs := hs
  console hs := hs
  included hs := hs

end Discipline

namespace Session

/-- The sessions that come about from programs, and from a host whose classes have no supertypes.
The host may change anything else, but all objects are of classes that are there. -/
inductive Rooted : Session → Prop where
  | start (loader : Loader) (input : List InputLine) : Rooted (Session.start loader input)
  | supplied {s s' : Session} (h : Rooted s) (hkeeps : s.store.KeepsClasses s'.store)
      (hobjects : ∀ (id : ObjectId) (cell : ObjectCell), s'.store.objects[id]? = some cell →
        cell.cls < s.store.classes.size) : Rooted s'
  | registered {s s' : Session} (h : Rooted s) {info : ClassInfo} {cls : ClassId}
      (hroot : info.IsRoot) (run : registerClass info s = .ok cls s') : Rooted s'
  | evaluated {s s' : Session} (h : Rooted s) {fuel : Nat} {e : Expr} {expected : Option Ty}
      (run : (evaluate fuel e expected s).state? = some s') : Rooted s'
  | executed {s s' : Session} (h : Rooted s) {fuel : Nat} {statement : Statement}
      (run : (execute fuel statement s).state? = some s') : Rooted s'
  | ran {s s' : Session} (h : Rooted s) {fuel : Nat} {program : Program}
      (run : (runProgram fuel program s).state? = some s') : Rooted s'

theorem Rooted.hierarchy {s : Session} (h : s.Rooted) : s.store.Hierarchy := by
  have L := Discipline.hierarchy_laws
  induction h with
  | start _ _ => exact Store.hierarchy_empty
  | supplied _ hkeeps hobjects ih => exact ih.kept hkeeps hobjects
  | registered _ hroot hrun ih =>
      obtain ⟨_, s₁, hcheck, hadd⟩ := Action.ok_of_bind hrun
      obtain ⟨rfl, hfree⟩ := Eval.ok_of_ask hcheck
      cases hadd
      exact ih.enrollClass hroot.derived hfree
  | @evaluated _ _ _ fuel e expected hrun ih =>
      exact ((L.interpreter_runs fuel).eval ih e expected).leaves.of_state? hrun
  | @executed _ _ _ fuel statement hrun ih =>
      exact ((L.interpreter_runs fuel).exec ih statement).leaves.of_state? hrun
  | @ran _ _ _ fuel program hrun ih =>
      exact (L.execProgram_conforms (L.interpreter_runs fuel) ih program).leaves.of_state? hrun

/-- To be below another class or interface is reflexive and transitive among those that are
declared, slots go by it, and so do the members of classes. -/
structure SubtypesSoundly (s : Session) : Prop where
  reflexive : ∀ name cls, s.store.findClass? name = some cls → s.store.isA cls name = true
  transitive : ∀ nameC c nameD d nameE, s.store.findClass? nameC = some c →
    s.store.findClass? nameD = some d → s.store.isA c nameD = true →
    s.store.isA d nameE = true → s.store.isA c nameE = true
  slots : ∀ nameD d nameE v, s.store.findClass? nameD = some d → s.store.isA d nameE = true →
    s.store.accepts (.named nameD) v = true → s.store.accepts (.named nameE) v = true
  members : ∀ nameC c nameD d, s.store.findClass? nameC = some c →
    s.store.findClass? nameD = some d → (s.store.classInfo d).isInterface = false →
    s.store.isA c nameD = true →
    (s.store.classInfo d).fields.names ⊆ (s.store.classInfo c).fields.names ∧
      (s.store.classInfo d).methods.names ⊆ (s.store.classInfo c).methods.names

noncomputable instance : DecidablePred SubtypesSoundly := Classical.decPred _

theorem subtypesSoundly {s : Session} (h : s.store.Hierarchy) : s.SubtypesSoundly where
  reflexive _ _ hcls := h.isA_self hcls
  transitive nameC c _ _ _ hc hd hcd hde := h.isA_trans (h.names nameC c hc).1 hd hcd hde
  slots _ _ _ _ hd hde hv := h.accepts_of_isA hd hde hv
  members nameC c _ _ hc hd hclass hcd := by
    have habove := h.above_of_isA (h.names nameC c hc).1 hd hclass hcd
    exact ⟨habove.fields, habove.methods⟩

end Session

/-- Subtyping is sound in every session that comes about from programs and from classes of the host
without supertypes, and wherever a part of a program is run there, so what any `other` interpreter
would do elsewhere makes no difference. -/
theorem subtyping_sound {s : Session} (h : s.Rooted) :
    s.SubtypesSoundly ∧ ∀ fuel program other,
      (interpreterWithin Session.SubtypesSoundly other fuel).execProgram program s =
        runProgram fuel program s := by
  have hhierarchy := h.hierarchy
  refine ⟨Session.subtypesSoundly hhierarchy, fun fuel program other => ?_⟩
  have L := Discipline.hierarchy_laws
  have hruns := L.interpreterWithin_runs (fun _ hs => Session.subtypesSoundly hs) other fuel
  exact (L.execProgram_conforms hruns hhierarchy program).eq.symm

/-- A class that is below a class of the host and below an interface through its parent. -/
theorem subtyping_sound_inherited :
    let fresh := Session.start (fun _ => .error .unknownModule) []
    let hosted := { fresh with store := (fresh.store.enrollClass (.blank "N")).2 }
    let program : Program :=
      [.interface { name := "I", methods := [], line := 1 },
        .classType (.ofStatic "A" ["N", "I"] "n" .int (.literal (.int 1) 1)),
        .classType (.ofStatic "B" ["A"] "m" .int (.literal (.int 1) 1))]
    ∃ s b, (runProgram 9 program hosted).state? = some s ∧ s.Rooted ∧
      s.store.findClass? "B" = some b ∧ s.store.isA b "N" = true ∧ s.store.isA b "I" = true ∧
      s.SubtypesSoundly := by
  intro fresh hosted program
  have hends : ((runProgram 9 program hosted).state?.bind fun s =>
      (s.store.findClass? "B").map fun b => s.store.isA b "N" && s.store.isA b "I") =
        some true := by decide +kernel
  obtain ⟨s, hs, hanswer⟩ := Option.bind_eq_some_iff.mp hends
  obtain ⟨b, hb, hisA⟩ := Option.map_eq_some_iff.mp hanswer
  obtain ⟨hhost, hinterface⟩ := (Bool.and_eq_true _ _).mp hisA
  have hregister : registerClass (.blank "N") fresh = .ok 0 hosted := rfl
  have hrooted : s.Rooted := ((Session.Rooted.start _ _).registered ⟨rfl, rfl⟩ hregister).ran hs
  exact ⟨s, b, hs, hrooted, hb, hhost, hinterface, (subtyping_sound hrooted).1⟩

end ClassScript
