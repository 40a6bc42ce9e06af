import ClassScript.Proofs.Declaring
import ClassScript.Proofs.Inheritance.Overlay
import ClassScript.Proofs.Lasting

/-!
# Where classes come from

A store grows by steps of programs and of the host. Every class in it was put there by the host or
by a declaration, and a class that a program declared stays what its declaration made of its parent:
later steps change only the values of static fields, and a name goes on to mean the same class.
-/

namespace ClassScript

/-! ## Origins -/

/-- Who put a class into the store. -/
inductive Origin where
  | host
  | interface (decl : InterfaceDecl)
  | enumeration (decl : EnumDecl)
  | declared (decl : ClassDecl)

namespace Origin

/-- The description with which the class was put into the store. A class of the host may be any. -/
inductive Describes (st : Store) : Origin → ClassInfo → Prop where
  | host (info : ClassInfo) : Describes st .host info
  | interface (decl : InterfaceDecl) : Describes st (.interface decl) (.ofInterface decl)
  | enumeration {decl : EnumDecl} {info : ClassInfo} (h : ClassInfo.ofEnum decl = .ok info) :
      Describes st (.enumeration decl) info
  | declared {decl : ClassDecl} {info : ClassInfo} (h : ClassInfo.ofDecl st decl = .ok info) :
      Describes st (.declared decl) info

/-- The class declaration from which the class comes. -/
def classDecl? : Origin → Option ClassDecl
  | .declared decl => some decl
  | _ => none

end Origin

theorem ClassInfo.Declared.describes {st : Store} {info : ClassInfo} (h : Declared st info) :
    ∃ origin, origin ≠ Origin.host ∧ origin.Describes st info := by
  cases h with
  | @ofClass decl _ h => exact ⟨.declared decl, nofun, .declared h⟩
  | ofInterface decl => exact ⟨.interface decl, nofun, .interface decl⟩
  | @ofEnum decl _ h => exact ⟨.enumeration decl, nofun, .enumeration h⟩

namespace Store

/-- The store came about by steps of programs and of the host, and its classes have these origins,
oldest first. -/
inductive Arises : Store → List Origin → Prop where
  | empty : Arises .empty []
  | changed {st st' : Store} {origins : List Origin} (h : Arises st origins)
      (hkeeps : st.KeepsClasses st') : Arises st' origins
  /-- The host has an object of a class without a name. -/
  | added {st : Store} {origins : List Origin} (h : Arises st origins) (info : ClassInfo) :
      Arises (st.addClass info).2 (origins ++ [.host])
  | enrolled {st : Store} {origins : List Origin} {origin : Origin} {info : ClassInfo}
      (h : Arises st origins) (hinfo : origin.Describes st info)
      (hname : st.checkClassName info.name = .ok ()) :
      Arises (st.enrollClass info).2 (origins ++ [origin])

/-- The first classes of the store have these origins; all further ones come from programs. -/
def ArisesFrom (origins : List Origin) (st : Store) : Prop :=
  ∃ more, .host ∉ more ∧ st.Arises (origins ++ more)

variable {st st' : Store} {origins : List Origin}

theorem Arises.from (h : st.Arises origins) : st.ArisesFrom origins :=
  ⟨[], List.not_mem_nil, (List.append_nil origins).symm ▸ h⟩

/-- Programs do not touch the classes that are there. -/
theorem lasting_arisesFrom (origins : List Origin) : Lasting (ArisesFrom origins) where
  kept h hkeeps := by
    obtain ⟨more, hhost, h⟩ := h
    exact ⟨more, hhost, h.changed hkeeps⟩
  enroll h hinfo hname := by
    obtain ⟨more, hhost, h⟩ := h
    obtain ⟨origin, hprogram, hdescribes⟩ := hinfo.describes
    refine ⟨more ++ [origin], ?_, List.append_assoc _ _ _ ▸ h.enrolled hdescribes hname⟩
    rw [List.mem_append, List.mem_singleton]
    exact not_or.mpr ⟨hhost, hprogram.symm⟩

/-! ## Facts about a class that stay -/

theorem grows_addClass (st : Store) (info : ClassInfo) : st.Grows (st.addClass info).2 := by
  refine ⟨fun _ cell h => ⟨cell, h, rfl, rfl⟩, fun _ cell h => ⟨cell, h, rfl⟩, ?_⟩
  intro cls old h
  refine ⟨old, ?_, rfl⟩
  obtain ⟨hlt, -⟩ := Array.getElem?_eq_some_iff.mp h
  simpa [addClass, Array.getElem?_push, Nat.ne_of_lt hlt] using h

theorem size_enrollClass (st : Store) (info : ClassInfo) :
    (st.enrollClass info).2.classes.size = st.classes.size + 1 :=
  Array.size_push _

/-- The names of classes lead into the store. -/
def NamesClasses (st : Store) : Prop :=
  ∀ name cls, st.findClass? name = some cls → cls < st.classes.size

/-- Classes are added, and names go on to mean the same classes. -/
structure Extended (st st' : Store) : Prop where
  grows : st.Grows st'
  named : st.NamesClasses
  findClass? : ∀ name cls, st.findClass? name = some cls → st'.findClass? name = some cls

theorem KeepsClasses.extended (h : st.KeepsClasses st') (hnamed : st.NamesClasses) :
    st.Extended st' :=
  ⟨h.grows, hnamed, fun name _ hfind => (h.findClass? name).trans hfind⟩

theorem extended_addClass (hnamed : st.NamesClasses) (info : ClassInfo) :
    st.Extended (st.addClass info).2 :=
  ⟨st.grows_addClass info, hnamed, fun _ _ hfind => hfind⟩

theorem extended_enrollClass (hnamed : st.NamesClasses) {info : ClassInfo}
    (hfree : st.checkClassName info.name = .ok ()) : st.Extended (st.enrollClass info).2 :=
  ⟨st.grows_enrollClass info, hnamed, fun name cls hfind => by
    rw [findClass?_enrollClass, if_neg (ne_of_checkClassName hfree hfind), hfind]⟩

namespace Extended

theorem parentNamed? (h : st.Extended st') {name : String} {cls : ClassId}
    (hfind : st.findClass? name = some cls) : st'.parentNamed? name = st.parentNamed? name := by
  have hshape := congrArg ClassInfo.isInterface (h.grows.shape (h.named name cls hfind))
  change (st'.classInfo cls).isInterface = (st.classInfo cls).isInterface at hshape
  rw [Store.parentNamed?, Store.parentNamed?, hfind, h.findClass? name cls hfind,
    Option.filter_some, Option.filter_some, hshape]

theorem parentIn? (h : st.Extended st') {decl : ClassDecl}
    (hsupertypes : ∀ name ∈ decl.supertypes, ∃ cls, st.findClass? name = some cls) :
    decl.parentIn? st' = decl.parentIn? st := by
  rw [ClassDecl.parentIn?, ClassDecl.parentIn?]
  generalize decl.supertypes = names at hsupertypes ⊢
  induction names with
  | nil => rfl
  | cons name rest ih =>
      obtain ⟨⟨cls, hfind⟩, hrest⟩ := List.forall_mem_cons.mp hsupertypes
      rw [List.findSome?_cons, List.findSome?_cons, h.parentNamed? hfind, ih hrest]

end Extended

/-- The parent of a declared class is in the store. -/
theorem NamesClasses.parent_lt (hnamed : st.NamesClasses) {decl : ClassDecl} {parent : ClassId}
    (h : decl.parentIn? st = some parent) : parent < st.classes.size := by
  obtain ⟨name, -, hparent⟩ := List.exists_of_findSome?_eq_some h
  exact hnamed name parent (Option.filter_eq_some_iff.mp hparent).1

end Store

namespace ClassInfo.Extends

variable {st st' : Store} {decl : ClassDecl} {info info' : ClassInfo}

/-- The values of static fields play no part. -/
theorem of_shape (h : info.Extends st decl) (hshape : info'.shape = info.shape) :
    info'.Extends st decl where
  name := (congrArg ClassInfo.name hshape).trans h.name
  supertypes := h.supertypes
  ancestors := (congrArg ClassInfo.ancestors hshape).trans h.ancestors
  distinctFields := h.distinctFields
  distinctMethods := h.distinctMethods
  fields := (congrArg ClassInfo.fields hshape).trans h.fields
  methods := (congrArg ClassInfo.methods hshape).trans h.methods
  constructor := (congrArg ClassInfo.constructor hshape).trans h.constructor

theorem extended (h : info.Extends st decl) (hext : st.Extended st') : info.Extends st' decl := by
  have hparent := hext.parentIn? h.supertypes
  have hbase : (st'.parentInfo (decl.parentIn? st)).shape =
        (st.parentInfo (decl.parentIn? st)).shape ∧
      (decl.parentIn? st).elim [] st'.lineage = (decl.parentIn? st).elim [] st.lineage := by
    cases hp : decl.parentIn? st with
    | none => exact ⟨rfl, rfl⟩
    | some parent =>
        have hshape := hext.grows.shape (hext.named.parent_lt hp)
        have hancestors := congrArg ClassInfo.ancestors hshape
        change (st'.classInfo parent).ancestors = (st.classInfo parent).ancestors at hancestors
        exact ⟨hshape, congrArg (parent :: ·) hancestors⟩
  obtain ⟨hshape, hlineage⟩ := hbase
  have hfields := congrArg ClassInfo.fields hshape
  have hmethods := congrArg ClassInfo.methods hshape
  have hconstructor := congrArg ClassInfo.constructor hshape
  refine ⟨h.name, fun name hname => ?_, ?_, h.distinctFields, h.distinctMethods, ?_, ?_, ?_⟩
  · obtain ⟨cls, hfind⟩ := h.supertypes name hname
    exact ⟨cls, hext.findClass? name cls hfind⟩
  · rw [hparent, hlineage, h.ancestors]
  · rw [hparent, h.fields]
    exact congrArg (Table.overlay _ _ · _) hfields.symm
  · rw [hparent, h.methods]
    exact congrArg (Table.overlay _ _ · _) hmethods.symm
  · rw [hparent, h.constructor]
    exact congrArg _ hconstructor.symm

end ClassInfo.Extends

namespace Store

variable {st st' : Store} {origins : List Origin}

/-- The class is registered under the name of the declaration and is what the declaration makes of
its parent. -/
structure Declares (st : Store) (cls : ClassId) (decl : ClassDecl) : Prop where
  registered : st.findClass? decl.name = some cls
  extended : (st.classInfo cls).Extends st decl

theorem Declares.extend {cls : ClassId} {decl : ClassDecl} (h : st.Declares cls decl)
    (hext : st.Extended st') : st'.Declares cls decl where
  registered := hext.findClass? _ _ h.registered
  extended := (h.extended.extended hext).of_shape (hext.grows.shape (hext.named _ _ h.registered))

namespace Arises

theorem size (h : st.Arises origins) : st.classes.size = origins.length := by
  induction h with
  | empty => rfl
  | changed _ hkeeps ih => rw [hkeeps.size, ih]
  | added _ info ih | enrolled _ _ _ ih =>
      rw [List.length_append, ← ih]
      exact Array.size_push _

theorem names (h : st.Arises origins) : st.NamesClasses := by
  induction h with
  | empty => exact fun _ _ h => by cases h
  | changed _ hkeeps ih =>
      intro name cls hfind
      rw [hkeeps.size]
      exact ih name cls ((hkeeps.findClass? name).symm.trans hfind)
  | added _ info ih =>
      intro name cls hfind
      exact Nat.lt_trans (ih name cls hfind) (by simp [addClass])
  | @enrolled st _ _ info _ _ _ ih =>
      intro name cls hfind
      rw [findClass?_enrollClass] at hfind
      rw [size_enrollClass]
      split at hfind
      next => exact Option.some.inj hfind ▸ Nat.lt_succ_self _
      next => exact Nat.lt_succ_of_lt (ih name cls hfind)

theorem origin_concat {origin origin' : Origin} {cls : ClassId}
    (h : (origins ++ [origin])[cls]? = some origin') :
    origins[cls]? = some origin' ∨ cls = origins.length ∧ origin = origin' := by
  rcases Nat.lt_trichotomy cls origins.length with hlt | heq | hgt
  · exact .inl ((List.getElem?_append_left hlt).symm.trans h)
  · subst heq
    rw [List.getElem?_concat_length] at h
    exact .inr ⟨rfl, Option.some.inj h⟩
  · rw [List.getElem?_eq_none (by rw [List.length_append]; exact hgt)] at h
    cases h

/-- Every declared class stays what its declaration made of its parent. -/
theorem declares (h : st.Arises origins) {cls : ClassId} {decl : ClassDecl}
    (hcls : origins[cls]? = some (.declared decl)) : st.Declares cls decl := by
  induction h with
  | empty => cases hcls
  | changed h hkeeps ih => exact (ih hcls).extend (hkeeps.extended h.names)
  | added h info ih =>
      rcases origin_concat hcls with hcls | ⟨-, horigin⟩
      · exact (ih hcls).extend (extended_addClass h.names info)
      · cases horigin
  | @enrolled st _ _ info h hinfo hname ih =>
      have hext := extended_enrollClass h.names hname
      rcases origin_concat hcls with hcls | ⟨hlast, rfl⟩
      · exact (ih hcls).extend hext
      · cases hinfo with
        | declared hdecl =>
            -- The description dates from before the class was there; its parent is the same since.
            have hextends : info.Extends st decl := .ofDecl hdecl
            rw [← h.size] at hlast
            refine ⟨?_, ?_⟩
            · rw [findClass?_enrollClass, if_pos hextends.name.symm, hlast]
            · rw [classInfo_enrollClass, if_pos hlast]
              exact hextends.extended hext

end Arises

end Store

end ClassScript
