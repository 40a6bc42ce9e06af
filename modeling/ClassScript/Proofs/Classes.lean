import ClassScript.Proofs.Answers

/-!
# Classes in the store

How the operations on the store change what it knows about each class, and the steps by which the
description of a declared class comes about. A fact about every declared class is proved by
induction over these steps.
-/

namespace ClassScript

/-! ## Looking classes up -/

namespace Store

variable (st : Store)

theorem classInfo_of_getElem? {st : Store} {cls : ClassId} {info : ClassInfo}
    (h : st.classes[cls]? = some info) : st.classInfo cls = info := by
  rw [classInfo, h]
  rfl

/-- A class that is not in the store is blank. -/
theorem classInfo_of_le {st : Store} {cls : ClassId} (h : st.classes.size ≤ cls) :
    st.classInfo cls = .blank "" := by
  rw [classInfo, Array.getElem?_eq_none h]
  rfl

theorem classInfo_enrollClass (info : ClassInfo) (cls : ClassId) :
    (st.enrollClass info).2.classInfo cls =
      if cls = st.classes.size then info else st.classInfo cls := by
  simp only [classInfo, enrollClass, Array.getElem?_push]
  split <;> rfl

/-- A static value is no part of the shape of its class. -/
theorem shape_putStatic (holder cls : ClassId) (name : String) (v : Value) :
    ((st.putStatic holder name v).classInfo cls).shape = (st.classInfo cls).shape := by
  simp only [classInfo, putStatic, Array.getElem?_modify]
  by_cases h : holder = cls
  · subst h
    cases st.classes[holder]? with
    | none => simp
    | some info => simp [ClassInfo.shape]
  · rw [if_neg h]

theorem methods_putStatic (holder cls : ClassId) (name : String) (v : Value) :
    ((st.putStatic holder name v).classInfo cls).methods = (st.classInfo cls).methods := by
  have h := congrArg ClassInfo.methods (st.shape_putStatic holder cls name v)
  exact h

end Store

/-! ## How descriptions are built -/

namespace ClassInfo

/-- The steps by which the description of a class is built from its declaration. -/
inductive Built (st : Store) : ClassInfo → Prop where
  | blank (name : String) (isStatic isInterface : Bool) :
      Built st { blank name with isStatic, isInterface }
  | implementing {info : ClassInfo} (built : Built st info) (name : String) :
      Built st { info with implements := info.implements ++ [name] }
  | inheriting {info : ClassInfo} (built : Built st info) {name : String} {cls : ClassId}
      (h : st.findClass? name = some cls) : Built st (info.inherit st cls)
  | withField {info : ClassInfo} (built : Built st info) (field : FieldInfo)
      {decl : VariableDecl} (h : field.init = .declared decl) :
      Built st { info with fields := info.fields.insert field.name field }
  | withMethod {info : ClassInfo} (built : Built st info) (method : MethodInfo)
      (h : ∀ run, method.body ≠ .native run) :
      Built st { info with methods := info.methods.insert method.name method }
  | withConstructor {info : ClassInfo} (built : Built st info) (decl : Option ConstructorDecl) :
      Built st (info.setConstructor decl)
  | withConstant {info : ClassInfo} (built : Built st info) (name : String) (value : Int64) :
      Built st (info.withConstant name .int (.int value))

variable {st : Store} {info info' : ClassInfo}

theorem Built.addSupertype (h : Built st info) {name : String}
    (hok : addSupertype st info name = .ok info') : Built st info' := by
  unfold ClassInfo.addSupertype at hok
  cases hcls : st.getClass name with
  | error cause =>
      rw [hcls] at hok
      cases hok
  | ok cls =>
      have hfind := (st.getClass_answers name).of_ok hcls
      simp only [hcls, bind, Except.bind] at hok
      split at hok
      · cases hok
        exact h.implementing name
      · split at hok
        · cases hok
        · split at hok
          · cases hok
          · cases hok
            exact h.inheriting hfind

theorem Built.addField (h : Built st info) {decl : FieldDecl}
    (hok : addField info decl = .ok info') : Built st info' := by
  unfold ClassInfo.addField at hok
  dsimp only at hok
  split at hok
  · cases hok
  · cases hok
    exact h.withField { init := .declared decl.decl, .. } rfl

theorem Built.addMethod (h : Built st info) {decl : MethodDecl}
    (hok : addMethod info decl = .ok info') : Built st info' := by
  unfold ClassInfo.addMethod at hok
  dsimp only at hok
  split at hok
  · cases hok
  · cases hok
    exact h.withMethod { body := .user decl.function, .. } nofun

theorem Built.addSignature (h : Built st info) (signature : MethodSignature) :
    Built st (addSignature info signature) :=
  h.withMethod { body := .abstract, .. } nofun

theorem Built.addMembers (h : Built st info) {next : Option Int64}
    {members : List (String × Option Int64)} (hok : addMembers info next members = .ok info') :
    Built st info' := by
  induction members generalizing info next with
  | nil =>
      cases hok
      exact h
  | cons member rest ih =>
      obtain ⟨name, explicit⟩ := member
      unfold ClassInfo.addMembers at hok
      split at hok
      · cases hok
      · split at hok
        · exact ih (h.withConstant name _) hok
        · cases hok

/-- What every step keeps, a sequence of steps keeps. -/
theorem foldlM_ok {α β ε : Type} {f : β → α → Except ε β} {I : β → Prop}
    (hstep : ∀ b a b', I b → f b a = .ok b' → I b') {as : List α} {b b' : β} (hb : I b)
    (h : as.foldlM f b = .ok b') : I b' := by
  induction as generalizing b with
  | nil =>
      cases h
      exact hb
  | cons a rest ih =>
      rw [List.foldlM_cons] at h
      cases hfa : f b a with
      | error e =>
          rw [hfa] at h
          cases h
      | ok next =>
          rw [hfa] at h
          exact ih (hstep b a next hb hfa) h

/-- The description of a class is built in four stages: header, fields, methods, constructor. -/
theorem ofDecl_stages {decl : ClassDecl} (h : ofDecl st decl = .ok info) :
    ∃ header withFields withMethods,
      decl.supertypes.foldlM (ClassInfo.addSupertype st)
        { ClassInfo.blank decl.name with isStatic := decl.isStatic } = .ok header ∧
      decl.fields.foldlM ClassInfo.addField header = .ok withFields ∧
      decl.methods.foldlM ClassInfo.addMethod withFields = .ok withMethods ∧
      info = withMethods.setConstructor decl.constructor := by
  unfold ClassInfo.ofDecl at h
  cases hheader : decl.supertypes.foldlM (ClassInfo.addSupertype st)
      { ClassInfo.blank decl.name with isStatic := decl.isStatic } with
  | error cause => simp [hheader, onHeader, bind, Except.bind] at h
  | ok header =>
      simp only [hheader, onHeader, bind, Except.bind] at h
      cases hfields : decl.fields.foldlM ClassInfo.addField header with
      | error fault => simp [hfields] at h
      | ok withFields =>
          simp only [hfields] at h
          cases hmethods : decl.methods.foldlM ClassInfo.addMethod withFields with
          | error fault => simp [hmethods] at h
          | ok withMethods =>
              simp only [hmethods] at h
              cases h
              exact ⟨header, withFields, withMethods, rfl, hfields, hmethods, rfl⟩

theorem Built.ofDecl {decl : ClassDecl} (h : ofDecl st decl = .ok info) : Built st info := by
  obtain ⟨header, withFields, withMethods, hheader, hfields, hmethods, rfl⟩ := ofDecl_stages h
  have built₀ : Built st header :=
    foldlM_ok (fun _ _ _ built hok => built.addSupertype hok)
      (.blank decl.name decl.isStatic false) hheader
  have built₁ : Built st withFields :=
    foldlM_ok (fun _ _ _ built hok => built.addField hok) built₀ hfields
  have built₂ : Built st withMethods :=
    foldlM_ok (fun _ _ _ built hok => built.addMethod hok) built₁ hmethods
  exact built₂.withConstructor decl.constructor

theorem Built.ofInterface (decl : InterfaceDecl) : Built st (ofInterface decl) := by
  have h (signatures : List MethodSignature) {info : ClassInfo} (built : Built st info) :
      Built st (signatures.foldl ClassInfo.addSignature info) := by
    induction signatures generalizing info with
    | nil => exact built
    | cons signature rest ih => exact ih (built.addSignature signature)
  exact h decl.methods (.blank decl.name false true)

theorem Declared.built (h : Declared st info) : Built st info := by
  cases h with
  | ofClass h => exact .ofDecl h
  | ofInterface decl => exact .ofInterface decl
  | ofEnum h => exact (Built.blank _ true false).addMembers h

/-! ## Methods of declared classes -/

/-- A class gets its methods from the program or from its parent. -/
theorem Built.methods (h : Built st info) {P : MethodInfo → Prop}
    (hprogram : ∀ method, (∀ run, method.body ≠ .native run) → P method)
    (hstore : ∀ cls name method, (st.classInfo cls).methods.find? name = some method → P method)
    {name : String} {method : MethodInfo} (hfind : info.methods.find? name = some method) :
    P method := by
  induction h with
  | blank => cases hfind
  | implementing _ _ ih | withField _ _ _ ih | withConstant _ _ _ ih => exact ih hfind
  | inheriting => exact hstore _ _ _ hfind
  | withMethod _ other hbody ih =>
      rw [Table.find?_insert] at hfind
      split at hfind
      · obtain rfl := Option.some.inj hfind
        exact hprogram _ hbody
      · exact ih hfind
  | withConstructor _ decl ih =>
      cases decl with
      | none => exact ih hfind
      | some decl => exact ih hfind

/-! ## The code of declared classes -/

/-- The bodies of the methods of a class satisfy `M`, its constructor satisfies `C`. -/
structure Coded (M : MethodBody → Prop) (C : ConstructorDecl → Prop) (info : ClassInfo) : Prop where
  methods : ∀ {name method}, info.methods.find? name = some method → M method.body
  constructor : ∀ {c}, info.constructor = some c → C c.decl

namespace Coded

variable {M : MethodBody → Prop} {C : ConstructorDecl → Prop}

theorem blank (name : String) (isStatic isInterface : Bool) :
    Coded M C { ClassInfo.blank name with isStatic, isInterface } :=
  ⟨fun h => (by cases h), fun h => (by cases h)⟩

theorem of_shape (h : Coded M C info) (hshape : info'.shape = info.shape) : Coded M C info' := by
  have hmethods := congrArg ClassInfo.methods hshape
  have hconstructor := congrArg ClassInfo.constructor hshape
  exact ⟨fun hfind => h.methods (hmethods.symm ▸ hfind),
    fun hc => h.constructor (hconstructor.symm.trans hc)⟩

theorem insertMethod (h : Coded M C info) {method : MethodInfo} (hmethod : M method.body)
    (name : String) : Coded M C { info with methods := info.methods.insert name method } := by
  refine ⟨fun {other found} hfind => ?_, h.constructor⟩
  rw [Table.find?_insert] at hfind
  split at hfind
  · obtain rfl := Option.some.inj hfind
    exact hmethod
  · exact h.methods hfind

theorem addSupertype (hst : ∀ cls, Coded M C (st.classInfo cls)) (h : Coded M C info)
    {name : String} (hok : ClassInfo.addSupertype st info name = .ok info') : Coded M C info' := by
  unfold ClassInfo.addSupertype at hok
  cases hcls : st.getClass name with
  | error cause =>
      rw [hcls] at hok
      cases hok
  | ok cls =>
      simp only [hcls, bind, Except.bind] at hok
      split at hok
      · cases hok
        exact ⟨h.methods, h.constructor⟩
      · split at hok
        · cases hok
        · split at hok
          · cases hok
          · cases hok
            exact ⟨(hst cls).methods, (hst cls).constructor⟩

theorem addField (h : Coded M C info) {decl : FieldDecl}
    (hok : ClassInfo.addField info decl = .ok info') : Coded M C info' := by
  unfold ClassInfo.addField at hok
  dsimp only at hok
  split at hok
  · cases hok
  · cases hok
    exact ⟨h.methods, h.constructor⟩

theorem addMethod (h : Coded M C info) {decl : MethodDecl} (hdecl : M (.user decl.function))
    (hok : ClassInfo.addMethod info decl = .ok info') : Coded M C info' := by
  unfold ClassInfo.addMethod at hok
  dsimp only at hok
  split at hok
  · cases hok
  · cases hok
    exact h.insertMethod hdecl _

theorem addMethods {decls : List MethodDecl} (hdecls : ∀ decl ∈ decls, M (.user decl.function))
    (h : Coded M C info) (hok : decls.foldlM ClassInfo.addMethod info = .ok info') :
    Coded M C info' := by
  induction decls generalizing info with
  | nil =>
      cases hok
      exact h
  | cons decl rest ih =>
      obtain ⟨hdecl, hrest⟩ := List.forall_mem_cons.mp hdecls
      rw [List.foldlM_cons] at hok
      cases hadd : ClassInfo.addMethod info decl with
      | error fault =>
          rw [hadd] at hok
          cases hok
      | ok next =>
          rw [hadd] at hok
          exact ih hrest (h.addMethod hdecl hadd) hok

/-- A class has the code that it declares and the code that it inherits. -/
theorem ofDecl (hst : ∀ cls, Coded M C (st.classInfo cls)) {decl : ClassDecl}
    (hmethods : ∀ method ∈ decl.methods, M (.user method.function))
    (hconstructor : ∀ constructor ∈ decl.constructor, C constructor)
    (h : ClassInfo.ofDecl st decl = .ok info) : Coded M C info := by
  obtain ⟨header, withFields, withMethods, hheader, hfields, hadded, rfl⟩ := ofDecl_stages h
  have coded₀ : Coded M C header :=
    foldlM_ok (fun _ _ _ coded hok => addSupertype hst coded hok)
      (blank decl.name decl.isStatic false) hheader
  have coded₁ : Coded M C withFields :=
    foldlM_ok (fun _ _ _ coded hok => coded.addField hok) coded₀ hfields
  have coded₂ : Coded M C withMethods := addMethods hmethods coded₁ hadded
  cases hc : decl.constructor with
  | none => exact coded₂
  | some constructor =>
      refine ⟨coded₂.methods, fun heq => ?_⟩
      obtain rfl := Option.some.inj heq
      exact hconstructor constructor hc

theorem ofInterface (habstract : M .abstract) (decl : InterfaceDecl) :
    Coded M C (ClassInfo.ofInterface decl) := by
  have h (signatures : List MethodSignature) {info : ClassInfo} (coded : Coded M C info) :
      Coded M C (signatures.foldl ClassInfo.addSignature info) := by
    induction signatures generalizing info with
    | nil => exact coded
    | cons signature rest ih => exact ih (coded.insertMethod habstract _)
  exact h decl.methods (blank decl.name false true)

theorem addMembers (h : Coded M C info) {next : Option Int64}
    {members : List (String × Option Int64)}
    (hok : ClassInfo.addMembers info next members = .ok info') : Coded M C info' := by
  induction members generalizing info next with
  | nil =>
      cases hok
      exact h
  | cons member rest ih =>
      obtain ⟨name, explicit⟩ := member
      unfold ClassInfo.addMembers at hok
      split at hok
      · cases hok
      · split at hok
        · refine ih ?_ hok
          exact ⟨h.methods, h.constructor⟩
        · cases hok

theorem ofEnum {decl : EnumDecl} (h : ClassInfo.ofEnum decl = .ok info) : Coded M C info :=
  (blank decl.name true false).addMembers h

end Coded

end ClassInfo

namespace Store

variable {st : Store} {M : MethodBody → Prop} {C : ConstructorDecl → Prop}

theorem coded_enrollClass (h : ∀ cls, (st.classInfo cls).Coded M C) {info : ClassInfo}
    (hinfo : info.Coded M C) (cls : ClassId) :
    ((st.enrollClass info).2.classInfo cls).Coded M C := by
  rw [classInfo_enrollClass]
  split
  · exact hinfo
  · exact h cls

theorem coded_putStatic (h : ∀ cls, (st.classInfo cls).Coded M C) (holder : ClassId) (name : String)
    (v : Value) (cls : ClassId) : ((st.putStatic holder name v).classInfo cls).Coded M C :=
  (h cls).of_shape (st.shape_putStatic holder cls name v)

end Store

end ClassScript
