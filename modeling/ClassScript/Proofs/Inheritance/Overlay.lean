import ClassScript.Proofs.Classes

/-!
# One step of inheritance

A declared class takes over the tables of its parent and overlays them with what it declares itself.
Declaring a member twice is noticed by the owner of the entry that is already there, so the members
of one declaration have distinct names, and the order in which they are added does not matter to a
look-up.
-/

namespace ClassScript

/-! ## Overlaid tables -/

namespace Table

variable {α δ : Type} (key : δ → String) (entry : δ → α)

/-- The table after an entry was added for each of the declarations. -/
def overlay (t : Table α) (decls : List δ) : Table α :=
  decls.foldl (fun t d => t.insert (key d) (entry d)) t

variable {key entry}

/-- What is declared comes before what is inherited. -/
theorem find?_overlay {decls : List δ} (hdistinct : (decls.map key).Nodup) (t : Table α)
    (name : String) :
    (t.overlay key entry decls).find? name =
      ((decls.find? fun d => key d == name).map entry).or (t.find? name) := by
  induction decls generalizing t with
  | nil => rfl
  | cons d rest ih =>
      rw [List.map_cons, List.nodup_cons] at hdistinct
      change ((t.insert (key d) (entry d)).overlay key entry rest).find? name = _
      rw [ih hdistinct.2, find?_insert, List.find?_cons]
      by_cases heq : name = key d
      · subst heq
        have hrest : (rest.find? fun other => key other == key d) = none :=
          List.find?_eq_none.mpr fun other hother hsame =>
            hdistinct.1 (List.mem_map.mpr ⟨other, hother, beq_iff_eq.mp hsame⟩)
        rw [hrest, if_pos rfl, beq_self_eq_true]
        rfl
      · rw [if_neg heq, beq_false_of_ne (Ne.symm heq)]

/-- The names that were there keep their places; the new ones follow as they are declared. -/
theorem names_overlay {decls : List δ} (hdistinct : (decls.map key).Nodup) (t : Table α) :
    (t.overlay key entry decls).names =
      t.names ++ (decls.map key).filter fun name => !t.names.contains name := by
  induction decls generalizing t with
  | nil => exact (List.append_nil _).symm
  | cons d rest ih =>
      rw [List.map_cons, List.nodup_cons] at hdistinct
      change ((t.insert (key d) (entry d)).overlay key entry rest).names = _
      rw [ih hdistinct.2, names_insert, List.map_cons, List.filter_cons]
      by_cases hmem : key d ∈ t.names
      · rw [if_pos hmem, if_neg (by simpa using hmem)]
      · have hrest : (rest.map key).filter (fun name => !(t.names ++ [key d]).contains name) =
            (rest.map key).filter fun name => !t.names.contains name := by
          refine List.filter_congr fun name hname => ?_
          have hne : name ≠ key d := fun heq => hdistinct.1 (heq ▸ hname)
          simp [hne]
        rw [if_neg hmem, hrest, if_pos (by simpa using hmem), List.append_assoc]
        rfl

/-- Declarations are added to a table of `β` one after the other; an entry may replace only what is
not yet `own`. Then no two have the same name, and the table is overlaid with all of them. -/
theorem foldlM_overlay {β ε : Type} {add : β → δ → Except ε β} {I : β → Prop}
    (table : β → Table α) (put : β → Table α → β) (own : α → Bool) {decls : List δ} {b b' : β}
    (h : decls.foldlM add b = .ok b') (hb : I b)
    (hadd : ∀ b d b', I b → add b d = .ok b' →
      (∀ a, (table b).find? (key d) = some a → own a = false) ∧
        b' = put b ((table b).insert (key d) (entry d)))
    (hkeep : ∀ b t, I b → I (put b t)) (htable : ∀ b t, table (put b t) = t)
    (hsame : ∀ b, put b (table b) = b) (hput : ∀ b t t', put (put b t) t' = put b t')
    (hown : ∀ d, own (entry d) = true) :
    (decls.map key).Nodup ∧
      (∀ d ∈ decls, ∀ a, (table b).find? (key d) = some a → own a = false) ∧
      b' = put b ((table b).overlay key entry decls) := by
  induction decls generalizing b with
  | nil =>
      cases h
      exact ⟨List.nodup_nil, fun _ h => absurd h List.not_mem_nil, (hsame _).symm⟩
  | cons d rest ih =>
      rw [List.foldlM_cons] at h
      cases hd : add b d with
      | error e =>
          rw [hd] at h
          cases h
      | ok next =>
          rw [hd] at h
          obtain ⟨hfree, rfl⟩ := hadd _ _ _ hb hd
          obtain ⟨hdistinct, hrest, rfl⟩ := ih h (hkeep _ _ hb)
          simp only [htable] at hrest ⊢
          -- A second entry of the same name would replace one that is the class's own.
          have hnew : ∀ other ∈ rest, key other ≠ key d := by
            intro other hother heq
            have hclash := hrest other hother (entry d) (by rw [find?_insert, if_pos heq])
            rw [hown] at hclash
            cases hclash
          refine ⟨?_, ?_, hput _ _ _⟩
          · refine List.nodup_cons.mpr ⟨fun hmem => ?_, hdistinct⟩
            obtain ⟨other, hother, heq⟩ := List.mem_map.mp hmem
            exact hnew other hother heq
          · intro other hother a ha
            rcases List.mem_cons.mp hother with rfl | hother
            · exact hfree a ha
            · refine hrest other hother a ?_
              rw [find?_insert, if_neg (hnew other hother)]
              exact ha

end Table

/-! ## What a class declares -/

namespace ClassDecl

variable (cls : ClassDecl)

/-- The entry of the class for a field that it declares. -/
def fieldInfo (field : FieldDecl) : FieldInfo where
  name := field.decl.name
  ty := field.decl.ty
  access := field.access
  isStatic := cls.isStatic || field.isStatic
  isConst := field.decl.isConst
  accessors := field.accessors
  owner := cls.name
  init := .declared field.decl

/-- The entry of the class for a method that it declares. -/
def methodInfo (method : MethodDecl) : MethodInfo where
  name := method.function.name
  access := method.access
  isStatic := cls.isStatic || method.isStatic
  modifier := method.modifier
  params := method.function.params
  returnType := method.function.returnType
  owner := cls.name
  body := .user method.function

/-- The field of this name that the class declares itself. -/
def field? (name : String) : Option FieldInfo :=
  (cls.fields.find? fun field => field.decl.name == name).map cls.fieldInfo

/-- The method of this name that the class declares itself. -/
def method? (name : String) : Option MethodInfo :=
  (cls.methods.find? fun method => method.function.name == name).map cls.methodInfo

/-- The constructor that the class declares itself. -/
def constructorInfo? : Option ConstructorInfo :=
  cls.constructor.map fun decl => { decl, owner := cls.name }

end ClassDecl

namespace Store

/-- The class of this name, if it can be a parent. -/
def parentNamed? (st : Store) (name : String) : Option ClassId :=
  (st.findClass? name).filter fun cls => !(st.classInfo cls).isInterface

/-- The description of the parent; without one there is nothing to inherit. -/
def parentInfo (st : Store) : Option ClassId → ClassInfo
  | some parent => st.classInfo parent
  | none => .blank ""

end Store

/-- The parent that the declaration names: of the supertypes the one that is no interface. -/
def ClassDecl.parentIn? (decl : ClassDecl) (st : Store) : Option ClassId :=
  decl.supertypes.findSome? st.parentNamed?

namespace ClassInfo

variable {st st' : Store} {info info' : ClassInfo} {decl : ClassDecl}

/-! ## Headers -/

/-- The description of a class that takes over the members of `parent` and has none of its own. -/
structure Inherits (st : Store) (decl : ClassDecl) (parent : Option ClassId) (info : ClassInfo) :
    Prop where
  name : info.name = decl.name
  isStatic : info.isStatic = decl.isStatic
  fields : info.fields = (st.parentInfo parent).fields
  methods : info.methods = (st.parentInfo parent).methods
  constructor : info.constructor = (st.parentInfo parent).constructor
  ancestors : info.ancestors = parent.elim [] st.lineage

theorem Inherits.addSupertype {parent : Option ClassId} (h : Inherits st decl parent info)
    {name : String} (hok : addSupertype st info name = .ok info') :
    (∃ cls, st.findClass? name = some cls) ∧
      Inherits st decl (parent.or (st.parentNamed? name)) info' := by
  unfold ClassInfo.addSupertype at hok
  cases hcls : st.getClass name with
  | error cause =>
      rw [hcls] at hok
      cases hok
  | ok cls =>
      have hfind : st.findClass? name = some cls := (st.getClass_answers name).of_ok hcls
      simp only [hcls, bind, Except.bind] at hok
      split at hok
      next hinterface =>
          have hnone : st.parentNamed? name = none := by
            simp [Store.parentNamed?, hfind, hinterface]
          cases hok
          rw [hnone, Option.or_none]
          exact ⟨⟨cls, hfind⟩, { h with }⟩
      next hclass =>
          have hsome : st.parentNamed? name = some cls := by
            simp [Store.parentNamed?, hfind, hclass]
          split at hok
          next => cases hok
          next =>
              split at hok
              next => cases hok
              next hfirst =>
                  cases hok
                  cases parent with
                  -- A second parent would have been refused.
                  | some other => exact absurd (by rw [parent?, h.ancestors]; rfl) hfirst
                  | none =>
                      rw [hsome]
                      exact ⟨⟨cls, hfind⟩, h.name, h.isStatic, rfl, rfl, rfl, rfl⟩

theorem Inherits.addSupertypes {parent : Option ClassId} (h : Inherits st decl parent info)
    {names : List String} (hok : names.foldlM (ClassInfo.addSupertype st) info = .ok info') :
    (∀ name ∈ names, ∃ cls, st.findClass? name = some cls) ∧
      Inherits st decl (parent.or (names.findSome? st.parentNamed?)) info' := by
  induction names generalizing parent info with
  | nil =>
      cases hok
      exact ⟨fun _ h => absurd h List.not_mem_nil, (Option.or_none (o := parent)).symm ▸ h⟩
  | cons name rest ih =>
      rw [List.foldlM_cons] at hok
      cases hadd : ClassInfo.addSupertype st info name with
      | error cause =>
          rw [hadd] at hok
          cases hok
      | ok next =>
          rw [hadd] at hok
          obtain ⟨hfirst, hnext⟩ := h.addSupertype hadd
          obtain ⟨hrest, hlast⟩ := ih hnext hok
          refine ⟨List.forall_mem_cons.mpr ⟨hfirst, hrest⟩, ?_⟩
          have hparent : (parent.or (st.parentNamed? name)).or (rest.findSome? st.parentNamed?) =
              parent.or ((name :: rest).findSome? st.parentNamed?) := by
            rw [Option.or_assoc, List.findSome?_cons]
            cases st.parentNamed? name <;> rfl
          exact hparent ▸ hlast

/-! ## Members -/

theorem addField_ok {field : FieldDecl} (hname : info.name = decl.name)
    (hstatic : info.isStatic = decl.isStatic) (h : addField info field = .ok info') :
    (∀ entry, info.fields.find? field.decl.name = some entry →
      (entry.owner == decl.name) = false) ∧
      info' =
        { info with fields := info.fields.insert field.decl.name (decl.fieldInfo field) } := by
  unfold addField at h
  dsimp only at h
  rw [hname, hstatic] at h
  split at h
  next => cases h
  next hfree =>
      refine ⟨fun entry hentry => Bool.eq_false_iff.mpr fun hown => hfree ?_, ?_⟩
      · rw [hentry]
        exact hown
      · rw [← Except.ok.inj h]
        simp [hname, hstatic, ClassDecl.fieldInfo]

theorem addMethod_ok {method : MethodDecl} (hname : info.name = decl.name)
    (hstatic : info.isStatic = decl.isStatic) (h : addMethod info method = .ok info') :
    (∀ entry, info.methods.find? method.function.name = some entry →
      (entry.owner == decl.name) = false) ∧
      info' =
        { info with
          methods := info.methods.insert method.function.name (decl.methodInfo method) } := by
  unfold addMethod at h
  dsimp only at h
  rw [hname, hstatic] at h
  split at h
  next => cases h
  next hfree =>
      refine ⟨fun entry hentry => Bool.eq_false_iff.mpr fun hown => hfree ?_, ?_⟩
      · rw [hentry]
        exact hown
      · rw [← Except.ok.inj h]
        simp [hname, hstatic, ClassDecl.methodInfo]

theorem addFields_ok {fields : List FieldDecl} (hname : info.name = decl.name)
    (hstatic : info.isStatic = decl.isStatic) (h : fields.foldlM addField info = .ok info') :
    (fields.map (·.decl.name)).Nodup ∧
      info' = { info with
        fields := info.fields.overlay (·.decl.name) decl.fieldInfo fields } := by
  have hall := Table.foldlM_overlay
    (I := fun info : ClassInfo => info.name = decl.name ∧ info.isStatic = decl.isStatic)
    ClassInfo.fields (fun info t => { info with fields := t })
    (fun entry => entry.owner == decl.name)
    h ⟨hname, hstatic⟩ (fun _ _ _ hinfo => addField_ok hinfo.1 hinfo.2) (fun _ _ hinfo => hinfo)
    (fun _ _ => rfl) (fun _ => rfl) (fun _ _ _ => rfl) (fun _ => beq_self_eq_true _)
  exact ⟨hall.1, hall.2.2⟩

theorem addMethods_ok {methods : List MethodDecl} (hname : info.name = decl.name)
    (hstatic : info.isStatic = decl.isStatic) (h : methods.foldlM addMethod info = .ok info') :
    (methods.map (·.function.name)).Nodup ∧
      info' = { info with
        methods := info.methods.overlay (·.function.name) decl.methodInfo methods } := by
  have hall := Table.foldlM_overlay
    (I := fun info : ClassInfo => info.name = decl.name ∧ info.isStatic = decl.isStatic)
    ClassInfo.methods (fun info t => { info with methods := t })
    (fun entry => entry.owner == decl.name)
    h ⟨hname, hstatic⟩ (fun _ _ _ hinfo => addMethod_ok hinfo.1 hinfo.2) (fun _ _ hinfo => hinfo)
    (fun _ _ => rfl) (fun _ => rfl) (fun _ _ _ => rfl) (fun _ => beq_self_eq_true _)
  exact ⟨hall.1, hall.2.2⟩

theorem setConstructor_eq (hname : info.name = decl.name) :
    info.setConstructor decl.constructor =
      { info with constructor := decl.constructorInfo?.or info.constructor } := by
  rw [ClassDecl.constructorInfo?]
  cases decl.constructor with
  | none => rfl
  | some constructor =>
      rw [setConstructor, hname]
      rfl

/-! ## Whole descriptions -/

/-- The description is that of the parent, overlaid with what is declared. -/
structure Extends (st : Store) (decl : ClassDecl) (info : ClassInfo) : Prop where
  name : info.name = decl.name
  supertypes : ∀ name ∈ decl.supertypes, ∃ cls, st.findClass? name = some cls
  ancestors : info.ancestors = (decl.parentIn? st).elim [] st.lineage
  distinctFields : (decl.fields.map (·.decl.name)).Nodup
  distinctMethods : (decl.methods.map (·.function.name)).Nodup
  fields : info.fields =
    (st.parentInfo (decl.parentIn? st)).fields.overlay (·.decl.name) decl.fieldInfo decl.fields
  methods : info.methods =
    (st.parentInfo (decl.parentIn? st)).methods.overlay (·.function.name) decl.methodInfo
      decl.methods
  constructor : info.constructor =
    decl.constructorInfo?.or (st.parentInfo (decl.parentIn? st)).constructor

theorem Extends.ofDecl (h : ofDecl st decl = .ok info) : info.Extends st decl := by
  obtain ⟨header, withFields, withMethods, hheader, hfields, hmethods, rfl⟩ := ofDecl_stages h
  have hblank :
      Inherits st decl none { ClassInfo.blank decl.name with isStatic := decl.isStatic } :=
    ⟨rfl, rfl, rfl, rfl, rfl, rfl⟩
  obtain ⟨hsupertypes, hheader⟩ := hblank.addSupertypes hheader
  obtain ⟨hdistinctFields, hfields⟩ := addFields_ok hheader.name hheader.isStatic hfields
  have hname₁ : withFields.name = decl.name := by rw [hfields, hheader.name]
  have hstatic₁ : withFields.isStatic = decl.isStatic := by rw [hfields, hheader.isStatic]
  obtain ⟨hdistinctMethods, hmethods⟩ := addMethods_ok hname₁ hstatic₁ hmethods
  have hname₂ : withMethods.name = decl.name := by rw [hmethods, hname₁]
  rw [setConstructor_eq hname₂, hmethods, hfields]
  refine ⟨hheader.name, hsupertypes, hheader.ancestors, hdistinctFields, hdistinctMethods,
    ?_, ?_, ?_⟩
  · exact hheader.fields ▸ rfl
  · exact hheader.methods ▸ rfl
  · exact hheader.constructor ▸ rfl

end ClassInfo

end ClassScript
