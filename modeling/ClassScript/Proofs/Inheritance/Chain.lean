import ClassScript.Proofs.Inheritance.History
import ClassScript.Proofs.Statics

/-!
# The inheritance chain

The tables of a class are written once, when it is declared, and look-ups never walk the chain of
its ancestors. They give what walking the chain would give: the entry of the nearest class that
declares the name. A class of the host ends the chain, since its tables are taken as they are.
-/

namespace ClassScript

/-! ## Walking the chain -/

/-- The class declaration from which a class comes. -/
def declarationOf? (origins : List Origin) (cls : ClassId) : Option ClassDecl :=
  origins[cls]?.bind Origin.classDecl?

theorem origin_of_declarationOf? {origins : List Origin} {cls : ClassId} {decl : ClassDecl}
    (h : declarationOf? origins cls = some decl) : origins[cls]? = some (.declared decl) := by
  obtain ⟨origin, horigin, hdecl⟩ := Option.bind_eq_some_iff.mp h
  cases origin with
  | declared other =>
      cases hdecl
      exact horigin
  | host | interface _ | enumeration _ => cases hdecl

/-- The classes of a lineage up to the first one that no class declaration describes. -/
def chainOf (origins : List Origin) : List ClassId → List ClassId
  | [] => []
  | cls :: rest =>
    match declarationOf? origins cls with
    | some _ => cls :: chainOf origins rest
    | none => [cls]

namespace Store

variable (st : Store) (origins : List Origin)

/-- The class, its parent, its grandparent and so on, up to the first class of the host. -/
def chain (cls : ClassId) : List ClassId := chainOf origins (st.lineage cls)

/-- The field that the class itself declares; of a class of the host, any field that it has. -/
def ownField? (name : String) (cls : ClassId) : Option FieldInfo :=
  match declarationOf? origins cls with
  | some decl => decl.field? name
  | none => (st.classInfo cls).fields.find? name

/-- The method that the class itself declares; of a class of the host, any method that it has. -/
def ownMethod? (name : String) (cls : ClassId) : Option MethodInfo :=
  match declarationOf? origins cls with
  | some decl => decl.method? name
  | none => (st.classInfo cls).methods.find? name

/-- The constructor that the class itself declares; of a class of the host, the one it has. -/
def ownConstructor? (cls : ClassId) : Option ConstructorInfo :=
  match declarationOf? origins cls with
  | some decl => decl.constructorInfo?
  | none => (st.classInfo cls).constructor

variable {st origins}

theorem Declares.parent? {cls : ClassId} {decl : ClassDecl} (h : st.Declares cls decl) :
    (st.classInfo cls).parent? = decl.parentIn? st := by
  rw [ClassInfo.parent?, h.extended.ancestors]
  cases decl.parentIn? st <;> rfl

namespace Arises

theorem declares_of (h : st.Arises origins) {cls : ClassId} {decl : ClassDecl}
    (hdecl : declarationOf? origins cls = some decl) : st.Declares cls decl :=
  h.declares (origin_of_declarationOf? hdecl)

/-- The chain goes on with that of the parent. -/
theorem chain_eq (h : st.Arises origins) {cls : ClassId} {decl : ClassDecl}
    (hdecl : declarationOf? origins cls = some decl) :
    st.chain origins cls = cls :: (decl.parentIn? st).elim [] (st.chain origins) := by
  rw [chain, lineage, (h.declares_of hdecl).extended.ancestors, chainOf, hdecl]
  cases decl.parentIn? st <;> rfl

/-- If one step of inheritance takes what the class declares before what its parent has, then what
a class has is what the nearest class of its chain declares. -/
theorem nearest {β : Type} (h : st.Arises origins) (own whole : ClassId → Option β)
    (hhost : ∀ cls, declarationOf? origins cls = none → own cls = whole cls)
    (hstep : ∀ cls decl, declarationOf? origins cls = some decl →
      whole cls = (own cls).or ((decl.parentIn? st).bind whole))
    (cls : ClassId) : whole cls = (st.chain origins cls).findSome? own := by
  cases hdecl : declarationOf? origins cls with
  | none =>
      have hchain : st.chain origins cls = [cls] := by rw [chain, lineage, chainOf, hdecl]
      rw [hchain, List.findSome?_singleton, hhost cls hdecl]
  | some decl =>
      have hancestors := (h.declares_of hdecl).extended.ancestors
      rw [hstep cls decl hdecl, h.chain_eq hdecl, List.findSome?_cons]
      cases hparent : decl.parentIn? st with
      | none => cases own cls <;> rfl
      | some parent =>
          have ih : whole parent = (st.chain origins parent).findSome? own :=
            h.nearest own whole hhost hstep parent
          change (own cls).or (whole parent) = _
          rw [ih]
          cases own cls <;> rfl
termination_by (st.classInfo cls).ancestors.length
decreasing_by
  -- The parent has one ancestor less.
  rw [hancestors, hparent]
  exact Nat.lt_succ_self _

end Arises

/-! ## Flattened tables -/

/-- The tables of a declared class hold what a walk along its chain finds: under every name the
entry of the nearest class that declares it, with that class as its owner. The names stand in the
order of the parent, followed by the newly declared ones. -/
structure Flattened (st : Store) (origins : List Origin) (cls : ClassId) (decl : ClassDecl) :
    Prop where
  registered : st.findClass? decl.name = some cls
  name : st.className cls = decl.name
  parent : (st.classInfo cls).parent? = decl.parentIn? st
  chain : st.chain origins cls = cls :: (decl.parentIn? st).elim [] (st.chain origins)
  distinctFields : (decl.fields.map (·.decl.name)).Nodup
  distinctMethods : (decl.methods.map (·.function.name)).Nodup
  fields : ∀ name, (st.classInfo cls).fields.find? name =
    (st.chain origins cls).findSome? (st.ownField? origins name)
  methods : ∀ name, (st.classInfo cls).methods.find? name =
    (st.chain origins cls).findSome? (st.ownMethod? origins name)
  constructor : (st.classInfo cls).constructor =
    (st.chain origins cls).findSome? (st.ownConstructor? origins)
  fieldNames : (st.classInfo cls).fields.names =
    (st.parentInfo (decl.parentIn? st)).fields.names ++
      (decl.fields.map (·.decl.name)).filter fun name =>
        !(st.parentInfo (decl.parentIn? st)).fields.names.contains name
  methodNames : (st.classInfo cls).methods.names =
    (st.parentInfo (decl.parentIn? st)).methods.names ++
      (decl.methods.map (·.function.name)).filter fun name =>
        !(st.parentInfo (decl.parentIn? st)).methods.names.contains name

namespace Arises

/-- A look-up in the fields of any class finds what walking its chain finds. -/
theorem find?_fields (h : st.Arises origins) (cls : ClassId) (name : String) :
    (st.classInfo cls).fields.find? name =
      (st.chain origins cls).findSome? (st.ownField? origins name) := by
  refine h.nearest (st.ownField? origins name) (fun cls => (st.classInfo cls).fields.find? name)
    ?_ ?_ cls
  · intro cls hdecl
    rw [ownField?, hdecl]
  · intro cls decl hdecl
    have hextends := (h.declares_of hdecl).extended
    rw [ownField?, hdecl, hextends.fields, Table.find?_overlay hextends.distinctFields]
    cases decl.parentIn? st <;> rfl

/-- A look-up in the methods of any class finds what walking its chain finds. -/
theorem find?_methods (h : st.Arises origins) (cls : ClassId) (name : String) :
    (st.classInfo cls).methods.find? name =
      (st.chain origins cls).findSome? (st.ownMethod? origins name) := by
  refine h.nearest (st.ownMethod? origins name) (fun cls => (st.classInfo cls).methods.find? name)
    ?_ ?_ cls
  · intro cls hdecl
    rw [ownMethod?, hdecl]
  · intro cls decl hdecl
    have hextends := (h.declares_of hdecl).extended
    rw [ownMethod?, hdecl, hextends.methods, Table.find?_overlay hextends.distinctMethods]
    cases decl.parentIn? st <;> rfl

theorem constructor_eq (h : st.Arises origins) (cls : ClassId) :
    (st.classInfo cls).constructor =
      (st.chain origins cls).findSome? (st.ownConstructor? origins) := by
  refine h.nearest (st.ownConstructor? origins) (fun cls => (st.classInfo cls).constructor)
    ?_ ?_ cls
  · intro cls hdecl
    rw [ownConstructor?, hdecl]
  · intro cls decl hdecl
    rw [ownConstructor?, hdecl, (h.declares_of hdecl).extended.constructor]
    cases decl.parentIn? st <;> rfl

theorem flattened (h : st.Arises origins) {cls : ClassId} {decl : ClassDecl}
    (hdecl : declarationOf? origins cls = some decl) : st.Flattened origins cls decl := by
  have hdeclares := h.declares_of hdecl
  have hextends := hdeclares.extended
  exact {
    registered := hdeclares.registered
    name := hextends.name
    parent := hdeclares.parent?
    chain := h.chain_eq hdecl
    distinctFields := hextends.distinctFields
    distinctMethods := hextends.distinctMethods
    fields := h.find?_fields cls
    methods := h.find?_methods cls
    constructor := h.constructor_eq cls
    fieldNames := by rw [hextends.fields, Table.names_overlay hextends.distinctFields]
    methodNames := by rw [hextends.methods, Table.names_overlay hextends.distinctMethods] }

/-- If the classes of the host have no parents, the chain is the whole lineage. -/
theorem chain_eq_lineage (h : st.Arises origins) {cls : ClassId}
    (hhost : ∀ c ∈ st.lineage cls, declarationOf? origins c = none →
      (st.classInfo c).ancestors = []) : st.chain origins cls = st.lineage cls := by
  cases hdecl : declarationOf? origins cls with
  | none =>
      have hroot := hhost cls List.mem_cons_self hdecl
      rw [chain, lineage, hroot, chainOf, hdecl]
  | some decl =>
      have hancestors := (h.declares_of hdecl).extended.ancestors
      rw [h.chain_eq hdecl, lineage, hancestors]
      cases hparent : decl.parentIn? st with
      | none => rfl
      | some parent =>
          have hlineage : st.lineage cls = cls :: st.lineage parent := by
            rw [lineage, hancestors, hparent]
            rfl
          have ih : st.chain origins parent = st.lineage parent := by
            refine h.chain_eq_lineage fun c hc => hhost c ?_
            rw [hlineage]
            exact List.mem_cons_of_mem _ hc
          exact congrArg (cls :: ·) ih
termination_by (st.classInfo cls).ancestors.length
decreasing_by
  rw [hancestors, hparent]
  exact Nat.lt_succ_self _

end Arises

end Store

/-! ## Declaring a class -/

namespace Session

variable {s : Session} {origins : List Origin}

/-- The first classes of the session have these origins, all further ones come from programs, and
every declared class is flattened. -/
def FollowsChain (origins : List Origin) (s : Session) : Prop :=
  ∃ more, .host ∉ more ∧ s.store.Arises (origins ++ more) ∧
    ∀ cls decl, declarationOf? (origins ++ more) cls = some decl →
      s.store.Flattened (origins ++ more) cls decl

noncomputable instance (origins : List Origin) : DecidablePred (FollowsChain origins) :=
  Classical.decPred _

theorem followsChain (h : s.store.ArisesFrom origins) : s.FollowsChain origins := by
  obtain ⟨more, hprogram, h⟩ := h
  exact ⟨more, hprogram, h, fun cls decl hdecl => h.flattened hdecl⟩

/-- A class of the host gets the next number, or nothing happens. -/
theorem registerClass_arises (h : s.store.Arises origins) (info : ClassInfo) :
    (registerClass info s).Ends
      (fun cls s' => cls = origins.length ∧ s'.store.Arises (origins ++ [.host]))
      fun _ s' => s' = s := by
  rw [registerClass]
  cases hname : s.store.checkClassName info.name with
  | error cause =>
      rw [declareClassInfo_of_taken hname]
      rfl
  | ok _ =>
      rw [declareClassInfo_of_free hname]
      exact ⟨h.size, h.enrolled (.host info) hname⟩

/-- A declared class gets the next number and keeps it even if one of its static fields fails. -/
theorem declareClass_arises (h : s.store.Arises origins) (fuel : Nat) (decl : ClassDecl) :
    ((interpreter fuel).declareClass decl s).Ends
      (fun _ s' => s'.store.ArisesFrom (origins ++ [.declared decl]))
      fun _ s' => s' = s ∨ s'.store.ArisesFrom (origins ++ [.declared decl]) := by
  cases hinfo : ClassInfo.ofDecl s.store decl with
  | error fault =>
      have hfails : (interpreter fuel).declareClass decl s = .error fault s := by
        refine Action.bind_of_error ?_
        rw [hinfo]
        rfl
      rw [hfails]
      exact .inl rfl
  | ok info =>
      rw [declareClass_of_described hinfo]
      cases hname : s.store.checkClassName info.name with
      | error cause =>
          rw [Action.bind_of_error (declareClassInfo_of_taken hname decl.line)]
          exact .inl rfl
      | ok _ =>
          rw [Action.bind_of_ok (declareClassInfo_of_free hname decl.line)]
          have harises := (h.enrolled (.declared hinfo) hname).from
          have L := Discipline.lasting_laws (Store.lasting_arisesFrom (origins ++ [.declared decl]))
          have hcls : (s.store.enrollClass info).2.classes[s.store.classes.size]? = some info := by
            simp [Store.enrollClass]
          have hconforms := L.initializeStatics_conforms (L.interpreter_runs fuel)
            (s := { s with store := (s.store.enrollClass info).2 }) harises hcls decl.line
            (Interpreter.ownStatics info) fun field hfield => ?_
          · exact hconforms.ends.mono (fun _ _ hok => hok.2.1) fun _ _ herror => .inr herror.2.1
          · obtain ⟨-, hown⟩ := List.mem_filter.mp hfield
            rw [Bool.and_eq_true, beq_iff_eq] at hown
            exact ⟨trivial, hown⟩

end Session

/-- In every session that arises from steps of the host and of programs, the tables of every
declared class hold what a walk along its chain finds. A class that the host registers or that a
program declares is one more such class, and no evaluation, statement or program changes this,
however it ends, or is ever run where it is not so: what any `other` interpreter would do there
makes no difference. -/
theorem tables_follow_chain {s : Session} {origins : List Origin} (h : s.store.Arises origins) :
    (∀ cls decl, declarationOf? origins cls = some decl → s.store.Flattened origins cls decl) ∧
    (∀ cls, (∀ c ∈ s.store.lineage cls, declarationOf? origins c = none →
      (s.store.classInfo c).ancestors = []) → s.store.chain origins cls = s.store.lineage cls) ∧
    (∀ info, (registerClass info s).Ends
      (fun cls s' => cls = origins.length ∧ s'.FollowsChain (origins ++ [.host]))
      fun _ s' => s' = s) ∧
    (∀ fuel decl, ((interpreter fuel).declareClass decl s).Ends
      (fun _ s' => s'.FollowsChain (origins ++ [.declared decl]))
      fun _ s' => s' = s ∨ s'.FollowsChain (origins ++ [.declared decl])) ∧
    (∀ fuel e expected, (evaluate fuel e expected s).Leaves (Session.FollowsChain origins)) ∧
    (∀ fuel statement, (execute fuel statement s).Leaves (Session.FollowsChain origins)) ∧
    (∀ fuel program, (runProgram fuel program s).Leaves (Session.FollowsChain origins)) ∧
    ∀ fuel program other,
      (interpreterWithin (Session.FollowsChain origins) other fuel).execProgram program s =
        runProgram fuel program s := by
  have hlasting := Store.lasting_arisesFrom origins
  have hfollows (s' : Session) (h' : s'.store.ArisesFrom origins) : s'.FollowsChain origins :=
    Session.followsChain h'
  refine ⟨?_, ?_, ?_, ?_, ?_, ?_, ?_, ?_⟩
  · intro cls decl hdecl
    exact h.flattened hdecl
  · intro cls hhost
    exact h.chain_eq_lineage hhost
  · intro info
    refine (Session.registerClass_arises h info).mono ?_ fun _ _ hsame => hsame
    rintro cls s' ⟨hcls, harises⟩
    exact ⟨hcls, Session.followsChain harises.from⟩
  · intro fuel decl
    refine (Session.declareClass_arises h fuel decl).mono ?_ ?_
    · intro _ s' harises
      exact Session.followsChain harises
    · intro _ s' hend
      exact hend.imp_right Session.followsChain
  · intro fuel e expected
    have hleaves := hlasting.evaluate h.from fuel e expected
    exact hleaves.mono (fun _ s' => hfollows s') fun _ s' => hfollows s'
  · intro fuel statement
    have hleaves := hlasting.execute h.from fuel statement
    exact hleaves.mono (fun _ s' => hfollows s') fun _ s' => hfollows s'
  · intro fuel program
    have hleaves := hlasting.runProgram h.from fuel program
    exact hleaves.mono (fun _ s' => hfollows s') fun _ s' => hfollows s'
  · intro fuel program other
    exact hlasting.runProgram_within h.from hfollows other fuel program

/-- A class that redeclares a field of its parent. -/
theorem tables_follow_chain_redeclared :
    let program : Program :=
      [.classType (.ofStatic "A" [] "n" .int (.literal (.int 1) 1)),
        .classType (.ofStatic "B" ["A"] "n" .string (.literal (.string "x") 1))]
    let s := Session.start (fun _ => .error .unknownModule) []
    s.store.Arises [] ∧
      ∃ s', (runProgram 9 program s).state? = some s' ∧ s'.FollowsChain [] := by
  intro program s
  have hstart : s.store.Arises [] := .empty
  have hends : (runProgram 9 program s).state?.isSome = true := by decide +kernel
  obtain ⟨s', hs'⟩ := Option.isSome_iff_exists.mp hends
  obtain ⟨-, -, -, -, -, -, hprogram, -⟩ := tables_follow_chain hstart
  exact ⟨hstart, s', hs', (hprogram 9 _).of_state? hs'⟩

end ClassScript
