import Mathlib.Data.List.Perm.Basic
import ClassScript.Proofs.Coupling

/-!
# Hoisting

A program declares its functions first, then its interfaces and enumerations, then its classes, and
only then runs its other statements. Each of these passes sees the statements it is for and skips
the others, so it does not matter where among the others a declaration stands.

The functions of a program can even change places among themselves, provided that they are all
accepted. They end up in the session in another order, but evaluation only ever looks up a function
by its name. Without the proviso the order does matter: of two functions of one name the second one
is refused, and the first one stays.
-/

namespace ClassScript

/-! ## The four passes -/

inductive Pass where
  | functions
  | interfaces
  | classes
  | others
  deriving DecidableEq

/-- The pass that a statement of the top level is for. -/
def Statement.pass : Statement → Pass
  | .function _ => .functions
  | .interface _ | .enumeration _ => .interfaces
  | .classType _ => .classes
  | _ => .others

/-- The statements that a pass is for, in their order. -/
def inPass (pass : Pass) (program : Program) : Program :=
  program.filter fun statement => statement.pass = pass

namespace Interpreter

/-- A pass skips the statements it is not for. -/
theorem forEach_inPass {declare : Statement → Eval Unit} {pass : Pass}
    (hskip : ∀ statement, statement.pass ≠ pass → declare statement = pure ()) (program : Program) :
    forEach declare (inPass pass program) = forEach declare program := by
  induction program with
  | nil => rfl
  | cons statement rest ih =>
      by_cases hpass : statement.pass = pass
      · have hhead : inPass pass (statement :: rest) = statement :: inPass pass rest :=
          List.filter_cons_of_pos (decide_eq_true hpass)
        rw [hhead, forEach, forEach, ih]
      · have hhead : inPass pass (statement :: rest) = inPass pass rest :=
          List.filter_cons_of_neg (by simpa using hpass)
        rw [hhead, ih, forEach, hskip statement hpass]
        rfl

theorem hoistFunction_skips {statement : Statement} (h : statement.pass ≠ .functions) :
    hoistFunction statement = pure () := by
  cases statement with
  | function => exact absurd rfl h
  | _ => rfl

theorem hoistInterface_skips {statement : Statement} (h : statement.pass ≠ .interfaces) :
    hoistInterface statement = pure () := by
  cases statement with
  | interface | enumeration => exact absurd rfl h
  | _ => rfl

theorem hoistClass_skips (run : Interpreter) {statement : Statement}
    (h : statement.pass ≠ .classes) : run.hoistClass statement = pure () := by
  cases statement with
  | classType => exact absurd rfl h
  | _ => rfl

theorem execTopLevel_skips (run : Interpreter) {statement : Statement}
    (h : statement.pass ≠ .others) : run.execTopLevel statement = pure () := by
  cases statement with
  | function | interface | enumeration | classType => rfl
  | _ => exact absurd rfl h

variable {p q : Program}

theorem hoistFunctions_congr (h : inPass .functions p = inPass .functions q) :
    forEach hoistFunction p = forEach hoistFunction q := by
  rw [← forEach_inPass fun _ => hoistFunction_skips, h, forEach_inPass fun _ => hoistFunction_skips]

theorem execHoisted_congr (run : Interpreter)
    (h : ∀ pass, pass ≠ .functions → inPass pass p = inPass pass q) :
    run.execHoisted p = run.execHoisted q := by
  have hinterfaces : forEach hoistInterface p = forEach hoistInterface q := by
    rw [← forEach_inPass fun _ => hoistInterface_skips, h .interfaces nofun,
      forEach_inPass fun _ => hoistInterface_skips]
  have hclasses : forEach run.hoistClass p = forEach run.hoistClass q := by
    rw [← forEach_inPass fun _ => run.hoistClass_skips, h .classes nofun,
      forEach_inPass fun _ => run.hoistClass_skips]
  have hothers : forEach run.execTopLevel p = forEach run.execTopLevel q := by
    rw [← forEach_inPass fun _ => run.execTopLevel_skips, h .others nofun,
      forEach_inPass fun _ => run.execTopLevel_skips]
  rw [execHoisted, execHoisted, hinterfaces, hclasses, hothers]

end Interpreter

/-! ## Declaring functions in another order -/

namespace Table

variable {α : Type}

theorem find?_append (entries added : List (String × α)) (name : String) :
    (⟨entries ++ added⟩ : Table α).find? name =
      ((⟨entries⟩ : Table α).find? name).or ((⟨added⟩ : Table α).find? name) :=
  List.lookup_append

/-- The order of the entries of a well-keyed table does not matter to look-ups. -/
theorem WellKeyed.find?_perm {t u : Table α} (h : t.WellKeyed) (hperm : t.entries.Perm u.entries)
    (name : String) : t.find? name = u.find? name := by
  have hu : u.WellKeyed := (hperm.map Prod.fst).nodup_iff.mp h
  cases hfind : t.find? name with
  | some value => exact (hu.find?_of_mem (hperm.mem_iff.mp (mem_entries_of_find? hfind))).symm
  | none =>
      cases hother : u.find? name with
      | none => rfl
      | some value =>
          rw [h.find?_of_mem (hperm.mem_iff.mpr (mem_entries_of_find? hother))] at hfind
          cases hfind

end Table

/-- The functions that a program declares at its top level, under their names. -/
def declaredFunctions (program : Program) : List (String × FunctionDecl) :=
  program.filterMap fun
    | .function decl => some (decl.name, decl)
    | _ => none

theorem declaredFunctions_inPass (program : Program) :
    declaredFunctions (inPass .functions program) = declaredFunctions program := by
  rw [declaredFunctions, inPass, List.filterMap_filter]
  refine List.filterMap_congr fun statement _ => ?_
  cases statement <;> rfl

/-- The functions can be declared one after the other. -/
structure Accepts (functions : Table FunctionDecl) (added : List (String × FunctionDecl)) :
    Prop where
  distinct : (added.map Prod.fst).Nodup
  free : ∀ name ∈ added.map Prod.fst, Builtin.ofName? name = none ∧ functions.find? name = none

theorem accepts_nil (functions : Table FunctionDecl) : Accepts functions [] :=
  ⟨List.nodup_nil, nofun⟩

theorem accepts_cons_iff {functions : Table FunctionDecl} {name : String} {decl : FunctionDecl}
    {added : List (String × FunctionDecl)} :
    Accepts functions ((name, decl) :: added) ↔
      (Builtin.ofName? name = none ∧ functions.find? name = none) ∧
        Accepts (functions.insert name decl) added := by
  constructor
  · rintro ⟨hdistinct, hfree⟩
    obtain ⟨hnew, hdistinct⟩ := List.nodup_cons.mp hdistinct
    refine ⟨hfree name List.mem_cons_self, hdistinct, fun other hother => ?_⟩
    obtain ⟨hbuiltin, hfind⟩ := hfree other (List.mem_cons_of_mem _ hother)
    refine ⟨hbuiltin, ?_⟩
    have hne : other ≠ name := fun heq => hnew (heq ▸ hother)
    rw [Table.find?_insert, if_neg hne, hfind]
  · rintro ⟨hname, hdistinct, hfree⟩
    have hother (other : String) (hmem : other ∈ added.map Prod.fst) :
        other ≠ name ∧ Builtin.ofName? other = none ∧ functions.find? other = none := by
      obtain ⟨hbuiltin, hfind⟩ := hfree other hmem
      rw [Table.find?_insert] at hfind
      split at hfind
      · cases hfind
      next hne => exact ⟨hne, hbuiltin, hfind⟩
    refine ⟨List.nodup_cons.mpr ⟨fun hmem => (hother name hmem).1 rfl, hdistinct⟩, ?_⟩
    rintro other hmem
    rcases List.mem_cons.mp hmem with rfl | hmem
    · exact hname
    · exact (hother other hmem).2

theorem Accepts.perm {functions : Table FunctionDecl} {added added' : List (String × FunctionDecl)}
    (h : Accepts functions added) (hperm : added.Perm added') : Accepts functions added' := by
  have hnames := hperm.map Prod.fst
  exact ⟨hnames.nodup_iff.mp h.distinct, fun name hmem => h.free name (hnames.mem_iff.mpr hmem)⟩

/-- The functions of a program are declared if and only if they are all accepted, and then they
stand in the session after those declared before. -/
theorem hoistFunctions_eq_ok_iff {program : Program} {s s' : Session} :
    Interpreter.forEach Interpreter.hoistFunction program s = .ok () s' ↔
      Accepts s.functions (declaredFunctions program) ∧
        s' = { s with functions := ⟨s.functions.entries ++ declaredFunctions program⟩ } := by
  induction program generalizing s with
  | nil =>
      have hself : ({ s with functions := ⟨s.functions.entries ++ []⟩ } : Session) = s := by
        rw [List.append_nil]
      change Outcome.ok () s = .ok () s' ↔ _
      rw [declaredFunctions, List.filterMap_nil, hself, Outcome.ok.injEq]
      exact ⟨fun h => ⟨accepts_nil _, h.2.symm⟩, fun h => ⟨rfl, h.2.symm⟩⟩
  | cons statement rest ih =>
      cases statement with
      | function decl =>
          have hstep : Interpreter.forEach Interpreter.hoistFunction (.function decl :: rest) =
              (declareFunction decl >>= fun _ =>
                Interpreter.forEach Interpreter.hoistFunction rest) := rfl
          have hadded : declaredFunctions (.function decl :: rest) =
              (decl.name, decl) :: declaredFunctions rest := rfl
          rw [hstep, hadded, accepts_cons_iff]
          cases hcheck : checkFunction decl s with
          | ok _ =>
              have hfree := checkFunction_eq_ok_iff.mp hcheck
              rw [Action.bind_of_ok (declareFunction_of_ok hcheck), ih,
                Table.insert_of_find?_none hfree.2, List.append_assoc, List.singleton_append]
              exact ⟨fun h => ⟨⟨hfree, h.1⟩, h.2⟩, fun h => ⟨h.1.2, h.2⟩⟩
          | error cause =>
              rw [Action.bind_of_error (declareFunction_of_error hcheck)]
              refine ⟨nofun, fun h => ?_⟩
              rw [checkFunction_eq_ok_iff.mpr h.1.1] at hcheck
              cases hcheck
      | _ => exact ih

/-! ## Evaluation under another order -/

/-- The sessions differ in the order of their functions only. -/
structure Session.Reordered (s t : Session) : Prop where
  perm : s.functions.entries.Perm t.functions.entries
  find?_eq : ∀ name, s.functions.find? name = t.functions.find? name
  rest : t = { s with functions := t.functions }

/-- The functions stand in different orders, and nothing else differs. -/
def reordering : Coupling where
  Functions F G := F.entries.Perm G.entries ∧ ∀ name, F.find? name = G.find? name
  Included := Eq
  Since _ _ := True

namespace reordering

theorem laws : reordering.Laws where
  find? name h := h.2 name
  insert {F G name} decl h hnew := by
    refine ⟨?_, fun other => ?_⟩
    · rw [Table.insert_of_find?_none hnew, Table.insert_of_find?_none (h.2 name ▸ hnew)]
      exact h.1.append_right _
    · rw [Table.find?_insert, Table.find?_insert, h.2 other]
  since_refl _ := trivial
  since_trans _ _ := trivial

theorem reordered {s t : Session} (h : reordering.Matches s t) : s.Reordered t := by
  refine ⟨h.functions.1, h.functions.2, ?_⟩
  have hrest := h.rest
  rw [← (show s.included = t.included from h.included)] at hrest
  exact hrest

variable {run run' : Interpreter}

theorem update_couples (change : List String → List String) :
    reordering.Couples (Action.update fun s => { s with included := change s.included })
      (Action.update fun s => { s with included := change s.included }) := by
  intro s t h
  refine .ok () ⟨⟨h.functions, congrArg change h.included, ?_⟩, trivial⟩
  rw [h.rest]

theorem includeModule_couples (hrun : ∀ z, reordering.regime.Runs (Coupling.sides run run') () z)
    (path : String) (line : Nat) :
    reordering.Couples (run.includeModule path line) (run'.includeModule path line) := by
  have hknown : reordering.Couples (Action.read (·.included.contains path))
      (Action.read (·.included.contains path)) := by
    intro s t h
    have hincluded : s.included = t.included := h.included
    rw [Action.read, Action.read, hincluded]
    exact .ok _ ⟨h, trivial⟩
  refine hknown.bind laws fun known => ?_
  split
  · exact .blind laws (.pure ())
  refine (Coupling.Couples.blind laws (.ask line fun _ _ _ => rfl)).bind laws fun program => ?_
  refine (update_couples (path :: ·)).bind laws fun _ => ?_
  refine (laws.execProgram_couples hrun program).attempt.bind laws fun result => ?_
  cases result with
  | ok _ => exact .blind laws (.pure ())
  | error fault =>
      refine (update_couples (·.erase path)).bind laws fun _ => ?_
      exact .blind laws fun _ _ _ => rfl

/-- Evaluation does not depend on the order of the functions; the induction is on the fuel. -/
theorem interpreter_runs (fuel z : Nat) :
    reordering.regime.Runs (Coupling.sides (interpreter fuel) (interpreter fuel)) () z := by
  induction fuel generalizing z with
  | zero => exact laws.runs_zero z
  | succ fuel ih =>
      have hnext := laws.runs_next ih (includeModule_couples ih) fuel z
      rw [Interpreter.nextVia_includeModule] at hnext
      exact hnext

end reordering

/-- Functions that are all accepted are accepted in any order, which only reorders the table. -/
theorem hoistFunctions_perm {p q : Program}
    (hperm : (inPass .functions p).Perm (inPass .functions q)) {s s₁ : Session}
    (h : Interpreter.forEach Interpreter.hoistFunction p s = .ok () s₁) :
    ∃ t₁, Interpreter.forEach Interpreter.hoistFunction q s = .ok () t₁ ∧
      reordering.Matches s₁ t₁ := by
  have hdeclared : (declaredFunctions p).Perm (declaredFunctions q) := by
    rw [← declaredFunctions_inPass p, ← declaredFunctions_inPass q]
    exact hperm.filterMap _
  obtain ⟨haccepts, rfl⟩ := hoistFunctions_eq_ok_iff.mp h
  refine ⟨_, hoistFunctions_eq_ok_iff.mpr ⟨haccepts.perm hdeclared, rfl⟩, ⟨?_, ?_⟩, rfl, rfl⟩
  · exact hdeclared.append_left _
  · intro name
    have hkeyed : (⟨declaredFunctions p⟩ : Table FunctionDecl).WellKeyed := haccepts.distinct
    have hfind : Table.find? ⟨declaredFunctions p⟩ name = Table.find? ⟨declaredFunctions q⟩ name :=
      hkeyed.find?_perm hdeclared name
    rw [Table.find?_append, Table.find?_append, hfind]

/-- It does not matter where among its other statements a program declares its functions, its
interfaces and enumerations, and its classes. Functions that are all accepted may also change places
among themselves: then only the order of the functions of the session differs. -/
theorem declarations_hoisted (fuel : Nat) (p q : Program) (s : Session)
    (h : ∀ pass, pass ≠ .functions → inPass pass p = inPass pass q) :
    (inPass .functions p = inPass .functions q →
      runProgram fuel p s = runProgram fuel q s) ∧
    ((inPass .functions p).Perm (inPass .functions q) →
      (∃ s₁, Interpreter.forEach Interpreter.hoistFunction p s = .ok () s₁) →
      (runProgram fuel p s).SameUpTo Session.Reordered (runProgram fuel q s)) := by
  have hhoisted := (interpreter fuel).execHoisted_congr h
  refine ⟨fun hfunctions => ?_, fun hperm ⟨s₁, haccepted⟩ => ?_⟩
  · rw [runProgram, runProgram, Interpreter.execProgram_eq, Interpreter.execProgram_eq, hhoisted,
      Interpreter.hoistFunctions_congr hfunctions]
  · obtain ⟨t₁, haccepted', hmatches⟩ := hoistFunctions_perm hperm haccepted
    have hrun := Coupling.below (reordering.interpreter_runs fuel) 0
    have hcouples : reordering.Couples ((interpreter fuel).execHoisted q)
        ((interpreter fuel).execHoisted q) :=
      reordering.laws.regime.execHoisted_goes hrun (.inl trivial)
    rw [runProgram, runProgram, Interpreter.execProgram_eq, Interpreter.execProgram_eq, hhoisted,
      Action.bind_of_ok haccepted, Action.bind_of_ok haccepted']
    exact (hcouples s₁ t₁ hmatches).mono fun _ _ h => reordering.reordered h.1

/-- A class whose static field is initialized by a function, which calls another one, and a use
of the field before all three; then the same declarations in other places. -/
theorem declarations_hoisted_forward :
    let f : FunctionDecl :=
      { name := "f", params := [], returnType := .int,
        body := [.returnValue (some (.call "g" [] 3)) 3], line := 2 }
    let g : FunctionDecl :=
      { name := "g", params := [], returnType := .int,
        body := [.returnValue (some (.literal (.int 7) 5)) 5], line := 4 }
    let field : FieldDecl :=
      { decl := { name := "x", ty := .int, length := none, initializer := some (.call "f" [] 7),
                  isConst := false, line := 7 },
        access := .everyone, isStatic := true, accessors := ⟨false, false⟩ }
    let c : ClassDecl :=
      { name := "C", isStatic := false, supertypes := [], fields := [field], methods := [],
        constructor := none, line := 6 }
    let use : Statement := .expression (.member (.var "C" 1) "x" 1) 1
    let p : Program := [use, .function f, .function g, .classType c]
    let q : Program := [.function g, .classType c, use, .function f]
    let s := Session.start (fun _ => .error .unknownModule) []
    (∀ pass, pass ≠ .functions → inPass pass p = inPass pass q) ∧
      (inPass .functions p).Perm (inPass .functions q) ∧
      (∃ s₁, Interpreter.forEach Interpreter.hoistFunction p s = .ok () s₁) ∧
      (runProgram 9 p s).isOk = true ∧
      (runProgram 9 p s).SameUpTo Session.Reordered (runProgram 9 q s) := by
  intro f g field c use p q s
  have h (pass : Pass) (hpass : pass ≠ .functions) : inPass pass p = inPass pass q := by
    cases pass with
    | functions => exact absurd rfl hpass
    | interfaces | classes | others => rfl
  have hperm : (inPass .functions p).Perm (inPass .functions q) :=
    List.Perm.swap (Statement.function g) (Statement.function f) []
  have haccepted : ∃ s₁, Interpreter.forEach Interpreter.hoistFunction p s = .ok () s₁ := ⟨_, rfl⟩
  exact ⟨h, hperm, haccepted, by decide +kernel, (declarations_hoisted 9 p q s h).2 hperm haccepted⟩

end ClassScript
