import ClassScript.Proofs.Isolation
import ClassScript.Proofs.Regimes.Steps

/-!
# Where a module puts its variables

An `include` runs the statements of a module where it stands: what the module declares is bound in
the block that is the innermost one at the time, and is gone when that block ends. Only an `include`
that stands in the global block itself makes the module's variables global; from then on they are
bound there during every program that follows. An `include` in a block, a loop or a function leaves
the global block alone, and since a module runs only once, its variables are then lost for good.
-/

namespace ClassScript

/-! ## The global block -/

/-- The block around all others of the activation. -/
def Activation.outermost (a : Activation) : Block := a.outer.getLastD a.block

/-- The outermost block of the activation that all others suspended. -/
def ScopeStack.global (scopes : ScopeStack) : Block :=
  (scopes.suspended.getLastD scopes.current).outermost

/-- The global block binds the name. -/
def Session.bindsGlobally (s : Session) (name : String) : Bool :=
  s.scopes.global.bindings.contains name

namespace ScopeStack

variable {scopes scopes' : ScopeStack}

theorem le_foldl_depth (activations : List Activation) (n : Nat) :
    n + activations.length ≤ activations.foldl (fun n a => n + a.depth) n := by
  induction activations generalizing n with
  | nil => exact Nat.le_refl n
  | cons a rest ih =>
      have hrest := ih (n + a.depth)
      have hdepth : 1 ≤ a.depth := Nat.le_add_left 1 a.outer.length
      rw [List.foldl_cons, List.length_cons]
      omega

theorem eq_nil_of_depth (h : scopes.depth = 1) :
    scopes.current.outer = [] ∧ scopes.suspended = [] := by
  have hle := le_foldl_depth scopes.suspended scopes.current.depth
  rw [depth] at h
  rw [h, Activation.depth] at hle
  exact ⟨List.eq_nil_of_length_eq_zero (by omega), List.eq_nil_of_length_eq_zero (by omega)⟩

/-- Blocks and calls under which code runs hide what it binds from the global block. -/
theorem global_congr (h : scopes.depth ≠ 1) (hsuspended : scopes'.suspended = scopes.suspended)
    (houter : scopes'.current.outer = scopes.current.outer) : scopes'.global = scopes.global := by
  rw [global, global, hsuspended]
  cases hs : scopes.suspended with
  | nil =>
      change scopes'.current.outermost = scopes.current.outermost
      rw [Activation.outermost, Activation.outermost, houter]
      cases ho : scopes.current.outer with
      | nil =>
          rw [depth, hs, List.foldl_nil, Activation.depth, ho] at h
          exact absurd rfl h
      | cons around outer => rfl
  | cons caller suspended => rfl

theorem global_enter (scopes : ScopeStack) : scopes.enter.global = scopes.global := by
  obtain ⟨⟨slots, block, outer⟩, suspended⟩ := scopes
  cases suspended with
  | nil => exact List.getLastD_cons (a := { base := slots.size, bindings := block.bindings })
  | cons caller suspended => rfl

theorem global_enterIsolated (scopes : ScopeStack) :
    scopes.enterIsolated.global = scopes.global :=
  congrArg Activation.outermost List.getLastD_cons

theorem global_exit (h : scopes.exit = .ok scopes') : scopes'.global = scopes.global := by
  obtain ⟨⟨slots, block, outer⟩, suspended⟩ := scopes
  cases outer with
  | cons around outer =>
      cases h
      cases suspended with
      | nil => exact (List.getLastD_cons (a := block)).symm
      | cons caller suspended => rfl
  | nil =>
      cases suspended with
      | nil => cases h
      | cons caller suspended =>
          cases h
          exact (congrArg Activation.outermost List.getLastD_cons).symm

theorem global_write (scopes : ScopeStack) (id : Nat) (v : Value) :
    (scopes.write id v).global = scopes.global := by
  obtain ⟨current, suspended⟩ := scopes
  cases suspended <;> rfl

/-- With one block open, that block is the global one. -/
theorem global_of_depth (h : scopes.depth = 1) : scopes.global = scopes.current.block := by
  obtain ⟨⟨slots, block, outer⟩, suspended⟩ := scopes
  obtain ⟨rfl, rfl⟩ := eq_nil_of_depth h
  rfl

end ScopeStack

theorem Session.bindsGlobally_congr {s s' : Session} (h : s'.scopes.global = s.scopes.global)
    (name : String) : s'.bindsGlobally name = s.bindsGlobally name := by
  rw [bindsGlobally, bindsGlobally, h]

/-- Code of the top level sees what the global block binds, and nothing else. -/
theorem Session.bindsGlobally_of_depth {s : Session} (h : s.scopes.depth = 1) (name : String) :
    s.bindsGlobally name = s.scopes.contains name := by
  rw [bindsGlobally, ScopeStack.global_of_depth h]
  rfl

/-- A declaration adds a name to the global block or leaves the block alone. -/
theorem Session.bindsGlobally_bind {s : Session} {name : String} (h : s.bindsGlobally name = true)
    (other : String) (slot : Slot) :
    ({ s with scopes := s.scopes.bind other slot } : Session).bindsGlobally name = true := by
  by_cases hdepth : s.scopes.depth = 1
  · have hdepth' : (s.scopes.bind other slot).depth = 1 :=
      (ScopeStack.Keeps.bind s.scopes other slot).depth_eq.trans hdepth
    rw [bindsGlobally_of_depth hdepth] at h
    rw [bindsGlobally_of_depth (s := { s with scopes := s.scopes.bind other slot }) hdepth']
    change ((s.scopes.current.block.bindings.insert other _).find? name).isSome = true
    rw [Table.find?_insert]
    split
    · rfl
    · exact h
  · have hglobal : (s.scopes.bind other slot).global = s.scopes.global :=
      ScopeStack.global_congr hdepth rfl rfl
    rw [bindsGlobally, hglobal]
    exact h

/-! ## What is global stays global -/

/-- The global block binds the name. -/
def Discipline.binding (name : String) : Discipline :=
  { free with Inv := fun s => s.bindsGlobally name = true }

namespace Discipline

theorem binding_laws (name : String) : (binding name).Laws where
  __ := free_laws
  val_stored _ _ := trivial
  val_self _ _ _ := trivial
  cls_named _ _ := trivial
  init_field _ _ _ := trivial
  meth_found _ _ := False.elim
  native {s _ _ _} cls _ := free_laws.native cls (free_inv s)
  enter hs := (Session.bindsGlobally_congr (ScopeStack.global_enter _) name).trans hs
  exit _ _ hs hexit := (Session.bindsGlobally_congr (ScopeStack.global_exit hexit) name).trans hs
  call hs _ _ := (Session.bindsGlobally_congr (ScopeStack.global_enterIsolated _) name).trans hs
  finish _ _ hs hexit := (Session.bindsGlobally_congr (ScopeStack.global_exit hexit) name).trans hs
  declare hs _ _ := Session.bindsGlobally_bind hs _ _
  assign hs _ _ := (Session.bindsGlobally_congr (ScopeStack.global_write _ _ _) name).trans hs
  newArray hs _ := ⟨hs, trivial⟩
  putItem hs _ _ := hs
  newObject hs _ := ⟨hs, trivial⟩
  built_new _ := trivial
  receives_object _ _ := trivial
  receives_self _ _ _ := trivial
  initField _ hs _ _ _ _ _ := hs
  writeField hs _ _ := hs
  enroll hs _ _ := ⟨hs, trivial⟩
  initStatic hs _ _ _ _ _ _ := hs
  writeStatic hs _ _ := hs
  functions hs := hs
  console hs := hs
  included hs := hs

end Discipline

/-- A later program, whatever it does and however it ends, leaves the name bound in the global
block; the name is bound there whenever a part of the program is run, so what any `other`
interpreter would do elsewhere makes no difference. -/
structure Session.BindsForGood (s : Session) (name : String) : Prop where
  now : s.bindsGlobally name = true
  later (fuel : Nat) (program : Program) :
    (runProgram fuel program s).Leaves fun s' => s'.bindsGlobally name = true
  within (other : Interpreter) (fuel : Nat) (program : Program) :
    (interpreterWithin (fun s' => s'.bindsGlobally name = true) other fuel).execProgram program s =
      runProgram fuel program s

theorem Session.bindsForGood {s : Session} {name : String} (h : s.bindsGlobally name = true) :
    s.BindsForGood name := by
  have L := Discipline.binding_laws name
  refine ⟨h, fun fuel program => ?_, fun other fuel program => ?_⟩
  · exact (L.execProgram_conforms (L.interpreter_runs fuel) h program).leaves
  · have hwithin := L.interpreterWithin_runs (P := fun s' => s'.bindsGlobally name = true)
      (fun _ hs => hs) other fuel
    exact (L.execProgram_conforms hwithin h program).eq.symm

/-! ## What a module binds -/

namespace Interpreter

/-- A statement among others that all ended normally ran in a session that the ones before it led
to, and the ones after it led to the end. -/
theorem forEach_reaches {s s' : Session} {K : Session → Session → Prop} (hrefl : ∀ s, K s s)
    (htrans : ∀ {s₁ s₂ s₃}, K s₁ s₂ → K s₂ s₃ → K s₁ s₃) {declare : Statement → Eval Unit}
    (hstep : ∀ {statement s s'}, declare statement s = .ok () s' → K s s') {program : Program}
    (h : forEach declare program s = .ok () s') :
    K s s' ∧ ∀ statement ∈ program, ∃ s₁ s₂,
      K s s₁ ∧ declare statement s₁ = .ok () s₂ ∧ K s₂ s' := by
  induction program generalizing s with
  | nil =>
      cases h
      exact ⟨hrefl _, nofun⟩
  | cons first rest ih =>
      obtain ⟨_, s₁, hfirst, hrest⟩ := Action.ok_of_bind h
      obtain ⟨hkept, hmem⟩ := ih hrest
      have hstart := hstep hfirst
      refine ⟨htrans hstart hkept, fun statement hstatement => ?_⟩
      rcases List.mem_cons.mp hstatement with rfl | hstatement
      · exact ⟨s, s₁, hrefl s, hfirst, hkept⟩
      · obtain ⟨s₂, s₃, hbefore, hrun, hafter⟩ := hmem statement hstatement
        exact ⟨s₂, s₃, htrans hstart hbefore, hrun, hafter⟩

/-- A variable declaration of the top level binds its name to a new slot. -/
theorem execTopLevel_declare {fuel : Nat} {decl : VariableDecl} {s s' : Session}
    (h : (interpreter fuel).execTopLevel (.declare decl) s = .ok () s') :
    ∃ slot, s.scopes.current.slots.size ≤ slot ∧ s'.scopes.slotOf? decl.name = some slot := by
  cases fuel with
  | zero => cases h
  | succ fuel =>
      obtain ⟨signal, s₂, hexec, hescape⟩ := Action.ok_of_bind h
      obtain ⟨_, s₃, hdeclaration, hnormal⟩ := Action.ok_of_bind hexec
      cases hnormal
      cases hescape
      obtain ⟨v, s₁, hvalue, hdeclare⟩ := Action.ok_of_bind hdeclaration
      obtain ⟨_, s₄, hask, hbind⟩ := Action.ok_of_bind hdeclare
      obtain ⟨rfl, -⟩ := Eval.ok_of_ask hask
      cases hbind
      have L := Discipline.free_laws
      have hkept := (L.declaredValue_conforms (L.interpreter_runs fuel)
        (Discipline.free_inv s) decl).of_ok hvalue
      refine ⟨_, hkept.1.scopes.size_le, ?_⟩
      exact (Table.find?_insert _ _ _ _).trans (if_pos rfl)

end Interpreter

/-- A program that runs to its end binds the variables that it declares at its top level to new
slots of the block in which it started. -/
theorem execProgram_declares {fuel : Nat} {program : Program} {s s' : Session}
    (h : (interpreter fuel).execProgram program s = .ok () s') :
    s.scopes.Keeps true s'.scopes ∧ ∀ decl, .declare decl ∈ program →
      ∃ slot, s.scopes.current.slots.size ≤ slot ∧ s'.scopes.slotOf? decl.name = some slot := by
  have L := Discipline.free_laws
  have hrun := L.interpreter_runs fuel
  have hpass {declare : Statement → Eval Unit}
      (hstep : ∀ statement s, Discipline.free.Conforms true s (declare statement)
        (declare statement) fun _ _ => True) {s s' : Session}
      (h : Interpreter.forEach declare program s = .ok () s') :=
    Interpreter.forEach_reaches (K := fun s s' => s.scopes.Keeps true s'.scopes)
      (fun s => .refl true s.scopes) .trans (fun h => ((hstep _ _).of_ok h).1.scopes) h
  obtain ⟨_, s₁, hfunctions, h⟩ := Action.ok_of_bind h
  obtain ⟨_, s₂, hinterfaces, h⟩ := Action.ok_of_bind h
  obtain ⟨_, s₃, hclasses, hothers⟩ := Action.ok_of_bind h
  have hfirst := hpass (fun statement s =>
    (L.hoistFunction_conforms (Discipline.free_inv s) statement).weaken true) hfunctions
  have hsecond := hpass (fun statement s =>
    (L.hoistInterface_conforms (Discipline.free_inv s) statement).weaken true) hinterfaces
  have hthird := hpass (fun statement s =>
    (L.hoistClass_conforms hrun (Discipline.free_inv s) statement).weaken true) hclasses
  have hhoisted := (hfirst.1.trans hsecond.1).trans hthird.1
  have hconforms (statement : Statement) (s : Session) :=
    (L.execTopLevel_conforms hrun (Discipline.free_inv s) statement).toBinding
  obtain ⟨hkept, hmem⟩ := hpass hconforms hothers
  refine ⟨hhoisted.trans hkept, fun decl hdecl => ?_⟩
  obtain ⟨s₄, s₅, hbefore, hdeclare, hafter⟩ := hmem _ hdecl
  obtain ⟨slot, hslot, hbound⟩ := Interpreter.execTopLevel_declare hdeclare
  have hsize := (hhoisted.trans hbefore).size_le
  have hstep := (hconforms (.declare decl) s₄).of_ok hdeclare
  -- What comes later may shadow the name, but only with a newer slot.
  rcases hafter.slotOf decl.name slot hbound with hlast | ⟨new, hnew, hlast⟩
  · exact ⟨slot, Nat.le_trans hsize hslot, hlast⟩
  · exact ⟨new, Nat.le_trans (Nat.le_trans hsize hstep.1.scopes.size_le) hnew, hlast⟩

/-- A module that is included for the first time and succeeds binds the variables that it declares
at its top level in the innermost block, to slots that did not exist before. The blocks around it
and the suspended calls are as before. If the global block is the only one open, the variables are
global for good; if not, the global block is as before. -/
theorem include_declares_innermost {fuel : Nat} {path : String} {line : Nat} {s s' : Session}
    {program : Program} (hnew : s.included.contains path = false)
    (hload : s.loader path = .ok program)
    (hrun : (interpreter fuel).includeModule path line s = .ok () s') :
    (∀ decl, .declare decl ∈ program →
      ∃ slot, s.scopes.current.slots.size ≤ slot ∧ s'.scopes.slotOf? decl.name = some slot) ∧
    s'.scopes.suspended = s.scopes.suspended ∧
    s'.scopes.current.outer = s.scopes.current.outer ∧
    (s.scopes.depth = 1 → ∀ decl, .declare decl ∈ program → s'.BindsForGood decl.name) ∧
    (s.scopes.depth ≠ 1 → s'.scopes.global = s.scopes.global) := by
  rw [(interpreter fuel).includeModule_of_new line hnew hload] at hrun
  cases hprogram : (interpreter fuel).execProgram program
      { s with included := path :: s.included } with
  | ok _ s₁ =>
      rw [hprogram] at hrun
      cases hrun
      obtain ⟨hkept, hdeclares⟩ := execProgram_declares hprogram
      refine ⟨hdeclares, hkept.suspended, hkept.outer, fun hdepth decl hdecl => ?_,
        fun hdepth => ?_⟩
      · refine Session.bindsForGood ?_
        obtain ⟨slot, -, hslot⟩ := hdeclares decl hdecl
        have hdepth' : s'.scopes.depth = 1 := hkept.depth_eq.trans hdepth
        rw [Session.bindsGlobally_of_depth hdepth']
        exact Option.isSome_of_mem hslot
      · exact ScopeStack.global_congr hdepth hkept.suspended hkept.outer
  | error fault s₁ =>
      rw [hprogram] at hrun
      cases hrun
  | exhausted =>
      rw [hprogram] at hrun
      cases hrun

/-- At the top level, a module that declares a variable makes it global. -/
theorem include_declares_innermost_global :
    let x : VariableDecl :=
      { name := "x", ty := .int, length := none, initializer := some (.literal (.int 1) 1),
        isConst := false, line := 1 }
    let s := Session.start (fun _ => .ok [.declare x]) []
    ∃ s', s.included.contains "m" = false ∧ s.loader "m" = .ok [.declare x] ∧
      (interpreter 9).includeModule "m" 1 s = .ok () s' ∧ s.scopes.depth = 1 ∧
      s'.BindsForGood "x" := by
  intro x s
  have hnew : s.included.contains "m" = false := rfl
  have hload : s.loader "m" = .ok [.declare x] := rfl
  obtain ⟨s', hrun⟩ : ∃ s', (interpreter 9).includeModule "m" 1 s = .ok () s' := ⟨_, rfl⟩
  have hplaced := include_declares_innermost hnew hload hrun
  exact ⟨s', hnew, hload, hrun, rfl, hplaced.2.2.2.1 rfl x List.mem_cons_self⟩

/-- In a block, the same module succeeds and is recorded as included, but its variable is not
visible to the code after the block. -/
theorem include_in_block_not_global :
    let x : VariableDecl :=
      { name := "x", ty := .int, length := none, initializer := some (.literal (.int 1) 1),
        isConst := false, line := 1 }
    let s := Session.start (fun _ => .ok [.declare x]) []
    let run := runProgram 9 [.block [.includeModule "m" 1] 1] s
    run.isOk = true ∧ run.Ends (fun _ s' => s'.included.contains "m" = true ∧
      s'.scopes.depth = 1 ∧ s'.bindsGlobally "x" = false ∧ s'.scopes.contains "x" = false)
      (fun _ _ => False) := by
  decide +kernel

end ClassScript
