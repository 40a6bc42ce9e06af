import ClassScript.Proofs.Inheritance.Overlay
import ClassScript.Proofs.Lasting
import ClassScript.Proofs.Declaring

/-!
# Failed class declarations

A class is declared before its static fields get their values, since their initializers run as code
of the class. What goes wrong before that leaves the session as it was. What goes wrong later does
not undo what the initializers did: the classes that their code declared stay, be it the code of a
module, of a function or of a method. Other names come neither in nor out.
-/

namespace ClassScript

/-- A class of this name is declared. -/
def Session.Declares (s : Session) (name : String) : Prop :=
  ∃ cls, s.store.findClass? name = some cls

theorem Session.declares_iff_gained {s s' : Session} {name : String}
    (h : s.Declares name → s'.Declares name) :
    s'.Declares name ↔ s.Declares name ∨ ¬ s.Declares name ∧ s'.Declares name := by
  refine ⟨fun hafter => ?_, fun hsplit => hsplit.elim h And.right⟩
  by_cases hbefore : s.Declares name
  · exact .inl hbefore
  · exact .inr ⟨hbefore, hafter⟩

theorem Store.lasting_declared (name : String) :
    Store.Lasting fun st => ∃ cls, st.findClass? name = some cls where
  kept := fun ⟨cls, hcls⟩ hkeeps => ⟨cls, (hkeeps.findClass? name).trans hcls⟩
  enroll := by
    rintro st info ⟨cls, hcls⟩ - -
    rw [findClass?_enrollClass]
    split
    next => exact ⟨_, rfl⟩
    next => exact ⟨cls, hcls⟩

namespace Interpreter

/-- The static fields `fields` get their values from `s` on until one of them fails. The list holds
the session before and the session after each initial value that is computed; the last one fails. -/
inductive FailsAmong (run : Interpreter) (cls : ClassId) (owner : String) (line : Nat)
    (fault : Fault) (s' : Session) :
    List FieldInfo → Session → List (Session × Session) → Prop where
  | here {field : FieldInfo} {rest : List FieldInfo} {s : Session}
      (fails : run.fieldValue field { cls, owner, self := none } line s = .error fault s') :
      FailsAmong run cls owner line fault s' (field :: rest) s [(s, s')]
  | later {field : FieldInfo} {rest : List FieldInfo} {s s₁ : Session} {v : Value}
      {evaluations : List (Session × Session)}
      (gives : run.fieldValue field { cls, owner, self := none } line s = .ok v s₁)
      (after : FailsAmong run cls owner line fault s' rest
        { s₁ with store := s₁.store.putStatic cls field.name v } evaluations) :
      FailsAmong run cls owner line fault s' (field :: rest) s ((s, s₁) :: evaluations)

variable {cls : ClassId} {owner : String} {line : Nat} {fault : Fault} {s s' : Session}
  {fields : List FieldInfo}

theorem failsAmong_of_error {run : Interpreter}
    (h : run.initializeStatics cls owner line fields s = .error fault s') :
    ∃ evaluations, FailsAmong run cls owner line fault s' fields s evaluations := by
  induction fields generalizing s with
  | nil => cases h
  | cons field rest ih =>
      rw [initializeStatics] at h
      cases hvalue : run.fieldValue field { cls, owner, self := none } line s with
      | ok v s₁ =>
          rw [Action.bind_of_ok hvalue] at h
          obtain ⟨evaluations, hrest⟩ := ih h
          exact ⟨_, .later hvalue hrest⟩
      | error fault' s₁ =>
          rw [Action.bind_of_error hvalue] at h
          cases h
          exact ⟨_, .here hvalue⟩
      | exhausted =>
          rw [Action.bind_of_exhausted hvalue] at h
          cases h

/-- An initializer does not take a class away. -/
theorem fieldValue_keeps_declared (fuel : Nat) (field : FieldInfo) (cls : ClassId)
    (owner : String) (line : Nat) {name : String} (h : s.Declares name) :
    ((interpreter fuel).fieldValue field { cls, owner, self := none } line s).Leaves
      fun s' => s'.Declares name := by
  have L := Discipline.lasting_laws (Store.lasting_declared name)
  exact (L.fieldValue_conforms (L.interpreter_runs fuel) (s := s) h (fun _ _ => trivial)
    { cls, owner, self := none } line nofun).leaves

/-- Names are gained only while an initial value is computed, and none is lost. The induction is on
the fields; putting a static value changes no name. -/
theorem FailsAmong.declares_iff {fuel : Nat} {evaluations : List (Session × Session)}
    (h : FailsAmong (interpreter fuel) cls owner line fault s' fields s evaluations)
    (name : String) :
    s'.Declares name ↔ s.Declares name ∨
      ∃ e ∈ evaluations, ¬ e.1.Declares name ∧ e.2.Declares name := by
  induction h with
  | @here field rest s fails =>
      have hkeeps (hs : s.Declares name) :=
        fieldValue_keeps_declared fuel field cls owner line hs
      rw [fails] at hkeeps
      simp only [List.mem_singleton, exists_eq_left]
      exact Session.declares_iff_gained hkeeps
  | @later field rest s s₁ v evaluations gives after ih =>
      have hkeeps (hs : s.Declares name) :=
        fieldValue_keeps_declared fuel field cls owner line hs
      rw [gives] at hkeeps
      have hput : Session.Declares { s₁ with store := s₁.store.putStatic cls field.name v } name ↔
          s₁.Declares name := Iff.rfl
      rw [ih, hput, List.exists_mem_cons_iff, ← or_assoc]
      exact or_congr_left (Session.declares_iff_gained hkeeps)

end Interpreter

/-- A class declaration that fails before the static fields get their values leaves the session as
it was. One that fails later found its name free, and then every other name is declared if it was
before or if computing one of the initial values has brought it in. -/
theorem failed_declaration_keeps_names {fuel : Nat} {decl : ClassDecl} {s s' : Session}
    {fault : Fault} (h : (interpreter fuel).declareClass decl s = .error fault s') :
    (s' = s ∧ (ClassInfo.ofDecl s.store decl = .error fault ∨
      s.Declares decl.name ∧
        fault = { cause := .classAlreadyDeclared decl.name, line := decl.line })) ∨
    ∃ info evaluations, ClassInfo.ofDecl s.store decl = .ok info ∧ ¬ s.Declares decl.name ∧
      (interpreter fuel).FailsAmong s.store.classes.size decl.name decl.line fault s'
        (Interpreter.ownStatics info) { s with store := (s.store.enrollClass info).2 }
        evaluations ∧
      ∀ name, name ≠ decl.name → (s'.Declares name ↔ s.Declares name ∨
        ∃ e ∈ evaluations, ¬ e.1.Declares name ∧ e.2.Declares name) := by
  cases hinfo : ClassInfo.ofDecl s.store decl with
  | error found =>
      have hfails : (interpreter fuel).declareClass decl s = .error found s := by
        refine Action.bind_of_error ?_
        rw [hinfo]
        rfl
      rw [hfails] at h
      cases h
      exact .inl ⟨rfl, .inl rfl⟩
  | ok info =>
      have hname : info.name = decl.name := (ClassInfo.Extends.ofDecl hinfo).name
      rw [Session.declareClass_of_described hinfo] at h
      cases hfind : s.store.findClass? info.name with
      | some cls =>
          have htaken := Store.checkClassName_of_taken hfind
          rw [Action.bind_of_error (Session.declareClassInfo_of_taken htaken decl.line)] at h
          cases h
          rw [hname] at hfind ⊢
          exact .inl ⟨rfl, .inr ⟨⟨cls, hfind⟩, rfl⟩⟩
      | none =>
          rw [Action.bind_of_ok
            (Session.declareClassInfo_of_free (Store.checkClassName_of_free hfind) decl.line),
            hname] at h
          obtain ⟨evaluations, hfails⟩ := Interpreter.failsAmong_of_error h
          refine .inr ⟨info, evaluations, rfl, ?_, hfails, fun name hne => ?_⟩
          · rintro ⟨cls, hcls⟩
            rw [← hname, hfind] at hcls
            cases hcls
          · -- Entering the class itself has changed no other name.
            rw [hfails.declares_iff, Session.Declares, Store.findClass?_enrollClass,
              if_neg (hname ▸ hne), Session.Declares]

/-! ## A class that fails late -/

namespace FailingClass

def other : ClassDecl where
  name := "B"
  isStatic := false
  supertypes := []
  fields := []
  methods := []
  constructor := none
  line := 1

/-- A function that declares the other class. -/
def function : FunctionDecl where
  name := "f"
  params := []
  returnType := .int
  body := [.classType other, .returnValue (some (.literal (.int 1) 1)) 1]
  line := 1

def field (name : String) (initializer : Expr) : FieldDecl where
  decl :=
    { name, ty := .int, length := none, initializer := some initializer, isConst := false
      line := 2 }
  access := .everyone
  isStatic := true
  accessors := { getter := false, setter := false }

/-- The first static field calls the function; the second one fails. -/
def decl : ClassDecl where
  name := "A"
  isStatic := false
  supertypes := []
  fields := [field "x" (.call "f" [] 2),
             field "y" (.binary (.literal (.int 1) 2) .divide (.literal (.int 0) 2) 2)]
  methods := []
  constructor := none
  line := 2

/-- The function is declared, and there are no modules. -/
def session : Session :=
  { Session.start (fun _ => .error .unknownModule) [] with
    functions := Table.empty.insert "f" function }

theorem fails : ∃ fault s', (interpreter 9).declareClass decl session = .error fault s' ∧
    s'.store.classNames.names = ["A", "B"] := by
  have hrun : ((interpreter 9).declareClass decl session).isErrorWith
      (fun _ s' => s'.store.classNames.names == ["A", "B"]) = true := by decide +kernel
  obtain ⟨fault, s', hfails, hnames⟩ := Outcome.exists_of_isErrorWith hrun
  exact ⟨fault, s', hfails, beq_iff_eq.mp hnames⟩

end FailingClass

/-- The declaration of `A` fails, no module is there to be included, and yet there are names after
it that were not there before. -/
theorem failed_class_leaves_names :
    ∃ fault s', (interpreter 9).declareClass FailingClass.decl FailingClass.session =
        .error fault s' ∧
      FailingClass.session.store.classNames.names = [] ∧
      s'.store.classNames.names = ["A", "B"] := by
  obtain ⟨fault, s', hfails, hnames⟩ := FailingClass.fails
  exact ⟨fault, s', hfails, rfl, hnames⟩

/-- It is while an initial value of `A` is computed that `B` is declared. -/
theorem failed_declaration_keeps_names_of_failingClass :
    ∃ fault s' info evaluations,
      (interpreter 9).declareClass FailingClass.decl FailingClass.session = .error fault s' ∧
      (interpreter 9).FailsAmong 0 "A" 2 fault s' (Interpreter.ownStatics info)
        { FailingClass.session with
          store := (FailingClass.session.store.enrollClass info).2 } evaluations ∧
      ∃ e ∈ evaluations, ¬ e.1.Declares "B" ∧ e.2.Declares "B" := by
  obtain ⟨fault, s', hfails, hnames⟩ := FailingClass.fails
  have hbefore : ¬ FailingClass.session.Declares "B" := nofun
  have hafter : s'.Declares "B" := Table.mem_names_iff.mp (by rw [hnames]; decide)
  rcases failed_declaration_keeps_names hfails with
    ⟨rfl, -⟩ | ⟨info, evaluations, -, -, hamong, hdeclares⟩
  · exact absurd hafter hbefore
  · exact ⟨fault, s', info, evaluations, hfails, hamong,
      ((hdeclares "B" (by decide)).mp hafter).resolve_left hbefore⟩

end ClassScript
