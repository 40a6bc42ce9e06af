import ClassScript.Proofs.Access.Uses
import ClassScript.Proofs.Inheritance.History

/-!
# Who runs a constructor

Constructors run for two reasons: an instance is made with `new`, or a constructor runs the one of
the parent class before its own body. `new` is refused a private constructor in all code but that of
the class that declares it, also where the class of the instance has inherited it. A constructor is
not refused the one of the parent class, private or not.
-/

namespace ClassScript

/-! ## Requests for a constructor -/

namespace Session

/-- A private constructor is asked for by code of the class that declares it. -/
def MayConstruct (s : Session) (c : Construction) : Prop :=
  c.constructor.decl.access = .ownerOnly →
    s.member?.map MemberScope.owner = some c.constructor.owner

instance (s : Session) (c : Construction) : Decidable (s.MayConstruct c) :=
  inferInstanceAs (Decidable (_ → _))

/-- The running code is that of a class on the object under construction, and the parent of this
class has the constructor. -/
def ChainsTo (s : Session) (c : Construction) : Prop :=
  ∃ owner cls parent, s.member? = some { cls := c.cls, owner, self := some c.self } ∧
    s.store.findClass? owner = some cls ∧ (s.store.classInfo cls).parent? = some parent ∧
    (s.store.classInfo parent).constructor = some c.constructor

end Session

namespace Interpreter

/-- Leaves to `other` the constructors that are not granted. -/
def granting (run : Interpreter) (granted : Session → Construction → Prop)
    [∀ s c, Decidable (granted s c)] (other : Interpreter) : Interpreter :=
  { run with
    construct := fun c s => if granted s c then run.construct c s else other.construct c s }

section Granting

variable (run : Interpreter) (granted : Session → Construction → Prop)
  [∀ s c, Decidable (granted s c)] (other : Interpreter)

@[simp]
theorem granting_eval : (run.granting granted other).eval = run.eval := rfl

@[simp]
theorem granting_exec : (run.granting granted other).exec = run.exec := rfl

theorem granting_construct {s : Session} {c : Construction} (h : granted s c) :
    (run.granting granted other).construct c s = run.construct c s := if_pos h

end Granting

end Interpreter

/-- The interpreter that leaves a constructor to `other` where an expression runs one that
`viaNew` does not grant, a constructor one that `viaParent` does not grant, or a statement any. -/
def interpreterGranting (viaNew viaParent : Session → Construction → Prop)
    [∀ s c, Decidable (viaNew s c)] [∀ s c, Decidable (viaParent s c)] (other : Interpreter) :
    Nat → Interpreter
  | 0 => interpreter 0
  | fuel + 1 =>
    let run := interpreterGranting viaNew viaParent other fuel
    { eval := fun e expected => (run.granting viaNew other).evalStep e expected
      exec := fun statement => (run.granting (fun _ _ => False) other).execStep fuel statement
      construct := fun c => (run.granting viaParent other).constructStep c }

/-! ## Classes -/

namespace Store

/-- What a name means and what the parent of that class is stays so. -/
theorem lasting_parent (name : String) (cls parent : ClassId) :
    Lasting fun st =>
      st.findClass? name = some cls ∧ (st.classInfo cls).parent? = some parent where
  kept := by
    rintro st st' ⟨hfind, hparent⟩ hkeeps
    refine ⟨(hkeeps.findClass? name).trans hfind, ?_⟩
    rw [ClassInfo.parent?, hkeeps.ancestors]
    exact hparent
  enroll := by
    rintro st info ⟨hfind, hparent⟩ - hfree
    refine ⟨?_, ?_⟩
    · rw [findClass?_enrollClass, if_neg (ne_of_checkClassName hfree hfind)]
      exact hfind
    · have hne : cls ≠ st.classes.size := by
        rintro rfl
        rw [classInfo_of_le (Nat.le_refl _)] at hparent
        cases hparent
      rw [classInfo_enrollClass, if_neg hne]
      exact hparent

end Store

/-! ## Instantiation -/

namespace Interpreter

variable {fuel : Nat} {run' : Interpreter} {s s' : Session}

open Discipline in
/-- While an object gets its fields, the calls in progress stay, and so does the constructor of its
class. -/
theorem initializeFields_keeps {cls : ClassId} {self : ObjectId} {line : Nat}
    (hclass : s.store.HasClass self cls)
    (h : (interpreter fuel).initializeFields cls self line
      (instanceFields (s.store.classInfo cls)) s = .ok () s') :
    s'.calls = s.calls ∧
      (s'.store.classInfo cls).constructor = (s.store.classInfo cls).constructor := by
  -- The session is any session, so the class need not be in the store.
  rcases Nat.lt_or_ge cls s.store.classes.size with hlt | hge
  · have hconforms := free_laws.initializeFields_conforms (free_laws.interpreter_runs fuel)
      (free_inv s) line (instanceFields (s.store.classInfo cls)) (free_made self)
      hclass trivial
      fun field hfield => ⟨trivial, by simpa using (List.mem_filter.mp hfield).2⟩
    have hkeeps := (hconforms.of_ok h).1
    have hshape := congrArg ClassInfo.constructor (hkeeps.store.shape hlt)
    exact ⟨hkeeps.calls, hshape⟩
  · rw [Store.classInfo_of_le hge] at h
    cases h
    exact ⟨rfl, rfl⟩

/-- The constructor that was checked may be run as long as the same calls are in progress. -/
theorem mayConstruct_of_checked {c : Construction} {args : List Value}
    (hcheck : checkConstructor c.cls args s = .ok ())
    (hconstructor : (s.store.classInfo c.cls).constructor = some c.constructor)
    (hcalls : s'.calls = s.calls) : s'.MayConstruct c := by
  intro haccess
  rw [checkConstructor, hconstructor] at hcheck
  dsimp only [Session.checkAccess] at hcheck
  rw [haccess] at hcheck
  split at hcheck
  next hmay =>
      rw [Session.member?_of_calls hcalls]
      exact Session.mayAccess_ownerOnly.mp hmay
  next => cases hcheck

/-- `new` runs no other constructor than those that the running code may use. -/
theorem new_congr (heval : run'.eval = (interpreter fuel).eval)
    (h : ∀ (s : Session) (c : Construction), s.MayConstruct c →
      run'.construct c s = (interpreter fuel).construct c s) :
    run'.new = (interpreter fuel).new := by
  funext className arguments line s
  simp only [new, evalAll_congr heval, initializeFields_congr heval]
  refine Action.bind_congr rfl fun cls s₀ _ => ?_
  refine Action.bind_congr rfl fun args s₁ _ => ?_
  refine Action.bind_congr rfl fun _ s₂ hask => ?_
  obtain ⟨rfl, hcheck⟩ := Eval.ok_of_ask hask
  refine Action.bind_congr rfl fun self s₃ hnew => ?_
  obtain ⟨rfl, rfl⟩ := Eval.ok_of_allocate hnew
  simp only [Action.read_bind]
  refine Action.bind_congr rfl fun _ s₄ hinit => ?_
  obtain ⟨hcalls, hconstructor⟩ :=
    initializeFields_keeps (s := { s₂ with store := (s₂.store.newObject cls).2 })
      (.newObject _ cls) hinit
  simp only [Action.read_bind]
  cases hfound : (s₄.store.classInfo cls).constructor with
  | none => rfl
  | some constructor =>
      refine Action.bind_congr ?_ fun _ _ _ => rfl
      refine h s₄ _ (mayConstruct_of_checked hcheck ?_ hcalls)
      exact hconstructor.symm.trans hfound

/-! ## The constructor of the parent class -/

/-- A constructor runs no other constructor than that of the parent class. -/
theorem constructParent_congr (heval : run'.eval = (interpreter fuel).eval)
    (h : ∀ (s : Session) (c : Construction), s.ChainsTo c →
      run'.construct c s = (interpreter fuel).construct c s) {c : Construction}
    (hmember : s.member? =
      some { cls := c.cls, owner := c.constructor.owner, self := some c.self }) :
    run'.constructParent c s = (interpreter fuel).constructParent c s := by
  simp only [constructParent, evalAll_congr heval]
  refine Action.bind_congr rfl fun cls s₁ hask => ?_
  obtain ⟨rfl, hclass⟩ := Eval.ok_of_ask hask
  have hfind := (s₁.store.getClass_answers c.constructor.owner).of_ok hclass
  simp only [Action.read_bind]
  cases hparent : (s₁.store.classInfo cls).parent? with
  | none => rfl
  | some parent =>
      refine Action.bind_congr rfl fun args s₂ hargs => ?_
      simp only [Action.read_bind]
      cases hfound : (s₂.store.classInfo parent).constructor with
      | none => rfl
      | some constructor =>
          -- The arguments may declare classes, but none in place of the two at hand.
          have L := Discipline.lasting_laws (Store.lasting_parent c.constructor.owner cls parent)
          have hconforms := L.evalAll_conforms (L.interpreter_runs fuel) ⟨hfind, hparent⟩
            (c.constructor.decl.parentArguments.getD [])
          obtain ⟨hkeeps, ⟨hfind₂, hparent₂⟩, -⟩ := hconforms.of_ok hargs
          have hmember₂ := Session.member?_of_calls hkeeps.calls
          exact h s₂ _ ⟨_, cls, parent, hmember₂.trans hmember, hfind₂, hparent₂, hfound⟩

open Discipline in
/-- When the parameters are bound, the code still runs in the frame that was entered. -/
theorem member?_of_bindParameters {frame : CallFrame} {line : Nat} {params : List Param}
    {args : List Value} (h : bindParameters line params args (s.called frame) = .ok () s') :
    s'.member? = frame.member := by
  have hconforms := free_laws.bindParameters_conforms (free_inv (s.called frame)) line params args
    fun _ _ => trivial
  exact Session.member?_of_calls (hconforms.of_ok h).1.calls

theorem constructStep_congr (heval : run'.eval = (interpreter fuel).eval)
    (hexec : run'.exec = (interpreter fuel).exec)
    (h : ∀ (s : Session) (c : Construction), s.ChainsTo c →
      run'.construct c s = (interpreter fuel).construct c s) (c : Construction) :
    run'.constructStep c = (interpreter fuel).constructStep c := by
  funext s
  simp only [constructStep, execAll_congr hexec]
  refine Action.bind_congr rfl fun _ s₁ _ => ?_
  simp only [Action.read_bind]
  refine Action.bind_congr (Eval.withFrame_congr (fun _ => ?_) c.line) fun _ _ _ => rfl
  refine Action.bind_congr rfl fun _ s₂ hbind => ?_
  have hparent := constructParent_congr heval h (member?_of_bindParameters hbind)
  exact Action.bind_congr hparent fun _ _ _ => rfl

end Interpreter

/-! ## All runs -/

open Classical in
/-- Nothing is ever left to the `other` interpreter. -/
theorem interpreterGranting_eq (other : Interpreter) (fuel : Nat) :
    interpreterGranting Session.MayConstruct Session.ChainsTo other fuel = interpreter fuel := by
  induction fuel with
  | zero => rfl
  | succ fuel ih =>
      let run := interpreter fuel
      rw [interpreterGranting, interpreter, ih, Interpreter.mk.injEq]
      refine ⟨?_, ?_, ?_⟩
      · funext e expected
        have heval := run.granting_eval Session.MayConstruct other
        have hexec := run.granting_exec Session.MayConstruct other
        have hnew := Interpreter.new_congr heval
          fun s c => run.granting_construct Session.MayConstruct other
        exact Interpreter.evalStep_congr heval hexec hnew e expected
      · funext statement
        have heval := run.granting_eval (fun _ _ => False) other
        have hexec := run.granting_exec (fun _ _ => False) other
        exact Interpreter.execStep_congr heval hexec fuel statement
      · funext c
        have heval := run.granting_eval Session.ChainsTo other
        have hexec := run.granting_exec Session.ChainsTo other
        exact Interpreter.constructStep_congr heval hexec
          (fun s c => run.granting_construct Session.ChainsTo other) c

open Classical in
/-- In the run of a program, from any session, a constructor starts for two reasons only. Either
`new` runs it, and if it is private, then for code of the class that declares it. Or code of a class
runs it on its own object, and it is the constructor that the parent of this class has; whether it
is private plays no part then. What any `other` interpreter would do where a constructor starts for
another reason makes no difference. -/
theorem private_constructors_sealed_but_for_children (other : Interpreter) (fuel : Nat)
    (program : Program) (s : Session) :
    (interpreterGranting Session.MayConstruct Session.ChainsTo other fuel).execProgram program s =
      runProgram fuel program s := by
  rw [interpreterGranting_eq]
  rfl

/-- The declaration of a class with nothing but a constructor. -/
def ClassDecl.ofConstructor (name : String) (supertypes : List String) (access : Access)
    (body : List Statement) : ClassDecl where
  name := name
  isStatic := false
  supertypes := supertypes
  fields := []
  methods := []
  constructor := some { params := [], parentArguments := none, body, access, line := 1 }
  line := 1

/-- What was printed in a run that ended without a fault. -/
def Outcome.printed? {α : Type} : Outcome Session Fault α → Option (List String)
  | .ok _ s => some s.console.output.toList
  | _ => none

/-- At the top level, an instance of a class is made whose parent has a private constructor. This
constructor runs, and prints; if private constructors were left to the classes that declare them,
the program would not get that far. -/
theorem private_constructor_runs_for_child :
    let greet : Statement := .expression (.call "println" [.literal (.string "P") 1] 1) 1
    let program : Program :=
      [.classType (.ofConstructor "P" [] .ownerOnly [greet]),
        .classType (.ofConstructor "C" ["P"] .everyone []),
        .expression (.new "C" [] 2) 2]
    let s := Session.start (fun _ => .error .unknownModule) []
    let sealed := interpreterGranting Session.MayConstruct Session.MayConstruct (interpreter 0) 9
    (runProgram 9 program s).printed? = some ["P"] ∧
      (sealed.execProgram program s).printed? = none := by
  decide +kernel

end ClassScript
