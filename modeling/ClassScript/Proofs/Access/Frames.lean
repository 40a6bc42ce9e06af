import ClassScript.Proofs.Inheritance.History
import ClassScript.Proofs.Typing.Soundness

/-!
# The class of the receiver

A frame of a class names the class in whose tables the names of its code are looked up. Code runs
on an object because a method is called on it, because code that runs on it calls a method of its
own, or because its fields are initialized or a constructor is run on it. Each of these names the
class of the object in the frame, however far above it the class stands that declared the code. And
as a class is declared under a name that is free, a class that has members is found by its name,
unless the host keeps one back.
-/

namespace ClassScript

/-! ## Classes and their names -/

/-- The class has a field or a method. -/
def ClassInfo.HasMembers (info : ClassInfo) : Prop :=
  (∃ name field, info.fields.find? name = some field) ∨
    ∃ name method, info.methods.find? name = some method

namespace Store

variable {st : Store}

/-- Every class that has members is found by its name. -/
def ClassesNamed (st : Store) : Prop :=
  ∀ cls, (st.classInfo cls).HasMembers → st.findClass? (st.className cls) = some cls

theorem lasting_classesNamed : Lasting ClassesNamed where
  kept {st st'} h hkeeps cls hmembers := by
    have hfields := congrArg ClassInfo.fields (hkeeps.shape cls)
    have hmethods := congrArg ClassInfo.methods (hkeeps.shape cls)
    have hname := congrArg ClassInfo.name (hkeeps.shape cls)
    change (st'.classInfo cls).fields = (st.classInfo cls).fields at hfields
    change (st'.classInfo cls).methods = (st.classInfo cls).methods at hmethods
    change st'.className cls = st.className cls at hname
    rw [ClassInfo.HasMembers, hfields, hmethods] at hmembers
    rw [hkeeps.findClass?, hname]
    exact h cls hmembers
  enroll {st info} h _ hfree cls hmembers := by
    rw [findClass?_enrollClass, className]
    rw [classInfo_enrollClass] at hmembers ⊢
    by_cases hlast : cls = st.classes.size
    · rw [if_pos hlast, if_pos rfl, hlast]
    · rw [if_neg hlast] at hmembers ⊢
      have hfind := h cls hmembers
      rw [className] at hfind
      rw [if_neg (ne_of_checkClassName hfree hfind), hfind]

/-- A name goes on to mean the same class. -/
theorem lasting_findClass? (name : String) (cls : ClassId) :
    Lasting fun st => st.findClass? name = some cls where
  kept h hkeeps := (hkeeps.findClass? name).trans h
  enroll h _ hfree := by
    rw [findClass?_enrollClass, if_neg (ne_of_checkClassName hfree h)]
    exact h

theorem hasClass_of_holds {id : ObjectId} (h : st.Holds (.object id)) :
    st.HasClass id (st.objectCell id).cls := by
  have hcell := Array.getElem?_eq_getElem h
  refine ⟨st.objects[id], hcell, ?_⟩
  rw [objectCell, hcell]
  rfl

end Store

/-! ## Frames -/

/-- The frames of all calls in progress name the classes of their receivers. -/
structure Session.FramesMatch (s : Session) : Prop where
  sound : s.Sound
  frames : ∀ frame ∈ s.calls, ∀ scope id, frame.member = some scope → scope.self = some id →
    s.store.HasClass id scope.cls

/-- If the innermost call has a receiver, its frame names the class of it. -/
def Session.InOwnClass (s : Session) : Prop :=
  ∀ scope id, s.member? = some scope → scope.self = some id → s.store.HasClass id scope.cls

/-- If the innermost call is one of a class with members, the class is found by its name. -/
def Session.InNamedClass (s : Session) : Prop :=
  ∀ scope, s.member? = some scope → (s.store.classInfo scope.cls).HasMembers →
    s.store.findClass? (s.store.className scope.cls) = some scope.cls

noncomputable instance : DecidablePred Session.InOwnClass := Classical.decPred _

noncomputable instance : DecidablePred Session.InNamedClass := Classical.decPred _

namespace Session.FramesMatch

variable {s : Session}

theorem inOwnClass (h : s.FramesMatch) : s.InOwnClass := by
  intro scope id hscope hid
  obtain ⟨frame, hframe, hmember⟩ := Option.bind_eq_some_iff.mp hscope
  exact h.frames frame (List.mem_of_head? hframe) scope id hmember hid

theorem withStore (h : s.FramesMatch) {st : Store} (hgrows : s.store.Grows st)
    (hsound : Session.Sound { s with store := st }) :
    Session.FramesMatch { s with store := st } where
  sound := hsound
  frames frame hframe scope id hscope hid :=
    (h.frames frame hframe scope id hscope hid).grows hgrows

theorem withScopes (h : s.FramesMatch) {scopes : ScopeStack}
    (hsound : Session.Sound { s with scopes }) : Session.FramesMatch { s with scopes } :=
  ⟨hsound, h.frames⟩

end Session.FramesMatch

/-! ## The discipline of receivers -/

namespace Discipline

/-- Everything is of its type, and code runs on objects of the class that its frame names. -/
def receivers : Discipline :=
  { typing with
    Inv := Session.FramesMatch
    Receives := fun st cls id => st.HasClass id cls }

theorem receivers_laws : receivers.Laws where
  __ := typing_laws
  receives_grows hgrows h := h.grows hgrows
  receives_object _ hv := Store.hasClass_of_holds hv
  receives_self hs hscope hid := hs.inOwnClass _ _ hscope hid
  val_stored hs := typing_laws.val_stored hs.sound
  val_self hs := typing_laws.val_self hs.sound
  cls_named hs := typing_laws.cls_named hs.sound
  init_field hs := typing_laws.init_field hs.sound
  meth_found hs := typing_laws.meth_found hs.sound
  native cls hs := typing_laws.native cls hs.sound
  enter hs := hs.withScopes (typing_laws.enter hs.sound)
  exit hs hk hs' hexit := hs'.withScopes (typing_laws.exit hs.sound hk hs'.sound hexit)
  call {s frame} hs hlt hself := by
    have hsound : Session.Sound (s.called frame) :=
      typing_laws.call hs.sound hlt fun scope id hscope hid =>
        ⟨(hself scope id hscope hid).1, trivial⟩
    refine ⟨hsound, fun other hother scope id hscope hid => ?_⟩
    rcases List.mem_cons.mp hother with rfl | hother
    · exact (hself scope id hscope hid).2
    · exact hs.frames other hother scope id hscope hid
  finish hs hk hs' hexit :=
    ⟨typing_laws.finish hs.sound hk hs'.sound hexit,
      fun frame hframe => hs'.frames frame (List.mem_of_mem_tail hframe)⟩
  declare hs hv hok := hs.withScopes (typing_laws.declare hs.sound hv hok)
  assign hs hv hok := hs.withScopes (typing_laws.assign hs.sound hv hok)
  newArray {s _ _} hs hitems := by
    have h := typing_laws.newArray hs.sound hitems
    exact ⟨hs.withStore (s.store.grows_newArray _ _) h.1, h.2⟩
  putItem {s _ _ _ _ _} hs hv hok :=
    hs.withStore (s.store.grows_putItem _ _ _) (typing_laws.putItem hs.sound hv hok)
  newObject {s cls} hs hcls := by
    have h := typing_laws.newObject hs.sound hcls
    exact ⟨hs.withStore (s.store.grows_newObject cls) h.1, h.2⟩
  built_new _ := trivial
  initField {s _ _ _ _} hmade hs hinit hstatic hself hv haccepts :=
    hs.withStore (s.store.grows_putField _ _ _)
      (typing_laws.initField (hmade.imp fun _ h => ⟨h.1.sound, h.2⟩) hs.sound hinit hstatic hself
        hv haccepts)
  writeField {s _ _ _} hs hv hok :=
    hs.withStore (s.store.grows_putField _ _ _) (typing_laws.writeField hs.sound hv hok)
  enroll {s info} hs hinfo hname := by
    have h := typing_laws.enroll hs.sound hinfo hname
    exact ⟨hs.withStore (s.store.grows_enrollClass info) h.1, h.2⟩
  initStatic {s _ _ _ _} hs hinit hstatic hinfo howner hv haccepts :=
    hs.withStore (s.store.grows_putStatic _ _ _)
      (typing_laws.initStatic hs.sound hinit hstatic hinfo howner hv haccepts)
  writeStatic {s _ _ _ _} hs hv hok :=
    hs.withStore (s.store.grows_putStatic _ _ _) (typing_laws.writeStatic hs.sound hv hok)
  functions hs := ⟨typing_laws.functions hs.sound, hs.frames⟩
  console hs := ⟨typing_laws.console hs.sound, hs.frames⟩
  included hs := ⟨typing_laws.included hs.sound, hs.frames⟩

end Discipline

/-! ## Reachable sessions -/

namespace Session

variable {s : Session}

/-- Between programs no call is in progress. -/
theorem Reachable.calls_eq_nil (h : s.Reachable) : s.calls = [] := by
  have hrestores (s : Session) (fuel : Nat) (program : Program) :=
    (Balanced.of_conforms (fun L hrun hs => L.execProgram_conforms hrun hs program) fuel s).restores
  induction h with
  | fresh _ hcalls _ => exact hcalls
  | supplied _ _ _ _ _ ih => exact ih
  | registered _ _ hrun ih =>
      obtain ⟨_, s₁, hcheck, hadd⟩ := Action.ok_of_bind hrun
      obtain ⟨rfl, -⟩ := Eval.ok_of_ask hcheck
      cases hadd
      exact ih
  | @finished s s' _ fuel program hrun ih =>
      have hleaves := hrestores s fuel program
      change (runProgram fuel program s).Leaves _ at hleaves
      rw [hrun] at hleaves
      exact hleaves.calls.trans ih
  | @failed s s' _ fuel program fault hrun ih =>
      have hleaves := hrestores s fuel program
      change (runProgram fuel program s).Leaves _ at hleaves
      rw [hrun] at hleaves
      exact hleaves.calls.trans ih

theorem Reachable.framesMatch (h : s.Reachable) : s.FramesMatch := by
  refine ⟨h.sound, ?_⟩
  rw [h.calls_eq_nil]
  exact fun _ hframe => absurd hframe List.not_mem_nil

/-- Wherever a part of the program is run, the frame names the class of its receiver, so what any
`other` interpreter would do elsewhere makes no difference. -/
theorem FramesMatch.runProgram_within (h : s.FramesMatch) (fuel : Nat) (program : Program)
    (other : Interpreter) :
    (interpreterWithin InOwnClass other fuel).execProgram program s =
      runProgram fuel program s := by
  have L := Discipline.receivers_laws
  have hruns := L.interpreterWithin_runs (fun _ hs => FramesMatch.inOwnClass hs) other fuel
  exact (L.execProgram_conforms hruns h program).eq.symm

/-- The sessions that a host and its programs bring about, if the store satisfies `I` whenever the
host has been at work. -/
inductive ReachableWith (I : Store → Prop) : Session → Prop where
  | fresh {s : Session} (scopes : s.scopes = .start) (calls : s.calls = [])
      (store : s.store.Sound) (host : I s.store) : ReachableWith I s
  | supplied {s : Session} (h : ReachableWith I s) {st : Store} (grows : s.store.Grows st)
      (store : st.Sound) (host : I st) (loader : Loader) (console : Console) :
      ReachableWith I { s with store := st, loader, console }
  | registered {s s' : Session} (h : ReachableWith I s) {info : ClassInfo} {cls : ClassId}
      (sound : s.store.ClassSound info) (run : registerClass info s = .ok cls s')
      (host : I s'.store) : ReachableWith I s'
  | finished {s s' : Session} (h : ReachableWith I s) {fuel : Nat} {program : Program}
      (run : runProgram fuel program s = .ok () s') : ReachableWith I s'
  | failed {s s' : Session} (h : ReachableWith I s) {fuel : Nat} {program : Program}
      {fault : Fault} (run : runProgram fuel program s = .error fault s') : ReachableWith I s'

namespace ReachableWith

variable {I : Store → Prop}

/-- What the host observes and programs do not disturb is always so. -/
theorem lasts (h : s.ReachableWith I) (hI : Store.Lasting I) : I s.store := by
  induction h with
  | fresh _ _ _ hhost | supplied _ _ _ hhost _ _ _ | registered _ _ _ hhost _ => exact hhost
  | @finished s s' _ fuel program hrun ih =>
      have hleaves := hI.runProgram ih fuel program
      rw [hrun] at hleaves
      exact hleaves
  | @failed s s' _ fuel program fault hrun ih =>
      have hleaves := hI.runProgram ih fuel program
      rw [hrun] at hleaves
      exact hleaves

end ReachableWith

theorem inNamedClass_of_classesNamed (h : s.store.ClassesNamed) : s.InNamedClass :=
  fun scope _ hmembers => h scope.cls hmembers

end Session

end ClassScript
