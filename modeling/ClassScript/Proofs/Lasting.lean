import ClassScript.Proofs.Balance
import ClassScript.Proofs.Typing.Store

/-!
# Lasting facts about classes

While a program runs, a class changes only in the values of its static fields, and new classes come
only from declarations. A fact that survives these two steps holds at the end of every run, however
it ends, and whenever a part of the run starts.
-/

namespace ClassScript

/-! ## The same classes -/

namespace Store

/-- The same classes under the same names, but for the values of their static fields. -/
structure KeepsClasses (st st' : Store) : Prop where
  grows : st.Grows st'
  size : st'.classes.size = st.classes.size
  classNames : st'.classNames = st.classNames

namespace KeepsClasses

variable {st st' : Store}

theorem shape (h : st.KeepsClasses st') (cls : ClassId) :
    (st'.classInfo cls).shape = (st.classInfo cls).shape := by
  rcases Nat.lt_or_ge cls st.classes.size with hlt | hge
  · exact h.grows.shape hlt
  · have hge' : st'.classes.size ≤ cls := h.size.symm ▸ hge
    rw [classInfo_of_le hge, classInfo_of_le hge']

theorem ancestors (h : st.KeepsClasses st') (cls : ClassId) :
    (st'.classInfo cls).ancestors = (st.classInfo cls).ancestors := by
  have hshape := congrArg ClassInfo.ancestors (h.shape cls)
  exact hshape

theorem findClass? (h : st.KeepsClasses st') (name : String) :
    st'.findClass? name = st.findClass? name := by
  rw [Store.findClass?, Store.findClass?, h.classNames]

end KeepsClasses

theorem keepsClasses_putStatic (st : Store) (cls : ClassId) (name : String) (v : Value) :
    st.KeepsClasses (st.putStatic cls name v) where
  grows := st.grows_putStatic cls name v
  size := Array.size_modify
  classNames := rfl

/-! ## Facts that last -/

/-- A fact about the classes in the store that lasts while programs run. -/
structure Lasting (I : Store → Prop) : Prop where
  kept {st st' : Store} : I st → st.KeepsClasses st' → I st'
  enroll {st : Store} {info : ClassInfo} : I st → ClassInfo.Declared st info →
    st.checkClassName info.name = .ok () → I (st.enrollClass info).2

end Store

namespace Discipline

/-- The fact holds in every session. -/
def lasting (I : Store → Prop) : Discipline where
  Inv s := I s.store
  Val _ _ := True
  Err _ _ := True
  Cls _ _ := True
  Init _ _ _ := True
  Meth _ _ := True

theorem lasting_laws {I : Store → Prop} (h : Store.Lasting I) : (lasting I).Laws where
  val_grows _ h := h
  err_grows _ h := h
  cls_grows _ h := h
  init_grows _ h := h
  meth_grows _ h := h
  val_plain _ := trivial
  val_stored _ _ := trivial
  val_self _ _ _ := trivial
  cls_named _ _ := trivial
  init_field _ _ _ := trivial
  init_value _ _ := trivial
  meth_found _ _ := trivial
  err_ordinary _ := trivial
  err_thrown := Iff.rfl
  native _ _ _ _ _ := ⟨fun _ _ => trivial, fun _ _ => trivial⟩
  enter hs := hs
  exit _ _ hs _ := hs
  call hs _ _ := hs
  finish _ _ hs _ := hs
  declare hs _ _ := hs
  assign hs _ _ := hs
  newArray {s _ _} hs _ := ⟨h.kept hs ⟨s.store.grows_newArray _ _, rfl, rfl⟩, trivial⟩
  putItem {s _ _ _ _ _} hs _ _ := h.kept hs ⟨s.store.grows_putItem _ _ _, rfl, rfl⟩
  newObject {s _} hs _ := ⟨h.kept hs ⟨s.store.grows_newObject _, rfl, rfl⟩, trivial⟩
  initField {s _ _ _ _} _ hs _ _ _ _ _ := h.kept hs ⟨s.store.grows_putField _ _ _, rfl, rfl⟩
  writeField {s _ _ _} hs _ _ := h.kept hs ⟨s.store.grows_putField _ _ _, rfl, rfl⟩
  enroll hs hinfo hname := ⟨h.enroll hs hinfo hname, trivial⟩
  initStatic {s _ _ _ _} hs _ _ _ _ _ _ := h.kept hs (s.store.keepsClasses_putStatic _ _ _)
  writeStatic {s _ _ _ _} hs _ _ := h.kept hs (s.store.keepsClasses_putStatic _ _ _)
  functions hs := hs
  console hs := hs
  included hs := hs

end Discipline

/-! ## Every run keeps what lasts -/

namespace Store.Lasting

variable {I : Store → Prop} {s : Session}

theorem evaluate (h : Lasting I) (hs : I s.store) (fuel : Nat) (e : Expr) (expected : Option Ty) :
    (evaluate fuel e expected s).Leaves fun s' => I s'.store :=
  (((Discipline.lasting_laws h).interpreter_runs fuel).eval hs e expected).leaves

theorem execute (h : Lasting I) (hs : I s.store) (fuel : Nat) (statement : Statement) :
    (execute fuel statement s).Leaves fun s' => I s'.store :=
  (((Discipline.lasting_laws h).interpreter_runs fuel).exec hs statement).leaves

theorem runProgram (h : Lasting I) (hs : I s.store) (fuel : Nat) (program : Program) :
    (runProgram fuel program s).Leaves fun s' => I s'.store := by
  have L := Discipline.lasting_laws h
  exact (L.execProgram_conforms (L.interpreter_runs fuel) hs program).leaves

/-- The fact holds whenever a part of the program is run, so what any `other` interpreter would do
elsewhere makes no difference. -/
theorem runProgram_within (h : Lasting I) (hs : I s.store) {P : Session → Prop} [DecidablePred P]
    (hP : ∀ s : Session, I s.store → P s) (other : Interpreter) (fuel : Nat) (program : Program) :
    (interpreterWithin P other fuel).execProgram program s =
      ClassScript.runProgram fuel program s := by
  have L := Discipline.lasting_laws h
  exact (L.execProgram_conforms (L.interpreterWithin_runs hP other fuel) hs program).eq.symm

end Store.Lasting

end ClassScript
