import ClassScript.Proofs.Classes
import ClassScript.Proofs.Conformance

/-!
# Declaring classes

A class enters the store under a name that must be free: then it gets the next number, and otherwise
the session is as before. The description of a class that a program declares is known before the
name is asked for.
-/

namespace ClassScript

namespace Store

variable {st : Store}

theorem findClass?_enrollClass (st : Store) (info : ClassInfo) (name : String) :
    (st.enrollClass info).2.findClass? name =
      if name = info.name then some st.classes.size else st.findClass? name :=
  Table.find?_insert _ _ _ _

theorem checkClassName_of_free {name : String} (h : st.findClass? name = none) :
    st.checkClassName name = .ok () := by
  have hfree : st.classNames.find? name = none := h
  rw [checkClassName, Table.contains, hfree]
  rfl

theorem checkClassName_of_taken {name : String} {cls : ClassId}
    (h : st.findClass? name = some cls) :
    st.checkClassName name = .error (.classAlreadyDeclared name) := by
  have htaken : st.classNames.find? name = some cls := h
  rw [checkClassName, Table.contains, htaken]
  rfl

/-- A name that is taken is not the free one. -/
theorem ne_of_checkClassName {free name : String} {cls : ClassId}
    (hfree : st.checkClassName free = .ok ()) (h : st.findClass? name = some cls) :
    name ≠ free := by
  rintro rfl
  rw [checkClassName_of_taken h] at hfree
  cases hfree

end Store

namespace Session

variable {s : Session}

theorem declareClassInfo_of_free {info : ClassInfo}
    (hfree : s.store.checkClassName info.name = .ok ()) (line : Nat) :
    declareClassInfo info line s =
      .ok s.store.classes.size { s with store := (s.store.enrollClass info).2 } := by
  have hask : Eval.askStore line (fun st => st.checkClassName info.name) s = .ok () s :=
    Eval.ask_of_ok hfree line
  rw [declareClassInfo, Action.bind_of_ok hask]
  rfl

theorem declareClassInfo_of_taken {info : ClassInfo} {cause : Cause}
    (htaken : s.store.checkClassName info.name = .error cause) (line : Nat) :
    declareClassInfo info line s = .error { cause, line } s :=
  Action.bind_of_error (Eval.ask_of_error htaken line)

/-- A class is declared in two steps, once its description is known. -/
theorem declareClass_of_described {run : Interpreter} {decl : ClassDecl} {info : ClassInfo}
    (hinfo : ClassInfo.ofDecl s.store decl = .ok info) :
    run.declareClass decl s =
      (declareClassInfo info decl.line >>= fun cls =>
        run.initializeStatics cls info.name decl.line (Interpreter.ownStatics info)) s := by
  refine Action.bind_of_ok ?_
  rw [hinfo]
  rfl

end Session

end ClassScript
