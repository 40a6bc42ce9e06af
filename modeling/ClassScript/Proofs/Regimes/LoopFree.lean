import ClassScript.Proofs.Action
import ClassScript.Proofs.Classes

/-!
# Code without loops

A statement is loop-free if no `while`, `do` or `for` stands in it, in a function or a class that it
declares included. A session is loop-free if its functions, its classes and the modules of its
loader are. Declaring a loop-free class keeps it so, since what a class inherits is loop-free too.
-/

namespace ClassScript

/-! ## Statements and declarations -/

mutual

/-- No loop stands in the statement. -/
def Statement.LoopFree : Statement → Prop
  | .whileLoop .. | .doWhile .. | .forLoop .. => False
  | .function decl => decl.LoopFree
  | .classType decl => decl.LoopFree
  | .block statements _ => LoopFreeAll statements
  | .branch _ onTrue onFalse _ => onTrue.LoopFree ∧ LoopFreeOptional onFalse
  | .switch _ cases fallback _ => LoopFreeCases cases ∧ LoopFreeBlock fallback
  | .tryCatch body catches finalizer _ =>
    LoopFreeAll body ∧ LoopFreeCatches catches ∧ LoopFreeBlock finalizer
  | .expression .. | .declare _ | .interface _ | .enumeration _ | .breakLoop _ | .continueLoop _
  | .returnValue .. | .throwValue .. | .includeModule .. => True

def LoopFreeAll : List Statement → Prop
  | [] => True
  | statement :: rest => statement.LoopFree ∧ LoopFreeAll rest

def LoopFreeOptional : Option Statement → Prop
  | some statement => statement.LoopFree
  | none => True

def LoopFreeBlock : Option (List Statement) → Prop
  | some statements => LoopFreeAll statements
  | none => True

def LoopFreeCases : List SwitchCase → Prop
  | [] => True
  | ⟨_, body, _⟩ :: rest => LoopFreeAll body ∧ LoopFreeCases rest

def LoopFreeCatches : List CatchClause → Prop
  | [] => True
  | ⟨_, _, body, _⟩ :: rest => LoopFreeAll body ∧ LoopFreeCatches rest

def FunctionDecl.LoopFree : FunctionDecl → Prop
  | ⟨_, _, _, body, _⟩ => LoopFreeAll body

def LoopFreeMethods : List MethodDecl → Prop
  | [] => True
  | ⟨function, _, _, _⟩ :: rest => function.LoopFree ∧ LoopFreeMethods rest

def ConstructorDecl.LoopFree : ConstructorDecl → Prop
  | ⟨_, _, body, _, _⟩ => LoopFreeAll body

def LoopFreeConstructor : Option ConstructorDecl → Prop
  | some decl => decl.LoopFree
  | none => True

def ClassDecl.LoopFree : ClassDecl → Prop
  | ⟨_, _, _, _, methods, constructor, _⟩ =>
    LoopFreeMethods methods ∧ LoopFreeConstructor constructor

end

theorem LoopFreeAll.of_mem {statements : List Statement} (h : LoopFreeAll statements)
    {statement : Statement} (hmem : statement ∈ statements) : statement.LoopFree := by
  induction statements with
  | nil => cases hmem
  | cons first rest ih =>
      rcases List.mem_cons.mp hmem with rfl | hrest
      · exact h.1
      · exact ih h.2 hrest

theorem LoopFreeCases.of_mem {cases : List SwitchCase} (h : LoopFreeCases cases)
    {case : SwitchCase} (hmem : case ∈ cases) : LoopFreeAll case.body := by
  induction cases with
  | nil => cases hmem
  | cons first rest ih =>
      obtain ⟨_, _, _⟩ := first
      rcases List.mem_cons.mp hmem with rfl | hrest
      · exact h.1
      · exact ih h.2 hrest

theorem LoopFreeCatches.of_mem {catches : List CatchClause} (h : LoopFreeCatches catches)
    {clause : CatchClause} (hmem : clause ∈ catches) : LoopFreeAll clause.body := by
  induction catches with
  | nil => cases hmem
  | cons first rest ih =>
      obtain ⟨_, _, _, _⟩ := first
      rcases List.mem_cons.mp hmem with rfl | hrest
      · exact h.1
      · exact ih h.2 hrest

/-! ## Classes, stores and sessions -/

/-- The method has no loop in a body written in the language. -/
def MethodInfo.LoopFree (method : MethodInfo) : Prop :=
  match method.body with
  | .user decl => decl.LoopFree
  | .native _ | .abstract => True

structure ClassInfo.LoopFree (info : ClassInfo) : Prop where
  methods : ∀ {name method}, info.methods.find? name = some method → method.LoopFree
  constructor : ∀ {c}, info.constructor = some c → c.decl.LoopFree

def Store.LoopFree (st : Store) : Prop := ∀ cls, (st.classInfo cls).LoopFree

structure Session.LoopFree (s : Session) : Prop where
  functions : ∀ {name decl}, s.functions.find? name = some decl → decl.LoopFree
  classes : s.store.LoopFree
  modules : ∀ {path program}, s.loader path = .ok program → LoopFreeAll program

theorem LoopFreeMethods.of_mem {decls : List MethodDecl} (h : LoopFreeMethods decls)
    {decl : MethodDecl} (hmem : decl ∈ decls) : decl.function.LoopFree := by
  induction decls with
  | nil => cases hmem
  | cons first rest ih =>
      obtain ⟨_, _, _, _⟩ := first
      rcases List.mem_cons.mp hmem with rfl | hrest
      · exact h.1
      · exact ih h.2 hrest

namespace ClassInfo

variable {info : ClassInfo} {st : Store}

/-- What loop-free classes are made of. -/
def freeBody : MethodBody → Prop
  | .user decl => decl.LoopFree
  | .native _ | .abstract => True

theorem LoopFree.coded (h : info.LoopFree) : info.Coded freeBody ConstructorDecl.LoopFree :=
  ⟨h.methods, h.constructor⟩

theorem Coded.loopFree (h : info.Coded freeBody ConstructorDecl.LoopFree) : info.LoopFree :=
  ⟨h.methods, h.constructor⟩

/-- A loop-free declaration gives a loop-free class: what it inherits is loop-free too. -/
theorem LoopFree.ofDecl (hst : st.LoopFree) {decl : ClassDecl} (hdecl : decl.LoopFree)
    (h : ofDecl st decl = .ok info) : info.LoopFree := by
  obtain ⟨hmethods, hconstructor⟩ : LoopFreeMethods decl.methods ∧
      LoopFreeConstructor decl.constructor := by
    cases decl
    exact hdecl
  refine (Coded.ofDecl (fun cls => (hst cls).coded) (fun _ => hmethods.of_mem)
    (fun constructor hc => ?_) h).loopFree
  rw [hc] at hconstructor
  exact hconstructor

theorem loopFree_ofInterface (decl : InterfaceDecl) : (ofInterface decl).LoopFree :=
  (Coded.ofInterface trivial decl).loopFree

theorem loopFree_ofEnum {decl : EnumDecl} (h : ofEnum decl = .ok info) : info.LoopFree :=
  (Coded.ofEnum h).loopFree

end ClassInfo

namespace Store

variable {st : Store}

theorem LoopFree.enrollClass (h : st.LoopFree) {info : ClassInfo} (hinfo : info.LoopFree) :
    (st.enrollClass info).2.LoopFree :=
  fun cls => (coded_enrollClass (fun other => (h other).coded) hinfo.coded cls).loopFree

theorem LoopFree.putStatic (h : st.LoopFree) (cls : ClassId) (name : String) (v : Value) :
    (st.putStatic cls name v).LoopFree :=
  fun other => (coded_putStatic (fun other => (h other).coded) cls name v other).loopFree

end Store

end ClassScript
