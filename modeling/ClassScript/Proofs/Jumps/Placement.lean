import ClassScript.Evaluation.Session
import ClassScript.Proofs.Classes

/-!
# Well-placed jumps

A jump is well placed if the body of the function, method or constructor in which it stands, or the
top level of its program, has a construct around it that handles it: a loop or a `switch` for
`break`, a loop for `continue`, and for `return` any body at all. The initial statement of a `for`
stands outside its loop. A declaration inside other code starts afresh, since its body is run by
calls only.

A session is well placed if its functions, its classes and the modules of its loader are, and if its
native methods do not give up over a jump. Declaring a well-placed class keeps it so.
-/

namespace ClassScript

/-! ## Places -/

/-- The jumps that may be made at a place in a program. -/
structure Place where
  breaks : Bool
  continues : Bool
  returns : Bool

namespace Place

/-- The top level of a program or a module. -/
def top : Place := { breaks := false, continues := false, returns := false }

/-- The body of a function, a method or a constructor. -/
def body : Place := { breaks := false, continues := false, returns := true }

/-- The body of a loop that stands here. -/
def inLoop (p : Place) : Place := { p with breaks := true, continues := true }

/-- A case of a `switch` that stands here. -/
def inSwitch (p : Place) : Place := { p with breaks := true }

/-- A statement here may end like this. -/
def Allows (p : Place) : Signal → Prop
  | .breakLoop => p.breaks = true
  | .continueLoop => p.continues = true
  | .returned _ => p.returns = true
  | .normal | .thrown _ => True

end Place

/-! ## Statements and declarations -/

mutual

/-- Every jump in the statement is well placed if the statement stands at this place. -/
def Statement.WellPlaced (p : Place) : Statement → Prop
  | .breakLoop _ => p.breaks = true
  | .continueLoop _ => p.continues = true
  | .returnValue .. => p.returns = true
  | .function decl => decl.WellPlaced
  | .classType decl => decl.WellPlaced
  | .block statements _ => WellPlacedAll p statements
  | .branch _ onTrue onFalse _ => onTrue.WellPlaced p ∧ WellPlacedOptional p onFalse
  | .whileLoop _ body _ => body.WellPlaced p.inLoop
  | .doWhile body _ _ => body.WellPlaced p.inLoop
  | .forLoop initial _ _ body _ => WellPlacedOptional p initial ∧ body.WellPlaced p.inLoop
  | .switch _ cases fallback _ =>
    WellPlacedCases p.inSwitch cases ∧ WellPlacedBlock p.inSwitch fallback
  | .tryCatch body catches finalizer _ =>
    WellPlacedAll p body ∧ WellPlacedCatches p catches ∧ WellPlacedBlock p finalizer
  | .expression .. | .declare _ | .interface _ | .enumeration _ | .throwValue ..
  | .includeModule .. => True

def WellPlacedAll (p : Place) : List Statement → Prop
  | [] => True
  | statement :: rest => statement.WellPlaced p ∧ WellPlacedAll p rest

def WellPlacedOptional (p : Place) : Option Statement → Prop
  | some statement => statement.WellPlaced p
  | none => True

def WellPlacedBlock (p : Place) : Option (List Statement) → Prop
  | some statements => WellPlacedAll p statements
  | none => True

def WellPlacedCases (p : Place) : List SwitchCase → Prop
  | [] => True
  | ⟨_, body, _⟩ :: rest => WellPlacedAll p body ∧ WellPlacedCases p rest

def WellPlacedCatches (p : Place) : List CatchClause → Prop
  | [] => True
  | ⟨_, _, body, _⟩ :: rest => WellPlacedAll p body ∧ WellPlacedCatches p rest

def FunctionDecl.WellPlaced : FunctionDecl → Prop
  | ⟨_, _, _, body, _⟩ => WellPlacedAll .body body

def WellPlacedMethods : List MethodDecl → Prop
  | [] => True
  | ⟨function, _, _, _⟩ :: rest => function.WellPlaced ∧ WellPlacedMethods rest

def ConstructorDecl.WellPlaced : ConstructorDecl → Prop
  | ⟨_, _, body, _, _⟩ => WellPlacedAll .body body

def WellPlacedConstructor : Option ConstructorDecl → Prop
  | some decl => decl.WellPlaced
  | none => True

def ClassDecl.WellPlaced : ClassDecl → Prop
  | ⟨_, _, _, _, methods, constructor, _⟩ =>
    WellPlacedMethods methods ∧ WellPlacedConstructor constructor

end

variable {p : Place}

theorem WellPlacedAll.of_mem {statements : List Statement} (h : WellPlacedAll p statements)
    {statement : Statement} (hmem : statement ∈ statements) : statement.WellPlaced p := by
  induction statements with
  | nil => cases hmem
  | cons first rest ih =>
      rcases List.mem_cons.mp hmem with rfl | hrest
      · exact h.1
      · exact ih h.2 hrest

theorem WellPlacedCases.of_mem {cases : List SwitchCase} (h : WellPlacedCases p cases)
    {case : SwitchCase} (hmem : case ∈ cases) : WellPlacedAll p case.body := by
  induction cases with
  | nil => cases hmem
  | cons first rest ih =>
      obtain ⟨_, _, _⟩ := first
      rcases List.mem_cons.mp hmem with rfl | hrest
      · exact h.1
      · exact ih h.2 hrest

theorem WellPlacedCatches.of_mem {catches : List CatchClause} (h : WellPlacedCatches p catches)
    {clause : CatchClause} (hmem : clause ∈ catches) : WellPlacedAll p clause.body := by
  induction catches with
  | nil => cases hmem
  | cons first rest ih =>
      obtain ⟨_, _, _, _⟩ := first
      rcases List.mem_cons.mp hmem with rfl | hrest
      · exact h.1
      · exact ih h.2 hrest

theorem WellPlacedMethods.of_mem {decls : List MethodDecl} (h : WellPlacedMethods decls)
    {decl : MethodDecl} (hmem : decl ∈ decls) : decl.function.WellPlaced := by
  induction decls with
  | nil => cases hmem
  | cons first rest ih =>
      obtain ⟨_, _, _, _⟩ := first
      rcases List.mem_cons.mp hmem with rfl | hrest
      · exact h.1
      · exact ih h.2 hrest

theorem FunctionDecl.WellPlaced.all {decl : FunctionDecl} (h : decl.WellPlaced) :
    WellPlacedAll .body decl.body := by
  cases decl
  exact h

theorem ConstructorDecl.WellPlaced.all {decl : ConstructorDecl} (h : decl.WellPlaced) :
    WellPlacedAll .body decl.body := by
  cases decl
  exact h

/-! ## Classes and sessions -/

/-- The jumps of a method in the language are well placed; a native one gives up over none. -/
def MethodBody.WellPlaced : MethodBody → Prop
  | .user decl => decl.WellPlaced
  | .native run => ∀ typeOf args jump, run typeOf args ≠ .error (.controlFlowEscape jump)
  | .abstract => True

/-- The code of the class is well placed. -/
abbrev ClassInfo.WellPlaced (info : ClassInfo) : Prop :=
  info.Coded MethodBody.WellPlaced ConstructorDecl.WellPlaced

def Store.WellPlaced (st : Store) : Prop := ∀ cls, (st.classInfo cls).WellPlaced

structure Session.WellPlaced (s : Session) : Prop where
  functions : ∀ {name decl}, s.functions.find? name = some decl → decl.WellPlaced
  classes : s.store.WellPlaced
  modules : ∀ {path program}, s.loader path = .ok program → WellPlacedAll .top program

theorem ClassInfo.WellPlaced.ofDecl {st : Store} {info : ClassInfo} (hst : st.WellPlaced)
    {decl : ClassDecl} (hdecl : decl.WellPlaced) (h : ClassInfo.ofDecl st decl = .ok info) :
    info.WellPlaced := by
  obtain ⟨hmethods, hconstructor⟩ : WellPlacedMethods decl.methods ∧
      WellPlacedConstructor decl.constructor := by
    cases decl
    exact hdecl
  refine Coded.ofDecl hst (fun _ => hmethods.of_mem) (fun constructor hc => ?_) h
  rw [hc] at hconstructor
  exact hconstructor

/-- Variables, the console, the calls in progress and the included modules play no part. -/
theorem Session.WellPlaced.with {s : Session} (h : s.WellPlaced) {st : Store} (hst : st.WellPlaced)
    (scopes : ScopeStack) (console : Console) (calls : List CallFrame) (included : List String) :
    { s with scopes, console, calls, included, store := st }.WellPlaced :=
  ⟨h.functions, hst, h.modules⟩

end ClassScript
