import ClassScript.Evaluation.Expressions

/-!
# Declarations

Functions, classes, interfaces and enumerations enter the session. The description of a class is
built first, from its header, its parent and its members; then the class is declared, and then its
static fields are given their values one after the other.
-/

namespace ClassScript

/-! ## Functions -/

/-- A function of this name may be declared. -/
def checkFunction (decl : FunctionDecl) (s : Session) : Except Cause Unit :=
  if (Builtin.ofName? decl.name).isSome then .error (.builtinRedefinition decl.name)
  else if s.functions.contains decl.name then .error (.alreadyDeclared decl.name)
  else .ok ()

def declareFunction (decl : FunctionDecl) : Eval Unit := do
  Eval.ask decl.line (checkFunction decl)
  Action.update fun s => { s with functions := s.functions.insert decl.name decl }

/-! ## Descriptions of classes -/

namespace ClassInfo

/-- Takes over the members of the parent class. -/
def inherit (info : ClassInfo) (st : Store) (parent : ClassId) : ClassInfo :=
  let base := st.classInfo parent
  { info with
    fields := base.fields
    methods := base.methods
    constructor := base.constructor
    ancestors := st.lineage parent }

/-- Adds a supertype: an interface, or the one parent class. -/
def addSupertype (st : Store) (info : ClassInfo) (name : String) : Except Cause ClassInfo := do
  let cls ← st.getClass name
  let base := st.classInfo cls
  if base.isInterface then .ok { info with implements := info.implements ++ [name] }
  else if base.isStatic then .error (.invalidInheritance info.name (.staticParent name))
  else if info.parent?.isSome then .error (.invalidInheritance info.name (.secondParent name))
  else .ok (info.inherit st cls)

/-- Adds a field, in place of an inherited one of the same name. -/
def addField (info : ClassInfo) (decl : FieldDecl) : Except Fault ClassInfo :=
  let name := decl.decl.name
  if (info.fields.find? name).any fun field => field.owner == info.name then
    .error { cause := .alreadyDeclared (info.name ++ "." ++ name), line := decl.decl.line }
  else
    let field : FieldInfo :=
      { name, ty := decl.decl.ty, access := decl.access,
        isStatic := info.isStatic || decl.isStatic, isConst := decl.decl.isConst,
        accessors := decl.accessors, owner := info.name, init := .declared decl.decl }
    .ok { info with fields := info.fields.insert name field }

/-- Adds a method, in place of an inherited one of the same name. -/
def addMethod (info : ClassInfo) (decl : MethodDecl) : Except Fault ClassInfo :=
  let function := decl.function
  if (info.methods.find? function.name).any fun method => method.owner == info.name then
    .error { cause := .alreadyDeclared (info.name ++ "." ++ function.name), line := function.line }
  else
    let method : MethodInfo :=
      { name := function.name, access := decl.access, isStatic := info.isStatic || decl.isStatic,
        modifier := decl.modifier, params := function.params, returnType := function.returnType,
        owner := info.name, body := .user function }
    .ok { info with methods := info.methods.insert function.name method }

/-- Takes the constructor that the class declares, in place of an inherited one. -/
def setConstructor (info : ClassInfo) : Option ConstructorDecl → ClassInfo
  | some decl => { info with constructor := some { decl, owner := info.name } }
  | none => info

/-- A fault of a class header is reported on the line of the class. -/
def onHeader {α : Type} (line : Nat) : Except Cause α → Except Fault α
  | .ok a => .ok a
  | .error cause => .error { cause, line }

/-- The description of a declared class. -/
def ofDecl (st : Store) (decl : ClassDecl) : Except Fault ClassInfo := do
  let info := { blank decl.name with isStatic := decl.isStatic }
  let info ← onHeader decl.line (decl.supertypes.foldlM (addSupertype st) info)
  let info ← decl.fields.foldlM addField info
  let info ← decl.methods.foldlM addMethod info
  return info.setConstructor decl.constructor

def addSignature (info : ClassInfo) (signature : MethodSignature) : ClassInfo :=
  let method : MethodInfo :=
    { name := signature.name, access := .everyone, isStatic := false, modifier := .virtual,
      params := signature.params, returnType := signature.returnType, owner := info.name,
      body := .abstract }
  { info with methods := info.methods.insert signature.name method }

/-- The description of an interface: a class whose methods have no bodies. -/
def ofInterface (decl : InterfaceDecl) : ClassInfo :=
  decl.methods.foldl addSignature { blank decl.name with isInterface := true }

/-- Adds members to an enumeration; `next` is the value of a member without one, if there is such a
value. -/
def addMembers (info : ClassInfo) (next : Option Int64) :
    List (String × Option Int64) → Except Cause ClassInfo
  | [] => .ok info
  | (name, explicit) :: rest =>
    if info.fields.contains name then .error (.alreadyDeclared (info.name ++ "." ++ name))
    else
      match explicit.orElse fun _ => next with
      | some value => (info.withConstant name .int (.int value)).addMembers (Word.add? value 1) rest
      | none => .error .overflow

/-- The description of an enumeration: a static class of integer constants. -/
def ofEnum (decl : EnumDecl) : Except Cause ClassInfo :=
  addMembers { blank decl.name with isStatic := true } (some 0) decl.members

end ClassInfo

/-! ## Declaring classes -/

/-- Declares a class whose name must be free. -/
def declareClassInfo (info : ClassInfo) (line : Nat) : Eval ClassId := do
  Eval.askStore line fun st => st.checkClassName info.name
  Eval.allocate fun st => st.enrollClass info

def declareInterface (decl : InterfaceDecl) : Eval Unit := do
  let _ ← declareClassInfo (.ofInterface decl) decl.line
  return ()

def declareEnum (decl : EnumDecl) : Eval Unit := do
  let info ← Eval.ask decl.line fun _ => ClassInfo.ofEnum decl
  let _ ← declareClassInfo info decl.line
  return ()

namespace Interpreter

/-- Gives static fields their values, one after the other. -/
def initializeStatics (run : Interpreter) (cls : ClassId) (className : String) (line : Nat) :
    List FieldInfo → Eval Unit
  | [] => return ()
  | field :: rest => do
    let value ← run.fieldValue field { cls, owner := className, self := none } line
    Eval.updateStore fun st => st.putStatic cls field.name value
    run.initializeStatics cls className line rest

/-- The static fields that a class declares itself. -/
def ownStatics (info : ClassInfo) : List FieldInfo :=
  info.fields.values.filter fun field => field.isStatic && field.owner == info.name

/-- Declares a class. It stays declared if one of its static fields fails. -/
def declareClass (run : Interpreter) (decl : ClassDecl) : Eval Unit := do
  let info ← fun s => (Action.ofExcept (ClassInfo.ofDecl s.store decl) : Eval ClassInfo) s
  let cls ← declareClassInfo info decl.line
  run.initializeStatics cls info.name decl.line (ownStatics info)

end Interpreter

end ClassScript
