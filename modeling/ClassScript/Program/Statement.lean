import ClassScript.Program.Expr

/-!
# Statements and declarations
-/

namespace ClassScript

/-- The size written in the first dimension of an array declaration. -/
inductive ArrayLength where
  | explicit (size : Expr)
  /-- No size, or a literal zero: the initializer decides. -/
  | inferred

structure VariableDecl where
  name : String
  ty : Ty
  length : Option ArrayLength
  initializer : Option Expr
  isConst : Bool
  line : Nat

structure Param where
  name : String
  ty : Ty
  line : Nat
  deriving DecidableEq

/-- Who may use a member: everyone, or only code of the class that declares it. -/
inductive Access where
  | everyone
  | ownerOnly
  deriving DecidableEq

structure Accessors where
  getter : Bool
  setter : Bool
  deriving DecidableEq

inductive MethodModifier where
  | plain
  | virtual
  | override
  deriving DecidableEq

structure FieldDecl where
  decl : VariableDecl
  access : Access
  isStatic : Bool
  accessors : Accessors

structure MethodSignature where
  name : String
  params : List Param
  returnType : Ty
  line : Nat

structure InterfaceDecl where
  name : String
  methods : List MethodSignature
  line : Nat

/-- An enumeration. A member without a value takes the one after its predecessor's. -/
structure EnumDecl where
  name : String
  members : List (String × Option Int64)
  line : Nat

mutual

inductive Statement where
  | expression (expr : Expr) (line : Nat)
  | declare (decl : VariableDecl)
  | function (decl : FunctionDecl)
  | classType (decl : ClassDecl)
  | interface (decl : InterfaceDecl)
  | enumeration (decl : EnumDecl)
  | block (statements : List Statement) (line : Nat)
  | branch (condition : Expr) (onTrue : Statement) (onFalse : Option Statement) (line : Nat)
  | whileLoop (condition : Expr) (body : Statement) (line : Nat)
  | doWhile (body : Statement) (condition : Expr) (line : Nat)
  | forLoop (initial : Option Statement) (condition step : Option Expr) (body : Statement)
      (line : Nat)
  | switch (subject : Expr) (cases : List SwitchCase) (fallback : Option (List Statement))
      (line : Nat)
  | breakLoop (line : Nat)
  | continueLoop (line : Nat)
  | returnValue (value : Option Expr) (line : Nat)
  | throwValue (value : Expr) (line : Nat)
  | tryCatch (body : List Statement) (catches : List CatchClause)
      (finalizer : Option (List Statement)) (line : Nat)
  | includeModule (path : String) (line : Nat)

structure FunctionDecl where
  name : String
  params : List Param
  returnType : Ty
  body : List Statement
  line : Nat

structure MethodDecl where
  function : FunctionDecl
  access : Access
  isStatic : Bool
  modifier : MethodModifier

structure ConstructorDecl where
  params : List Param
  /-- The arguments of `parent(...)`, if it is written. -/
  parentArguments : Option (List Expr)
  body : List Statement
  access : Access
  line : Nat

structure ClassDecl where
  name : String
  isStatic : Bool
  supertypes : List String
  fields : List FieldDecl
  methods : List MethodDecl
  constructor : Option ConstructorDecl
  line : Nat

structure CatchClause where
  name : String
  /-- The type of the values it catches; without one it catches every value. -/
  ty : Option Ty
  body : List Statement
  line : Nat

structure SwitchCase where
  value : Expr
  body : List Statement
  line : Nat

end

/-- A program is the list of its top-level statements. -/
abbrev Program := List Statement

def Statement.line : Statement → Nat
  | .declare decl => decl.line
  | .function decl => decl.line
  | .classType decl => decl.line
  | .interface decl => decl.line
  | .enumeration decl => decl.line
  | .expression _ line | .block _ line | .branch _ _ _ line | .whileLoop _ _ line
  | .doWhile _ _ line | .forLoop _ _ _ _ line | .switch _ _ _ line | .breakLoop line
  | .continueLoop line | .returnValue _ line | .throwValue _ line | .tryCatch _ _ _ line
  | .includeModule _ line => line

/-- Declarations of functions and types take effect before the other statements of a program. -/
def Statement.isHoisted : Statement → Bool
  | .function _ | .classType _ | .interface _ | .enumeration _ => true
  | _ => false

end ClassScript
