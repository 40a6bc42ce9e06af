import ClassScript.SyntaxError
import ClassScript.Value

/-!
# Runtime faults

Why a running program fails, and on which line. A program can catch every cause except the three
that say the run itself cannot go on.
-/

namespace ClassScript

/-- A jump that needs a surrounding construct. -/
inductive Jump where
  | breakLoop
  | continueLoop
  | returnValue
  deriving DecidableEq

/-- What is wrong with the header of a class. -/
inductive HeaderProblem where
  | staticParent (parent : String)
  | secondParent (parent : String)
  /-- A constructor calls `parent(...)` in a class without a parent. -/
  | noParent

/-- Why a file cannot be read. -/
inductive FileProblem where
  | notFound
  | isDirectory
  | notDirectory
  | notText
  | nameTooLong
  | zeroByteInName
  deriving DecidableEq

/-- Why a module cannot be included. -/
inductive ModuleProblem where
  | unknownModule
  | unreadable (problem : FileProblem)
  | malformed (error : SyntaxError)

inductive Cause where
  | unknownVariable (name : String)
  | unknownFunction (name : String)
  | unknownClass (name : String)
  | unknownMember (className member : String)
  | alreadyDeclared (name : String)
  | classAlreadyDeclared (name : String)
  | builtinRedefinition (name : String)
  | typeMismatch (expected found : Ty)
  | invalidOperation (op : BinaryOp) (left right : Ty)
  | expectedBoolean (found : Ty)
  | divisionByZero
  | overflow
  | indexOutOfBounds (index : Int64) (length : Nat)
  | negativeArraySize (size : Int64)
  | arraySizeMismatch (size : Int64) (count : Nat)
  | untypedEmptyArray
  | notIndexable (found : Ty)
  | invalidMemberTarget (found : Ty) (member : String)
  | argumentCountMismatch (name : String) (expected found : Nat)
  | privateAccess (className member : String)
  | staticAccess (className member : String)
  | instanceAccess (className member : String)
  | staticInstantiation (className : String)
  | abstractInstantiation (className : String)
  | missingMethodBody (className method : String)
  | invalidInheritance (className : String) (problem : HeaderProblem)
  | selfOutsideInstance
  | notAllPathsReturn (name : String)
  | voidReturnWithValue (name : String)
  | constAssignment (name : String)
  | scopeUnderflow
  | controlFlowEscape (jump : Jump)
  /-- A value thrown by the program itself. -/
  | thrown (value : Value)
  | stackOverflow (depth : Nat)
  | io (details : String)
  | inclusion (path : String) (problem : ModuleProblem)

structure Fault where
  cause : Cause
  line : Nat

/-- A program may catch this cause. -/
def Cause.isCatchable : Cause → Bool
  | .controlFlowEscape _ | .scopeUnderflow | .stackOverflow _ => false
  | _ => true

end ClassScript
