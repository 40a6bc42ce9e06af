import ClassScript.Store.Basic

/-!
# Wording of runtime faults
-/

namespace ClassScript

def Jump.word : Jump → String
  | .breakLoop => "break"
  | .continueLoop => "continue"
  | .returnValue => "return"

def HeaderProblem.message : HeaderProblem → String
  | .staticParent parent => "cannot extend static class '" ++ parent ++ "'"
  | .secondParent parent => "'" ++ parent ++ "' would be a second parent class"
  | .noParent => "'parent(...)' used in a class without a parent"

def FileProblem.message : FileProblem → String
  | .notFound => "No such file or directory (os error 2)"
  | .isDirectory => "Is a directory (os error 21)"
  | .notDirectory => "Not a directory (os error 20)"
  | .notText => "stream did not contain valid UTF-8"
  | .nameTooLong => "File name too long (os error 36)"
  | .zeroByteInName => "file name contained an unexpected NUL byte"

def ModuleProblem.message : ModuleProblem → String
  | .unknownModule => "no such module"
  | .unreadable problem => problem.message
  | .malformed error => error.message

/-- The message of a cause. The store gives the text of a thrown value. -/
def Cause.message (st : Store) : Cause → String
  | .unknownVariable name => "Variable '" ++ name ++ "' is not declared."
  | .unknownFunction name => "Unknown function '" ++ name ++ "'."
  | .unknownClass name => "Unknown class '" ++ name ++ "'."
  | .unknownMember className member =>
    "Class '" ++ className ++ "' has no member '" ++ member ++ "'."
  | .alreadyDeclared name => "'" ++ name ++ "' is already declared."
  | .classAlreadyDeclared name => "Class '" ++ name ++ "' is already declared."
  | .builtinRedefinition name => "Cannot redefine built-in function '" ++ name ++ "'."
  | .typeMismatch expected found =>
    "Type error: expected " ++ expected.text ++ ", found " ++ found.text ++ "."
  | .invalidOperation op left right =>
    "Type error: operator '" ++ op.text ++ "' cannot be applied to " ++ left.text ++ " and "
      ++ right.text ++ "."
  | .expectedBoolean found => "Expected bool condition, found " ++ found.text ++ "."
  | .divisionByZero => "Division by zero."
  | .overflow => "Arithmetic overflow while computing result."
  | .indexOutOfBounds index length =>
    "Index " ++ toString index.toInt ++ " is out of bounds for length " ++ toString length ++ "."
  | .negativeArraySize size => "Array size " ++ toString size.toInt ++ " is negative."
  | .arraySizeMismatch size count =>
    "Array declared with size " ++ toString size.toInt ++ " but initialized with "
      ++ toString count ++ " elements."
  | .untypedEmptyArray => "Empty array literal needs an element type, e.g. []:int."
  | .notIndexable found => "Values of type " ++ found.text ++ " cannot be indexed."
  | .invalidMemberTarget found member =>
    "Cannot access member '" ++ member ++ "' on a value of type " ++ found.text ++ "."
  | .argumentCountMismatch name expected found =>
    "'" ++ name ++ "' expects " ++ toString expected ++ " argument(s) but got " ++ toString found
      ++ "."
  | .privateAccess className member =>
    "Member '" ++ member ++ "' of class '" ++ className ++ "' is private."
  | .staticAccess className member =>
    "Static member '" ++ member ++ "' must be accessed through class '" ++ className ++ "'."
  | .instanceAccess className member =>
    "Instance member '" ++ member ++ "' of class '" ++ className ++ "' needs an instance."
  | .staticInstantiation className => "Static class '" ++ className ++ "' cannot be instantiated."
  | .abstractInstantiation className => "Interface '" ++ className ++ "' cannot be instantiated."
  | .missingMethodBody className method =>
    "Method '" ++ className ++ "." ++ method ++ "' has no body."
  | .invalidInheritance className problem =>
    "Invalid header for class '" ++ className ++ "': " ++ problem.message ++ "."
  | .selfOutsideInstance => "'this' can only be used inside an instance method."
  | .notAllPathsReturn name => "Not all paths of '" ++ name ++ "' return a value."
  | .voidReturnWithValue name => "Void function '" ++ name ++ "' cannot return a value."
  | .constAssignment name => "Cannot assign to constant '" ++ name ++ "'."
  | .scopeUnderflow => "Cannot exit the global scope."
  | .controlFlowEscape jump =>
    "'" ++ jump.word ++ "' used outside of a construct that can handle it."
  | .thrown value => "Uncaught exception: " ++ st.text value
  | .stackOverflow depth => "Call depth limit of " ++ toString depth ++ " exceeded."
  | .io details => "I/O error: " ++ details ++ "."
  | .inclusion path problem => "Cannot include '" ++ path ++ "': " ++ problem.message

def Fault.message (st : Store) (fault : Fault) : String :=
  onLine fault.line (fault.cause.message st)

/-- The value that a `catch` clause sees: a thrown value itself, and the message of any other
fault. -/
def Fault.caughtValue (st : Store) (fault : Fault) : Value :=
  match fault.cause with
  | .thrown value => value
  | _ => .string (fault.message st)

end ClassScript
