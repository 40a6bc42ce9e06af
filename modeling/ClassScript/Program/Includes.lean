import ClassScript.Program.Statement

/-!
# Included modules

The module paths that occur in a program, wherever they stand. Running a program consults the loader
for no others of its own.
-/

namespace ClassScript

mutual

def Statement.includes : Statement → List String
  | .includeModule path _ => [path]
  | .function decl => decl.includes
  | .classType decl => decl.includes
  | .block statements _ => includesOf statements
  | .branch _ onTrue onFalse _ => onTrue.includes ++ includesOfOptional onFalse
  | .whileLoop _ body _ => body.includes
  | .doWhile body _ _ => body.includes
  | .forLoop initial _ _ body _ => includesOfOptional initial ++ body.includes
  | .switch _ cases fallback _ => includesOfCases cases ++ includesOfOptionalBlock fallback
  | .tryCatch body catches finalizer _ =>
    includesOf body ++ includesOfCatches catches ++ includesOfOptionalBlock finalizer
  | .expression .. | .declare _ | .interface _ | .enumeration _ | .breakLoop _ | .continueLoop _
  | .returnValue .. | .throwValue .. => []

def includesOf : List Statement → List String
  | [] => []
  | statement :: rest => statement.includes ++ includesOf rest

def includesOfOptional : Option Statement → List String
  | some statement => statement.includes
  | none => []

def includesOfOptionalBlock : Option (List Statement) → List String
  | some statements => includesOf statements
  | none => []

def includesOfCases : List SwitchCase → List String
  | [] => []
  | ⟨_, body, _⟩ :: rest => includesOf body ++ includesOfCases rest

def includesOfCatches : List CatchClause → List String
  | [] => []
  | ⟨_, _, body, _⟩ :: rest => includesOf body ++ includesOfCatches rest

def FunctionDecl.includes : FunctionDecl → List String
  | ⟨_, _, _, body, _⟩ => includesOf body

def includesOfMethods : List MethodDecl → List String
  | [] => []
  | ⟨function, _, _, _⟩ :: rest => function.includes ++ includesOfMethods rest

def includesOfConstructor : Option ConstructorDecl → List String
  | some ⟨_, _, body, _, _⟩ => includesOf body
  | none => []

def ClassDecl.includes : ClassDecl → List String
  | ⟨_, _, _, _, methods, constructor, _⟩ =>
    includesOfMethods methods ++ includesOfConstructor constructor

end

/-- The module paths in a program. -/
def Program.includes (program : Program) : List String := includesOf program

end ClassScript
