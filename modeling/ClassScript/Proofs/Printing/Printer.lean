import ClassScript.Grammar.Statement
import ClassScript.Proofs.Precedence.Rendering

/-!
# Printing programs

A program as the tokens that it is written with. Expressions stand in parentheses where the levels
of their parts demand it, and array literals always do. Some programs are written in one way only,
whatever they were read from: a function has a block as its body and names its return type, the
fields of a class come before its methods and these before its constructor, the statements under
`default` come last, and no member is marked `public`. Lines are no part of the tokens, so a program
can be read back only without its lines.
-/

namespace ClassScript

/-! ## Programs without their lines -/

def ArrayLength.unlined : ArrayLength → ArrayLength
  | .explicit size => .explicit size.unlined
  | .inferred => .inferred

def VariableDecl.unlined (decl : VariableDecl) : VariableDecl :=
  { decl with
    length := decl.length.map ArrayLength.unlined
    initializer := decl.initializer.map Expr.unlined
    line := 0 }

def Param.unlined (param : Param) : Param := { param with line := 0 }

def FieldDecl.unlined (field : FieldDecl) : FieldDecl := { field with decl := field.decl.unlined }

def MethodSignature.unlined (signature : MethodSignature) : MethodSignature :=
  { signature with params := signature.params.map Param.unlined, line := 0 }

def InterfaceDecl.unlined (decl : InterfaceDecl) : InterfaceDecl :=
  { decl with methods := decl.methods.map MethodSignature.unlined, line := 0 }

def EnumDecl.unlined (decl : EnumDecl) : EnumDecl := { decl with line := 0 }

mutual

/-- The statement with every line set to zero. -/
def Statement.unlined : Statement → Statement
  | .expression expr _ => .expression expr.unlined 0
  | .declare decl => .declare decl.unlined
  | .function decl => .function decl.unlined
  | .classType decl => .classType decl.unlined
  | .interface decl => .interface decl.unlined
  | .enumeration decl => .enumeration decl.unlined
  | .block statements _ => .block (unlinedStatements statements) 0
  | .branch condition onTrue onFalse _ =>
    .branch condition.unlined onTrue.unlined (unlinedOptional onFalse) 0
  | .whileLoop condition body _ => .whileLoop condition.unlined body.unlined 0
  | .doWhile body condition _ => .doWhile body.unlined condition.unlined 0
  | .forLoop initial condition step body _ =>
    .forLoop (unlinedOptional initial) (condition.map Expr.unlined) (step.map Expr.unlined)
      body.unlined 0
  | .switch subject cases fallback _ =>
    .switch subject.unlined (unlinedCases cases) (unlinedOptionalBlock fallback) 0
  | .breakLoop _ => .breakLoop 0
  | .continueLoop _ => .continueLoop 0
  | .returnValue value _ => .returnValue (value.map Expr.unlined) 0
  | .throwValue value _ => .throwValue value.unlined 0
  | .tryCatch body catches finalizer _ =>
    .tryCatch (unlinedStatements body) (unlinedCatches catches) (unlinedOptionalBlock finalizer) 0
  | .includeModule path _ => .includeModule path 0

def unlinedStatements : List Statement → List Statement
  | [] => []
  | statement :: rest => statement.unlined :: unlinedStatements rest

def unlinedOptional : Option Statement → Option Statement
  | some statement => some statement.unlined
  | none => none

def unlinedOptionalBlock : Option (List Statement) → Option (List Statement)
  | some statements => some (unlinedStatements statements)
  | none => none

def unlinedCases : List SwitchCase → List SwitchCase
  | [] => []
  | ⟨value, body, _⟩ :: rest => ⟨value.unlined, unlinedStatements body, 0⟩ :: unlinedCases rest

def unlinedCatches : List CatchClause → List CatchClause
  | [] => []
  | ⟨name, ty, body, _⟩ :: rest => ⟨name, ty, unlinedStatements body, 0⟩ :: unlinedCatches rest

def FunctionDecl.unlined : FunctionDecl → FunctionDecl
  | ⟨name, params, returnType, body, _⟩ =>
    ⟨name, params.map Param.unlined, returnType, unlinedStatements body, 0⟩

def unlinedMethods : List MethodDecl → List MethodDecl
  | [] => []
  | ⟨function, access, isStatic, modifier⟩ :: rest =>
    ⟨function.unlined, access, isStatic, modifier⟩ :: unlinedMethods rest

def unlinedConstructor : Option ConstructorDecl → Option ConstructorDecl
  | some ⟨params, parentArguments, body, access, _⟩ =>
    some ⟨params.map Param.unlined, parentArguments.map unlinedAll, unlinedStatements body, access,
      0⟩
  | none => none

def ClassDecl.unlined : ClassDecl → ClassDecl
  | ⟨name, isStatic, supertypes, fields, methods, constructor, _⟩ =>
    ⟨name, isStatic, supertypes, fields.map FieldDecl.unlined, unlinedMethods methods,
      unlinedConstructor constructor, 0⟩

end

/-- The program with every line set to zero. -/
def Program.unlined (program : Program) : Program := unlinedStatements program

/-! ## Declarations as tokens -/

/-- Items with commas between them. -/
def commaTokens : List (List Token) → List Token
  | [] => []
  | first :: rest => first ++ rest.flatMap (.symbol .comma :: ·)

def braces (tokens : List Token) : List Token :=
  .symbol .leftBrace :: (tokens ++ [.symbol .rightBrace])

def typeTokens (ty : Ty) : List Token := .symbol .colon :: ty.tokens

/-- The pairs of brackets of an array type. -/
def Ty.brackets : Ty → List Token
  | .array element => .symbol .leftBracket :: .symbol .rightBracket :: element.brackets
  | _ => []

def ArrayLength.tokens : ArrayLength → List Token
  | .explicit size => size.tokensAt 0
  | .inferred => []

/-- The type of a declared variable, with its size in the first pair of brackets. -/
def declaredTokens : Ty → Option ArrayLength → List Token
  | .array element, some length =>
    Ty.pathTokens element.path ++ .symbol .leftBracket ::
      ((length.tokens ++ [.symbol .rightBracket]) ++ element.brackets)
  | ty, _ => Ty.pathTokens ty.path

def initializerTokens : Option Expr → List Token
  | some value => .symbol .assign :: value.tokensAt 0
  | none => []

/-- The word in front of a declaration. -/
def VariableDecl.keyword (decl : VariableDecl) : Keyword :=
  if decl.isConst then .kwConst else .kwLet

/-- A variable declaration after `let` or `const`. -/
def VariableDecl.tokens (decl : VariableDecl) : List Token :=
  .name decl.name :: .symbol .colon ::
    (declaredTokens decl.ty decl.length ++ initializerTokens decl.initializer)

def Param.tokens (param : Param) : List Token := .name param.name :: typeTokens param.ty

def paramsTokens (params : List Param) : List Token :=
  .symbol .leftParen :: (commaTokens (params.map Param.tokens) ++ [.symbol .rightParen])

def Access.tokens : Access → List Token
  | .everyone => []
  | .ownerOnly => [.keyword .kwPrivate]

def staticTokens (isStatic : Bool) : List Token :=
  if isStatic then [.keyword .kwStatic] else []

def MethodModifier.tokens : MethodModifier → List Token
  | .plain => []
  | .virtual => [.keyword .kwVirt]
  | .override => [.keyword .kwOvrd]

def Grammar.Modifiers.tokens (mods : Grammar.Modifiers) : List Token :=
  mods.access.tokens ++ (staticTokens mods.isStatic ++ mods.modifier.tokens)

def Accessors.tokens : Accessors → List Token
  | ⟨false, false⟩ => []
  | ⟨true, false⟩ => [.symbol .leftParen, .keyword .kwGetter, .symbol .rightParen]
  | ⟨false, true⟩ => [.symbol .leftParen, .keyword .kwSetter, .symbol .rightParen]
  | ⟨true, true⟩ =>
    [.symbol .leftParen, .keyword .kwGetter, .symbol .comma, .keyword .kwSetter,
      .symbol .rightParen]

/-- A field after `let` or `const`. -/
def FieldDecl.tokens (field : FieldDecl) : List Token :=
  .name field.decl.name :: .symbol .colon ::
    (declaredTokens field.decl.ty field.decl.length ++ (field.accessors.tokens ++
      (initializerTokens field.decl.initializer ++ [.symbol .semicolon])))

def fieldsTokens : List FieldDecl → List Token
  | [] => []
  | field :: rest =>
    (Grammar.Modifiers.tokens ⟨field.access, field.isStatic, .plain⟩ ++
      .keyword field.decl.keyword :: field.tokens) ++ fieldsTokens rest

def parentTokens : Option (List Expr) → List Token
  | some arguments =>
    .symbol .colon :: .keyword .kwParent :: .symbol .leftParen ::
      (listTokens arguments ++ [.symbol .rightParen])
  | none => []

def supertypesTokens : List String → List Token
  | [] => []
  | names => .symbol .colonColon :: commaTokens (names.map ([.name ·]))

def MethodSignature.tokens (signature : MethodSignature) : List Token :=
  .keyword .kwFunc :: .name signature.name ::
    (paramsTokens signature.params ++ (typeTokens signature.returnType ++ [.symbol .semicolon]))

/-- An interface after the word `interface`. -/
def InterfaceDecl.tokens (decl : InterfaceDecl) : List Token :=
  .name decl.name :: braces (decl.methods.flatMap MethodSignature.tokens)

/-- A negative value is written with a minus sign if its opposite is an integer. -/
def enumValueTokens (value : Int64) : List Token :=
  match Word.sub? 0 value with
  | some opposite => if value.toInt < 0 then [.symbol .minus, .int opposite] else [.int value]
  | none => [.int value]

def enumMemberTokens : String × Option Int64 → List Token
  | (name, some value) => .name name :: .symbol .assign :: enumValueTokens value
  | (name, none) => [.name name]

/-- An enumeration after the word `enum`. -/
def EnumDecl.tokens (decl : EnumDecl) : List Token :=
  .name decl.name :: braces (commaTokens (decl.members.map enumMemberTokens))

/-! ## Statements as tokens -/

/-- The first part of a `for` header. -/
def loopStartTokens : Option Statement → List Token
  | some (.declare decl) => .keyword decl.keyword :: decl.tokens
  | some (.expression expr _) => expr.tokensAt 0
  | _ => []

def optionalTokens : Option Expr → List Token
  | some e => e.tokensAt 0
  | none => []

def optionalTypeTokens : Option Ty → List Token
  | some ty => typeTokens ty
  | none => []

/-- The parenthesized expression after a keyword. -/
def conditionTokens (condition : Expr) : List Token :=
  .symbol .leftParen :: (condition.tokensAt 0 ++ [.symbol .rightParen])

mutual

def Statement.tokens : Statement → List Token
  | .expression expr _ => expr.tokensAt 0 ++ [.symbol .semicolon]
  | .declare decl => .keyword decl.keyword :: (decl.tokens ++ [.symbol .semicolon])
  | .function decl => .keyword .kwFunc :: decl.tokens
  | .classType decl => staticTokens decl.isStatic ++ .keyword .kwClass :: decl.tokens
  | .interface decl => .keyword .kwInterface :: decl.tokens
  | .enumeration decl => .keyword .kwEnum :: decl.tokens
  | .block statements _ => braces (statementsTokens statements)
  | .branch condition onTrue onFalse _ =>
    .keyword .kwIf :: (conditionTokens condition ++ (onTrue.tokens ++ elseTokens onFalse))
  | .whileLoop condition body _ => .keyword .kwWhile :: (conditionTokens condition ++ body.tokens)
  | .doWhile body condition _ =>
    .keyword .kwDo :: (body.tokens ++ .keyword .kwWhile ::
      (conditionTokens condition ++ [.symbol .semicolon]))
  | .forLoop initial condition step body _ =>
    .keyword .kwFor :: .symbol .leftParen :: (loopStartTokens initial ++ .symbol .colon ::
      (optionalTokens condition ++ .symbol .colon ::
        (optionalTokens step ++ .symbol .rightParen :: body.tokens)))
  | .switch subject cases fallback _ =>
    .keyword .kwSwitch :: (conditionTokens subject ++ braces
      (casesTokens cases ++ defaultTokens fallback))
  | .breakLoop _ => [.keyword .kwBreak, .symbol .semicolon]
  | .continueLoop _ => [.keyword .kwContinue, .symbol .semicolon]
  | .returnValue value _ => .keyword .kwReturn :: (optionalTokens value ++ [.symbol .semicolon])
  | .throwValue value _ => .keyword .kwThrow :: (value.tokensAt 0 ++ [.symbol .semicolon])
  | .tryCatch body catches finalizer _ =>
    .keyword .kwTry :: (braces (statementsTokens body) ++
      (catchesTokens catches ++ finallyTokens finalizer))
  | .includeModule path _ => [.keyword .kwInclude, .string path, .symbol .semicolon]

def statementsTokens : List Statement → List Token
  | [] => []
  | statement :: rest => statement.tokens ++ statementsTokens rest

def elseTokens : Option Statement → List Token
  | some onFalse => .keyword .kwElse :: onFalse.tokens
  | none => []

def casesTokens : List SwitchCase → List Token
  | [] => []
  | ⟨value, body, _⟩ :: rest =>
    .keyword .kwCase :: (value.tokensAt 0 ++ .symbol .colon ::
      (statementsTokens body ++ casesTokens rest))

def defaultTokens : Option (List Statement) → List Token
  | some body => .keyword .kwDefault :: .symbol .colon :: statementsTokens body
  | none => []

def catchesTokens : List CatchClause → List Token
  | [] => []
  | ⟨name, ty, body, _⟩ :: rest =>
    .keyword .kwCatch :: (.symbol .leftParen :: .name name :: (optionalTypeTokens ty ++
      .symbol .rightParen :: braces (statementsTokens body))) ++ catchesTokens rest

def finallyTokens : Option (List Statement) → List Token
  | some body => .keyword .kwFinally :: braces (statementsTokens body)
  | none => []

/-- A function after the word `func`. -/
def FunctionDecl.tokens : FunctionDecl → List Token
  | ⟨name, params, returnType, body, _⟩ =>
    .name name :: (paramsTokens params ++ (typeTokens returnType ++ braces (statementsTokens body)))

def methodsTokens : List MethodDecl → List Token
  | [] => []
  | ⟨function, access, isStatic, modifier⟩ :: rest =>
    (Grammar.Modifiers.tokens ⟨access, isStatic, modifier⟩ ++
      .keyword .kwFunc :: function.tokens) ++ methodsTokens rest

def constructorTokens : Option ConstructorDecl → List Token
  | some ⟨params, parentArguments, body, access, _⟩ =>
    Grammar.Modifiers.tokens ⟨access, false, .plain⟩ ++ .keyword .kwConstructor ::
      (paramsTokens params ++ (parentTokens parentArguments ++ braces (statementsTokens body)))
  | none => []

/-- A class after the word `class`. -/
def ClassDecl.tokens : ClassDecl → List Token
  | ⟨name, _, supertypes, fields, methods, constructor, _⟩ =>
    .name name :: (supertypesTokens supertypes ++ braces
      (fieldsTokens fields ++ (methodsTokens methods ++ constructorTokens constructor)))

end

/-- The tokens of a program. -/
def Program.tokens (program : Program) : List Token := statementsTokens program

end ClassScript
