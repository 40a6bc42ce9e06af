import ClassScript.Grammar.Expression

/-!
# Declarations

Variables, fields, functions, classes, interfaces and enumerations. Bodies are lists of statements,
so the parsers of declarations that have one take the parser of a block as an argument.
-/

namespace ClassScript.Grammar

/-! ## Variables -/

/-- The size in one pair of brackets, after the opening one. A literal zero leaves the size to the
initializer. -/
def dimension : Parser ArrayLength := do
  if ← takeSymbol .rightBracket then return .inferred
  let size ← expression
  let _ ← expectSymbol .rightBracket "']' after array size"
  match size with
  | .literal (.int 0) _ => return .inferred
  | _ => return .explicit size

/-- A dimension written with a size, `[0]` included, is only allowed in the first place. -/
def dimensions : Nat → Ty → Option ArrayLength → Parser (Ty × Option ArrayLength)
  | 0, _, _ => Action.outOfFuel
  | fuel + 1, ty, length => do
    match ← peek? with
    | some ⟨.symbol .leftBracket, line⟩ =>
      skip
      let sized := !(← atSymbol .rightBracket)
      let size ← dimension
      if sized && length.isSome then Action.fail (.sizeBeyondFirstDimension line)
      else dimensions fuel (.array ty) (length.orElse fun _ => some size)
    | _ => return (ty, length)

/-- The type of a declared variable, whose first array dimension may have a size. -/
def declaredType : Parser (Ty × Option ArrayLength) := do
  let ty := Ty.ofName (← typePath)
  dimensions (← Action.read (·.length + 1)) ty none

def initializer : Parser (Option Expr) := do
  if ← takeSymbol .assign then return some (← expression)
  return none

/-- What is wrong with a declaration that reads well. -/
def declarationFault? (decl : VariableDecl) : Option SyntaxError :=
  match decl.length, decl.initializer with
  | some .inferred, none => some (.missingArrayInitializer decl.name decl.line)
  | some (.explicit (.literal (.int size) _)), some (.array elements _ _) =>
    if size.toInt ≠ elements.length then
      some (.arraySizeMismatch size elements.length decl.line)
    else none
  | _, none =>
    if decl.isConst then some (.constantWithoutInitializer decl.name decl.line) else none
  | _, _ => none

def checked (decl : VariableDecl) : Parser VariableDecl :=
  match declarationFault? decl with
  | some fault => Action.fail fault
  | none => return decl

/-- A variable declaration after `let` or `const`. -/
def variableDecl (isConst : Bool) (line : Nat) : Parser VariableDecl := do
  let name ← identifier "variable name"
  let _ ← expectSymbol .colon "':' and a type after variable name"
  let (ty, length) ← declaredType
  checked { name, ty, length, initializer := ← initializer, isConst, line }

/-! ## Functions -/

/-- The body of a function: a block, or an arrow and the expression it returns. -/
def functionBody (block : Parser (List Statement)) (returnType : Ty) :
    Parser (List Statement) := do
  if ← takeSymbol .fatArrow then
    let line ← peekLine
    let value ← expression
    let _ ← expectSymbol .semicolon "';' after expression body"
    if returnType = .void then return [.expression value line]
    return [.returnValue (some value) line]
  block

/-- A function after the word `func`. -/
def function (block : Parser (List Statement)) (line : Nat) : Parser FunctionDecl := do
  let name ← identifier "function name"
  let params ← params
  let returnType ← returnType
  return { name, params, returnType, body := ← functionBody block returnType, line }

/-! ## Classes -/

def accessor : Parser Keyword := do
  match ← next? with
  | some ⟨.keyword .kwGetter, _⟩ => return .kwGetter
  | some ⟨.keyword .kwSetter, _⟩ => return .kwSetter
  | some ⟨token, line⟩ => Action.fail (.expected "'getter' or 'setter'" (some token) line)
  | none => Action.fail (.unexpectedEnd "')'")

def accessors : Parser Accessors := do
  if ← takeSymbol .leftParen then
    let flags ← commaSeparated accessor .rightParen
    return { getter := flags.contains .kwGetter, setter := flags.contains .kwSetter }
  return { getter := false, setter := false }

/-- What stands before a member: who may use it, whether it is static, how it overrides. -/
structure Modifiers where
  access : Access
  isStatic : Bool
  modifier : MethodModifier

def access : Parser Access := do
  if ← takeKeyword .kwPrivate then return .ownerOnly
  let _ ← takeKeyword .kwPublic
  return .everyone

def methodModifier : Parser MethodModifier := do
  if ← takeKeyword .kwVirt then return .virtual
  if ← takeKeyword .kwOvrd then return .override
  return .plain

def modifiers : Parser Modifiers := do
  let access ← access
  let isStatic ← takeKeyword .kwStatic
  return { access, isStatic, modifier := ← methodModifier }

/-- A field after `let` or `const`. -/
def field (mods : Modifiers) (isConst : Bool) (line : Nat) : Parser FieldDecl := do
  let name ← identifier "field name"
  let _ ← expectSymbol .colon "':' and a type after field name"
  let (ty, length) ← declaredType
  let accessors ← accessors
  let decl ← checked { name, ty, length, initializer := ← initializer, isConst, line }
  let _ ← expectSymbol .semicolon "';' after field"
  return { decl, access := mods.access, isStatic := mods.isStatic, accessors }

/-- The arguments that a constructor passes to the one of its parent class. -/
def parentArguments : Parser (Option (List Expr)) := do
  if ← takeSymbol .colon then
    let _ ← expectKeyword .kwParent "'parent' after ':' in constructor"
    let _ ← expectSymbol .leftParen "'(' after 'parent'"
    return some (← arguments expression)
  return none

/-- A constructor after the word `constructor`. -/
def constructorDecl (block : Parser (List Statement)) (access : Access) (line : Nat) :
    Parser ConstructorDecl := do
  let params ← params
  let parentArguments ← parentArguments
  return { params, parentArguments, body := ← block, access, line }

/-- Reads one member and adds it to the class. -/
def member (block : Parser (List Statement)) (cls : ClassDecl) : Parser ClassDecl := do
  let mods ← modifiers
  match ← next? with
  | some ⟨.keyword .kwFunc, line⟩ =>
    let function ← function block line
    let method : MethodDecl :=
      { function, access := mods.access, isStatic := mods.isStatic, modifier := mods.modifier }
    return { cls with methods := cls.methods ++ [method] }
  | some ⟨.keyword .kwLet, line⟩ =>
    return { cls with fields := cls.fields ++ [← field mods false line] }
  | some ⟨.keyword .kwConst, line⟩ =>
    return { cls with fields := cls.fields ++ [← field mods true line] }
  | some ⟨.keyword .kwConstructor, line⟩ =>
    if cls.constructor.isSome then Action.fail (.secondConstructor cls.name line)
    else if mods.isStatic then Action.fail (.staticConstructor line)
    else return { cls with constructor := some (← constructorDecl block mods.access line) }
  | some ⟨token, line⟩ =>
    let what := "'func', 'let', 'const' or 'constructor' in class body"
    Action.fail (.expected what (some token) line)
  | none => Action.fail (.unexpectedEnd "'\x7d'")

/-- Reads members up to the closing brace. -/
def members (block : Parser (List Statement)) : Nat → ClassDecl → Parser ClassDecl
  | 0, _ => Action.outOfFuel
  | fuel + 1, cls => do
    if ← takeSymbol .rightBrace then return cls
    members block fuel (← member block cls)

/-- The names after the double colon, separated by commas. -/
def supertypesFrom : Nat → Parser (List String)
  | 0 => Action.outOfFuel
  | fuel + 1 => do
    let name ← identifier "parent or interface name"
    if ← takeSymbol .comma then return name :: (← supertypesFrom fuel)
    return [name]

def supertypes : Parser (List String) := do
  if ← takeSymbol .colonColon then supertypesFrom (← Action.read (·.length + 1))
  else return []

/-- A class after the word `class`. -/
def classDecl (block : Parser (List Statement)) (isStatic : Bool) (line : Nat) :
    Parser ClassDecl := do
  let name ← identifier "class name"
  let supertypes ← supertypes
  let _ ← expectSymbol .leftBrace "'\x7b' before class body"
  members block (← Action.read (·.length + 1))
    { name, isStatic, supertypes, fields := [], methods := [], constructor := none, line }

/-! ## Interfaces and enumerations -/

def signature : Parser MethodSignature := do
  let _ ← takeKeyword .kwPublic
  let line ← expectKeyword .kwFunc "'func' in interface body"
  let name ← identifier "method name"
  let params ← params
  let returnType ← returnType
  let _ ← expectSymbol .semicolon "';' after method signature"
  return { name, params, returnType, line }

/-- Reads method signatures up to the closing brace. -/
def signatures : Nat → Parser (List MethodSignature)
  | 0 => Action.outOfFuel
  | fuel + 1 => do
    if ← takeSymbol .rightBrace then return []
    let first ← signature
    return first :: (← signatures fuel)

/-- An interface after the word `interface`. -/
def interfaceDecl (line : Nat) : Parser InterfaceDecl := do
  let name ← identifier "interface name"
  let _ ← expectSymbol .leftBrace "'\x7b' before interface body"
  return { name, methods := ← signatures (← Action.read (·.length + 1)), line }

/-- The value of an enumeration member after the equals sign. -/
def enumValue : Parser Int64 := do
  let negative ← takeSymbol .minus
  match ← next? with
  | some ⟨.int value, line⟩ =>
    if negative then
      match Word.sub? 0 value with
      | some value => return value
      | none => Action.fail (.lexical .literalTooLarge line)
    else return value
  | some ⟨token, line⟩ => Action.fail (.expected "integer enum value" (some token) line)
  | none => Action.fail (.unexpectedEnd "enum value")

def enumMember : Parser (String × Option Int64) := do
  let name ← identifier "enum member name"
  if ← takeSymbol .assign then return (name, some (← enumValue))
  return (name, none)

/-- An enumeration after the word `enum`. -/
def enumDecl (line : Nat) : Parser EnumDecl := do
  let name ← identifier "enum name"
  let _ ← expectSymbol .leftBrace "'\x7b' before enum members"
  return { name, members := ← commaSeparated enumMember .rightBrace, line }

end ClassScript.Grammar
