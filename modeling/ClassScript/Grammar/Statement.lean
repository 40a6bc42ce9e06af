import ClassScript.Grammar.Declaration

/-!
# Statements and programs

`parse` reads a whole source text.
-/

namespace ClassScript.Grammar

/-- Statements up to the closing brace of a block, which is taken too. -/
def statementsToBrace (statement : Parser Statement) : Nat → Parser (List Statement)
  | 0 => Action.outOfFuel
  | fuel + 1 => do
    match ← peek? with
    | some ⟨.symbol .rightBrace, _⟩ => skip; return []
    | some _ =>
      let first ← statement
      return first :: (← statementsToBrace statement fuel)
    | none => Action.fail (.unexpectedEnd "'\x7d'")

/-- The statements of a block after its opening brace. -/
def blockBody (statement : Parser Statement) : Parser (List Statement) := do
  statementsToBrace statement (← Action.read (·.length + 1))

def block (statement : Parser Statement) : Parser (List Statement) := do
  let _ ← expectSymbol .leftBrace "'\x7b'"
  blockBody statement

/-- The parenthesized expression after a keyword. -/
def condition (word : String) : Parser Expr := do
  let _ ← expectSymbol .leftParen ("'(' after '" ++ word ++ "'")
  let e ← expression
  let _ ← expectSymbol .rightParen ("')' after " ++ word ++ " condition")
  return e

/-! ## Branches and loops -/

def branch (statement : Parser Statement) (line : Nat) : Parser Statement := do
  let condition ← condition "if"
  let onTrue ← statement
  if ← takeKeyword .kwElse then return .branch condition onTrue (some (← statement)) line
  return .branch condition onTrue none line

def whileLoop (statement : Parser Statement) (line : Nat) : Parser Statement := do
  let condition ← condition "while"
  return .whileLoop condition (← statement) line

def doWhile (statement : Parser Statement) (line : Nat) : Parser Statement := do
  let body ← statement
  let _ ← expectKeyword .kwWhile "'while' after do body"
  let condition ← condition "while"
  let _ ← expectSymbol .semicolon "';' after do-while condition"
  return .doWhile body condition line

/-- The first part of a `for` header: a declaration, an expression or nothing. -/
def loopStart : Parser (Option Statement) := do
  match ← peek? with
  | some ⟨.symbol .colon, _⟩ => return none
  | some ⟨.keyword .kwLet, line⟩ => skip; return some (.declare (← variableDecl false line))
  | some ⟨.keyword .kwConst, line⟩ => skip; return some (.declare (← variableDecl true line))
  | _ =>
    let line ← peekLine
    return some (.expression (← expression) line)

/-- An expression that may be missing before `closing`. -/
def optionalBefore (closing : Symbol) : Parser (Option Expr) := do
  if ← atSymbol closing then return none
  return some (← expression)

def forLoop (statement : Parser Statement) (line : Nat) : Parser Statement := do
  let _ ← expectSymbol .leftParen "'(' after 'for'"
  let initial ← loopStart
  let _ ← expectSymbol .colon "':' after for initializer"
  let condition ← optionalBefore .colon
  let _ ← expectSymbol .colon "':' after for condition"
  let step ← optionalBefore .rightParen
  let _ ← expectSymbol .rightParen "')' after for header"
  return .forLoop initial condition step (← statement) line

/-! ## Switch -/

/-- The token ends the statements of a case. -/
def endsCase : Token → Bool
  | .keyword .kwCase | .keyword .kwDefault | .symbol .rightBrace => true
  | _ => false

/-- The statements of a case, up to the next case or the end. -/
def caseBody (statement : Parser Statement) : Nat → Parser (List Statement)
  | 0 => Action.outOfFuel
  | fuel + 1 => do
    match ← peek? with
    | some ⟨token, _⟩ =>
      if endsCase token then return []
      let first ← statement
      return first :: (← caseBody statement fuel)
    | none => return []

/-- The cases of a `switch` up to its closing brace, and the statements under `default`. -/
def switchCases (statement : Parser Statement) :
    Nat → Option (List Statement) → Parser (List SwitchCase × Option (List Statement))
  | 0, _ => Action.outOfFuel
  | fuel + 1, fallback => do
    match ← next? with
    | some ⟨.keyword .kwCase, line⟩ =>
      let value ← expression
      let _ ← expectSymbol .colon "':' after case value"
      let body ← caseBody statement (← Action.read (·.length + 1))
      let (cases, fallback) ← switchCases statement fuel fallback
      return ({ value, body, line } :: cases, fallback)
    | some ⟨.keyword .kwDefault, line⟩ =>
      if fallback.isSome then Action.fail (.duplicateDefault line)
      let _ ← expectSymbol .colon "':' after 'default'"
      let body ← caseBody statement (← Action.read (·.length + 1))
      switchCases statement fuel (some body)
    | some ⟨.symbol .rightBrace, _⟩ => return ([], fallback)
    | some ⟨token, line⟩ =>
      Action.fail (.expected "'case', 'default' or '\x7d'" (some token) line)
    | none => Action.fail (.unexpectedEnd "'\x7d'")

def switch (statement : Parser Statement) (line : Nat) : Parser Statement := do
  let subject ← condition "switch"
  let _ ← expectSymbol .leftBrace "'\x7b' after switch value"
  let (cases, fallback) ← switchCases statement (← Action.read (·.length + 1)) none
  return .switch subject cases fallback line

/-! ## Exceptions -/

/-- The type after a colon, if there is one. -/
def optionalType : Parser (Option Ty) := do
  if ← takeSymbol .colon then return some (← type)
  return none

/-- A clause after the word `catch`. -/
def catchClause (statement : Parser Statement) (line : Nat) : Parser CatchClause := do
  let _ ← expectSymbol .leftParen "'(' after 'catch'"
  let name ← identifier "catch variable name"
  let ty ← optionalType
  let _ ← expectSymbol .rightParen "')' after catch variable"
  let _ ← expectSymbol .leftBrace "'\x7b' before catch body"
  return { name, ty, body := ← blockBody statement, line }

def catchClauses (statement : Parser Statement) : Nat → Parser (List CatchClause)
  | 0 => Action.outOfFuel
  | fuel + 1 => do
    match ← peek? with
    | some ⟨.keyword .kwCatch, line⟩ =>
      skip
      let first ← catchClause statement line
      return first :: (← catchClauses statement fuel)
    | _ => return []

def finalizer (statement : Parser Statement) : Parser (Option (List Statement)) := do
  if ← takeKeyword .kwFinally then return some (← block statement)
  return none

/-- A `try` has at least one `catch` or a `finally`. -/
def tryCatch (statement : Parser Statement) (line : Nat) : Parser Statement := do
  let body ← block statement
  let catches ← catchClauses statement (← Action.read (·.length + 1))
  let finalizer ← finalizer statement
  if catches.isEmpty && finalizer.isNone then
    let found := (← peek?).map Lexeme.token
    Action.fail (.expected "'catch' or 'finally' after try block" found line)
  else return .tryCatch body catches finalizer line

/-! ## Simple statements -/

def modulePath : Parser String := do
  let found ← next?
  match found with
  | some ⟨.string path, _⟩ => return path
  | _ => mismatch "module path string" found

def returnStatement (line : Nat) : Parser Statement := do
  let value ← optionalBefore .semicolon
  let _ ← expectSymbol .semicolon "';' after return"
  return .returnValue value line

def throwStatement (line : Nat) : Parser Statement := do
  let value ← expression
  let _ ← expectSymbol .semicolon "';' after throw"
  return .throwValue value line

def includeStatement (line : Nat) : Parser Statement := do
  let path ← modulePath
  let _ ← expectSymbol .semicolon "';' after include"
  return .includeModule path line

def jump (statement : Statement) : Parser Statement := do
  let _ ← expectSymbol .semicolon "';' after jump statement"
  return statement

def declaration (isConst : Bool) (line : Nat) : Parser Statement := do
  let decl ← variableDecl isConst line
  let _ ← expectSymbol .semicolon "';' after declaration"
  return .declare decl

def expressionStatement (line : Nat) : Parser Statement := do
  let e ← expression
  let _ ← expectSymbol .semicolon "';' after expression"
  return .expression e line

/-- A class after the word `static`. -/
def staticClass (statement : Parser Statement) (line : Nat) : Parser Statement := do
  let _ ← expectKeyword .kwClass "'class' after 'static'"
  return .classType (← classDecl (block statement) true line)

/-- A statement that begins with a keyword, after that keyword; `none` for the keywords that begin
no statement of their own. -/
def keywordStatement? (statement : Parser Statement) (line : Nat) :
    Keyword → Option (Parser Statement)
  | .kwLet => some (declaration false line)
  | .kwConst => some (declaration true line)
  | .kwFunc => some (return .function (← function (block statement) line))
  | .kwStatic => some (staticClass statement line)
  | .kwClass => some (return .classType (← classDecl (block statement) false line))
  | .kwInterface => some (return .interface (← interfaceDecl line))
  | .kwEnum => some (return .enumeration (← enumDecl line))
  | .kwIf => some (branch statement line)
  | .kwWhile => some (whileLoop statement line)
  | .kwDo => some (doWhile statement line)
  | .kwFor => some (forLoop statement line)
  | .kwSwitch => some (switch statement line)
  | .kwBreak => some (jump (.breakLoop line))
  | .kwContinue => some (jump (.continueLoop line))
  | .kwReturn => some (returnStatement line)
  | .kwThrow => some (throwStatement line)
  | .kwTry => some (tryCatch statement line)
  | .kwInclude | .kwUse => some (includeStatement line)
  | _ => none

/-- A statement whose parts are read by `statement`. -/
def statementStep (statement : Parser Statement) : Parser Statement := do
  match ← peek? with
  | some ⟨.symbol .leftBrace, line⟩ => return .block (← block statement) line
  | some ⟨.keyword word, line⟩ =>
    match keywordStatement? statement line word with
    | some rest => skip; rest
    | none => expressionStatement line
  | some ⟨_, line⟩ => expressionStatement line
  | none => Action.fail (.unexpectedEnd "statement")

/-- A statement nested at most `fuel` deep. -/
def statementAt : Nat → Parser Statement
  | 0 => Action.outOfFuel
  | fuel + 1 => statementStep (statementAt fuel)

/-- A statement. Every nested statement stands after at least one token, so more fuel than there are
tokens is enough. -/
def statement : Parser Statement := fun ts => statementAt (ts.length + 1) ts

/-- Statements up to the end of the tokens. -/
def statementsToEnd : Nat → Parser Program
  | 0 => Action.outOfFuel
  | fuel + 1 => do
    match ← peek? with
    | some _ =>
      let first ← statement
      return first :: (← statementsToEnd fuel)
    | none => return []

/-- Reads tokens as a program. Each statement takes a token, so the fuel suffices and the last case
does not arise. -/
def program (ts : List Lexeme) : Except SyntaxError Program :=
  match statementsToEnd (ts.length + 1) ts with
  | .ok p _ => .ok p
  | .error e _ => .error e
  | .exhausted => .error (.unexpectedEnd "statement")

end Grammar

/-- Reads a source text as a program. -/
def parse (source : String) : Except SyntaxError Program := do
  Grammar.program (← tokenize source)

end ClassScript
