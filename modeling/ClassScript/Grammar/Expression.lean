import ClassScript.Grammar.Types

/-!
# Expressions

From loose to tight: assignment and the conditional, which nest to the right; seven levels of
left-associative operators; leading operators; suffixes; primary expressions.

`a op= b` reads as `a = a op b`, and `++a`, `a++` as `a = a + 1`.
-/

namespace ClassScript

/-- The binary operator that a token stands for. -/
def Token.binaryOp? : Token → Option BinaryOp
  | .symbol .orOr => some .or
  | .symbol .andAnd => some .and
  | .symbol .equalEqual => some .equal
  | .symbol .bangEqual => some .notEqual
  | .symbol .less => some .less
  | .symbol .lessEqual => some .lessEqual
  | .symbol .greater => some .greater
  | .symbol .greaterEqual => some .greaterEqual
  | .symbol .shiftLeft => some .shiftLeft
  | .symbol .shiftRight => some .shiftRight
  | .symbol .shiftRightLogical => some .shiftRightLogical
  | .symbol .plus => some .add
  | .symbol .minus => some .subtract
  | .symbol .star => some .multiply
  | .symbol .slash => some .divide
  | .symbol .percent => some .modulo
  | _ => none

/-- The literal that a token stands for. -/
def Token.literal? : Token → Option Literal
  | .int value => some (.int value)
  | .float value => some (.float value)
  | .double value => some (.double value)
  | .decimal value => some (.decimal value)
  | .string value => some (.string value)
  | .char value => some (.char value)
  | .bool value => some (.bool value)
  | _ => none

namespace Grammar

/-- The target of an assignment whose operator stands on `line`. -/
def targetOf (e : Expr) (line : Nat) : Parser Target :=
  match e.target? with
  | some target => return target
  | none => Action.fail (.invalidAssignmentTarget line)

/-- The assignment that puts `target op operand` into the target. -/
def updated (target : Target) (op : BinaryOp) (operand : Expr) (line : Nat) : Expr :=
  .assign target (.binary (target.toExpr line) op operand line) line

/-- Adds one to a target, or subtracts one. -/
def stepped (operand : Expr) (op : BinaryOp) (line : Nat) : Parser Expr := do
  return updated (← targetOf operand line) op (.literal (.int 1) line) line

/-! ## Primary expressions and suffixes -/

/-- After the elements of an array literal, a colon introduces the element type only if a type must
follow: the literal is empty, or the next word is a primitive type. Any other colon belongs to what
surrounds the literal. -/
def elementTypeFollows (elements : List Expr) : List Lexeme → Bool
  | ⟨.symbol .colon, _⟩ :: ⟨.name word, _⟩ :: _ => elements.isEmpty || Ty.isPrimitiveName word
  | _ => false

/-- An array literal after its opening bracket. -/
def arrayLiteral (expression : Parser Expr) (line : Nat) : Parser Expr := do
  let elements ← commaSeparated expression .rightBracket
  if ← Action.read (elementTypeFollows elements) then
    skip
    return .array elements (some (← type)) line
  return .array elements none line

def arguments (expression : Parser Expr) : Parser (List Expr) :=
  commaSeparated expression .rightParen

/-- A name: a call if a parenthesis follows, otherwise a variable. -/
def named (expression : Parser Expr) (name : String) (line : Nat) : Parser Expr := do
  if ← takeSymbol .leftParen then return .call name (← arguments expression) line
  return .var name line

/-- An instance creation after the word `new`. -/
def creation (expression : Parser Expr) (line : Nat) : Parser Expr := do
  let className ← identifier "class name after 'new'"
  let _ ← expectSymbol .leftParen "'(' after class name"
  return .new className (← arguments expression) line

def parenthesized (expression : Parser Expr) : Parser Expr := do
  let e ← expression
  let _ ← expectSymbol .rightParen "')' after expression"
  return e

def primary (expression : Parser Expr) : Parser Expr := do
  match ← next? with
  | some ⟨.name word, line⟩ => named expression word line
  | some ⟨.keyword .kwThis, line⟩ => return .self line
  | some ⟨.keyword .kwNew, line⟩ => creation expression line
  | some ⟨.symbol .leftParen, _⟩ => parenthesized expression
  | some ⟨.symbol .leftBracket, line⟩ => arrayLiteral expression line
  | some ⟨token, line⟩ =>
    match token.literal? with
    | some literal => return .literal literal line
    | none => Action.fail (.unexpectedToken token line)
  | none => Action.fail (.unexpectedEnd "expression")

/-- A member access or a method call after the dot. -/
def memberOf (expression : Parser Expr) (object : Expr) (line : Nat) : Parser Expr := do
  let name ← identifier "member name after '.'"
  if ← takeSymbol .leftParen then return .methodCall object name (← arguments expression) line
  return .member object name line

/-- An element access after the bracket. -/
def elementOf (expression : Parser Expr) (array : Expr) (line : Nat) : Parser Expr := do
  let position ← expression
  let _ ← expectSymbol .rightBracket "']' after index"
  return .index array position line

/-- One suffix of `e`, if there is one. -/
def suffix? (expression : Parser Expr) (e : Expr) : Parser (Option Expr) := do
  match ← peek? with
  | some ⟨.symbol .dot, line⟩ => skip; return some (← memberOf expression e line)
  | some ⟨.symbol .leftBracket, line⟩ => skip; return some (← elementOf expression e line)
  | some ⟨.symbol .plusPlus, line⟩ => skip; return some (← stepped e .add line)
  | some ⟨.symbol .minusMinus, line⟩ => skip; return some (← stepped e .subtract line)
  | _ => return none

/-- All suffixes of `e`. -/
def suffixes (expression : Parser Expr) : Nat → Expr → Parser Expr
  | 0, _ => Action.outOfFuel
  | fuel + 1, e => do
    match ← suffix? expression e with
    | some e => suffixes expression fuel e
    | none => return e

/-! ## Leading operators -/

inductive LeadingOp where
  | unary (op : UnaryOp)
  | step (op : BinaryOp)

def LeadingOp.ofToken? : Token → Option LeadingOp
  | .symbol .minus => some (.unary .negate)
  | .symbol .bang => some (.unary .not)
  | .symbol .plusPlus => some (.step .add)
  | .symbol .minusMinus => some (.step .subtract)
  | _ => none

/-- Puts an operator before its operand. -/
def LeadingOp.applyTo (op : LeadingOp) (operand : Expr) (line : Nat) : Parser Expr :=
  match op with
  | .unary op => return .unary op operand line
  | .step op => stepped operand op line

/-- Takes the operators in front of an operand; the first is the outermost. -/
def leadingOps : List Lexeme → List (LeadingOp × Nat) × List Lexeme
  | [] => ([], [])
  | ⟨token, line⟩ :: rest =>
    match LeadingOp.ofToken? token with
    | some op =>
      let (ops, rest) := leadingOps rest
      ((op, line) :: ops, rest)
    | none => ([], ⟨token, line⟩ :: rest)

def applyLeading (operand : Expr) : List (LeadingOp × Nat) → Parser Expr
  | [] => return operand
  | (op, line) :: ops => do op.applyTo (← applyLeading operand ops) line

def unary (expression : Parser Expr) (fuel : Nat) : Parser Expr := do
  let ops ← Action.modifyGet leadingOps
  let operand ← suffixes expression fuel (← primary expression)
  applyLeading operand ops

/-! ## Levels of binary operators -/

/-- Operators that bind equally tightly and associate to the left. -/
structure Level where
  ops : List BinaryOp
  /-- The level has the type test `is` too. -/
  hasTypeTest : Bool

/-- The levels, loosest first. -/
def levels : List Level :=
  [⟨[.or], false⟩,
    ⟨[.and], false⟩,
    ⟨[.equal, .notEqual], false⟩,
    ⟨[.less, .lessEqual, .greater, .greaterEqual], true⟩,
    ⟨[.shiftLeft, .shiftRight, .shiftRightLogical], false⟩,
    ⟨[.add, .subtract], false⟩,
    ⟨[.multiply, .divide, .modulo], false⟩]

/-- What continues an expression on a level. -/
inductive Continuation where
  | operator (op : BinaryOp)
  | typeTest

/-- How a token continues an expression on this level, if it does. -/
def Level.continuation? (level : Level) (token : Token) : Option Continuation :=
  if level.hasTypeTest && token.isKeyword .kwIs then some .typeTest
  else match token.binaryOp? with
    | some op => if level.ops.contains op then some (.operator op) else none
    | none => none

/-- One more operator of the level after `left`, if there is one. -/
def Level.extend? (level : Level) (operand : Parser Expr) (left : Expr) : Parser (Option Expr) := do
  match ← peek? with
  | some ⟨token, line⟩ =>
    match level.continuation? token with
    | some (.operator op) => skip; return some (.binary left op (← operand) line)
    | some .typeTest => skip; return some (.typeTest left (← type) line)
    | none => return none
  | none => return none

/-- All operators of the level after `left`. -/
def Level.rest (level : Level) (operand : Parser Expr) : Nat → Expr → Parser Expr
  | 0, _ => Action.outOfFuel
  | fuel + 1, left => do
    match ← level.extend? operand left with
    | some e => level.rest operand fuel e
    | none => return left

/-- An expression of the given levels over the operands `operand`. -/
def binary (operand : Parser Expr) (fuel : Nat) : List Level → Parser Expr
  | [] => operand
  | level :: tighter => do
    level.rest (binary operand fuel tighter) fuel (← binary operand fuel tighter)

/-! ## Conditional and assignment -/

def conditional (expression : Parser Expr) (fuel : Nat) : Parser Expr := do
  let condition ← binary (unary expression fuel) fuel levels
  match ← peek? with
  | some ⟨.symbol .question, line⟩ =>
    skip
    let onTrue ← expression
    let _ ← expectSymbol .colon "':' in conditional expression"
    return .conditional condition onTrue (← expression) line
  | _ => return condition

/-- What an assignment operator does with its right side. -/
inductive AssignOp where
  | replace
  | combine (op : BinaryOp)

def AssignOp.ofToken? : Token → Option AssignOp
  | .symbol .assign => some .replace
  | .symbol .plusAssign => some (.combine .add)
  | .symbol .minusAssign => some (.combine .subtract)
  | .symbol .starAssign => some (.combine .multiply)
  | .symbol .slashAssign => some (.combine .divide)
  | .symbol .percentAssign => some (.combine .modulo)
  | _ => none

def AssignOp.build (op : AssignOp) (target : Target) (value : Expr) (line : Nat) : Expr :=
  match op with
  | .replace => .assign target value line
  | .combine op => updated target op value line

def assignment (expression : Parser Expr) (fuel : Nat) : Parser Expr := do
  let left ← conditional expression fuel
  match ← peek? with
  | some ⟨token, line⟩ =>
    match AssignOp.ofToken? token with
    | some op =>
      skip
      let target ← targetOf left line
      return op.build target (← expression) line
    | none => return left
  | none => return left

/-- An expression nested at most `fuel` deep. -/
def expressionAt : Nat → Parser Expr
  | 0 => Action.outOfFuel
  | fuel + 1 => assignment (expressionAt fuel) fuel

/-- An expression. Every nested expression and every operator takes at least one token, so more fuel
than there are tokens is enough. -/
def expression : Parser Expr := fun ts => expressionAt (ts.length + 1) ts

end Grammar

end ClassScript
