import ClassScript.Grammar.Expression

/-!
# Rendering expressions

An expression as the tokens that a program writes for it, with as few parentheses as the levels of
its parts allow. Every place for a part demands a level, and a part that holds together less tightly
than its place demands stands in parentheses; an array literal inside another expression always
does. Lines are no part of the tokens, so an expression can be read back only without its lines.
-/

namespace ClassScript

/-! ## Expressions without their lines -/

mutual

/-- The expression with every line set to zero. -/
def Expr.unlined : Expr → Expr
  | .literal value _ => .literal value 0
  | .var name _ => .var name 0
  | .self _ => .self 0
  | .unary op operand _ => .unary op operand.unlined 0
  | .binary left op right _ => .binary left.unlined op right.unlined 0
  | .conditional condition onTrue onFalse _ =>
    .conditional condition.unlined onTrue.unlined onFalse.unlined 0
  | .assign target value _ => .assign target.unlined value.unlined 0
  | .call name arguments _ => .call name (unlinedAll arguments) 0
  | .methodCall object method arguments _ =>
    .methodCall object.unlined method (unlinedAll arguments) 0
  | .member object name _ => .member object.unlined name 0
  | .index array position _ => .index array.unlined position.unlined 0
  | .array elements elementType _ => .array (unlinedAll elements) elementType 0
  | .new className arguments _ => .new className (unlinedAll arguments) 0
  | .typeTest operand ty _ => .typeTest operand.unlined ty 0

def Target.unlined : Target → Target
  | .var name => .var name
  | .index array position => .index array.unlined position.unlined
  | .member object name => .member object.unlined name

def unlinedAll : List Expr → List Expr
  | [] => []
  | e :: rest => e.unlined :: unlinedAll rest

end

/-! ## Levels -/

/-- The level of an operator, from `||` to `*`. -/
def BinaryOp.level : BinaryOp → Nat
  | .or => 1
  | .and => 2
  | .equal | .notEqual => 3
  | .less | .lessEqual | .greater | .greaterEqual => 4
  | .shiftLeft | .shiftRight | .shiftRightLogical => 5
  | .add | .subtract => 6
  | .multiply | .divide | .modulo => 7

namespace Expr

/-- How tightly an expression holds together: assignments and conditionals least, then the binary
operators, then leading operators, suffixes, and the expressions that need nothing around them. -/
def level : Expr → Nat
  | .conditional .. | .assign .. => 0
  | .binary _ op _ _ => op.level
  | .typeTest .. => 4
  | .unary .. => 8
  | .methodCall .. | .member .. | .index .. => 9
  | .literal .. | .var .. | .self _ | .call .. | .array .. | .new .. => 10

def isArray : Expr → Bool
  | .array .. => true
  | _ => false

/-- The expression may stand bare as a part in a place that demands this level. -/
def fits (demand : Nat) (e : Expr) : Bool := !e.isArray && decide (demand ≤ e.level)

end Expr

/-! ## Tokens -/

def BinaryOp.symbol : BinaryOp → Symbol
  | .or => .orOr
  | .and => .andAnd
  | .equal => .equalEqual
  | .notEqual => .bangEqual
  | .less => .less
  | .lessEqual => .lessEqual
  | .greater => .greater
  | .greaterEqual => .greaterEqual
  | .shiftLeft => .shiftLeft
  | .shiftRight => .shiftRight
  | .shiftRightLogical => .shiftRightLogical
  | .add => .plus
  | .subtract => .minus
  | .multiply => .star
  | .divide => .slash
  | .modulo => .percent

def UnaryOp.symbol : UnaryOp → Symbol
  | .negate => .minus
  | .not => .bang

def Literal.token : Literal → Token
  | .int value => .int value
  | .float value => .float value
  | .double value => .double value
  | .decimal value => .decimal value
  | .bool value => .bool value
  | .string value => .string value
  | .char value => .char value

namespace Ty

/-- The words between the dots of the name under all the brackets. -/
def path : Ty → List String
  | .array element => element.path
  | ty => (ty.text.toList.splitOn '.').map String.ofList

/-- The words after the first one of a path. -/
def furtherWords : List String → List Token
  | [] => []
  | word :: rest => .symbol .dot :: .name word :: furtherWords rest

def pathTokens : List String → List Token
  | [] => []
  | word :: rest => .name word :: furtherWords rest

def tokens : Ty → List Token
  | .array element => element.tokens ++ [.symbol .leftBracket, .symbol .rightBracket]
  | ty => pathTokens ty.path

/-- Some tokens read as the type. -/
def Producible (ty : Ty) : Prop :=
  ∃ ts rest, Grammar.type ts = .ok ty rest

/-- The path of the type begins with the name of a primitive type. -/
def StartsPrimitive (ty : Ty) : Prop :=
  ∃ word ∈ ty.path.head?, isPrimitiveName word = true

end Ty

/-- The tokens, in parentheses unless they may stand bare. -/
def parens (bare : Bool) (tokens : List Token) : List Token :=
  if bare then tokens else .symbol .leftParen :: (tokens ++ [.symbol .rightParen])

mutual

/-- The tokens of an expression that is not a part of another one. -/
def Expr.tokens : Expr → List Token
  | .literal value _ => [value.token]
  | .var name _ => [.name name]
  | .self _ => [.keyword .kwThis]
  | .unary op operand _ => .symbol op.symbol :: parens (operand.fits 8) operand.tokens
  | .binary left op right _ =>
    parens (left.fits op.level) left.tokens ++
      .symbol op.symbol :: parens (right.fits (op.level + 1)) right.tokens
  | .conditional condition onTrue onFalse _ =>
    parens (condition.fits 1) condition.tokens ++
      .symbol .question :: (parens (onTrue.fits 0) onTrue.tokens ++
        .symbol .colon :: parens (onFalse.fits 0) onFalse.tokens)
  | .assign target value _ =>
    target.tokens ++ .symbol .assign :: parens (value.fits 0) value.tokens
  | .call name arguments _ =>
    .name name :: .symbol .leftParen :: (listTokens arguments ++ [.symbol .rightParen])
  | .methodCall object method arguments _ =>
    parens (object.fits 9) object.tokens ++
      .symbol .dot :: .name method :: .symbol .leftParen ::
        (listTokens arguments ++ [.symbol .rightParen])
  | .member object name _ => parens (object.fits 9) object.tokens ++ [.symbol .dot, .name name]
  | .index array position _ =>
    parens (array.fits 9) array.tokens ++
      .symbol .leftBracket :: (parens (position.fits 0) position.tokens ++
        [.symbol .rightBracket])
  | .array elements none _ =>
    .symbol .leftBracket :: (listTokens elements ++ [.symbol .rightBracket])
  | .array elements (some ty) _ =>
    .symbol .leftBracket :: (listTokens elements ++
      .symbol .rightBracket :: .symbol .colon :: ty.tokens)
  | .new className arguments _ =>
    .keyword .kwNew :: .name className :: .symbol .leftParen ::
      (listTokens arguments ++ [.symbol .rightParen])
  | .typeTest operand ty _ =>
    parens (operand.fits 4) operand.tokens ++ .keyword .kwIs :: ty.tokens

def Target.tokens : Target → List Token
  | .var name => [.name name]
  | .index array position =>
    parens (array.fits 9) array.tokens ++
      .symbol .leftBracket :: (parens (position.fits 0) position.tokens ++
        [.symbol .rightBracket])
  | .member object name => parens (object.fits 9) object.tokens ++ [.symbol .dot, .name name]

/-- Expressions with commas between them. -/
def listTokens : List Expr → List Token
  | [] => []
  | e :: rest => parens (e.fits 0) e.tokens ++ furtherTokens rest

/-- Expressions with a comma before each. -/
def furtherTokens : List Expr → List Token
  | [] => []
  | e :: rest => .symbol .comma :: (parens (e.fits 0) e.tokens ++ furtherTokens rest)

end

/-- The tokens of an expression that is a part in a place that demands this level. -/
def Expr.tokensAt (demand : Nat) (e : Expr) : List Token := parens (e.fits demand) e.tokens

/-! ## Well-formed expressions -/

mutual

/-- Every type can be written, and an array literal with elements has an element type only if its
path begins with the name of a primitive type. -/
def Expr.WellFormed : Expr → Prop
  | .literal .. | .var .. | .self _ => True
  | .unary _ operand _ => operand.WellFormed
  | .binary left _ right _ => left.WellFormed ∧ right.WellFormed
  | .conditional condition onTrue onFalse _ =>
    condition.WellFormed ∧ onTrue.WellFormed ∧ onFalse.WellFormed
  | .assign target value _ => target.WellFormed ∧ value.WellFormed
  | .call _ arguments _ => WellFormedAll arguments
  | .methodCall object _ arguments _ => object.WellFormed ∧ WellFormedAll arguments
  | .member object _ _ => object.WellFormed
  | .index array position _ => array.WellFormed ∧ position.WellFormed
  | .array elements none _ => WellFormedAll elements
  | .array elements (some ty) _ =>
    WellFormedAll elements ∧ ty.Producible ∧ (elements = [] ∨ ty.StartsPrimitive)
  | .new _ arguments _ => WellFormedAll arguments
  | .typeTest operand ty _ => operand.WellFormed ∧ ty.Producible

def Target.WellFormed : Target → Prop
  | .var _ => True
  | .index array position => array.WellFormed ∧ position.WellFormed
  | .member object _ => object.WellFormed

def WellFormedAll : List Expr → Prop
  | [] => True
  | e :: rest => e.WellFormed ∧ WellFormedAll rest

end

theorem Target.wellFormed_toExpr {target : Target} {line : Nat} (h : target.WellFormed) :
    (target.toExpr line).WellFormed := by
  cases target <;> exact h

end ClassScript
