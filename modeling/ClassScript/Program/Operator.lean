/-!
# Operators
-/

namespace ClassScript

inductive BinaryOp where
  | or
  | and
  | equal
  | notEqual
  | less
  | lessEqual
  | greater
  | greaterEqual
  | shiftLeft
  | shiftRight
  | shiftRightLogical
  | add
  | subtract
  | multiply
  | divide
  | modulo
  deriving DecidableEq

/-- The operator as a program writes it. -/
def BinaryOp.text : BinaryOp → String
  | .or => "||"
  | .and => "&&"
  | .equal => "=="
  | .notEqual => "!="
  | .less => "<"
  | .lessEqual => "<="
  | .greater => ">"
  | .greaterEqual => ">="
  | .shiftLeft => "<<"
  | .shiftRight => ">>"
  | .shiftRightLogical => ">>>"
  | .add => "+"
  | .subtract => "-"
  | .multiply => "*"
  | .divide => "/"
  | .modulo => "%"

def BinaryOp.all : List BinaryOp :=
  [.or, .and, .equal, .notEqual, .less, .lessEqual, .greater, .greaterEqual, .shiftLeft,
    .shiftRight, .shiftRightLogical, .add, .subtract, .multiply, .divide, .modulo]

inductive UnaryOp where
  | negate
  | not
  deriving DecidableEq

end ClassScript
