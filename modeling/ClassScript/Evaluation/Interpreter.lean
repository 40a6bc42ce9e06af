import ClassScript.Evaluation.Statements

/-!
# The interpreter

`interpreter fuel` runs programs whose evaluation nests less than `fuel` deep and whose loops go
round less than `fuel` times; with too little fuel it answers `exhausted` instead of a result.
Every larger amount of fuel gives the same result.
-/

namespace ClassScript

def interpreter : Nat → Interpreter
  | 0 =>
    { eval := fun _ _ => Action.outOfFuel
      exec := fun _ => Action.outOfFuel
      construct := fun _ => Action.outOfFuel }
  | fuel + 1 =>
    { eval := fun e expected => (interpreter fuel).evalStep e expected
      exec := fun statement => (interpreter fuel).execStep fuel statement
      construct := fun c => (interpreter fuel).constructStep c }

/-- Evaluates an expression. -/
def evaluate (fuel : Nat) (e : Expr) (expected : Option Ty) : Eval Value :=
  (interpreter fuel).eval e expected

/-- Executes a statement. -/
def execute (fuel : Nat) (statement : Statement) : Eval Signal :=
  (interpreter fuel).exec statement

/-- Runs a program. -/
def runProgram (fuel : Nat) (program : Program) : Eval Unit :=
  (interpreter fuel).execProgram program

/-- Makes a class of the host known to programs. -/
def registerClass (info : ClassInfo) : Eval ClassId := declareClassInfo info 0

end ClassScript
