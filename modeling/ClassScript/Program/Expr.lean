import ClassScript.Decimal.Basic
import ClassScript.Program.Operator
import ClassScript.Program.Ty

/-!
# Expressions

Every node carries the line it is reported on: for an operator the line of the operator, for the
others the line on which they start.
-/

namespace ClassScript

inductive Literal where
  | int (value : Int64)
  | float (value : Float32)
  | double (value : Float)
  | decimal (value : Decimal)
  | bool (value : Bool)
  | string (value : String)
  | char (value : Char)

mutual

inductive Expr where
  | literal (value : Literal) (line : Nat)
  | var (name : String) (line : Nat)
  | self (line : Nat)
  | unary (op : UnaryOp) (operand : Expr) (line : Nat)
  | binary (left : Expr) (op : BinaryOp) (right : Expr) (line : Nat)
  | conditional (condition onTrue onFalse : Expr) (line : Nat)
  | assign (target : Target) (value : Expr) (line : Nat)
  | call (name : String) (arguments : List Expr) (line : Nat)
  | methodCall (object : Expr) (method : String) (arguments : List Expr) (line : Nat)
  | member (object : Expr) (name : String) (line : Nat)
  | index (array position : Expr) (line : Nat)
  | array (elements : List Expr) (elementType : Option Ty) (line : Nat)
  | new (className : String) (arguments : List Expr) (line : Nat)
  | typeTest (operand : Expr) (ty : Ty) (line : Nat)

/-- What can stand on the left of an assignment. -/
inductive Target where
  | var (name : String)
  | index (array position : Expr)
  | member (object : Expr) (name : String)

end

namespace Expr

def line : Expr → Nat
  | .literal _ line | .var _ line | .self line | .unary _ _ line | .binary _ _ _ line
  | .conditional _ _ _ line | .assign _ _ line | .call _ _ line | .methodCall _ _ _ line
  | .member _ _ line | .index _ _ line | .array _ _ line | .new _ _ line
  | .typeTest _ _ line => line

/-- The assignment target that an expression names, if it names one. -/
def target? : Expr → Option Target
  | .var name _ => some (.var name)
  | .index base position _ => some (.index base position)
  | .member object name _ => some (.member object name)
  | _ => none

end Expr

/-- The expression that reads a target. -/
def Target.toExpr (line : Nat) : Target → Expr
  | .var name => .var name line
  | .index base position => .index base position line
  | .member object name => .member object name line

end ClassScript
