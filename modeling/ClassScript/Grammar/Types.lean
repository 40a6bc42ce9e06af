import ClassScript.Grammar.Parser
import ClassScript.Program.Statement

/-!
# Types and parameters
-/

namespace ClassScript.Grammar

/-- The rest of a dotted path that begins with `path`. -/
def pathRest (path : String) : List Lexeme → Outcome (List Lexeme) SyntaxError String
  | ⟨.symbol .dot, _⟩ :: ⟨.name word, _⟩ :: rest => pathRest (path ++ "." ++ word) rest
  | ⟨.symbol .dot, _⟩ :: rest => identifier "type name after '.'" rest
  | rest => .ok path rest

/-- A type name: `int`, `Shape`, `geometry.Shape`. -/
def typePath : Parser String := do
  pathRest (← identifier "type name")

/-- The pairs of brackets after a type; a bracket that is not closed at once is left alone. -/
def arraySuffix (ty : Ty) : List Lexeme → Outcome (List Lexeme) SyntaxError Ty
  | ⟨.symbol .leftBracket, _⟩ :: ⟨.symbol .rightBracket, _⟩ :: rest => arraySuffix (.array ty) rest
  | rest => .ok ty rest

def type : Parser Ty := do
  arraySuffix (Ty.ofName (← typePath))

def param : Parser Param := do
  let line ← peekLine
  let name ← identifier "parameter name"
  let _ ← expectSymbol .colon "':' and a type after parameter name"
  return { name, ty := ← type, line }

def params : Parser (List Param) := do
  let _ ← expectSymbol .leftParen "'(' before parameters"
  commaSeparated param .rightParen

/-- The type after a colon; without one nothing is returned. -/
def returnType : Parser Ty := do
  if ← takeSymbol .colon then type else return .void

end ClassScript.Grammar
