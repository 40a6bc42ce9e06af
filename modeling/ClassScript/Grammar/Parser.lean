import ClassScript.Action
import ClassScript.Token.Lexer

/-!
# Parsers

A parser is an action on the tokens still to be read. It takes tokens from the front and puts none
back. The small parsers here look at one token; `commaSeparated` reads the bracketed lists of
arguments, parameters, elements and members.
-/

namespace ClassScript

abbrev Parser (α : Type) : Type := Action (List Lexeme) SyntaxError α

namespace Token

def isSymbol (s : Symbol) : Token → Bool
  | .symbol mark => mark == s
  | _ => false

def isKeyword (k : Keyword) : Token → Bool
  | .keyword word => word == k
  | _ => false

end Token

namespace Grammar

variable {α : Type}

/-- The next token, left in place. -/
def peek? : Parser (Option Lexeme) := fun ts => .ok ts.head? ts

/-- Takes the next token. -/
def next? : Parser (Option Lexeme) := fun ts => .ok ts.head? ts.tail

/-- Takes the next token, which has been looked at. -/
def skip : Parser Unit := fun ts => .ok () ts.tail

/-- The line of the next token; zero at the end. -/
def peekLine : Parser Nat := do
  return ((← peek?).map Lexeme.line).getD 0

/-- The next token satisfies `p`. -/
def at? (p : Token → Bool) : Parser Bool := do
  return ((← peek?).map fun lexeme => p lexeme.token).getD false

/-- Takes the next token if it satisfies `p`. -/
def takeIf (p : Token → Bool) : Parser Bool := do
  if ← at? p then
    skip
    return true
  return false

def atSymbol (s : Symbol) : Parser Bool := at? (Token.isSymbol s)

def takeSymbol (s : Symbol) : Parser Bool := takeIf (Token.isSymbol s)

def takeKeyword (k : Keyword) : Parser Bool := takeIf (Token.isKeyword k)

/-- Fails because something else than `what` was found. -/
def mismatch (what : String) : Option Lexeme → Parser α
  | some ⟨token, line⟩ => Action.fail (.expected what (some token) line)
  | none => Action.fail (.unexpectedEnd what)

/-- Takes a token that satisfies `p` and gives its line. -/
def expect (p : Token → Bool) (what : String) : Parser Nat := do
  let found ← next?
  match found with
  | some ⟨token, line⟩ => if p token then return line else mismatch what found
  | none => mismatch what found

def expectSymbol (s : Symbol) (what : String) : Parser Nat := expect (Token.isSymbol s) what

def expectKeyword (k : Keyword) (what : String) : Parser Nat := expect (Token.isKeyword k) what

def identifier (what : String) : Parser String := do
  let found ← next?
  match found with
  | some ⟨.name word, _⟩ => return word
  | _ => mismatch what found

/-- The items of a list up to its closing symbol, which is taken too. -/
def itemsUntil (item : Parser α) (closing : Symbol) : Nat → Parser (List α)
  | 0 => Action.outOfFuel
  | fuel + 1 => do
    let first ← item
    match ← next? with
    | some ⟨.symbol mark, line⟩ =>
      if mark = .comma then return first :: (← itemsUntil item closing fuel)
      else if mark = closing then return [first]
      else unexpected (.symbol mark) line
    | some ⟨token, line⟩ => unexpected token line
    | none => Action.fail (.unexpectedEnd (Token.symbol closing).describe)
where
  unexpected (token : Token) (line : Nat) : Parser (List α) :=
    Action.fail (.expected ("',' or " ++ (Token.symbol closing).describe) (some token) line)

/-- A list that may be empty, after its opening symbol. Every item takes at least one token, so more
fuel than there are tokens is enough. -/
def commaSeparated (item : Parser α) (closing : Symbol) : Parser (List α) := do
  if ← takeSymbol closing then return []
  itemsUntil item closing (← Action.read (·.length + 1))

end Grammar

end ClassScript
