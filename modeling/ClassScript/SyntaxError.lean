import ClassScript.Token.Basic

/-!
# Syntax errors

Why a source text is not a program. The causes are data; `SyntaxError.message` is the one place
that words them.
-/

namespace ClassScript

/-- The two kinds of quoted literal. -/
inductive Quote where
  | string
  | character
  deriving DecidableEq

/-- The character that opens and closes a quoted literal. -/
def Quote.mark : Quote → Char
  | .string => '"'
  | .character => '\''

/-- Why the characters at some place form no token. -/
inductive LexicalFault where
  | unrecognizedCharacter (char : Char)
  | missingNumericSuffix (literal : String)
  | unterminatedLiteral (quote : Quote)
  | invalidCharLiteral (text : String)
  | literalTooLarge

inductive SyntaxError where
  | lexical (fault : LexicalFault) (line : Nat)
  | unexpectedToken (token : Token) (line : Nat)
  | unexpectedEnd (wanted : String)
  /-- Something definite had to stand here; `found` is missing at the end of the text. -/
  | expected (what : String) (found : Option Token) (line : Nat)
  | arraySizeMismatch (size : Int64) (count : Nat) (line : Nat)
  | missingArrayInitializer (name : String) (line : Nat)
  | invalidAssignmentTarget (line : Nat)
  | sizeBeyondFirstDimension (line : Nat)
  | constantWithoutInitializer (name : String) (line : Nat)
  | duplicateDefault (line : Nat)
  | secondConstructor (className : String) (line : Nat)
  | staticConstructor (line : Nat)

def LexicalFault.message : LexicalFault → String
  | .unrecognizedCharacter char => "Unrecognized character '" ++ char.toString ++ "'."
  | .missingNumericSuffix literal =>
    "Fractional literal '" ++ literal ++ "' needs a type suffix (f, d or m)."
  | .unterminatedLiteral .string => "Unterminated string literal."
  | .unterminatedLiteral .character => "Unterminated character literal."
  | .invalidCharLiteral text =>
    "Character literal '" ++ text ++ "' must hold exactly one character."
  | .literalTooLarge => "Literal is too large."

/-- The beginning of every message that knows its line. -/
def onLine (line : Nat) (text : String) : String :=
  "Error on line " ++ toString line ++ ": " ++ text

def SyntaxError.message : SyntaxError → String
  | .lexical fault line => onLine line fault.message
  | .unexpectedToken token line => onLine line ("Unexpected token: " ++ token.describe ++ ".")
  | .unexpectedEnd wanted => "Error: Unexpected end of input, expected " ++ wanted ++ "."
  | .expected what found line =>
    let found := match found with
      | some token => token.describe
      | none => "end of input"
    onLine line ("Expected " ++ what ++ ", found " ++ found ++ ".")
  | .arraySizeMismatch size count line =>
    onLine line ("Array declared with size " ++ toString size.toInt ++ " but initialized with "
      ++ toString count ++ " elements.")
  | .missingArrayInitializer name line =>
    onLine line ("Array '" ++ name ++ "' needs either a size or an initializer list.")
  | .invalidAssignmentTarget line => onLine line "Invalid assignment target."
  | .sizeBeyondFirstDimension line => onLine line "Only the first array dimension can have a size."
  | .constantWithoutInitializer name line =>
    onLine line ("Constant '" ++ name ++ "' needs an initializer.")
  | .duplicateDefault line => onLine line "Duplicate 'default' in switch."
  | .secondConstructor className line =>
    onLine line ("Class '" ++ className ++ "' already has a constructor.")
  | .staticConstructor line => onLine line "A constructor cannot be static."

end ClassScript
