import ClassScript.Token.Basic

/-!
# Token listings
-/

namespace ClassScript.Listing

/-- A line number, right-aligned in four places. -/
def lineNumber (line : Nat) : String :=
  let digits := toString line
  String.ofList (List.replicate (4 - digits.length) ' ') ++ digits

/-- The tokens of a text, each on a line of its own after its line number. -/
def ofTokens (tokens : List Lexeme) : String :=
  String.join (tokens.map fun lexeme =>
    lineNumber lexeme.line ++ "  " ++ lexeme.token.describe ++ "\n")

end ClassScript.Listing
