import ClassScript.Token.Lexer

/-!
# Token patterns

What the pieces of a text are, said without the lexer: the declared patterns, what a slice that
matches one of them stands for, and how a text is cut into slices by always taking the longest one.

A quoted literal runs from its opening mark through the first closing mark that no backslash
protects; an opening mark alone is a pattern too, so that a literal which is never closed is
rejected as such and not as an unknown character. A block comment runs through its first end.
-/

namespace ClassScript

namespace Lexical

/-! ## Patterns -/

/-- Decimal digits, of which there is at least one. -/
def Digits (cs : List Char) : Prop := cs ≠ [] ∧ ∀ c ∈ cs, c.isDigit = true

/-- The inside of a quoted literal as it is written, and the characters that it stands for. -/
inductive Inside (mark : Char) : List Char → List Char → Prop where
  | nil : Inside mark [] []
  | plain {c : Char} {written text : List Char} (hescape : c ≠ '\\') (hmark : c ≠ mark)
      (rest : Inside mark written text) : Inside mark (c :: written) (c :: text)
  | escaped (c : Char) {written text : List Char} (rest : Inside mark written text) :
      Inside mark ('\\' :: c :: written) (Piece.unescape c :: text)

/-- What stands between the marks of a block comment: the first end is the one after it. -/
def CommentBody (body : List Char) : Prop := ¬ ['*', '/'] <:+: body ++ ['*']

/-- The letters after a fraction that name its type. -/
def suffixes : List Char := ['f', 'd', 'm']

/-- A truth value as a program writes it. -/
def truthWord (value : Bool) : List Char := (if value then "true" else "false").toList

/-- The slice is an identifier, or a word that is spelled like one. -/
def WordShaped : List Char → Prop
  | [] => False
  | first :: rest => Piece.isWordStart first = true ∧ ∀ c ∈ rest, Piece.isWordPart c = true

/-- The slice matches one of the declared patterns. -/
inductive Matches : List Char → Prop where
  | integer {digits : List Char} (h : Digits digits) : Matches digits
  | fractional {whole places : List Char} (hwhole : Digits whole) (hplaces : Digits places) :
      Matches (whole ++ '.' :: places)
  | suffixed {whole places : List Char} {suffix : Char} (hwhole : Digits whole)
      (hplaces : Digits places) (hsuffix : suffix ∈ suffixes) :
      Matches (whole ++ '.' :: (places ++ [suffix]))
  | openQuote (quote : Quote) : Matches [quote.mark]
  | quoted (quote : Quote) {written text : List Char} (h : Inside quote.mark written text) :
      Matches (quote.mark :: (written ++ [quote.mark]))
  | truth (value : Bool) : Matches (truthWord value)
  | keyword (word : Keyword) : Matches word.spelling.toList
  | name {slice : List Char} (h : WordShaped slice) : Matches slice
  | symbol (mark : Symbol) : Matches mark.spelling
  | lineComment {body : List Char} (h : ∀ c ∈ body, Piece.isInLine c = true) :
      Matches ('/' :: '/' :: body)
  | blockComment {body : List Char} (h : CommentBody body) :
      Matches ('/' :: '*' :: (body ++ ['*', '/']))
  | lineBreak : Matches ['\n']
  | blanks {slice : List Char} (hne : slice ≠ []) (h : ∀ c ∈ slice, Piece.isBlank c = true) :
      Matches slice

/-! ## What slices stand for -/

/-- Only blanks, line breaks and comments are skipped. -/
inductive Skipped : List Char → Prop where
  | blanks {slice : List Char} (h : ∀ c ∈ slice, Piece.isBlank c = true) : Skipped slice
  | lineBreak : Skipped ['\n']
  | lineComment {body : List Char} (h : ∀ c ∈ body, Piece.isInLine c = true) :
      Skipped ('/' :: '/' :: body)
  | blockComment {body : List Char} (h : CommentBody body) :
      Skipped ('/' :: '*' :: (body ++ ['*', '/']))

/-- The slice is a number with a fraction and this suffix, and its digits satisfy `P`. -/
def Suffixed (suffix : Char) (P : List Char → List Char → Prop) (slice : List Char) : Prop :=
  ∃ whole places, Digits whole ∧ Digits places ∧
    slice = whole ++ '.' :: (places ++ [suffix]) ∧ P whole places

/-- The slice is a quoted literal that stands for `text`. -/
def Quotes (quote : Quote) (text slice : List Char) : Prop :=
  ∃ written, Inside quote.mark written text ∧ slice = quote.mark :: (written ++ [quote.mark])

/-- The slice is this token. -/
def ReadsToken (slice : List Char) : Token → Prop
  | .int value => Digits slice ∧ Word.ofInt? (digitsValue slice) = some value
  | .float value => Suffixed 'f' (fun whole places =>
      value = Floating.single (Floating.binary32.ofPlaces whole places)) slice
  | .double value => Suffixed 'd' (fun whole places =>
      value = Floating.double (Floating.binary64.ofPlaces whole places)) slice
  | .decimal value => Suffixed 'm' (fun whole places =>
      Decimal.ofDigits? whole places = some value) slice
  | .string value => Quotes .string value.toList slice
  | .char value => Quotes .character [value] slice
  | .bool value => slice = truthWord value
  | .keyword word => slice = word.spelling.toList
  | .name word => slice = word.toList ∧ WordShaped slice ∧ (∀ value, slice ≠ truthWord value) ∧
      ∀ keyword : Keyword, slice ≠ keyword.spelling.toList
  | .symbol mark => slice = mark.spelling

/-- The slice is rejected for this reason. -/
def Rejected (slice : List Char) : LexicalFault → Prop
  | .missingNumericSuffix literal => ∃ whole places, Digits whole ∧ Digits places ∧
      slice = whole ++ '.' :: places ∧ literal.toList = slice
  | .literalTooLarge => (Digits slice ∧ Word.ofInt? (digitsValue slice) = none) ∨
      Suffixed 'm' (fun whole places => Decimal.ofDigits? whole places = none) slice
  | .unterminatedLiteral quote => slice = [quote.mark]
  | .invalidCharLiteral text => Quotes .character text.toList slice ∧ text.toList.length ≠ 1
  | .unrecognizedCharacter _ => False

/-- What a slice stands for. -/
def Reads (slice : List Char) : Piece.Content → Prop
  | .skipped => Skipped slice
  | .token token => ReadsToken slice token
  | .invalid fault => Rejected slice fault

/-! ## Maximal munch -/

/-- No declared pattern matches at the front of the text. -/
def Unmatched (text : List Char) : Prop := ∀ slice, slice <+: text → ¬ Matches slice

/-- The slice matches a pattern, and no longer prefix of it and what follows does. -/
structure Longest (slice rest : List Char) : Prop where
  pattern : Matches slice
  longest : ∀ other, other <+: slice ++ rest → Matches other → other.length ≤ slice.length

/-- The piece is the longest one at its place, and it is what its slice stands for. -/
structure Cut (piece : Piece) : Prop where
  longest : Longest piece.slice piece.rest
  reads : Reads piece.slice piece.content

/-- The text, cut into pieces by always taking the longest one, has these tokens; or it is rejected
at its last piece, or where no pattern matches. -/
inductive Munches : List Char → List Piece → Except LexicalFault (List Token) → Prop where
  | nil : Munches [] [] (.ok [])
  | skipped {piece : Piece} {pieces : List Piece} {outcome : Except LexicalFault (List Token)}
      (cut : Cut piece) (content : piece.content = .skipped)
      (rest : Munches piece.rest pieces outcome) :
      Munches (piece.slice ++ piece.rest) (piece :: pieces) outcome
  | token {piece : Piece} {pieces : List Piece} {outcome : Except LexicalFault (List Token)}
      {token : Token} (cut : Cut piece) (content : piece.content = .token token)
      (rest : Munches piece.rest pieces outcome) :
      Munches (piece.slice ++ piece.rest) (piece :: pieces) (outcome.map (token :: ·))
  | rejected {piece : Piece} {fault : LexicalFault} (cut : Cut piece)
      (content : piece.content = .invalid fault) :
      Munches (piece.slice ++ piece.rest) [piece] (.error fault)
  | unmatched {c : Char} {text : List Char} (h : Unmatched (c :: text)) :
      Munches (c :: text) [] (.error (.unrecognizedCharacter c))

end Lexical

end ClassScript
