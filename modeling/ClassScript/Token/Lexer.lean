import ClassScript.SyntaxError
import ClassScript.Word

/-!
# From characters to tokens

`Piece.first?` cuts the first piece off a text: a token, something to skip (blanks, line breaks,
comments), or characters that form no token. The piece is the longest one possible, and
`tokenize` repeats the cut until the text is used up.

The line of a token is counted at its end. Line breaks inside character literals are not counted.
-/

namespace ClassScript

/-- What a piece of text is. -/
inductive Piece.Content where
  | skipped
  | token (token : Token)
  | invalid (fault : LexicalFault)

/-- A piece at the front of a text: `slice ++ rest` is the text. -/
structure Piece where
  slice : List Char
  rest : List Char
  content : Piece.Content

namespace Piece

def isBlank (c : Char) : Bool :=
  c == ' ' || c == '\t' || c == '\r' || c == '\x0c'

def isWordStart (c : Char) : Bool := c.isAlpha || c == '_'

def isWordPart (c : Char) : Bool := c.isAlphanum || c == '_'

/-- The longest run of characters that satisfy `p`, read by `content`. -/
def run (p : Char → Bool) (content : List Char → Content) (text : List Char) : Piece :=
  let slice := text.takeWhile p
  { slice, rest := text.dropWhile p, content := content slice }

/-! ## Words -/

/-- The token that a word is: a truth value, a keyword or a name. -/
def wordToken (slice : List Char) : Token :=
  let word := String.ofList slice
  if word == "true" then .bool true
  else if word == "false" then .bool false
  else match Keyword.ofWord? word with
    | some keyword => .keyword keyword
    | none => .name word

/-! ## Numbers -/

def ofOption (token? : Option Token) : Content :=
  match token? with
  | some token => .token token
  | none => .invalid .literalTooLarge

def integer (digits : List Char) : Content :=
  ofOption ((Word.ofInt? (digitsValue digits)).map Token.int)

/-- Reads a number by the suffix that follows its digits. A number with a fraction needs one. -/
def fractional (whole places text : List Char) : Piece :=
  let slice := whole ++ '.' :: places
  match text with
  | 'f' :: rest =>
    let value := Floating.single (Floating.binary32.ofPlaces whole places)
    { slice := slice ++ ['f'], rest, content := .token (.float value) }
  | 'd' :: rest =>
    let value := Floating.double (Floating.binary64.ofPlaces whole places)
    { slice := slice ++ ['d'], rest, content := .token (.double value) }
  | 'm' :: rest =>
    let value? := Decimal.ofDigits? whole places
    { slice := slice ++ ['m'], rest, content := ofOption (value?.map Token.decimal) }
  | rest => { slice, rest, content := .invalid (.missingNumericSuffix (String.ofList slice)) }

def number (text : List Char) : Piece :=
  let whole := text.takeWhile Char.isDigit
  match text.dropWhile Char.isDigit with
  | '.' :: c :: rest =>
    if c.isDigit then
      fractional whole ((c :: rest).takeWhile Char.isDigit) ((c :: rest).dropWhile Char.isDigit)
    else { slice := whole, rest := '.' :: c :: rest, content := integer whole }
  | rest => { slice := whole, rest, content := integer whole }

/-! ## Quoted literals -/

/-- The character that a backslash and `c` stand for. -/
def unescape (c : Char) : Char :=
  if c = 'n' then '\n'
  else if c = 't' then '\t'
  else if c = 'r' then '\r'
  else if c = '0' then '\x00'
  else c

/-- A quoted literal after its opening mark: the characters it stands for, the characters it is
written with (the closing mark included), and what follows. -/
structure Quoted where
  text : List Char
  slice : List Char
  rest : List Char

def Quoted.prepend (c : Char) (written : List Char) (q : Quoted) : Quoted :=
  { q with text := c :: q.text, slice := written ++ q.slice }

/-- Reads up to the first closing mark that no backslash protects. -/
def scanQuoted (mark : Char) : List Char → Option Quoted
  | [] => none
  | '\\' :: [] => none
  | '\\' :: c :: rest => (scanQuoted mark rest).map (Quoted.prepend (unescape c) ['\\', c])
  | c :: rest =>
    if c = mark then some { text := [], slice := [c], rest }
    else (scanQuoted mark rest).map (Quoted.prepend c [c])

/-- Reads a literal whose opening mark stands before `text`. -/
def quoted (quote : Quote) (content : List Char → Content) (text : List Char) : Piece :=
  match scanQuoted quote.mark text with
  | some q => { slice := quote.mark :: q.slice, rest := q.rest, content := content q.text }
  | none =>
    { slice := [quote.mark], rest := text, content := .invalid (.unterminatedLiteral quote) }

def stringContent (text : List Char) : Content :=
  .token (.string (String.ofList text))

/-- A character literal holds exactly one character. -/
def charContent : List Char → Content
  | [c] => .token (.char c)
  | text => .invalid (.invalidCharLiteral (String.ofList text))

/-! ## Comments and symbols -/

/-- Cuts a text after its first `*/`. -/
def afterCommentEnd? : List Char → Option (List Char × List Char)
  | [] => none
  | '*' :: '/' :: rest => some (['*', '/'], rest)
  | c :: rest => (afterCommentEnd? rest).map fun (slice, rest) => (c :: slice, rest)

def isInLine (c : Char) : Bool := c != '\n' && c != '\r'

/-- The longest symbol at the front of a text. -/
def symbol? (text : List Char) : Option Piece :=
  (Symbol.all.find? fun s => s.spelling.isPrefixOf text).map fun s =>
    { slice := s.spelling, rest := text.drop s.spelling.length, content := .token (.symbol s) }

/-- A symbol, or a character that starts no token. -/
def symbolOrFault (c : Char) (text : List Char) : Piece :=
  (symbol? (c :: text)).getD
    { slice := [c], rest := text, content := .invalid (.unrecognizedCharacter c) }

/-- A comment if one starts here, otherwise a symbol that begins with a slash. -/
def slash : List Char → Piece
  | '/' :: text => run isInLine (fun _ => .skipped) ('/' :: '/' :: text)
  | '*' :: text =>
    match afterCommentEnd? text with
    | some (slice, rest) => { slice := '/' :: '*' :: slice, rest, content := .skipped }
    | none => symbolOrFault '/' ('*' :: text)
  | text => symbolOrFault '/' text

/-- The piece that starts with `c` and goes on in `text`. -/
def startingWith (c : Char) (text : List Char) : Piece :=
  if isWordStart c then run isWordPart (fun slice => .token (wordToken slice)) (c :: text)
  else if c.isDigit then number (c :: text)
  else if isBlank c then run isBlank (fun _ => .skipped) (c :: text)
  else if c = '\n' then { slice := [c], rest := text, content := .skipped }
  else if c = '"' then quoted .string stringContent text
  else if c = '\'' then quoted .character charContent text
  else if c = '/' then slash text
  else symbolOrFault c text

/-- The first piece of a text that is not empty. -/
def first? : List Char → Option Piece
  | [] => none
  | c :: text => some (startingWith c text)

/-- The line breaks that a piece adds to the line count. -/
def lineBreaks (p : Piece) : Nat :=
  match p.content with
  | .skipped | .token (.string _) => p.slice.count '\n'
  | _ => 0

end Piece

/-- The tokens of `text`, which starts on `line`. Every piece is at least one character long, so
the length of the text is enough fuel. -/
def tokensFrom : Nat → Nat → List Char → Except SyntaxError (List Lexeme)
  | 0, _, _ => .ok []
  | fuel + 1, line, text =>
    match Piece.first? text with
    | none => .ok []
    | some piece =>
      let line := line + piece.lineBreaks
      match piece.content with
      | .skipped => tokensFrom fuel line piece.rest
      | .token token => (tokensFrom fuel line piece.rest).map (⟨token, line⟩ :: ·)
      | .invalid fault => .error (.lexical fault line)

/-- Splits a source text into tokens. -/
def tokenize (source : String) : Except SyntaxError (List Lexeme) :=
  let text := source.toList
  tokensFrom text.length 1 text

end ClassScript
