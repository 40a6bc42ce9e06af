/-!
# The console

What a program has printed and what it can still read. Reading past the end of the input gives the
empty line; a line that is not valid text cannot be read.
-/

namespace ClassScript

/-- A line of input, or `none` where the input is not valid text. -/
abbrev InputLine := Option String

structure Console where
  /-- The lines printed so far. -/
  output : Array String
  /-- The lines not yet read. -/
  input : List InputLine

namespace Console

def ofInput (input : List InputLine) : Console where
  output := #[]
  input := input

def print (c : Console) (line : String) : Console :=
  { c with output := c.output.push line }

def queue (c : Console) (lines : List String) : Console :=
  { c with input := c.input ++ lines.map some }

/-- Takes the next line of input. -/
def readLine (c : Console) : InputLine × Console :=
  match c.input with
  | [] => (some "", c)
  | line :: rest => (line, { c with input := rest })

/-- Everything printed, each line with its line break. -/
def outputText (c : Console) : String :=
  String.join (c.output.toList.map (· ++ "\n"))

end Console

/-! ## Lines of raw input -/

/-- Cuts bytes after each line break. -/
def rawLines : List UInt8 → List (List UInt8)
  | [] => []
  | b :: rest =>
    match b == 10, rawLines rest with
    | true, lines => [b] :: lines
    | false, [] => [[b]]
    | false, line :: lines => (b :: line) :: lines

/-- The text of a line without the line breaks at its end. -/
def InputLine.ofBytes (line : List UInt8) : InputLine := do
  let text ← String.fromUTF8? ⟨line.toArray⟩
  return String.ofList (text.toList.reverse.dropWhile fun c => c == '\n' || c == '\r').reverse

/-- The lines of raw input, as a program reads them. -/
def inputLines (bytes : ByteArray) : List InputLine :=
  (rawLines bytes.toList).map InputLine.ofBytes

end ClassScript
