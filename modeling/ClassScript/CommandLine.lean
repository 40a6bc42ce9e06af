import ClassScript.Evaluation.Interpreter
import ClassScript.Listing.Program
import ClassScript.Listing.Tokens

/-!
# The command line

One argument is the script, or with `-f` the name of its file. `--tokens` and `--ast` list the
tokens or the program instead of running it. What the command does is a function of its arguments,
the files it can read and its standard input.
-/

namespace ClassScript

/-- The flags of the command. -/
inductive Flag where
  | file
  | tokens
  | ast
  | version
  deriving DecidableEq

namespace Flag

def ofLongName? : String → Option Flag
  | "--file" => some .file
  | "--tokens" => some .tokens
  | "--ast" => some .ast
  | "--version" => some .version
  | _ => none

def ofShortName? : Char → Option Flag
  | 'f' => some .file
  | 'V' => some .version
  | _ => none

end Flag

/-- An argument that starts with a dash and goes on is a flag. -/
def isFlagArgument (argument : String) : Bool :=
  match argument.toList with
  | '-' :: _ :: _ => true
  | _ => false

/-- What the arguments ask for. -/
inductive Request where
  | rejected
  | showVersion
  | run (flags : List Flag) (contents : String)

/-- The arguments read so far. -/
structure ArgumentState where
  flags : List Flag
  contents : Option String

namespace ArgumentState

/-- Takes the script; there is only one. -/
def addContents (state : ArgumentState) (argument : String) : Option ArgumentState :=
  match state.contents with
  | none => some { state with contents := some argument }
  | some _ => none

/-- Takes flags up to a request for the version; a flag is given at most once. -/
def addFlags (state : ArgumentState) : List Flag → Except Request ArgumentState
  | [] => .ok state
  | flag :: rest =>
    if flag = .version then .error .showVersion
    else if state.flags.contains flag then .error .rejected
    else { state with flags := flag :: state.flags }.addFlags rest

/-- The flags of one argument, one after the other, so that a version request is met before a later
unknown flag. -/
def addShorts (state : ArgumentState) : List Char → Except Request ArgumentState
  | [] => .ok state
  | c :: rest =>
    match Flag.ofShortName? c with
    | some flag => do (← state.addFlags [flag]).addShorts rest
    | none => .error .rejected

def addFlagArgument (state : ArgumentState) (argument : String) : Except Request ArgumentState :=
  match argument.toList with
  | '-' :: '-' :: _ =>
    match Flag.ofLongName? argument with
    | some flag => state.addFlags [flag]
    | none => .error .rejected
  | _ :: shorts => state.addShorts shorts
  | [] => .error .rejected

/-- After `--` every argument is taken as it stands. -/
def readPlain (state : ArgumentState) : List String → Except Request ArgumentState
  | [] => .ok state
  | argument :: rest =>
    match state.addContents argument with
    | some state => state.readPlain rest
    | none => .error .rejected

def read (state : ArgumentState) : List String → Except Request ArgumentState
  | [] => .ok state
  | argument :: rest =>
    if argument == "--" then state.readPlain rest
    else if isFlagArgument argument then do (← state.addFlagArgument argument).read rest
    else
      match state.addContents argument with
      | some state => state.read rest
      | none => .error .rejected

end ArgumentState

def Request.ofArguments (arguments : List String) : Request :=
  match ({ flags := [], contents := none } : ArgumentState).read arguments with
  | .error request => request
  | .ok { flags, contents := some contents } => .run flags contents
  | .ok { contents := none, .. } => .rejected

/-- What the command writes and its exit code. -/
structure Report where
  exit : Nat
  stdout : String
  stderr : String

/-- What the command sees of its surroundings. -/
structure Surroundings where
  fileContent : String → Except FileProblem ByteArray
  stdin : ByteArray

/-- The name and the version of the command. -/
def versionText : String := "tessera 0.1.0"

def succeed (stdout : String) : Report := { exit := 0, stdout, stderr := "" }

def failWith (stdout message : String) : Report := { exit := 1, stdout, stderr := message ++ "\n" }

/-- Enough fuel for every program that ends in a lifetime. -/
def ampleFuel : Nat := twoTo 62

/-- Runs a script whose modules are under `base`. -/
def runScript (world : Surroundings) (script base : String) : Report :=
  match parse script with
  | .error e => failWith "" e.message
  | .ok program =>
    let session := Session.start (.ofFiles world.fileContent base) (inputLines world.stdin)
    match runProgram ampleFuel program session with
    | .ok _ s => succeed s.console.outputText
    | .error fault s => failWith s.console.outputText (fault.message s.store)
    | .exhausted => failWith "" "Out of fuel."

/-- Lists a script or runs it, as the flags say. -/
def handleScript (world : Surroundings) (flags : List Flag) (script base : String) : Report :=
  if flags.contains .tokens then
    match tokenize script with
    | .ok tokens => succeed (Listing.ofTokens tokens)
    | .error e => failWith "" e.message
  else if flags.contains .ast then
    match parse script with
    | .ok program => succeed (Listing.ofProgram program ++ "\n")
    | .error e => failWith "" e.message
  else runScript world script base

/-- Handles a script given as an argument or as a file. -/
def handle (world : Surroundings) (flags : List Flag) (contents : String) : Report :=
  if flags.contains .file then
    match Loader.decodeText (world.fileContent contents) with
    | .ok script => handleScript world flags script (Path.parent contents)
    | .error _ =>
      failWith "" ("Failed to read the input file '" ++ contents
        ++ "'. Perhaps this file does not exist?")
  else handleScript world flags contents "."

/-- The whole command; `none` when it rejects its arguments. -/
def command (world : Surroundings) (arguments : List String) : Option Report :=
  match Request.ofArguments arguments with
  | .rejected => none
  | .showVersion => some (succeed (versionText ++ "\n"))
  | .run flags contents => some (handle world flags contents)

end ClassScript
