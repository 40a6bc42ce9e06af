import ClassScript.CommandLine
import ClassScript.Program.Includes

/-!
# The command

Reads what the command may need, and then writes what `command` answers. The files are the script
and the modules that occur in it or in one another; standard input is read only if one of these
texts mentions `read`.
-/

namespace ClassScript

/-- The content of a file of the system. -/
def readContent (path : String) : IO (Except FileProblem ByteArray) := do
  if path.toList.contains '\x00' then return .error .zeroByteInName
  try
    return .ok (← IO.FS.readBinFile ⟨path⟩)
  catch e =>
    match e with
    | .noFileOrDirectory .. => return .error .notFound
    | .invalidArgument .. => return .error .nameTooLong
    | _ =>
      let isDirectory ← try (← IO.FS.realPath ⟨path⟩).isDir catch _ => pure false
      return .error (if isDirectory then .isDirectory else .notDirectory)

/-- Files read so far. -/
abbrev FileCache := List (String × Except FileProblem ByteArray)

/-- The module paths in a source text. -/
def includedPaths (source : String) : List String :=
  match parse source with
  | .ok program => program.includes
  | .error _ => []

/-- The text uses the name of the input function. -/
def mentionsInput (source : String) : Bool :=
  match tokenize source with
  | .ok tokens => tokens.any fun lexeme =>
    match lexeme.token with
    | .name word => word == "read"
    | _ => false
  | .error _ => false

/-- Reads the modules that the paths name, and those that they include. -/
partial def readModules (base : String) (cache : FileCache) : List String → IO FileCache
  | [] => return cache
  | path :: rest => do
    let file := Loader.filePath base path
    if (cache.lookup file).isSome then readModules base cache rest
    else
      let content ← readContent file
      let more := match Loader.decodeText content with
        | .ok source => includedPaths source
        | .error _ => []
      readModules base ((file, content) :: cache) (more ++ rest)

/-- The script and the modules of a request. -/
def readFiles (flags : List Flag) (contents : String) : IO FileCache := do
  if flags.contains .file then
    let content ← readContent contents
    let paths := match Loader.decodeText content with
      | .ok source => includedPaths source
      | .error _ => []
    return (contents, content) :: (← readModules (Path.parent contents) [] paths)
  else readModules "." [] (includedPaths contents)

/-- What the command sees when it runs. -/
def surroundings (flags : List Flag) (contents : String) : IO Surroundings := do
  let cache ← readFiles flags contents
  let texts := contents :: cache.filterMap fun (_, content) =>
    (Loader.decodeText content).toOption
  let stdin ←
    if texts.any mentionsInput then (← IO.getStdin).readBinToEnd else pure ByteArray.empty
  return { fileContent := fun path => (cache.lookup path).getD (.error .notFound), stdin }

/-- Runs the command on its arguments and gives its exit code. -/
def runCommand (arguments : List String) : IO UInt32 := do
  let world ← match Request.ofArguments arguments with
    | .run flags contents => surroundings flags contents
    | _ => pure { fileContent := fun _ => .error .notFound, stdin := .empty }
  match command world arguments with
  | some report =>
    (← IO.getStdout).putStr report.stdout
    (← IO.getStderr).putStr report.stderr
    return report.exit.toUInt32
  | none =>
    (← IO.getStderr).putStrLn "Usage: tessera [--file] [--tokens] [--ast] <CONTENTS>"
    return 2

end ClassScript

def main (arguments : List String) : IO UInt32 := ClassScript.runCommand arguments
