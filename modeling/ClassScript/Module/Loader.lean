import ClassScript.Grammar.Statement
import ClassScript.Module.FileTree
import ClassScript.Module.Path
import ClassScript.Table

/-!
# Module loaders

A loader finds the program that an `include` names: in a table of sources, or in the files under a
base directory.
-/

namespace ClassScript

/-- The program of a module, or why there is none. A loader is a function of the path: it keeps no
state, so in the run of a program the same path always has the same answer, and asking it writes to
no array and to no object. Between two programs the host may put another loader in its place. -/
abbrev Loader : Type := String → Except ModuleProblem Program

namespace Loader

/-- The extension of modules that are named without one. -/
def sourceExtension : String := "tes"

def parseModule (source : String) : Except ModuleProblem Program :=
  match parse source with
  | .ok program => .ok program
  | .error e => .error (.malformed e)

/-- Modules kept in a table. -/
def ofTable (modules : Table String) : Loader := fun path =>
  match modules.find? path with
  | some source => parseModule source
  | none => .error .unknownModule

/-- The file of a module under the base directory. -/
def filePath (base path : String) : String :=
  Path.withDefaultExtension sourceExtension (Path.join base path)

/-- The text of a file. -/
def decodeText (content : Except FileProblem ByteArray) : Except FileProblem String := do
  match String.fromUTF8? (← content) with
  | some text => .ok text
  | none => .error .notText

/-- Modules in files, read by `read`. -/
def ofFiles (read : String → Except FileProblem ByteArray) (base : String) : Loader := fun path =>
  match decodeText (read (filePath base path)) with
  | .ok source => parseModule source
  | .error problem => .error (.unreadable problem)

end Loader

end ClassScript
