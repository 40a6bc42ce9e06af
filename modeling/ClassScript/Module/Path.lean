/-!
# File paths

Paths are written with slashes. Empty parts and single dots do not count, except that a path which
begins with a dot keeps it; the file name of a path is its last part unless that is `..`.
-/

namespace ClassScript.Path

/-- Joins a path to a directory; an absolute path replaces it. -/
def join (base path : String) : String :=
  if path.startsWith "/" then path
  else if base.isEmpty || base.endsWith "/" then base ++ path
  else base ++ "/" ++ path

/-- The parts between the slashes, each with the number of characters up to its end. -/
def partsFrom : Nat → List Char → List Char → List (String × Nat)
  | position, part, [] => [(String.ofList part.reverse, position)]
  | position, part, c :: rest =>
    if c = '/' then (String.ofList part.reverse, position) :: partsFrom (position + 1) [] rest
    else partsFrom (position + 1) (c :: part) rest

/-- The parts of a path that lead anywhere. -/
def parts (path : String) : List (String × Nat) :=
  (partsFrom 0 [] path.toList).filter fun (part, _) => !part.isEmpty && part != "."

/-- The file name of a path and the number of characters up to its end. -/
def fileName? (path : String) : Option (String × Nat) :=
  match (parts path).getLast? with
  | some (part, stop) => if part == ".." then none else some (part, stop)
  | none => none

/-- A file name has an extension if it has a dot after its first character. -/
def hasExtension (name : String) : Bool :=
  (name.toList.drop 1).contains '.'

/-- Gives a path an extension if it has a file name without one. -/
def withDefaultExtension (extension path : String) : String :=
  match fileName? path with
  | some (name, stop) =>
    if hasExtension name then path
    else String.ofList (path.toList.take stop) ++ "." ++ extension
  | none => path

/-- The directory part of a path; a path without one has the empty directory. -/
def parent (path : String) : String :=
  match (parts path).getLast? with
  | none => ""
  | some (part, stop) =>
    let before := path.toList.take (stop - part.length)
    let trimmed := (before.reverse.dropWhile (· == '/')).reverse
    if trimmed.isEmpty && path.startsWith "/" then "/" else String.ofList trimmed

end ClassScript.Path
