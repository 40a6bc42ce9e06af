import ClassScript.Fault.Basic

/-!
# File trees

A directory with the files below it. Reading a path walks it part by part from the directory, or
from the root if the path is absolute, and every part on the way must be a directory. Names and
whole paths are limited in length, counted in bytes.
-/

namespace ClassScript

structure FileTree where
  /-- Where the directory is, from the root. -/
  location : List String
  /-- The files, by their path from the directory. -/
  files : List (List String × ByteArray)

namespace FileTree

/-- What is found at a place. -/
inductive Node where
  | missing
  | directory
  | file (content : ByteArray)

/-- Looks up a place below the directory. -/
def below (tree : FileTree) (path : List String) : Node :=
  match tree.files.lookup path with
  | some content => .file content
  | none =>
    if path.isEmpty || tree.files.any (fun (file, _) => path.isPrefixOf file) then .directory
    else .missing

/-- Looks up a place by its path from the root. -/
def node (tree : FileTree) (path : List String) : Node :=
  if tree.location.isPrefixOf path then tree.below (path.drop tree.location.length)
  else if path.isPrefixOf tree.location then .directory
  else .missing

/-- The length of the longest name. -/
def maxName : Nat := 255

/-- The length of the longest path. -/
def maxPath : Nat := 4095

/-- Follows the parts of a path from a place. -/
def follow (tree : FileTree) (place : List String) : List String → Except FileProblem ByteArray
  | [] =>
    match tree.node place with
    | .file content => .ok content
    | .directory => .error .isDirectory
    | .missing => .error .notFound
  | part :: rest =>
    match tree.node place with
    | .file _ => .error .notDirectory
    | .missing => .error .notFound
    | .directory =>
      if part == "" || part == "." then tree.follow place rest
      else if part == ".." then tree.follow place.dropLast rest
      else if maxName < part.utf8ByteSize then .error .nameTooLong
      else tree.follow (place ++ [part]) rest

/-- The content of the file at a path. -/
def read (tree : FileTree) (path : String) : Except FileProblem ByteArray :=
  if path.toList.contains '\x00' then .error .zeroByteInName
  else if maxPath < path.utf8ByteSize then .error .nameTooLong
  else if path.isEmpty then .error .notFound
  else tree.follow (if path.startsWith "/" then [] else tree.location) (path.splitOn "/")

end FileTree

end ClassScript
