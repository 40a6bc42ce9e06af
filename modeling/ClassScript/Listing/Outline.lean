/-!
# Outlines

An outline is a tree of named records, tuples and lists. It is written with one part on a line, each
level indented by four blanks, and a comma after every part.
-/

namespace ClassScript

inductive Outline where
  | atom (text : String)
  | record (name : String) (fields : List (String × Outline))
  | tuple (name : String) (items : List Outline)
  | list (items : List Outline)

namespace Outline

/-- The blanks before a line. -/
def indent (level : Nat) : String := String.ofList (List.replicate (4 * level) ' ')

mutual

/-- Writes an outline whose first line is already indented. -/
def render (level : Nat) : Outline → String
  | .atom text => text
  | .record name fields =>
    name ++ " \x7b\n" ++ renderFields (level + 1) fields ++ indent level ++ "\x7d"
  | .tuple name items => name ++ "(\n" ++ renderItems (level + 1) items ++ indent level ++ ")"
  | .list [] => "[]"
  | .list (first :: rest) =>
    "[\n" ++ renderItems (level + 1) (first :: rest) ++ indent level ++ "]"

def renderItems (level : Nat) : List Outline → String
  | [] => ""
  | item :: rest => indent level ++ item.render level ++ ",\n" ++ renderItems level rest

def renderFields (level : Nat) : List (String × Outline) → String
  | [] => ""
  | (name, value) :: rest =>
    indent level ++ name ++ ": " ++ value.render level ++ ",\n" ++ renderFields level rest

end

def nat (n : Nat) : Outline := .atom (toString n)

def bool (b : Bool) : Outline := .atom (if b then "true" else "false")

/-- A part that may be missing. -/
def option : Option Outline → Outline
  | some value => .tuple "Some" [value]
  | none => .atom "None"

end Outline

end ClassScript
