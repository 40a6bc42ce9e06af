/-!
# Tables

A table maps names to values and remembers the order in which the names were first added. Adding a
name again replaces its value and keeps its place.
-/

namespace ClassScript

/-- Names with values, in the order in which the names were first added. -/
structure Table (α : Type) where
  entries : List (String × α)

namespace Table

variable {α β : Type}

def empty : Table α := ⟨[]⟩

instance : Inhabited (Table α) := ⟨empty⟩

/-- Replaces the value of `key` where it stands, or adds it at the end. -/
def insertEntry (key : String) (value : α) : List (String × α) → List (String × α)
  | [] => [(key, value)]
  | (k, v) :: rest => if k = key then (k, value) :: rest else (k, v) :: insertEntry key value rest

def insert (t : Table α) (key : String) (value : α) : Table α :=
  ⟨insertEntry key value t.entries⟩

def find? (t : Table α) (key : String) : Option α :=
  t.entries.lookup key

def contains (t : Table α) (key : String) : Bool :=
  (t.find? key).isSome

def names (t : Table α) : List String :=
  t.entries.map Prod.fst

def values (t : Table α) : List α :=
  t.entries.map Prod.snd

def ofList (entries : List (String × α)) : Table α :=
  entries.foldl (fun t e => t.insert e.1 e.2) empty

end Table

end ClassScript
