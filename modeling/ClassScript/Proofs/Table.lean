import Mathlib.Data.List.Basic
import ClassScript.Table

/-!
# Laws of tables

What adding an entry does to look-ups, to the order of the names and to the entries themselves. A
table in which no name stands twice is well keyed: an entry is then what a look-up of its name
finds, and adding an entry keeps the table so.
-/

namespace ClassScript.Table

variable {α : Type}

/-! ## Look-ups -/

theorem lookup_cons_eq (name k : String) (v : α) (rest : List (String × α)) :
    List.lookup name ((k, v) :: rest) = if name = k then some v else rest.lookup name := by
  by_cases h : name = k
  · simp [h]
  · rw [List.lookup_cons, beq_false_of_ne h, if_neg h]

theorem lookup_insertEntry (key other : String) (value : α) (entries : List (String × α)) :
    (insertEntry key value entries).lookup other =
      if other = key then some value else entries.lookup other := by
  induction entries with
  | nil => rw [insertEntry, lookup_cons_eq]
  | cons entry rest ih =>
      obtain ⟨k, v⟩ := entry
      by_cases hk : k = key
      · rw [insertEntry, if_pos hk, lookup_cons_eq, lookup_cons_eq, hk]
        by_cases h : other = key
        · rw [if_pos h, if_pos h]
        · rw [if_neg h, if_neg h, if_neg h]
      · rw [insertEntry, if_neg hk, lookup_cons_eq, lookup_cons_eq, ih]
        by_cases h : other = k
        · rw [if_pos h, if_pos h, if_neg (h ▸ hk)]
        · rw [if_neg h, if_neg h]

theorem find?_insert (t : Table α) (key other : String) (value : α) :
    (t.insert key value).find? other = if other = key then some value else t.find? other :=
  lookup_insertEntry key other value t.entries

theorem mem_entries_of_find? {t : Table α} {name : String} {value : α}
    (h : t.find? name = some value) : (name, value) ∈ t.entries := by
  obtain ⟨l₁, l₂, heq, -⟩ := List.lookup_eq_some_iff.mp h
  rw [heq]
  simp

/-- The names are those that a look-up finds. -/
theorem mem_names_iff {t : Table α} {name : String} :
    name ∈ t.names ↔ ∃ value, t.find? name = some value := by
  change name ∈ t.entries.map Prod.fst ↔ ∃ value, t.entries.lookup name = some value
  rw [← Option.isSome_iff_exists, List.lookup_isSome_iff, List.mem_map]
  exact exists_congr fun _ => and_congr_right fun _ => eq_comm.trans beq_iff_eq.symm

theorem find?_eq_none_iff {t : Table α} {name : String} : t.find? name = none ↔ name ∉ t.names := by
  rw [mem_names_iff, ← Option.isSome_iff_exists, Option.not_isSome_iff_eq_none]

/-! ## Names and entries -/

theorem map_fst_insertEntry (key : String) (value : α) (entries : List (String × α)) :
    (insertEntry key value entries).map Prod.fst =
      if key ∈ entries.map Prod.fst then entries.map Prod.fst
      else entries.map Prod.fst ++ [key] := by
  induction entries with
  | nil => rfl
  | cons entry rest ih =>
      obtain ⟨k, v⟩ := entry
      by_cases hk : k = key
      · simp [insertEntry, hk]
      · rw [insertEntry, if_neg hk, List.map_cons, ih]
        by_cases hmem : key ∈ rest.map Prod.fst
        · simp [hmem]
        · rw [if_neg hmem, if_neg (by simpa [Ne.symm hk] using hmem)]
          rfl

theorem names_insert (t : Table α) (key : String) (value : α) :
    (t.insert key value).names = if key ∈ t.names then t.names else t.names ++ [key] :=
  map_fst_insertEntry key value t.entries

theorem names_prefix_insert (t : Table α) (key : String) (value : α) :
    t.names <+: (t.insert key value).names := by
  rw [names_insert]
  split
  · exact List.prefix_rfl
  · exact List.prefix_append _ _

theorem mem_names_insert (t : Table α) (key : String) (value : α) :
    key ∈ (t.insert key value).names :=
  mem_names_iff.mpr ⟨value, by rw [find?_insert, if_pos rfl]⟩

theorem mem_insertEntry {key : String} {value : α} {entry : String × α}
    {entries : List (String × α)} (h : entry ∈ insertEntry key value entries) :
    entry = (key, value) ∨ entry ∈ entries := by
  induction entries with
  | nil => exact Or.inl (List.mem_singleton.mp h)
  | cons head rest ih =>
      obtain ⟨k, v⟩ := head
      by_cases hk : k = key
      · rw [insertEntry, if_pos hk, List.mem_cons] at h
        rcases h with h | h
        · exact Or.inl (hk ▸ h)
        · exact Or.inr (List.mem_cons_of_mem _ h)
      · rw [insertEntry, if_neg hk, List.mem_cons] at h
        rcases h with h | h
        · exact Or.inr (h ▸ List.mem_cons_self)
        · exact (ih h).imp_right (List.mem_cons_of_mem _)

theorem mem_insert {t : Table α} {key : String} {value : α} {entry : String × α}
    (h : entry ∈ (t.insert key value).entries) :
    entry = (key, value) ∨ entry ∈ t.entries :=
  mem_insertEntry h

/-- A new name is added at the end. -/
theorem insert_of_find?_none {t : Table α} {key : String} (h : t.find? key = none) (value : α) :
    t.insert key value = ⟨t.entries ++ [(key, value)]⟩ := by
  obtain ⟨entries⟩ := t
  change Table.mk (insertEntry key value entries) = _
  congr 1
  induction entries with
  | nil => rfl
  | cons entry rest ih =>
      obtain ⟨k, v⟩ := entry
      change List.lookup key ((k, v) :: rest) = none at h
      rw [lookup_cons_eq] at h
      split at h
      · cases h
      next hne => rw [insertEntry, if_neg (Ne.symm hne), ih h, List.cons_append]

/-! ## Well-keyed tables -/

/-- No name stands twice. -/
def WellKeyed (t : Table α) : Prop := t.names.Nodup

theorem wellKeyed_empty : (empty : Table α).WellKeyed := List.nodup_nil

theorem WellKeyed.insert {t : Table α} (h : t.WellKeyed) (key : String) (value : α) :
    (t.insert key value).WellKeyed := by
  rw [WellKeyed, names_insert]
  split
  · exact h
  · rename_i hnew
    exact List.nodup_append.mpr ⟨h, List.nodup_cons.mpr ⟨List.not_mem_nil, List.nodup_nil⟩,
      fun a ha b hb heq => hnew (List.mem_singleton.mp hb ▸ heq ▸ ha)⟩

/-- In a well-keyed table every entry is what a look-up of its name finds. -/
theorem WellKeyed.find?_of_mem {t : Table α} (h : t.WellKeyed) {name : String} {value : α}
    (hmem : (name, value) ∈ t.entries) : t.find? name = some value := by
  obtain ⟨entries⟩ := t
  change entries.lookup name = some value
  change (entries.map Prod.fst).Nodup at h
  induction entries with
  | nil => cases hmem
  | cons head rest ih =>
      obtain ⟨k, v⟩ := head
      rw [List.map_cons, List.nodup_cons] at h
      rcases List.mem_cons.mp hmem with heq | hrest
      · obtain ⟨rfl, rfl⟩ := Prod.mk.inj heq
        rw [lookup_cons_eq, if_pos rfl]
      · have hne : name ≠ k := by
          rintro rfl
          exact h.1 (List.mem_map.mpr ⟨_, hrest, rfl⟩)
        rw [lookup_cons_eq, if_neg hne]
        exact ih hrest h.2

end ClassScript.Table
