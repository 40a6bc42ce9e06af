import Mathlib.Data.List.Basic
import Mathlib.Data.List.Nodup

/-!
# Journals of modules

A journal says what happened to the modules of a session, newest first: an `include` skipped a
module, or it asked for the module, which then succeeded or failed. A journal is orderly if every
entry fits the phase in which the older ones leave its module. In an orderly journal a module
succeeds at most once, and what is recorded as included are the modules that run or are done.
-/

namespace ClassScript

/-- How far a module has come. -/
inductive Phase where
  | absent
  | running
  | done
  deriving DecidableEq

/-- What an `include` does with a module, and how the module ends. -/
inductive Mark where
  | skipped
  | consulted
  | succeeded
  | failed
  deriving DecidableEq

namespace Mark

/-- It can happen to a module in this phase: the loader is asked for absent modules only, and the
others are skipped. -/
def fits : Mark → Phase → Bool
  | .consulted, phase => phase = .absent
  | .skipped, phase => phase ≠ .absent
  | .succeeded, phase | .failed, phase => phase = .running

/-- The phase that it leads to. -/
def next : Mark → Phase → Phase
  | .skipped, phase => phase
  | .consulted, _ => .running
  | .succeeded, _ => .done
  | .failed, _ => .absent

end Mark

structure Entry where
  mark : Mark
  path : String
  deriving DecidableEq

/-- What happened to modules, newest first. -/
abbrev Journal := List Entry

namespace Journal

/-- The phase in which a module is. -/
def phase (path : String) : Journal → Phase
  | [] => .absent
  | entry :: rest =>
    if entry.path = path then entry.mark.next (phase path rest) else phase path rest

/-- The modules that are recorded as included: an `include` adds its path before the module runs,
and takes it back if the module fails. -/
def recorded : Journal → List String
  | [] => []
  | ⟨.consulted, path⟩ :: rest => path :: recorded rest
  | ⟨.failed, path⟩ :: rest => (recorded rest).erase path
  | ⟨.skipped, _⟩ :: rest | ⟨.succeeded, _⟩ :: rest => recorded rest

/-- Every entry fits the phase that the older ones lead to. -/
def Orderly : Journal → Prop
  | [] => True
  | entry :: rest => entry.mark.fits (phase entry.path rest) = true ∧ Orderly rest

instance decidableOrderly : DecidablePred Orderly
  | [] => isTrue trivial
  | _ :: rest =>
    have : Decidable (Orderly rest) := decidableOrderly rest
    inferInstanceAs (Decidable (_ ∧ _))

/-- What was running or done is in the same phase later. -/
def Keeps (journal later : Journal) : Prop :=
  ∀ path, journal.phase path ≠ .absent → later.phase path = journal.phase path

variable {journal later : Journal} {mark : Mark} {path other : String}

theorem phase_cons_self : phase path (⟨mark, path⟩ :: journal) = mark.next (journal.phase path) :=
  if_pos rfl

theorem phase_cons_of_ne (h : path ≠ other) :
    phase other (⟨mark, path⟩ :: journal) = journal.phase other :=
  if_neg h

/-! ## Orderly journals -/

namespace Orderly

/-- No path is recorded twice, and those recorded are the ones that are not absent. -/
theorem recorded_spec (h : journal.Orderly) :
    journal.recorded.Nodup ∧ ∀ path, path ∈ journal.recorded ↔ journal.phase path ≠ .absent := by
  induction journal with
  | nil => exact ⟨List.nodup_nil, fun path => ⟨nofun, fun h => absurd rfl h⟩⟩
  | cons entry rest ih =>
      obtain ⟨mark, here⟩ := entry
      obtain ⟨hfits, hrest⟩ := h
      obtain ⟨hnodup, hmem⟩ := ih hrest
      cases mark with
      | skipped =>
          refine ⟨hnodup, fun path => (hmem path).trans ?_⟩
          by_cases hpath : here = path
          · rw [← hpath, phase_cons_self]
            exact Iff.rfl
          · rw [phase_cons_of_ne hpath]
      | consulted =>
          have habsent : phase here rest = .absent := of_decide_eq_true hfits
          have hnew : here ∉ recorded rest := fun h => (hmem here).mp h habsent
          refine ⟨List.nodup_cons.mpr ⟨hnew, hnodup⟩, fun path => ?_⟩
          by_cases hpath : here = path
          · rw [← hpath, phase_cons_self]
            exact ⟨fun _ => nofun, fun _ => List.mem_cons_self⟩
          · rw [phase_cons_of_ne hpath, ← hmem path]
            exact List.mem_cons.trans (or_iff_right (Ne.symm hpath))
      | succeeded =>
          have hrunning : phase here rest = .running := of_decide_eq_true hfits
          refine ⟨hnodup, fun path => (hmem path).trans ?_⟩
          by_cases hpath : here = path
          · rw [← hpath, phase_cons_self, hrunning]
            exact ⟨fun _ => nofun, fun _ => nofun⟩
          · rw [phase_cons_of_ne hpath]
      | failed =>
          refine ⟨hnodup.erase here, fun path => hnodup.mem_erase_iff.trans ?_⟩
          by_cases hpath : here = path
          · rw [← hpath, phase_cons_self]
            exact ⟨fun h => absurd rfl h.1, fun h => absurd rfl h⟩
          · rw [phase_cons_of_ne hpath, hmem path]
            exact and_iff_right (Ne.symm hpath)

theorem mem_recorded_iff (h : journal.Orderly) :
    path ∈ journal.recorded ↔ journal.phase path ≠ .absent :=
  h.recorded_spec.2 path

/-- A module that is done succeeded once, and no other module succeeded. -/
theorem count_succeeded (h : journal.Orderly) (path : String) :
    journal.count ⟨.succeeded, path⟩ = if journal.phase path = .done then 1 else 0 := by
  induction journal with
  | nil => rfl
  | cons entry rest ih =>
      obtain ⟨mark, here⟩ := entry
      obtain ⟨hfits, hrest⟩ := h
      have hcount := ih hrest
      have hother (mark : Mark) (hmark : mark ≠ .succeeded) :
          (⟨mark, here⟩ : Entry) ≠ ⟨.succeeded, path⟩ := fun heq => hmark (Entry.mk.inj heq).1
      by_cases hpath : here = path
      · subst hpath
        cases mark with
        | skipped =>
            rw [List.count_cons_of_ne (hother .skipped nofun), hcount, phase_cons_self]
            rfl
        | consulted =>
            have habsent : phase here rest = .absent := of_decide_eq_true hfits
            rw [List.count_cons_of_ne (hother .consulted nofun), hcount, phase_cons_self, habsent]
            rfl
        | succeeded =>
            have hrunning : phase here rest = .running := of_decide_eq_true hfits
            rw [List.count_cons_self, hcount, phase_cons_self, hrunning]
            rfl
        | failed =>
            have hrunning : phase here rest = .running := of_decide_eq_true hfits
            rw [List.count_cons_of_ne (hother .failed nofun), hcount, phase_cons_self, hrunning]
            rfl
      · have hne : (⟨mark, here⟩ : Entry) ≠ ⟨.succeeded, path⟩ := fun heq =>
          hpath (Entry.mk.inj heq).2
        rw [List.count_cons_of_ne hne, hcount, phase_cons_of_ne hpath]

end Orderly

/-! ## Phases that are kept -/

namespace Keeps

theorem refl (journal : Journal) : journal.Keeps journal := fun _ _ => rfl

theorem trans {last : Journal} (h : journal.Keeps later) (h' : later.Keeps last) :
    journal.Keeps last := by
  intro path hpath
  have hlater := h path hpath
  exact (h' path (hlater ▸ hpath)).trans hlater

/-- Skipping changes no phase. -/
theorem skip (journal : Journal) (path : String) :
    journal.Keeps (⟨.skipped, path⟩ :: journal) := by
  intro other _
  rw [phase]
  split <;> rfl

/-- What happens to a module that was absent leaves the phases of the others alone. -/
theorem absent (h : journal.Keeps later) (hpath : journal.phase path = .absent) (mark : Mark) :
    journal.Keeps (⟨mark, path⟩ :: later) := by
  intro other hother
  have hne : path ≠ other := by
    rintro rfl
    exact hother hpath
  rw [phase_cons_of_ne hne]
  exact h other hother

end Keeps

end Journal

end ClassScript
