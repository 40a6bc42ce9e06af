import Mathlib.Data.List.Basic
import ClassScript.Evaluation.Interpreter
import ClassScript.Proofs.Table

/-!
# What a run leaves in place

Three relations between the session before and the session after. A store only grows: cells and
classes are added, an array keeps its element type and its number of items, an object its class,
and a class everything but its static values. A scope stack keeps its frames: every open block
still binds the same names, in the same order, to the same slots, and a slot keeps its declared
type and its constancy. Only the innermost block may gain bindings, and only where the code that
ran declares variables directly in it.
-/

namespace ClassScript

/-! ## Stores -/

/-- A class without the values of its static fields. -/
def ClassInfo.shape (c : ClassInfo) : ClassInfo := { c with statics := .empty }

/-- What is in `st` is still in `st'`, with the same shape. -/
structure Store.Grows (st st' : Store) : Prop where
  arrays : ∀ (id : ArrayId) (cell : ArrayCell), st.arrays[id]? = some cell →
    ∃ cell', st'.arrays[id]? = some cell' ∧ cell'.element = cell.element ∧
      cell'.items.size = cell.items.size
  objects : ∀ (id : ObjectId) (cell : ObjectCell), st.objects[id]? = some cell →
    ∃ cell', st'.objects[id]? = some cell' ∧ cell'.cls = cell.cls
  classes : ∀ (cls : ClassId) (info : ClassInfo), st.classes[cls]? = some info →
    ∃ info', st'.classes[cls]? = some info' ∧ info'.shape = info.shape

namespace Store.Grows

variable {st st' st'' : Store}

@[refl]
theorem refl (st : Store) : st.Grows st where
  arrays _ cell h := ⟨cell, h, rfl, rfl⟩
  objects _ cell h := ⟨cell, h, rfl⟩
  classes _ info h := ⟨info, h, rfl⟩

theorem trans (h : st.Grows st') (h' : st'.Grows st'') : st.Grows st'' where
  arrays id cell hc := by
    obtain ⟨cell', hc', he, hs⟩ := h.arrays id cell hc
    obtain ⟨cell'', hc'', he', hs'⟩ := h'.arrays id cell' hc'
    exact ⟨cell'', hc'', he'.trans he, hs'.trans hs⟩
  objects id cell hc := by
    obtain ⟨cell', hc', hk⟩ := h.objects id cell hc
    obtain ⟨cell'', hc'', hk'⟩ := h'.objects id cell' hc'
    exact ⟨cell'', hc'', hk'.trans hk⟩
  classes cls info hi := by
    obtain ⟨info', hi', hs⟩ := h.classes cls info hi
    obtain ⟨info'', hi'', hs'⟩ := h'.classes cls info' hi'
    exact ⟨info'', hi'', hs'.trans hs⟩

end Store.Grows

namespace Store

variable (st : Store)

theorem grows_newArray (element : Ty) (items : Array Value) :
    st.Grows (st.newArray element items).2 := by
  refine ⟨?_, fun _ cell h => ⟨cell, h, rfl⟩, fun _ info h => ⟨info, h, rfl⟩⟩
  intro id cell h
  refine ⟨cell, ?_, rfl, rfl⟩
  obtain ⟨hlt, -⟩ := Array.getElem?_eq_some_iff.mp h
  simpa [newArray, Array.getElem?_push, Nat.ne_of_lt hlt] using h

theorem grows_newObject (cls : ClassId) : st.Grows (st.newObject cls).2 := by
  refine ⟨fun _ cell h => ⟨cell, h, rfl, rfl⟩, ?_, fun _ info h => ⟨info, h, rfl⟩⟩
  intro id cell h
  refine ⟨cell, ?_, rfl⟩
  obtain ⟨hlt, -⟩ := Array.getElem?_eq_some_iff.mp h
  simpa [newObject, Array.getElem?_push, Nat.ne_of_lt hlt] using h

theorem grows_enrollClass (info : ClassInfo) : st.Grows (st.enrollClass info).2 := by
  refine ⟨fun _ cell h => ⟨cell, h, rfl, rfl⟩, fun _ cell h => ⟨cell, h, rfl⟩, ?_⟩
  intro cls old h
  refine ⟨old, ?_, rfl⟩
  obtain ⟨hlt, -⟩ := Array.getElem?_eq_some_iff.mp h
  simpa [enrollClass, Array.getElem?_push, Nat.ne_of_lt hlt] using h

theorem grows_putItem (id : ArrayId) (position : Nat) (value : Value) :
    st.Grows (st.putItem id position value) := by
  refine ⟨?_, fun _ cell h => ⟨cell, h, rfl⟩, fun _ info h => ⟨info, h, rfl⟩⟩
  intro other cell h
  simp only [putItem, Array.getElem?_modify, h]
  by_cases heq : id = other
  · rw [if_pos heq]
    exact ⟨{ cell with items := cell.items.setIfInBounds position value }, rfl, rfl, by simp⟩
  · rw [if_neg heq]
    exact ⟨cell, rfl, rfl, rfl⟩

theorem grows_putField (id : ObjectId) (name : String) (value : Value) :
    st.Grows (st.putField id name value) := by
  refine ⟨fun _ cell h => ⟨cell, h, rfl, rfl⟩, ?_, fun _ info h => ⟨info, h, rfl⟩⟩
  intro other cell h
  simp only [putField, Array.getElem?_modify, h]
  by_cases heq : id = other
  · rw [if_pos heq]
    exact ⟨{ cell with fields := cell.fields.insert name value }, rfl, rfl⟩
  · rw [if_neg heq]
    exact ⟨cell, rfl, rfl⟩

theorem grows_putStatic (cls : ClassId) (name : String) (value : Value) :
    st.Grows (st.putStatic cls name value) := by
  refine ⟨fun _ cell h => ⟨cell, h, rfl, rfl⟩, fun _ cell h => ⟨cell, h, rfl⟩, ?_⟩
  intro other info h
  simp only [putStatic, Array.getElem?_modify, h]
  by_cases heq : cls = other
  · rw [if_pos heq]
    exact ⟨{ info with statics := info.statics.insert name value }, rfl, rfl⟩
  · rw [if_neg heq]
    exact ⟨info, rfl, rfl⟩

end Store

/-! ## Scopes -/

/-- What a declaration fixes of a slot. -/
def Slot.signature (slot : Slot) : Ty × Bool := (slot.ty, slot.isConst)

/-- The signatures of the slots of an activation, in the order of their numbers. -/
def Activation.signatures (a : Activation) : List (Ty × Bool) :=
  a.slots.toList.map Slot.signature

@[simp]
theorem Activation.length_signatures (a : Activation) : a.signatures.length = a.slots.size := by
  simp [signatures]

theorem ScopeStack.signatures_write (s : ScopeStack) (id : Nat) (value : Value) :
    (s.write id value).current.signatures = s.current.signatures := by
  apply List.ext_getElem?
  intro i
  simp only [write, Activation.signatures, List.getElem?_map, Array.getElem?_toList,
    Array.getElem?_modify]
  by_cases h : id = i
  · rw [if_pos h, Option.map_map]
    rfl
  · rw [if_neg h]

/-- The frames of `a` are still those of `b`. If `binds` is set, the innermost block may have bound
further names, or names it saw from outside, to slots that did not exist before. -/
structure ScopeStack.Keeps (binds : Bool) (a b : ScopeStack) : Prop where
  suspended : b.suspended = a.suspended
  outer : b.current.outer = a.current.outer
  base : b.current.block.base = a.current.block.base
  signatures : a.current.signatures <+: b.current.signatures
  names : a.names <+: b.names
  slotOf : ∀ name id, a.slotOf? name = some id →
    b.slotOf? name = some id ∨ ∃ new, a.current.slots.size ≤ new ∧ b.slotOf? name = some new
  bindings : binds = false → b.current.block.bindings = a.current.block.bindings
  size : binds = false → b.current.slots.size = a.current.slots.size

/-- The scopes `a` again, after a block in them ended with the scopes `b`: the slots that the block
shares with `a` may hold new values. -/
def ScopeStack.closing (a b : ScopeStack) : ScopeStack where
  current :=
    { slots := b.current.slots.shrink a.current.slots.size
      block := a.current.block
      outer := a.current.outer }
  suspended := b.suspended

namespace ScopeStack.Keeps

variable {a b c : ScopeStack} {binds : Bool}

@[refl]
theorem refl (binds : Bool) (a : ScopeStack) : Keeps binds a a where
  suspended := rfl
  outer := rfl
  base := rfl
  signatures := List.prefix_rfl
  names := List.prefix_rfl
  slotOf _ _ h := Or.inl h
  bindings _ := rfl
  size _ := rfl

theorem size_le (h : Keeps binds a b) : a.current.slots.size ≤ b.current.slots.size := by
  simpa using h.signatures.length_le

theorem trans (h : Keeps binds a b) (h' : Keeps binds b c) : Keeps binds a c where
  suspended := h'.suspended.trans h.suspended
  outer := h'.outer.trans h.outer
  base := h'.base.trans h.base
  signatures := h.signatures.trans h'.signatures
  names := h.names.trans h'.names
  slotOf name id hid := by
    rcases h.slotOf name id hid with hb | ⟨new, hle, hb⟩
    · rcases h'.slotOf name id hb with hc | ⟨new, hle, hc⟩
      · exact Or.inl hc
      · exact Or.inr ⟨new, Nat.le_trans h.size_le hle, hc⟩
    · rcases h'.slotOf name new hb with hc | ⟨new', hle', hc⟩
      · exact Or.inr ⟨new, hle, hc⟩
      · exact Or.inr ⟨new', Nat.le_trans h.size_le hle', hc⟩
  bindings hf := (h'.bindings hf).trans (h.bindings hf)
  size hf := (h'.size hf).trans (h.size hf)

/-- Code that binds nothing may stand wherever code may bind. -/
theorem weaken (h : Keeps false a b) (binds : Bool) : Keeps binds a b :=
  { h with
    bindings := fun _ => h.bindings rfl
    size := fun _ => h.size rfl }

theorem depth_eq (h : Keeps binds a b) : b.depth = a.depth := by
  rw [depth, depth, h.suspended, Activation.depth, Activation.depth, h.outer]

/-- A declaration binds one name in the innermost block. -/
theorem bind (a : ScopeStack) (name : String) (slot : Slot) : Keeps true a (a.bind name slot) where
  suspended := rfl
  outer := rfl
  base := rfl
  signatures := by simp [ScopeStack.bind, Activation.signatures]
  names := Table.names_prefix_insert _ _ _
  slotOf other id h := by
    simp only [slotOf?, ScopeStack.bind, Table.find?_insert] at h ⊢
    by_cases heq : other = name
    · exact Or.inr ⟨_, Nat.le_refl _, if_pos heq⟩
    · exact Or.inl (by rw [if_neg heq, h])
  bindings h := Bool.noConfusion h
  size h := Bool.noConfusion h

/-- An assignment changes the value of a slot and nothing else. -/
theorem write (a : ScopeStack) (id : Nat) (value : Value) : Keeps false a (a.write id value) where
  suspended := rfl
  outer := rfl
  base := rfl
  signatures := (signatures_write a id value).symm ▸ List.prefix_rfl
  names := List.prefix_rfl
  slotOf _ _ h := Or.inl h
  bindings _ := rfl
  size _ := by simp [ScopeStack.write]

/-- A block that is left gives back the frames that were open when it was entered, whatever was
declared in it. -/
theorem exit_enter (h : Keeps true a.enter b) :
    b.exit = .ok (a.closing b) ∧ Keeps false a (a.closing b) := by
  obtain ⟨⟨slots, block, outer⟩, suspended⟩ := b
  obtain ⟨hsuspended, houter, hbase, hsig, -, -, -, -⟩ := h
  change suspended = a.suspended at hsuspended
  change outer = a.current.block :: a.current.outer at houter
  change block.base = a.current.slots.size at hbase
  subst hsuspended houter
  have hsame : (slots.shrink a.current.slots.size).toList.map Slot.signature =
      a.current.signatures := by
    have htake := (List.prefix_iff_eq_take.mp hsig).symm
    rw [Activation.length_signatures] at htake
    rw [Array.toList_shrink, List.map_take]
    exact htake
  refine ⟨by rw [exit, closing, hbase], rfl, rfl, rfl, ?_, List.prefix_rfl,
    fun _ _ h => Or.inl h, fun _ => rfl, fun _ => ?_⟩
  · exact hsame ▸ List.prefix_rfl
  · rw [closing, ← Array.length_toList, ← List.length_map (f := Slot.signature), hsame,
      Activation.length_signatures]

/-- A call that ends gives back exactly the scopes of its caller. -/
theorem exit_enterIsolated (h : Keeps binds a.enterIsolated b) : b.exit = .ok a := by
  obtain ⟨⟨slots, block, outer⟩, suspended⟩ := b
  obtain ⟨rfl, rfl, -, -, -, -, -, -⟩ := h
  rfl

end ScopeStack.Keeps

/-! ## Sessions -/

/-- What every run keeps of a session. -/
structure Session.Keeps (binds : Bool) (s s' : Session) : Prop where
  scopes : s.scopes.Keeps binds s'.scopes
  calls : s'.calls = s.calls
  store : s.store.Grows s'.store

namespace Session.Keeps

variable {s s' s'' : Session} {binds : Bool}

@[refl]
theorem refl (binds : Bool) (s : Session) : Keeps binds s s := ⟨.refl _ _, rfl, .refl _⟩

theorem trans (h : Keeps binds s s') (h' : Keeps binds s' s'') : Keeps binds s s'' :=
  ⟨h.scopes.trans h'.scopes, h'.calls.trans h.calls, h.store.trans h'.store⟩

theorem weaken (h : Keeps false s s') (binds : Bool) : Keeps binds s s' :=
  ⟨h.scopes.weaken binds, h.calls, h.store⟩

end Session.Keeps

end ClassScript
