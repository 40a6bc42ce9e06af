import ClassScript.Proofs.Growth
import ClassScript.Proofs.Scoping.Reference

/-!
# The scope stack is lexical scoping

The scope stack copies the visible names into every new block and shares numbered slots. Whatever
is asked of it, in whatever order, it replies as lexical scoping does.

Every state of lexical scoping can be replayed on the scope stack: enter its frames one after the
other and bind their declarations. The scope stack is always in the replayed state.
-/

namespace ClassScript

/-! ## Entries of the scope stack -/

namespace ScopeStack

/-- Every visible name has a slot, and the innermost block starts within the slots. -/
structure Sane (s : ScopeStack) : Prop where
  bounded : ∀ name id, s.slotOf? name = some id → id < s.current.slots.size
  base_le : s.current.block.base ≤ s.current.slots.size

theorem sane_start : Sane start := ⟨nofun, Nat.le_refl _⟩

theorem Sane.enterIsolated (s : ScopeStack) : Sane s.enterIsolated := ⟨nofun, Nat.le_refl _⟩

theorem Sane.enter {s : ScopeStack} (h : Sane s) : Sane s.enter :=
  ⟨h.bounded, Nat.le_refl _⟩

theorem slotOf?_bind (s : ScopeStack) (n name : String) (slot : Slot) :
    (s.bind n slot).slotOf? name =
      if name = n then some s.current.slots.size else s.slotOf? name :=
  Table.find?_insert _ _ _ _

theorem size_bind (s : ScopeStack) (n : String) (slot : Slot) :
    (s.bind n slot).current.slots.size = s.current.slots.size + 1 :=
  Array.size_push slot

theorem Sane.bind {s : ScopeStack} (h : Sane s) (n : String) (slot : Slot) :
    Sane (s.bind n slot) := by
  constructor
  · intro name id hid
    rw [slotOf?_bind] at hid
    rw [size_bind]
    split at hid
    · obtain rfl := Option.some.inj hid
      omega
    · have := h.bounded name id hid
      omega
  · have hbase : (s.bind n slot).current.block.base = s.current.block.base := rfl
    have := h.base_le
    rw [size_bind, hbase]
    omega

/-- The slot of a visible name. -/
def slotNamed? (s : ScopeStack) (name : String) : Option Slot :=
  (s.slotOf? name).bind fun id => s.current.slots[id]?

theorem lookup?_eq (s : ScopeStack) (name : String) :
    s.lookup? name = (s.slotNamed? name).map Slot.value := by
  unfold lookup? slotNamed?
  cases s.slotOf? name with
  | none => rfl
  | some id => rfl

theorem get_eq (s : ScopeStack) (name : String) :
    s.get name = match s.slotNamed? name with
      | some slot => .ok slot.value
      | none => .error (.unknownVariable name) := by
  rw [get, lookup?_eq]
  cases s.slotNamed? name <;> rfl

theorem contains_eq {s : ScopeStack} (h : Sane s) (name : String) :
    s.contains name = (s.slotNamed? name).isSome := by
  unfold contains slotNamed?
  cases hid : s.slotOf? name with
  | none => rfl
  | some id =>
      have hlt := h.bounded name id hid
      simp [hlt]

theorem slotNamed?_bind {s : ScopeStack} (h : Sane s) (n name : String) (slot : Slot) :
    (s.bind n slot).slotNamed? name = if name = n then some slot else s.slotNamed? name := by
  unfold slotNamed?
  rw [slotOf?_bind]
  by_cases heq : name = n
  · rw [if_pos heq, if_pos heq]
    simp [ScopeStack.bind]
  · rw [if_neg heq, if_neg heq]
    cases hid : s.slotOf? name with
    | none => rfl
    | some id =>
        have hlt := h.bounded name id hid
        simp [ScopeStack.bind, Array.getElem?_push, Nat.ne_of_lt hlt]

theorem isDeclaredHere_bind {s : ScopeStack} (h : Sane s) (n name : String) (slot : Slot) :
    (s.bind n slot).isDeclaredHere name = (decide (name = n) || s.isDeclaredHere name) := by
  have hbase : (s.bind n slot).current.block.base = s.current.block.base := rfl
  unfold isDeclaredHere
  rw [slotOf?_bind, hbase]
  by_cases heq : name = n
  · simp [heq, h.base_le]
  · simp [heq]

/-- A new block has declared nothing. -/
theorem isDeclaredHere_enter {s : ScopeStack} (h : Sane s) (name : String) :
    s.enter.isDeclaredHere name = false := by
  have hslot : s.enter.slotOf? name = s.slotOf? name := rfl
  have hbase : s.enter.current.block.base = s.current.slots.size := rfl
  unfold isDeclaredHere
  rw [hslot, hbase]
  cases hid : s.slotOf? name with
  | none => rfl
  | some id =>
      have hlt := h.bounded name id hid
      simpa using hlt

/-! ## Writing and binding -/

theorem write_enter (s : ScopeStack) (id : Nat) (v : Value) :
    s.enter.write id v = (s.write id v).enter := by
  simp [enter, write]

/-- A write to an older slot may come before a binding or after it. -/
theorem write_bind {s : ScopeStack} {id : Nat} (h : id < s.current.slots.size) (n : String)
    (slot : Slot) (v : Value) :
    (s.bind n slot).write id v = (s.write id v).bind n slot := by
  have hslots : (s.current.slots.push slot).modify id (fun slot => { slot with value := v }) =
      (s.current.slots.modify id fun slot => { slot with value := v }).push slot := by
    grind
  simp [ScopeStack.bind, write, hslots]

/-- A write to the slot that was bound last replaces the bound value. -/
theorem write_bind_last (s : ScopeStack) (n : String) (slot : Slot) (v : Value) :
    (s.bind n slot).write s.current.slots.size v = s.bind n { slot with value := v } := by
  have hslots : (s.current.slots.push slot).modify s.current.slots.size
      (fun slot => { slot with value := v }) =
      s.current.slots.push { slot with value := v } := by
    grind
  simp [ScopeStack.bind, write, hslots]

/-! ## Binding all declarations of a frame -/

/-- Binds declarations, the latest last. -/
def bindAll (s : ScopeStack) : Declarations → ScopeStack
  | [] => s
  | (n, slot) :: earlier => (s.bindAll earlier).bind n slot

theorem Sane.bindAll {s : ScopeStack} (h : Sane s) (own : Declarations) :
    Sane (s.bindAll own) := by
  induction own with
  | nil => exact h
  | cons entry earlier ih => exact ih.bind entry.1 entry.2

theorem keeps_bindAll (s : ScopeStack) (own : Declarations) : Keeps true s (s.bindAll own) := by
  induction own with
  | nil => exact .refl _ _
  | cons entry earlier ih => exact ih.trans (.bind _ _ _)

theorem slotNamed?_bindAll {s : ScopeStack} (h : Sane s) (own : Declarations) (name : String) :
    (s.bindAll own).slotNamed? name = (own.lookup name).or (s.slotNamed? name) := by
  induction own with
  | nil => rfl
  | cons entry earlier ih =>
      obtain ⟨n, slot⟩ := entry
      rw [bindAll, slotNamed?_bind (h.bindAll earlier), ih, Table.lookup_cons_eq]
      split <;> rfl

theorem isDeclaredHere_bindAll {s : ScopeStack} (h : Sane s) (own : Declarations)
    (name : String) :
    (s.bindAll own).isDeclaredHere name =
      ((own.lookup name).isSome || s.isDeclaredHere name) := by
  induction own with
  | nil => rfl
  | cons entry earlier ih =>
      obtain ⟨n, slot⟩ := entry
      rw [bindAll, isDeclaredHere_bind (h.bindAll earlier), ih, Table.lookup_cons_eq]
      by_cases heq : name = n
      · simp [heq]
      · simp [heq]

/-- The names of a frame stand behind those that it saw when it was entered. -/
theorem names_bindAll (s : ScopeStack) {own : Declarations} (hown : (own.map Prod.fst).Nodup) :
    (s.bindAll own).names = s.names ++ own.names.filter fun name => name ∉ s.names := by
  induction own with
  | nil => simp [bindAll, Declarations.names]
  | cons entry earlier ih =>
      obtain ⟨n, slot⟩ := entry
      obtain ⟨hnew, hearlier⟩ := List.nodup_cons.mp hown
      have hbind : ((s.bindAll earlier).bind n slot).names =
          if n ∈ (s.bindAll earlier).names then (s.bindAll earlier).names
          else (s.bindAll earlier).names ++ [n] :=
        Table.names_insert _ _ _
      have hmem : n ∈ (s.bindAll earlier).names ↔ n ∈ s.names := by
        rw [ih hearlier, List.mem_append]
        constructor
        · rintro (h | h)
          · exact h
          · have := List.mem_reverse.mp (List.mem_filter.mp h).1
            exact absurd this hnew
        · exact Or.inl
      have hnames : Declarations.names ((n, slot) :: earlier) =
          Declarations.names earlier ++ [n] := by
        simp [Declarations.names]
      rw [bindAll, hbind, hnames, List.filter_append]
      by_cases hn : n ∈ s.names
      · rw [if_pos (hmem.mpr hn), ih hearlier]
        simp [hn]
      · rw [if_neg (mt hmem.mp hn), ih hearlier]
        simp [hn]

/-- An assignment to a variable of the frame itself. -/
theorem write_bindAll_own {s : ScopeStack} (h : Sane s) {own : Declarations} {name : String}
    (hown : (own.lookup name).isSome = true) {id : Nat}
    (hid : (s.bindAll own).slotOf? name = some id) (v : Value) :
    (s.bindAll own).write id v = s.bindAll (own.assign name v) := by
  induction own with
  | nil => cases hown
  | cons entry earlier ih =>
      obtain ⟨n, slot⟩ := entry
      rw [bindAll, slotOf?_bind] at hid
      by_cases heq : name = n
      · subst heq
        rw [if_pos rfl] at hid
        obtain rfl := Option.some.inj hid
        rw [bindAll, write_bind_last, Declarations.assign, if_pos rfl]
        rfl
      · rw [if_neg heq] at hid
        rw [Table.lookup_cons_eq, if_neg heq] at hown
        have hlt := (h.bindAll earlier).bounded name id hid
        rw [bindAll, write_bind hlt, ih hown hid, Declarations.assign, if_neg (Ne.symm heq)]
        rfl

/-- An assignment to a variable from outside the frame. -/
theorem write_bindAll_outer {s : ScopeStack} (h : Sane s) {own : Declarations} {name : String}
    (hown : own.lookup name = none) {id : Nat} (hid : (s.bindAll own).slotOf? name = some id)
    (v : Value) :
    s.slotOf? name = some id ∧ (s.bindAll own).write id v = (s.write id v).bindAll own := by
  induction own with
  | nil => exact ⟨hid, rfl⟩
  | cons entry earlier ih =>
      obtain ⟨n, slot⟩ := entry
      rw [bindAll, slotOf?_bind] at hid
      rw [Table.lookup_cons_eq] at hown
      by_cases heq : name = n
      · rw [if_pos heq] at hown
        cases hown
      · rw [if_neg heq] at hid hown
        obtain ⟨hslot, hwrite⟩ := ih hown hid
        have hlt := (h.bindAll earlier).bounded name id hid
        refine ⟨hslot, ?_⟩
        rw [bindAll, write_bind hlt, hwrite]
        rfl

/-- An assignment in a frame that sees nothing from outside. -/
theorem write_bindAll_isolated {s : ScopeStack} (h : Sane s) {own : Declarations} {name : String}
    (hnone : s.slotOf? name = none) {id : Nat} (hid : (s.bindAll own).slotOf? name = some id)
    (v : Value) : (s.bindAll own).write id v = s.bindAll (own.assign name v) := by
  cases hown : own.lookup name with
  | some slot => exact write_bindAll_own h (by rw [hown]; rfl) hid v
  | none =>
      have hslot := (write_bindAll_outer h hown hid v).1
      rw [hnone] at hslot
      cases hslot

/-- Leaving a block drops exactly the slots that were bound in it. -/
theorem exit_bindAll_enter (s : ScopeStack) (own : Declarations) :
    (s.enter.bindAll own).exit = .ok s := by
  have hslots : ∀ own : Declarations, (s.enter.bindAll own).current.slots.toList =
      s.current.slots.toList ++ (own.map Prod.snd).reverse := by
    intro own
    induction own with
    | nil => simp [bindAll, enter]
    | cons entry earlier ih => simp [bindAll, ScopeStack.bind, ih]
  have hkeeps := keeps_bindAll s.enter own
  rw [hkeeps.exit_enter.1]
  have hshrink : (s.enter.bindAll own).current.slots.shrink s.current.slots.size =
      s.current.slots := by
    apply Array.toList_inj.mp
    rw [Array.toList_shrink, hslots own]
    simp
  have hsuspended : (s.enter.bindAll own).suspended = s.suspended := hkeeps.suspended
  rw [closing, hshrink, hsuspended]

theorem exit_bindAll_enterIsolated (s : ScopeStack) (own : Declarations) :
    (s.enterIsolated.bindAll own).exit = .ok s :=
  (keeps_bindAll s.enterIsolated own).exit_enterIsolated

theorem exit_bindAll_start (own : Declarations) :
    (start.bindAll own).exit = .error .scopeUnderflow := by
  have hkeeps := keeps_bindAll start own
  have houter : (start.bindAll own).current.outer = [] := hkeeps.outer
  have hsuspended : (start.bindAll own).suspended = [] := hkeeps.suspended
  rw [exit, houter, hsuspended]

theorem depth_enter (s : ScopeStack) : s.enter.depth = s.depth + 1 := by
  have hshift : ∀ (suspended : List Activation) (n : Nat),
      suspended.foldl (fun n a => n + a.depth) (n + 1) =
        suspended.foldl (fun n a => n + a.depth) n + 1 := by
    intro suspended
    induction suspended with
    | nil => intro n; rfl
    | cons a rest ih =>
        intro n
        have hswap : n + 1 + a.depth = n + a.depth + 1 := by omega
        rw [List.foldl_cons, List.foldl_cons, hswap, ih]
  exact hshift s.suspended s.current.depth

/-- A call counts one frame more, just as a block does. -/
theorem depth_enterIsolated (s : ScopeStack) : s.enterIsolated.depth = s.depth + 1 := by
  rw [← depth_enter]
  have hfresh : Activation.fresh.depth + s.current.depth = s.enter.current.depth := by
    show 1 + s.current.depth = s.current.outer.length + 1 + 1
    rw [Activation.depth]
    omega
  show s.suspended.foldl (fun n a => n + a.depth) (Activation.fresh.depth + s.current.depth) = _
  rw [hfresh]
  rfl

end ScopeStack

/-! ## Replaying -/

namespace LexicalScopes

/-- The scope stack in which these frames were entered and their declarations bound. -/
def replay : LexicalScopes → ScopeStack
  | .global own => ScopeStack.start.bindAll own
  | .block own outside => outside.replay.enter.bindAll own
  | .call own caller => caller.replay.enterIsolated.bindAll own

/-- No frame declares a name twice. -/
def Distinct : LexicalScopes → Prop
  | .global own => (own.map Prod.fst).Nodup
  | .block own rest | .call own rest => (own.map Prod.fst).Nodup ∧ rest.Distinct

theorem sane_replay (s : LexicalScopes) : s.replay.Sane := by
  induction s with
  | global own => exact ScopeStack.sane_start.bindAll own
  | block own outside ih => exact ih.enter.bindAll own
  | call own caller ih => exact (ScopeStack.Sane.enterIsolated _).bindAll own

theorem slotNamed?_replay (s : LexicalScopes) (name : String) :
    s.replay.slotNamed? name = s.find? name := by
  induction s with
  | global own =>
      have hstart : ScopeStack.start.slotNamed? name = none := rfl
      rw [replay, ScopeStack.slotNamed?_bindAll ScopeStack.sane_start, hstart, Option.or_none]
      rfl
  | block own outside ih =>
      have henter : outside.replay.enter.slotNamed? name = outside.replay.slotNamed? name := rfl
      rw [replay, ScopeStack.slotNamed?_bindAll outside.sane_replay.enter, henter, ih]
      rfl
  | call own caller ih =>
      have hcall : caller.replay.enterIsolated.slotNamed? name = none := rfl
      rw [replay, ScopeStack.slotNamed?_bindAll (.enterIsolated _), hcall, Option.or_none]
      rfl

theorem isDeclaredHere_replay (s : LexicalScopes) (name : String) :
    s.replay.isDeclaredHere name = (s.own.lookup name).isSome := by
  cases s with
  | global own =>
      have hstart : ScopeStack.start.isDeclaredHere name = false := rfl
      rw [replay, ScopeStack.isDeclaredHere_bindAll ScopeStack.sane_start, hstart, Bool.or_false]
      rfl
  | block own outside =>
      rw [replay, ScopeStack.isDeclaredHere_bindAll outside.sane_replay.enter,
        ScopeStack.isDeclaredHere_enter outside.sane_replay, Bool.or_false]
      rfl
  | call own caller =>
      have hcall : caller.replay.enterIsolated.isDeclaredHere name = false := rfl
      rw [replay, ScopeStack.isDeclaredHere_bindAll (.enterIsolated _), hcall, Bool.or_false]
      rfl

theorem names_replay {s : LexicalScopes} (h : s.Distinct) : s.replay.names = s.names := by
  induction s with
  | global own =>
      rw [replay, ScopeStack.names_bindAll _ h]
      have hstart : ScopeStack.start.names = [] := rfl
      simp [hstart, names]
  | block own outside ih =>
      rw [replay, ScopeStack.names_bindAll _ h.1]
      have henter : outside.replay.enter.names = outside.replay.names := rfl
      rw [henter, ih h.2]
      rfl
  | call own caller ih =>
      rw [replay, ScopeStack.names_bindAll _ h.1]
      have hcall : caller.replay.enterIsolated.names = [] := rfl
      simp [hcall, names]

theorem depth_replay (s : LexicalScopes) : s.replay.depth = s.depth := by
  induction s with
  | global own =>
      rw [replay, (ScopeStack.keeps_bindAll _ own).depth_eq]
      rfl
  | block own outside ih =>
      rw [replay, (ScopeStack.keeps_bindAll _ own).depth_eq, ScopeStack.depth_enter, ih]
      rfl
  | call own caller ih =>
      rw [replay, (ScopeStack.keeps_bindAll _ own).depth_eq, ScopeStack.depth_enterIsolated, ih]
      rfl

theorem exit_replay (s : LexicalScopes) : s.replay.exit = s.exit.map replay := by
  cases s with
  | global own => exact ScopeStack.exit_bindAll_start own
  | block own outside => exact ScopeStack.exit_bindAll_enter outside.replay own
  | call own caller => exact ScopeStack.exit_bindAll_enterIsolated caller.replay own

theorem bind_replay (s : LexicalScopes) (name : String) (slot : Slot) :
    s.replay.bind name slot = (s.add (name, slot)).replay := by
  cases s with
  | global own => rfl
  | block own outside => rfl
  | call own caller => rfl

/-- Writing to the shared slot that a name stands for is assigning to the nearest declaration. -/
theorem write_replay {s : LexicalScopes} {name : String} {id : Nat}
    (hid : s.replay.slotOf? name = some id) (v : Value) :
    s.replay.write id v = (s.assign name v).replay := by
  induction s with
  | global own => exact ScopeStack.write_bindAll_isolated ScopeStack.sane_start rfl hid v
  | block own outside ih =>
      rw [replay] at hid ⊢
      cases hown : own.lookup name with
      | some slot =>
          have hsome : (own.lookup name).isSome = true := by rw [hown]; rfl
          rw [ScopeStack.write_bindAll_own outside.sane_replay.enter hsome hid, assign,
            if_pos hsome]
          rfl
      | none =>
          obtain ⟨hslot, hwrite⟩ :=
            ScopeStack.write_bindAll_outer outside.sane_replay.enter hown hid v
          have hnone : ¬(own.lookup name).isSome = true := by rw [hown]; exact Bool.false_ne_true
          rw [hwrite, ScopeStack.write_enter, ih hslot, assign, if_neg hnone]
          rfl
  | call own caller ih => exact ScopeStack.write_bindAll_isolated (.enterIsolated _) rfl hid v

theorem declare_replay (s : LexicalScopes) (st : Store) (name : String) (ty : Ty) (v : Value)
    (isConst : Bool) :
    s.replay.declare st name ty v isConst = (s.declare st name ty v isConst).map replay := by
  unfold ScopeStack.declare ScopeStack.declarable Store.check declare
  rw [isDeclaredHere_replay]
  cases st.accepts ty v with
  | false => rfl
  | true =>
      cases (s.own.lookup name).isSome with
      | true => rfl
      | false =>
          show Except.ok (s.replay.bind name { value := v, ty, isConst }) = _
          rw [bind_replay]
          rfl

theorem set_replay (s : LexicalScopes) (st : Store) (name : String) (v : Value) :
    s.replay.set st name v = (s.set st name v).map replay := by
  have hentry := s.slotNamed?_replay name
  unfold ScopeStack.set ScopeStack.assignable set Store.check
  rw [← hentry, ScopeStack.slotNamed?]
  cases hid : s.replay.slotOf? name with
  | none => rfl
  | some id =>
      cases hslot : s.replay.current.slots[id]? with
      | none => simp [hslot, Bind.bind, Except.bind, Except.map]
      | some slot =>
          simp only [Option.bind_some, hslot]
          cases slot.isConst with
          | true => rfl
          | false =>
              cases st.accepts slot.ty v with
              | false => rfl
              | true =>
                  show Except.ok (s.replay.write id v) = _
                  rw [write_replay hid]
                  rfl

/-! ## No frame declares a name twice -/

theorem Declarations.map_fst_assign (name : String) (v : Value) (own : Declarations) :
    (own.assign name v).map Prod.fst = own.map Prod.fst := by
  induction own with
  | nil => rfl
  | cons entry rest ih =>
      obtain ⟨n, slot⟩ := entry
      rw [Declarations.assign]
      split
      · rfl
      · rw [List.map_cons, List.map_cons, ih]

theorem Distinct.assign {s : LexicalScopes} (h : s.Distinct) (name : String) (v : Value) :
    (s.assign name v).Distinct := by
  induction s with
  | global own =>
      show ((own.assign name v).map Prod.fst).Nodup
      rw [Declarations.map_fst_assign]
      exact h
  | block own outside ih =>
      rw [LexicalScopes.assign]
      split
      · refine ⟨?_, h.2⟩
        rw [Declarations.map_fst_assign]
        exact h.1
      · exact ⟨h.1, ih h.2⟩
  | call own caller ih =>
      refine ⟨?_, h.2⟩
      rw [Declarations.map_fst_assign]
      exact h.1

theorem Distinct.add {s : LexicalScopes} (h : s.Distinct) {name : String} (slot : Slot)
    (hnew : (s.own.lookup name).isSome = false) : (s.add (name, slot)).Distinct := by
  have hfresh : name ∉ s.own.map Prod.fst := by
    intro hmem
    obtain ⟨entry, hentry, rfl⟩ := List.mem_map.mp hmem
    have hsome : (s.own.lookup entry.1).isSome = true :=
      List.lookup_isSome_iff.mpr ⟨entry, hentry, beq_self_eq_true _⟩
    rw [hnew] at hsome
    cases hsome
  cases s with
  | global own => exact List.nodup_cons.mpr ⟨hfresh, h⟩
  | block own outside => exact ⟨List.nodup_cons.mpr ⟨hfresh, h.1⟩, h.2⟩
  | call own caller => exact ⟨List.nodup_cons.mpr ⟨hfresh, h.1⟩, h.2⟩

theorem Distinct.exit {s s' : LexicalScopes} (h : s.Distinct) (hexit : s.exit = .ok s') :
    s'.Distinct := by
  cases s with
  | global own => cases hexit
  | block own outside =>
      cases hexit
      exact h.2
  | call own caller =>
      cases hexit
      exact h.2

theorem Distinct.declare {s s' : LexicalScopes} (h : s.Distinct) {st : Store} {name : String}
    {ty : Ty} {v : Value} {isConst : Bool} (hdeclare : s.declare st name ty v isConst = .ok s') :
    s'.Distinct := by
  unfold LexicalScopes.declare at hdeclare
  split at hdeclare
  · cases hdeclare
  · split at hdeclare
    · cases hdeclare
    · next hnew =>
        cases hdeclare
        exact h.add _ (Bool.eq_false_iff.mpr hnew)

theorem Distinct.set {s s' : LexicalScopes} (h : s.Distinct) {st : Store} {name : String}
    {v : Value} (hset : s.set st name v = .ok s') : s'.Distinct := by
  unfold LexicalScopes.set at hset
  split at hset
  · cases hset
  · split at hset
    · cases hset
    · split at hset
      · cases hset
      · cases hset
        exact h.assign name v

end LexicalScopes

/-! ## The simulation -/

namespace Scoping

open LexicalScopes

/-- An operation that does the same on the replayed state gives the same reply. -/
theorem attempt_replay {s : LexicalScopes} (h : s.Distinct) (line : Nat)
    (result : Except Cause LexicalScopes) (hresult : ∀ s', result = .ok s' → s'.Distinct) :
    (attempt s.replay line (result.map replay)).1 = (attempt s line result).1 ∧
      (attempt s.replay line (result.map replay)).2 = (attempt s line result).2.replay ∧
      (attempt s line result).2.Distinct := by
  cases result with
  | ok s' => exact ⟨rfl, rfl, hresult s' rfl⟩
  | error cause => exact ⟨rfl, rfl, h⟩

/-- One request: the replies agree, and the new states correspond again. -/
theorem serve_replay {s : LexicalScopes} (h : s.Distinct) (request : ScopeRequest) :
    (shared.serve s.replay request).1 = (lexical.serve s request).1 ∧
      (shared.serve s.replay request).2 = (lexical.serve s request).2.replay ∧
      (lexical.serve s request).2.Distinct := by
  cases request with
  | new => exact ⟨rfl, rfl, List.nodup_nil⟩
  | enter => exact ⟨rfl, rfl, List.nodup_nil, h⟩
  | enterIsolated => exact ⟨rfl, rfl, List.nodup_nil, h⟩
  | exit line =>
      have hstep := attempt_replay h line s.exit fun s' => h.exit
      rw [← exit_replay] at hstep
      exact hstep
  | declare st name ty v isConst line =>
      have hstep := attempt_replay h line (s.declare st name ty v isConst) fun s' => h.declare
      rw [← declare_replay] at hstep
      exact hstep
  | set st name v line =>
      have hstep := attempt_replay h line (s.set st name v) fun s' => h.set
      rw [← set_replay] at hstep
      exact hstep
  | get name line =>
      refine ⟨?_, rfl, h⟩
      show ScopeReply.ofValue line (s.replay.get name) = .ofValue line (s.get name)
      rw [ScopeStack.get_eq, slotNamed?_replay]
      rfl
  | lookup name =>
      refine ⟨?_, rfl, h⟩
      show ScopeReply.optional (s.replay.lookup? name) = .optional ((s.find? name).map Slot.value)
      rw [ScopeStack.lookup?_eq, slotNamed?_replay]
  | contains name =>
      refine ⟨?_, rfl, h⟩
      show ScopeReply.flag (s.replay.contains name) = .flag (s.find? name).isSome
      rw [ScopeStack.contains_eq s.sane_replay, slotNamed?_replay]
  | names =>
      refine ⟨?_, rfl, h⟩
      show ScopeReply.names s.replay.names = .names s.names
      rw [names_replay h]
  | depth =>
      refine ⟨?_, rfl, h⟩
      show ScopeReply.depth s.replay.depth = .depth s.depth
      rw [depth_replay]

theorem replies_replay {s : LexicalScopes} (h : s.Distinct) (requests : List ScopeRequest) :
    shared.replies s.replay requests = lexical.replies s requests := by
  induction requests generalizing s with
  | nil => rfl
  | cons request rest ih =>
      obtain ⟨hreply, hstate, hdistinct⟩ := serve_replay h request
      rw [replies, replies, hreply, hstate, ih hdistinct]

/-- The scope stack is lexical scoping. -/
theorem shared_replies_eq_lexical (requests : List ScopeRequest) :
    shared.replies shared.start requests = lexical.replies lexical.start requests :=
  replies_replay (s := .global []) List.nodup_nil requests

/-- Declaring `x` a second time, with a value that its type does not accept, is refused because of
the value and not because of the name. -/
theorem shared_replies_ne_nameFirst :
    let requests : List ScopeRequest :=
      [.declare .empty "x" .int (.int 1) false 1, .declare .empty "x" .int (.string "a") false 2]
    shared.replies shared.start requests ≠ nameFirst.replies nameFirst.start requests := by
  intro requests h
  have hreplies : [ScopeReply.done, .failed { cause := .typeMismatch .int .string, line := 2 }] =
      [.done, .failed { cause := .alreadyDeclared "x", line := 2 }] := h
  cases hreplies

end Scoping

end ClassScript
