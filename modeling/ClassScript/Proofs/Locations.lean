import ClassScript.Proofs.Statics

/-!
# Locations

A value stands in a slot, in an item of an array, in a field of an object or in a static field of a
class. Programs come to a location in many ways: a variable is seen from all blocks inside its own,
an array or an object is shared by all values that name it, and a static field is seen from the
classes below. A value that is put at a location is read there whichever way is taken, and whatever
does not lead to the location reads as before.
-/

namespace ClassScript

/-! ## Emptying tables -/

namespace Table

variable {α : Type}

def erase (t : Table α) (key : String) : Table α := ⟨t.entries.filter fun entry => entry.1 ≠ key⟩

theorem erase_insert (t : Table α) (key : String) (value : α) :
    (t.insert key value).erase key = t.erase key := by
  obtain ⟨entries⟩ := t
  change Table.mk ((insertEntry key value entries).filter fun entry => entry.1 ≠ key) = _
  congr 1
  induction entries with
  | nil => simp [insertEntry]
  | cons entry rest ih =>
      obtain ⟨k, v⟩ := entry
      by_cases hk : k = key
      · simp [insertEntry, hk]
      · rw [insertEntry, if_neg hk, List.filter_cons, List.filter_cons, ih]

theorem contains_insert_of_contains {t : Table α} {key : String} (h : t.contains key = true)
    (value : α) (other : String) : (t.insert key value).contains other = t.contains other := by
  rw [contains, contains, find?_insert]
  split
  next heq => rw [heq, ← contains, h, Option.isSome_some]
  next => rfl

end Table

/-! ## What stands at a location -/

/-- Where a value can stand. -/
inductive Location where
  /-- A slot of the running activation. -/
  | slot (id : Nat)
  | item (array : ArrayId) (position : Nat)
  | field (object : ObjectId) (name : String)
  /-- A static value that the class itself keeps. -/
  | static (holder : ClassId) (name : String)
  deriving DecidableEq

namespace Session

variable {s s' : Session} {loc : Location}

def at? (s : Session) : Location → Option Value
  | .slot id => s.scopes.current.slots[id]?.map Slot.value
  | .item array position => (s.store.arrayCell array).items[position]?
  | .field object name => (s.store.objectCell object).fields.find? name
  | .static holder name => (s.store.classInfo holder).statics.find? name

/-- The location is there. A field of an object need not have a value yet. -/
def Has (s : Session) : Location → Prop
  | .slot id => id < s.scopes.current.slots.size
  | .item array position => position < (s.store.arrayCell array).items.size
  | .field object _ => object < s.store.objects.size
  | .static holder name => (s.store.classInfo holder).statics.contains name = true

def put (s : Session) (loc : Location) (value : Value) : Session :=
  match loc with
  | .slot id => { s with scopes := s.scopes.write id value }
  | .item array position => { s with store := s.store.putItem array position value }
  | .field object name => { s with store := s.store.putField object name value }
  | .static holder name => { s with store := s.store.putStatic holder name value }

/-- The session with nothing at the location: two sessions that agree on this differ in no other
respect. -/
def without (s : Session) : Location → Session
  | .slot id => s.put (.slot id) .void
  | .item array position => s.put (.item array position) .void
  | .field object name =>
      { s with
        store.objects := s.store.objects.modify object fun cell =>
          { cell with fields := cell.fields.erase name } }
  | .static holder name =>
      { s with
        store.classes := s.store.classes.modify holder fun info =>
          { info with statics := info.statics.erase name } }

end Session

namespace Store

variable (st : Store)

theorem arrayCell_putItem (id other : ArrayId) (position : Nat) (v : Value) :
    (st.putItem id position v).arrayCell other = if id = other then
      { st.arrayCell other with items := (st.arrayCell other).items.setIfInBounds position v }
      else st.arrayCell other := by
  simp only [arrayCell, putItem, Array.getElem?_modify]
  split
  next =>
      cases st.arrays[other]? with
      | none => rfl
      | some cell => rfl
  next => rfl

theorem objectCell_putField {id : ObjectId} (h : id < st.objects.size) (other : ObjectId)
    (name : String) (v : Value) :
    (st.putField id name v).objectCell other = if id = other then
      { st.objectCell other with fields := (st.objectCell other).fields.insert name v }
      else st.objectCell other := by
  simp only [objectCell, putField, Array.getElem?_modify]
  split
  next heq =>
      subst heq
      rw [Array.getElem?_eq_getElem h]
      rfl
  next => rfl

theorem classInfo_putStatic {holder : ClassId} (h : holder < st.classes.size) (other : ClassId)
    (name : String) (v : Value) :
    (st.putStatic holder name v).classInfo other = if holder = other then
      { st.classInfo other with statics := (st.classInfo other).statics.insert name v }
      else st.classInfo other := by
  simp only [classInfo, putStatic, Array.getElem?_modify]
  split
  next heq =>
      subst heq
      rw [Array.getElem?_eq_getElem h]
      rfl
  next => rfl

/-- A class that keeps a value is in the store. -/
theorem lt_size_of_contains {st : Store} {holder : ClassId} {name : String}
    (h : (st.classInfo holder).statics.contains name = true) : holder < st.classes.size := by
  refine Nat.lt_of_not_le fun hle => ?_
  rw [classInfo_of_le hle] at h
  cases h

end Store

/-! ## Putting values -/

namespace Session

variable {s s' : Session} {loc : Location}

theorem slots_write (scopes : ScopeStack) (id other : Nat) (v : Value) :
    (scopes.write id v).current.slots[other]? = if id = other then
      scopes.current.slots[other]?.map fun slot => { slot with value := v }
      else scopes.current.slots[other]? :=
  Array.getElem?_modify

theorem at?_put_self (h : s.Has loc) (v : Value) : (s.put loc v).at? loc = some v := by
  cases loc with
  | slot id =>
      have hslot : s.scopes.current.slots[id]? = some _ := Array.getElem?_eq_getElem h
      rw [put, at?, slots_write, if_pos rfl, hslot]
      rfl
  | item array position =>
      rw [put, at?, Store.arrayCell_putItem, if_pos rfl]
      exact Array.getElem?_setIfInBounds_self_of_lt h
  | field object name =>
      rw [put, at?, Store.objectCell_putField _ h, if_pos rfl]
      exact (Table.find?_insert _ _ _ _).trans (if_pos rfl)
  | static holder name =>
      rw [put, at?, Store.classInfo_putStatic _ (Store.lt_size_of_contains h), if_pos rfl]
      exact (Table.find?_insert _ _ _ _).trans (if_pos rfl)

theorem at?_put_of_ne (h : s.Has loc) (v : Value) {other : Location} (hne : other ≠ loc) :
    (s.put loc v).at? other = s.at? other := by
  cases loc with
  | slot id =>
      cases other with
      | slot other =>
          have hid : id ≠ other := fun heq => hne (heq ▸ rfl)
          rw [put, at?, slots_write, if_neg hid, at?]
      | _ => rfl
  | item array position =>
      cases other with
      | item other otherPosition =>
          rw [put, at?, Store.arrayCell_putItem, at?]
          split
          next heq =>
              refine Array.getElem?_setIfInBounds_ne fun hposition => hne ?_
              rw [heq, hposition]
          next => rfl
      | _ => rfl
  | field object name =>
      cases other with
      | field other otherName =>
          rw [put, at?, Store.objectCell_putField _ h, at?]
          split
          next heq =>
              have hname : otherName ≠ name := fun hname => hne (by rw [heq, hname])
              exact (Table.find?_insert _ _ _ _).trans (if_neg hname)
          next => rfl
      | _ => rfl
  | static holder name =>
      cases other with
      | static other otherName =>
          rw [put, at?, Store.classInfo_putStatic _ (Store.lt_size_of_contains h), at?]
          split
          next heq =>
              have hname : otherName ≠ name := fun hname => hne (by rw [heq, hname])
              exact (Table.find?_insert _ _ _ _).trans (if_neg hname)
          next => rfl
      | _ => rfl

/-- A second change in the same position hides the first. -/
theorem modify_modify {α : Type} (cells : Array α) (id : Nat) {f g : α → α}
    (h : ∀ a, g (f a) = g a) : (cells.modify id f).modify id g = cells.modify id g := by
  refine Array.ext_getElem? fun i => ?_
  simp only [Array.getElem?_modify]
  split
  next =>
      cases cells[i]? with
      | none => rfl
      | some a => exact congrArg some (h a)
  next => rfl

/-- Nothing but the location is changed. -/
theorem without_put (s : Session) (loc : Location) (v : Value) :
    (s.put loc v).without loc = s.without loc := by
  cases loc with
  | slot id =>
      have hslots := modify_modify s.scopes.current.slots id
        (f := fun slot => { slot with value := v }) (g := fun slot => { slot with value := .void })
        fun _ => rfl
      simp only [without, put, ScopeStack.write]
      rw [hslots]
  | item array position =>
      simp only [without, put, Store.putItem]
      rw [modify_modify _ _ fun cell => by rw [Array.setIfInBounds_setIfInBounds]]
  | field object name =>
      simp only [without, put, Store.putField]
      rw [modify_modify _ _ fun cell => by rw [Table.erase_insert]]
  | static holder name =>
      simp only [without, put, Store.putStatic]
      rw [modify_modify _ _ fun info => by rw [Table.erase_insert]]

/-! ## Aligned sessions -/

/-- The two sessions have the same locations, and the running code may go to the same ones. -/
structure Aligned (s s' : Session) : Prop where
  block : s'.scopes.current.block = s.scopes.current.block
  slots : s'.scopes.current.slots.size = s.scopes.current.slots.size
  calls : s'.calls = s.calls
  shape : ∀ cls, (s'.store.classInfo cls).shape = (s.store.classInfo cls).shape
  statics : ∀ cls name, (s'.store.classInfo cls).statics.contains name =
    (s.store.classInfo cls).statics.contains name
  cls : ∀ id, s'.objectClass id = s.objectClass id
  items : ∀ id, (s'.store.arrayCell id).items.size = (s.store.arrayCell id).items.size

theorem aligned_put (h : s.Has loc) (v : Value) : s.Aligned (s.put loc v) := by
  cases loc with
  | slot id =>
      exact ⟨rfl, Array.size_modify, rfl, fun _ => rfl, fun _ _ => rfl, fun _ => rfl, fun _ => rfl⟩
  | item array position =>
      refine ⟨rfl, rfl, rfl, fun _ => rfl, fun _ _ => rfl, fun _ => rfl, fun id => ?_⟩
      rw [put, Store.arrayCell_putItem]
      split
      next => exact Array.size_setIfInBounds
      next => rfl
  | field object name =>
      refine ⟨rfl, rfl, rfl, fun _ => rfl, fun _ _ => rfl, fun id => ?_, fun _ => rfl⟩
      rw [objectClass, put, Store.objectCell_putField _ h, objectClass]
      split <;> rfl
  | static holder name =>
      refine ⟨rfl, rfl, rfl, fun cls => s.store.shape_putStatic holder cls name v,
        fun cls other => ?_, fun _ => rfl, fun _ => rfl⟩
      rw [put, Store.classInfo_putStatic _ (Store.lt_size_of_contains h)]
      split
      next heq => exact Table.contains_insert_of_contains (heq ▸ h) v other
      next => rfl

namespace Aligned

variable (h : s.Aligned s')
include h

theorem className (cls : ClassId) : s'.store.className cls = s.store.className cls := by
  have hname := congrArg ClassInfo.name (h.shape cls)
  exact hname

theorem fields (cls : ClassId) :
    (s'.store.classInfo cls).fields = (s.store.classInfo cls).fields := by
  have hfields := congrArg ClassInfo.fields (h.shape cls)
  exact hfields

theorem member? : s'.member? = s.member? := by rw [Session.member?, h.calls, Session.member?]

theorem checkAccess (cls : ClassId) (member : String) (access : Access) (owner : String) :
    s'.checkAccess cls member access owner = s.checkAccess cls member access owner := by
  unfold Session.checkAccess Session.mayAccess
  rw [h.member?, h.className]

theorem findField (cls : ClassId) (name : String) :
    s'.findField cls name = s.findField cls name := by
  unfold Session.findField Session.unknownMember
  rw [h.fields, h.className]

theorem staticField (cls : ClassId) (name : String) :
    s'.staticField cls name = s.staticField cls name := by
  unfold Session.staticField
  rw [h.findField, h.className]
  simp only [h.checkAccess]

theorem instanceField (cls : ClassId) (name : String) :
    s'.instanceField cls name = s.instanceField cls name := by
  unfold Session.instanceField
  rw [h.findField, h.className]
  simp only [h.checkAccess]

theorem staticHolder? (cls : ClassId) (name : String) :
    s'.store.staticHolder? cls name = s.store.staticHolder? cls name := by
  have hancestors : (s'.store.classInfo cls).ancestors = (s.store.classInfo cls).ancestors := by
    have hancestors := congrArg ClassInfo.ancestors (h.shape cls)
    exact hancestors
  unfold Store.staticHolder? Store.lineage
  simp only [hancestors, h.statics]

theorem implicitField? (name : String) : s'.implicitField? name = s.implicitField? name := by
  unfold Session.implicitField?
  rw [h.member?]
  simp only [h.fields]

theorem receiver (scope : MemberScope) (member : String) :
    s'.receiver scope member = s.receiver scope member := by
  unfold Session.receiver
  rw [h.className]

/-- A slot is there in both sessions or in neither. -/
theorem isSome_slot (id : Nat) :
    (s'.at? (.slot id)).isSome = (s.at? (.slot id)).isSome := by
  have hsome (t : Session) :
      (t.at? (.slot id)).isSome = true ↔ id < t.scopes.current.slots.size := by
    rw [at?, Option.isSome_map, Option.isSome_iff_ne_none, ne_eq, Array.getElem?_eq_none_iff,
      Nat.not_le]
  rw [Bool.eq_iff_iff, hsome, hsome, h.slots]

end Aligned

end Session

/-! ## Readings -/

/-- The ways to read a location. -/
inductive Reading where
  /-- The variable of this name, as the block sees it. -/
  | visible (block : Block) (name : String)
  | item (array : ArrayId) (index : Int64)
  | field (object : ObjectId) (name : String)
  | static (cls : ClassId) (name : String)

namespace Reading

variable {s s' : Session} {loc : Location}

/-- The location to which the reading leads. -/
def location? (s : Session) : Reading → Option Location
  | .visible block name => (block.bindings.find? name).map .slot
  | .item array index =>
      (Word.position? index (s.store.arrayCell array).items.size).map (.item array)
  | .field object name => some (.field object name)
  | .static cls name => (s.store.staticHolder? cls name).map (.static · name)

/-- What the running code has to be allowed before it may read. -/
def allowed (s : Session) : Reading → Except Cause Unit
  | .visible .. | .item .. => .ok ()
  | .field object name => (s.instanceField (s.objectClass object) name).map fun _ => ()
  | .static cls name => (s.staticField cls name).map fun _ => ()

/-- What is said if nothing stands at the location. -/
def missing (s : Session) : Reading → Cause
  | .visible _ name => .unknownVariable name
  | .item array index => .indexOutOfBounds index (s.store.arrayCell array).items.size
  | .field object name => s.unknownMember (s.objectClass object) name
  | .static cls name => s.unknownMember cls name

def read (s : Session) : Reading → Except Cause Value
  | .visible block name =>
      match (block.bindings.find? name).bind fun id => s.scopes.current.slots[id]? with
      | some slot => .ok slot.value
      | none => .error (.unknownVariable name)
  | .item array index => s.store.item (.array array) index
  | .field object name => s.readField object name
  | .static cls name => s.readStatic cls name

/-- A reading that is allowed gives what stands at its location. -/
theorem read_eq (r : Reading) (s : Session) :
    r.read s = (r.allowed s).bind fun _ =>
      match (r.location? s).bind s.at? with
      | some v => .ok v
      | none => .error (r.missing s) := by
  cases r with
  | visible block name =>
      rw [read, allowed, location?, Option.bind_map]
      cases block.bindings.find? name with
      | none => rfl
      | some id =>
          change (match s.scopes.current.slots[id]? with
            | some slot => Except.ok slot.value
            | none => .error (Cause.unknownVariable name)) =
            match s.scopes.current.slots[id]?.map Slot.value with
            | some v => .ok v
            | none => .error (Cause.unknownVariable name)
          cases s.scopes.current.slots[id]? <;> rfl
  | item array index =>
      rw [read, allowed, location?, Option.bind_map, Store.item, Store.position]
      cases hposition : Word.position? index (s.store.arrayCell array).items.size with
      | none => rfl
      | some position =>
          have hlt : position < (s.store.arrayCell array).items.size :=
            (Store.position_answers index _).of_ok (by rw [Store.position, hposition])
          have hitem : s.at? (.item array position) = some _ := Array.getElem?_eq_getElem hlt
          change Except.ok ((s.store.arrayCell array).items[position]?.getD .void) =
            match s.at? (.item array position) with
            | some v => .ok v
            | none => .error (Cause.indexOutOfBounds index (s.store.arrayCell array).items.size)
          rw [hitem, Array.getElem?_eq_getElem hlt]
          rfl
  | field object name =>
      rw [read, allowed, Session.readField]
      cases s.instanceField (s.objectClass object) name <;> rfl
  | static cls name =>
      rw [read, allowed, Session.readStatic, location?, Option.bind_map, Store.staticValue?]
      cases s.staticField cls name with
      | error cause => rfl
      | ok field =>
          cases s.store.staticHolder? cls name <;> rfl

/-! ## Readings after a value is put -/

section Aligned

variable (h : s.Aligned s') (r : Reading)
include h

theorem location?_eq_of_aligned : r.location? s' = r.location? s := by
  cases r with
  | visible _ _ | field _ _ => rfl
  | item array index => rw [location?, location?, h.items]
  | static cls name => rw [location?, location?, h.staticHolder?]

theorem allowed_eq_of_aligned : r.allowed s' = r.allowed s := by
  cases r with
  | visible _ _ | item _ _ => rfl
  | field object name => rw [allowed, allowed, h.cls, h.instanceField]
  | static cls name => rw [allowed, allowed, h.staticField]

theorem missing_eq_of_aligned : r.missing s' = r.missing s := by
  cases r with
  | visible _ _ => rfl
  | item array index => rw [missing, missing, h.items]
  | field object name =>
      rw [missing, missing, h.cls, Session.unknownMember, Session.unknownMember, h.className]
  | static cls name =>
      rw [missing, missing, Session.unknownMember, Session.unknownMember, h.className]

end Aligned

/-- Readings lead where they led. Those that lead to the location give the new value, if they are
allowed, and all others give what they gave. -/
theorem read_put (h : s.Has loc) (v : Value) (r : Reading) :
    r.location? (s.put loc v) = r.location? s ∧
      r.read (s.put loc v) =
        if r.location? s = some loc then (r.allowed s).map fun _ => v else r.read s := by
  have haligned := Session.aligned_put h v
  have hloc := r.location?_eq_of_aligned haligned
  refine ⟨hloc, ?_⟩
  rw [read_eq, hloc, r.allowed_eq_of_aligned haligned, r.missing_eq_of_aligned haligned]
  by_cases hsame : r.location? s = some loc
  · rw [if_pos hsame, hsame, Option.bind_some, Session.at?_put_self h]
    rfl
  · rw [if_neg hsame, read_eq]
    cases hother : r.location? s with
    | none => rfl
    | some other =>
        have hdiffers : other ≠ loc := fun heq => hsame (by rw [hother, heq])
        rw [Option.bind_some, Option.bind_some, Session.at?_put_of_ne h v hdiffers]

end Reading

/-! ## Bare names -/

namespace Session

variable {s s' : Session}

/-- What a bare name reads: the variable, or else the field of the running class. -/
def meaning (s : Session) (name : String) : Except Cause Reading :=
  if (s.scopes.lookup? name).isSome then .ok (.visible s.scopes.current.block name)
  else
    match s.implicitField? name with
    | none => .error (.unknownVariable name)
    | some (scope, field) =>
      if field.isStatic then .ok (.static scope.cls name)
      else do .ok (.field (← s.receiver scope name) name)

theorem readName_eq_meaning (s : Session) (name : String) :
    s.readName name = (s.meaning name).bind fun r => r.read s := by
  rw [readName, meaning]
  cases hlookup : s.scopes.lookup? name with
  | some v =>
      obtain ⟨id, hid, hvalue⟩ := Option.bind_eq_some_iff.mp hlookup
      obtain ⟨slot, hslot, rfl⟩ := Option.map_eq_some_iff.mp hvalue
      have hfind : s.scopes.current.block.bindings.find? name = some id := hid
      change Except.ok slot.value = (Reading.visible s.scopes.current.block name).read s
      rw [Reading.read, hfind, Option.bind_some, hslot]
  | none =>
      rw [Option.isSome_none, if_neg Bool.false_ne_true]
      change s.readImplicit name = _
      rw [readImplicit]
      rcases s.implicitField? name with _ | ⟨scope, field⟩
      · rfl
      · by_cases hstatic : field.isStatic = true
        · simp only [hstatic, if_true]
          rfl
        · simp only [hstatic, Bool.false_eq_true, if_false]
          cases s.receiver scope name <;> rfl

theorem Aligned.meaning (h : s.Aligned s') (name : String) :
    s'.meaning name = s.meaning name := by
  have hlookup (t : Session) : (t.scopes.lookup? name).isSome =
      ((t.scopes.current.block.bindings.find? name).map fun id =>
        (t.at? (.slot id)).isSome).getD false := by
    change ((t.scopes.current.block.bindings.find? name).bind fun id =>
      t.at? (.slot id)).isSome = _
    cases t.scopes.current.block.bindings.find? name <;> rfl
  unfold Session.meaning
  rw [hlookup, hlookup, h.block, h.implicitField?]
  simp only [h.isSome_slot, h.receiver]

/-- A bare name reads the value that was put if it leads to the location, and what it read before
if it does not. -/
theorem readName_put {loc : Location} (h : s.Has loc) (v : Value) (name : String) :
    (s.put loc v).readName name = (s.meaning name).bind fun r =>
      if r.location? s = some loc then (r.allowed s).map fun _ => v else r.read s := by
  rw [readName_eq_meaning, (aligned_put h v).meaning name]
  cases s.meaning name with
  | ok r => exact (r.read_put h v).2
  | error cause => rfl

end Session

end ClassScript
