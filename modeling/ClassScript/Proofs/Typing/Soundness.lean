import ClassScript.Proofs.Balance
import ClassScript.Proofs.Typing.Store

/-!
# Soundness of types

Every way in which a value enters the session is checked: declarations and assignments, array
literals and items, field initializers, constructors, caught values, parameters and the results of
calls. So every variable, every item and every field holds a value that its type accepts, after any
sequence of programs, whether they succeed or fail, and whenever a part of a program is run.
-/

namespace ClassScript

/-! ## Sound sessions -/

/-- Every slot, of suspended activations too, holds a value of its type. -/
def ScopeStack.Typed (scopes : ScopeStack) (st : Store) : Prop :=
  ∀ a ∈ scopes.current :: scopes.suspended, ∀ slot ∈ a.slots, st.Typed slot.ty slot.value

/-- The invariant of every run. -/
structure Session.Sound (s : Session) : Prop where
  store : s.store.Sound
  slots : s.scopes.Typed s.store
  /-- The receivers of the calls in progress are objects of the store. -/
  selves : ∀ frame ∈ s.calls, ∀ scope id, frame.member = some scope → scope.self = some id →
    s.store.Holds (.object id)

namespace ScopeStack.Typed

variable {scopes scopes' : ScopeStack} {st st' : Store}

theorem start (st : Store) : ScopeStack.start.Typed st := by
  intro a ha slot hslot
  obtain rfl := List.mem_singleton.mp ha
  exact absurd hslot (Array.not_mem_empty slot)

theorem grows (h : scopes.Typed st) (hst : st.Sound) (hg : st.Grows st') : scopes.Typed st' :=
  fun a ha slot hslot => (h a ha slot hslot).grows hst hg

theorem enter (h : scopes.Typed st) : scopes.enter.Typed st := by
  intro a ha slot hslot
  rcases List.mem_cons.mp ha with rfl | ha
  · exact h _ List.mem_cons_self slot hslot
  · exact h a (List.mem_cons_of_mem _ ha) slot hslot

theorem enterIsolated (h : scopes.Typed st) : scopes.enterIsolated.Typed st := by
  intro a ha slot hslot
  rcases List.mem_cons.mp ha with rfl | ha
  · exact absurd hslot (Array.not_mem_empty slot)
  · exact h a ha slot hslot

/-- Leaving a block or a call only drops slots. -/
theorem exit (h : scopes.Typed st) (hexit : scopes.exit = .ok scopes') : scopes'.Typed st := by
  obtain ⟨⟨slots, block, outer⟩, suspended⟩ := scopes
  cases outer with
  | cons block' outer =>
      cases hexit
      intro a ha slot hslot
      rcases List.mem_cons.mp ha with rfl | ha
      · refine h _ List.mem_cons_self slot ?_
        rw [Array.mem_def, Array.toList_shrink] at hslot
        exact Array.mem_def.mpr (List.mem_of_mem_take hslot)
      · exact h a (List.mem_cons_of_mem _ ha) slot hslot
  | nil =>
      cases suspended with
      | nil => cases hexit
      | cons caller suspended =>
          cases hexit
          exact fun a ha => h a (List.mem_cons_of_mem _ ha)

theorem bind (h : scopes.Typed st) (name : String) {slot : Slot}
    (hslot : st.Typed slot.ty slot.value) : (scopes.bind name slot).Typed st := by
  intro a ha other hother
  rcases List.mem_cons.mp ha with rfl | ha
  · rcases Array.mem_push.mp hother with hold | rfl
    · exact h _ List.mem_cons_self other hold
    · exact hslot
  · exact h a (List.mem_cons_of_mem _ ha) other hother

theorem write (h : scopes.Typed st) {id : Nat} {slot : Slot} {v : Value}
    (hid : scopes.current.slots[id]? = some slot) (hv : st.Typed slot.ty v) :
    (scopes.write id v).Typed st := by
  intro a ha other hother
  rcases List.mem_cons.mp ha with rfl | ha
  · obtain ⟨i, hi⟩ := Array.mem_iff_getElem?.mp hother
    simp only [ScopeStack.write, Array.getElem?_modify] at hi
    split at hi
    · next heq =>
        subst heq
        rw [hid] at hi
        obtain rfl := Option.some.inj hi
        exact hv
    · exact h _ List.mem_cons_self other (Array.mem_of_getElem? hi)
  · exact h a (List.mem_cons_of_mem _ ha) other hother

/-- What a variable holds is a value of the store. -/
theorem lookup (h : scopes.Typed st) {name : String} {v : Value}
    (hv : scopes.lookup? name = some v) : st.Holds v := by
  obtain ⟨id, -, hid⟩ := Option.bind_eq_some_iff.mp hv
  obtain ⟨slot, hslot, rfl⟩ := Option.map_eq_some_iff.mp hid
  exact (h _ List.mem_cons_self slot (Array.mem_of_getElem? hslot)).holds

end ScopeStack.Typed

namespace Session.Sound

variable {s : Session}

/-- The store may grow into another sound one. -/
theorem withStore (h : s.Sound) {st : Store} (hg : s.store.Grows st) (hst : st.Sound) :
    Session.Sound { s with store := st } where
  store := hst
  slots := h.slots.grows h.store hg
  selves frame hframe scope id hscope hid := (h.selves frame hframe scope id hscope hid).grows hg

theorem withScopes (h : s.Sound) {scopes : ScopeStack} (hscopes : scopes.Typed s.store) :
    Session.Sound { s with scopes } :=
  ⟨h.store, hscopes, h.selves⟩

/-- A field of an object may receive a value that its type accepts. -/
theorem putField (h : s.Sound) {id : ObjectId} {name : String} {v : Value} {field : FieldInfo}
    (hfind : (s.store.classInfo (s.store.objectCell id).cls).fields.find? name = some field)
    (hstatic : field.isStatic = false) (hv : s.store.Typed field.ty v) :
    Session.Sound { s with store := s.store.putField id name v } :=
  h.withStore (s.store.grows_putField id name v) (h.store.putField hfind hstatic hv)

/-- Whatever a program can read is a value of the store. -/
theorem stored (h : s.Sound) {v : Value} (hv : s.Stores v) : s.store.Holds v := by
  cases hv with
  | named hv => exact h.slots.lookup hv
  | @item id hv =>
      cases hcell : s.store.arrays[id]? with
      | some cell =>
          rw [Store.arrayCell, hcell] at hv
          exact (h.store.arrays id cell hcell v hv).holds
      | none =>
          rw [Store.arrayCell, hcell] at hv
          exact absurd hv (Array.not_mem_empty v)
  | @field id name hv =>
      cases hcell : s.store.objects[id]? with
      | some cell =>
          rw [Store.objectCell, hcell] at hv
          have hentry := Table.mem_entries_of_find? hv
          obtain ⟨_, -, -, htyped⟩ := (h.store.objects id cell hcell).fields name v hentry
          exact htyped.holds
      | none =>
          rw [Store.objectCell, hcell] at hv
          cases hv
  | @static cls name hv =>
      obtain ⟨holder, -, hfind⟩ := Option.bind_eq_some_iff.mp hv
      exact (h.store.classInfo holder).statics name v hfind

end Session.Sound

/-! ## The discipline of types -/

namespace Discipline

/-- Values are values of the store, and everything is of its type. -/
def typing : Discipline where
  Inv := Session.Sound
  Val := Store.Holds
  Err st cause := ∀ v, cause = .thrown v → st.Holds v
  Cls st cls := cls < st.classes.size
  Init st cls field := cls < st.classes.size ∧
    (st.classInfo cls).fields.find? field.name = some field ∧
    ∀ v, field.init = .value v → st.Holds v
  Meth := Store.MethodSound

theorem typing_laws : typing.Laws where
  val_grows hg hv := hv.grows hg
  err_grows hg herr v hv := (herr v hv).grows hg
  cls_grows hg hcls := hg.lt_size hcls
  init_grows hg hinit := by
    obtain ⟨hcls, hfind, hvalue⟩ := hinit
    refine ⟨hg.lt_size hcls, ?_, fun v hv => (hvalue v hv).grows hg⟩
    rw [hg.fields hcls]
    exact hfind
  meth_grows hg hmethod := hmethod.grows hg
  val_plain hv := Store.holds_of_isPlain hv
  val_stored hs hv := hs.stored hv
  val_self {s scope id} hs hscope hid := by
    obtain ⟨frame, hframe, hmember⟩ := Option.bind_eq_some_iff.mp hscope
    exact hs.selves frame (List.mem_of_head? hframe) scope id hmember hid
  cls_named hs hname := hs.store.names _ _ hname
  init_field {s cls field} hs hcls hmem := by
    have hclass := hs.store.classInfo cls
    have hfind := hclass.mem_fields.mp hmem
    exact ⟨hcls, hfind, fun v => hclass.inits field.name field v hfind⟩
  init_value hinit hvalue := hinit.2.2 _ hvalue
  meth_found hs hfind := (hs.store.classInfo _).methods _ _ hfind
  err_ordinary hordinary v hv := by
    subst hv
    cases hordinary
  err_thrown := by
    refine ⟨fun h => h _ rfl, fun h v hv => ?_⟩
    obtain rfl := Cause.thrown.inj hv
    exact h
  native {s method run args} cls hs hmethod hbody hargs := by
    have hrun := hmethod run hbody s.store (.refl _) args hargs
    refine ⟨fun v hv => hrun.1 v (Store.callNative_ok hv).1, fun cause hcause v hv => ?_⟩
    subst hv
    rcases Store.callNative_error hcause with hordinary | herror
    · cases hordinary
    · exact hrun.2 v herror
  enter hs := hs.withScopes hs.slots.enter
  exit _ _ hs hexit := hs.withScopes (hs.slots.exit hexit)
  call {s frame} hs _ hself := by
    refine ⟨hs.store, hs.slots.enterIsolated, fun other hother scope id hscope hid => ?_⟩
    rcases List.mem_cons.mp hother with rfl | hother
    · exact (hself scope id hscope hid).1
    · exact hs.selves other hother scope id hscope hid
  finish _ _ hs hexit := by
    refine ⟨hs.store, hs.slots.exit hexit, fun frame hframe => ?_⟩
    exact hs.selves frame (List.mem_of_mem_tail hframe)
  declare {s name ty v isConst} hs hv hok :=
    hs.withScopes (hs.slots.bind name ⟨hv, (s.scopes.declarable_answers _ _ _ _).of_ok hok⟩)
  assign {s name v slot} hs hv hok := by
    obtain ⟨old, hold, -, haccepts⟩ := (s.scopes.assignable_answers _ _ _).of_ok hok
    exact hs.withScopes (hs.slots.write hold ⟨hv, haccepts⟩)
  newArray {s element items} hs hitems := by
    have hsound := hs.store.newArray fun v hv => ⟨(hitems v hv).1, (hitems v hv).2⟩
    refine ⟨hs.withStore (s.store.grows_newArray element items) hsound, ?_⟩
    show s.store.arrays.size < (s.store.arrays.push _).size
    simp
  putItem {s target index v id position} hs hv hok := by
    have haccepts := (s.store.itemTarget_answers target index v).of_ok hok
    exact hs.withStore (s.store.grows_putItem id position v)
      (hs.store.putItem position ⟨hv, haccepts⟩)
  newObject {s cls} hs hcls := by
    refine ⟨hs.withStore (s.store.grows_newObject cls) (hs.store.newObject hcls), ?_⟩
    show s.store.objects.size < (s.store.objects.push _).size
    simp
  initField {s cls field self v} _ hs hinit hstatic hself hv haccepts :=
    hs.putField (hself ▸ hinit.2.1) hstatic ⟨hv, haccepts⟩
  writeField {s id name v} hs hv hok := by
    obtain ⟨field, hfind, hstatic, haccepts⟩ := (s.checkFieldWrite_answers id name v).of_ok hok
    exact hs.putField hfind hstatic ⟨hv, haccepts⟩
  enroll {s info} hs hinfo _ := by
    refine ⟨hs.withStore (s.store.grows_enrollClass info)
      (hs.store.enrollClass (hs.store.built hinfo.built)), ?_⟩
    show s.store.classes.size < (s.store.classes.push info).size
    simp
  initStatic {s cls _ field v} hs _ _ _ _ hv _ :=
    hs.withStore (s.store.grows_putStatic cls field.name v) (hs.store.putStatic cls field.name hv)
  writeStatic {s cls name v holder} hs hv _ :=
    hs.withStore (s.store.grows_putStatic holder name v) (hs.store.putStatic holder name hv)
  functions hs := ⟨hs.store, hs.slots, hs.selves⟩
  console hs := ⟨hs.store, hs.slots, hs.selves⟩
  included hs := ⟨hs.store, hs.slots, hs.selves⟩

end Discipline

/-! ## Results of calls -/

theorem callResult_accepts {name : String} {returnType : Ty} {signal : Signal} {st : Store}
    {v : Value} (h : callResult name returnType signal st = .ok v) :
    st.accepts returnType v = true := by
  have hchecked (w : Value) (hw : (do st.check returnType w; .ok w : Except Cause Value) = .ok v) :
      st.accepts returnType v = true := by
    cases hcheck : st.check returnType w with
    | error cause =>
        rw [hcheck] at hw
        cases hw
    | ok _ =>
        rw [hcheck] at hw
        cases hw
        exact st.check_ok hcheck
  unfold callResult at h
  cases signal with
  | normal =>
      dsimp only at h
      split at h
      · next hvoid =>
          cases h
          rw [hvoid]
          rfl
      · cases h
  | breakLoop | continueLoop | thrown _ => cases h
  | returned result =>
      cases result with
      | some w =>
          dsimp only at h
          split at h
          · cases h
          · exact hchecked w h
      | none =>
          dsimp only at h
          split at h
          · next hvoid =>
              cases h
              rw [hvoid]
              rfl
          · exact hchecked .void h

namespace Interpreter

variable {run : Interpreter} {args : List Value} {line : Nat} {s s' : Session} {v : Value}

/-- A finished call of a function returns a value of the return type. -/
theorem callFunction_accepts {decl : FunctionDecl} {frame : CallFrame}
    (h : run.callFunction decl frame args line s = .ok v s') :
    s'.store.accepts decl.returnType v = true := by
  obtain ⟨_, s₁, -, h₁⟩ := Action.ok_of_bind h
  obtain ⟨signal, s₂, -, h₂⟩ := Action.ok_of_bind h₁
  obtain ⟨rfl, hresult⟩ := Eval.ok_of_ask h₂
  exact callResult_accepts hresult

/-- A finished call of a method returns a value of the type that its body was declared with. -/
theorem invoke_accepts {cls : ClassId} {method : MethodInfo} {self : Option ObjectId}
    (h : run.invoke cls method self args line s = .ok v s') :
    (∀ decl, method.body = .user decl → s'.store.accepts decl.returnType v = true) ∧
      ∀ native, method.body = .native native →
        s'.store.accepts method.returnType v = true := by
  unfold invoke at h
  cases hbody : method.body with
  | user decl =>
      rw [hbody] at h
      obtain ⟨frame, s₁, -, h₁⟩ := Action.ok_of_bind h
      refine ⟨fun decl' hdecl => ?_, nofun⟩
      obtain rfl := MethodBody.user.inj hdecl
      exact callFunction_accepts h₁
  | native native =>
      rw [hbody] at h
      obtain ⟨rfl, hnative⟩ := Eval.ok_of_ask h
      exact ⟨nofun, fun _ _ => (Store.callNative_ok hnative).2⟩
  | abstract => exact ⟨nofun, nofun⟩

end Interpreter

/-! ## Programs -/

/-- Variables, items and fields hold values that their types accept. -/
structure Session.WellTyped (s : Session) : Prop where
  slots : ∀ a ∈ s.scopes.current :: s.scopes.suspended, ∀ slot ∈ a.slots,
    s.store.accepts slot.ty slot.value = true
  items : ∀ (id : ArrayId) (cell : ArrayCell), s.store.arrays[id]? = some cell →
    ∀ v ∈ cell.items, s.store.accepts cell.element v = true
  fields : ∀ (id : ObjectId) (cell : ObjectCell), s.store.objects[id]? = some cell →
    ∀ name v, (name, v) ∈ cell.fields.entries →
      ∃ field, (s.store.classInfo cell.cls).fields.find? name = some field ∧
        field.isStatic = false ∧ s.store.accepts field.ty v = true

noncomputable instance : DecidablePred Session.WellTyped := Classical.decPred _

theorem Session.Sound.wellTyped {s : Session} (h : s.Sound) : s.WellTyped where
  slots a ha slot hslot := (h.slots a ha slot hslot).accepts
  items id cell hcell v hv := (h.store.arrays id cell hcell v hv).accepts
  fields id cell hcell name v hv := by
    obtain ⟨field, hfind, hstatic, htyped⟩ := (h.store.objects id cell hcell).fields name v hv
    exact ⟨field, hfind, hstatic, htyped.accepts⟩

/-- The sessions that a host and its programs bring about. The host starts with a sound store; at
any time it may add values and classes that fit, and replace the loader and the console. -/
inductive Session.Reachable : Session → Prop where
  | fresh {s : Session} (scopes : s.scopes = .start) (calls : s.calls = [])
      (store : s.store.Sound) : Reachable s
  | supplied {s : Session} (h : Reachable s) {st : Store} (grows : s.store.Grows st)
      (store : st.Sound) (loader : Loader) (console : Console) :
      Reachable { s with store := st, loader, console }
  | registered {s s' : Session} (h : Reachable s) {info : ClassInfo} {cls : ClassId}
      (sound : s.store.ClassSound info) (run : registerClass info s = .ok cls s') : Reachable s'
  | finished {s s' : Session} (h : Reachable s) {fuel : Nat} {program : Program}
      (run : runProgram fuel program s = .ok () s') : Reachable s'
  | failed {s s' : Session} (h : Reachable s) {fuel : Nat} {program : Program} {fault : Fault}
      (run : runProgram fuel program s = .error fault s') : Reachable s'

/-- Whatever a program does, it leaves a sound session. -/
theorem Session.Sound.runProgram {s : Session} (h : s.Sound) (fuel : Nat) (program : Program) :
    (runProgram fuel program s).Leaves Session.Sound := by
  have L := Discipline.typing_laws
  exact (L.execProgram_conforms (L.interpreter_runs fuel) h program).leaves

theorem Session.Reachable.sound {s : Session} (h : s.Reachable) : s.Sound := by
  induction h with
  | fresh hscopes hcalls hstore =>
      refine ⟨hstore, ?_, ?_⟩
      · rw [hscopes]
        exact .start _
      · rw [hcalls]
        exact fun _ hframe => absurd hframe List.not_mem_nil
  | supplied _ hgrows hstore _ _ ih =>
      have hsound := ih.withStore hgrows hstore
      exact ⟨hsound.store, hsound.slots, hsound.selves⟩
  | @registered s s' _ info cls hinfo hrun ih =>
      obtain ⟨_, s₁, hcheck, hadd⟩ := Action.ok_of_bind hrun
      obtain ⟨rfl, -⟩ := Eval.ok_of_ask hcheck
      cases hadd
      exact ih.withStore (s₁.store.grows_enrollClass info) (ih.store.enrollClass hinfo)
  | @finished s s' _ fuel program hrun ih =>
      have hleaves := ih.runProgram fuel program
      rw [hrun] at hleaves
      exact hleaves
  | @failed s s' _ fuel program fault hrun ih =>
      have hleaves := ih.runProgram fuel program
      rw [hrun] at hleaves
      exact hleaves

/-- Types are sound: whatever sequence of programs was run, successfully or not, everything is of
its type; it is so, too, whenever a part of the next program is run, so what any `other` interpreter
would do elsewhere makes no difference; and every finished call, whoever runs it in whatever
session, returns a value that its return type accepts. -/
theorem reachable_typed {s : Session} (h : s.Reachable) :
    s.WellTyped ∧
    (∀ fuel program other,
      (interpreterWithin Session.WellTyped other fuel).execProgram program s =
        runProgram fuel program s) ∧
    (∀ (run : Interpreter) decl frame args line s₁ s₂ v,
      run.callFunction decl frame args line s₁ = .ok v s₂ →
      s₂.store.accepts decl.returnType v = true) ∧
    ∀ (run : Interpreter) cls method self args line s₁ s₂ v,
      run.invoke cls method self args line s₁ = .ok v s₂ →
      (∀ decl, method.body = .user decl → s₂.store.accepts decl.returnType v = true) ∧
        ∀ native, method.body = .native native →
          s₂.store.accepts method.returnType v = true := by
  refine ⟨h.sound.wellTyped, fun fuel program other => ?_, ?_, ?_⟩
  · have L := Discipline.typing_laws
    have hruns := L.interpreterWithin_runs (fun s hs => Session.Sound.wellTyped hs) other fuel
    exact (L.execProgram_conforms hruns h.sound program).eq.symm
  · intro run decl frame args line s₁ s₂ v hcall
    exact Interpreter.callFunction_accepts hcall
  · intro run cls method self args line s₁ s₂ v hcall
    exact Interpreter.invoke_accepts hcall

/-- A program that makes an array and then throws it leaves everything of its type. -/
theorem reachable_typed_after_throw :
    let s := Session.start (fun _ => .error .unknownModule) []
    let a : VariableDecl :=
      { name := "a", ty := .array .int, length := none,
        initializer := some (.array [.literal (.int 1) 1] none 1), isConst := false, line := 1 }
    let program : Program := [.declare a, .throwValue (.var "a" 2) 2]
    s.Reachable ∧ ∃ fault s', runProgram 9 program s = .error fault s' ∧
      s'.store.arrays.size = 1 ∧ s'.WellTyped := by
  intro s a program
  have hfresh : s.Reachable := .fresh rfl rfl Store.sound_empty
  have hrun : runProgram 9 program s = .error _ _ := rfl
  exact ⟨hfresh, _, _, hrun, rfl, (reachable_typed (hfresh.failed hrun)).1⟩

end ClassScript
