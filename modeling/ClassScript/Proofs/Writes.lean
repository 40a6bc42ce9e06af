import ClassScript.Proofs.Declaring
import ClassScript.Proofs.Locations
import ClassScript.Proofs.Typing.Soundness

/-!
# Writes

Every operation that changes variables, cells, classes or functions first asks all its questions and
then makes its change, in one step that cannot fail. So it does all or nothing. An assignment puts
its value at the one location that its destination reads, and changes nothing else; in a program it
does so after its operands have been evaluated.
-/

namespace ClassScript

/-! ## All or nothing -/

namespace Eval

variable {α β : Type} {x : Eval α} {f : α → Eval β}

/-- An error leaves the session as it was. -/
def AllOrNothing (x : Eval α) : Prop :=
  ∀ s, match x s with
    | .ok _ _ => True
    | .error _ s' => s' = s
    | .exhausted => False

namespace AllOrNothing

theorem raise (cause : Cause) (line : Nat) : AllOrNothing (Eval.raise cause line : Eval α) :=
  fun _ => rfl

theorem update (change : Session → Session) : AllOrNothing (Action.update change) :=
  fun _ => trivial

theorem readThen {look : Session → α} (h : ∀ a, AllOrNothing (f a)) :
    AllOrNothing (Action.read look >>= f) :=
  fun s => h (look s) s

/-- A question before it changes nothing. -/
theorem askThen {question : Session → Except Cause α} {line : Nat} (h : ∀ a, AllOrNothing (f a)) :
    AllOrNothing (ask line question >>= f) := by
  intro s
  cases hquestion : question s with
  | ok a =>
      rw [Action.bind_of_ok (ask_of_ok hquestion line)]
      exact h a s
  | error cause =>
      rw [Action.bind_of_error (ask_of_error hquestion line)]

end AllOrNothing

/-! ## Operations on scopes and on the store -/

section Operations

/-- Ends with a new session or with the reason why there is none. -/
def commit (line : Nat) (s : Session) : Except Cause Session → Outcome Session Fault Unit
  | .ok s' => .ok () s'
  | .error cause => .error { cause, line } s

theorem AllOrNothing.of_commit {x : Eval Unit} {line : Nat}
    {change : Session → Except Cause Session} (h : ∀ s, x s = commit line s (change s)) :
    AllOrNothing x := by
  intro s
  rw [h s]
  cases change s with
  | ok s' => trivial
  | error cause => rfl

variable (line : Nat) (s : Session)

theorem declareVariable_eq (name : String) (ty : Ty) (v : Value) (isConst : Bool) :
    declareVariable name ty v isConst line s =
      commit line s ((s.scopes.declare s.store name ty v isConst).map fun scopes =>
        { s with scopes }) := by
  rw [ScopeStack.declare]
  cases h : s.scopes.declarable s.store name ty v with
  | ok _ => exact Action.bind_of_ok (ask_of_ok h line)
  | error cause => exact Action.bind_of_error (ask_of_error h line)

theorem assignVariable_eq (name : String) (v : Value) :
    assignVariable name v line s =
      commit line s ((s.scopes.set s.store name v).map fun scopes => { s with scopes }) := by
  rw [ScopeStack.set]
  cases h : s.scopes.assignable s.store name v with
  | ok _ => exact Action.bind_of_ok (ask_of_ok h line)
  | error cause => exact Action.bind_of_error (ask_of_error h line)

theorem exitScope_eq :
    exitScope line s = commit line s (s.scopes.exit.map fun scopes => { s with scopes }) := by
  rw [exitScope]
  cases s.scopes.exit <;> rfl

theorem assignItem_eq (target : Value) (index : Int64) (v : Value) :
    assignItem target index v line s =
      commit line s ((s.store.setItem target index v).map fun store => { s with store }) := by
  rw [Store.setItem]
  have hask {result : Except Cause (ArrayId × Nat)}
      (h : s.store.itemTarget target index v = result) :
      (fun t : Session => t.store.itemTarget target index v) s = result := h
  cases h : s.store.itemTarget target index v with
  | ok found => exact Action.bind_of_ok (ask_of_ok (hask h) line)
  | error cause => exact Action.bind_of_error (ask_of_error (hask h) line)

theorem writeStatic_eq (cls : ClassId) (name : String) (v : Value) :
    writeStatic cls name v line s =
      commit line s ((do
        let field ← s.staticField cls name
        s.checkWrite cls field name v
        (s.store.setStatic? cls name v).elim (.error (s.unknownMember cls name)) .ok).map
          fun store => { s with store }) := by
  rw [← Session.staticTarget_map]
  cases h : s.staticTarget cls name v with
  | ok _ => exact Action.bind_of_ok (ask_of_ok h line)
  | error cause => exact Action.bind_of_error (ask_of_error h line)

theorem declareClassInfo_eq (info : ClassInfo) :
    (declareClassInfo info line >>= fun _ => pure ()) s =
      commit line s ((s.store.declareClass info).map fun added => { s with store := added.2 }) := by
  rw [Store.declareClass]
  cases h : s.store.checkClassName info.name with
  | ok _ => exact Action.bind_of_ok (Session.declareClassInfo_of_free h line)
  | error cause => exact Action.bind_of_error (Session.declareClassInfo_of_taken h line)

end Operations

end Eval

/-! ## Destinations -/

/-- Where an assignment writes, once its operands are evaluated. -/
inductive Destination where
  /-- The variable of this name. -/
  | visible (name : String)
  /-- A bare name: the variable, or else the field of the running class. -/
  | bare (name : String)
  | item (target : Value) (index : Int64)
  | field (receiver : Value) (name : String)
  | static (cls : ClassId) (name : String)

namespace Destination

def write (v : Value) (line : Nat) : Destination → Eval Unit
  | .visible name => Eval.assignVariable name v line
  | .bare name => Eval.writeName name v line
  | .item target index => Eval.assignItem target index v line
  | .field receiver name => do
      let id ← Eval.ask line fun s => s.objectOf receiver name
      Eval.writeField id name v line
  | .static cls name => Eval.writeStatic cls name v line

/-- The same thing as it is read. -/
def reading (s : Session) : Destination → Except Cause Reading
  | .visible name => .ok (.visible s.scopes.current.block name)
  | .bare name => s.meaning name
  | .item (.array id) index => .ok (.item id index)
  | .item target _ => .error (.notIndexable (s.store.typeOf target))
  | .field receiver name => do .ok (.field (← s.objectOf receiver name) name)
  | .static cls name => .ok (.static cls name)

/-- The object that is written to is one of the store. -/
def Held (s : Session) : Destination → Prop
  | .bare _ => ∀ scope id, s.member? = some scope → scope.self = some id →
      s.store.Holds (.object id)
  | .field receiver _ => s.store.Holds receiver
  | .visible _ | .item .. | .static .. => True

theorem allOrNothing_writeStatic (cls : ClassId) (name : String) (v : Value) (line : Nat) :
    (Eval.writeStatic cls name v line).AllOrNothing :=
  .of_commit fun s => Eval.writeStatic_eq line s cls name v

theorem allOrNothing_writeField (id : ObjectId) (name : String) (v : Value) (line : Nat) :
    (Eval.writeField id name v line).AllOrNothing :=
  .askThen fun _ => .update _

theorem allOrNothing_writeImplicit (name : String) (v : Value) (line : Nat) :
    (Eval.writeImplicit name v line).AllOrNothing := by
  refine .readThen fun found => ?_
  rcases found with _ | ⟨scope, field⟩
  · exact .raise _ line
  · by_cases hstatic : field.isStatic = true
    · simp only [hstatic, if_true]
      exact allOrNothing_writeStatic scope.cls name v line
    · simp only [hstatic, Bool.false_eq_true, if_false]
      exact .askThen fun id => allOrNothing_writeField id name v line

theorem allOrNothing_assignVariable (name : String) (v : Value) (line : Nat) :
    (Eval.assignVariable name v line).AllOrNothing :=
  .of_commit fun s => Eval.assignVariable_eq line s name v

theorem allOrNothing_write (d : Destination) (v : Value) (line : Nat) :
    (d.write v line).AllOrNothing := by
  cases d with
  | visible name => exact allOrNothing_assignVariable name v line
  | bare name =>
      refine .readThen fun found => ?_
      by_cases hfound : found = true
      · simp only [hfound, if_true]
        exact allOrNothing_assignVariable name v line
      · simp only [hfound, Bool.false_eq_true, if_false]
        exact allOrNothing_writeImplicit name v line
  | item target index => exact .of_commit fun s => Eval.assignItem_eq line s target index v
  | field receiver name => exact .askThen fun id => allOrNothing_writeField id name v line
  | static cls name => exact allOrNothing_writeStatic cls name v line

end Destination

/-! ## What a write does -/

namespace Session

variable {s s' : Session} {v : Value} {line : Nat} {name : String}

/-- The value was put at the location to which the reading leads. -/
def Puts (s : Session) (r : Reading) (v : Value) (s' : Session) : Prop :=
  ∃ loc, r.location? s = some loc ∧ s.Has loc ∧ s' = s.put loc v

theorem slotOf?_of_assignable {scopes : ScopeStack} {st : Store} {id : Nat}
    (h : scopes.assignable st name v = .ok id) : scopes.slotOf? name = some id := by
  have hanswers : Answers (fun id => scopes.slotOf? name = some id)
      (scopes.assignable st name v) := by
    rw [ScopeStack.assignable]
    cases hslot : scopes.slotOf? name with
    | none => rfl
    | some id =>
        dsimp only
        split
        next => rfl
        next slot _ =>
            split
            next => rfl
            next => exact (st.check_answers slot.ty v).bind fun _ _ => rfl
  exact hanswers.of_ok h

theorem puts_of_assignVariable (h : Eval.assignVariable name v line s = .ok () s') :
    Puts s (.visible s.scopes.current.block name) v s' ∧ (s.scopes.lookup? name).isSome = true := by
  obtain ⟨id, s₁, hask, hput⟩ := Action.ok_of_bind h
  obtain ⟨rfl, hassignable⟩ := Eval.ok_of_ask hask
  cases hput
  obtain ⟨slot, hslot, -⟩ := (s₁.scopes.assignable_answers _ _ _).of_ok hassignable
  have hid := slotOf?_of_assignable hassignable
  refine ⟨⟨.slot id, ?_, (Array.getElem?_eq_some_iff.mp hslot).1, rfl⟩, ?_⟩
  · exact congrArg (Option.map Location.slot) hid
  · rw [ScopeStack.lookup?, hid]
    simp [hslot]

theorem puts_of_writeStatic {cls : ClassId} (h : Eval.writeStatic cls name v line s = .ok () s') :
    Puts s (.static cls name) v s' := by
  obtain ⟨holder, htarget, rfl⟩ := Session.writeStatic_ok h
  obtain ⟨hholder, -⟩ := Session.staticTarget_ok htarget
  have hcontains := List.find?_some hholder
  exact ⟨.static holder name, congrArg (Option.map (Location.static · name)) hholder, hcontains,
    rfl⟩

theorem puts_of_writeField {id : ObjectId} (hid : s.store.Holds (.object id))
    (h : Eval.writeField id name v line s = .ok () s') : Puts s (.field id name) v s' := by
  obtain ⟨_, s₁, hask, hput⟩ := Action.ok_of_bind h
  obtain ⟨rfl, -⟩ := Eval.ok_of_ask hask
  cases hput
  exact ⟨.field id name, rfl, hid, rfl⟩

/-- The field of the running class is static, or it is one of the receiver. -/
theorem puts_of_writeImplicit
    (hself : ∀ scope id, s.member? = some scope → scope.self = some id →
      s.store.Holds (.object id))
    (hlookup : s.scopes.lookup? name = none)
    (h : Eval.writeImplicit name v line s = .ok () s') :
    ∃ r, s.meaning name = .ok r ∧ Puts s r v s' := by
  rw [meaning, hlookup, Option.isSome_none, if_neg Bool.false_ne_true]
  rw [Eval.writeImplicit, Action.read_bind] at h
  rcases hfield : s.implicitField? name with _ | ⟨scope, field⟩
  · rw [hfield] at h
    cases h
  · rw [hfield] at h
    dsimp only at h ⊢
    by_cases hstatic : field.isStatic = true
    · rw [if_pos hstatic] at h ⊢
      exact ⟨_, rfl, puts_of_writeStatic h⟩
    · rw [if_neg hstatic] at h ⊢
      obtain ⟨id, s₁, hask, hwrite⟩ := Action.ok_of_bind h
      obtain ⟨rfl, hreceiver⟩ := Eval.ok_of_ask hask
      -- The receiver is the one of the running member, which is in the store.
      have hid := (s₁.receiver_answers scope name).of_ok hreceiver
      obtain ⟨found, hmember, hfound⟩ := Option.bind_eq_some_iff.mp hfield
      obtain ⟨other, -, heq⟩ := Option.bind_eq_some_iff.mp hfound
      obtain ⟨rfl, -⟩ := Prod.mk.inj (Option.some.inj heq)
      rw [hreceiver]
      exact ⟨_, rfl, puts_of_writeField (hself found id hmember hid) hwrite⟩

/-- A bare name leads to the variable, if there is one, and otherwise to the field. -/
theorem puts_of_writeName
    (hself : ∀ scope id, s.member? = some scope → scope.self = some id →
      s.store.Holds (.object id))
    (h : Eval.writeName name v line s = .ok () s') :
    ∃ r, s.meaning name = .ok r ∧ Puts s r v s' := by
  change (if s.scopes.contains name = true then Eval.assignVariable name v line
    else Eval.writeImplicit name v line) s = .ok () s' at h
  by_cases hcontains : s.scopes.contains name = true
  · rw [if_pos hcontains] at h
    obtain ⟨hputs, hlookup⟩ := puts_of_assignVariable h
    exact ⟨_, if_pos hlookup, hputs⟩
  · rw [if_neg hcontains] at h
    refine puts_of_writeImplicit hself ?_ h
    rw [ScopeStack.contains, Bool.not_eq_true, Option.isSome_eq_false_iff] at hcontains
    rw [ScopeStack.lookup?, Option.isNone_iff_eq_none.mp hcontains]
    rfl

/-- Only arrays have items to write to. -/
theorem puts_of_assignItem {target : Value} {index : Int64}
    (h : Eval.assignItem target index v line s = .ok () s') :
    ∃ id, target = .array id ∧ Puts s (.item id index) v s' := by
  obtain ⟨⟨id, position⟩, s₁, hask, hput⟩ := Action.ok_of_bind h
  obtain ⟨rfl, htarget⟩ := Eval.ok_of_ask hask
  cases hput
  have hanswers : Answers (fun found : ArrayId × Nat => target = .array found.1 ∧
      Word.position? index (s₁.store.arrayCell found.1).items.size = some found.2)
      (s₁.store.itemTarget target index v) := by
    cases target with
    | array array =>
        refine (s₁.store.check_answers _ v).bind fun _ _ => ?_
        cases hposition : Word.position? index (s₁.store.arrayCell array).items.size with
        | none =>
            rw [Store.position, hposition]
            rfl
        | some position =>
            rw [Store.position, hposition]
            exact ⟨rfl, hposition⟩
    | _ => rfl
  obtain ⟨rfl, hposition⟩ := hanswers.of_ok htarget
  have hlt := (Store.position_answers index _).of_ok
    (show Store.position index (s₁.store.arrayCell id).items.size = .ok position by
      rw [Store.position, hposition])
  exact ⟨id, rfl, .item id position, congrArg (Option.map (Location.item id)) hposition, hlt, rfl⟩

/-- A write that succeeds puts the value where its destination reads. -/
theorem puts_of_write {d : Destination} (hd : d.Held s) (h : d.write v line s = .ok () s') :
    ∃ r, d.reading s = .ok r ∧ Puts s r v s' := by
  cases d with
  | visible name => exact ⟨_, rfl, (puts_of_assignVariable h).1⟩
  | bare name => exact puts_of_writeName hd h
  | item target index =>
      obtain ⟨id, rfl, hputs⟩ := puts_of_assignItem h
      exact ⟨_, rfl, hputs⟩
  | field receiver name =>
      obtain ⟨id, s₁, hask, hwrite⟩ := Action.ok_of_bind h
      obtain ⟨rfl, hobject⟩ := Eval.ok_of_ask hask
      obtain rfl := (s₁.objectOf_answers receiver name).of_ok hobject
      exact ⟨_, rfl, puts_of_writeField hd hwrite⟩
  | static cls name => exact ⟨_, rfl, puts_of_writeStatic h⟩

/-- The value stands where the destination reads, and is read there whichever way is taken. Nothing
else differs, and names mean what they meant: those that lead there read the value, and the others
what they read before. -/
structure Writes (s : Session) (d : Destination) (loc : Location) (v : Value) (s' : Session) :
    Prop where
  leads : ∃ r, d.reading s = .ok r ∧ r.location? s = some loc
  written : s'.at? loc = some v
  others : ∀ other, other ≠ loc → s'.at? other = s.at? other
  rest : s'.without loc = s.without loc
  meanings : ∀ name, s'.meaning name = s.meaning name
  readings : ∀ r : Reading, r.location? s' = r.location? s ∧
    r.read s' = if r.location? s = some loc then (r.allowed s).map fun _ => v else r.read s
  names : ∀ name, s'.readName name = (s.meaning name).bind fun r =>
    if r.location? s = some loc then (r.allowed s).map fun _ => v else r.read s

theorem writes_of_write {d : Destination} (hd : d.Held s) (h : d.write v line s = .ok () s') :
    ∃ loc, s.Writes d loc v s' := by
  obtain ⟨r, hreading, loc, hloc, hhas, rfl⟩ := puts_of_write hd h
  exact ⟨loc, ⟨r, hreading, hloc⟩, at?_put_self hhas v,
    fun _ hne => at?_put_of_ne hhas v hne, s.without_put loc v,
    fun name => (aligned_put hhas v).meaning name, fun r => r.read_put hhas v,
    fun name => readName_put hhas v name⟩

end Session

/-! ## Assignments in programs -/

namespace Interpreter

/-- Evaluates the operands of an assignment. -/
def destination (run : Interpreter) (target : Target) (value : Expr) (line : Nat) :
    Eval (Destination × Value) := do
  match target with
  | .var name =>
    let value ← run.eval value none
    return (.bare name, value)
  | .index array position =>
    let array ← run.eval array none
    let position ← run.eval position none
    let index ← Eval.askStore line fun st => st.asInt position
    let value ← run.eval value none
    return (.item array index, value)
  | .member object name =>
    let value ← run.eval value none
    match ← Action.read (·.staticReceiver? object) with
    | some cls => return (.static cls name, value)
    | none =>
      let receiver ← run.eval object none
      return (.field receiver name, value)

/-- An assignment evaluates its operands and then writes. -/
theorem evalAssign_eq (run : Interpreter) (target : Target) (value : Expr) (line : Nat) :
    run.evalAssign target value line =
      run.destination target value line >>= fun (d, v) => d.write v line >>= fun _ => pure v := by
  cases target with
  | var name =>
      simp only [destination, Action.bind_assoc]
      rfl
  | index array position =>
      simp only [destination, Action.bind_assoc]
      rfl
  | member object name =>
      simp only [destination, Action.bind_assoc]
      refine congrArg (run.eval value none >>= ·) (funext fun v => funext fun s => ?_)
      rw [writeMember, Action.bind_assoc, Action.read_bind, Action.read_bind]
      cases s.staticReceiver? object with
      | some cls => rfl
      | none =>
          simp only [Action.bind_assoc]
          refine congrFun (congrArg (run.eval object none >>= ·) (funext fun receiver => ?_)) s
          exact (Action.bind_assoc _ _ _).symm

/-- In a sound session the operands are values of the store. -/
theorem destination_held {fuel : Nat} {s s' : Session} (hs : s.Sound) {target : Target}
    {value : Expr} {line : Nat} {d : Destination} {v : Value}
    (h : (interpreter fuel).destination target value line s = .ok (d, v) s') : d.Held s' := by
  have hruns := Discipline.typing_laws.interpreter_runs fuel
  cases target with
  | var name =>
      obtain ⟨w, s₁, hvalue, hdone⟩ := Action.ok_of_bind h
      cases hdone
      obtain ⟨-, hs', -⟩ := (hruns.eval hs value none).of_ok hvalue
      intro scope id hscope hid
      exact Discipline.typing_laws.val_self hs' hscope hid
  | index array position =>
      obtain ⟨a, s₁, -, h⟩ := Action.ok_of_bind h
      obtain ⟨p, s₂, -, h⟩ := Action.ok_of_bind h
      obtain ⟨i, s₃, -, h⟩ := Action.ok_of_bind h
      obtain ⟨w, s₄, -, hdone⟩ := Action.ok_of_bind h
      cases hdone
      trivial
  | member object name =>
      obtain ⟨w, s₁, hvalue, h⟩ := Action.ok_of_bind h
      obtain ⟨-, hs₁, -⟩ := (hruns.eval hs value none).of_ok hvalue
      rw [Action.read_bind] at h
      cases hstatic : s₁.staticReceiver? object with
      | some cls =>
          rw [hstatic] at h
          cases h
          trivial
      | none =>
          rw [hstatic] at h
          obtain ⟨receiver, s₂, hreceiver, hdone⟩ := Action.ok_of_bind h
          cases hdone
          exact ((hruns.eval hs₁ object none).of_ok hreceiver).2.2

end Interpreter

/-! ## All changes -/

/-- The operations that change variables, cells, classes and functions. -/
inductive StateChange where
  | assign (d : Destination) (v : Value)
  | declareVariable (name : String) (ty : Ty) (v : Value) (isConst : Bool)
  | exitScope
  | declareClass (info : ClassInfo)
  | declareFunction (decl : FunctionDecl)
  | declareInterface (decl : InterfaceDecl)
  | declareEnum (decl : EnumDecl)

namespace StateChange

def perform (line : Nat) : StateChange → Eval Unit
  | .assign d v => d.write v line
  | .declareVariable name ty v isConst => Eval.declareVariable name ty v isConst line
  | .exitScope => Eval.exitScope line
  | .declareClass info => do
      let _ ← declareClassInfo info line
      return ()
  | .declareFunction decl => ClassScript.declareFunction decl
  | .declareInterface decl => ClassScript.declareInterface decl
  | .declareEnum decl => ClassScript.declareEnum decl

theorem allOrNothing_declareClass (info : ClassInfo) (line : Nat) :
    (declareClassInfo info line >>= fun _ => pure ()).AllOrNothing :=
  .of_commit fun s => Eval.declareClassInfo_eq line s info

theorem allOrNothing_perform (change : StateChange) (line : Nat) :
    (change.perform line).AllOrNothing := by
  cases change with
  | assign d v => exact d.allOrNothing_write v line
  | declareVariable name ty v isConst =>
      exact .of_commit fun s => Eval.declareVariable_eq line s name ty v isConst
  | exitScope => exact .of_commit fun s => Eval.exitScope_eq line s
  | declareClass info => exact allOrNothing_declareClass info line
  | declareFunction decl => exact .askThen fun _ => .update _
  | declareInterface decl => exact allOrNothing_declareClass (.ofInterface decl) decl.line
  | declareEnum decl => exact .askThen fun info => allOrNothing_declareClass info decl.line

end StateChange

/-- Every change either fails and leaves the session as it was, or does its whole work; an
assignment then has written one location and nothing else. An assignment in a program is such a
change with what its operands evaluate to, on objects of the store. -/
theorem changes_all_or_nothing (line : Nat) (s : Session) :
    (∀ change : StateChange, match change.perform line s with
      | .ok () s' => ∀ d v, change = .assign d v → d.Held s → ∃ loc, s.Writes d loc v s'
      | .error _ s' => s' = s
      | .exhausted => False) ∧
    ∀ fuel target value, s.Sound →
      match (interpreter fuel).destination target value line s with
      | .ok (d, v) s₁ =>
          d.Held s₁ ∧ (interpreter fuel).evalAssign target value line s =
            ((StateChange.assign d v).perform line >>= fun _ => pure v) s₁
      | .error fault s₁ => (interpreter fuel).evalAssign target value line s = .error fault s₁
      | .exhausted => (interpreter fuel).evalAssign target value line s = .exhausted := by
  refine ⟨fun change => ?_, fun fuel target value hs => ?_⟩
  · have h := change.allOrNothing_perform line s
    cases hrun : change.perform line s with
    | ok _ s' =>
        rintro d v rfl hd
        exact Session.writes_of_write hd hrun
    | error fault s' =>
        rw [hrun] at h
        exact h
    | exhausted =>
        rw [hrun] at h
        exact h
  · rw [Interpreter.evalAssign_eq]
    cases hrun : (interpreter fuel).destination target value line s with
    | ok found s₁ => exact ⟨Interpreter.destination_held hs hrun, Action.bind_of_ok hrun⟩
    | error fault s₁ => exact Action.bind_of_error hrun
    | exhausted => exact Action.bind_of_exhausted hrun

/-- Two variables share an array: an item that is written under one name is read under the other. -/
theorem changes_all_or_nothing_shared :
    let a : VariableDecl :=
      { name := "a", ty := .array .int, length := none
        initializer := some (.array [.literal (.int 1) 1] none 1), isConst := false, line := 1 }
    let b : VariableDecl := { a with name := "b", initializer := some (.var "a" 1) }
    let d : Destination := .item (.array 0) 0
    ∃ s s', runProgram 9 [.declare a, .declare b] (.start (fun _ => .error .unknownModule) []) =
        .ok () s ∧
      (interpreter 9).evalAssign (.index (.var "a" 2) (.literal (.int 0) 2))
        (.literal (.int 7) 2) 2 s = .ok (.int 7) s' ∧
      (∃ loc, s.Writes d loc (.int 7) s') ∧
      evaluate 9 (.index (.var "b" 3) (.literal (.int 0) 3) 3) none s' = .ok (.int 7) s' := by
  intro a b d
  have hrun : runProgram 9 [.declare a, .declare b] (.start (fun _ => .error .unknownModule) []) =
      .ok () _ := rfl
  have hsound := ((Session.Reachable.fresh rfl rfl Store.sound_empty).finished hrun).sound
  obtain ⟨hchanges, hassigns⟩ := changes_all_or_nothing 2 _
  obtain ⟨hheld, hassign⟩ := hassigns 9 (.index (.var "a" 2) (.literal (.int 0) 2))
    (.literal (.int 7) 2) hsound
  exact ⟨_, _, hrun, hassign, hchanges (.assign d (.int 7)) d (.int 7) rfl hheld, rfl⟩

end ClassScript
