import ClassScript.Grammar.Expression
import ClassScript.Proofs.Access.Uses

/-!
# Private members are sealed

A field or method that is private to a class can be read, written and called only by code of that
class. Other code evaluates the operands that come before the access, finds out in which class the
member is looked up, and fails there; it neither learns nor changes the value of the field, and the
body of the method does not start.
-/

namespace ClassScript

/-! ## Actions that are stopped -/

namespace Eval

variable {α β γ δ : Type}

/-- `y` begins with what `x` does and ends with it if `x` fails; if `x` arrives at what is
`forbidden`, `y` fails there and then. -/
def StopsAt (forbidden : α → Session → Prop) (line : Nat) (x : Eval α) (y : Eval β)
    (s : Session) : Prop :=
  match x s with
  | .ok a s' => forbidden a s' → ∃ cause, y s = .error { cause, line } s'
  | .error fault s' => y s = .error fault s'
  | .exhausted => y s = .exhausted

namespace StopsAt

variable {forbidden forbidden' : α → Session → Prop} {line : Nat} {x : Eval α} {y : Eval β}
  {s : Session}

theorem of_ok {a : α} {s' : Session} (hx : x s = .ok a s')
    (h : forbidden a s' → ∃ cause, y s = .error { cause, line } s') :
    StopsAt forbidden line x y s := by
  rw [StopsAt, hx]
  exact h

/-- Both begin with the same action. -/
protected theorem bind {first : Eval γ} {f : γ → Eval α} {g : γ → Eval β}
    (h : ∀ c s', first s = .ok c s' → StopsAt forbidden line (f c) (g c) s') :
    StopsAt forbidden line (first >>= f) (first >>= g) s := by
  cases hfirst : first s with
  | ok c s' =>
      have hrest := h c s' hfirst
      rw [StopsAt] at hrest ⊢
      rw [Action.bind_of_ok hfirst, Action.bind_of_ok hfirst]
      exact hrest
  | error fault s' =>
      rw [StopsAt, Action.bind_of_error hfirst, Action.bind_of_error hfirst]
  | exhausted =>
      rw [StopsAt, Action.bind_of_exhausted hfirst, Action.bind_of_exhausted hfirst]

/-- What would follow the second action does not matter, for it is stopped before. -/
theorem bind_right (h : StopsAt forbidden line x y s) (g : β → Eval δ) :
    StopsAt forbidden line x (y >>= g) s := by
  rw [StopsAt] at h ⊢
  cases hx : x s with
  | ok a s' =>
      rw [hx] at h
      intro hforbidden
      obtain ⟨cause, hy⟩ := h hforbidden
      exact ⟨cause, Action.bind_of_error hy⟩
  | error fault s' =>
      rw [hx] at h
      exact Action.bind_of_error h
  | exhausted =>
      rw [hx] at h
      exact Action.bind_of_exhausted h

theorem mono (h : StopsAt forbidden line x y s)
    (himp : ∀ a s', x s = .ok a s' → forbidden' a s' → forbidden a s') :
    StopsAt forbidden' line x y s := by
  rw [StopsAt] at h ⊢
  cases hx : x s with
  | ok a s' =>
      rw [hx] at h
      exact fun hforbidden => h (himp a s' hx hforbidden)
  | error fault s' =>
      rw [hx] at h
      exact h
  | exhausted =>
      rw [hx] at h
      exact h

end StopsAt

end Eval

/-! ## Refused look-ups -/

namespace Session

variable {s : Session} {cls : ClassId} {name owner : String}

theorem checkAccess_refused (hout : s.mayAccess .ownerOnly owner = false) (member : String) :
    s.checkAccess cls member .ownerOnly owner =
      .error (.privateAccess (s.store.className cls) member) := by
  rw [checkAccess, hout]
  rfl

section Field

variable {field : FieldInfo} (hfind : (s.store.classInfo cls).fields.find? name = some field)
  (haccess : field.access = .ownerOnly) (hout : s.mayAccess .ownerOnly field.owner = false)

include hfind haccess hout

theorem staticField_refused : ∃ cause, s.staticField cls name = .error cause := by
  have hfield : s.findField cls name = .ok field := by rw [findField, hfind]
  rw [staticField, hfield]
  by_cases hstatic : field.isStatic = true
  · refine ⟨.privateAccess (s.store.className cls) name, ?_⟩
    simp only [bind, Except.bind, hstatic, if_true, haccess, checkAccess_refused hout]
  · refine ⟨.instanceAccess (s.store.className cls) name, ?_⟩
    simp only [bind, Except.bind, hstatic]
    rfl

theorem instanceField_refused : ∃ cause, s.instanceField cls name = .error cause := by
  have hfield : s.findField cls name = .ok field := by rw [findField, hfind]
  rw [instanceField, hfield]
  by_cases hstatic : field.isStatic = true
  · refine ⟨.staticAccess (s.store.className cls) name, ?_⟩
    simp only [bind, Except.bind, hstatic, if_true]
  · refine ⟨.privateAccess (s.store.className cls) name, ?_⟩
    simp only [bind, Except.bind, hstatic, haccess, checkAccess_refused hout]
    rfl

theorem readStatic_refused : ∃ cause, s.readStatic cls name = .error cause := by
  obtain ⟨cause, hrefused⟩ := staticField_refused hfind haccess hout
  refine ⟨cause, ?_⟩
  rw [readStatic, hrefused]
  rfl

theorem staticTarget_refused (value : Value) :
    ∃ cause, s.staticTarget cls name value = .error cause := by
  obtain ⟨cause, hrefused⟩ := staticField_refused hfind haccess hout
  refine ⟨cause, ?_⟩
  rw [staticTarget, hrefused]
  rfl

theorem writeStatic_refused (value : Value) (line : Nat) :
    ∃ cause, Eval.writeStatic cls name value line s = .error { cause, line } s := by
  obtain ⟨cause, hrefused⟩ := staticTarget_refused hfind haccess hout value
  exact ⟨cause, Action.bind_of_error (Eval.ask_of_error hrefused line)⟩

end Field

section Object

variable {id : ObjectId} {field : FieldInfo}
  (hfind : (s.store.classInfo (s.objectClass id)).fields.find? name = some field)
  (haccess : field.access = .ownerOnly) (hout : s.mayAccess .ownerOnly field.owner = false)

include hfind haccess hout

theorem readField_refused : ∃ cause, s.readField id name = .error cause := by
  obtain ⟨cause, hrefused⟩ := instanceField_refused hfind haccess hout
  refine ⟨cause, ?_⟩
  rw [readField, hrefused]
  rfl

theorem writeField_refused (value : Value) (line : Nat) :
    ∃ cause, Eval.writeField id name value line s = .error { cause, line } s := by
  obtain ⟨cause, hrefused⟩ := instanceField_refused hfind haccess hout
  refine ⟨cause, Action.bind_of_error (Eval.ask_of_error ?_ line)⟩
  rw [checkFieldWrite, hrefused]
  rfl

end Object

theorem findMethod_refused {method : MethodInfo}
    (hfind : (s.store.classInfo cls).methods.find? name = some method)
    (haccess : method.access = .ownerOnly) (hout : s.mayAccess .ownerOnly method.owner = false) :
    s.findMethod cls name = .error (.privateAccess (s.store.className cls) name) := by
  rw [findMethod, hfind]
  simp only [bind, Except.bind, haccess, checkAccess_refused hout]

/-- How a bare name that is no variable means a field. -/
theorem implicitReceiver?_eq_some {receiver : Receiver}
    (h : s.implicitReceiver? name = some receiver) :
    ∃ scope field, s.implicitField? name = some (scope, field) ∧
      (field.isStatic = true ∧ receiver = .ofClass scope.cls ∨
        field.isStatic = false ∧ scope.self = none ∧ receiver = .ofClass scope.cls ∨
        ∃ id, field.isStatic = false ∧ scope.self = some id ∧
          receiver = .ofValue (.object id)) := by
  obtain ⟨⟨scope, field⟩, himplicit, hreceiver⟩ := Option.map_eq_some_iff.mp h
  refine ⟨scope, field, himplicit, ?_⟩
  dsimp only at hreceiver
  cases hstatic : field.isStatic with
  | true =>
      rw [hstatic] at hreceiver
      exact .inl ⟨rfl, hreceiver.symm⟩
  | false =>
      cases hself : scope.self with
      | none =>
          rw [hstatic, hself] at hreceiver
          exact .inr (.inl ⟨rfl, rfl, hreceiver.symm⟩)
      | some id =>
          rw [hstatic, hself] at hreceiver
          exact .inr (.inr ⟨id, rfl, rfl, hreceiver.symm⟩)

/-- The member is private to `owner`, and the running code is not code of `owner`. -/
def Forbids (name : String) (use : Use) (owner : String) (receiver : Option Receiver)
    (s : Session) : Prop :=
  s.mayAccess .ownerOnly owner = false ∧ s.MeansPrivate receiver name use owner

theorem readImplicit_refused {receiver : Receiver}
    (hreceiver : s.implicitReceiver? name = some receiver)
    (h : Forbids name .read owner (some receiver) s) :
    ∃ cause, s.readImplicit name = .error cause := by
  obtain ⟨hout, _, ⟨⟩, cls, hcls, field, hfind, haccess, rfl⟩ := h
  obtain ⟨scope, entry, himplicit, hkind⟩ := implicitReceiver?_eq_some hreceiver
  rw [readImplicit, himplicit]
  rcases hkind with ⟨hstatic, rfl⟩ | ⟨hstatic, hself, rfl⟩ | ⟨id, hstatic, hself, rfl⟩
  · cases hcls
    dsimp only
    rw [if_pos hstatic]
    exact readStatic_refused hfind haccess hout
  · refine ⟨.instanceAccess (s.store.className scope.cls) name, ?_⟩
    simp only [hstatic, Session.receiver, hself]
    rfl
  · cases hcls
    simp only [hstatic, Session.receiver, hself]
    exact readField_refused hfind haccess hout

theorem writeImplicit_refused {receiver : Receiver}
    (hreceiver : s.implicitReceiver? name = some receiver)
    (h : Forbids name .read owner (some receiver) s) (value : Value) (line : Nat) :
    ∃ cause, Eval.writeImplicit name value line s = .error { cause, line } s := by
  obtain ⟨hout, _, ⟨⟩, cls, hcls, field, hfind, haccess, rfl⟩ := h
  obtain ⟨scope, entry, himplicit, hkind⟩ := implicitReceiver?_eq_some hreceiver
  rw [Eval.writeImplicit, Action.read_bind, himplicit]
  rcases hkind with ⟨hstatic, rfl⟩ | ⟨hstatic, hself, rfl⟩ | ⟨id, hstatic, hself, rfl⟩
  · cases hcls
    dsimp only
    rw [if_pos hstatic]
    exact writeStatic_refused hfind haccess hout value line
  · refine ⟨.instanceAccess (s.store.className scope.cls) name, ?_⟩
    dsimp only
    rw [hstatic]
    refine Action.bind_of_error (Eval.ask_of_error ?_ line)
    rw [Session.receiver, hself]
  · cases hcls
    have hid : s.receiver scope name = .ok id := by rw [Session.receiver, hself]
    obtain ⟨cause, hrefused⟩ := writeField_refused hfind haccess hout value line
    refine ⟨cause, ?_⟩
    dsimp only
    rw [hstatic]
    exact (Action.bind_of_ok (Eval.ask_of_ok hid line)).trans hrefused

end Session

/-! ## Every use is stopped -/

namespace Interpreter

open Eval Session

variable (run : Interpreter) (object : Expr) (name owner : String) (line : Nat) (s : Session)

theorem evalMember_stops :
    StopsAt (Forbids name .read owner) line (run.objectReceiver object)
      (run.evalMember object name line) s := by
  refine .bind fun found s₁ hread => ?_
  cases found with
  | some cls =>
      refine .of_ok rfl ?_
      rintro ⟨hout, _, ⟨⟩, _, ⟨⟩, field, hfind, haccess, rfl⟩
      obtain ⟨cause, hrefused⟩ := readStatic_refused hfind haccess hout
      exact ⟨cause, Eval.ask_of_error hrefused line⟩
  | none =>
      refine .bind fun value s₂ _ => .of_ok rfl ?_
      rintro ⟨hout, _, ⟨⟩, cls, hcls, field, hfind, haccess, rfl⟩
      cases value with
      | object id =>
          cases hcls
          obtain ⟨cause, hrefused⟩ := readField_refused hfind haccess hout
          have hasked : (do s₂.readField (← s₂.objectOf (.object id) name) name) =
            .error cause := hrefused
          exact ⟨cause, Eval.ask_of_error hasked line⟩
      -- Only an object has a class, and so a member that could be private.
      | _ => cases hcls

theorem writeMember_stops (e : Expr) (value : Value) :
    StopsAt (Forbids name (.write e) owner) line (run.objectReceiver object)
      (run.writeMember object name value line) s := by
  refine .bind fun found s₁ hread => ?_
  cases found with
  | some cls =>
      refine .of_ok rfl ?_
      rintro ⟨hout, _, ⟨⟩, _, ⟨⟩, field, hfind, haccess, rfl⟩
      exact writeStatic_refused hfind haccess hout value line
  | none =>
      refine .bind fun receiver s₂ _ => .of_ok rfl ?_
      rintro ⟨hout, _, ⟨⟩, cls, hcls, field, hfind, haccess, rfl⟩
      cases receiver with
      | object id =>
          cases hcls
          exact writeField_refused hfind haccess hout value line
      | _ => cases hcls

theorem evalMethodCall_stops (arguments : List Expr) :
    StopsAt (Forbids name (.call arguments) owner) line (run.objectReceiver object)
      (run.evalMethodCall object name arguments line) s := by
  refine .bind fun found s₁ hread => ?_
  cases found with
  | some cls =>
      refine .of_ok rfl ?_
      rintro ⟨hout, _, ⟨⟩, _, ⟨⟩, method, hfind, haccess, rfl⟩
      have hrefused := findMethod_refused hfind haccess hout
      refine ⟨.privateAccess (s₁.store.className cls) name, ?_⟩
      refine Action.bind_of_error (Eval.ask_of_error ?_ line)
      rw [hrefused]
      rfl
  | none =>
      refine .bind fun receiver s₂ _ => .of_ok rfl ?_
      rintro ⟨hout, _, ⟨⟩, cls, hcls, method, hfind, haccess, rfl⟩
      cases receiver with
      | object id =>
          cases hcls
          have hrefused := findMethod_refused hfind haccess hout
          refine ⟨.privateAccess (s₂.store.className (s₂.objectClass id)) name, ?_⟩
          have hobject : s₂.objectOf (.object id) name = .ok id := rfl
          refine (Action.bind_of_ok (Eval.ask_of_ok hobject line)).trans ?_
          rw [Action.read_bind]
          refine Action.bind_of_error (Eval.ask_of_error ?_ line)
          rw [hrefused]
          rfl
      | _ => cases hcls

theorem readName_stops :
    StopsAt (Forbids name .read owner) line (Action.read (·.bareReceiver? name .read))
      (Eval.ask line fun s => s.readName name) s := by
  refine .of_ok rfl ?_
  rintro ⟨hout, receiver, hreceiver, hprivate⟩
  dsimp only [bareReceiver?] at hreceiver
  split at hreceiver
  next => cases hreceiver
  next hvariable =>
      obtain ⟨cause, hrefused⟩ := readImplicit_refused hreceiver ⟨hout, receiver, rfl, hprivate⟩
      refine ⟨cause, ?_⟩
      rw [Option.not_isSome_iff_eq_none] at hvariable
      refine Eval.ask_of_error ?_ line
      rw [readName, hvariable, hrefused]

theorem writeName_stops (e : Expr) (value : Value) :
    StopsAt (Forbids name (.write e) owner) line (Action.read (·.bareReceiver? name (.write e)))
      (Eval.writeName name value line) s := by
  refine .of_ok rfl ?_
  rintro ⟨hout, receiver, hreceiver, hprivate⟩
  dsimp only [bareReceiver?] at hreceiver
  split at hreceiver
  next => cases hreceiver
  next hvariable =>
      obtain ⟨cause, hrefused⟩ :=
        writeImplicit_refused hreceiver ⟨hout, receiver, rfl, hprivate⟩ value line
      refine ⟨cause, ?_⟩
      rw [Eval.writeName, Action.read_bind, if_neg hvariable]
      exact hrefused

theorem callNamed_stops (arguments : List Expr) (args : List Value) :
    StopsAt (Forbids name (.call arguments) owner) line
      (Action.read (·.bareReceiver? name (.call arguments))) (run.callNamed name args line) s := by
  refine .of_ok rfl ?_
  rintro ⟨hout, receiver, hreceiver, hprivate⟩
  dsimp only [bareReceiver?] at hreceiver
  split at hreceiver
  next => cases hreceiver
  next hbuiltin =>
      obtain ⟨scope, hscope, rfl⟩ := Option.map_eq_some_iff.mp hreceiver
      obtain ⟨_, ⟨⟩, method, hfind, haccess, rfl⟩ := hprivate
      rw [Option.not_isSome_iff_eq_none] at hbuiltin
      refine ⟨.privateAccess (s.store.className scope.cls) name, ?_⟩
      rw [callNamed, hbuiltin]
      dsimp only
      rw [Action.read_bind, hscope]
      refine Action.bind_of_error ?_
      exact Eval.ask_of_error (findMethod_refused hfind haccess hout) line

/-- A use of a member goes as far as the receiver, and no further if the member is private to other
code. -/
theorem evalStep_stops (m : MemberRef) (use : Use) (expected : Option Ty) :
    StopsAt (Forbids m.name use owner) line (run.receiverOf m use)
      (run.evalStep (m.expr line use) expected) s := by
  obtain ⟨object, name⟩ := m
  cases object with
  | some object =>
      cases use with
      | read => exact run.evalMember_stops object name owner line s
      | write e =>
          refine .bind fun value s₁ _ => ?_
          exact (run.writeMember_stops object name owner line s₁ e value).bind_right _
      | call arguments => exact run.evalMethodCall_stops object name owner line s arguments
  | none =>
      cases use with
      | read => exact readName_stops name owner line s
      | write e =>
          refine .bind fun value s₁ _ => ?_
          exact (writeName_stops name owner line s₁ e value).bind_right _
      | call arguments =>
          refine .bind fun args s₁ _ => ?_
          exact run.callNamed_stops name owner line s₁ arguments args

/-- An update in place starts by reading the member. -/
theorem updated_stops (fuel : Nat) (m : MemberRef) (op : BinaryOp) (operand : Expr)
    (expected : Option Ty) :
    StopsAt (Forbids m.name .read owner) line ((interpreter fuel).receiverOf m .read)
      (evaluate (fuel + 3) (Grammar.updated m.target op operand line) expected) s := by
  have hread := (interpreter fuel).evalStep_stops owner line s m .read none
  have hvalue : StopsAt (Forbids m.name .read owner) line ((interpreter fuel).receiverOf m .read)
      ((interpreter (fuel + 1)).evalBinary (m.target.toExpr line) op operand line) s :=
    hread.bind_right _
  obtain ⟨object, name⟩ := m
  cases object with
  | some object => exact hvalue.bind_right _
  | none => exact hvalue.bind_right _

end Interpreter

/-! ## Private members -/

namespace Session

variable {s : Session} {owner : String}

theorem mayAccess_of_outside (h : ∀ scope, s.member? = some scope → scope.owner ≠ owner) :
    s.mayAccess .ownerOnly owner = false := by
  rw [Bool.eq_false_iff, Ne, mayAccess_ownerOnly, Option.map_eq_some_iff]
  rintro ⟨scope, hmember, howner⟩
  exact h scope hmember howner

/-- The calls in progress say on whose behalf code runs. -/
theorem mayAccess_of_calls {s' : Session} (h : s'.calls = s.calls) :
    s'.mayAccess .ownerOnly owner = s.mayAccess .ownerOnly owner := by
  rw [Bool.eq_iff_iff, mayAccess_ownerOnly, mayAccess_ownerOnly, member?_of_calls h]

end Session

/-- From code that is not code of `owner`, every use of a member that is private to `owner` fails,
at the very moment when its receiver is known. Nothing more has happened then than the evaluation
of the operands before, and no other way to run bodies of methods and constructors could change
this. An update in place fails as soon as it would read the member. -/
theorem private_members_sealed {s : Session} {owner : String}
    (h : ∀ scope, s.member? = some scope → scope.owner ≠ owner) (fuel : Nat) (m : MemberRef)
    (line : Nat) (expected : Option Ty) :
    (∀ use exec construct,
      Eval.StopsAt (fun receiver s' => s'.MeansPrivate receiver m.name use owner) line
        ((interpreter fuel).receiverOf m use)
        ({ interpreter fuel with exec, construct }.evalStep (m.expr line use) expected) s) ∧
    (∀ use,
      Eval.StopsAt (fun receiver s' => s'.MeansPrivate receiver m.name use owner) line
        ((interpreter fuel).receiverOf m use)
        (evaluate (fuel + 1) (m.expr line use) expected) s) ∧
    ∀ op operand,
      Eval.StopsAt (fun receiver s' => s'.MeansPrivate receiver m.name .read owner) line
        ((interpreter fuel).receiverOf m .read)
        (evaluate (fuel + 3) (Grammar.updated m.target op operand line) expected) s := by
  have hout := Session.mayAccess_of_outside h
  have hforbids {use : Use} {receiver : Option Receiver} {s' : Session}
      (hreceiver : (interpreter fuel).receiverOf m use s = .ok receiver s')
      (hprivate : s'.MeansPrivate receiver m.name use owner) :
      Session.Forbids m.name use owner receiver s' := by
    have hcalls := Interpreter.calls_of_receiverOf hreceiver
    exact ⟨(Session.mayAccess_of_calls hcalls).trans hout, hprivate⟩
  refine ⟨?_, ?_, ?_⟩
  · intro use exec construct
    have hstops := { interpreter fuel with exec, construct }.evalStep_stops owner line s m use
      expected
    have hsame : { interpreter fuel with exec, construct }.receiverOf m use =
        (interpreter fuel).receiverOf m use := by
      apply Interpreter.receiverOf_congr
      rfl
    rw [hsame] at hstops
    exact hstops.mono fun _ _ => hforbids
  · intro use
    have hstops := (interpreter fuel).evalStep_stops owner line s m use expected
    exact hstops.mono fun _ _ => hforbids
  · intro op operand
    have hstops := Interpreter.updated_stops owner line s fuel m op operand expected
    exact hstops.mono fun _ _ => hforbids

/-- At the top level, a private static field cannot be read through its class. -/
theorem private_members_sealed_top_level :
    let field : FieldInfo :=
      { name := "x", ty := .int, access := .ownerOnly, isStatic := true, isConst := false,
        accessors := { getter := false, setter := false }, owner := "P", init := .value (.int 1) }
    let info : ClassInfo :=
      { ClassInfo.blank "P" with
        fields := Table.empty.insert "x" field
        statics := Table.empty.insert "x" (.int 1) }
    let s : Session :=
      { Session.start (fun _ => .error .unknownModule) [] with
        store := (Store.empty.enrollClass info).2 }
    let m : MemberRef := { object := some (.var "P" 1), name := "x" }
    (∀ scope, s.member? = some scope → scope.owner ≠ "P") ∧
      s.MeansPrivate (some (.ofClass 0)) "x" .read "P" ∧
      ∃ cause, evaluate 1 (m.expr 1 .read) none s = .error { cause, line := 1 } s := by
  intro field info s m
  have hout : ∀ scope, s.member? = some scope → scope.owner ≠ "P" := nofun
  have hprivate : s.MeansPrivate (some (.ofClass 0)) "x" .read "P" :=
    ⟨.ofClass 0, rfl, 0, rfl, field, rfl, rfl, rfl⟩
  have hreceiver : (interpreter 0).receiverOf m .read s = .ok (some (.ofClass 0)) s := rfl
  obtain ⟨-, hstops, -⟩ := private_members_sealed hout 0 m 1 none
  have hread := hstops .read
  rw [Eval.StopsAt, hreceiver] at hread
  exact ⟨hout, hprivate, hread hprivate⟩

end ClassScript
