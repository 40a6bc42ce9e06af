import ClassScript.Proofs.Access.Frames
import ClassScript.Proofs.Access.Uses

/-!
# Bare names of members

In code of a class a bare name that is no variable means a member of the class of the receiver. It
does what the member does behind `this`, or behind the name of the class if the member is static,
although the two ways differ in when the member is looked up: `this.m(args)` finds the method before
the arguments are evaluated, `m(args)` finds it afterwards, and the class before the dot is looked
up again after the right side of an assignment. Whatever the operands do, they leave the frame, the
visible names and the tables of the class as they are.
-/

namespace ClassScript

/-! ## Members that a bare name may mean -/

/-- The bare name means a member of the class, static or not: no variable hides a field, and no
built-in function hides a method. A method must be accessible. -/
def Session.MeansMember (s : Session) (cls : ClassId) (name : String) (isStatic : Bool) :
    Use → Prop
  | .read | .write _ => s.scopes.contains name = false ∧
      ∃ field, (s.store.classInfo cls).fields.find? name = some field ∧ field.isStatic = isStatic
  | .call _ => Builtin.ofName? name = none ∧
      ∃ method, (s.store.classInfo cls).methods.find? name = some method ∧
        method.isStatic = isStatic ∧ s.mayAccess method.access method.owner = true

/-- In the session the two expressions give the same value or error and leave the same session
behind. With less fuel, an operand of theirs cannot be evaluated. -/
def Session.Equates (s : Session) (e e' : Expr) : Prop :=
  ∀ fuel expected, evaluate (fuel + 2) e expected s = evaluate (fuel + 2) e' expected s

/-- Reads a field of the object or, if there is none, a static field of the class. -/
def Session.readOf (s : Session) (cls : ClassId) (self : Option ObjectId) (name : String) :
    Except Cause Value :=
  match self with
  | some id => s.readField id name
  | none => s.readStatic cls name

/-- Writes a field of the object or, if there is none, a static field of the class. -/
def Eval.writeOf (cls : ClassId) (self : Option ObjectId) (name : String) (value : Value)
    (line : Nat) : Eval Unit :=
  match self with
  | some id => Eval.writeField id name value line
  | none => Eval.writeStatic cls name value line

/-- Uses a member of the class, on the object if there is one. -/
def Interpreter.useMember (run : Interpreter) (cls : ClassId) (self : Option ObjectId)
    (name : String) (line : Nat) : Use → Eval Value
  | .read => Eval.ask line fun s => s.readOf cls self name
  | .write e => do
    let value ← run.eval e none
    Eval.writeOf cls self name value line
    return value
  | .call arguments => do
    let args ← run.evalAll arguments
    let method ← Eval.ask line fun s => s.findMethod cls name
    run.invoke cls method self args line

/-! ## Operands change nothing about it -/

section Operands

variable {s s₁ : Session} {cls : ClassId} {name : String} {isStatic : Bool} {use : Use}

theorem ScopeStack.contains_of_keeps (hk : s.Keeps false s₁) (name : String) :
    s₁.scopes.contains name = s.scopes.contains name := by
  rw [contains, contains, slotOf?, slotOf?, hk.scopes.bindings rfl]

theorem ScopeStack.lookup?_of_hidden {scopes : ScopeStack} (h : scopes.contains name = false) :
    scopes.lookup? name = none := by
  rw [contains, Option.isSome_eq_false_iff, Option.isNone_iff_eq_none] at h
  rw [lookup?, h]
  rfl

theorem ClassInfo.HasMembers.lt_size {st : Store} (h : (st.classInfo cls).HasMembers) :
    cls < st.classes.size := by
  refine Nat.lt_of_not_le fun hge => ?_
  rw [Store.classInfo_of_le hge] at h
  rcases h with ⟨_, _, hfind⟩ | ⟨_, _, hfind⟩ <;> cases hfind

namespace Session.MeansMember

theorem hasMembers (h : s.MeansMember cls name isStatic use) :
    (s.store.classInfo cls).HasMembers := by
  cases use with
  | read | write _ =>
      obtain ⟨-, field, hfind, -⟩ := h
      exact .inl ⟨name, field, hfind⟩
  | call _ =>
      obtain ⟨-, method, hfind, -⟩ := h
      exact .inr ⟨name, method, hfind⟩

theorem keeps (h : s.MeansMember cls name isStatic use) (hk : s.Keeps false s₁) :
    s₁.MeansMember cls name isStatic use := by
  have hlt := h.hasMembers.lt_size
  cases use with
  | read | write _ =>
      rw [MeansMember, ScopeStack.contains_of_keeps hk, hk.store.fields hlt]
      exact h
  | call _ =>
      have hmethods := congrArg ClassInfo.methods (hk.store.shape hlt)
      change (s₁.store.classInfo cls).methods = (s.store.classInfo cls).methods at hmethods
      rw [MeansMember, hmethods]
      simp only [mayAccess, Session.member?_of_calls hk.calls]
      exact h

variable {arguments : List Expr}

theorem findMethod (h : s.MeansMember cls name isStatic (.call arguments)) :
    ∃ method, (s.store.classInfo cls).methods.find? name = some method ∧
      method.isStatic = isStatic ∧ s.findMethod cls name = .ok method := by
  obtain ⟨-, method, hfind, hstatic, haccess⟩ := h
  refine ⟨method, hfind, hstatic, ?_⟩
  rw [Session.findMethod, hfind]
  dsimp only
  rw [checkAccess, if_pos haccess]
  rfl

/-- After the arguments were evaluated, the same method is found. -/
theorem findMethod_of_keeps (h : s.MeansMember cls name isStatic (.call arguments))
    (hk : s.Keeps false s₁) : s₁.findMethod cls name = s.findMethod cls name := by
  obtain ⟨method, hfind, -, hfound⟩ := h.findMethod
  obtain ⟨method₁, hfind₁, -, hfound₁⟩ := (h.keeps hk).findMethod
  have hmethods := congrArg ClassInfo.methods (hk.store.shape h.hasMembers.lt_size)
  change (s₁.store.classInfo cls).methods = (s.store.classInfo cls).methods at hmethods
  rw [hmethods, hfind] at hfind₁
  obtain rfl := Option.some.inj hfind₁
  rw [hfound, hfound₁]

theorem askMethod_of_keeps (h : s.MeansMember cls name isStatic (.call arguments))
    (hk : s.Keeps false s₁) {method : MethodInfo} (hfound : s.findMethod cls name = .ok method)
    (line : Nat) : Eval.ask line (fun s => s.findMethod cls name) s₁ = .ok method s₁ :=
  Eval.ask_of_ok ((h.findMethod_of_keeps hk).trans hfound) line

end Session.MeansMember

end Operands

/-! ## The two ways -/

namespace Session

variable {s : Session} {scope : MemberScope} {self : Option ObjectId} {name : String}

/-- A bare name that means a field. -/
theorem readName_eq (hscope : s.member? = some scope)
    (hself : ∀ id, self = some id → scope.self = some id)
    (h : s.MeansMember scope.cls name self.isNone .read) :
    s.readName name = s.readOf scope.cls self name := by
  obtain ⟨hhidden, field, hfind, hstatic⟩ := h
  rw [readName, ScopeStack.lookup?_of_hidden hhidden]
  dsimp only
  rw [readImplicit, implicitField?_of_member hscope, hfind]
  dsimp only [Option.map_some]
  rw [hstatic]
  cases self with
  | none => rfl
  | some id =>
      rw [receiver_of_self (hself id rfl)]
      rfl

theorem writeName_eq (hscope : s.member? = some scope)
    (hself : ∀ id, self = some id → scope.self = some id) {e : Expr}
    (h : s.MeansMember scope.cls name self.isNone (.write e)) (v : Value) (line : Nat) :
    Eval.writeName name v line s = Eval.writeOf scope.cls self name v line s := by
  obtain ⟨hhidden, field, hfind, hstatic⟩ := h
  rw [Eval.writeName, Action.read_bind, hhidden, if_neg Bool.false_ne_true, Eval.writeImplicit,
    Action.read_bind, implicitField?_of_member hscope, hfind]
  dsimp only [Option.map_some]
  rw [hstatic]
  cases self with
  | none => rfl
  | some id =>
      rw [Option.isNone_some, if_neg Bool.false_ne_true,
        Action.bind_of_ok (Eval.ask_of_ok (receiver_of_self (hself id rfl) s name) line)]
      rfl

end Session

namespace Interpreter

variable {s : Session} {scope : MemberScope} {name : String} {use : Use}

theorem callNamed_eq {self : Option ObjectId} (run : Interpreter) (hscope : s.member? = some scope)
    (hself : ∀ id, self = some id → scope.self = some id) {arguments : List Expr}
    (h : s.MeansMember scope.cls name self.isNone (.call arguments)) (args : List Value)
    (line : Nat) :
    run.callNamed name args line s =
      (do let method ← Eval.ask line fun s => s.findMethod scope.cls name
          run.invoke scope.cls method self args line : Eval Value) s := by
  obtain ⟨method, hfind, hstatic, hfound⟩ := h.findMethod
  rw [callNamed, h.1]
  dsimp only
  rw [Action.read_bind, Session.ownMethodScope?_of_member hscope, hfind]
  dsimp only [Option.map_some]
  rw [callOwnMethod, Action.bind_of_ok (Eval.ask_of_ok hfound line),
    Action.bind_of_ok (Eval.ask_of_ok hfound line), hstatic]
  cases self with
  | none => rfl
  | some id =>
      rw [Option.isNone_some, if_neg Bool.false_ne_true,
        Action.bind_of_ok (Eval.ask_of_ok (Session.receiver_of_self (hself id rfl) s name) line)]

/-- The member is used by its bare name. -/
theorem bare_eq_useMember (self : Option ObjectId) (hscope : s.member? = some scope)
    (hself : ∀ id, self = some id → scope.self = some id)
    (h : s.MeansMember scope.cls name self.isNone use) (fuel line : Nat) (expected : Option Ty) :
    (interpreter fuel).evalStep (MemberRef.expr { object := none, name } line use) expected s =
      (interpreter fuel).useMember scope.cls self name line use s := by
  have hscope₁ {s₁ : Session} (hk : s.Keeps false s₁) : s₁.member? = some scope :=
    (Session.member?_of_calls hk.calls).trans hscope
  cases use with
  | read =>
      change Eval.ask line (fun s => s.readName name) s =
        Eval.ask line (fun s => s.readOf scope.cls self name) s
      rw [Eval.ask, Eval.ask, Session.readName_eq hscope hself h]
  | write e =>
      refine Action.bind_congr rfl fun v s₁ hv => ?_
      have hk := keeps_of_eval hv
      refine Action.bind_congr ?_ fun _ _ _ => rfl
      exact Session.writeName_eq (hscope₁ hk) hself (h.keeps hk) v line
  | call arguments =>
      refine Action.bind_congr rfl fun args s₁ hargs => ?_
      have hk := keeps_of_evalAll hargs
      exact callNamed_eq _ (hscope₁ hk) hself (h.keeps hk) args line

/-- The member is used through `this`. -/
theorem self_eq_useMember {id : ObjectId} (hscope : s.member? = some scope)
    (hself : scope.self = some id) (hobject : s.store.HasClass id scope.cls)
    (h : s.MeansMember scope.cls name false use) (fuel selfLine line : Nat)
    (expected : Option Ty) :
    (interpreter (fuel + 1)).evalStep
        (MemberRef.expr { object := some (.self selfLine), name } line use) expected s =
      (interpreter (fuel + 1)).useMember scope.cls (some id) name line use s := by
  have heval {s₁ : Session} (hk : s.Keeps false s₁) :
      (interpreter (fuel + 1)).eval (.self selfLine) none s₁ = .ok (.object id) s₁ :=
    eval_self_of_member ((Session.member?_of_calls hk.calls).trans hscope) hself fuel selfLine none
  cases use with
  | read =>
      change ((interpreter (fuel + 1)).eval (.self selfLine) none >>= _) s = _
      rw [Action.bind_of_ok (heval (.refl _ _))]
      rfl
  | write e =>
      refine Action.bind_congr rfl fun v s₁ hv => ?_
      refine Action.bind_congr ?_ fun _ _ _ => rfl
      change ((interpreter (fuel + 1)).eval (.self selfLine) none >>= _) s₁ = _
      rw [Action.bind_of_ok (heval (keeps_of_eval hv))]
      rfl
  | call arguments =>
      obtain ⟨method, -, hstatic, hfound⟩ := h.findMethod
      have hcls : s.objectClass id = scope.cls := hobject.objectCell
      have hobjectOf : s.objectOf (.object id) name = .ok id := rfl
      change ((interpreter (fuel + 1)).eval (.self selfLine) none >>= _) s = _
      rw [Action.bind_of_ok (heval (.refl _ _)), callInstance,
        Action.bind_of_ok (Eval.ask_of_ok hobjectOf line), Action.read_bind, hcls,
        Action.bind_of_ok (Eval.ask_of_ok (by rw [hfound]; exact if_neg (by simp [hstatic])) line)]
      refine Action.bind_congr rfl fun args s₁ hargs => ?_
      rw [Action.bind_of_ok (h.askMethod_of_keeps (keeps_of_evalAll hargs) hfound line)]

/-- The name means the class before a dot. -/
theorem staticReceiver?_eq {cls : ClassId} (hscope : s.member? = some scope)
    (hhidden : s.scopes.contains name = false)
    (hfield : (s.store.classInfo scope.cls).fields.contains name = false)
    (hnamed : s.store.findClass? name = some cls) (line : Nat) :
    s.staticReceiver? (.var name line) = some cls := by
  rw [Table.contains, Option.isSome_eq_false_iff, Option.isNone_iff_eq_none] at hfield
  rw [Session.staticReceiver?, hhidden, Session.implicitField?_of_member hscope, hfield]
  exact hnamed

/-- The member is used through the class. -/
theorem class_eq_useMember {className : String} (hscope : s.member? = some scope)
    (hhidden : s.scopes.contains className = false)
    (hfield : (s.store.classInfo scope.cls).fields.contains className = false)
    (hnamed : s.store.findClass? className = some scope.cls)
    (h : s.MeansMember scope.cls name true use) (fuel classLine line : Nat)
    (expected : Option Ty) :
    (interpreter fuel).evalStep
        (MemberRef.expr { object := some (.var className classLine), name } line use) expected s =
      (interpreter fuel).useMember scope.cls none name line use s := by
  have hreceiver := staticReceiver?_eq hscope hhidden hfield hnamed classLine
  cases use with
  | read =>
      change (Action.read (·.staticReceiver? (.var className classLine)) >>= _) s = _
      rw [Action.read_bind, hreceiver]
      rfl
  | write e =>
      refine Action.bind_congr rfl fun v s₁ hv => ?_
      refine Action.bind_congr ?_ fun _ _ _ => rfl
      have hk := keeps_of_eval hv
      -- The right side may declare classes, but none of the same name.
      have hnamed₁ := (Store.lasting_findClass? className scope.cls).evaluate hnamed fuel e none
      change ((interpreter fuel).eval e none s).Leaves _ at hnamed₁
      rw [hv] at hnamed₁
      have hreceiver₁ := staticReceiver?_eq ((Session.member?_of_calls hk.calls).trans hscope)
        ((ScopeStack.contains_of_keeps hk className).trans hhidden)
        (by rw [hk.store.fields h.hasMembers.lt_size]; exact hfield) hnamed₁ classLine
      rw [writeMember, Action.read_bind, hreceiver₁]
      rfl
  | call arguments =>
      obtain ⟨method, -, hstatic, hfound⟩ := h.findMethod
      change (Action.read (·.staticReceiver? (.var className classLine)) >>= _) s = _
      rw [Action.read_bind, hreceiver]
      dsimp only
      rw [callStatic,
        Action.bind_of_ok (Eval.ask_of_ok (by rw [hfound]; exact if_pos hstatic) line)]
      refine Action.bind_congr rfl fun args s₁ hargs => ?_
      rw [Action.bind_of_ok (h.askMethod_of_keeps (keeps_of_evalAll hargs) hfound line)]

end Interpreter

/-! ## Bare names in reachable sessions -/

/-- Bare names of members mean what they mean behind `this` and behind the name of the class. After
whatever programs and whenever a part of a program is run, a frame with a receiver names the class
of the receiver; there a bare name that means a field or a method of the object may be written
behind `this`. If the host, too, makes each class with members known by its name, the class that a
frame names is found by its name; and if no variable and no field hides it, a bare name that means a
static member may be written behind it. -/
theorem bare_names_mean_members {s : Session} (h : s.Reachable) :
    (s.InOwnClass ∧ ∀ fuel program other,
      (interpreterWithin Session.InOwnClass other fuel).execProgram program s =
        runProgram fuel program s) ∧
    (s.ReachableWith Store.ClassesNamed → s.InNamedClass ∧ ∀ fuel program other,
      (interpreterWithin Session.InNamedClass other fuel).execProgram program s =
        runProgram fuel program s) ∧
    ∀ (s : Session) scope, s.member? = some scope → ∀ name use line,
      (∀ id, s.InOwnClass → scope.self = some id → s.objectClass id = scope.cls ∧
        (s.MeansMember scope.cls name false use → ∀ selfLine,
          s.Equates (MemberRef.expr { object := none, name } line use)
            (MemberRef.expr { object := some (.self selfLine), name } line use))) ∧
      (s.InNamedClass → s.MeansMember scope.cls name true use →
        ∀ className classLine, className = s.store.className scope.cls →
          s.scopes.contains className = false →
          (s.store.classInfo scope.cls).fields.contains className = false →
          s.Equates (MemberRef.expr { object := none, name } line use)
            (MemberRef.expr { object := some (.var className classLine), name } line use)) := by
  refine ⟨⟨h.framesMatch.inOwnClass, h.framesMatch.runProgram_within⟩, fun hwith => ?_,
    fun s₁ scope hscope name use line => ⟨fun id hs₁ hself => ?_, fun hs₁ hmeans => ?_⟩⟩
  · have hnamed := hwith.lasts Store.lasting_classesNamed
    refine ⟨Session.inNamedClass_of_classesNamed hnamed, fun fuel program other => ?_⟩
    exact Store.lasting_classesNamed.runProgram_within hnamed
      (fun _ => Session.inNamedClass_of_classesNamed) other fuel program
  · have hobject := hs₁ scope id hscope hself
    refine ⟨hobject.objectCell, fun hmeans selfLine fuel expected => ?_⟩
    have hbare := Interpreter.bare_eq_useMember (some id) hscope
      (fun _ hid => hself.trans hid) hmeans (fuel + 1) line expected
    exact hbare.trans (Interpreter.self_eq_useMember hscope hself hobject hmeans fuel selfLine line
      expected).symm
  · rintro _ classLine rfl hhidden hfield fuel expected
    have hnamed := hs₁ scope hscope hmeans.hasMembers
    have hbare := Interpreter.bare_eq_useMember none hscope
      (fun _ hid => by cases hid) hmeans (fuel + 1) line expected
    exact hbare.trans (Interpreter.class_eq_useMember hscope hhidden hfield hnamed hmeans
      (fuel + 1) classLine line expected).symm

/-- In a method of a class with a field `x` and a static field `n`, `x = n` means `this.x = n`, and
`n` means `C.n`. -/
theorem bare_names_mean_members_in_method :
    let field (name : String) (isStatic : Bool) : FieldInfo :=
      { name, ty := .int, access := .ownerOnly, isStatic, isConst := false,
        accessors := { getter := false, setter := false }, owner := "C", init := .value (.int 3) }
    let info : ClassInfo :=
      { ClassInfo.blank "C" with
        fields := (Table.empty.insert "x" (field "x" false)).insert "n" (field "n" true)
        statics := Table.empty.insert "n" (.int 3) }
    let st := ((Store.empty.enrollClass info).2.newObject 0).2.putField 0 "x" (.int 7)
    let scope : MemberScope := { cls := 0, owner := "C", self := some 0 }
    let s := Session.start (fun _ => .error .unknownModule) []
    let s₁ : Session :=
      { s with
        store := st
        calls := [{ name := "C.m", member := some scope, returnType := .void }] }
    s.Reachable ∧ s.ReachableWith Store.ClassesNamed ∧ s₁.InOwnClass ∧ s₁.InNamedClass ∧
      s₁.Equates (.assign (.var "x") (.var "n" 1) 1)
        (.assign (.member (.self 1) "x") (.var "n" 1) 1) ∧
      s₁.Equates (.var "n" 1) (.member (.var "C" 1) "n" 1) := by
  intro field info st scope s s₁
  have hempty : Store.empty.ClassesNamed := by
    rintro cls (⟨_, _, hfind⟩ | ⟨_, _, hfind⟩) <;> cases hfind
  have hreachable : s.Reachable := .fresh rfl rfl Store.sound_empty
  have hwith : s.ReachableWith Store.ClassesNamed := .fresh rfl rfl Store.sound_empty hempty
  have hown : s₁.InOwnClass := by
    rintro _ _ ⟨⟩ ⟨⟩
    exact ⟨_, rfl, rfl⟩
  have hnamed : s₁.InNamedClass := by
    rintro _ ⟨⟩ _
    rfl
  obtain ⟨-, -, hmembers⟩ := bare_names_mean_members hreachable
  have hx := (hmembers s₁ scope rfl "x" (.write (.var "n" 1)) 1).1 0 hown rfl
  have hn := (hmembers s₁ scope rfl "n" .read 1).2 hnamed ⟨rfl, _, rfl, rfl⟩ "C" 1 rfl rfl rfl
  exact ⟨hreachable, hwith, hown, hnamed, hx.2 ⟨rfl, _, rfl, rfl⟩ 1, hn⟩

end ClassScript
