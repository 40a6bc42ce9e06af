import ClassScript.Proofs.Access.Uses
import ClassScript.Proofs.Inheritance.Chain

/-!
# The members of a class in its own code

Code of a class runs on objects of classes below it, too, and there names are looked up in the
tables of the object's class. If a class in between declares a member of the same name anew, the
name means that member. So the code of a class is never refused a member that the class declares
itself, unless the nearest class that declares it anew keeps it private.
-/

namespace ClassScript

/-- The running code may not use a member. -/
def Cause.isRefusal : Cause → Bool
  | .privateAccess .. => true
  | _ => false

/-! ## Questions that are not refused -/

/-- The question has an answer, or has none for a reason other than access. -/
def Unrefused {α : Type} : Except Cause α → Prop
  | .ok _ => True
  | .error cause => cause.isRefusal = false

theorem Unrefused.bind {α β : Type} {q : Except Cause α} {f : α → Except Cause β}
    (hq : Unrefused q) (hf : ∀ a, q = .ok a → Unrefused (f a)) : Unrefused (q >>= f) := by
  cases q with
  | ok a => exact hf a rfl
  | error cause => exact hq

namespace Eval

variable {α β : Type}

/-- The action does not fail for lack of access. -/
def Unrefused (x : Eval α) (s : Session) : Prop :=
  (x s).Ends (fun _ _ => True) fun fault _ => fault.cause.isRefusal = false

namespace Unrefused

variable {s : Session}

theorem ask {question : Session → Except Cause α} (h : ClassScript.Unrefused (question s))
    (line : Nat) : Unrefused (Eval.ask line question) s := by
  rw [Unrefused, Eval.ask]
  cases hq : question s with
  | ok a => trivial
  | error cause =>
      rw [hq] at h
      exact h

theorem raise {cause : Cause} (h : cause.isRefusal = false) (line : Nat) :
    Unrefused (Eval.raise cause line : Eval α) s := h

protected theorem pure (a : α) : Unrefused (Pure.pure a) s := trivial

protected theorem bind {x : Eval α} {f : α → Eval β} (hx : Unrefused x s)
    (hf : ∀ a s', x s = .ok a s' → Unrefused (f a) s') : Unrefused (x >>= f) s := by
  rw [Unrefused] at hx ⊢
  cases hxs : x s with
  | ok a s' =>
      rw [Action.bind_of_ok hxs]
      exact hf a s' hxs
  | error fault s' =>
      rw [hxs] at hx
      rw [Action.bind_of_error hxs]
      exact hx
  | exhausted =>
      rw [Action.bind_of_exhausted hxs]
      trivial

end Unrefused

end Eval

/-! ## Code that runs on an object -/

/-- The running code is code of `scope.owner` on the object `id` of class `scope.cls`; if the name
means a private member of that class, it is one of the code's own class. -/
structure Session.RunsOn (s : Session) (scope : MemberScope) (id : ObjectId) (name : String)
    (use : Use) : Prop where
  frame : s.member? = some scope
  self : scope.self = some id
  object : s.store.HasClass id scope.cls
  own : ∀ owner, s.MeansPrivate (some (.ofClass scope.cls)) name use owner → owner = scope.owner

namespace Session.RunsOn

variable {s s' : Session} {scope : MemberScope} {id : ObjectId} {name : String}

theorem objectClass {use : Use} (h : s.RunsOn scope id name use) :
    s.objectClass id = scope.cls := h.object.objectCell

theorem mayAccess_own {use : Use} (h : s.RunsOn scope id name use) :
    s.mayAccess .ownerOnly scope.owner = true := by
  rw [Session.mayAccess_ownerOnly, h.frame]
  rfl

/-- A field that is written is looked up as if it were read. -/
theorem readable {e : Expr} (h : s.RunsOn scope id name (.write e)) :
    s.RunsOn scope id name .read :=
  ⟨h.frame, h.self, h.object, h.own⟩

theorem mayAccess_field (h : s.RunsOn scope id name .read) {field : FieldInfo}
    (hfind : (s.store.classInfo scope.cls).fields.find? name = some field) :
    s.mayAccess field.access field.owner = true := by
  cases haccess : field.access with
  | everyone => rfl
  | ownerOnly =>
      have hown := h.own field.owner ⟨_, rfl, _, rfl, field, hfind, haccess, rfl⟩
      rw [hown]
      exact h.mayAccess_own

theorem mayAccess_method {arguments : List Expr} (h : s.RunsOn scope id name (.call arguments))
    {method : MethodInfo}
    (hfind : (s.store.classInfo scope.cls).methods.find? name = some method) :
    s.mayAccess method.access method.owner = true := by
  cases haccess : method.access with
  | everyone => rfl
  | ownerOnly =>
      have hown := h.own method.owner ⟨_, rfl, _, rfl, method, hfind, haccess, rfl⟩
      rw [hown]
      exact h.mayAccess_own

/-- Code goes on to run on its object, and the tables stay as they are. -/
theorem keeps {use : Use} (h : s.RunsOn scope id name use) (hk : s.Keeps false s')
    (hcls : scope.cls < s.store.classes.size) : s'.RunsOn scope id name use where
  frame := (Session.member?_of_calls hk.calls).trans h.frame
  self := h.self
  object := h.object.grows hk.store
  own := by
    have hshape := hk.store.shape hcls
    have hfields := congrArg ClassInfo.fields hshape
    have hmethods := congrArg ClassInfo.methods hshape
    change (s'.store.classInfo scope.cls).fields = (s.store.classInfo scope.cls).fields at hfields
    change (s'.store.classInfo scope.cls).methods =
      (s.store.classInfo scope.cls).methods at hmethods
    rintro owner ⟨_, ⟨⟩, _, ⟨⟩, hmember⟩
    refine h.own owner ⟨_, rfl, _, rfl, ?_⟩
    cases use with
    | read | write _ =>
        dsimp only at hmember ⊢
        rw [← hfields]
        exact hmember
    | call _ =>
        dsimp only at hmember ⊢
        rw [← hmethods]
        exact hmember

/-! ### Fields -/

theorem staticField_unrefused (h : s.RunsOn scope id name .read) :
    Unrefused (s.staticField scope.cls name) := by
  have hfound : Unrefused (s.findField scope.cls name) := by
    rw [Session.findField]
    split
    · trivial
    · rfl
  refine hfound.bind fun field hfield => ?_
  have hfind := (s.findField_answers scope.cls name).of_ok hfield
  by_cases hstatic : field.isStatic = true
  · rw [if_pos hstatic, Session.checkAccess, if_pos (h.mayAccess_field hfind)]
    trivial
  · rw [if_neg hstatic]
    rfl

theorem instanceField_unrefused (h : s.RunsOn scope id name .read) :
    Unrefused (s.instanceField scope.cls name) := by
  have hfound : Unrefused (s.findField scope.cls name) := by
    rw [Session.findField]
    split
    · trivial
    · rfl
  refine hfound.bind fun field hfield => ?_
  have hfind := (s.findField_answers scope.cls name).of_ok hfield
  by_cases hstatic : field.isStatic = true
  · rw [if_pos hstatic]
    rfl
  · rw [if_neg hstatic, Session.checkAccess, if_pos (h.mayAccess_field hfind)]
    trivial

theorem checkWrite_unrefused (s : Session) (cls : ClassId) (field : FieldInfo) (name : String)
    (value : Value) : Unrefused (s.checkWrite cls field name value) := by
  rw [Session.checkWrite, Store.check]
  split
  · rfl
  · split
    · trivial
    · rfl

theorem readStatic_unrefused (h : s.RunsOn scope id name .read) :
    Unrefused (s.readStatic scope.cls name) := by
  refine h.staticField_unrefused.bind fun _ _ => ?_
  split
  · trivial
  · rfl

theorem staticTarget_unrefused (h : s.RunsOn scope id name .read) (value : Value) :
    Unrefused (s.staticTarget scope.cls name value) := by
  refine h.staticField_unrefused.bind fun field _ => ?_
  refine (checkWrite_unrefused s scope.cls field name value).bind fun _ _ => ?_
  split
  · trivial
  · rfl

theorem readField_unrefused (h : s.RunsOn scope id name .read) :
    Unrefused (s.readField id name) := by
  rw [Session.readField, h.objectClass]
  refine h.instanceField_unrefused.bind fun _ _ => ?_
  split
  · trivial
  · rfl

theorem checkFieldWrite_unrefused (h : s.RunsOn scope id name .read) (value : Value) :
    Unrefused (s.checkFieldWrite id name value) := by
  rw [Session.checkFieldWrite, h.objectClass]
  exact h.instanceField_unrefused.bind fun field _ => checkWrite_unrefused s _ field name value

/-- A bare name that means a field means a field of the object's class. -/
theorem implicitField?_eq {use : Use} (h : s.RunsOn scope id name use) :
    s.implicitField? name =
      ((s.store.classInfo scope.cls).fields.find? name).map fun field => (scope, field) :=
  Session.implicitField?_of_member h.frame name

theorem receiver_eq {use : Use} (h : s.RunsOn scope id name use) (member : String) :
    s.receiver scope member = .ok id :=
  Session.receiver_of_self h.self s member

theorem readName_unrefused (h : s.RunsOn scope id name .read) : Unrefused (s.readName name) := by
  rw [Session.readName]
  split
  · trivial
  · rw [Session.readImplicit, h.implicitField?_eq]
    cases (s.store.classInfo scope.cls).fields.find? name with
    | none => rfl
    | some field =>
        dsimp only [Option.map_some]
        by_cases hstatic : field.isStatic = true
        · rw [if_pos hstatic]
          exact h.readStatic_unrefused
        · rw [if_neg hstatic, h.receiver_eq]
          exact h.readField_unrefused

theorem writeStatic_unrefused (h : s.RunsOn scope id name .read) (value : Value) (line : Nat) :
    Eval.Unrefused (Eval.writeStatic scope.cls name value line) s :=
  (Eval.Unrefused.ask (h.staticTarget_unrefused value) line).bind fun _ _ _ => trivial

theorem writeField_unrefused (h : s.RunsOn scope id name .read) (value : Value) (line : Nat) :
    Eval.Unrefused (Eval.writeField id name value line) s :=
  (Eval.Unrefused.ask (h.checkFieldWrite_unrefused value) line).bind fun _ _ _ => trivial

theorem assignVariable_unrefused (s : Session) (name : String) (value : Value) (line : Nat) :
    Eval.Unrefused (Eval.assignVariable name value line) s := by
  refine (Eval.Unrefused.ask ?_ line).bind fun _ _ _ => trivial
  rw [ScopeStack.assignable]
  split
  · rfl
  · split
    · rfl
    · split
      · rfl
      · refine Unrefused.bind ?_ fun _ _ => trivial
        rw [Store.check]
        split
        · trivial
        · rfl

theorem writeName_unrefused (h : s.RunsOn scope id name .read) (value : Value) (line : Nat) :
    Eval.Unrefused (Eval.writeName name value line) s := by
  rw [Eval.Unrefused, Eval.writeName, Action.read_bind]
  split
  · exact assignVariable_unrefused s name value line
  · rw [Eval.writeImplicit, Action.read_bind, h.implicitField?_eq]
    cases (s.store.classInfo scope.cls).fields.find? name with
    | none => rfl
    | some field =>
        dsimp only [Option.map_some]
        by_cases hstatic : field.isStatic = true
        · rw [if_pos hstatic]
          exact h.writeStatic_unrefused value line
        · rw [if_neg hstatic, Action.bind_of_ok (Eval.ask_of_ok (h.receiver_eq name) line)]
          exact h.writeField_unrefused value line

/-! ### Methods -/

theorem findMethod_ok {arguments : List Expr} (h : s.RunsOn scope id name (.call arguments))
    {method : MethodInfo}
    (hfind : (s.store.classInfo scope.cls).methods.find? name = some method) :
    s.findMethod scope.cls name = .ok method := by
  rw [Session.findMethod, hfind]
  dsimp only
  rw [Session.checkAccess, if_pos (h.mayAccess_method hfind)]
  rfl

theorem ownMethodScope?_eq {use : Use} (h : s.RunsOn scope id name use) :
    Interpreter.ownMethodScope? name s =
      ((s.store.classInfo scope.cls).methods.find? name).map fun _ => scope :=
  Session.ownMethodScope?_of_member h.frame name

end Session.RunsOn

/-! ## Uses that are granted -/

/-- How the use of a member ends that was not refused, once its operands `args` were evaluated in
the session `s`: with a value, for another reason, in the body of the method of the object's class,
or, if a class of the host hides the method, in that of a function. -/
inductive Outcome.Granted (run : Interpreter) (s : Session) (cls : ClassId) (name : String)
    (args : List Value) (line : Nat) : Outcome Session Fault Value → Prop where
  | value (v : Value) (s' : Session) : Granted run s cls name args line (.ok v s')
  | failed {fault : Fault} (s' : Session) (h : fault.cause.isRefusal = false) :
      Granted run s cls name args line (.error fault s')
  | exhausted : Granted run s cls name args line .exhausted
  | method {method : MethodInfo}
      (hfind : (s.store.classInfo cls).methods.find? name = some method)
      (self : Option ObjectId) :
      Granted run s cls name args line (run.invoke cls method self args line s)
  | function {decl : FunctionDecl}
      (hhidden : (s.store.classInfo cls).methods.find? name = none) :
      Granted run s cls name args line
        (run.callFunction decl (functionFrame decl) args line s)

theorem Eval.Unrefused.granted {x : Eval Value} {s s₁ : Session} (h : Eval.Unrefused x s)
    (run : Interpreter) (cls : ClassId) (name : String) (args : List Value) (line : Nat) :
    (x s).Granted run s₁ cls name args line := by
  rw [Eval.Unrefused] at h
  cases hx : x s with
  | ok v s' => exact .value v s'
  | error fault s' =>
      rw [hx] at h
      exact .failed s' h
  | exhausted => exact .exhausted

theorem Builtin.call_unrefused (b : Builtin) (name : String) (args : List Value) (line : Nat)
    (s : Session) : Eval.Unrefused (b.call name args line) s := by
  rw [Builtin.call]
  split
  · cases b with
    | print | println | str => trivial
    | read =>
        refine Eval.Unrefused.bind ?_ fun _ _ _ => trivial
        refine Eval.Unrefused.bind (x := Action.modifyGet _) trivial fun input _ _ => ?_
        cases input with
        | some text => trivial
        | none => exact .raise rfl line
  · exact .raise rfl line

namespace Interpreter

/-- Evaluates the operands of a use: the value that is written, or the arguments of a call. -/
def operandsOf (run : Interpreter) : Use → Eval (List Value)
  | .read => return []
  | .write value => return [← run.eval value none]
  | .call arguments => run.evalAll arguments

variable {run : Interpreter} {s s₁ : Session} {scope : MemberScope} {id : ObjectId}
  {name : String} {args : List Value}

/-- A call of a bare name comes to the method that the object's class has under this name. -/
theorem callNamed_granted {arguments : List Expr}
    (h : s.RunsOn scope id name (.call arguments)) (line : Nat) :
    (run.callNamed name args line s).Granted run s scope.cls name args line := by
  rw [callNamed]
  cases Builtin.ofName? name with
  | some b => exact (b.call_unrefused name args line s).granted _ _ _ _ _
  | none =>
      dsimp only
      rw [Action.read_bind, h.ownMethodScope?_eq]
      cases hfind : (s.store.classInfo scope.cls).methods.find? name with
      | some method =>
          dsimp only [Option.map_some]
          rw [callOwnMethod, Action.bind_of_ok (Eval.ask_of_ok (h.findMethod_ok hfind) line)]
          by_cases hstatic : method.isStatic = true
          · rw [if_pos hstatic]
            exact .method hfind none
          · rw [if_neg hstatic, Action.bind_of_ok (Eval.ask_of_ok (h.receiver_eq name) line)]
            exact .method hfind (some id)
      | none =>
          dsimp only [Option.map_none]
          rw [Action.read_bind]
          cases s.functions.find? name with
          | some decl => exact .function hfind
          | none => exact .failed s rfl

/-- Called on the object itself, the method is looked up before the arguments are evaluated. -/
theorem callInstance_granted {arguments : List Expr}
    (h : s.RunsOn scope id name (.call arguments)) (hargs : run.evalAll arguments s = .ok args s₁)
    (hmethods : (s₁.store.classInfo scope.cls).methods = (s.store.classInfo scope.cls).methods)
    (line : Nat) :
    (run.callInstance (.object id) name arguments line s).Granted run s₁ scope.cls name args
      line := by
  have hobject : s.objectOf (.object id) name = .ok id := rfl
  rw [callInstance, Action.bind_of_ok (Eval.ask_of_ok hobject line), Action.read_bind,
    h.objectClass]
  cases hfind : (s.store.classInfo scope.cls).methods.find? name with
  | none =>
      have hnone : s.findMethod scope.cls name = .error (s.unknownMember scope.cls name) := by
        rw [Session.findMethod, hfind]
      rw [Action.bind_of_error (Eval.ask_of_error (by rw [hnone]; rfl) line)]
      exact .failed s rfl
  | some method =>
      have hfound := h.findMethod_ok hfind
      by_cases hstatic : method.isStatic = true
      · rw [Action.bind_of_error (Eval.ask_of_error (by rw [hfound]; exact if_pos hstatic) line)]
        exact .failed s rfl
      · rw [Action.bind_of_ok (Eval.ask_of_ok (by rw [hfound]; exact if_neg hstatic) line),
          Action.bind_of_ok hargs]
        exact .method (hmethods ▸ hfind) (some id)

/-- In code that runs on an object, `this` is the object, if there is fuel to see it. -/
theorem eval_self {use : Use} (h : s.RunsOn scope id name use) (fuel line : Nat) :
    (interpreter fuel).eval (.self line) none s = .ok (.object id) s ∨
      (interpreter fuel).eval (.self line) none s = .exhausted := by
  cases fuel with
  | zero => exact .inr rfl
  | succ fuel => exact .inl (eval_self_of_member h.frame h.self fuel line none)

theorem evalMember_unrefused (h : s.RunsOn scope id name .read) (fuel selfLine line : Nat) :
    Eval.Unrefused ((interpreter fuel).evalMember (.self selfLine) name line) s := by
  rw [Eval.Unrefused, evalMember, Action.read_bind]
  change (((interpreter fuel).eval (.self selfLine) none >>= _) s).Ends _ _
  rcases eval_self h fuel selfLine with hself | hself
  · rw [Action.bind_of_ok hself]
    exact Eval.Unrefused.ask (s := s) h.readField_unrefused line
  · rw [Action.bind_of_exhausted hself]
    trivial

theorem writeMember_unrefused (h : s.RunsOn scope id name .read) (fuel selfLine : Nat)
    (value : Value) (line : Nat) :
    Eval.Unrefused ((interpreter fuel).writeMember (.self selfLine) name value line) s := by
  rw [Eval.Unrefused, writeMember, Action.read_bind]
  change (((interpreter fuel).eval (.self selfLine) none >>= _) s).Ends _ _
  rcases eval_self h fuel selfLine with hself | hself
  · have hobject : s.objectOf (.object id) name = .ok id := rfl
    rw [Action.bind_of_ok hself, Action.bind_of_ok (Eval.ask_of_ok hobject line)]
    exact h.writeField_unrefused value line
  · rw [Action.bind_of_exhausted hself]
    trivial

/-- A value that is written is evaluated first. -/
theorem write_granted {e : Expr} {write : Value → Eval Unit}
    (hargs : run.operandsOf (.write e) s = .ok args s₁)
    (hwrite : ∀ v, Eval.Unrefused (write v) s₁) (line : Nat) :
    ((do
      let v ← run.eval e none
      write v
      return v : Eval Value) s).Granted run s₁ scope.cls name args line := by
  obtain ⟨v, s₂, hv, hpure⟩ := Action.ok_of_bind hargs
  cases hpure
  rw [Action.bind_of_ok hv]
  exact ((hwrite v).bind fun _ _ _ => .pure v).granted _ _ _ _ _

/-- The member is used by its bare name. -/
theorem bare_granted {use : Use} (h₁ : s₁.RunsOn scope id name use)
    (hargs : run.operandsOf use s = .ok args s₁) (line : Nat) (expected : Option Ty) :
    (run.evalStep (MemberRef.expr { object := none, name } line use) expected s).Granted run s₁
      scope.cls name args line := by
  cases use with
  | read =>
      have hread : Eval.Unrefused (Eval.ask line fun s => s.readName name) s₁ :=
        .ask h₁.readName_unrefused line
      cases hargs
      exact hread.granted _ _ _ _ _
  | write e => exact write_granted hargs (fun v => h₁.readable.writeName_unrefused v line) line
  | call arguments =>
      change run.evalAll arguments s = .ok args s₁ at hargs
      change ((run.evalAll arguments >>= _) s).Granted _ _ _ _ _ _
      rw [Action.bind_of_ok hargs]
      exact callNamed_granted h₁ line

/-- The member is used through `this`. -/
theorem this_granted {use : Use} {fuel : Nat} (h : s.RunsOn scope id name use)
    (h₁ : s₁.RunsOn scope id name use)
    (hmethods : (s₁.store.classInfo scope.cls).methods = (s.store.classInfo scope.cls).methods)
    (hargs : (interpreter fuel).operandsOf use s = .ok args s₁) (selfLine line : Nat)
    (expected : Option Ty) :
    ((interpreter fuel).evalStep
      (MemberRef.expr { object := some (.self selfLine), name } line use) expected s).Granted
      (interpreter fuel) s₁ scope.cls name args line := by
  cases use with
  | read =>
      cases hargs
      exact (evalMember_unrefused h₁ fuel selfLine line).granted _ _ _ _ _
  | write e =>
      exact write_granted hargs
        (fun v => writeMember_unrefused h₁.readable fuel selfLine v line) line
  | call arguments =>
      change (((interpreter fuel).eval (.self selfLine) none >>= _) s).Granted _ _ _ _ _ _
      rcases eval_self h fuel selfLine with hself | hself
      · rw [Action.bind_of_ok hself]
        exact callInstance_granted h hargs hmethods line
      · rw [Action.bind_of_exhausted hself]
        exact .exhausted

end Interpreter

/-! ## What a class declares itself -/

/-- The class itself declares the member. -/
def ClassDecl.Declares (decl : ClassDecl) (name : String) : Use → Prop
  | .read | .write _ => ∃ field, decl.field? name = some field
  | .call _ => ∃ method, decl.method? name = some method

namespace Store

/-- If some of the classes `nearer` declare the member anew, the first of them declares it
public. -/
def RedeclaredPublic (st : Store) (origins : List Origin) (nearer : List ClassId)
    (name : String) : Use → Prop
  | .read | .write _ => ∀ field, nearer.findSome? (st.ownField? origins name) = some field →
      field.access = .everyone
  | .call _ => ∀ method, nearer.findSome? (st.ownMethod? origins name) = some method →
      method.access = .everyone

variable {st : Store} {origins : List Origin} {nearer above : List ClassId} {cls owner : ClassId}
  {decl : ClassDecl} {name : String} {β : Type}

/-- Below a class that declares something itself, one finds what a class in between declares, or
that. -/
theorem findSome?_chainOf {own : ClassId → Option β}
    (howner : declarationOf? origins owner = some decl) {b₀ b : β} (hown : own owner = some b₀)
    (h : (chainOf origins (nearer ++ owner :: above)).findSome? own = some b) :
    nearer.findSome? own = some b ∨ b = b₀ := by
  induction nearer with
  | nil =>
      rw [List.nil_append, chainOf, howner] at h
      dsimp only at h
      rw [List.findSome?_cons, hown] at h
      exact .inr (Option.some.inj h).symm
  | cons c rest ih =>
      rw [List.cons_append, chainOf] at h
      cases hc : own c with
      | some b' =>
          have hb : b' = b := by
            cases hdecl : declarationOf? origins c <;>
              simpa [hdecl, hc] using h
          rw [List.findSome?_cons, hc, hb]
          exact .inl rfl
      | none =>
          cases hdecl : declarationOf? origins c with
          | none => simp [hdecl, hc] at h
          | some _ =>
              rw [hdecl] at h
              dsimp only at h
              rw [List.findSome?_cons, hc] at h
              rw [List.findSome?_cons, hc]
              exact ih h

/-- A class with ancestors and a declared class are in the store. -/
theorem Arises.lt_size (h : st.Arises origins)
    (hlineage : st.lineage cls = nearer ++ owner :: above)
    (howner : declarationOf? origins owner = some decl) : cls < st.classes.size := by
  rcases Nat.lt_or_ge cls st.classes.size with hlt | hge
  · exact hlt
  · rw [lineage, classInfo_of_le hge] at hlineage
    have hroot : cls = owner := by
      cases nearer with
      | nil => exact (List.cons.inj hlineage).1
      | cons c rest =>
          have hlength := congrArg List.length hlineage
          simp [ClassInfo.blank] at hlength
    rw [← hroot] at howner
    have hsome := origin_of_declarationOf? howner
    rw [h.size]
    exact (List.getElem?_eq_some_iff.mp hsome).1

/-- A private member of the name, in the tables of a class below the one that declares the member,
is a member of that class. -/
theorem Arises.private_own (h : st.Arises origins)
    (hlineage : st.lineage cls = nearer ++ owner :: above)
    (howner : declarationOf? origins owner = some decl) {use : Use}
    (hdeclares : decl.Declares name use) (hpublic : st.RedeclaredPublic origins nearer name use)
    {s : Session} (hs : s.store = st) {other : String}
    (hprivate : s.MeansPrivate (some (.ofClass cls)) name use other) : other = decl.name := by
  subst hs
  obtain ⟨_, ⟨⟩, _, ⟨⟩, hmember⟩ := hprivate
  have hfields (hdecl : ∃ field, decl.field? name = some field)
      (hpublic : ∀ field, nearer.findSome? (s.store.ownField? origins name) = some field →
        field.access = .everyone) (field : FieldInfo)
      (hfind : (s.store.classInfo cls).fields.find? name = some field)
      (haccess : field.access = .ownerOnly) : field.owner = decl.name := by
    obtain ⟨declared, hdeclared⟩ := hdecl
    have hown : s.store.ownField? origins name owner = some declared := by
      rw [ownField?, howner]
      exact hdeclared
    rw [h.find?_fields, chain, hlineage] at hfind
    rcases findSome?_chainOf howner hown hfind with hnearest | rfl
    · rw [hpublic field hnearest] at haccess
      cases haccess
    · obtain ⟨_, -, rfl⟩ := Option.map_eq_some_iff.mp hdeclared
      rfl
  cases use with
  | read | write _ =>
      obtain ⟨field, hfind, haccess, rfl⟩ := hmember
      exact hfields hdeclares hpublic field hfind haccess
  | call _ =>
      obtain ⟨method, hfind, haccess, rfl⟩ := hmember
      obtain ⟨declared, hdeclared⟩ := hdeclares
      have hown : s.store.ownMethod? origins name owner = some declared := by
        rw [ownMethod?, howner]
        exact hdeclared
      rw [h.find?_methods, chain, hlineage] at hfind
      rcases findSome?_chainOf howner hown hfind with hnearest | rfl
      · rw [hpublic method hnearest] at haccess
        cases haccess
      · obtain ⟨_, -, rfl⟩ := Option.map_eq_some_iff.mp hdeclared
        rfl

end Store

theorem Discipline.Laws.operandsOf_conforms {D : Discipline} (L : D.Laws)
    {run run' : Interpreter} (hrun : D.Runs run run') {s : Session} (hs : D.Inv s) (use : Use) :
    D.Conforms false s (run.operandsOf use) (run'.operandsOf use) fun _ _ => True := by
  cases use with
  | read => exact .pure hs trivial
  | write value => exact (hrun.eval hs value none).bind fun _ _ _ hs₁ _ => .pure hs₁ trivial
  | call arguments => exact (L.evalAll_conforms hrun hs arguments).mono fun _ _ _ => trivial

/-- In code of a class that runs on an object of the class or of one below it, the members that the
class declares itself are granted, by their bare names and through `this`, unless one of the
classes in between declares the member anew and the nearest of them does not declare it public. -/
theorem own_members_granted {s : Session} {origins : List Origin} (h : s.store.Arises origins)
    {scope : MemberScope} {id : ObjectId} (hframe : s.member? = some scope)
    (hself : scope.self = some id) (hobject : s.store.HasClass id scope.cls)
    {nearer above : List ClassId} {owner : ClassId} {decl : ClassDecl}
    (hlineage : s.store.lineage scope.cls = nearer ++ owner :: above)
    (hdecl : declarationOf? origins owner = some decl) (howner : scope.owner = decl.name)
    {name : String} {use : Use} (hdeclares : decl.Declares name use)
    (hpublic : s.store.RedeclaredPublic origins nearer name use) (fuel line : Nat)
    (expected : Option Ty) {args : List Value} {s₁ : Session}
    (hargs : (interpreter fuel).operandsOf use s = .ok args s₁) :
    (evaluate (fuel + 1) (MemberRef.expr { object := none, name } line use) expected s).Granted
      (interpreter fuel) s₁ scope.cls name args line ∧
    ∀ selfLine,
      (evaluate (fuel + 1) (MemberRef.expr { object := some (.self selfLine), name } line use)
        expected s).Granted (interpreter fuel) s₁ scope.cls name args line := by
  have hruns : s.RunsOn scope id name use := by
    refine ⟨hframe, hself, hobject, fun other hprivate => ?_⟩
    rw [howner]
    exact h.private_own hlineage hdecl hdeclares hpublic rfl hprivate
  have hcls := h.lt_size hlineage hdecl
  -- The operands may run any code, but this does not touch the tables of a class that exists.
  have hkeeps : s.Keeps false s₁ := by
    have L := Discipline.free_laws
    have hconforms := L.operandsOf_conforms (L.interpreter_runs fuel) (Discipline.free_inv s) use
    exact (hconforms.of_ok hargs).1
  have hruns₁ := hruns.keeps hkeeps hcls
  have hmethods := congrArg ClassInfo.methods (hkeeps.store.shape hcls)
  refine ⟨?_, ?_⟩
  · exact Interpreter.bare_granted hruns₁ hargs line expected
  · intro selfLine
    exact Interpreter.this_granted hruns hruns₁ hmethods hargs selfLine line expected

/-- The declaration of a class with one field, `x`. -/
def ClassDecl.ofField (name : String) (supertypes : List String) (access : Access)
    (methods : List MethodDecl) : ClassDecl where
  name := name
  isStatic := false
  supertypes := supertypes
  fields :=
    [{ decl := { name := "x", ty := .int, length := none, initializer := none, isConst := false,
                 line := 1 }
       access, isStatic := false, accessors := { getter := false, setter := false } }]
  methods := methods
  constructor := none
  line := 1

/-- Code of a class with a private field reads the public field that a class below it declares in
its place. -/
theorem own_members_granted_public :
    let parent := ClassDecl.ofField "P" [] .ownerOnly []
    let child := ClassDecl.ofField "C" ["P"] .everyone []
    let x (decl : ClassDecl) (access : Access) : FieldInfo :=
      { name := "x", ty := .int, access, isStatic := false, isConst := false,
        accessors := { getter := false, setter := false }, owner := decl.name,
        init := .declared { name := "x", ty := .int, length := none, initializer := none,
                            isConst := false, line := 1 } }
    let parentInfo : ClassInfo :=
      { ClassInfo.blank "P" with fields := Table.empty.insert "x" (x parent .ownerOnly) }
    let childInfo : ClassInfo :=
      { ClassInfo.blank "C" with
        fields := Table.empty.insert "x" (x child .everyone)
        ancestors := [0] }
    let st := (((Store.empty.enrollClass parentInfo).2.enrollClass childInfo).2.newObject 1).2
    let scope : MemberScope := { cls := 1, owner := "P", self := some 0 }
    let s : Session :=
      { Session.start (fun _ => .error .unknownModule) [] with
        store := st
        calls := [{ name := "P.get", member := some scope, returnType := .int }] }
    st.Arises [.declared parent, .declared child] ∧ st.lineage 1 = [1] ++ 0 :: [] ∧
      st.RedeclaredPublic [.declared parent, .declared child] [1] "x" .read ∧
      (evaluate 1 (.var "x" 1) none s).Granted (interpreter 0) s 1 "x" [] 1 := by
  intro parent child x parentInfo childInfo st scope s
  have harises : st.Arises [.declared parent, .declared child] := by
    have hparent : ClassInfo.ofDecl .empty parent = .ok parentInfo := rfl
    have hchild : ClassInfo.ofDecl (Store.empty.enrollClass parentInfo).2 child = .ok childInfo :=
      rfl
    have h := (Store.Arises.empty.enrolled (.declared hparent) rfl).enrolled (.declared hchild) rfl
    exact h.changed ⟨Store.grows_newObject _ _, rfl, rfl⟩
  have hpublic :
      st.RedeclaredPublic [.declared parent, .declared child] [1] "x" .read := by
    intro field hfield
    cases hfield
    rfl
  have hobject : s.store.HasClass 0 scope.cls := ⟨{ cls := 1, fields := .empty }, rfl, rfl⟩
  have hdeclares : parent.Declares "x" .read := ⟨_, rfl⟩
  have hgranted := own_members_granted harises (s := s) rfl rfl hobject rfl rfl rfl hdeclares
    hpublic 0 1 none rfl
  exact ⟨harises, rfl, hpublic, hgranted.1⟩

/-- The class and the member for which access was refused, if that is how the run ended. -/
def Outcome.refused? {α : Type} : Outcome Session Fault α → Option (String × String)
  | .error { cause := .privateAccess cls member, .. } _ => some (cls, member)
  | _ => none

/-- If a class below declares a private field in place of its parent's, the methods of the parent
are refused their own field on its objects. -/
theorem own_member_refused_redeclared :
    let get : MethodDecl :=
      { function := { name := "get", params := [], returnType := .int,
                      body := [.returnValue (some (.var "x" 1)) 1], line := 1 }
        access := .everyone, isStatic := false, modifier := .plain }
    let program : Program :=
      [.classType (.ofField "P" [] .ownerOnly [get]),
        .classType (.ofField "C" ["P"] .ownerOnly []),
        .expression (.methodCall (.new "C" [] 2) "get" [] 2) 2]
    let s := Session.start (fun _ => .error .unknownModule) []
    (runProgram 9 program s).refused? = some ("C", "x") := by
  decide +kernel

end ClassScript
