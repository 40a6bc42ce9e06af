import ClassScript.Proofs.Regimes.Basic

/-!
# Expressions under a regime

Every expression and every constructor goes under a lawful regime if its parts do, and if all code
does at the levels under.
-/

namespace ClassScript

namespace Regime.Laws

variable {ι : Type} {R : Regime ι} {run : ι → Interpreter} {ℓ : R.Level} {z : Nat}

/-! ## Declared values -/

theorem declaredSize_goes (L : R.Laws) (hrun : R.Runs run ℓ z) (decl : VariableDecl)
    (hdecl : sizeOf decl ≤ z) : R.Goes ℓ fun i => (run i).declaredSize decl := by
  obtain ⟨name, ty, length, initializer, isConst, line⟩ := decl
  cases length with
  | none => exact L.pure none
  | some length =>
      cases length with
      | inferred => exact L.pure none
      | explicit size =>
          refine L.bind (hrun.eval size none (by simp at hdecl; omega)) fun v _ => ?_
          refine L.bind (L.query line fun _ _ _ => rfl) fun count _ => ?_
          exact L.bind (L.query line fun _ _ _ => rfl) fun _ _ => L.pure (some count)

theorem declaredValue_goes (L : R.Laws) (hrun : R.Runs run ℓ z) (decl : VariableDecl)
    (hdecl : sizeOf decl ≤ z) : R.Goes ℓ fun i => (run i).declaredValue decl := by
  refine L.bind (L.declaredSize_goes hrun decl hdecl) fun size _ => ?_
  obtain ⟨name, ty, length, initializer, isConst, line⟩ := decl
  cases initializer with
  | some initializer =>
      refine L.bind (hrun.eval initializer (some ty) (by simp at hdecl; omega)) fun v _ => ?_
      exact L.bind (L.query line fun _ _ _ => rfl) fun _ _ => L.pure v
  | none =>
      cases size with
      | some size =>
          exact L.bind (L.query line fun _ _ _ => rfl) fun count _ =>
            L.harmless (.allocate fun h => h)
      | none => exact L.pure _

/-! ## Instances -/

theorem fieldValue_goes (L : R.Laws) (hrun : R.Below run ℓ z) (field : FieldInfo)
    (scope : MemberScope) (line : Nat) : R.Goes ℓ fun i => (run i).fieldValue field scope line := by
  have hcheck (v : Value) : R.Goes ℓ fun _ => (do
      Eval.askStore line fun st => st.check field.ty v
      return v : Eval Value) :=
    L.bind (L.query line fun _ _ _ => rfl) fun _ _ => L.pure v
  unfold Interpreter.fieldValue
  cases field.init with
  | value v => exact hcheck v
  | declared decl =>
      refine L.bind (L.look fun _ _ _ => rfl) fun frame _ => ?_
      refine L.bind (Q := fun _ => True) (L.withFrame frame line fun ℓ' hℓ => ?_)
        fun v _ => hcheck v
      -- The initializer is code of any size, but it runs in a call.
      exact L.declaredValue_goes (hrun.under ℓ' hℓ _) decl (Nat.le_refl _)

theorem initializeFields_goes (L : R.Laws) (hrun : R.Below run ℓ z) (cls : ClassId)
    (self : ObjectId) (line : Nat) (fields : List FieldInfo) :
    R.Goes ℓ fun i => (run i).initializeFields cls self line fields := by
  induction fields with
  | nil => exact L.pure ()
  | cons field rest ih =>
      refine L.bind (L.fieldValue_goes hrun field _ line) fun v _ => ?_
      exact L.bind (L.harmless (.putField self field.name v)) fun _ _ => ih

/-- The constructor of a class is loop-free. -/
theorem findConstructor (L : R.Laws) (cls : ClassId) :
    R.Rel ℓ (fun _ => (Action.read fun s => (s.store.classInfo cls).constructor : Eval _))
      fun found => ∀ c ∈ found, c.decl.LoopFree :=
  L.harmless (.read (fun hs _ hc => (hs.classes cls).constructor hc) fun _ _ _ => rfl)

theorem new_goes (L : R.Laws) (hrun : R.Below run ℓ z) (className : String) {arguments : List Expr}
    (hargs : ∀ e ∈ arguments, sizeOf e < z) (line : Nat) :
    R.Goes ℓ fun i => (run i).new className arguments line := by
  refine L.bind (L.query line fun _ _ _ => rfl) fun cls _ => ?_
  refine L.bind (L.evalAll_goes hrun.toRuns hargs) fun args _ => ?_
  refine L.bind (L.query line fun _ _ _ => rfl) fun _ _ => ?_
  refine L.bind (L.harmless (.allocate fun h => h)) fun self _ => ?_
  refine L.bind (L.look fun _ _ _ => rfl) fun fields _ => ?_
  refine L.bind (L.initializeFields_goes hrun cls self line fields) fun _ _ => ?_
  refine L.bind (L.findConstructor cls) fun found hfound => ?_
  cases found with
  | some constructor =>
      exact L.bind (hrun.construct _ (hfound.imp fun h => h constructor rfl)) fun _ _ => L.pure _
  | none => exact L.pure _

theorem constructParent_goes (L : R.Laws) (hrun : ∀ z, R.Runs run ℓ z) (c : Construction) :
    R.Goes ℓ fun i => (run i).constructParent c := by
  refine L.bind (L.query c.line fun _ _ _ => rfl) fun ownerClass _ => ?_
  refine L.bind (L.look fun _ _ _ => rfl) fun parent? _ => ?_
  cases parent? with
  | none =>
      change R.Goes ℓ fun _ => (if c.constructor.decl.parentArguments.isSome then
        Eval.raise (.invalidInheritance c.constructor.owner .noParent) c.line else pure () :
        Eval Unit)
      split
      · exact L.raise _ c.line
      · exact L.pure ()
  | some parent =>
      have hargs := L.evalAll_goes (hrun (sizeOf (c.constructor.decl.parentArguments.getD []) + 1))
        fun e he => Nat.lt_succ_of_lt (List.sizeOf_lt_of_mem he)
      refine L.bind hargs fun args _ => ?_
      have hinfo : R.Rel ℓ (fun _ => (Action.read fun s => s.store.classInfo parent : Eval _))
          ClassInfo.LoopFree :=
        L.harmless (.read (fun hs => hs.classes parent) fun _ _ _ => rfl)
      refine L.bind hinfo fun info hinfo => ?_
      cases hc : info.constructor with
      | some constructor =>
          exact (hrun 0).construct _ (hinfo.imp fun h => h.constructor hc)
      | none =>
          change R.Goes ℓ fun _ => (if args.isEmpty then pure () else _ : Eval Unit)
          split
          · exact L.pure ()
          · exact L.raise _ c.line

/-- A constructor runs in a call of its own, so all its parts are at levels under. -/
theorem constructStep_goes (L : R.Laws) (hunder : ∀ ℓ', R.Under ℓ' ℓ → ∀ z, R.Runs run ℓ' z)
    (c : Construction) (hc : R.Allows c.constructor.decl.LoopFree) :
    R.Goes ℓ fun i => (run i).constructStep c := by
  refine L.bind (L.query c.line fun _ _ _ => rfl) fun _ _ => ?_
  refine L.bind (L.look fun _ _ _ => rfl) fun frame _ => ?_
  refine L.bind (Q := fun _ => True) (L.withFrame frame c.line fun ℓ' hℓ => ?_) fun signal _ =>
    L.bind (L.query c.line fun _ _ _ => rfl) fun _ _ => L.pure ()
  refine L.bind (L.harmless (.bindParameters c.line _ c.arguments)) fun _ _ => ?_
  refine L.bind (L.constructParent_goes (hunder ℓ' hℓ) c) fun _ _ => ?_
  refine L.execAll_goes (hunder ℓ' hℓ _) (hc.imp fun h => ⟨Nat.le_refl _, ?_⟩)
  cases hdecl : c.constructor.decl
  rw [hdecl] at h
  exact h

/-! ## Members and methods -/

theorem evalMember_goes (L : R.Laws) (hrun : R.Runs run ℓ z) (object : Expr)
    (hobject : sizeOf object < z) (name : String) (line : Nat) :
    R.Goes ℓ fun i => (run i).evalMember object name line := by
  refine L.bind (L.look fun _ _ _ => rfl) fun static? _ => ?_
  cases static? with
  | some cls => exact L.query line fun _ _ _ => rfl
  | none =>
      refine L.bind (hrun.eval object none hobject) fun receiver _ => ?_
      split
      · exact L.query line fun _ _ _ => rfl
      · exact L.query line fun _ _ _ => rfl
      · exact L.query line fun _ _ _ => rfl

theorem callStatic_goes (L : R.Laws) (hrun : R.Below run ℓ z) (cls : ClassId) (name : String)
    {arguments : List Expr} (hargs : ∀ e ∈ arguments, sizeOf e < z) (line : Nat) :
    R.Goes ℓ fun i => (run i).callStatic cls name arguments line := by
  refine L.bind (L.findMethod line (fun s => (s.findMethod_answers cls name).bind
    fun method hfind => ?_) fun _ _ _ => rfl) fun method hmethod => ?_
  · split
    · exact ⟨cls, name, hfind⟩
    · rfl
  · refine L.bind (L.evalAll_goes hrun.toRuns hargs) fun args _ => ?_
    exact L.invoke_goes hrun cls hmethod none args line

theorem callInstance_goes (L : R.Laws) (hrun : R.Below run ℓ z) (receiver : Value) (name : String)
    {arguments : List Expr} (hargs : ∀ e ∈ arguments, sizeOf e < z) (line : Nat) :
    R.Goes ℓ fun i => (run i).callInstance receiver name arguments line := by
  refine L.bind (L.query line fun _ _ _ => rfl) fun self _ => ?_
  refine L.bind (L.look fun _ _ _ => rfl) fun cls _ => ?_
  refine L.bind (L.findMethod line (fun s => (s.findMethod_answers cls name).bind
    fun method hfind => ?_) fun _ _ _ => rfl) fun method hmethod => ?_
  · split
    · rfl
    · exact ⟨cls, name, hfind⟩
  · refine L.bind (L.evalAll_goes hrun.toRuns hargs) fun args _ => ?_
    exact L.invoke_goes hrun cls hmethod (some self) args line

theorem evalMethodCall_goes (L : R.Laws) (hrun : R.Below run ℓ z) (object : Expr)
    (hobject : sizeOf object < z) (name : String) {arguments : List Expr}
    (hargs : ∀ e ∈ arguments, sizeOf e < z) (line : Nat) :
    R.Goes ℓ fun i => (run i).evalMethodCall object name arguments line := by
  refine L.bind (L.look fun _ _ _ => rfl) fun static? _ => ?_
  cases static? with
  | some cls => exact L.callStatic_goes hrun cls name hargs line
  | none =>
      refine L.bind (hrun.eval object none hobject) fun receiver _ => ?_
      exact L.callInstance_goes hrun receiver name hargs line

/-! ## Assignments -/

theorem writeMember_goes (L : R.Laws) (hrun : R.Runs run ℓ z) (object : Expr)
    (hobject : sizeOf object < z) (name : String) (v : Value) (line : Nat) :
    R.Goes ℓ fun i => (run i).writeMember object name v line := by
  refine L.bind (L.look fun _ _ _ => rfl) fun static? _ => ?_
  cases static? with
  | some cls => exact L.harmless (.writeStatic cls name v line)
  | none =>
      refine L.bind (hrun.eval object none hobject) fun receiver _ => ?_
      exact L.bind (L.query line fun _ _ _ => rfl) fun id _ =>
        L.harmless (.writeField id name v line)

theorem evalAssign_goes (L : R.Laws) (hrun : R.Runs run ℓ z) (target : Target) (value : Expr)
    (hsize : sizeOf target + sizeOf value < z) (line : Nat) :
    R.Goes ℓ fun i => (run i).evalAssign target value line := by
  have hvalue := hrun.eval value none (by omega)
  cases target with
  | var name =>
      refine L.bind hvalue fun v _ => ?_
      exact L.bind (L.harmless (.writeName name v line)) fun _ _ => L.pure v
  | index array position =>
      rw [Target.index.sizeOf_spec] at hsize
      refine L.bind (hrun.eval array none (by omega)) fun array _ => ?_
      refine L.bind (hrun.eval position none (by omega)) fun position _ => ?_
      refine L.bind (L.query line fun _ _ _ => rfl) fun index _ => ?_
      refine L.bind hvalue fun v _ => ?_
      exact L.bind (L.harmless (.assignItem array index v line)) fun _ _ => L.pure v
  | member object name =>
      rw [Target.member.sizeOf_spec] at hsize
      refine L.bind hvalue fun v _ => ?_
      refine L.bind (L.writeMember_goes hrun object (by omega) name v line) fun _ _ => L.pure v

/-! ## Operators and array literals -/

theorem evalBinary_goes (L : R.Laws) (hrun : R.Runs run ℓ z) (left : Expr) (op : BinaryOp)
    (right : Expr) (hsize : sizeOf left + sizeOf right < z) (line : Nat) :
    R.Goes ℓ fun i => (run i).evalBinary left op right line := by
  refine L.bind (hrun.eval left none (by omega)) fun a _ => ?_
  split
  · exact L.pure _
  · refine L.bind (hrun.eval right none (by omega)) fun b _ => ?_
    exact L.query line fun _ _ _ => rfl

theorem evalElements_goes (L : R.Laws) (hrun : R.Runs run ℓ z) (elementType : Option Ty)
    {es : List Expr} (hes : ∀ e ∈ es, sizeOf e < z) :
    R.Goes ℓ fun i => (run i).evalElements elementType es := by
  induction es with
  | nil => exact L.pure []
  | cons e rest ih =>
      refine L.bind (hrun.eval e elementType (hes e List.mem_cons_self)) fun v _ => ?_
      refine L.bind (ih fun e' he' => hes e' (List.mem_cons_of_mem _ he')) fun vs _ => ?_
      exact L.pure (v :: vs)

theorem evalArray_goes (L : R.Laws) (hrun : R.Runs run ℓ z) {es : List Expr}
    (hes : ∀ e ∈ es, sizeOf e < z) (elementType : Option Ty) (line : Nat) :
    R.Goes ℓ fun i => (run i).evalArray es elementType line := by
  refine L.bind (L.evalElements_goes hrun elementType hes) fun items _ => ?_
  exact L.bind (L.query line fun _ _ _ => rfl) fun element _ => L.harmless (.allocate fun h => h)

/-- An expression goes if all smaller expressions do. -/
theorem evalStep_goes (L : R.Laws) (e : Expr) (hrun : R.Below run ℓ (sizeOf e))
    (expected : Option Ty) : R.Goes ℓ fun i => (run i).evalStep e expected := by
  have hmem {es : List Expr} (hes : sizeOf es < sizeOf e) : ∀ e' ∈ es, sizeOf e' < sizeOf e :=
    fun e' he' => Nat.lt_trans (List.sizeOf_lt_of_mem he') hes
  cases e with
  | literal value line => exact L.pure _
  | var name line => exact L.query line fun _ _ _ => rfl
  | self line => exact L.query line fun _ _ _ => rfl
  | unary op operand line =>
      refine L.bind (hrun.eval operand none (by simp; omega)) fun v _ => ?_
      exact L.query line fun _ _ _ => rfl
  | binary left op right line =>
      exact L.evalBinary_goes hrun.toRuns left op right (by simp; omega) line
  | conditional condition onTrue onFalse line =>
      refine L.bind (hrun.eval condition none (by simp; omega)) fun v _ => ?_
      refine L.bind (L.query line fun _ _ _ => rfl) fun test _ => ?_
      split
      · exact hrun.eval onTrue none (by simp; omega)
      · exact hrun.eval onFalse none (by simp; omega)
  | assign target value line =>
      exact L.evalAssign_goes hrun.toRuns target value (by simp; omega) line
  | call name arguments line =>
      refine L.bind (L.evalAll_goes hrun.toRuns (hmem (by simp; omega))) fun args _ => ?_
      exact L.callNamed_goes hrun name args line
  | methodCall object name arguments line =>
      exact L.evalMethodCall_goes hrun object (by simp; omega) name (hmem (by simp; omega)) line
  | member object name line => exact L.evalMember_goes hrun.toRuns object (by simp; omega) name line
  | index array position line =>
      refine L.bind (hrun.eval array none (by simp; omega)) fun a _ => ?_
      refine L.bind (hrun.eval position none (by simp; omega)) fun p _ => ?_
      exact L.bind (L.query line fun _ _ _ => rfl) fun index _ => L.query line fun _ _ _ => rfl
  | array elements elementType line =>
      cases elementType with
      | some element =>
          exact L.evalArray_goes hrun.toRuns (hmem (by simp; omega)) (some element) line
      | none => exact L.evalArray_goes hrun.toRuns (hmem (by simp; omega)) _ line
  | new className arguments line => exact L.new_goes hrun className (hmem (by simp; omega)) line
  | typeTest operand ty line =>
      refine L.bind (hrun.eval operand none (by simp; omega)) fun v _ => ?_
      exact L.bind (L.look fun _ _ _ => rfl) fun test _ => L.pure _

end Regime.Laws

end ClassScript
