import ClassScript.Proofs.Conduct.Calls

/-!
# Conduct of expressions

Every kind of expression, and the running of a constructor, conforms to a lawful discipline if its
parts do. An object under construction is already a permitted value when its first initializer
runs; its fields arrive one by one, each checked against its declared type.
-/

namespace ClassScript

theorem Store.accepts_defaultFor (st : Store) (ty : Ty) :
    st.accepts ty (.defaultFor ty) = true := by
  cases ty <;> rfl

theorem Value.isPlain_defaultFor (ty : Ty) : (Value.defaultFor ty).isPlain = true := by
  cases ty <;> rfl

theorem Value.isPlain_ofLiteral (literal : Literal) : (Value.ofLiteral literal).isPlain = true := by
  cases literal <;> rfl

/-- The object exists and is of the class. -/
def Store.HasClass (st : Store) (id : ObjectId) (cls : ClassId) : Prop :=
  ∃ cell, st.objects[id]? = some cell ∧ cell.cls = cls

namespace Store.HasClass

variable {st st' : Store} {id : ObjectId} {cls : ClassId}

theorem grows (h : st.HasClass id cls) (hgrows : st.Grows st') : st'.HasClass id cls := by
  obtain ⟨cell, hcell, hcls⟩ := h
  obtain ⟨cell', hcell', hcls'⟩ := hgrows.objects id cell hcell
  exact ⟨cell', hcell', hcls'.trans hcls⟩

theorem objectCell (h : st.HasClass id cls) : (st.objectCell id).cls = cls := by
  obtain ⟨cell, hcell, hcls⟩ := h
  rw [Store.objectCell, hcell]
  exact hcls

theorem newObject (st : Store) (cls : ClassId) :
    (st.newObject cls).2.HasClass (st.newObject cls).1 cls :=
  ⟨{ cls, fields := .empty }, by simp [Store.newObject], rfl⟩

end Store.HasClass

namespace Discipline.Laws

variable {D : Discipline} {run run' : Interpreter} {s : Session}

/-! ## Declared values -/

theorem declaredSize_conforms (L : D.Laws) (hrun : D.Runs run run') (hs : D.Inv s)
    (decl : VariableDecl) :
    D.Conforms false s (run.declaredSize decl) (run'.declaredSize decl) fun _ _ => True := by
  unfold Interpreter.declaredSize
  split
  · rename_i size _
    refine (hrun.eval hs size none).bind fun v s₁ _ hs₁ _ => ?_
    refine L.askStoreThen_conforms hs₁ decl.line (s₁.store.asInt_answers v) fun n _ _ => ?_
    exact L.askThen_conforms hs₁ decl.line (fun _ _ => rfl) (Store.itemCount_answers n)
      fun _ _ _ => .pure hs₁ trivial
  · exact .pure hs trivial

theorem newDefaults_conforms (L : D.Laws) (hs : D.Inv s) (element : Ty) (count : Nat) :
    D.Conforms false s
      (Eval.allocate fun st => st.newArray element (Array.replicate count (.defaultFor element)))
      (Eval.allocate fun st => st.newArray element (Array.replicate count (.defaultFor element)))
      D.Val := by
  have hitems : ∀ v ∈ Array.replicate count (Value.defaultFor element),
      D.Val s.store v ∧ s.store.accepts element v = true := by
    intro v hv
    rw [(Array.mem_replicate.mp hv).2]
    exact ⟨L.val_plain (Value.isPlain_defaultFor element), s.store.accepts_defaultFor element⟩
  have h := L.newArray hs hitems
  exact .allocate (s.store.grows_newArray _ _) h.1 h.2

theorem declaredValue_conforms (L : D.Laws) (hrun : D.Runs run run') (hs : D.Inv s)
    (decl : VariableDecl) :
    D.Conforms false s (run.declaredValue decl) (run'.declaredValue decl) D.Val := by
  refine (L.declaredSize_conforms hrun hs decl).bind fun size s₁ _ hs₁ _ => ?_
  cases decl.initializer with
  | some initializer =>
      refine (hrun.eval hs₁ initializer (some decl.ty)).bind fun v s₂ _ hs₂ hv => ?_
      exact L.askStoreThen_conforms hs₂ decl.line (s₂.store.checkSize_answers size v)
        fun _ _ _ => .pure hs₂ hv
  | none =>
      cases size with
      | some size =>
          exact L.askThen_conforms hs₁ decl.line (fun _ _ => rfl) (Store.itemCount_answers size)
            fun count _ _ => L.newDefaults_conforms hs₁ _ count
      | none => exact .pure hs₁ (L.val_plain (Value.isPlain_defaultFor decl.ty))

/-! ## Instances -/

/-- The first value of a field is permitted, and its declared type accepts it. -/
theorem fieldValue_conforms (L : D.Laws) (hrun : D.Runs run run') (hs : D.Inv s)
    {field : FieldInfo} (hinit : ∀ v, field.init = .value v → D.Val s.store v)
    (scope : MemberScope) (line : Nat)
    (hself : ∀ id, scope.self = some id → D.Admits s.store scope.cls id) :
    D.Conforms false s (run.fieldValue field scope line) (run'.fieldValue field scope line)
      fun st v => D.Val st v ∧ st.accepts field.ty v = true := by
  have hcheck {s₁ : Session} (hs₁ : D.Inv s₁) {v : Value} (hv : D.Val s₁.store v) :
      D.Conforms false s₁
        (Eval.askStore line (fun st => st.check field.ty v) >>= fun _ => pure v)
        (Eval.askStore line (fun st => st.check field.ty v) >>= fun _ => pure v)
        fun st v => D.Val st v ∧ st.accepts field.ty v = true :=
    L.askStoreThen_conforms hs₁ line (s₁.store.check_answers field.ty v)
      fun _ _ hacc => .pure hs₁ ⟨hv, hacc⟩
  unfold Interpreter.fieldValue
  cases h : field.init with
  | value v => exact (Conforms.pure hs (hinit v h)).bind fun w s₁ _ hs₁ hw => hcheck hs₁ hw
  | declared decl =>
      refine .readThen (fun _ => rfl) ?_
      refine (Conforms.withFrame (Q := D.Val) L hs _ line (fun scope' id hscope hid => ?_)
        fun hs₁ => (L.declaredValue_conforms hrun hs₁ decl).toBinding).bind
        fun v s₁ _ hs₁ hv => hcheck hs₁ hv
      obtain rfl : scope = scope' := Option.some.inj hscope
      exact hself id hid

/-- Fields may be given their first values where each of these writes is permitted. -/
theorem initializeFields_conforms_of (L : D.Laws) (hrun : D.Runs run run') (hs : D.Inv s)
    {cls : ClassId} {self : ObjectId} (line : Nat) (fields : List FieldInfo)
    (hclass : s.store.HasClass self cls) (hself : D.Val s.store (.object self))
    (hfields : ∀ field ∈ fields, D.Init s.store cls field ∧
      ∀ {s : Session} {v}, D.Inv s → D.Init s.store cls field →
        (s.store.objectCell self).cls = cls → D.Val s.store v →
        s.store.accepts field.ty v = true →
        D.Inv { s with store := s.store.putField self field.name v }) :
    D.Conforms false s (run.initializeFields cls self line fields)
      (run'.initializeFields cls self line fields) fun _ _ => True := by
  induction fields generalizing s with
  | nil => exact .pure hs trivial
  | cons field rest ih =>
      obtain ⟨hinit, hput⟩ := hfields field List.mem_cons_self
      refine (L.fieldValue_conforms hrun hs (fun v => L.init_value hinit) _ line
        fun id hid => ?_).bind fun v s₁ hk₁ hs₁ hv => ?_
      · obtain rfl : self = id := Option.some.inj hid
        exact hclass.objectCell ▸ L.admits_object hs hself
      have hput₁ := hput hs₁ (L.init_grows hk₁.store hinit) (hclass.grows hk₁.store).objectCell
        hv.1 hv.2
      refine (Conforms.updateStore (Q := fun _ _ => True) (s₁.store.grows_putField _ _ _) hput₁
        trivial).bind fun _ s₂ hk₂ hs₂ _ => ?_
      have hgrows := hk₁.store.trans hk₂.store
      refine ih hs₂ (hclass.grows hgrows) (L.val_grows hgrows hself) fun other hother => ?_
      have h := hfields other (List.mem_cons_of_mem _ hother)
      exact ⟨L.init_grows hgrows h.1, h.2⟩

/-- An object that is made while the discipline is observed may be given its fields. -/
theorem initializeFields_conforms (L : D.Laws) (hrun : D.Runs run run') (hs : D.Inv s)
    {cls : ClassId} {self : ObjectId} (line : Nat) (fields : List FieldInfo)
    (hmade : D.MadeUnder self) (hclass : s.store.HasClass self cls)
    (hself : D.Val s.store (.object self))
    (hfields : ∀ field ∈ fields, D.Init s.store cls field ∧ field.isStatic = false) :
    D.Conforms false s (run.initializeFields cls self line fields)
      (run'.initializeFields cls self line fields) fun _ _ => True := by
  refine L.initializeFields_conforms_of hrun hs line fields hclass hself fun field hfield => ?_
  obtain ⟨hinit, hstatic⟩ := hfields field hfield
  exact ⟨hinit, fun hs hinit => L.initField hmade hs hinit hstatic⟩

/-- What is known of the fields that an instance of the class is given. -/
theorem init_instanceFields (L : D.Laws) (hs : D.Inv s) {cls : ClassId} (hcls : D.Cls s.store cls) :
    ∀ field ∈ Interpreter.instanceFields (s.store.classInfo cls),
      D.Init s.store cls field ∧ field.isStatic = false := by
  intro field hfield
  obtain ⟨hmem, hstatic⟩ := List.mem_filter.mp hfield
  exact ⟨L.init_field hs hcls hmem, by simpa using hstatic⟩

theorem new_conforms (L : D.Laws) (hrun : D.Runs run run') (hs : D.Inv s) (className : String)
    (arguments : List Expr) (line : Nat) :
    D.Conforms false s (run.new className arguments line) (run'.new className arguments line)
      D.Val := by
  refine L.askStoreThen_conforms hs line (s.store.instantiable_answers className)
    fun cls _ hnamed => ?_
  have hcls := L.cls_named hs hnamed
  refine (L.evalAll_conforms hrun hs arguments).bind fun args s₁ hk₁ hs₁ hargs => ?_
  refine L.askThen_conforms hs₁ line (fun _ _ => rfl) (s₁.checkConstructor_answers cls args)
    fun _ _ _ => ?_
  have hnew := L.newObject hs₁ (L.cls_grows hk₁.store hcls)
  refine (Conforms.allocate
    (Q := fun st id => D.Val st (.object id) ∧ st.HasClass id cls ∧ id = s₁.store.objects.size)
    (s₁.store.grows_newObject cls) hnew.1 ⟨hnew.2, .newObject _ cls, rfl⟩).bind
    fun self s₂ hk₂ hs₂ hself => ?_
  obtain ⟨hself, hclass, hid⟩ := hself
  have hcls₂ := L.cls_grows (hk₁.store.trans hk₂.store) hcls
  have hmade : D.MadeUnder self := ⟨s₁, hs₁, Nat.le_of_eq hid.symm⟩
  have hbuilt : D.Built self := hid ▸ L.built_new hs₁
  refine .readThen (fun _ => rfl) ?_
  refine (L.initializeFields_conforms hrun hs₂ line _ hmade hclass hself
    (L.init_instanceFields hs₂ hcls₂)).bind fun _ s₃ hk₃ hs₃ _ => ?_
  have hself₃ : D.Admits s₃.store cls self :=
    L.admits_grows hk₃.store (hclass.objectCell ▸ L.admits_object hs₂ hself)
  refine .readThen (fun _ => rfl) ?_
  cases (s₃.store.classInfo cls).constructor with
  | none => exact .pure hs₃ hself₃.1
  | some constructor =>
      refine (hrun.construct hs₃ _ hbuilt hself₃ fun a ha => ?_).bind
        fun _ s₄ hk₄ hs₄ _ => .pure hs₄ (L.val_grows hk₄.store hself₃.1)
      exact L.val_grows (hk₂.store.trans hk₃.store) (hargs a ha)

theorem constructParent_conforms (L : D.Laws) (hrun : D.Runs run run') (hs : D.Inv s)
    (c : Construction) (hbuilt : D.Built c.self) (hself : D.Admits s.store c.cls c.self) :
    D.Conforms false s (run.constructParent c) (run'.constructParent c) fun _ _ => True := by
  refine L.askStoreThen_conforms hs c.line (s.store.getClass_answers c.constructor.owner)
    fun ownerClass _ _ => ?_
  refine .readThen (fun _ => rfl) ?_
  cases (s.store.classInfo ownerClass).parent? with
  | none =>
      dsimp only
      split
      · exact .raise hs c.line (L.err_ordinary rfl)
      · exact .pure hs trivial
  | some parent =>
      refine (L.evalAll_conforms hrun hs _).bind fun args s₁ hk₁ hs₁ hargs => ?_
      refine .readThen (fun _ => rfl) ?_
      cases (s₁.store.classInfo parent).constructor with
      | some constructor =>
          exact hrun.construct hs₁ _ hbuilt (L.admits_grows hk₁.store hself) hargs
      | none =>
          dsimp only
          split
          · exact .pure hs₁ trivial
          · exact .raise hs₁ c.line (L.err_ordinary rfl)

/-- What a constructor does in its frame. -/
theorem constructorCode_conforms (L : D.Laws) (hrun : D.Runs run run') (hs : D.Inv s)
    (c : Construction) (hbuilt : D.Built c.self) (hself : D.Admits s.store c.cls c.self)
    (hargs : ∀ a ∈ c.arguments, D.Val s.store a) :
    D.Conforms true s
      (do bindParameters c.line c.constructor.decl.params c.arguments
          run.constructParent c
          run.execAll c.constructor.decl.body)
      (do bindParameters c.line c.constructor.decl.params c.arguments
          run'.constructParent c
          run'.execAll c.constructor.decl.body) D.Sig := by
  refine (L.bindParameters_conforms hs c.line _ c.arguments hargs).bind fun _ s₁ hk₁ hs₁ _ => ?_
  have hself₁ := L.admits_grows hk₁.store hself
  refine (L.constructParent_conforms hrun hs₁ c hbuilt hself₁).toBinding.bind
    fun _ s₂ _ hs₂ _ => ?_
  exact execAll_conforms hrun hs₂ _

theorem constructStep_conforms (L : D.Laws) (hrun : D.Runs run run') (hs : D.Inv s)
    (c : Construction) (hbuilt : D.Built c.self) (hself : D.Admits s.store c.cls c.self)
    (hargs : ∀ a ∈ c.arguments, D.Val s.store a) :
    D.Conforms false s (run.constructStep c) (run'.constructStep c) fun _ _ => True := by
  refine L.askStoreThen_conforms hs c.line (s.store.checkArguments_answers _ _ _)
    fun _ _ _ => ?_
  refine .readThen (fun _ => rfl) ?_
  refine (Conforms.withFrame (Q := D.Sig) L hs _ c.line (fun scope id hscope hid => ?_)
    fun hs₁ => L.constructorCode_conforms hrun hs₁ c hbuilt hself hargs).bind
      fun signal s₁ _ hs₁ hsig => ?_
  · obtain rfl := Option.some.inj hscope
    obtain rfl : c.self = id := Option.some.inj hid
    exact hself
  · have h := L.callResult_replies hsig (c.constructor.owner ++ ".constructor") .void
    exact .askStoreThen hs₁ c.line h.2 fun _ _ => .pure hs₁ trivial

/-! ## Members and methods -/

theorem evalMember_conforms (L : D.Laws) (hrun : D.Runs run run') (hs : D.Inv s) (object : Expr)
    (name : String) (line : Nat) :
    D.Conforms false s (run.evalMember object name line) (run'.evalMember object name line)
      D.Val := by
  refine .readThen (fun _ => rfl) ?_
  cases s.staticReceiver? object with
  | some cls =>
      exact L.ask_conforms hs line (fun _ _ => rfl) (s.readStatic_answers cls name)
        fun _ => L.val_stored hs
  | none =>
      refine (hrun.eval hs object none).bind fun receiver s₁ _ hs₁ _ => ?_
      have hlength : D.Conforms false s₁ (Eval.askStore line fun st => st.length receiver)
          (Eval.askStore line fun st => st.length receiver) D.Val :=
        L.askStore_conforms hs₁ line (s₁.store.length_answers receiver) fun _ => L.val_plain
      split
      · exact hlength
      · exact hlength
      · exact L.ask_conforms hs₁ line (fun _ _ => rfl)
          ((s₁.objectOf_answers receiver name).bind fun id _ => s₁.readField_answers id name)
          fun _ => L.val_stored hs₁

theorem callStatic_conforms (L : D.Laws) (hrun : D.Runs run run') (hs : D.Inv s) (cls : ClassId)
    (name : String) (arguments : List Expr) (line : Nat) :
    D.Conforms false s (run.callStatic cls name arguments line)
      (run'.callStatic cls name arguments line) D.Val := by
  refine L.askThen_conforms hs line (fun _ _ => rfl)
    ((s.findMethod_answers cls name).bind (R := D.Meth s.store) fun method hfind => ?_)
    fun method _ hmethod => ?_
  · split
    · exact L.meth_found hs hfind
    · rfl
  refine (L.evalAll_conforms hrun hs arguments).bind fun args s₁ hk₁ hs₁ hargs => ?_
  exact L.invoke_conforms hrun hs₁ cls (L.meth_grows hk₁.store hmethod) none args line hargs nofun

theorem callInstance_conforms (L : D.Laws) (hrun : D.Runs run run') (hs : D.Inv s)
    {receiver : Value} (hreceiver : D.Val s.store receiver) (name : String)
    (arguments : List Expr) (line : Nat) :
    D.Conforms false s (run.callInstance receiver name arguments line)
      (run'.callInstance receiver name arguments line) D.Val := by
  refine L.askThen_conforms hs line (fun _ _ => rfl) (s.objectOf_answers receiver name)
    fun self _ hself => ?_
  subst hself
  refine .readThen (fun _ => rfl) ?_
  refine L.askThen_conforms hs line (fun _ _ => rfl)
    ((s.findMethod_answers _ name).bind (R := D.Meth s.store) fun method hfind => ?_)
    fun method _ hmethod => ?_
  · split
    · rfl
    · exact L.meth_found hs hfind
  refine (L.evalAll_conforms hrun hs arguments).bind fun args s₁ hk₁ hs₁ hargs => ?_
  refine L.invoke_conforms hrun hs₁ _ (L.meth_grows hk₁.store hmethod) (some self) args line
    hargs fun id hid => ?_
  obtain rfl : self = id := Option.some.inj hid
  exact L.admits_grows hk₁.store (L.admits_object hs hreceiver)

theorem evalMethodCall_conforms (L : D.Laws) (hrun : D.Runs run run') (hs : D.Inv s)
    (object : Expr) (name : String) (arguments : List Expr) (line : Nat) :
    D.Conforms false s (run.evalMethodCall object name arguments line)
      (run'.evalMethodCall object name arguments line) D.Val := by
  refine .readThen (fun _ => rfl) ?_
  cases s.staticReceiver? object with
  | some cls => exact L.callStatic_conforms hrun hs cls name arguments line
  | none =>
      exact (hrun.eval hs object none).bind fun receiver s₁ _ hs₁ hreceiver =>
        L.callInstance_conforms hrun hs₁ hreceiver name arguments line

/-! ## Assignments -/

theorem writeMember_conforms (L : D.Laws) (hrun : D.Runs run run') (hs : D.Inv s)
    (object : Expr) (name : String) {v : Value} (hv : D.Val s.store v) (line : Nat) :
    D.Conforms false s (run.writeMember object name v line) (run'.writeMember object name v line)
      fun _ _ => True := by
  refine .readThen (fun _ => rfl) ?_
  cases s.staticReceiver? object with
  | some cls => exact L.writeStatic_conforms hs hv cls name line
  | none =>
      refine (hrun.eval hs object none).bind fun receiver s₁ hk₁ hs₁ _ => ?_
      exact L.askThen_conforms hs₁ line (fun _ _ => rfl) (s₁.objectOf_answers receiver name)
        fun id _ _ => L.writeField_conforms hs₁ (L.val_grows hk₁.store hv) id name line

theorem evalAssign_conforms (L : D.Laws) (hrun : D.Runs run run') (hs : D.Inv s)
    (target : Target) (value : Expr) (line : Nat) :
    D.Conforms false s (run.evalAssign target value line) (run'.evalAssign target value line)
      D.Val := by
  cases target with
  | var name =>
      refine (hrun.eval hs value none).bind fun v s₁ _ hs₁ hv => ?_
      exact (L.writeName_conforms hs₁ hv name line).bind
        fun _ s₂ hk₂ hs₂ _ => .pure hs₂ (L.val_grows hk₂.store hv)
  | index array position =>
      refine (hrun.eval hs array none).bind fun a s₁ _ hs₁ _ => ?_
      refine (hrun.eval hs₁ position none).bind fun p s₂ _ hs₂ _ => ?_
      refine L.askStoreThen_conforms hs₂ line (s₂.store.asInt_answers p) fun i _ _ => ?_
      refine (hrun.eval hs₂ value none).bind fun v s₃ _ hs₃ hv => ?_
      exact (L.assignItem_conforms hs₃ hv a i line).bind
        fun _ s₄ hk₄ hs₄ _ => .pure hs₄ (L.val_grows hk₄.store hv)
  | member object name =>
      refine (hrun.eval hs value none).bind fun v s₁ _ hs₁ hv => ?_
      exact (L.writeMember_conforms hrun hs₁ object name hv line).bind
        fun _ s₂ hk₂ hs₂ _ => .pure hs₂ (L.val_grows hk₂.store hv)

/-! ## Operators and array literals -/

theorem evalBinary_conforms (L : D.Laws) (hrun : D.Runs run run') (hs : D.Inv s) (left : Expr)
    (op : BinaryOp) (right : Expr) (line : Nat) :
    D.Conforms false s (run.evalBinary left op right line) (run'.evalBinary left op right line)
      D.Val := by
  refine (hrun.eval hs left none).bind fun a s₁ _ hs₁ _ => ?_
  cases hdecided : Interpreter.decided? op a with
  | some v =>
      refine .pure hs₁ (L.val_plain ?_)
      unfold Interpreter.decided? at hdecided
      split at hdecided
      · cases hdecided
        rfl
      · cases hdecided
        rfl
      · cases hdecided
  | none =>
      refine (hrun.eval hs₁ right none).bind fun b s₂ _ hs₂ _ => ?_
      exact L.askStore_conforms hs₂ line (s₂.store.applyBinary_answers op a b)
        fun _ => L.val_plain

theorem evalElements_conforms (L : D.Laws) (hrun : D.Runs run run') (hs : D.Inv s)
    (elementType : Option Ty) (es : List Expr) :
    D.Conforms false s (run.evalElements elementType es) (run'.evalElements elementType es)
      fun st vs => ∀ v ∈ vs, D.Val st v := by
  induction es generalizing s with
  | nil => exact .pure hs fun _ h => absurd h List.not_mem_nil
  | cons e rest ih =>
      refine (hrun.eval hs e elementType).bind fun v s₁ _ hs₁ hv => ?_
      refine (ih hs₁).bind fun vs s₂ hk₂ hs₂ hvs => .pure hs₂ fun w hw => ?_
      rcases List.mem_cons.mp hw with rfl | hw
      · exact L.val_grows hk₂.store hv
      · exact hvs w hw

theorem evalArray_conforms (L : D.Laws) (hrun : D.Runs run run') (hs : D.Inv s)
    (elements : List Expr) (elementType : Option Ty) (line : Nat) :
    D.Conforms false s (run.evalArray elements elementType line)
      (run'.evalArray elements elementType line) D.Val := by
  refine (L.evalElements_conforms hrun hs elementType elements).bind
    fun items s₁ _ hs₁ hitems => ?_
  refine L.askStoreThen_conforms hs₁ line (s₁.store.literalType_answers elementType items)
    fun element _ hacc => ?_
  have hall : ∀ v ∈ items.toArray, D.Val s₁.store v ∧ s₁.store.accepts element v = true :=
    fun v hv => ⟨hitems v (List.mem_toArray.mp hv), hacc v (List.mem_toArray.mp hv)⟩
  have h := L.newArray hs₁ hall
  exact .allocate (s₁.store.grows_newArray _ _) h.1 h.2

/-! ## Expressions -/

theorem evalStep_conforms (L : D.Laws) (hrun : D.Runs run run') (hs : D.Inv s) (e : Expr)
    (expected : Option Ty) :
    D.Conforms false s (run.evalStep e expected) (run'.evalStep e expected) D.Val := by
  unfold Interpreter.evalStep
  cases e with
  | literal value line => exact .pure hs (L.val_plain (Value.isPlain_ofLiteral value))
  | var name line =>
      exact L.ask_conforms hs line (fun _ _ => rfl) (s.readName_answers name)
        fun _ => L.val_stored hs
  | self line =>
      refine L.ask_conforms hs line (fun _ _ => rfl) s.currentSelf_answers ?_
      rintro _ ⟨scope, id, hscope, hid, rfl⟩
      exact L.val_self hs hscope hid
  | unary op operand line =>
      refine (hrun.eval hs operand none).bind fun v s₁ _ hs₁ _ => ?_
      exact L.askStore_conforms hs₁ line (s₁.store.applyUnary_answers op v) fun _ => L.val_plain
  | binary left op right line => exact L.evalBinary_conforms hrun hs left op right line
  | conditional condition onTrue onFalse line =>
      refine (hrun.eval hs condition none).bind fun v s₁ _ hs₁ _ => ?_
      refine L.askStoreThen_conforms hs₁ line (s₁.store.asBool_answers v) fun b _ _ => ?_
      cases b with
      | true => exact hrun.eval hs₁ onTrue none
      | false => exact hrun.eval hs₁ onFalse none
  | assign target value line => exact L.evalAssign_conforms hrun hs target value line
  | call name arguments line =>
      exact (L.evalAll_conforms hrun hs arguments).bind fun args s₁ _ hs₁ hargs =>
        L.callNamed_conforms hrun hs₁ name args line hargs
  | methodCall object name arguments line =>
      exact L.evalMethodCall_conforms hrun hs object name arguments line
  | member object name line => exact L.evalMember_conforms hrun hs object name line
  | index array position line =>
      refine (hrun.eval hs array none).bind fun a s₁ _ hs₁ _ => ?_
      refine (hrun.eval hs₁ position none).bind fun p s₂ _ hs₂ _ => ?_
      refine L.askStoreThen_conforms hs₂ line (s₂.store.asInt_answers p) fun i _ _ => ?_
      refine L.askStore_conforms hs₂ line (s₂.store.item_answers a i) ?_
      rintro v (hplain | ⟨id, hitem⟩)
      · exact L.val_plain hplain
      · exact L.val_stored hs₂ (.item hitem)
  | array elements elementType line =>
      cases elementType with
      | some element => exact L.evalArray_conforms hrun hs elements (some element) line
      | none => exact L.evalArray_conforms hrun hs elements _ line
  | new className arguments line => exact L.new_conforms hrun hs className arguments line
  | typeTest operand ty line =>
      exact (hrun.eval hs operand none).bind fun v s₁ _ hs₁ _ =>
        .readThen (fun _ => rfl) (.pure hs₁ (L.val_plain rfl))

end Discipline.Laws

end ClassScript
