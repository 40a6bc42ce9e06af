import ClassScript.Proofs.Discipline

/-!
# Answers of the store and the session

Evaluation asks the store and the session many questions: the value of a name, the result of an
operator, whether a write is allowed. Every question has either an answer, of which this module
says what evaluation relies on, or an ordinary cause of failure. No question fails because of a jump
that needs a surrounding construct: only calls and programs do.
-/

namespace ClassScript

/-- A jump out of the body or the program in which it stands. -/
def Cause.isEscape : Cause → Bool
  | .controlFlowEscape _ => true
  | _ => false

/-- A cause for which a question may have no answer. -/
def Cause.isReason (cause : Cause) : Bool := cause.isOrdinary && !cause.isEscape

theorem Cause.isOrdinary_of_isReason {cause : Cause} (h : cause.isReason = true) :
    cause.isOrdinary = true :=
  ((Bool.and_eq_true _ _).mp h).1

theorem Cause.not_isEscape_of_isReason {cause : Cause} (h : cause.isReason = true) :
    cause.isEscape = false :=
  (Bool.not_eq_true' _).mp ((Bool.and_eq_true _ _).mp h).2

/-- The answer satisfies `P`, or there is an ordinary reason why there is none. -/
def Answers {α : Type} (P : α → Prop) : Except Cause α → Prop
  | .ok a => P a
  | .error cause => cause.isReason = true

namespace Answers

variable {α β : Type} {P P' : α → Prop} {R : β → Prop} {q : Except Cause α}
  {f : α → Except Cause β}

protected theorem bind (hq : Answers P q) (hf : ∀ a, P a → Answers R (f a)) :
    Answers R (q >>= f) := by
  cases q with
  | ok a => exact hf a hq
  | error cause => exact hq

theorem mono (h : Answers P q) (hP : ∀ a, P a → P' a) : Answers P' q := by
  cases q with
  | ok a => exact hP a h
  | error cause => exact h

theorem of_ok {a : α} (h : Answers P q) (hq : q = .ok a) : P a := by
  rw [hq] at h
  exact h

theorem isReason_of_error {cause : Cause} (h : Answers P q) (hq : q = .error cause) :
    cause.isReason = true := by
  rw [hq] at h
  exact h

theorem of_error {cause : Cause} (h : Answers P q) (hq : q = .error cause) :
    cause.isOrdinary = true :=
  Cause.isOrdinary_of_isReason (h.isReason_of_error hq)

end Answers

namespace Store

variable (st : Store)

/-! ## Operators -/

theorem orOverflow_answers {α : Type} {make : α → Value} (hmake : ∀ a, (make a).isPlain = true)
    (result : Option α) : Answers (·.isPlain = true) (orOverflow make result) := by
  cases result with
  | none => rfl
  | some a => exact hmake a

theorem arithmetic_answers (op : BinaryOp) (ops : Arithmetic) (a b : Value) :
    Answers (·.isPlain = true) (st.arithmetic op ops a b) := by
  unfold arithmetic
  split
  · exact orOverflow_answers (fun _ => rfl) _
  · rfl
  · rfl
  · exact orOverflow_answers (fun _ => rfl) _
  · rfl

theorem add_answers (a b : Value) : Answers (·.isPlain = true) (st.add a b) := by
  unfold add
  split
  · rfl
  · exact st.arithmetic_answers _ _ _ _

theorem dividing_answers (op : BinaryOp) (ops : Arithmetic) (a b : Value) :
    Answers (·.isPlain = true) (st.dividing op ops a b) := by
  unfold dividing
  split
  · rfl
  · exact st.arithmetic_answers _ _ _ _

theorem comparison_answers (op : BinaryOp) (test : Ordering → Bool) (a b : Value) :
    Answers (·.isPlain = true) (st.comparison op test a b) := by
  unfold comparison
  split <;> rfl

theorem equality_answers (op : BinaryOp) (test : Bool → Bool) (a b : Value) :
    Answers (·.isPlain = true) (st.equality op test a b) := by
  unfold equality
  split <;> rfl

theorem logical_answers (op : BinaryOp) (combine : Bool → Bool → Bool) (a b : Value) :
    Answers (·.isPlain = true) (st.logical op combine a b) := by
  unfold logical
  split <;> rfl

theorem shift_answers (op : BinaryOp) (shifted : Int64 → Int64 → Int64) (a b : Value) :
    Answers (·.isPlain = true) (st.shift op shifted a b) := by
  unfold shift
  split <;> rfl

theorem applyBinary_answers (op : BinaryOp) (a b : Value) :
    Answers (·.isPlain = true) (st.applyBinary op a b) := by
  cases op with
  | add => exact st.add_answers a b
  | subtract | multiply => exact st.arithmetic_answers _ _ a b
  | divide | modulo => exact st.dividing_answers _ _ a b
  | less | lessEqual | greater | greaterEqual => exact st.comparison_answers _ _ a b
  | equal | notEqual => exact st.equality_answers _ _ a b
  | and | or => exact st.logical_answers _ _ a b
  | shiftLeft | shiftRight | shiftRightLogical => exact st.shift_answers _ _ a b

theorem applyUnary_answers (op : UnaryOp) (a : Value) :
    Answers (·.isPlain = true) (st.applyUnary op a) := by
  cases op with
  | negate => exact st.arithmetic_answers _ _ _ _
  | not => exact st.equality_answers _ _ _ _

theorem asBool_answers (a : Value) : Answers (fun _ => True) (st.asBool a) := by
  cases a <;> trivial

theorem asInt_answers (a : Value) : Answers (fun _ => True) (st.asInt a) := by
  cases a <;> trivial

/-! ## Types, sequences and classes -/

theorem check_answers (ty : Ty) (v : Value) :
    Answers (fun _ => st.accepts ty v = true) (st.check ty v) := by
  unfold check
  split
  · assumption
  · rfl

theorem check_ok {ty : Ty} {v : Value} (h : st.check ty v = .ok ()) : st.accepts ty v = true :=
  (st.check_answers ty v).of_ok h

theorem itemCount_answers (size : Int64) : Answers (fun _ => True) (itemCount size) := by
  unfold itemCount
  split <;> trivial

theorem position_answers (index : Int64) (length : Nat) :
    Answers (· < length) (position index length) := by
  unfold position Word.position?
  by_cases h : 0 ≤ index.toInt ∧ index.toInt.toNat < length
  · rw [if_pos h]
    exact h.2
  · rw [if_neg h]
    rfl

theorem length_answers (v : Value) : Answers (·.isPlain = true) (st.length v) := by
  unfold length
  split
  · exact orOverflow_answers (fun _ => rfl) _
  · exact orOverflow_answers (fun _ => rfl) _
  · rfl

theorem item_answers (v : Value) (index : Int64) :
    Answers (fun item => item.isPlain = true ∨ ∃ id, item ∈ (st.arrayCell id).items)
      (st.item v index) := by
  unfold item
  split
  · rename_i id
    refine (position_answers index _).bind fun p hp => ?_
    refine Or.inr ⟨id, ?_⟩
    rw [Array.getElem?_eq_getElem hp]
    exact Array.getElem_mem hp
  · exact (position_answers index _).bind fun p _ => Or.inl rfl
  · rfl

/-- An allowed write goes to an array whose element type accepts the value. -/
theorem itemTarget_answers (target : Value) (index : Int64) (v : Value) :
    Answers (fun place => st.accepts (st.arrayCell place.1).element v = true)
      (st.itemTarget target index v) := by
  unfold itemTarget
  split
  · refine (st.check_answers _ v).bind fun _ hacc => ?_
    exact (position_answers _ _).bind fun _ _ => hacc
  · rfl

theorem getClass_answers (name : String) :
    Answers (fun cls => st.findClass? name = some cls) (st.getClass name) := by
  unfold getClass
  split
  · assumption
  · rfl

theorem checkClassName_answers (name : String) :
    Answers (fun _ => True) (st.checkClassName name) := by
  unfold checkClassName
  split <;> trivial

end Store

namespace Session

variable (s : Session)

/-! ## Members -/

theorem checkAccess_answers (cls : ClassId) (member : String) (access : Access)
    (owner : String) : Answers (fun _ => True) (s.checkAccess cls member access owner) := by
  unfold checkAccess
  split <;> trivial

theorem findMethod_answers (cls : ClassId) (name : String) :
    Answers (fun method => (s.store.classInfo cls).methods.find? name = some method)
      (s.findMethod cls name) := by
  unfold findMethod
  split
  · rename_i method hfind
    exact (s.checkAccess_answers _ _ _ _).bind fun _ _ => hfind
  · rfl

theorem findField_answers (cls : ClassId) (name : String) :
    Answers (fun field => (s.store.classInfo cls).fields.find? name = some field)
      (s.findField cls name) := by
  unfold findField
  split
  · assumption
  · rfl

theorem staticField_answers (cls : ClassId) (name : String) :
    Answers (fun field => (s.store.classInfo cls).fields.find? name = some field ∧
      field.isStatic = true) (s.staticField cls name) := by
  refine (s.findField_answers cls name).bind fun field hfind => ?_
  split
  · rename_i hstatic
    exact (s.checkAccess_answers _ _ _ _).bind fun _ _ => ⟨hfind, hstatic⟩
  · rfl

theorem instanceField_answers (cls : ClassId) (name : String) :
    Answers (fun field => (s.store.classInfo cls).fields.find? name = some field ∧
      field.isStatic = false) (s.instanceField cls name) := by
  refine (s.findField_answers cls name).bind fun field hfind => ?_
  split
  · rfl
  · rename_i hstatic
    exact (s.checkAccess_answers _ _ _ _).bind fun _ _ =>
      ⟨hfind, Bool.eq_false_iff.mpr hstatic⟩

theorem checkWrite_answers (cls : ClassId) (field : FieldInfo) (name : String) (v : Value) :
    Answers (fun _ => s.store.accepts field.ty v = true) (s.checkWrite cls field name v) := by
  unfold checkWrite
  split
  · rfl
  · exact s.store.check_answers field.ty v

theorem readStatic_answers (cls : ClassId) (name : String) :
    Answers s.Stores (s.readStatic cls name) := by
  refine (s.staticField_answers cls name).bind fun _ _ => ?_
  split
  · rename_i v h
    exact .static h
  · rfl

theorem staticTarget_answers (cls : ClassId) (name : String) (v : Value) :
    Answers (fun _ => True) (s.staticTarget cls name v) := by
  refine (s.staticField_answers cls name).bind fun field _ => ?_
  refine (s.checkWrite_answers cls field name v).bind fun _ _ => ?_
  split <;> trivial

theorem readField_answers (id : ObjectId) (name : String) :
    Answers s.Stores (s.readField id name) := by
  refine (s.instanceField_answers _ name).bind fun _ _ => ?_
  split
  · rename_i v h
    exact .field h
  · rfl

/-- An allowed write goes to a field of the object's class whose type accepts the value. -/
theorem checkFieldWrite_answers (id : ObjectId) (name : String) (v : Value) :
    Answers (fun _ => ∃ field, (s.store.classInfo (s.objectClass id)).fields.find? name =
      some field ∧ field.isStatic = false ∧ s.store.accepts field.ty v = true)
      (s.checkFieldWrite id name v) := by
  refine (s.instanceField_answers _ name).bind fun field hfield => ?_
  exact (s.checkWrite_answers _ field name v).mono fun _ hacc =>
    ⟨field, hfield.1, hfield.2, hacc⟩

theorem objectOf_answers (v : Value) (member : String) :
    Answers (fun id => v = .object id) (s.objectOf v member) := by
  unfold objectOf
  split <;> rfl

theorem receiver_answers (scope : MemberScope) (member : String) :
    Answers (fun id => scope.self = some id) (s.receiver scope member) := by
  unfold receiver
  split
  · assumption
  · rfl

theorem readImplicit_answers (name : String) : Answers s.Stores (s.readImplicit name) := by
  unfold readImplicit
  split
  · rfl
  · split
    · exact s.readStatic_answers _ name
    · exact (s.receiver_answers _ name).bind fun id _ => s.readField_answers id name

theorem readName_answers (name : String) : Answers s.Stores (s.readName name) := by
  unfold readName
  split
  · rename_i v h
    exact .named h
  · exact s.readImplicit_answers name

theorem currentSelf_answers :
    Answers (fun v => ∃ scope id, s.member? = some scope ∧ scope.self = some id ∧ v = .object id)
      (Interpreter.currentSelf s) := by
  unfold Interpreter.currentSelf
  split
  · rename_i id h
    obtain ⟨scope, hscope, hid⟩ := Option.bind_eq_some_iff.mp h
    exact ⟨scope, id, hscope, hid, rfl⟩
  · rfl

theorem loadModule_answers (path : String) :
    Answers (fun _ => True) (Interpreter.loadModule path s) := by
  unfold Interpreter.loadModule
  split <;> trivial

theorem checkFunction_answers (decl : FunctionDecl) :
    Answers (fun _ => True) (checkFunction decl s) := by
  unfold checkFunction
  split
  · rfl
  · split <;> trivial

theorem checkConstructor_answers (cls : ClassId) (args : List Value) :
    Answers (fun _ => True) (Interpreter.checkConstructor cls args s) := by
  unfold Interpreter.checkConstructor
  dsimp only
  split
  · exact s.checkAccess_answers _ _ _ _
  · split <;> trivial

end Session

/-! ## Variables -/

namespace ScopeStack

theorem declarable_answers (s : ScopeStack) (st : Store) (name : String) (ty : Ty) (v : Value) :
    Answers (fun _ => st.accepts ty v = true) (s.declarable st name ty v) := by
  refine (st.check_answers ty v).bind fun _ hacc => ?_
  split
  · rfl
  · exact hacc

/-- An allowed assignment goes to a slot whose type accepts the value. -/
theorem assignable_answers (s : ScopeStack) (st : Store) (name : String) (v : Value) :
    Answers (fun id => ∃ slot, s.current.slots[id]? = some slot ∧ slot.isConst = false ∧
      st.accepts slot.ty v = true) (s.assignable st name v) := by
  unfold assignable
  split
  · rfl
  · split
    · rfl
    · rename_i slot hslot
      split
      · rfl
      · rename_i hconst
        exact (st.check_answers slot.ty v).bind fun _ hacc =>
          ⟨slot, hslot, Bool.eq_false_iff.mpr hconst, hacc⟩

end ScopeStack

/-! ## Calls, declarations and literals -/

namespace Store

variable (st : Store)

theorem checkEach_answers (params : List Param) (args : List Value) :
    Answers (fun _ => True) (checkEach st params args) := by
  induction params generalizing args with
  | nil => trivial
  | cons param params ih =>
      cases args with
      | nil => trivial
      | cons arg args => exact (st.check_answers param.ty arg).bind fun _ _ => ih args

theorem checkArguments_answers (name : String) (params : List Param) (args : List Value) :
    Answers (fun _ => True) (checkArguments name params args st) := by
  unfold checkArguments
  split
  · exact st.checkEach_answers params args
  · rfl

/-- A call of a method of the host gives what the method gives, of its return type; it fails for an
ordinary reason or for one of the method's own. -/
theorem callNative_cases (st : Store) (cls : ClassId) (method : MethodInfo) (run : NativeMethod)
    (args : List Value) :
    (∃ v, Interpreter.callNative cls method run args st = .ok v ∧ run st.typeOf args = .ok v ∧
      st.accepts method.returnType v = true) ∨
    ∃ cause, Interpreter.callNative cls method run args st = .error cause ∧
      (cause.isReason = true ∨ run st.typeOf args = .error cause) := by
  unfold Interpreter.callNative
  cases hargs : checkArguments (st.className cls ++ "." ++ method.name) method.params args st with
  | error cause =>
      have hreason := (st.checkArguments_answers _ _ _).isReason_of_error hargs
      exact Or.inr ⟨cause, rfl, Or.inl hreason⟩
  | ok _ =>
      simp only [bind, Except.bind]
      cases hrun : run st.typeOf args with
      | error cause => exact Or.inr ⟨cause, rfl, Or.inr rfl⟩
      | ok v =>
          dsimp only
          cases hcheck : st.check method.returnType v with
          | error cause =>
              have hreason := (st.check_answers _ _).isReason_of_error hcheck
              exact Or.inr ⟨cause, rfl, Or.inl hreason⟩
          | ok _ => exact Or.inl ⟨v, rfl, rfl, st.check_ok hcheck⟩

theorem callNative_ok {st : Store} {cls : ClassId} {method : MethodInfo} {run : NativeMethod}
    {args : List Value} {v : Value} (h : Interpreter.callNative cls method run args st = .ok v) :
    run st.typeOf args = .ok v ∧ st.accepts method.returnType v = true := by
  rcases st.callNative_cases cls method run args with ⟨w, hok, hw⟩ | ⟨cause, herror, -⟩
  · obtain rfl : w = v := Except.ok.inj (hok.symm.trans h)
    exact hw
  · cases herror.symm.trans h

theorem callNative_isReason {st : Store} {cls : ClassId} {method : MethodInfo} {run : NativeMethod}
    {args : List Value} {cause : Cause}
    (h : Interpreter.callNative cls method run args st = .error cause) :
    cause.isReason = true ∨ run st.typeOf args = .error cause := by
  rcases st.callNative_cases cls method run args with ⟨v, hok, -⟩ | ⟨other, herror, hother⟩
  · cases hok.symm.trans h
  · obtain rfl : other = cause := Except.error.inj (herror.symm.trans h)
    exact hother

theorem callNative_error {st : Store} {cls : ClassId} {method : MethodInfo} {run : NativeMethod}
    {args : List Value} {cause : Cause}
    (h : Interpreter.callNative cls method run args st = .error cause) :
    cause.isOrdinary = true ∨ run st.typeOf args = .error cause :=
  (callNative_isReason h).imp_left Cause.isOrdinary_of_isReason

theorem checkSize_answers (size : Option Int64) (v : Value) :
    Answers (fun _ => True) (Interpreter.checkSize size v st) := by
  unfold Interpreter.checkSize
  split
  · dsimp only
    split <;> trivial
  · trivial

theorem instantiable_answers (name : String) :
    Answers (fun cls => st.findClass? name = some cls) (Interpreter.instantiable name st) := by
  refine (st.getClass_answers name).bind fun cls hcls => ?_
  dsimp only
  split
  · rfl
  · split
    · rfl
    · exact hcls

/-- The items are all accepted, or the first that is not is reported. -/
theorem firstRefused_answers (element : Ty) (items : List Value) :
    Answers (fun element => ∀ v ∈ items, st.accepts element v = true)
      (match items.find? fun item => !st.accepts element item with
      | some item => .error (.typeMismatch element (st.typeOf item))
      | none => .ok element) := by
  split
  · rfl
  · rename_i hfind
    intro v hv
    simpa using List.find?_eq_none.mp hfind v hv

/-- The element type of a literal accepts all its items. -/
theorem literalType_answers (elementType : Option Ty) (items : List Value) :
    Answers (fun element => ∀ v ∈ items, st.accepts element v = true)
      (Interpreter.literalType elementType items st) := by
  cases elementType with
  | some ty => exact st.firstRefused_answers ty items
  | none =>
      cases items with
      | nil => rfl
      | cons first rest => exact st.firstRefused_answers (st.typeOf first) (first :: rest)

/-- The equality test of a `switch` case. -/
theorem caseTest_answers (subject candidate : Value) :
    Answers (fun _ => True) (do st.asBool (← st.equals subject candidate)) :=
  (st.equality_answers _ _ subject candidate).bind fun v _ => st.asBool_answers v

end Store

/-! ## Descriptions of classes -/

theorem foldlM_error {α β ε : Type} {f : β → α → Except ε β} {E : ε → Prop}
    (hf : ∀ b a e, f b a = .error e → E e) :
    ∀ {l : List α} {b : β} {e : ε}, l.foldlM f b = .error e → E e
  | a :: l, b, e, h => by
      rw [List.foldlM_cons] at h
      cases hb : f b a with
      | error e' =>
          rw [hb] at h
          cases h
          exact hf b a _ hb
      | ok b' =>
          rw [hb] at h
          exact foldlM_error hf h

namespace ClassInfo

theorem addSupertype_answers (st : Store) (info : ClassInfo) (name : String) :
    Answers (fun _ => True) (addSupertype st info name) := by
  refine (st.getClass_answers name).bind fun cls _ => ?_
  dsimp only
  split
  · trivial
  · split
    · rfl
    · split <;> trivial

theorem addField_error {info : ClassInfo} {decl : FieldDecl} {fault : Fault}
    (h : addField info decl = .error fault) : fault.cause.isReason = true := by
  unfold addField at h
  dsimp only at h
  split at h
  · cases h
    rfl
  · cases h

theorem addMethod_error {info : ClassInfo} {decl : MethodDecl} {fault : Fault}
    (h : addMethod info decl = .error fault) : fault.cause.isReason = true := by
  unfold addMethod at h
  dsimp only at h
  split at h
  · cases h
    rfl
  · cases h

theorem onHeader_error {α : Type} {line : Nat} {q : Except Cause α} {fault : Fault}
    (h : onHeader line q = .error fault) : q = .error fault.cause := by
  cases q with
  | ok a => cases h
  | error cause =>
      cases h
      rfl

theorem ofDecl_isReason {st : Store} {decl : ClassDecl} {fault : Fault}
    (h : ofDecl st decl = .error fault) : fault.cause.isReason = true := by
  unfold ofDecl at h
  cases hheader : onHeader decl.line
      (decl.supertypes.foldlM (addSupertype st) { blank decl.name with isStatic := decl.isStatic })
    with
  | error e =>
      simp only [hheader, bind, Except.bind] at h
      cases h
      exact foldlM_error
        (fun info name cause hc => (addSupertype_answers st info name).isReason_of_error hc)
        (onHeader_error hheader)
  | ok info =>
      simp only [hheader, bind, Except.bind] at h
      cases hfields : decl.fields.foldlM addField info with
      | error e =>
          simp only [hfields] at h
          cases h
          exact foldlM_error (E := fun fault => fault.cause.isReason = true)
            (fun _ _ _ hc => addField_error hc) hfields
      | ok info' =>
          simp only [hfields] at h
          cases hmethods : decl.methods.foldlM addMethod info' with
          | error e =>
              simp only [hmethods] at h
              cases h
              exact foldlM_error (E := fun fault => fault.cause.isReason = true)
                (fun _ _ _ hc => addMethod_error hc) hmethods
          | ok info'' =>
              simp only [hmethods] at h
              cases h

theorem ofDecl_error {st : Store} {decl : ClassDecl} {fault : Fault}
    (h : ofDecl st decl = .error fault) : fault.cause.isOrdinary = true :=
  Cause.isOrdinary_of_isReason (ofDecl_isReason h)

theorem addMembers_answers (info : ClassInfo) (next : Option Int64)
    (members : List (String × Option Int64)) :
    Answers (fun _ => True) (addMembers info next members) := by
  induction members generalizing info next with
  | nil => trivial
  | cons member rest ih =>
      obtain ⟨name, explicit⟩ := member
      unfold addMembers
      split
      · rfl
      · split
        · exact ih _ _
        · rfl

end ClassInfo

end ClassScript
