import ClassScript.Proofs.ArraySizes.Reading
import ClassScript.Proofs.Fuel

/-!
# Evaluating the size of an array

The size of a declared array is evaluated before its initializer. A negative one is refused at once;
any other is compared with the number of items, once they are known, by the same rule as a literal
size when the declaration is read. A declaration without initializer gets that many default values.
Variables and fields get their first values in the same way.
-/

namespace ClassScript

theorem Rising.eval (e : Expr) (expected : Option Ty) :
    Rising fun n => (interpreter n).eval e expected :=
  fun _ _ h => evaluate_approximates h e expected

theorem Rising.evalElements (elementType : Option Ty) (es : List Expr) :
    Rising fun n => (interpreter n).evalElements elementType es := by
  induction es with
  | nil => exact const _
  | cons e rest ih => exact (eval e elementType).bind fun v => ih.bind fun vs => const _

/-! ## What expressions come to -/

/-- The expression evaluates like this. -/
def Expr.ComesTo (e : Expr) (expected : Option Ty) (s : Session)
    (o : Outcome Session Fault Value) : Prop :=
  Reaches (fun n => evaluate n e expected) s o

/-- The expressions evaluate to the values, one after the other. -/
inductive ComeTo (expected : Option Ty) : List Expr → Session → List Value → Session → Prop
  | nil {s : Session} : ComeTo expected [] s [] s
  | cons {e : Expr} {rest : List Expr} {s s₁ s₂ : Session} {v : Value} {vs : List Value}
      (head : e.ComesTo expected s (.ok v s₁)) (tail : ComeTo expected rest s₁ vs s₂) :
      ComeTo expected (e :: rest) s (v :: vs) s₂

/-- The first value that the declaration computes. -/
def VariableDecl.ComesTo (decl : VariableDecl) (s : Session)
    (o : Outcome Session Fault Value) : Prop :=
  Reaches (fun n => (interpreter n).declaredValue decl) s o

/-! ## Lists of items -/

namespace ComeTo

variable {expected : Option Ty} {es : List Expr} {s s' : Session} {items : List Value}

theorem length_eq (h : ComeTo expected es s items s') : items.length = es.length := by
  induction h with
  | nil => rfl
  | cons _ _ ih => exact congrArg (· + 1) ih

theorem evalElements (h : ComeTo expected es s items s') :
    Reaches (fun n => (interpreter n).evalElements expected es) s (.ok items s') := by
  induction h with
  | nil => exact .of_ok (n := 0) rfl
  | cons head tail ih =>
      refine head.bind (.eval _ _) (fun v => ?_) ?_
      · exact (Rising.evalElements _ _).bind fun vs => .const _
      · exact ih.bind (.evalElements _ _) (fun vs => .const _) (.of_ok (n := 0) rfl)

end ComeTo

theorem literalType_accepted {element : Ty} {items : List Value} {st : Store}
    (h : ∀ v ∈ items, st.accepts element v = true) :
    Interpreter.literalType (some element) items st = .ok element := by
  have hnone : (items.find? fun item => !st.accepts element item) = none := by
    rw [List.find?_eq_none]
    intro v hv
    rw [h v hv]
    exact Bool.false_ne_true
  rw [Interpreter.literalType]
  dsimp only [Bind.bind, Except.bind]
  rw [hnone]

/-- A list of accepted items becomes a new array of the expected type. -/
theorem ComeTo.array {element : Ty} {es : List Expr} {s s' : Session} {items : List Value}
    (h : ComeTo (some element) es s items s')
    (haccepts : ∀ v ∈ items, s'.store.accepts element v = true) (line : Nat) :
    (Expr.array es none line).ComesTo (some (.array element)) s
      (.ok (.array s'.store.arrays.size)
        { s' with store := (s'.store.newArray element items.toArray).2 }) := by
  obtain ⟨-, n, hitems⟩ := h.evalElements
  refine .of_ok (n := n + 1) ?_
  have htype : Eval.askStore line (Interpreter.literalType (some element) items) s' =
      .ok element s' := Eval.ask_of_ok (literalType_accepted haccepts) line
  exact (Action.bind_of_ok hitems).trans (Action.bind_of_ok htype)

theorem Expr.literal_comesTo (value : Literal) (line : Nat) (expected : Option Ty) (s : Session) :
    (Expr.literal value line).ComesTo expected s (.ok (.ofLiteral value) s) :=
  .of_ok (n := 1) rfl

/-! ## Sizes -/

theorem Rising.declaredSize (decl : VariableDecl) :
    Rising fun k => (interpreter k).declaredSize decl := by
  unfold Interpreter.declaredSize
  split
  · exact (Rising.eval _ _).bind fun v => .const _
  · exact .const _

theorem Store.itemCount_of_nonneg {n : Int64} (h : 0 ≤ n.toInt) :
    itemCount n = .ok n.toInt.toNat := by
  rw [itemCount, Word.size?, if_pos h]

theorem Eval.ask_itemCount {n : Int64} (h : 0 ≤ n.toInt) (line : Nat) (s : Session) :
    Eval.ask line (fun _ => Store.itemCount n) s = .ok n.toInt.toNat s :=
  Eval.ask_of_ok (Store.itemCount_of_nonneg h) line

theorem Store.itemCount_of_neg {n : Int64} (h : n.toInt < 0) :
    itemCount n = .error (.negativeArraySize n) := by
  rw [itemCount, Word.size?, if_neg (Int.not_le.mpr h)]

theorem Store.eq_int_of_asInt {st : Store} {v : Value} {n : Int64} (h : st.asInt v = .ok n) :
    v = .int n := by
  unfold asInt at h
  split at h
  · rw [Except.ok.inj h]
  · cases h

theorem checkSize_array (n : Int64) (id : ArrayId) (st : Store) :
    Interpreter.checkSize (some n) (.array id) st =
      if SizeMismatch n (st.arrayCell id).items.size then
        .error (.arraySizeMismatch n (st.arrayCell id).items.size)
      else .ok () := rfl

/-- No size is the same as zero. -/
theorem checkSize_none (v : Value) (st : Store) :
    Interpreter.checkSize none v st = Interpreter.checkSize (some 0) v st := by
  cases v with
  | array id =>
      rw [checkSize_array, if_neg fun h => h.1 rfl]
      rfl
  | _ => rfl

namespace VariableDecl.Sized

variable {decl : VariableDecl} {element : Ty} {size : Expr} {s s₁ : Session} {n : Int64}

/-- A literal zero is not evaluated, every other size is. -/
theorem length_cases (h : decl.Sized element size) :
    ((∃ line, size = .literal (.int 0) line) ∧ decl.length = some .inferred ∧
      decl.initializer ≠ none) ∨ decl.length = some (.explicit size) := by
  by_cases hzero : ∃ line, size = .literal (.int 0) line
  · obtain ⟨line, rfl⟩ := hzero
    refine .inl ⟨⟨line, rfl⟩, h.length, fun hnone => ?_⟩
    have hchecked := h.checked
    unfold Grammar.declarationFault? at hchecked
    rw [h.length, hnone] at hchecked
    cases hchecked
  · refine .inr (h.length.trans (congrArg some (ArrayLength.ofSize_of_ne fun line heq => ?_)))
    exact hzero ⟨line, heq⟩

/-- A size that is not negative is known before anything else happens. -/
theorem declaredSize (h : decl.Sized element size)
    (hsize : size.ComesTo none s (.ok (.int n) s₁)) (hn : 0 ≤ n.toInt) :
    ∃ asked, Reaches (fun k => (interpreter k).declaredSize decl) s (.ok asked s₁) ∧
      (∀ v st, Interpreter.checkSize asked v st = Interpreter.checkSize (some n) v st) ∧
      (decl.initializer = none → asked = some n) := by
  rcases h.length_cases with ⟨⟨line, rfl⟩, hlength, hsome⟩ | hlength
  · -- The zero is not evaluated, but it could only come to itself.
    have hliteral := Expr.literal_comesTo (.int 0) line none s
    cases Reaches.unique (.eval _ _) hsize hliteral
    refine ⟨none, .of_ok (n := 0) ?_, checkSize_none, fun hnone => absurd hnone hsome⟩
    rw [Interpreter.declaredSize, hlength]
    rfl
  · refine ⟨some n, ?_, fun _ _ => rfl, fun _ => rfl⟩
    simp only [Interpreter.declaredSize, hlength]
    refine hsize.bind (.eval _ _) (fun v => .const _) (.of_ok (n := 0) ?_)
    have hint : Eval.askStore decl.line (fun st => st.asInt (.int n)) s₁ = .ok n s₁ := rfl
    exact (Action.bind_of_ok hint).trans
      (Action.bind_of_ok (Eval.ask_itemCount hn decl.line s₁))

theorem declaredSize_negative (h : decl.Sized element size)
    (hsize : size.ComesTo none s (.ok (.int n) s₁)) (hn : n.toInt < 0) :
    Reaches (fun k => (interpreter k).declaredSize decl) s
      (.error { cause := .negativeArraySize n, line := decl.line } s₁) := by
  rcases h.length_cases with ⟨⟨line, rfl⟩, -, -⟩ | hlength
  · have hliteral := Expr.literal_comesTo (.int 0) line none s
    cases Reaches.unique (.eval _ _) hsize hliteral
    exact absurd hn (by decide)
  · simp only [Interpreter.declaredSize, hlength]
    refine hsize.bind (.eval _ _) (fun v => .const _) (.of_error (n := 0) ?_)
    have hint : Eval.askStore decl.line (fun st => st.asInt (.int n)) s₁ = .ok n s₁ := rfl
    exact (Action.bind_of_ok hint).trans
      (Action.bind_of_error (Eval.ask_of_error (Store.itemCount_of_neg hn) decl.line))

/-- Whenever a size is known, it is the value of the expression and not negative. -/
theorem of_declaredSize (h : decl.Sized element size) {asked : Option Int64}
    (hasked : Reaches (fun k => (interpreter k).declaredSize decl) s (.ok asked s₁)) :
    ∃ n, size.ComesTo none s (.ok (.int n) s₁) ∧ 0 ≤ n.toInt := by
  rcases h.length_cases with ⟨⟨line, rfl⟩, hlength, -⟩ | hlength
  · have hnone : Reaches (fun k => (interpreter k).declaredSize decl) s (.ok none s) := by
      refine .of_ok (n := 0) ?_
      rw [Interpreter.declaredSize, hlength]
      rfl
    cases Reaches.unique (.declaredSize decl) hasked hnone
    exact ⟨0, Expr.literal_comesTo (.int 0) line none s, Int.le_refl 0⟩
  · have hrun := hasked
    simp only [Interpreter.declaredSize, hlength] at hrun
    obtain ⟨v, s₂, hsize, -, _, hrest⟩ := hrun.of_bind
    obtain ⟨n, s₃, hint, -⟩ := Action.ok_of_bind hrest
    obtain ⟨rfl, hn⟩ := Eval.ok_of_ask hint
    obtain rfl := Store.eq_int_of_asInt hn
    -- The size is known, so it was not refused as a negative one.
    rcases Int.lt_or_le n.toInt 0 with hneg | hnonneg
    · cases Reaches.unique (.declaredSize decl) hasked (h.declaredSize_negative hsize hneg)
    · obtain ⟨_, hknown, -⟩ := h.declaredSize hsize hnonneg
      cases Reaches.unique (.declaredSize decl) hasked hknown
      exact ⟨n, hsize, hnonneg⟩

end VariableDecl.Sized

/-! ## Values of declarations -/

theorem Rising.declaredValue (decl : VariableDecl) :
    Rising fun k => (interpreter k).declaredValue decl := by
  unfold Interpreter.declaredValue
  refine (Rising.declaredSize decl).bind fun asked => ?_
  split
  · exact (Rising.eval _ _).bind fun v => .const _
  · exact .const _
  · exact .const _

theorem Interpreter.declaredValue_initialized (run : Interpreter) {decl : VariableDecl} {e : Expr}
    (h : decl.initializer = some e) :
    run.declaredValue decl = run.declaredSize decl >>= fun asked =>
      run.eval e (some decl.ty) >>= fun v =>
        Eval.askStore decl.line (checkSize asked v) >>= fun _ => pure v := by
  rw [declaredValue, h]

namespace VariableDecl.Sized

variable {decl : VariableDecl} {element : Ty} {size : Expr} {s s₁ s₂ s' : Session} {n : Int64}
  {v : Value} {e : Expr}

theorem negative (h : decl.Sized element size)
    (hsize : size.ComesTo none s (.ok (.int n) s₁)) (hn : n.toInt < 0) :
    decl.ComesTo s (.error { cause := .negativeArraySize n, line := decl.line } s₁) :=
  (h.declaredSize_negative hsize hn).bind_error

/-- An initializer is compared with the size after it has been evaluated. -/
theorem initialized (h : decl.Sized element size)
    (hsize : size.ComesTo none s (.ok (.int n) s₁)) (hn : 0 ≤ n.toInt)
    (hinit : decl.initializer = some e)
    (hvalue : e.ComesTo (some (.array element)) s₁ (.ok v s₂))
    {o : Outcome Session Fault Value} (ho : o ≠ .exhausted)
    (hcheck : (Eval.askStore decl.line (Interpreter.checkSize (some n) v) >>=
      fun _ => pure v) s₂ = o) : decl.ComesTo s o := by
  obtain ⟨asked, hasked, hsame, -⟩ := h.declaredSize hsize hn
  rw [← h.ty] at hvalue
  unfold ComesTo
  simp only [Interpreter.declaredValue_initialized _ hinit]
  refine hasked.bind (.declaredSize decl) (fun asked => ?_) ?_
  · exact (Rising.eval _ _).bind fun v => .const _
  · refine hvalue.bind (.eval _ _) (fun v => .const _) ⟨ho, 0, ?_⟩
    rw [funext (hsame v)]
    exact hcheck

/-- Without an initializer all items are default values. -/
theorem filled (h : decl.Sized element size)
    (hsize : size.ComesTo none s (.ok (.int n) s₁)) (hn : 0 ≤ n.toInt)
    (hinit : decl.initializer = none) :
    decl.ComesTo s (.ok (.array s₁.store.arrays.size)
      { s₁ with store := (s₁.store.newArray element
        (Array.replicate n.toInt.toNat (.defaultFor element))).2 }) := by
  obtain ⟨asked, hasked, -, hknown⟩ := h.declaredSize hsize hn
  obtain rfl := hknown hinit
  refine hasked.bind (.declaredSize decl) (fun asked => ?_) (.of_ok (n := 0) ?_)
  · rw [hinit]
    cases asked <;> exact .const _
  · simp only [hinit, h.ty, Ty.element?, Option.getD_some]
    exact Action.bind_of_ok (Eval.ask_itemCount hn decl.line s₁)

theorem of_ok (h : decl.Sized element size) (hvalue : decl.ComesTo s (.ok v s')) :
    ∃ n s₁, size.ComesTo none s (.ok (.int n) s₁) ∧ 0 ≤ n.toInt ∧
      (decl.initializer = none → v = .array s₁.store.arrays.size ∧
        s' = { s₁ with store := (s₁.store.newArray element
          (Array.replicate n.toInt.toNat (.defaultFor element))).2 }) ∧
      ∀ e, decl.initializer = some e → e.ComesTo (some (.array element)) s₁ (.ok v s') ∧
        Interpreter.checkSize (some n) v s'.store = .ok () := by
  obtain ⟨asked, s₁, hasked, -⟩ := Reaches.of_bind hvalue
  obtain ⟨n, hsize, hn⟩ := h.of_declaredSize hasked
  refine ⟨n, s₁, hsize, hn, fun hinit => ?_, fun e hinit => ?_⟩
  · cases Reaches.unique (.declaredValue decl) hvalue (h.filled hsize hn hinit)
    exact ⟨rfl, rfl⟩
  · obtain ⟨asked, hasked, hsame, -⟩ := h.declaredSize hsize hn
    unfold ComesTo at hvalue
    simp only [Interpreter.declaredValue_initialized _ hinit] at hvalue
    obtain ⟨asked', s₂, hasked', hrest⟩ := Reaches.of_bind hvalue
    cases Reaches.unique (.declaredSize decl) hasked hasked'
    obtain ⟨w, s₃, hw, -, _, hrest⟩ := Reaches.of_bind hrest
    obtain ⟨_, s₄, hask, hpure⟩ := Action.ok_of_bind hrest
    obtain ⟨rfl, hcheck⟩ := Eval.ok_of_ask hask
    cases hpure
    rw [h.ty] at hw
    exact ⟨hw, (hsame v _).symm.trans hcheck⟩

end VariableDecl.Sized

end ClassScript
