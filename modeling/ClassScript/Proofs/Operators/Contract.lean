import ClassScript.Proofs.Conformance

/-!
# What operators promise

Every kind of value has a set of operators. An operator is refused, with its symbol and the types of
both operands, exactly where the operands are of different kinds or their kind lacks it. Otherwise
it divides by zero, overflows, or gives a value whose kind depends only on the operator and on the
kind of the operands.
-/

namespace ClassScript

/-! ## Kinds and their operators -/

/-- The kinds of values. -/
inductive Kind where
  | int
  | float
  | double
  | decimal
  | bool
  | string
  | char
  | array
  | object
  | void
  deriving DecidableEq

def Value.kind : Value → Kind
  | .int _ => .int
  | .float _ => .float
  | .double _ => .double
  | .decimal _ => .decimal
  | .bool _ => .bool
  | .string _ => .string
  | .char _ => .char
  | .array _ => .array
  | .object _ => .object
  | .void => .void

namespace BinaryOp

def arithmetical : List BinaryOp := [.add, .subtract, .multiply, .divide, .modulo]

/-- The operators that need a divisor. -/
def divisions : List BinaryOp := [.divide, .modulo]

def orderings : List BinaryOp := [.less, .lessEqual, .greater, .greaterEqual]

def equalities : List BinaryOp := [.equal, .notEqual]

def shifts : List BinaryOp := [.shiftLeft, .shiftRight, .shiftRightLogical]

def connectives : List BinaryOp := [.and, .or]

end BinaryOp

open BinaryOp (arithmetical divisions orderings equalities shifts connectives)

/-- The operators that a kind of values has. -/
def Kind.operators : Kind → List BinaryOp
  | .int => arithmetical ++ orderings ++ equalities ++ shifts
  | .float | .double | .decimal => arithmetical ++ orderings ++ equalities
  | .string => .add :: equalities
  | .bool => connectives ++ equalities
  | .char => orderings ++ equalities
  | .array | .object | .void => equalities

/-- The kinds of numbers. -/
def Kind.numbers : List Kind := [.int, .float, .double, .decimal]

namespace Kind

variable {op : BinaryOp} {k : Kind}

/-- Outside of the numbers, only strings have an arithmetical operator, and only one. -/
theorem mem_operators_of_arithmetical (hop : op ∈ arithmetical) :
    op ∈ k.operators ↔ k ∈ numbers ∨ op = .add ∧ k = .string := by
  revert hop
  cases k <;> cases op <;> decide

theorem mem_operators_of_ordering (hop : op ∈ orderings) :
    op ∈ k.operators ↔ k ∈ numbers ∨ k = .char := by
  revert hop
  cases k <;> cases op <;> decide

/-- Values of every kind can be equal. -/
theorem mem_operators_of_equality (hop : op ∈ equalities) : op ∈ k.operators := by
  revert hop
  cases k <;> cases op <;> decide

theorem mem_operators_of_shift (hop : op ∈ shifts) : op ∈ k.operators ↔ k = .int := by
  revert hop
  cases k <;> cases op <;> decide

theorem mem_operators_of_connective (hop : op ∈ connectives) :
    op ∈ k.operators ↔ k = .bool := by
  revert hop
  cases k <;> cases op <;> decide

end Kind

namespace BinaryOp

/-- The operands are of one kind, which has the operator. -/
def Applies (op : BinaryOp) (a b : Value) : Prop := a.kind = b.kind ∧ op ∈ a.kind.operators

/-- Arithmetic and shifts stay in the kind of the operands; every other operator is a test. -/
def resultKind (op : BinaryOp) (operands : Kind) : Kind :=
  if op ∈ arithmetical ++ shifts then operands else .bool

end BinaryOp

/-- The zeros of the four kinds of numbers; a floating zero may have a sign, and a decimal one any
number of places. -/
inductive Value.IsZero : Value → Prop where
  | int : IsZero (.int 0)
  | float {x : Float32} (h : (x == 0) = true) : IsZero (.float x)
  | double {x : Float} (h : (x == 0) = true) : IsZero (.double x)
  | decimal {d : Decimal} (h : d.mantissa = 0) : IsZero (.decimal d)

theorem Value.isZero_iff {v : Value} : v.isZero = true ↔ v.IsZero := by
  cases v with
  | int n =>
      constructor
      · intro h
        obtain rfl : n = 0 := beq_iff_eq.mp h
        exact .int
      · rintro ⟨⟩
        rfl
  | float x => exact ⟨.float, fun | .float h => h⟩
  | double x => exact ⟨.double, fun | .double h => h⟩
  | decimal d => exact ⟨fun h => .decimal (beq_iff_eq.mp h), fun | .decimal h => beq_iff_eq.mpr h⟩
  | bool _ | string _ | char _ | array _ | object _ | void => exact ⟨nofun, nofun⟩

theorem Value.sameKind_iff {a b : Value} : a.sameKind b = true ↔ a.kind = b.kind := by
  cases a <;> cases b <;> simp [Value.sameKind, Value.kind]

namespace Store

/-! ## The answers of the operators -/

/-- The answer that `a op b` may have. The four ways exclude each other, but that an overflow is
possible does not say that there is one. -/
inductive Answered (st : Store) (op : BinaryOp) (a b : Value) : Except Cause Value → Prop where
  | refused (h : ¬ op.Applies a b) :
      Answered st op a b (.error (.invalidOperation op (st.typeOf a) (st.typeOf b)))
  | byZero (h : op.Applies a b) (hop : op ∈ divisions) (hzero : b.IsZero) :
      Answered st op a b (.error .divisionByZero)
  | overflow (h : op.Applies a b) (hdivisor : ¬ (op ∈ divisions ∧ b.IsZero))
      (hop : op ∈ arithmetical) (hkind : a.kind = .int ∨ a.kind = .decimal) :
      Answered st op a b (.error .overflow)
  | value (h : op.Applies a b) (hdivisor : ¬ (op ∈ divisions ∧ b.IsZero)) {v : Value}
      (hkind : v.kind = op.resultKind a.kind) : Answered st op a b (.ok v)

variable {st : Store} {op : BinaryOp} {a b : Value}

namespace Answered

variable {answer : Except Cause Value}

theorem refused_iff (h : Answered st op a b answer) :
    answer = .error (.invalidOperation op (st.typeOf a) (st.typeOf b)) ↔ ¬ op.Applies a b := by
  cases h with
  | refused h => exact iff_of_true rfl h
  | byZero h | overflow h | value h => exact iff_of_false nofun (not_not_intro h)

theorem byZero_iff (h : Answered st op a b answer) :
    answer = .error .divisionByZero ↔ op.Applies a b ∧ op ∈ divisions ∧ b.IsZero := by
  cases h with
  | refused h => exact iff_of_false nofun fun hzero => h hzero.1
  | byZero h hop hzero => exact iff_of_true rfl ⟨h, hop, hzero⟩
  | overflow _ hdivisor | value _ hdivisor =>
      exact iff_of_false nofun fun hzero => hdivisor hzero.2

theorem of_applies (h : Answered st op a b answer) (happlies : op.Applies a b)
    (hdivisor : ¬ (op ∈ divisions ∧ b.IsZero)) :
    (answer = .error .overflow ∧ op ∈ arithmetical ∧ (a.kind = .int ∨ a.kind = .decimal)) ∨
      ∃ v, answer = .ok v ∧ v.kind = op.resultKind a.kind := by
  cases h with
  | refused h => exact absurd happlies h
  | byZero _ hop hzero => exact absurd ⟨hop, hzero⟩ hdivisor
  | overflow _ _ hop hkind => exact .inl ⟨rfl, hop, hkind⟩
  | value _ _ hkind => exact .inr ⟨_, rfl, hkind⟩

end Answered

/-- The operator is refused outside of the numbers, but for the joining of strings. -/
theorem arithmetic_answered (hop : op ∈ arithmetical)
    (hdivisor : a.kind = b.kind → ¬ (op ∈ divisions ∧ b.IsZero))
    (hjoin : ¬ (op = .add ∧ a.kind = .string)) (ops : Arithmetic) :
    Answered st op a b (st.arithmetic op ops a b) := by
  have hdefined (k : Kind) (hk : k ∈ Kind.numbers) : op ∈ k.operators :=
    (Kind.mem_operators_of_arithmetical hop).mpr (.inl hk)
  have hvalue (v : Value) (h : op.Applies a b) (hkind : v.kind = a.kind) :
      Answered st op a b (.ok v) :=
    .value h (hdivisor h.1) (hkind.trans (if_pos (List.mem_append_left _ hop)).symm)
  have hchecked {α : Type} (make : α → Value) (result : Option α) (h : op.Applies a b)
      (hkind : a.kind = .int ∨ a.kind = .decimal) (hmake : ∀ x, (make x).kind = a.kind) :
      Answered st op a b (orOverflow make result) := by
    cases result with
    | none => exact .overflow h (hdivisor h.1) hop hkind
    | some x => exact hvalue _ h (hmake x)
  cases a with
  | int x =>
      cases b with
      | int y => exact hchecked .int _ ⟨rfl, hdefined .int (by decide)⟩ (.inl rfl) fun _ => rfl
      | _ => exact .refused fun h => nomatch h.1
  | decimal x =>
      cases b with
      | decimal y =>
          exact hchecked .decimal _ ⟨rfl, hdefined .decimal (by decide)⟩ (.inr rfl) fun _ => rfl
      | _ => exact .refused fun h => nomatch h.1
  | float x =>
      cases b with
      | float y => exact hvalue _ ⟨rfl, hdefined .float (by decide)⟩ rfl
      | _ => exact .refused fun h => nomatch h.1
  | double x =>
      cases b with
      | double y => exact hvalue _ ⟨rfl, hdefined .double (by decide)⟩ rfl
      | _ => exact .refused fun h => nomatch h.1
  | _ =>
      refine .refused fun h => ?_
      have hnumber := ((Kind.mem_operators_of_arithmetical hop).mp h.2).resolve_right hjoin
      simp [Value.kind, Kind.numbers] at hnumber

theorem add_answered : Answered st .add a b (st.add a b) := by
  have hdivisor : ¬ (BinaryOp.add ∈ divisions ∧ b.IsZero) := fun h => nomatch h.1
  by_cases hstring : a.kind = .string
  · cases a with
    | string x =>
        cases b with
        | string y =>
            have hdefined : BinaryOp.add ∈ Kind.string.operators := by decide
            have happlies : BinaryOp.Applies .add (.string x) (.string y) := ⟨rfl, hdefined⟩
            exact .value happlies hdivisor rfl
        | _ => exact .refused fun h => nomatch h.1
    | _ => cases hstring
  · have hadd : st.add a b = st.arithmetic .add addition a b := by
      cases a with
      | string x => exact absurd rfl hstring
      | _ => rfl
    rw [hadd]
    exact arithmetic_answered (by decide) (fun _ => hdivisor) (fun h => hstring h.2) addition

theorem dividing_answered (hop : op ∈ divisions) (ops : Arithmetic) :
    Answered st op a b (st.dividing op ops a b) := by
  have harithmetical : op ∈ arithmetical := by
    revert hop
    cases op <;> decide
  have hjoin : ¬ (op = .add ∧ a.kind = .string) := by
    rintro ⟨rfl, -⟩
    exact absurd hop (by decide)
  unfold dividing
  split
  next hzero =>
      obtain ⟨hkind, hzero⟩ := (Bool.and_eq_true _ _).mp hzero
      have hnumber : a.kind ∈ Kind.numbers := by
        rw [Value.sameKind_iff.mp hkind]
        cases Value.isZero_iff.mp hzero <;> simp [Value.kind, Kind.numbers]
      exact .byZero ⟨Value.sameKind_iff.mp hkind,
        (Kind.mem_operators_of_arithmetical harithmetical).mpr (.inl hnumber)⟩ hop
        (Value.isZero_iff.mp hzero)
  next hnonzero =>
      refine arithmetic_answered harithmetical (fun hkind h => hnonzero ?_) hjoin ops
      exact (Bool.and_eq_true _ _).mpr ⟨Value.sameKind_iff.mpr hkind, Value.isZero_iff.mpr h.2⟩

/-- The operators that give a truth value. -/
theorem Answered.test (hop : op ∈ orderings ++ equalities ++ connectives) (h : op.Applies a b)
    (x : Bool) : Answered st op a b (.ok (.bool x)) := by
  have hother : op ∉ divisions ∧ op ∉ arithmetical ++ shifts := by
    revert hop
    cases op <;> decide
  exact .value h (fun hdivision => hother.1 hdivision.1) (if_neg hother.2).symm

theorem comparison_answered (hop : op ∈ orderings) (test : Ordering → Bool) :
    Answered st op a b (st.comparison op test a b) := by
  have htest (h : op.Applies a b) (x : Bool) : Answered st op a b (.ok (.bool x)) :=
    .test (List.mem_append_left _ (List.mem_append_left _ hop)) h x
  have hdefined (k : Kind) (hk : k ∈ Kind.char :: Kind.numbers) : op ∈ k.operators :=
    (Kind.mem_operators_of_ordering hop).mpr ((List.mem_cons.mp hk).symm)
  cases a with
  | int x =>
      cases b with
      | int y => exact htest ⟨rfl, hdefined .int (by decide)⟩ _
      | _ => exact .refused fun h => nomatch h.1
  | float x =>
      cases b with
      | float y => exact htest ⟨rfl, hdefined .float (by decide)⟩ _
      | _ => exact .refused fun h => nomatch h.1
  | double x =>
      cases b with
      | double y => exact htest ⟨rfl, hdefined .double (by decide)⟩ _
      | _ => exact .refused fun h => nomatch h.1
  | decimal x =>
      cases b with
      | decimal y => exact htest ⟨rfl, hdefined .decimal (by decide)⟩ _
      | _ => exact .refused fun h => nomatch h.1
  | char x =>
      cases b with
      | char y => exact htest ⟨rfl, hdefined .char (by decide)⟩ _
      | _ => exact .refused fun h => nomatch h.1
  | _ =>
      refine .refused fun h => ?_
      have hordered := (Kind.mem_operators_of_ordering hop).mp h.2
      simp [Value.kind, Kind.numbers] at hordered

theorem equality_answered (hop : op ∈ equalities) (test : Bool → Bool) :
    Answered st op a b (st.equality op test a b) := by
  unfold equality
  split
  next hkind =>
      exact .test (List.mem_append_left _ (List.mem_append_right _ hop))
        ⟨Value.sameKind_iff.mp hkind, Kind.mem_operators_of_equality hop⟩ _
  next hkind => exact .refused fun h => hkind (Value.sameKind_iff.mpr h.1)

theorem logical_answered (hop : op ∈ connectives) (combine : Bool → Bool → Bool) :
    Answered st op a b (st.logical op combine a b) := by
  cases a with
  | bool x =>
      cases b with
      | bool y =>
          have happlies : op.Applies (.bool x) (.bool y) :=
            ⟨rfl, (Kind.mem_operators_of_connective hop).mpr rfl⟩
          exact .test (List.mem_append_right _ hop) happlies _
      | _ => exact .refused fun h => nomatch h.1
  | _ => exact .refused fun h => nomatch (Kind.mem_operators_of_connective hop).mp h.2

theorem shift_answered (hop : op ∈ shifts) (shifted : Int64 → Int64 → Int64) :
    Answered st op a b (st.shift op shifted a b) := by
  have hdivision : op ∉ divisions := by
    revert hop
    cases op <;> decide
  cases a with
  | int x =>
      cases b with
      | int y =>
          have happlies : op.Applies (.int x) (.int y) :=
            ⟨rfl, (Kind.mem_operators_of_shift hop).mpr rfl⟩
          exact .value happlies (fun h => hdivision h.1)
            (if_pos (List.mem_append_right _ hop)).symm
      | _ => exact .refused fun h => nomatch h.1
  | _ => exact .refused fun h => nomatch (Kind.mem_operators_of_shift hop).mp h.2

theorem applyBinary_answered (st : Store) (op : BinaryOp) (a b : Value) :
    Answered st op a b (st.applyBinary op a b) := by
  cases op with
  | add => exact add_answered
  | subtract => exact arithmetic_answered (by decide) (fun _ => by simp [divisions]) (by simp) _
  | multiply => exact arithmetic_answered (by decide) (fun _ => by simp [divisions]) (by simp) _
  | divide | modulo => exact dividing_answered (by decide) _
  | less | lessEqual | greater | greaterEqual => exact comparison_answered (by decide) _
  | equal | notEqual => exact equality_answered (by decide) _
  | and | or => exact logical_answered (by decide) _
  | shiftLeft | shiftRight | shiftRightLogical => exact shift_answered (by decide) _

end Store

theorem Eval.askStore_eq_error_iff {α : Type} {question : Store → Except Cause α} {cause : Cause}
    {line : Nat} {s : Session} :
    Eval.askStore line question s = .error { cause, line } s ↔
      question s.store = .error cause := by
  cases h : question s.store with
  | ok a => simp [Eval.askStore, Eval.ask, h]
  | error other => simp [Eval.askStore, Eval.ask, h]

/-- The contract of the operators, for any two values on any line. An operator is refused, with its
symbol and the types of both operands in their order, exactly if it does not apply to them. If it
does, it divides by zero exactly if it needs a divisor and the right operand is a zero; otherwise it
may overflow, but only in arithmetic on `int` or `decimal`, or gives a value of the kind that the
operator and the operands determine. -/
theorem operators_keep_contract (op : BinaryOp) (a b : Value) (line : Nat) (s : Session) :
    let answer := Eval.askStore line (fun st => st.applyBinary op a b) s
    let refusal : Fault :=
      { cause := .invalidOperation op (s.store.typeOf a) (s.store.typeOf b), line }
    (answer = .error refusal s ↔ ¬ op.Applies a b) ∧
    refusal.message s.store =
      "Error on line " ++ toString line ++ ": " ++
        ("Type error: operator '" ++ op.text ++ "' cannot be applied to " ++
          (s.store.typeOf a).text ++ " and " ++ (s.store.typeOf b).text ++ ".") ∧
    (answer = .error { cause := .divisionByZero, line } s ↔
      op.Applies a b ∧ op ∈ divisions ∧ b.IsZero) ∧
    (op.Applies a b → ¬ (op ∈ divisions ∧ b.IsZero) →
      (answer = .error { cause := .overflow, line } s ∧ op ∈ arithmetical ∧
        (a.kind = .int ∨ a.kind = .decimal)) ∨
      ∃ v, answer = .ok v s ∧ v.kind = op.resultKind a.kind) := by
  intro answer refusal
  have hanswered := Store.applyBinary_answered s.store op a b
  refine ⟨Eval.askStore_eq_error_iff.trans hanswered.refused_iff, rfl,
    Eval.askStore_eq_error_iff.trans hanswered.byZero_iff, fun happlies hdivisor => ?_⟩
  rcases hanswered.of_applies happlies hdivisor with ⟨hoverflow, harithmetic⟩ | ⟨v, hv, hkind⟩
  · exact .inl ⟨Eval.askStore_eq_error_iff.mpr hoverflow, harithmetic⟩
  · exact .inr ⟨v, Eval.ask_of_ok hv line, hkind⟩

-- The kinds are compared before the divisor is: this zero is no number of the dividend's kind.
example (st : Store) : st.applyBinary .divide (.int 1) (.double 0) =
    .error (.invalidOperation .divide .int .double) := rfl

end ClassScript
