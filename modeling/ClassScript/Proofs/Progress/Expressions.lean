import ClassScript.Proofs.Printing.TypeNames
import ClassScript.Proofs.Progress.Basic

/-!
# Progress in types and expressions

A type and an expression take at least one token. Within an expression, an operand is read before
the operators of its level are counted, and a suffix and an operator take a token each; so the fuel
of an expression on `n` tokens is enough for all loops and nested expressions in it.
-/

namespace ClassScript.Grammar

variable {n m k k' : Nat}

/-! ## Types and parameters -/

theorem pathRest_proceeds (path : String) : Proceeds n perhaps (pathRest path) (pathRest path) := by
  refine .of_onward fun ts => ?_
  fun_induction pathRest path ts with
  | case1 path line word line' rest ih => exact ih.of_suffix ⟨[_, _], rfl⟩
  | case2 path line rest _ =>
      have hname := Proceeds.onward (fun _ => identifier_proceeds "type name after '.'") rest
      exact hname.of_shorter (List.suffix_cons _ _) (Nat.lt_succ_self _)
  | case3 path rest => exact .untouched rfl

theorem typePath_proceeds : Proceeds n always typePath typePath :=
  (identifier_proceeds _).next fun name => pathRest_proceeds name

theorem arraySuffix_proceeds (ty : Ty) : Proceeds n perhaps (arraySuffix ty) (arraySuffix ty) := by
  refine .of_onward fun ts => ?_
  fun_induction arraySuffix ty ts with
  | case1 ty line line' rest ih => exact ih.of_suffix ⟨[_, _], rfl⟩
  | case2 ty rest => exact .untouched rfl

theorem type_proceeds : Proceeds n always type type :=
  typePath_proceeds.next fun _ => arraySuffix_proceeds _

theorem param_proceeds : Proceeds n always param param :=
  peekLine_proceeds.after fun _ => (identifier_proceeds _).next fun _ =>
    (expect_proceeds _ _).after fun _ => type_proceeds.after fun _ => .pure _

theorem params_proceeds : Proceeds n always params params :=
  (expect_proceeds _ _).next fun _ => (commaSeparated_proceeds param_proceeds _).to_perhaps

theorem returnType_proceeds : Proceeds n perhaps returnType returnType :=
  (takeIf_proceeds _).ifTaken type_proceeds.to_perhaps (.pure _)

/-! ## Primary expressions and suffixes -/

section

variable {expression expression' : Parser Expr}

theorem arguments_proceeds (he : Proceeds n always expression expression') :
    Proceeds n always (arguments expression) (arguments expression') :=
  commaSeparated_proceeds he _

theorem targetOf_proceeds (e : Expr) (line : Nat) :
    Proceeds n perhaps (targetOf e line) (targetOf e line) := by
  unfold targetOf
  split
  next => exact .pure _
  next => exact .fail _

theorem stepped_proceeds (operand : Expr) (op : BinaryOp) (line : Nat) :
    Proceeds n perhaps (stepped operand op line) (stepped operand op line) :=
  (targetOf_proceeds _ _).after fun _ => .pure _

theorem arrayLiteral_proceeds (he : Proceeds n always expression expression') (line : Nat) :
    Proceeds n always (arrayLiteral expression line) (arrayLiteral expression' line) := by
  refine (commaSeparated_proceeds he _).next fun elements => ?_
  refine (Proceeds.look _).after fun follows => ?_
  cases follows with
  | true => exact skip_proceeds.after fun _ => type_proceeds.after fun _ => .pure _
  | false => exact .pure _

theorem named_proceeds (he : Proceeds n always expression expression') (name : String)
    (line : Nat) :
    Proceeds n perhaps (named expression name line) (named expression' name line) :=
  (takeIf_proceeds _).ifTaken
    ((arguments_proceeds (he.anti (Nat.sub_le n 1))).after fun _ => .pure _) (.pure _)

theorem creation_proceeds (he : Proceeds n always expression expression') (line : Nat) :
    Proceeds n always (creation expression line) (creation expression' line) :=
  (identifier_proceeds _).next fun _ => (expect_proceeds _ _).after fun _ =>
    (arguments_proceeds (he.anti (Nat.sub_le n 1))).after fun _ => .pure _

theorem parenthesized_proceeds (he : Proceeds n always expression expression') :
    Proceeds n always (parenthesized expression) (parenthesized expression') :=
  he.next fun _ => (expect_proceeds _ _).after fun _ => .pure _

theorem primary_proceeds (he : Proceeds m always expression expression') :
    Proceeds (m + 1) always (primary expression) (primary expression') := by
  refine next?_proceeds.ifSome (fun lexeme => ?_) (.fail _)
  split
  next => exact named_proceeds he _ _
  next => exact .pure _
  next => exact (creation_proceeds he _).to_perhaps
  next => exact (parenthesized_proceeds he).to_perhaps
  next => exact (arrayLiteral_proceeds he _).to_perhaps
  next =>
    split
    next => exact .pure _
    next => exact .fail _
  next => exact .fail _

theorem memberOf_proceeds (he : Proceeds n always expression expression') (object : Expr)
    (line : Nat) :
    Proceeds n always (memberOf expression object line) (memberOf expression' object line) :=
  (identifier_proceeds _).next fun _ => (takeIf_proceeds _).ifTaken
    ((arguments_proceeds (he.anti (by omega))).after fun _ => .pure _) (.pure _)

theorem elementOf_proceeds (he : Proceeds n always expression expression') (array : Expr)
    (line : Nat) :
    Proceeds n always (elementOf expression array line) (elementOf expression' array line) :=
  he.next fun _ => (expect_proceeds _ _).after fun _ => .pure _

theorem suffix?_proceeds (he : Proceeds n always expression expression') (e : Expr) :
    Proceeds n Option.isSome (suffix? expression e) (suffix? expression' e) := by
  have he : Proceeds (n - 1) always expression expression' := he.anti (Nat.sub_le n 1)
  refine .peek (fun lexeme => ?_) .pure_none
  split
  next => exact .skip ((memberOf_proceeds he _ _).after fun _ => .pure _)
  next => exact .skip ((elementOf_proceeds he _ _).after fun _ => .pure _)
  next => exact .skip ((stepped_proceeds _ _ _).after fun _ => .pure _)
  next => exact .skip ((stepped_proceeds _ _ _).after fun _ => .pure _)
  next => exact .of .pure_none

theorem suffixes_proceeds : ∀ {n k k' : Nat}, Proceeds n always expression expression' → n ≤ k →
    n ≤ k' → ∀ e, Proceeds n perhaps (suffixes expression k e) (suffixes expression' k' e)
  | 0, _, _, _, _, _, _ => .zero
  | n + 1, _ + 1, _ + 1, he, hk, hk', e =>
    (suffix?_proceeds he e).ifSome
      (fun _ => suffixes_proceeds (he.anti (Nat.le_succ n)) (Nat.le_of_succ_le_succ hk)
        (Nat.le_of_succ_le_succ hk') _) (.pure _)

/-! ## Operators -/

theorem leadingOps_suffix : ∀ ts : List Lexeme, (leadingOps ts).2 <:+ ts
  | [] => List.suffix_refl _
  | ⟨token, line⟩ :: rest => by
    rw [leadingOps]
    split
    next => exact (leadingOps_suffix rest).trans (List.suffix_cons _ _)
    next => exact List.suffix_refl _

theorem leading_proceeds : Proceeds n perhaps (Action.modifyGet leadingOps)
    (Action.modifyGet leadingOps) :=
  fun ts _ => ⟨rfl, leadingOps_suffix ts, nofun⟩

theorem applyTo_proceeds (op : LeadingOp) (operand : Expr) (line : Nat) :
    Proceeds n perhaps (op.applyTo operand line) (op.applyTo operand line) := by
  cases op with
  | unary op => exact .pure _
  | step op => exact stepped_proceeds _ _ _

theorem applyLeading_proceeds (operand : Expr) : ∀ ops : List (LeadingOp × Nat),
    Proceeds n perhaps (applyLeading operand ops) (applyLeading operand ops)
  | [] => .pure _
  | _ :: ops => (applyLeading_proceeds operand ops).after fun _ => applyTo_proceeds _ _ _

theorem unary_proceeds (he : Proceeds m always expression expression') (hk : m ≤ k)
    (hk' : m ≤ k') :
    Proceeds (m + 1) always (unary expression k) (unary expression' k') :=
  leading_proceeds.after fun _ => (primary_proceeds he).next fun _ =>
    (suffixes_proceeds he hk hk' _).after fun _ => applyLeading_proceeds _ _

section

variable {operand operand' : Parser Expr}

theorem extend?_proceeds (ho : Proceeds n always operand operand') (level : Level) (left : Expr) :
    Proceeds n Option.isSome (level.extend? operand left) (level.extend? operand' left) := by
  refine .peek (fun ⟨token, line⟩ => ?_) .pure_none
  dsimp only
  split
  next => exact .skip ((ho.anti (Nat.sub_le n 1)).after fun _ => .pure _)
  next => exact .skip (type_proceeds.after fun _ => .pure _)
  next => exact .of .pure_none

theorem rest_proceeds (level : Level) : ∀ {n k k' : Nat}, Proceeds n always operand operand' →
    n ≤ k → n ≤ k' → ∀ left,
      Proceeds n perhaps (level.rest operand k left) (level.rest operand' k' left)
  | 0, _, _, _, _, _, _ => .zero
  | n + 1, _ + 1, _ + 1, ho, hk, hk', left =>
    (extend?_proceeds ho level left).ifSome
      (fun _ => rest_proceeds level (ho.anti (Nat.le_succ n)) (Nat.le_of_succ_le_succ hk)
        (Nat.le_of_succ_le_succ hk') _) (.pure _)

theorem binary_proceeds (ho : Proceeds (m + 1) always operand operand') (hk : m ≤ k)
    (hk' : m ≤ k') : ∀ levels : List Level,
      Proceeds (m + 1) always (binary operand k levels) (binary operand' k' levels)
  | [] => ho
  | level :: tighter => by
    have htighter := binary_proceeds ho hk hk' tighter
    exact htighter.next fun _ => rest_proceeds level (htighter.anti (Nat.le_succ m)) hk hk' _

end

/-! ## Whole expressions -/

theorem conditional_proceeds (he : Proceeds m always expression expression') (hk : m ≤ k)
    (hk' : m ≤ k') :
    Proceeds (m + 1) always (conditional expression k) (conditional expression' k') := by
  have he' : Proceeds (m - 1) always expression expression' := he.anti (Nat.sub_le m 1)
  refine (binary_proceeds (unary_proceeds he hk hk') hk hk' levels).next fun condition => ?_
  refine .peek (fun lexeme => ?_) (.pure _)
  split
  next =>
    exact .skip (he'.after fun _ => (expect_proceeds _ _).after fun _ =>
      he'.after fun _ => .pure _)
  next => exact .of (.pure _)

theorem assignment_proceeds (he : Proceeds m always expression expression') (hk : m ≤ k)
    (hk' : m ≤ k') :
    Proceeds (m + 1) always (assignment expression k) (assignment expression' k') := by
  refine (conditional_proceeds he hk hk').next fun left => ?_
  refine .peek (fun ⟨token, line⟩ => ?_) (.pure _)
  dsimp only
  split
  next =>
    exact .skip ((targetOf_proceeds _ _).after fun _ =>
      (he.anti (Nat.sub_le m 1)).after fun _ => .pure _)
  next => exact .of (.pure _)

end

theorem expressionAt_proceeds : ∀ {n k k' : Nat}, n ≤ k → n ≤ k' →
    Proceeds n always (expressionAt k) (expressionAt k')
  | 0, _, _, _, _ => .zero
  | _ + 1, _ + 1, _ + 1, hk, hk' =>
    assignment_proceeds
      (expressionAt_proceeds (Nat.le_of_succ_le_succ hk) (Nat.le_of_succ_le_succ hk'))
      (Nat.le_of_succ_le_succ hk) (Nat.le_of_succ_le_succ hk')

theorem expression_proceeds : Proceeds n always expression expression :=
  .of_onward fun ts =>
    (expressionAt_proceeds (Nat.le_refl _) (Nat.le_refl _) ts (Nat.lt_succ_self _)).2

/-- On few tokens, the depth to which expressions may nest is no limit. -/
theorem expressionAt_eq {ts : List Lexeme} (h : ts.length < n) :
    expressionAt n ts = expression ts :=
  (expressionAt_proceeds h (Nat.le_refl _) ts (Nat.lt_succ_self _)).1

/-- An expression reads its nested expressions as expressions, whatever the fuel. -/
theorem expression_unfold (ts : List Lexeme) :
    expression ts = assignment expression (ts.length + 1) ts := by
  have hnested : Proceeds ts.length always (expressionAt ts.length) expression := fun rest hrest =>
    ⟨expressionAt_eq hrest, (expressionAt_proceeds hrest hrest rest (Nat.lt_succ_self _)).2⟩
  exact (assignment_proceeds hnested (Nat.le_refl _) (Nat.le_succ _) ts (Nat.lt_succ_self _)).1

end ClassScript.Grammar
