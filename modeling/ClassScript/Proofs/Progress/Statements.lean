import ClassScript.Grammar.Statement
import ClassScript.Proofs.Progress.Declarations

/-!
# Progress in statements

A statement takes at least one token, and a statement nested in it stands after one. Blocks, cases
and the clauses of a `try` are loops whose every turn reads a statement or a word.
-/

namespace ClassScript.Grammar

variable {n m : Nat} {statement statement' : Parser Statement}

/-! ## Blocks -/

theorem statementsToBrace_proceeds : ∀ {n k k' : Nat}, Proceeds n always statement statement' →
    n ≤ k → n ≤ k' → Proceeds n always (statementsToBrace statement k)
      (statementsToBrace statement' k')
  | 0, _, _, _, _, _ => .zero
  | n + 1, _ + 1, _ + 1, hs, hk, hk' => by
    have hmore := statementsToBrace_proceeds (hs.anti (Nat.le_succ n))
      (Nat.le_of_succ_le_succ hk) (Nat.le_of_succ_le_succ hk')
    refine .peek (fun lexeme => ?_) (.fail _)
    split
    next => exact .skip (.pure _)
    next => exact .of (hs.next fun first => hmore.after fun _ => .pure _)
    next => exact .of (.fail _)

theorem blockBody_proceeds (hs : Proceeds n always statement statement') :
    Proceeds n always (blockBody statement) (blockBody statement') :=
  .fuel fun k hk => statementsToBrace_proceeds (hs.anti hk) (Nat.le_refl k) (Nat.le_refl k)

theorem block_proceeds (hs : Proceeds m always statement statement') :
    Proceeds (m + 1) always (block statement) (block statement') :=
  (expect_proceeds _ _).next fun _ => (blockBody_proceeds hs).to_perhaps

theorem condition_proceeds (word : String) :
    Proceeds n always (condition word) (condition word) := by
  refine (expect_proceeds _ _).next fun _ => expression_proceeds.after fun e => ?_
  exact (expect_proceeds _ _).after fun _ => .pure _

/-! ## Branches and loops -/

theorem branch_proceeds (hs : Proceeds n always statement statement') (line : Nat) :
    Proceeds n always (branch statement line) (branch statement' line) := by
  have hs : Proceeds (n - 1) always statement statement' := hs.anti (Nat.sub_le n 1)
  refine (condition_proceeds _).next fun condition => hs.after fun onTrue => ?_
  refine (takeIf_proceeds _).ifTaken ?_ (.pure _)
  exact (hs.anti (Nat.sub_le _ 1)).after fun _ => .pure _

theorem whileLoop_proceeds (hs : Proceeds n always statement statement') (line : Nat) :
    Proceeds n always (whileLoop statement line) (whileLoop statement' line) :=
  (condition_proceeds _).next fun _ => (hs.anti (Nat.sub_le n 1)).after fun _ => .pure _

theorem doWhile_proceeds (hs : Proceeds n always statement statement') (line : Nat) :
    Proceeds n always (doWhile statement line) (doWhile statement' line) := by
  refine hs.next fun body => (expect_proceeds _ _).after fun _ => ?_
  exact (condition_proceeds _).after fun _ => (expect_proceeds _ _).after fun _ => .pure _

theorem loopStart_proceeds : Proceeds n perhaps loopStart loopStart := by
  have hexpression (line : Nat) : Proceeds n perhaps
      (return some (.expression (← expression) line) : Parser (Option Statement))
      (return some (.expression (← expression) line)) :=
    expression_proceeds.after fun _ => .pure _
  refine .peek (fun lexeme => ?_) (peekLine_proceeds.after hexpression)
  split
  next => exact .of (.pure _)
  next => exact .skip ((variableDecl_proceeds _ _).after fun _ => .pure _)
  next => exact .skip ((variableDecl_proceeds _ _).after fun _ => .pure _)
  next => exact .of (peekLine_proceeds.after hexpression)

theorem optionalBefore_proceeds (closing : Symbol) :
    Proceeds n perhaps (optionalBefore closing) (optionalBefore closing) := by
  refine (at?_proceeds _).after fun closed => ?_
  split
  next => exact .pure _
  next => exact expression_proceeds.after fun _ => .pure _

theorem forLoop_proceeds (hs : Proceeds n always statement statement') (line : Nat) :
    Proceeds n always (forLoop statement line) (forLoop statement' line) := by
  refine (expect_proceeds _ _).next fun _ => loopStart_proceeds.after fun initial => ?_
  refine (expect_proceeds _ _).after fun _ => (optionalBefore_proceeds _).after fun condition => ?_
  refine (expect_proceeds _ _).after fun _ => (optionalBefore_proceeds _).after fun step => ?_
  exact (expect_proceeds _ _).after fun _ => (hs.anti (Nat.sub_le n 1)).after fun _ => .pure _

/-! ## Switch -/

theorem caseBody_proceeds : ∀ {n k k' : Nat}, Proceeds n always statement statement' → n ≤ k →
    n ≤ k' → Proceeds n perhaps (caseBody statement k) (caseBody statement' k')
  | 0, _, _, _, _, _ => .zero
  | n + 1, _ + 1, _ + 1, hs, hk, hk' => by
    have hmore := caseBody_proceeds (hs.anti (Nat.le_succ n)) (Nat.le_of_succ_le_succ hk)
      (Nat.le_of_succ_le_succ hk')
    refine .peek (fun ⟨token, line⟩ => ?_) (.pure _)
    dsimp only
    split
    next => exact .of (.pure _)
    next => exact .of (hs.next fun first => hmore.after fun _ => .pure _)

theorem switchCases_proceeds : ∀ {n k k' : Nat}, Proceeds n always statement statement' → n ≤ k →
    n ≤ k' → ∀ fallback,
      Proceeds n always (switchCases statement k fallback) (switchCases statement' k' fallback)
  | 0, _, _, _, _, _, _ => .zero
  | n + 1, _ + 1, _ + 1, hs, hk, hk', fallback => by
    have hs : Proceeds n always statement statement' := hs.anti (Nat.le_succ n)
    have hbody {β : Type} {f g : List Statement → Parser β}
        (hf : ∀ body, Proceeds n perhaps (f body) (g body)) :
        Proceeds n perhaps (Action.read (·.length + 1) >>= fun k => caseBody statement k >>= f)
          (Action.read (·.length + 1) >>= fun k => caseBody statement' k >>= g) :=
      .fuel fun k hk => (caseBody_proceeds (hs.anti hk) (Nat.le_refl k) (Nat.le_refl k)).after
        fun body => (hf body).anti hk
    have hmore := switchCases_proceeds hs (Nat.le_of_succ_le_succ hk) (Nat.le_of_succ_le_succ hk')
    refine next?_proceeds.ifSome (fun lexeme => ?_) (.fail _)
    split
    next =>
      refine expression_proceeds.after fun value => (expect_proceeds _ _).after fun _ => ?_
      exact hbody fun body => (hmore _).after fun _ => .pure _
    next line _ =>
      have hduplicate : Proceeds n perhaps (Action.fail (.duplicateDefault line) : Parser Unit) _ :=
        .fail _
      have hfallback := hbody fun body => (hmore (some body)).to_perhaps
      split
      next => exact hduplicate.after fun _ => (expect_proceeds _ _).after fun _ => hfallback
      next => exact (expect_proceeds _ _).after fun _ => hfallback
    next => exact .pure _
    next => exact .fail _
    next => exact .fail _

theorem switch_proceeds (hs : Proceeds n always statement statement') (line : Nat) :
    Proceeds n always (switch statement line) (switch statement' line) := by
  refine (condition_proceeds _).next fun subject => (expect_proceeds _ _).after fun _ => ?_
  refine .fuel fun k hk => ?_
  have hs : Proceeds k always statement statement' := hs.anti (Nat.le_trans hk (Nat.sub_le n 1))
  exact (switchCases_proceeds hs (Nat.le_refl k) (Nat.le_refl k) none).after fun _ => .pure _

/-! ## Exceptions -/

theorem optionalType_proceeds : Proceeds n perhaps optionalType optionalType :=
  (takeIf_proceeds _).ifTaken (type_proceeds.after fun _ => .pure _) (.pure _)

theorem catchClause_proceeds (hs : Proceeds n always statement statement') (line : Nat) :
    Proceeds n always (catchClause statement line) (catchClause statement' line) := by
  refine (expect_proceeds _ _).next fun _ => (identifier_proceeds _).after fun name => ?_
  refine optionalType_proceeds.after fun ty => (expect_proceeds _ _).after fun _ => ?_
  refine (expect_proceeds _ _).after fun _ => ?_
  exact (blockBody_proceeds (hs.anti (Nat.sub_le n 1))).after fun _ => .pure _

theorem catchClauses_proceeds : ∀ {n k k' : Nat}, Proceeds n always statement statement' → n ≤ k →
    n ≤ k' → Proceeds n perhaps (catchClauses statement k) (catchClauses statement' k')
  | 0, _, _, _, _, _ => .zero
  | n + 1, _ + 1, _ + 1, hs, hk, hk' => by
    have hs : Proceeds n always statement statement' := hs.anti (Nat.le_succ n)
    have hmore := catchClauses_proceeds hs (Nat.le_of_succ_le_succ hk)
      (Nat.le_of_succ_le_succ hk')
    refine .peek (fun lexeme => ?_) (.pure _)
    split
    next => exact .skip ((catchClause_proceeds hs _).after fun _ => hmore.after fun _ => .pure _)
    next => exact .of (.pure _)

theorem finalizer_proceeds (hs : Proceeds n always statement statement') :
    Proceeds n perhaps (finalizer statement) (finalizer statement') := by
  have hblock := (block_proceeds hs).anti (Nat.le_succ_of_le (Nat.sub_le n 1))
  exact (takeIf_proceeds _).ifTaken (hblock.after fun _ => .pure _) (.pure _)

theorem tryCatch_proceeds (hs : Proceeds n always statement statement') (line : Nat) :
    Proceeds n always (tryCatch statement line) (tryCatch statement' line) := by
  have hrest : Proceeds (n - 1) always statement statement' := hs.anti (Nat.sub_le n 1)
  refine ((block_proceeds hs).anti (Nat.le_succ n)).next fun body => .fuel fun k hk => ?_
  have hcatches := catchClauses_proceeds (hrest.anti hk) (Nat.le_refl k) (Nat.le_refl k)
  refine hcatches.after fun catches => (finalizer_proceeds (hrest.anti hk)).after fun finally? => ?_
  split
  next => exact (Proceeds.look _).after fun _ => .fail _
  next => exact .pure _

/-! ## Simple statements -/

theorem modulePath_proceeds : Proceeds n always modulePath modulePath := by
  refine next?_proceeds.ifSome (fun lexeme => ?_) (.fail _)
  split
  next => exact .pure _
  next => exact mismatch_proceeds _ _

theorem returnStatement_proceeds (line : Nat) :
    Proceeds n always (returnStatement line) (returnStatement line) :=
  (optionalBefore_proceeds _).after fun _ => (expect_proceeds _ _).next fun _ => .pure _

theorem throwStatement_proceeds (line : Nat) :
    Proceeds n always (throwStatement line) (throwStatement line) :=
  expression_proceeds.next fun _ => (expect_proceeds _ _).after fun _ => .pure _

theorem includeStatement_proceeds (line : Nat) :
    Proceeds n always (includeStatement line) (includeStatement line) :=
  modulePath_proceeds.next fun _ => (expect_proceeds _ _).after fun _ => .pure _

theorem jump_proceeds (statement : Statement) :
    Proceeds n always (jump statement) (jump statement) :=
  (expect_proceeds _ _).next fun _ => .pure _

theorem declaration_proceeds (isConst : Bool) (line : Nat) :
    Proceeds n always (declaration isConst line) (declaration isConst line) :=
  (variableDecl_proceeds _ _).next fun _ => (expect_proceeds _ _).after fun _ => .pure _

theorem expressionStatement_proceeds (line : Nat) :
    Proceeds n always (expressionStatement line) (expressionStatement line) :=
  expression_proceeds.next fun _ => (expect_proceeds _ _).after fun _ => .pure _

/-! ## All statements -/

theorem staticClass_proceeds (hs : Proceeds n always statement statement') (line : Nat) :
    Proceeds n always (staticClass statement line) (staticClass statement' line) := by
  have hblock := (block_proceeds hs).anti (Nat.le_succ_of_le (Nat.sub_le n 1))
  exact (expect_proceeds _ _).next fun _ => (classDecl_proceeds hblock _ _).after fun _ => .pure _

/-- After its word, a statement goes on as it does with the other parser of statements. -/
theorem keywordStatement?_proceeds (hs : Proceeds n always statement statement') (line : Nat)
    (word : Keyword) :
    Option.Rel (Proceeds n perhaps) (keywordStatement? statement line word)
      (keywordStatement? statement' line word) := by
  have hblock := (block_proceeds hs).anti (Nat.le_succ n)
  cases word with
  | kwLet => exact .some (declaration_proceeds _ _).to_perhaps
  | kwConst => exact .some (declaration_proceeds _ _).to_perhaps
  | kwFunc => exact .some ((function_proceeds hblock _).after fun _ => .pure _)
  | kwStatic => exact .some (staticClass_proceeds hs _).to_perhaps
  | kwClass => exact .some ((classDecl_proceeds hblock _ _).after fun _ => .pure _)
  | kwInterface => exact .some ((interfaceDecl_proceeds _).after fun _ => .pure _)
  | kwEnum => exact .some ((enumDecl_proceeds _).after fun _ => .pure _)
  | kwIf => exact .some (branch_proceeds hs _).to_perhaps
  | kwWhile => exact .some (whileLoop_proceeds hs _).to_perhaps
  | kwDo => exact .some (doWhile_proceeds hs _).to_perhaps
  | kwFor => exact .some (forLoop_proceeds hs _).to_perhaps
  | kwSwitch => exact .some (switch_proceeds hs _).to_perhaps
  | kwBreak => exact .some (jump_proceeds _).to_perhaps
  | kwContinue => exact .some (jump_proceeds _).to_perhaps
  | kwReturn => exact .some (returnStatement_proceeds _).to_perhaps
  | kwThrow => exact .some (throwStatement_proceeds _).to_perhaps
  | kwTry => exact .some (tryCatch_proceeds hs _).to_perhaps
  | kwInclude => exact .some (includeStatement_proceeds _).to_perhaps
  | kwUse => exact .some (includeStatement_proceeds _).to_perhaps
  | _ => exact .none

theorem statementStep_proceeds (hs : Proceeds m always statement statement') :
    Proceeds (m + 1) always (statementStep statement) (statementStep statement') := by
  refine .peek (fun lexeme => ?_) (.fail _)
  split
  next => exact .of ((block_proceeds hs).next fun _ => .pure _)
  next word line _ =>
    have hrest := keywordStatement?_proceeds hs line word
    revert hrest
    generalize keywordStatement? statement line word = rest
    generalize keywordStatement? statement' line word = rest'
    rintro (hrest | _)
    · exact .skip hrest
    · exact .of (expressionStatement_proceeds _)
  next => exact .of (expressionStatement_proceeds _)
  next => exact .of (.fail _)

theorem statementAt_proceeds : ∀ {n k k' : Nat}, n ≤ k → n ≤ k' →
    Proceeds n always (statementAt k) (statementAt k')
  | 0, _, _, _, _ => .zero
  | _ + 1, _ + 1, _ + 1, hk, hk' =>
    statementStep_proceeds
      (statementAt_proceeds (Nat.le_of_succ_le_succ hk) (Nat.le_of_succ_le_succ hk'))

theorem statement_proceeds : Proceeds n always Grammar.statement Grammar.statement :=
  .of_onward fun ts =>
    (statementAt_proceeds (Nat.le_refl _) (Nat.le_refl _) ts (Nat.lt_succ_self _)).2

/-- On few tokens, the depth to which statements may nest is no limit. -/
theorem statementAt_eq {ts : List Lexeme} (h : ts.length < n) :
    statementAt n ts = Grammar.statement ts :=
  (statementAt_proceeds h (Nat.le_refl _) ts (Nat.lt_succ_self _)).1

/-- A statement reads its parts as statements, whatever the fuel. -/
theorem statement_unfold : Grammar.statement = statementStep Grammar.statement := by
  funext ts
  have hnested : Proceeds ts.length always (statementAt ts.length) Grammar.statement :=
    fun rest hrest =>
      ⟨statementAt_eq hrest, (statementAt_proceeds hrest hrest rest (Nat.lt_succ_self _)).2⟩
  exact (statementStep_proceeds hnested ts (Nat.lt_succ_self _)).1

/-! ## Programs -/

theorem statementsToEnd_proceeds : ∀ {n k k' : Nat}, n ≤ k → n ≤ k' →
    Proceeds n perhaps (statementsToEnd k) (statementsToEnd k')
  | 0, _, _, _, _ => .zero
  | n + 1, _ + 1, _ + 1, hk, hk' => by
    have hmore := statementsToEnd_proceeds (Nat.le_of_succ_le_succ hk) (Nat.le_of_succ_le_succ hk')
    refine .peek (fun lexeme => ?_) (.pure _)
    exact .of (statement_proceeds.next fun first => hmore.after fun _ => .pure _)

end ClassScript.Grammar
