import ClassScript.Proofs.Progress.Statements

/-!
# Every parser makes progress

`Rule` lists the parsers of the grammar and says when each of them has taken a token; `Counted`
lists those whose turns are counted. Whatever the tokens are, a parser leaves a suffix of them, a
counted one makes at most one turn more than there are tokens, and a program is read or refused.
What was only looked at is still there.
-/

namespace ClassScript.Grammar

/-! ## The parsers -/

/-- The parsers of the grammar, each with the values for which it has taken at least one token. -/
inductive Rule : {α : Type} → (α → Bool) → Parser α → Prop
  -- Single tokens and lists
  | next? : Rule Option.isSome next?
  | skip : Rule perhaps skip
  | takeIf (p : Token → Bool) : Rule id (takeIf p)
  | expect (p : Token → Bool) (what : String) : Rule always (expect p what)
  | mismatch {α : Type} (what : String) (found : Option Lexeme) :
    Rule always (mismatch what found : Parser α)
  | identifier (what : String) : Rule always (identifier what)
  | modulePath : Rule always modulePath
  | commaSeparated {α : Type} {item : Parser α} (closing : Symbol) (h : Rule always item) :
    Rule always (commaSeparated item closing)
  -- Types and parameters
  | pathRest (path : String) : Rule perhaps (pathRest path)
  | typePath : Rule always typePath
  | arraySuffix (ty : Ty) : Rule perhaps (arraySuffix ty)
  | type : Rule always type
  | optionalType : Rule perhaps optionalType
  | returnType : Rule perhaps returnType
  | param : Rule always param
  | params : Rule always params
  -- Expressions
  | targetOf (e : Expr) (line : Nat) : Rule perhaps (targetOf e line)
  | stepped (e : Expr) (op : BinaryOp) (line : Nat) : Rule perhaps (stepped e op line)
  | arrayLiteral (line : Nat) : Rule always (arrayLiteral expression line)
  | arguments : Rule always (arguments expression)
  | named (name : String) (line : Nat) : Rule perhaps (named expression name line)
  | creation (line : Nat) : Rule always (creation expression line)
  | parenthesized : Rule always (parenthesized expression)
  | primary : Rule always (primary expression)
  | memberOf (object : Expr) (line : Nat) : Rule always (memberOf expression object line)
  | elementOf (array : Expr) (line : Nat) : Rule always (elementOf expression array line)
  | suffix? (e : Expr) : Rule Option.isSome (suffix? expression e)
  | leadingOps : Rule perhaps (Action.modifyGet leadingOps)
  | applyTo (op : LeadingOp) (operand : Expr) (line : Nat) :
    Rule perhaps (op.applyTo operand line)
  | applyLeading (operand : Expr) (ops : List (LeadingOp × Nat)) :
    Rule perhaps (applyLeading operand ops)
  | extend? {operand : Parser Expr} (level : Level) (left : Expr) (h : Rule always operand) :
    Rule Option.isSome (level.extend? operand left)
  | expression : Rule always expression
  -- Declarations
  | dimension : Rule always dimension
  | declaredType : Rule always declaredType
  | initializer : Rule perhaps initializer
  | checked (decl : VariableDecl) : Rule perhaps (checked decl)
  | variableDecl (isConst : Bool) (line : Nat) : Rule always (variableDecl isConst line)
  | functionBody (returnType : Ty) : Rule always (functionBody (block statement) returnType)
  | function (line : Nat) : Rule always (function (block statement) line)
  | accessor : Rule always accessor
  | accessors : Rule perhaps accessors
  | access : Rule perhaps access
  | methodModifier : Rule perhaps methodModifier
  | modifiers : Rule perhaps modifiers
  | field (mods : Modifiers) (isConst : Bool) (line : Nat) : Rule always (field mods isConst line)
  | parentArguments : Rule perhaps parentArguments
  | constructorDecl (access : Access) (line : Nat) :
    Rule always (constructorDecl (block statement) access line)
  | member (cls : ClassDecl) : Rule always (member (block statement) cls)
  | supertypes : Rule perhaps supertypes
  | classDecl (isStatic : Bool) (line : Nat) :
    Rule always (classDecl (block statement) isStatic line)
  | signature : Rule always signature
  | interfaceDecl (line : Nat) : Rule always (interfaceDecl line)
  | enumValue : Rule always enumValue
  | enumMember : Rule always enumMember
  | enumDecl (line : Nat) : Rule always (enumDecl line)
  -- Statements
  | blockBody : Rule always (blockBody statement)
  | block : Rule always (block statement)
  | condition (word : String) : Rule always (condition word)
  | branch (line : Nat) : Rule always (branch statement line)
  | whileLoop (line : Nat) : Rule always (whileLoop statement line)
  | doWhile (line : Nat) : Rule always (doWhile statement line)
  | loopStart : Rule perhaps loopStart
  | optionalBefore (closing : Symbol) : Rule perhaps (optionalBefore closing)
  | forLoop (line : Nat) : Rule always (forLoop statement line)
  | switch (line : Nat) : Rule always (switch statement line)
  | catchClause (line : Nat) : Rule always (catchClause statement line)
  | finalizer : Rule perhaps (finalizer statement)
  | tryCatch (line : Nat) : Rule always (tryCatch statement line)
  | returnStatement (line : Nat) : Rule always (returnStatement line)
  | throwStatement (line : Nat) : Rule always (throwStatement line)
  | includeStatement (line : Nat) : Rule always (includeStatement line)
  | jump (jump : Statement) : Rule always (Grammar.jump jump)
  | declaration (isConst : Bool) (line : Nat) : Rule always (declaration isConst line)
  | expressionStatement (line : Nat) : Rule always (expressionStatement line)
  | staticClass (line : Nat) : Rule always (staticClass statement line)
  | keywordStatement {line : Nat} {word : Keyword} {rest : Parser Statement}
    (h : keywordStatement? statement line word = some rest) : Rule perhaps rest
  | statement : Rule always statement

/-- The parsers that are counted by fuel: loops and, for the nesting, the rules of expressions and
statements. -/
inductive Counted : {α : Type} → (α → Bool) → (Nat → Parser α) → Prop
  | itemsUntil {α : Type} {item : Parser α} (closing : Symbol) (h : Rule always item) :
    Counted always (itemsUntil item closing)
  | suffixes (e : Expr) : Counted perhaps fun n => suffixes expression n e
  | unary : Counted always (unary expression)
  | operators (level : Level) (tighter : List Level) (left : Expr) :
    Counted perhaps fun n => level.rest (binary (unary expression n) n tighter) n left
  | binary (levels : List Level) : Counted always fun n => binary (unary expression n) n levels
  | conditional : Counted always (conditional expression)
  | assignment : Counted always (assignment expression)
  | expressionAt : Counted always expressionAt
  | dimensions (ty : Ty) (length : Option ArrayLength) :
    Counted perhaps fun n => dimensions n ty length
  | members (cls : ClassDecl) : Counted always fun n => members (block statement) n cls
  | supertypesFrom : Counted always supertypesFrom
  | signatures : Counted always signatures
  | statementsToBrace : Counted always (statementsToBrace statement)
  | caseBody : Counted perhaps (caseBody statement)
  | switchCases (fallback : Option (List Statement)) :
    Counted always fun n => switchCases statement n fallback
  | catchClauses : Counted perhaps (catchClauses statement)
  | statementAt : Counted always statementAt
  | statementsToEnd : Counted perhaps statementsToEnd

variable {α : Type} {taken : α → Bool}

theorem Rule.proceeds {p : Parser α} (h : Rule taken p) : ∀ n, Proceeds n taken p p := by
  intro n
  have hs := statement_proceeds (n := n)
  have he := expression_proceeds (n := n)
  have hblock := (block_proceeds hs).anti (Nat.le_succ n)
  induction h with
  | next? => exact next?_proceeds
  | skip => exact skip_proceeds
  | takeIf p => exact takeIf_proceeds p
  | expect p what => exact expect_proceeds p what
  | mismatch what found => exact mismatch_proceeds what found
  | identifier what => exact identifier_proceeds what
  | modulePath => exact modulePath_proceeds
  | commaSeparated closing _ ih => exact commaSeparated_proceeds ih closing
  | pathRest path => exact pathRest_proceeds path
  | typePath => exact typePath_proceeds
  | arraySuffix ty => exact arraySuffix_proceeds ty
  | type => exact type_proceeds
  | optionalType => exact optionalType_proceeds
  | returnType => exact returnType_proceeds
  | param => exact param_proceeds
  | params => exact params_proceeds
  | targetOf e line => exact targetOf_proceeds e line
  | stepped e op line => exact stepped_proceeds e op line
  | arrayLiteral line => exact arrayLiteral_proceeds he line
  | arguments => exact arguments_proceeds he
  | named name line => exact named_proceeds he name line
  | creation line => exact creation_proceeds he line
  | parenthesized => exact parenthesized_proceeds he
  | primary => exact (primary_proceeds he).anti (Nat.le_succ n)
  | memberOf object line => exact memberOf_proceeds he object line
  | elementOf array line => exact elementOf_proceeds he array line
  | suffix? e => exact suffix?_proceeds he e
  | leadingOps => exact leading_proceeds
  | applyTo op operand line => exact applyTo_proceeds op operand line
  | applyLeading operand ops => exact applyLeading_proceeds operand ops
  | extend? level left _ ih => exact extend?_proceeds ih level left
  | expression => exact he
  | dimension => exact dimension_proceeds
  | declaredType => exact declaredType_proceeds
  | initializer => exact initializer_proceeds
  | checked decl => exact checked_proceeds decl
  | variableDecl isConst line => exact variableDecl_proceeds isConst line
  | functionBody returnType => exact functionBody_proceeds hblock returnType
  | function line => exact function_proceeds hblock line
  | accessor => exact accessor_proceeds
  | accessors => exact accessors_proceeds
  | access => exact access_proceeds
  | methodModifier => exact methodModifier_proceeds
  | modifiers => exact modifiers_proceeds
  | field mods isConst line => exact field_proceeds mods isConst line
  | parentArguments => exact parentArguments_proceeds
  | constructorDecl access line => exact constructorDecl_proceeds hblock access line
  | member cls => exact member_proceeds hblock cls
  | supertypes => exact supertypes_proceeds
  | classDecl isStatic line => exact classDecl_proceeds hblock isStatic line
  | signature => exact signature_proceeds
  | interfaceDecl line => exact interfaceDecl_proceeds line
  | enumValue => exact enumValue_proceeds
  | enumMember => exact enumMember_proceeds
  | enumDecl line => exact enumDecl_proceeds line
  | blockBody => exact blockBody_proceeds hs
  | block => exact hblock
  | condition word => exact condition_proceeds word
  | branch line => exact branch_proceeds hs line
  | whileLoop line => exact whileLoop_proceeds hs line
  | doWhile line => exact doWhile_proceeds hs line
  | loopStart => exact loopStart_proceeds
  | optionalBefore closing => exact optionalBefore_proceeds closing
  | forLoop line => exact forLoop_proceeds hs line
  | switch line => exact switch_proceeds hs line
  | catchClause line => exact catchClause_proceeds hs line
  | finalizer => exact finalizer_proceeds hs
  | tryCatch line => exact tryCatch_proceeds hs line
  | returnStatement line => exact returnStatement_proceeds line
  | throwStatement line => exact throwStatement_proceeds line
  | includeStatement line => exact includeStatement_proceeds line
  | jump jump => exact jump_proceeds jump
  | declaration isConst line => exact declaration_proceeds isConst line
  | expressionStatement line => exact expressionStatement_proceeds line
  | staticClass line => exact staticClass_proceeds hs line
  | @keywordStatement line word rest h =>
      have hrest := keywordStatement?_proceeds hs line word
      rw [h] at hrest
      obtain ⟨hrest⟩ := hrest
      exact hrest
  | statement => exact hs

/-- Any two amounts of fuel that exceed the number of tokens are as good as each other. -/
theorem Counted.proceeds {loop : Nat → Parser α} (h : Counted taken loop) {n k k' : Nat}
    (hk : n ≤ k) (hk' : n ≤ k') : Proceeds n taken (loop k) (loop k') := by
  have hs := statement_proceeds (n := n)
  have hunary : Proceeds (n + 1) always (Grammar.unary Grammar.expression k)
    (Grammar.unary Grammar.expression k') := unary_proceeds expression_proceeds hk hk'
  have hbinary (levels : List Level) := binary_proceeds hunary hk hk' levels
  cases h with
  | itemsUntil closing h => exact itemsUntil_proceeds closing (h.proceeds n) hk hk'
  | suffixes e => exact suffixes_proceeds expression_proceeds hk hk' e
  | unary => exact hunary.anti (Nat.le_succ n)
  | operators level tighter left =>
      exact rest_proceeds level ((hbinary tighter).anti (Nat.le_succ n)) hk hk' left
  | binary levels => exact (hbinary levels).anti (Nat.le_succ n)
  | conditional => exact (conditional_proceeds expression_proceeds hk hk').anti (Nat.le_succ n)
  | assignment => exact (assignment_proceeds expression_proceeds hk hk').anti (Nat.le_succ n)
  | expressionAt => exact expressionAt_proceeds hk hk'
  | dimensions ty length => exact dimensions_proceeds hk hk' ty length
  | members cls =>
      exact members_proceeds ((block_proceeds hs).anti (Nat.le_succ n)) hk hk' cls
  | supertypesFrom => exact supertypesFrom_proceeds hk hk'
  | signatures => exact signatures_proceeds hk hk'
  | statementsToBrace => exact statementsToBrace_proceeds hs hk hk'
  | caseBody => exact caseBody_proceeds hs hk hk'
  | switchCases fallback => exact switchCases_proceeds hs hk hk' fallback
  | catchClauses => exact catchClauses_proceeds hs hk hk'
  | statementAt => exact statementAt_proceeds hk hk'
  | statementsToEnd => exact statementsToEnd_proceeds hk hk'

/-! ## Programs -/

/-- Reading a program ends at the end of the tokens. -/
theorem statementsToEnd_rest : ∀ {n : Nat} {ts rest : List Lexeme} {p : Program},
    statementsToEnd n ts = .ok p rest → rest = []
  | 0, _, _, _, h => nomatch h
  | n + 1, [], _, _, h => by
    cases h
    rfl
  | n + 1, lexeme :: ts, rest, p, h => by
    have hpeek : peek? (lexeme :: ts) = .ok (some lexeme) (lexeme :: ts) := rfl
    rw [statementsToEnd, Action.bind_of_ok hpeek] at h
    obtain ⟨first, ts₁, -, h⟩ := Action.ok_of_bind h
    obtain ⟨more, ts₂, hmore, h⟩ := Action.ok_of_bind h
    cases h
    exact statementsToEnd_rest hmore

/-- All tokens are read as a program, or an error is found after some of them. -/
theorem program_ends (ts : List Lexeme) :
    (∃ p, statementsToEnd (ts.length + 1) ts = .ok p [] ∧ program ts = .ok p) ∨
      ∃ e rest, rest <:+ ts ∧ statementsToEnd (ts.length + 1) ts = .error e rest ∧
        program ts = .error e := by
  have honward := (statementsToEnd_proceeds (Nat.le_refl _) (Nat.le_refl _) ts
    (Nat.lt_succ_self _)).2
  rw [program]
  cases hrun : statementsToEnd (ts.length + 1) ts with
  | ok p rest =>
      obtain rfl := statementsToEnd_rest hrun
      exact .inl ⟨p, rfl, rfl⟩
  | error e rest =>
      rw [hrun] at honward
      exact .inr ⟨e, rest, honward, rfl, rfl⟩
  | exhausted =>
      rw [hrun] at honward
      exact honward.elim

/-! ## Looking ahead -/

/-- An array literal whose elements no type follows leaves all that follows them. -/
theorem arrayLiteral_of_not {line : Nat} {ts rest : List Lexeme} {elements : List Expr}
    (helements : commaSeparated expression .rightBracket ts = .ok elements rest)
    (hnone : elementTypeFollows elements rest = false) :
    arrayLiteral expression line ts = .ok (.array elements none line) rest := by
  rw [arrayLiteral, Action.bind_of_ok helements, Action.read_bind, hnone]
  rfl

/-! ## The main theorem -/

/-- Parsing makes progress. A program is read to its end or refused. Whatever the tokens, every
parser of the grammar leaves a suffix of them, a shorter one where it must have taken a token. The
loops, and the rules that nest, come to an end of their own: with any fuel above the number of
tokens they do the same. So an expression and a statement read their parts as if there were no
fuel. The next token, a bracket that no bracket closes and a colon that no element type follows are
still there when they have been looked at. -/
theorem parsing_progresses :
    (∀ ts, (∃ p, statementsToEnd (ts.length + 1) ts = .ok p [] ∧ program ts = .ok p) ∨
      ∃ e rest, rest <:+ ts ∧ statementsToEnd (ts.length + 1) ts = .error e rest ∧
        program ts = .error e) ∧
    (∀ {α : Type} {taken : α → Bool} {p : Parser α}, Rule taken p →
      ∀ ts, (p ts).Onward taken ts) ∧
    (∀ {α : Type} {taken : α → Bool} {loop : Nat → Parser α}, Counted taken loop →
      ∀ ts n, ts.length < n →
        loop n ts = loop (ts.length + 1) ts ∧ (loop n ts).Onward taken ts) ∧
    (∀ ts, expression ts = assignment expression (ts.length + 1) ts) ∧
    statement = statementStep statement ∧
    (∀ ts, peek? ts = .ok ts.head? ts) ∧
    (∀ ts, ∃ line, peekLine ts = .ok line ts) ∧
    (∀ p ts, ∃ found, at? p ts = .ok found ts) ∧
    (∀ ty ts, ¬ Ty.OpensArray ts → arraySuffix ty ts = .ok ty ts) ∧
    (∀ line ts elements rest, commaSeparated expression .rightBracket ts = .ok elements rest →
      elementTypeFollows elements rest = false →
        arrayLiteral expression line ts = .ok (.array elements none line) rest) :=
  ⟨program_ends, fun h => Proceeds.onward h.proceeds,
    fun h ts _ hts => h.proceeds hts (Nat.le_refl _) ts (Nat.lt_succ_self _),
    expression_unfold, statement_unfold, fun _ => rfl, fun _ => ⟨_, rfl⟩, fun _ _ => ⟨_, rfl⟩,
    fun _ _ => Ty.arraySuffix_of_not, fun _ _ _ _ => arrayLiteral_of_not⟩

end ClassScript.Grammar
