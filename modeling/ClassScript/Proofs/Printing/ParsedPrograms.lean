import ClassScript.Grammar.Statement
import ClassScript.Proofs.Printing.ParsedExpressions

/-!
# Programs that the grammar gives

What every program that is read from tokens keeps to: its expressions and types are well formed, its
declarations have passed their check, the dimensions of an array are declared with the array, and a
`try` catches something or has a `finally`. The statement before an `else` ends with no `if` that
could take the `else` for its own, because that `if` would have taken it.
-/

namespace ClassScript

/-! ## Statements that an `else` would continue -/

mutual

/-- The statement ends with an `if` that has no `else` yet. -/
def Statement.isOpen : Statement → Bool
  | .branch _ _ onFalse _ => elseIsOpen onFalse
  | .whileLoop _ body _ => body.isOpen
  | .forLoop _ _ _ body _ => body.isOpen
  | _ => false

def elseIsOpen : Option Statement → Bool
  | some onFalse => onFalse.isOpen
  | none => true

end

/-! ## Well-formed programs -/

/-- An explicit size is well formed and no literal zero. -/
def ArrayLength.WellFormed : ArrayLength → Prop
  | .explicit size => size.WellFormed ∧ ∀ line, size ≠ .literal (.int 0) line
  | .inferred => True

/-- The type of a declared variable: a name under brackets, and a size exactly if there are
brackets. -/
structure DeclaredType (ty : Ty) (length : Option ArrayLength) : Prop where
  base : Ty.ofName ty.base.text = ty.base
  sized : length.isSome = ty.element?.isSome
  size : ∀ size ∈ length, size.WellFormed

structure VariableDecl.WellFormed (decl : VariableDecl) : Prop where
  ty : DeclaredType decl.ty decl.length
  initializer : ∀ value ∈ decl.initializer, value.WellFormed
  checked : Grammar.declarationFault? decl = none

def WellFormedParams (params : List Param) : Prop := ∀ param ∈ params, param.ty.Producible

structure MethodSignature.WellFormed (signature : MethodSignature) : Prop where
  params : WellFormedParams signature.params
  returnType : signature.returnType.Producible

/-- A `for` loop starts with a declaration, an expression or nothing. -/
def WellFormedStart : Option Statement → Prop
  | some (.declare decl) => decl.WellFormed
  | some (.expression expr _) => expr.WellFormed
  | some _ => False
  | none => True

mutual

def Statement.WellFormed : Statement → Prop
  | .expression expr _ => expr.WellFormed
  | .declare decl => decl.WellFormed
  | .function decl => decl.WellFormed
  | .classType decl => decl.WellFormed
  | .interface decl => ∀ signature ∈ decl.methods, signature.WellFormed
  | .block statements _ => WellFormedStatements statements
  | .branch condition onTrue onFalse _ =>
    condition.WellFormed ∧ onTrue.WellFormed ∧ (onFalse.isSome = true → onTrue.isOpen = false) ∧
      WellFormedElse onFalse
  | .whileLoop condition body _ => condition.WellFormed ∧ body.WellFormed
  | .doWhile body condition _ => body.WellFormed ∧ condition.WellFormed
  | .forLoop initial condition step body _ =>
    WellFormedStart initial ∧ (∀ e ∈ condition, e.WellFormed) ∧ (∀ e ∈ step, e.WellFormed) ∧
      body.WellFormed
  | .switch subject cases fallback _ =>
    subject.WellFormed ∧ WellFormedCases cases ∧ WellFormedBlock fallback
  | .returnValue value _ => ∀ e ∈ value, e.WellFormed
  | .throwValue value _ => value.WellFormed
  | .tryCatch body catches finalizer _ =>
    WellFormedStatements body ∧ WellFormedCatches catches ∧ WellFormedBlock finalizer ∧
      (catches.isEmpty && finalizer.isNone) = false
  | .enumeration _ | .breakLoop _ | .continueLoop _ | .includeModule .. => True

def WellFormedStatements : List Statement → Prop
  | [] => True
  | statement :: rest => statement.WellFormed ∧ WellFormedStatements rest

def WellFormedElse : Option Statement → Prop
  | some onFalse => onFalse.WellFormed
  | none => True

def WellFormedBlock : Option (List Statement) → Prop
  | some statements => WellFormedStatements statements
  | none => True

def WellFormedCases : List SwitchCase → Prop
  | [] => True
  | ⟨value, body, _⟩ :: rest =>
    value.WellFormed ∧ WellFormedStatements body ∧ WellFormedCases rest

def WellFormedCatches : List CatchClause → Prop
  | [] => True
  | ⟨_, ty, body, _⟩ :: rest =>
    (∀ caught ∈ ty, caught.Producible) ∧ WellFormedStatements body ∧ WellFormedCatches rest

def FunctionDecl.WellFormed : FunctionDecl → Prop
  | ⟨_, params, returnType, body, _⟩ =>
    WellFormedParams params ∧ returnType.Producible ∧ WellFormedStatements body

def WellFormedMethods : List MethodDecl → Prop
  | [] => True
  | ⟨function, _, _, _⟩ :: rest => function.WellFormed ∧ WellFormedMethods rest

def WellFormedConstructor : Option ConstructorDecl → Prop
  | some ⟨params, parentArguments, body, _, _⟩ =>
    WellFormedParams params ∧ (∀ arguments ∈ parentArguments, WellFormedAll arguments) ∧
      WellFormedStatements body
  | none => True

def ClassDecl.WellFormed : ClassDecl → Prop
  | ⟨_, _, _, fields, methods, constructor, _⟩ =>
    (∀ field ∈ fields, field.decl.WellFormed) ∧ WellFormedMethods methods ∧
      WellFormedConstructor constructor

end

theorem wellFormedMethods_append : ∀ {methods more : List MethodDecl},
    WellFormedMethods methods → WellFormedMethods more → WellFormedMethods (methods ++ more)
  | [], _, _, hmore => hmore
  | ⟨_, _, _, _⟩ :: _, _, hmethods, hmore =>
    ⟨hmethods.1, wellFormedMethods_append hmethods.2 hmore⟩

theorem wellFormedCatches_cons {clause : CatchClause} {rest : List CatchClause}
    (hclause : WellFormedCatches [clause]) (hrest : WellFormedCatches rest) :
    WellFormedCatches (clause :: rest) := by
  cases clause
  exact ⟨hclause.1, hclause.2.1, hrest⟩

theorem ClassDecl.wellFormed_iff {cls : ClassDecl} : cls.WellFormed ↔
    (∀ field ∈ cls.fields, field.decl.WellFormed) ∧ WellFormedMethods cls.methods ∧
      WellFormedConstructor cls.constructor := by
  cases cls
  exact Iff.rfl

namespace Grammar

/-! ## Declarations -/

theorem dimension_yields : Yields dimension ArrayLength.WellFormed := by
  refine .after fun closed => ?_
  split
  · exact .pure trivial
  · refine .bind expression_yields fun size hsize => .after fun _ => ?_
    split
    · exact .pure trivial
    next hzero => exact .pure ⟨hsize, hzero⟩

theorem dimensions_yields (fuel : Nat) {ty : Ty} {length : Option ArrayLength}
    (h : DeclaredType ty length) :
    Yields (dimensions fuel ty length) fun declared => DeclaredType declared.1 declared.2 := by
  induction fuel generalizing ty length with
  | zero => exact .outOfFuel
  | succ fuel ih =>
      refine .after fun found => ?_
      split
      · refine .after fun _ => .after fun _ => .bind dimension_yields fun size hsize => ?_
        split
        · exact .fail
        · refine ih ⟨h.base, ?_, ?_⟩
          · cases length <;> rfl
          · cases length with
            | none =>
                rintro _ heq
                obtain rfl := Option.some.inj heq
                exact hsize
            | some length => exact h.size
      · exact .pure h

theorem declaredType_yields :
    Yields declaredType fun declared => DeclaredType declared.1 declared.2 := by
  refine .after fun name => .after fun fuel => dimensions_yields fuel ⟨?_, ?_, nofun⟩
  · rw [Ty.base_ofName, Ty.ofName_text]
  · unfold Ty.ofName
    split <;> rfl

theorem initializer_yields :
    Yields initializer fun value? => ∀ value ∈ value?, value.WellFormed := by
  refine .after fun assigned => ?_
  split
  · exact .bind expression_yields fun _ hvalue => .some hvalue
  · exact .pure nofun

theorem checked_yields (decl : VariableDecl) :
    Yields (checked decl) fun result => result = decl ∧ declarationFault? decl = none := by
  unfold checked
  split
  · exact .fail
  next hnone => exact .pure ⟨rfl, hnone⟩

theorem variableDecl_yields (isConst : Bool) (line : Nat) :
    Yields (variableDecl isConst line) VariableDecl.WellFormed := by
  refine .after fun name => .after fun _ => .bind declaredType_yields fun declared hty => ?_
  refine .bind initializer_yields fun value hvalue => ?_
  refine (checked_yields _).mono ?_
  rintro _ ⟨rfl, hnone⟩
  exact ⟨hty, hvalue, hnone⟩

theorem params_yields : Yields params WellFormedParams := by
  refine .after fun _ => commaSeparated_yields ?_
  exact .after fun _ => .after fun _ => .after fun _ => .bind type_yields fun _ hty => .pure hty

theorem returnType_yields : Yields returnType Ty.Producible := by
  refine .after fun given => ?_
  split
  · exact type_yields
  · exact .pure ⟨[⟨.name "void", 0⟩], [], rfl⟩

section

variable {block : Parser (List Statement)} (hblock : Yields block WellFormedStatements)

include hblock

theorem functionBody_yields (returnType : Ty) :
    Yields (functionBody block returnType) WellFormedStatements := by
  refine .after fun arrow => ?_
  split
  · refine .after fun _ => .bind expression_yields fun value hvalue => .after fun _ => ?_
    split
    · exact .pure ⟨hvalue, trivial⟩
    · refine .pure ⟨?_, trivial⟩
      intro e heq
      obtain rfl := Option.some.inj heq
      exact hvalue
  · exact hblock

theorem function_yields (line : Nat) : Yields (function block line) FunctionDecl.WellFormed := by
  refine .after fun _ => .bind params_yields fun _ hparams => ?_
  refine .bind returnType_yields fun ty hty => ?_
  exact .bind (functionBody_yields hblock ty) fun _ hbody => .pure ⟨hparams, hty, hbody⟩

/-! ## Classes and interfaces -/

omit hblock in
theorem field_yields (mods : Modifiers) (isConst : Bool) (line : Nat) :
    Yields (field mods isConst line) fun field => field.decl.WellFormed := by
  refine .after fun name => .after fun _ => .bind declaredType_yields fun declared hty => ?_
  refine .after fun _ => .bind initializer_yields fun value hvalue => ?_
  refine .bind (checked_yields _) ?_
  rintro _ ⟨rfl, hnone⟩
  exact .after fun _ => .pure ⟨hty, hvalue, hnone⟩

omit hblock in
theorem parentArguments_yields :
    Yields parentArguments fun arguments? => ∀ arguments ∈ arguments?, WellFormedAll arguments := by
  refine .after fun given => ?_
  split
  · refine .after fun _ => .after fun _ => ?_
    exact .bind (expressions_yield expression_yields _) fun _ hes => .some hes
  · exact .pure nofun

theorem constructorDecl_yields (access : Access) (line : Nat) :
    Yields (constructorDecl block access line) fun decl => WellFormedConstructor (some decl) := by
  refine .bind params_yields fun _ hparams => .bind parentArguments_yields fun _ hparent => ?_
  exact .bind hblock fun _ hbody => .pure ⟨hparams, hparent, hbody⟩

theorem member_yields {cls : ClassDecl} (hcls : cls.WellFormed) :
    Yields (member block cls) ClassDecl.WellFormed := by
  obtain ⟨hfields, hmethods, hconstructor⟩ := ClassDecl.wellFormed_iff.mp hcls
  have hfield (isConst : Bool) (mods : Modifiers) (line : Nat) :
      Yields (field mods isConst line >>= fun field =>
        pure { cls with fields := cls.fields ++ [field] }) ClassDecl.WellFormed := by
    refine .bind (field_yields mods isConst line) fun field hfield => ?_
    refine .pure ⟨?_, hmethods, hconstructor⟩
    exact List.forall_mem_append.mpr ⟨hfields, List.forall_mem_singleton.mpr hfield⟩
  refine .after fun mods => .after fun found => ?_
  split
  · refine .bind (function_yields hblock _) fun function hfunction => ?_
    refine .pure ⟨hfields, ?_, hconstructor⟩
    exact wellFormedMethods_append hmethods ⟨hfunction, trivial⟩
  · exact hfield false mods _
  · exact hfield true mods _
  · split
    · exact .fail
    · split
      · exact .fail
      · exact .bind (constructorDecl_yields hblock _ _) fun _ hdecl =>
          .pure ⟨hfields, hmethods, hdecl⟩
  · exact .fail
  · exact .fail

theorem members_yields (fuel : Nat) {cls : ClassDecl} (hcls : cls.WellFormed) :
    Yields (members block fuel cls) ClassDecl.WellFormed := by
  induction fuel generalizing cls with
  | zero => exact .outOfFuel
  | succ fuel ih =>
      refine .after fun closed => ?_
      split
      · exact .pure hcls
      · exact .bind (member_yields hblock hcls) fun _ hnext => ih hnext

theorem classDecl_yields (isStatic : Bool) (line : Nat) :
    Yields (classDecl block isStatic line) ClassDecl.WellFormed := by
  refine .after fun name => .after fun supertypes => .after fun _ => .after fun fuel => ?_
  exact members_yields hblock fuel ⟨nofun, trivial, trivial⟩

end

theorem signature_yields : Yields signature MethodSignature.WellFormed := by
  refine .after fun _ => .after fun _ => .after fun _ => .bind params_yields fun _ hparams => ?_
  exact .bind returnType_yields fun _ hty => .after fun _ => .pure ⟨hparams, hty⟩

theorem signatures_yields (fuel : Nat) :
    Yields (signatures fuel) fun signatures => ∀ signature ∈ signatures, signature.WellFormed := by
  induction fuel with
  | zero => exact .outOfFuel
  | succ fuel ih =>
      refine .after fun closed => ?_
      split
      · exact .pure nofun
      · refine .bind signature_yields fun _ hfirst => .bind ih fun _ hrest => .pure ?_
        exact List.forall_mem_cons.mpr ⟨hfirst, hrest⟩

theorem interfaceDecl_yields (line : Nat) :
    Yields (interfaceDecl line) fun decl => ∀ signature ∈ decl.methods, signature.WellFormed :=
  .after fun _ => .after fun _ => .after fun fuel =>
    .bind (signatures_yields fuel) fun _ hmethods => .pure hmethods

/-! ## Statements -/

/-- The next token is no `else`. -/
def NotElse (ts : List Lexeme) : Prop := ∀ lexeme ∈ ts.head?, lexeme.token ≠ .keyword .kwElse

/-- The statements that a parser gives are well formed, and no `else` is left to those that end with
an `if`. -/
def Completes (p : Parser Statement) : Prop :=
  ∀ ⦃ts s rest⦄, p ts = .ok s rest → s.WellFormed ∧ (s.isOpen = true → NotElse rest)

namespace Completes

variable {p : Parser Statement}

theorem yields (h : Completes p) : Yields p Statement.WellFormed := fun _ _ _ heq => (h heq).1

theorem of_yields (h : Yields p fun s => s.WellFormed ∧ s.isOpen = false) : Completes p := by
  intro ts s rest heq
  obtain ⟨hs, hclosed⟩ := h heq
  refine ⟨hs, fun hopen => ?_⟩
  rw [hclosed] at hopen
  cases hopen

theorem bind {α : Type} {x : Parser α} {f : α → Parser Statement} {P : α → Prop}
    (hx : Yields x P) (hf : ∀ a, P a → Completes (f a)) : Completes (x >>= f) := by
  intro ts s rest h
  obtain ⟨a, ts₁, ha, hs⟩ := Action.ok_of_bind h
  exact hf a (hx ha) hs

theorem after {α : Type} {x : Parser α} {f : α → Parser Statement}
    (hf : ∀ a, Completes (f a)) : Completes (x >>= f) := by
  intro ts s rest h
  obtain ⟨a, ts₁, -, hs⟩ := Action.ok_of_bind h
  exact hf a hs

/-- A statement built around another one that stands at its end. -/
theorem around {build : Statement → Statement} (h : Completes p)
    (hwell : ∀ s, s.WellFormed → (build s).WellFormed) (hopen : ∀ s, (build s).isOpen = s.isOpen) :
    Completes (p >>= fun s => pure (build s)) := by
  intro ts s rest heq
  obtain ⟨body, ts₁, hbody, heq⟩ := Action.ok_of_bind heq
  cases heq
  obtain ⟨hs, helse⟩ := h hbody
  exact ⟨hwell _ hs, fun hend => helse (hopen body ▸ hend)⟩

end Completes

/-- An `else` is taken if it is next, and otherwise nothing is. -/
theorem takeKeyword_else {taken : Bool} {ts rest : List Lexeme}
    (h : takeKeyword .kwElse ts = .ok taken rest) :
    (taken = true ∧ ¬NotElse ts) ∨ (taken = false ∧ NotElse rest) := by
  cases ts with
  | nil =>
      cases h
      exact .inr ⟨rfl, nofun⟩
  | cons lexeme ts =>
      obtain ⟨token, line⟩ := lexeme
      change (if Token.isKeyword .kwElse token = true then _ else _ : Parser Bool) _ = _ at h
      split at h
      case isTrue helse =>
        cases h
        refine .inl ⟨rfl, fun hother => hother _ rfl ?_⟩
        cases token with
        | keyword word => exact congrArg Token.keyword (eq_of_beq helse)
        | _ => cases helse
      case isFalse helse =>
        cases h
        refine .inr ⟨rfl, fun lexeme hlexeme heq => helse ?_⟩
        obtain rfl := Option.some.inj hlexeme
        obtain rfl : token = .keyword .kwElse := heq
        rfl

section

variable {statement : Parser Statement} (hread : Completes statement)

include hread

theorem statementsToBrace_yields (fuel : Nat) :
    Yields (statementsToBrace statement fuel) WellFormedStatements := by
  induction fuel with
  | zero => exact .outOfFuel
  | succ fuel ih =>
      refine .after fun found => ?_
      split
      · exact .after fun _ => .pure trivial
      · exact .bind hread.yields fun _ hfirst => .bind ih fun _ hrest => .pure ⟨hfirst, hrest⟩
      · exact .fail

theorem blockBody_yields : Yields (blockBody statement) WellFormedStatements :=
  .after fun fuel => statementsToBrace_yields hread fuel

theorem block_yields : Yields (block statement) WellFormedStatements :=
  .after fun _ => blockBody_yields hread

omit hread in
theorem condition_yields (word : String) : Yields (condition word) Expr.WellFormed :=
  .after fun _ => .bind expression_yields fun _ he => .after fun _ => .pure he

/-- An `if` with an `else` had it offered to the statement before it, which did not take it. -/
theorem branch_completes (line : Nat) : Completes (branch statement line) := by
  refine .bind (condition_yields _) fun condition hcondition ts s rest heq => ?_
  obtain ⟨onTrue, ts₁, htrue, heq⟩ := Action.ok_of_bind heq
  obtain ⟨htrue, helse⟩ := hread htrue
  obtain ⟨taken, ts₂, htaken, heq⟩ := Action.ok_of_bind heq
  obtain ⟨rfl, hnext⟩ | ⟨rfl, hnext⟩ := takeKeyword_else htaken
  · obtain ⟨onFalse, ts₃, hfalse, heq⟩ := Action.ok_of_bind (x := statement) heq
    cases heq
    obtain ⟨hfalse, hend⟩ := hread hfalse
    have hclosed : onTrue.isOpen = false := Bool.eq_false_iff.mpr fun hopen => hnext (helse hopen)
    exact ⟨⟨hcondition, htrue, fun _ => hclosed, hfalse⟩, hend⟩
  · cases heq
    exact ⟨⟨hcondition, htrue, nofun, trivial⟩, fun _ => hnext⟩

theorem whileLoop_completes (line : Nat) : Completes (whileLoop statement line) :=
  .bind (condition_yields _) fun _ hcondition =>
    hread.around (fun _ hs => ⟨hcondition, hs⟩) fun _ => rfl

theorem doWhile_completes (line : Nat) : Completes (doWhile statement line) := by
  refine .of_yields (.bind hread.yields fun _ hbody => .after fun _ => ?_)
  refine .bind (condition_yields _) fun _ hcondition => ?_
  exact .after fun _ => .pure ⟨⟨hbody, hcondition⟩, rfl⟩

omit hread in
theorem loopStart_yields : Yields loopStart WellFormedStart := by
  refine .after fun found => ?_
  split
  · exact .pure trivial
  · exact .after fun _ => .bind (variableDecl_yields _ _) fun _ hdecl => .pure hdecl
  · exact .after fun _ => .bind (variableDecl_yields _ _) fun _ hdecl => .pure hdecl
  · exact .after fun _ => .bind expression_yields fun _ he => .pure he

omit hread in
theorem optionalBefore_yields (closing : Symbol) :
    Yields (optionalBefore closing) fun e? => ∀ e ∈ e?, e.WellFormed := by
  refine .after fun closed => ?_
  split
  · exact .pure nofun
  · exact .bind expression_yields fun _ he => .some he

theorem forLoop_completes (line : Nat) : Completes (forLoop statement line) := by
  refine .after fun _ => .bind loopStart_yields fun _ hinitial => .after fun _ => ?_
  refine .bind (optionalBefore_yields _) fun _ hcondition => .after fun _ => ?_
  refine .bind (optionalBefore_yields _) fun _ hstep => .after fun _ => ?_
  exact hread.around (fun _ hs => ⟨hinitial, hcondition, hstep, hs⟩) fun _ => rfl

theorem caseBody_yields (fuel : Nat) : Yields (caseBody statement fuel) WellFormedStatements := by
  induction fuel with
  | zero => exact .outOfFuel
  | succ fuel ih =>
      refine .after fun found => ?_
      split
      · split
        · exact .pure trivial
        · exact .bind hread.yields fun _ hfirst => .bind ih fun _ hrest => .pure ⟨hfirst, hrest⟩
      · exact .pure trivial

theorem switchCases_yields (fuel : Nat) {fallback : Option (List Statement)}
    (hfallback : WellFormedBlock fallback) :
    Yields (switchCases statement fuel fallback) fun cases =>
      WellFormedCases cases.1 ∧ WellFormedBlock cases.2 := by
  induction fuel generalizing fallback with
  | zero => exact .outOfFuel
  | succ fuel ih =>
      refine .after fun found => ?_
      split
      · refine .bind expression_yields fun _ hvalue => .after fun _ => .after fun fuel => ?_
        refine .bind (caseBody_yields hread fuel) fun _ hbody => ?_
        exact .bind (ih hfallback) fun _ hcases => .pure ⟨⟨hvalue, hbody, hcases.1⟩, hcases.2⟩
      · split
        · exact .bind (P := fun _ => False) .fail fun _ hfalse => hfalse.elim
        · refine .after fun _ => .after fun fuel => ?_
          exact .bind (caseBody_yields hread fuel) fun _ hbody => ih hbody
      · exact .pure ⟨trivial, hfallback⟩
      · exact .fail
      · exact .fail

theorem switch_completes (line : Nat) : Completes (switch statement line) := by
  refine .of_yields (.bind (condition_yields _) fun _ hsubject => ?_)
  refine .after fun _ => .after fun fuel => ?_
  refine .bind (switchCases_yields hread fuel trivial) fun _ hcases => ?_
  exact .pure ⟨⟨hsubject, hcases⟩, rfl⟩

theorem catchClause_yields (line : Nat) :
    Yields (catchClause statement line) fun clause => WellFormedCatches [clause] := by
  refine .after fun _ => .after fun _ => ?_
  have hty : Yields optionalType fun ty? => ∀ ty ∈ ty?, ty.Producible := by
    refine .after fun given => ?_
    split
    · exact .bind type_yields fun _ hty => .some hty
    · exact .pure nofun
  refine .bind hty fun _ hty => .after fun _ => .after fun _ => ?_
  exact .bind (blockBody_yields hread) fun _ hbody => .pure ⟨hty, hbody, trivial⟩

theorem catchClauses_yields (fuel : Nat) :
    Yields (catchClauses statement fuel) WellFormedCatches := by
  induction fuel with
  | zero => exact .outOfFuel
  | succ fuel ih =>
      refine .after fun found => ?_
      split
      · refine .after fun _ => .bind (catchClause_yields hread _) fun _ hfirst => ?_
        exact .bind ih fun _ hrest => .pure (wellFormedCatches_cons hfirst hrest)
      · exact .pure trivial

theorem finalizer_yields : Yields (finalizer statement) WellFormedBlock := by
  refine .after fun given => ?_
  split
  · exact .bind (block_yields hread) fun _ hbody => .pure hbody
  · exact .pure trivial

theorem tryCatch_completes (line : Nat) : Completes (tryCatch statement line) := by
  refine .of_yields (.bind (block_yields hread) fun _ hbody => .after fun fuel => ?_)
  refine .bind (catchClauses_yields hread fuel) fun catches hcatches => ?_
  refine .bind (finalizer_yields hread) fun finalizer hfinalizer => ?_
  split
  · exact .after fun _ => .fail
  next hsome =>
    exact .pure ⟨⟨hbody, hcatches, hfinalizer, Bool.eq_false_iff.mpr hsome⟩, rfl⟩

theorem keywordStatement?_completes {word : Keyword} {line : Nat} {rest : Parser Statement}
    (h : keywordStatement? statement line word = some rest) : Completes rest := by
  have hdecl (isConst : Bool) : Completes (declaration isConst line) :=
    .of_yields (.bind (variableDecl_yields _ _) fun _ hdecl => .after fun _ => .pure ⟨hdecl, rfl⟩)
  have hjump {s : Statement} (hs : s.WellFormed) (hclosed : s.isOpen = false) :
      Completes (jump s) :=
    .of_yields (.after fun _ => .pure ⟨hs, hclosed⟩)
  have hclass (isStatic : Bool) : Completes
      (classDecl (block statement) isStatic line >>= fun decl => pure (.classType decl)) :=
    .of_yields (.bind (classDecl_yields (block_yields hread) _ _) fun _ hdecl => .pure ⟨hdecl, rfl⟩)
  have hinclude : Completes (includeStatement line) :=
    .of_yields (.after fun _ => .after fun _ => .pure ⟨trivial, rfl⟩)
  cases word <;> simp only [keywordStatement?, Option.some.injEq, reduceCtorEq] at h <;> subst h
  case kwLet => exact hdecl false
  case kwConst => exact hdecl true
  case kwFunc =>
    refine .of_yields (.bind (function_yields (block_yields hread) _) fun _ hdecl => ?_)
    exact .pure ⟨hdecl, rfl⟩
  case kwStatic => exact .after fun _ => hclass true
  case kwClass => exact hclass false
  case kwInterface =>
    exact .of_yields (.bind (interfaceDecl_yields _) fun _ hdecl => .pure ⟨hdecl, rfl⟩)
  case kwEnum => exact .of_yields (.after fun _ => .pure ⟨trivial, rfl⟩)
  case kwIf => exact branch_completes hread line
  case kwWhile => exact whileLoop_completes hread line
  case kwDo => exact doWhile_completes hread line
  case kwFor => exact forLoop_completes hread line
  case kwSwitch => exact switch_completes hread line
  case kwBreak => exact hjump trivial rfl
  case kwContinue => exact hjump trivial rfl
  case kwReturn =>
    exact .of_yields (.bind (optionalBefore_yields _) fun _ hvalue => .after fun _ =>
      .pure ⟨hvalue, rfl⟩)
  case kwThrow =>
    exact .of_yields (.bind expression_yields fun _ hvalue => .after fun _ => .pure ⟨hvalue, rfl⟩)
  case kwTry => exact tryCatch_completes hread line
  case kwInclude => exact hinclude
  case kwUse => exact hinclude

theorem statementStep_completes : Completes (statementStep statement) := by
  have hexpression (line : Nat) : Completes (expressionStatement line) :=
    .of_yields (.bind expression_yields fun _ he => .after fun _ => .pure ⟨he, rfl⟩)
  refine .after fun found => ?_
  split
  · exact .of_yields (.bind (block_yields hread) fun _ hbody => .pure ⟨hbody, rfl⟩)
  · split
    next hrest => exact .after fun _ => keywordStatement?_completes hread hrest
    · exact hexpression _
  · exact hexpression _
  · exact .of_yields .fail

end

theorem statementAt_completes (n : Nat) : Completes (statementAt n) := by
  induction n with
  | zero => exact .of_yields .outOfFuel
  | succ n ih => exact statementStep_completes ih

theorem statementsToEnd_yields (fuel : Nat) :
    Yields (statementsToEnd fuel) WellFormedStatements := by
  have hstatement : Yields statement Statement.WellFormed :=
    fun ts _ _ heq => (statementAt_completes (ts.length + 1)).yields heq
  induction fuel with
  | zero => exact .outOfFuel
  | succ fuel ih =>
      refine .after fun found => ?_
      split
      · exact .bind hstatement fun _ hfirst => .bind ih fun _ hrest => .pure ⟨hfirst, hrest⟩
      · exact .pure trivial

/-- Every program that is read is well formed. -/
theorem program_wellFormed {ts : List Lexeme} {p : Program} (h : program ts = .ok p) :
    WellFormedStatements p := by
  unfold program at h
  split at h
  next hread =>
    cases h
    exact statementsToEnd_yields _ hread
  · cases h
  · cases h

end Grammar

end ClassScript
