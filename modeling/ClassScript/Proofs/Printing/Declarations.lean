import ClassScript.Proofs.Printing.ParsedPrograms
import ClassScript.Proofs.Printing.Takes

/-!
# Declarations read back

The printed tokens of types, variables, functions, classes, interfaces and enumerations are read as
what was printed, up to its lines. The bodies of functions are read by a parser of blocks that reads
back every block which is short enough.
-/

namespace ClassScript

/-! ## Types under brackets -/

namespace Ty

/-- The type with the brackets of the first type around the second one. -/
def bracketed : Ty → Ty → Ty
  | .array element, ty => element.bracketed (.array ty)
  | _, ty => ty

theorem bracketed_array : ∀ element ty : Ty,
    element.bracketed (.array ty) = .array (element.bracketed ty)
  | .array element, ty => bracketed_array element (.array ty)
  | .int, _ | .float, _ | .double, _ | .decimal, _ | .bool, _ | .string, _ | .char, _ | .void, _
  | .named _, _ => rfl

theorem bracketed_base : ∀ ty : Ty, ty.bracketed ty.base = ty
  | .array element => by
      rw [base, bracketed, bracketed_array, bracketed_base element]
  | .int | .float | .double | .decimal | .bool | .string | .char | .void | .named _ => rfl

theorem path_eq : ∀ ty : Ty, ty.path = (ty.base.text.toList.splitOn '.').map String.ofList
  | .array element => path_eq element
  | .int | .float | .double | .decimal | .bool | .string | .char | .void | .named _ => rfl

end Ty

namespace Grammar

/-! ## What ends types and expressions -/

/-- The symbol does not come next. -/
def noSymbol (mark : Symbol) : Follow := fun t => !t.any (Token.isSymbol mark)

theorem noSymbol_iff {mark : Symbol} {t : Option Token} :
    noSymbol mark t = true ↔ t.any (Token.isSymbol mark) = false := Bool.not_eq_true' _ ▸ Iff.rfl

/-- A dotted path goes on with a dot. -/
def pathEnds : Follow
  | some (.symbol .dot) => false
  | _ => true

/-- A type goes on with a dot or a bracket. -/
def typeEnds : Follow
  | some (.symbol .dot) | some (.symbol .leftBracket) => false
  | _ => true

/-- Nothing that continues an expression comes next. -/
def expressionEnds : Follow := fun t => (t.bind Token.continues).isNone

theorem typeEnds_of_expressionEnds {t : Option Token} (h : expressionEnds t = true) :
    typeEnds t = true := by
  unfold typeEnds
  split
  · cases h
  · cases h
  · rfl

theorem pathEnds_of_typeEnds {t : Option Token} (h : typeEnds t = true) : pathEnds t = true := by
  unfold pathEnds
  split
  · cases h
  · rfl

theorem notNext_of_pathEnds {more : List Lexeme} (h : pathEnds (nextToken more) = true) :
    NotNext .dot more := by
  intro lexeme hlexeme heq
  rw [nextToken, hlexeme, Option.map_some, heq] at h
  cases h

theorem notNext_of_typeEnds {more : List Lexeme} (h : typeEnds (nextToken more) = true) :
    NotNext .leftBracket more := by
  intro lexeme hlexeme heq
  rw [nextToken, hlexeme, Option.map_some, heq] at h
  cases h

theorem loose_of_expressionEnds {more : List Lexeme}
    (h : expressionEnds (nextToken more) = true) : Loose 0 more := by
  intro lexeme hlexeme j hj
  rw [nextToken, hlexeme, Option.map_some] at h
  change lexeme.token.continues.isNone = true at h
  rw [hj] at h
  cases h

theorem type_takes {ty : Ty} (hty : ty.Producible) : Takes type ty.tokens typeEnds (· = ty) := by
  intro ts more hts hmore
  have hdot := notNext_of_pathEnds (pathEnds_of_typeEnds hmore)
  exact ⟨ty, type_eq hty hts hdot (notNext_of_typeEnds hmore), rfl⟩

theorem expression_takes {e : Expr} (he : e.WellFormed) :
    Takes expression (e.tokensAt 0) expressionEnds fun e' => e'.unlined = e.unlined := by
  intro ts more hts hmore
  have hlt : ts.length < (ts ++ more).length + 1 := by
    rw [List.length_append]
    omega
  exact expressionAt_reads _ he (.of_tokensAt hts) hlt (loose_of_expressionEnds hmore)

theorem arguments_takes {es : List Expr} (hes : WellFormedAll es) :
    Takes (arguments expression) (listTokens es ++ [.symbol .rightParen]) anything
      fun es' => unlinedAll es' = unlinedAll es := by
  intro ts more hts _
  have hread : ReadsBelow ts.length expression := by
    intro e ts more he hplace _ hmore
    exact expressionAt_reads _ he hplace (by rw [List.length_append]; omega) hmore
  exact arguments_reads hread hes hts (Nat.le_refl _)

theorem begins_tokensAt (e : Expr) (rest : List Token) :
    ∃ token ∈ (e.tokensAt 0 ++ rest).head?, token.starts = true := by
  have hbegins : Begins (decide (9 ≤ e.level)) (e.tokensAt 0) := .parens fun _ => e.begins_tokens
  obtain ⟨token, hhead, hstarts, -⟩ := hbegins.append rest
  exact ⟨token, hhead, hstarts⟩

/-- An expression begins with none of the tokens that `p` asks for. -/
theorem head_tokensAt (e : Expr) (rest : List Token) (t : Option Token) {p : Token → Bool}
    (hp : ∀ token : Token, token.starts = true → p token = false) :
    ((e.tokensAt 0 ++ rest).head?.or t).any p = false := by
  obtain ⟨token, hhead, hstarts⟩ := begins_tokensAt e rest
  rw [hhead]
  exact hp token hstarts

theorem isSymbol_of_starts {mark : Symbol} (hmark : (Token.symbol mark).starts = false)
    (token : Token) (hstarts : token.starts = true) : token.isSymbol mark = false := by
  cases token with
  | symbol other =>
      refine beq_eq_false_iff_ne.mpr ?_
      rintro rfl
      rw [hmark] at hstarts
      cases hstarts
  | _ => rfl

theorem isSymbol_of_expressionEnds {mark : Symbol} {t : Option Token}
    (hmark : (Token.symbol mark).continues.isSome = true) (ht : expressionEnds t = true) :
    t.any (Token.isSymbol mark) = false := by
  cases t with
  | none => rfl
  | some token =>
      cases token with
      | symbol other =>
          refine beq_eq_false_iff_ne.mpr ?_
          rintro rfl
          change (Token.symbol other).continues.isNone = true at ht
          rw [Option.isNone_iff_eq_none] at ht
          rw [ht] at hmark
          cases hmark
      | _ => rfl

/-! ## Variables -/

theorem dimension_takes {length : ArrayLength} (h : length.WellFormed) :
    Takes dimension (length.tokens ++ [.symbol .rightBracket]) anything
      fun length' => length'.unlined = length.unlined := by
  cases length with
  | inferred => exact .takenSymbol (.pure rfl)
  | explicit size =>
      refine .notIf (fun t _ => head_tokensAt size _ t (isSymbol_of_starts rfl)) ?_
      refine .bind (expression_takes h.1) (fun _ _ => rfl) fun size' hsize => ?_
      refine .expectSymbol fun _ => ?_
      split
      · cases size with
        | literal value line =>
            obtain ⟨rfl, -⟩ := Expr.literal.inj hsize
            exact absurd rfl (h.2 line)
        | _ => cases hsize
      · exact .pure (congrArg ArrayLength.explicit hsize)

/-- Without a bracket the dimensions are complete. -/
theorem dimensions_done {fuel : Nat} (hfuel : 0 < fuel) (ty : Ty) (length : Option ArrayLength) :
    Takes (dimensions fuel ty length) [] typeEnds (· = (ty, length)) := by
  obtain ⟨fuel, rfl⟩ : ∃ n, fuel = n + 1 := ⟨fuel - 1, by omega⟩
  refine .peek? fun t found ht hfound => ?_
  split
  · cases hfound
    cases ht
  · exact .pure rfl

/-- The pairs of brackets after the first one. -/
theorem dimensions_brackets : ∀ (element ty : Ty) (length : ArrayLength) {fuel : Nat},
    element.brackets.length < fuel →
    Takes (dimensions fuel ty (some length)) element.brackets typeEnds
      (· = (element.bracketed ty, some length))
  | .array element, ty, length, fuel, hfuel => by
      obtain ⟨fuel, rfl⟩ : ∃ n, fuel = n + 1 := ⟨fuel - 1, by omega⟩
      rw [Ty.brackets, List.length_cons, List.length_cons] at hfuel
      refine .peekCons fun line => .skip (.at? fun t _ => ?_)
      have hdimension : Takes dimension [.symbol .rightBracket] anything
          fun size => size.unlined = .inferred :=
        dimension_takes (show ArrayLength.inferred.WellFormed from trivial)
      refine hdimension.bind (fun _ _ => rfl) fun size _ => ?_
      exact dimensions_brackets element (.array ty) length (by omega)
  | .int, ty, length, fuel, hfuel | .float, ty, length, fuel, hfuel
  | .double, ty, length, fuel, hfuel | .decimal, ty, length, fuel, hfuel
  | .bool, ty, length, fuel, hfuel | .string, ty, length, fuel, hfuel
  | .char, ty, length, fuel, hfuel | .void, ty, length, fuel, hfuel
  | .named _, ty, length, fuel, hfuel => dimensions_done hfuel ty (some length)

theorem typePath_takes (ty : Ty) :
    Takes typePath (Ty.pathTokens ty.path) pathEnds (· = ty.base.text) := by
  intro ts more hts hmore
  rw [ty.path_eq] at hts
  exact ⟨_, typePath_eq ty.base.text hts (notNext_of_pathEnds hmore), rfl⟩

/-- The type of a declaration is read back, up to the lines in its size. -/
theorem declaredType_takes {ty : Ty} {length : Option ArrayLength} (h : DeclaredType ty length) :
    Takes declaredType (declaredTokens ty length) typeEnds fun declared =>
      declared.1 = ty ∧ declared.2.map ArrayLength.unlined = length.map ArrayLength.unlined := by
  obtain ⟨hbase, hsized, hsize⟩ := h
  have hnamed (hty : ty.base = ty) :
      Takes declaredType (Ty.pathTokens ty.path) typeEnds fun declared =>
        declared.1 = ty ∧ declared.2.map ArrayLength.unlined = none := by
    refine .last ((typePath_takes ty).weaken fun _ => pathEnds_of_typeEnds) ?_
    rintro _ rfl
    refine .fuel fun n hn => (dimensions_done (by omega) _ none).mono ?_
    rintro _ rfl
    exact ⟨hbase.trans hty, rfl⟩
  cases ty with
  | array element =>
      cases length with
      | none => cases hsized
      | some length =>
          refine .bind (typePath_takes element) (fun _ _ => rfl) ?_
          rintro _ rfl
          refine .fuel fun n hn => ?_
          obtain ⟨n, rfl⟩ : ∃ m, n = m + 1 := ⟨n - 1, by omega⟩
          refine .peekCons fun line => .skip (.at? fun t _ => ?_)
          refine .bind (dimension_takes (hsize length rfl)) (fun _ _ => rfl) fun size hsize => ?_
          -- This is the first dimension, the only one that may have a size.
          rw [Option.isSome_none, Bool.and_false]
          refine (dimensions_brackets element _ size ?_).mono ?_
          · simp only [List.length_cons, List.length_append] at hn
            omega
          · rintro _ rfl
            refine ⟨?_, congrArg some hsize⟩
            change Ty.ofName element.base.text = element.base at hbase
            rw [hbase, Ty.bracketed_array, Ty.bracketed_base]
  | _ =>
      cases length with
      | none => exact hnamed rfl
      | some length => cases hsized

theorem initializer_takes {value : Option Expr} (h : ∀ e ∈ value, e.WellFormed) :
    Takes initializer (initializerTokens value) expressionEnds
      fun value' => value'.map Expr.unlined = value.map Expr.unlined := by
  cases value with
  | some e => exact .takenSymbol ((expression_takes (h e rfl)).map fun _ he => congrArg some he)
  | none => exact .notIf (fun t ht => isSymbol_of_expressionEnds rfl ht) (.pure rfl)

/-- Whether a declaration is sound does not depend on lines. -/
theorem declarationFault?_unlined (decl : VariableDecl) :
    (declarationFault? decl.unlined).isNone = (declarationFault? decl).isNone := by
  obtain ⟨name, ty, length, value, isConst, line⟩ := decl
  cases length with
  | none => cases value <;> cases isConst <;> rfl
  | some length =>
      cases length with
      | inferred => cases value <;> rfl
      | explicit size =>
          cases size with
          | literal literal line₁ =>
              cases literal with
              | int size =>
                  cases value with
                  | none => cases isConst <;> rfl
                  | some value =>
                      cases value with
                      | array elements elementType line₂ =>
                          change (if size.toInt ≠ (unlinedAll elements).length then _ else _ :
                            Option SyntaxError).isNone =
                            (if size.toInt ≠ elements.length then _ else _ :
                              Option SyntaxError).isNone
                          rw [length_unlinedAll]
                          split <;> rfl
                      | _ => rfl
              | _ => cases value <;> cases isConst <;> rfl
          | _ => cases value <;> cases isConst <;> rfl

theorem checked_takes {decl decl' : VariableDecl} (h : decl.WellFormed)
    (heq : decl'.unlined = decl.unlined) :
    Takes (checked decl') [] anything (fun result => result.unlined = decl.unlined) := by
  have hnone : declarationFault? decl' = none := by
    rw [← Option.isNone_iff_eq_none, ← declarationFault?_unlined, heq, declarationFault?_unlined,
      h.checked]
    rfl
  unfold checked
  rw [hnone]
  exact .pure heq

theorem typeEnds_initializer (value : Option Expr) (more : List Token) {t : Option Token}
    (h : typeEnds (more.head?.or t) = true) :
    typeEnds ((initializerTokens value ++ more).head?.or t) = true := by
  cases value with
  | some e => rfl
  | none => exact h

theorem variableDecl_unlined_eq {decl : VariableDecl} {length : Option ArrayLength}
    {value : Option Expr} (line : Nat)
    (hlength : length.map ArrayLength.unlined = decl.length.map ArrayLength.unlined)
    (hvalue : value.map Expr.unlined = decl.initializer.map Expr.unlined) :
    VariableDecl.unlined ⟨decl.name, decl.ty, length, value, decl.isConst, line⟩ =
      decl.unlined := by
  rw [VariableDecl.unlined, VariableDecl.unlined, hlength, hvalue]

theorem variableDecl_takes {decl : VariableDecl} (h : decl.WellFormed) (line : Nat) :
    Takes (variableDecl decl.isConst line) decl.tokens expressionEnds
      fun decl' => decl'.unlined = decl.unlined := by
  refine .identifier (.expectSymbol fun _ => ?_)
  refine .bind (declaredType_takes h.ty) (fun t ht => ?_) ?_
  · have hend := typeEnds_initializer decl.initializer [] (typeEnds_of_expressionEnds ht)
    rwa [List.append_nil] at hend
  · rintro ⟨_, length⟩ ⟨rfl, hlength⟩
    refine (initializer_takes h.initializer).last fun value hvalue => ?_
    exact (checked_takes h (variableDecl_unlined_eq line hlength hvalue)).weaken fun _ _ => rfl

/-! ## Parameters and result types -/

theorem param_takes {param : Param} (h : param.ty.Producible) :
    Takes Grammar.param param.tokens typeEnds fun param' => param'.unlined = param.unlined := by
  refine .peekLine fun line => .identifier (.expectSymbol fun _ => (type_takes h).map ?_)
  rintro _ rfl
  rfl

theorem params_takes {params : List Param} (h : WellFormedParams params) :
    Takes Grammar.params (paramsTokens params) anything
      fun params' => params'.map Param.unlined = params.map Param.unlined := by
  have hparams : ∀ param ∈ params, Takes Grammar.param param.tokens typeEnds
      fun param' => param'.unlined = param.unlined :=
    fun param hparam => param_takes (h param hparam)
  exact .expectSymbol fun _ =>
    .commaSeparated .rightParen nofun rfl rfl hparams fun _ _ => ⟨_, rfl, rfl⟩

theorem returnType_takes {ty : Ty} (h : ty.Producible) :
    Takes returnType (typeTokens ty) typeEnds (· = ty) :=
  .takenSymbol (type_takes h)

/-! ## Functions -/

/-- The parser reads back every block of fewer than `n` tokens. -/
def BlocksBelow (n : Nat) (block : Parser (List Statement)) : Prop :=
  ∀ ⦃body : List Statement⦄, WellFormedStatements body → (statementsTokens body).length < n →
    Takes block (braces (statementsTokens body)) anything
      fun body' => unlinedStatements body' = unlinedStatements body

variable {n : Nat} {block : Parser (List Statement)}

theorem function_takes (hblock : BlocksBelow n block) {decl : FunctionDecl} (h : decl.WellFormed)
    (hlt : decl.tokens.length < n) (line : Nat) :
    Takes (function block line) decl.tokens anything fun decl' => decl'.unlined = decl.unlined := by
  obtain ⟨name, params, returnType, body, _⟩ := decl
  obtain ⟨hparams, hreturn, hbody⟩ := h
  have hshort : (statementsTokens body).length < n := by
    simp only [FunctionDecl.tokens, braces, List.length_cons, List.length_append] at hlt
    omega
  refine .identifier (.bind (params_takes hparams) (fun _ _ => rfl) fun params' hparams' => ?_)
  refine .bind (returnType_takes hreturn) (fun _ _ => rfl) ?_
  rintro ty rfl
  have hread : Takes (functionBody block ty) (braces (statementsTokens body)) anything
      fun body' => unlinedStatements body' = unlinedStatements body :=
    .notIf (fun _ _ => rfl) (hblock hbody hshort)
  refine hread.map fun body' hbody' => ?_
  rw [FunctionDecl.unlined, FunctionDecl.unlined, hparams', hbody']

/-! ## Members of classes -/

/-- None of the words comes next. -/
def noneOf (words : List Keyword) : Follow :=
  fun t => words.all fun word => !t.any (Token.isKeyword word)

theorem noneOf_mem {words : List Keyword} {t : Option Token} (ht : noneOf words t = true)
    {word : Keyword} (hword : word ∈ words) : t.any (Token.isKeyword word) = false :=
  Bool.not_eq_true' _ ▸ List.all_eq_true.mp ht word hword

theorem noneOf_subset {words fewer : List Keyword} (h : fewer ⊆ words) {t : Option Token}
    (ht : noneOf words t = true) : noneOf fewer t = true :=
  List.all_eq_true.mpr fun word hword => List.all_eq_true.mp ht word (h hword)

def modifierWords : List Keyword := [.kwPrivate, .kwPublic, .kwStatic, .kwVirt, .kwOvrd]

theorem access_takes (access : Access) :
    Takes Grammar.access access.tokens (noneOf [.kwPrivate, .kwPublic]) (· = access) := by
  cases access with
  | ownerOnly => exact .takenKeyword (.pure rfl)
  | everyone =>
      refine .notIf (fun t ht => noneOf_mem ht (by simp)) ?_
      exact .notIf (fun t ht => noneOf_mem ht (by simp)) (.pure rfl)

theorem methodModifier_takes (modifier : MethodModifier) :
    Takes methodModifier modifier.tokens (noneOf [.kwVirt, .kwOvrd]) (· = modifier) := by
  cases modifier with
  | plain =>
      refine .notIf (fun t ht => noneOf_mem ht (by simp)) ?_
      exact .notIf (fun t ht => noneOf_mem ht (by simp)) (.pure rfl)
  | virtual => exact .takenKeyword (.pure rfl)
  | override => exact .notIf (fun _ _ => rfl) (.takenKeyword (.pure rfl))

theorem modifiers_takes (mods : Modifiers) :
    Takes modifiers mods.tokens (noneOf modifierWords) (· = mods) := by
  obtain ⟨access, isStatic, modifier⟩ := mods
  refine .bind (access_takes access) (fun t ht => ?_) ?_
  · cases isStatic <;> cases modifier <;> first | rfl | exact noneOf_subset (by decide) ht
  · rintro access rfl
    have hrest : Takes (methodModifier >>= fun modifier =>
        (pure ⟨access, isStatic, modifier⟩ : Parser Modifiers)) modifier.tokens
        (noneOf modifierWords) (· = ⟨access, isStatic, modifier⟩) := by
      refine ((methodModifier_takes modifier).weaken fun t ht => ?_).map ?_
      · exact noneOf_subset (by decide) ht
      · rintro _ rfl
        rfl
    cases isStatic with
    | true => exact .takenKeyword hrest
    | false =>
        refine .notIf (fun t ht => ?_) hrest
        cases modifier <;> first | rfl | exact noneOf_mem ht (by decide)

theorem accessorWords_takes {words : List Keyword}
    (hwords : ∀ word ∈ words, word = .kwGetter ∨ word = .kwSetter) :
    Takes (commaSeparated accessor .rightParen)
      (commaTokens (words.map fun word => [.keyword word]) ++ [.symbol .rightParen]) anything
      fun read => read.map id = words.map id := by
  have hword : ∀ word ∈ words, Takes accessor [.keyword word] anything (id · = id word) := by
    intro word hword
    obtain rfl | rfl := hwords word hword
    · exact .next? fun _ => .pure rfl
    · exact .next? fun _ => .pure rfl
  exact .commaSeparated .rightParen nofun rfl rfl hword fun word _ => ⟨_, rfl, rfl⟩

theorem accessors_takes (flags : Accessors) :
    Takes accessors flags.tokens (noSymbol .leftParen) (· = flags) := by
  have hsome (words : List Keyword) (hwords : ∀ word ∈ words, word = .kwGetter ∨ word = .kwSetter) :
      Takes accessors (.symbol .leftParen ::
          (commaTokens (words.map fun word => [.keyword word]) ++ [.symbol .rightParen]))
        (noSymbol .leftParen)
        (· = ⟨words.contains .kwGetter, words.contains .kwSetter⟩) := by
    refine .takenSymbol ?_
    refine ((accessorWords_takes hwords).weaken fun _ _ => rfl).map fun read hread => ?_
    rw [List.map_id, List.map_id] at hread
    rw [hread]
  match flags with
  | ⟨false, false⟩ => exact .notIf (fun t ht => noSymbol_iff.mp ht) (.pure rfl)
  | ⟨true, false⟩ => exact hsome [.kwGetter] (by simp)
  | ⟨false, true⟩ => exact hsome [.kwSetter] (by simp)
  | ⟨true, true⟩ => exact hsome [.kwGetter, .kwSetter] (by simp)

/-- The tokens after the type of a field are neither a bracket nor a dot. -/
theorem typeEnds_field (flags : Accessors) (value : Option Expr) (t : Option Token) :
    typeEnds ((flags.tokens ++
      (initializerTokens value ++ [Token.symbol .semicolon])).head?.or t) = true := by
  match flags with
  | ⟨false, false⟩ => exact typeEnds_initializer value [Token.symbol .semicolon] (t := t) rfl
  | ⟨true, false⟩ | ⟨false, true⟩ | ⟨true, true⟩ => rfl

theorem field_takes {field : FieldDecl} (h : field.decl.WellFormed) (mods : Modifiers)
    (haccess : mods.access = field.access) (hstatic : mods.isStatic = field.isStatic) (line : Nat) :
    Takes (Grammar.field mods field.decl.isConst line) field.tokens anything
      fun field' => field'.unlined = field.unlined := by
  refine .identifier (.expectSymbol fun _ => ?_)
  refine .bind (declaredType_takes h.ty) (fun t _ => typeEnds_field _ _ t) ?_
  rintro ⟨_, length⟩ ⟨rfl, hlength⟩
  refine .bind (accessors_takes field.accessors) (fun t _ => ?_) ?_
  · cases field.decl.initializer <;> rfl
  rintro _ rfl
  refine .bind (initializer_takes h.initializer) (fun _ _ => rfl) fun value hvalue => ?_
  have heq := variableDecl_unlined_eq line hlength hvalue
  refine (checked_takes h heq).bind (fun _ _ => rfl) fun decl hdecl => ?_
  refine .expectSymbol fun _ => .pure ?_
  rw [FieldDecl.unlined, FieldDecl.unlined, hdecl, haccess, hstatic]

end Grammar

end ClassScript
