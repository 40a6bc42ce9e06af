import ClassScript.Proofs.Printing.Declarations
import ClassScript.Proofs.Words

/-!
# Classes, interfaces and enumerations read back

The members of a class are read one by one, and each is added to the class that has been read so
far. Fields, methods and the constructor are collected apart, so the order in which they are printed
does not matter to what is read.
-/

namespace ClassScript

theorem unlinedMethods_append : ∀ methods more : List MethodDecl,
    unlinedMethods (methods ++ more) = unlinedMethods methods ++ unlinedMethods more
  | [], _ => rfl
  | ⟨_, _, _, _⟩ :: methods, more => congrArg (_ :: ·) (unlinedMethods_append methods more)

theorem ClassDecl.unlined_eq (cls : ClassDecl) : cls.unlined =
    ⟨cls.name, cls.isStatic, cls.supertypes, cls.fields.map FieldDecl.unlined,
      unlinedMethods cls.methods, unlinedConstructor cls.constructor, 0⟩ := by
  cases cls
  rfl

namespace Grammar

variable {n : Nat} {block : Parser (List Statement)}

/-! ## Members -/

theorem parentArguments_takes {arguments : Option (List Expr)}
    (h : ∀ es ∈ arguments, WellFormedAll es) :
    Takes parentArguments (parentTokens arguments) (noSymbol .colon)
      fun arguments' => arguments'.map unlinedAll = arguments.map unlinedAll := by
  cases arguments with
  | none => exact .notIf (fun t ht => noSymbol_iff.mp ht) (.pure rfl)
  | some es =>
      refine .takenSymbol (.expectKeyword fun _ => .expectSymbol fun _ => ?_)
      exact ((arguments_takes (h es rfl)).weaken fun _ _ => rfl).map fun _ hes => congrArg some hes

theorem constructorDecl_takes (hblock : BlocksBelow n block) {params : List Param}
    {arguments : Option (List Expr)} {body : List Statement} (hparams : WellFormedParams params)
    (harguments : ∀ es ∈ arguments, WellFormedAll es) (hbody : WellFormedStatements body)
    (hlt : (statementsTokens body).length < n) (access : Access) (line line₀ : Nat) :
    Takes (constructorDecl block access line)
      (paramsTokens params ++ (parentTokens arguments ++ braces (statementsTokens body))) anything
      fun decl => unlinedConstructor (some decl) =
        unlinedConstructor (some ⟨params, arguments, body, access, line₀⟩) := by
  refine .bind (params_takes hparams) (fun _ _ => rfl) fun params' hparams' => ?_
  refine .bind (parentArguments_takes harguments) (fun _ _ => rfl) fun arguments' harguments' => ?_
  refine (hblock hbody hlt).map fun body' hbody' => ?_
  rw [unlinedConstructor, unlinedConstructor, hparams', harguments', hbody']

theorem member_field {field : FieldDecl} (h : field.decl.WellFormed) (cls : ClassDecl) :
    Takes (member block cls)
      (Modifiers.tokens ⟨field.access, field.isStatic, .plain⟩ ++
        .keyword field.decl.keyword :: field.tokens) anything
      fun cls' => ∃ field', field'.unlined = field.unlined ∧
        cls' = { cls with fields := cls.fields ++ [field'] } := by
  refine .bind (modifiers_takes _) (fun _ _ => ?_) ?_
  · rw [VariableDecl.keyword]
    cases field.decl.isConst <;> rfl
  · rintro _ rfl
    have hread (line : Nat) := field_takes h ⟨field.access, field.isStatic, .plain⟩ rfl rfl line
    rw [VariableDecl.keyword]
    cases hconst : field.decl.isConst with
    | true =>
        refine .next? fun line => ?_
        rw [hconst] at hread
        exact (hread line).map fun field' heq => ⟨field', heq, rfl⟩
    | false =>
        refine .next? fun line => ?_
        rw [hconst] at hread
        exact (hread line).map fun field' heq => ⟨field', heq, rfl⟩

theorem member_method (hblock : BlocksBelow n block) {function : FunctionDecl}
    (h : function.WellFormed) (hlt : function.tokens.length < n) (mods : Modifiers)
    (cls : ClassDecl) :
    Takes (member block cls) (mods.tokens ++ .keyword .kwFunc :: function.tokens) anything
      fun cls' => ∃ function', function'.unlined = function.unlined ∧
        cls' = { cls with
          methods := cls.methods ++ [⟨function', mods.access, mods.isStatic, mods.modifier⟩] } := by
  refine .bind (modifiers_takes mods) (fun _ _ => rfl) ?_
  rintro _ rfl
  refine .next? fun line => ?_
  exact (function_takes hblock h hlt line).map fun function' heq => ⟨function', heq, rfl⟩

theorem member_constructor (hblock : BlocksBelow n block) {params : List Param}
    {arguments : Option (List Expr)} {body : List Statement} (hparams : WellFormedParams params)
    (harguments : ∀ es ∈ arguments, WellFormedAll es) (hbody : WellFormedStatements body)
    (hlt : (statementsTokens body).length < n) (access : Access) (line₀ : Nat) {cls : ClassDecl}
    (hnone : cls.constructor = none) :
    Takes (member block cls)
      (Modifiers.tokens ⟨access, false, .plain⟩ ++ .keyword .kwConstructor ::
        (paramsTokens params ++ (parentTokens arguments ++ braces (statementsTokens body))))
      anything
      fun cls' => ∃ decl, unlinedConstructor (some decl) =
        unlinedConstructor (some ⟨params, arguments, body, access, line₀⟩) ∧
        cls' = { cls with constructor := some decl } := by
  refine .bind (modifiers_takes _) (fun _ _ => rfl) ?_
  rintro _ rfl
  refine .next? fun line => ?_
  -- A second constructor would be rejected; there has been none so far.
  change Takes (if cls.constructor.isSome = true then _ else _) _ _ _
  rw [hnone]
  refine (constructorDecl_takes hblock hparams harguments hbody hlt access line line₀).map ?_
  exact fun decl heq => ⟨decl, heq, rfl⟩

/-! ## Lists of members -/

/-- One member, and then the others. -/
theorem members_step {cls : ClassDecl} {first rest : List Token} {fuel : Nat}
    {P Q : ClassDecl → Prop}
    (hbegin : ∀ t, (first.head?.or t).any (Token.isSymbol .rightBrace) = false)
    (hfirst : Takes (member block cls) first anything P)
    (hrest : ∀ cls', P cls' → Takes (members block fuel cls') rest anything Q) :
    Takes (members block (fuel + 1) cls) (first ++ rest) anything Q := by
  refine .notIf (fun t _ => ?_) (hfirst.bind (fun _ _ => rfl) hrest)
  rw [List.head?_append, Option.or_assoc]
  exact hbegin _

theorem head_modifiers (mods : Modifiers) (word : Keyword) (rest : List Token) (t : Option Token) :
    ((mods.tokens ++ .keyword word :: rest).head?.or t).any (Token.isSymbol .rightBrace) =
      false := by
  obtain ⟨access, isStatic, modifier⟩ := mods
  cases access <;> cases isStatic <;> cases modifier <;> rfl

/-- Up to lines the class is the one read so far with these members added. -/
def Extends (cls : ClassDecl) (fields : List FieldDecl) (methods : List MethodDecl)
    (constructor : Option ConstructorDecl) (result : ClassDecl) : Prop :=
  result.unlined = ClassDecl.unlined
    ⟨cls.name, cls.isStatic, cls.supertypes, cls.fields ++ fields, cls.methods ++ methods,
      constructor, 0⟩

theorem members_constructor (hblock : BlocksBelow n block) {constructor : Option ConstructorDecl}
    (h : WellFormedConstructor constructor) (hlt : (constructorTokens constructor).length < n)
    {cls : ClassDecl} (hnone : cls.constructor = none) {fuel : Nat}
    (hfuel : (constructorTokens constructor ++ [Token.symbol .rightBrace]).length < fuel) :
    Takes (members block fuel cls) (constructorTokens constructor ++ [.symbol .rightBrace]) anything
      (Extends cls [] [] constructor) := by
  obtain ⟨fuel, rfl⟩ : ∃ m, fuel = m + 1 := ⟨fuel - 1, by omega⟩
  cases constructor with
  | none =>
      refine .takenSymbol (.pure ?_)
      rw [Extends, ClassDecl.unlined_eq, ClassDecl.unlined_eq, hnone, List.append_nil,
        List.append_nil]
  | some decl =>
      obtain ⟨params, arguments, body, access, line⟩ := decl
      obtain ⟨hparams, harguments, hbody⟩ := h
      have hshort : (statementsTokens body).length < n := by
        simp only [constructorTokens, braces, List.length_append, List.length_cons] at hlt
        omega
      refine members_step (head_modifiers _ _ _)
        (member_constructor hblock hparams harguments hbody hshort access line hnone) ?_
      rintro cls' ⟨decl, hdecl, rfl⟩
      obtain ⟨fuel, rfl⟩ : ∃ m, fuel = m + 1 := by
        refine ⟨fuel - 1, ?_⟩
        simp only [constructorTokens, List.length_append, List.length_cons] at hfuel
        omega
      refine .takenSymbol (.pure ?_)
      rw [Extends, ClassDecl.unlined_eq, ClassDecl.unlined_eq, hdecl, List.append_nil,
        List.append_nil]

theorem members_methods (hblock : BlocksBelow n block) {constructor : Option ConstructorDecl}
    (h : WellFormedConstructor constructor) (hlt : (constructorTokens constructor).length < n) :
    ∀ {methods : List MethodDecl}, WellFormedMethods methods → (methodsTokens methods).length < n →
    ∀ (cls : ClassDecl), cls.constructor = none → ∀ {fuel : Nat},
    (methodsTokens methods ++
      (constructorTokens constructor ++ [Token.symbol .rightBrace])).length < fuel →
    Takes (members block fuel cls)
      (methodsTokens methods ++ (constructorTokens constructor ++ [.symbol .rightBrace])) anything
      (Extends cls [] methods constructor)
  | [], _, _, cls, hnone, fuel, hfuel => members_constructor hblock h hlt hnone hfuel
  | ⟨function, access, isStatic, modifier⟩ :: methods, hmethods, hshort, cls, hnone, fuel,
      hfuel => by
      obtain ⟨fuel, rfl⟩ : ∃ m, fuel = m + 1 := ⟨fuel - 1, by omega⟩
      rw [methodsTokens, List.append_assoc] at hfuel ⊢
      simp only [methodsTokens, List.length_append, List.length_cons] at hshort
      refine members_step (head_modifiers _ _ _)
        (member_method hblock hmethods.1 (by omega) ⟨access, isStatic, modifier⟩ cls) ?_
      rintro _ ⟨function', heq, rfl⟩
      have hnext : (methodsTokens methods ++
          (constructorTokens constructor ++ [Token.symbol .rightBrace])).length < fuel := by
        rw [List.length_append, List.length_append, List.length_cons] at hfuel
        omega
      refine (members_methods hblock h hlt hmethods.2 (by omega)
        { cls with methods := cls.methods ++ [⟨function', access, isStatic, modifier⟩] } hnone
        hnext).mono fun result hresult => ?_
      rw [Extends] at hresult ⊢
      rw [hresult, ClassDecl.unlined_eq, ClassDecl.unlined_eq]
      simp only [unlinedMethods_append, unlinedMethods, heq, List.append_assoc, List.cons_append,
        List.nil_append]

theorem members_fields (hblock : BlocksBelow n block) {constructor : Option ConstructorDecl}
    (h : WellFormedConstructor constructor) (hlt : (constructorTokens constructor).length < n)
    {methods : List MethodDecl} (hmethods : WellFormedMethods methods)
    (hshort : (methodsTokens methods).length < n) : ∀ {fields : List FieldDecl},
    (∀ field ∈ fields, field.decl.WellFormed) → ∀ (cls : ClassDecl), cls.constructor = none →
    ∀ {fuel : Nat}, (fieldsTokens fields ++ (methodsTokens methods ++
      (constructorTokens constructor ++ [Token.symbol .rightBrace]))).length < fuel →
    Takes (members block fuel cls)
      (fieldsTokens fields ++ (methodsTokens methods ++
        (constructorTokens constructor ++ [.symbol .rightBrace]))) anything
      (Extends cls fields methods constructor)
  | [], _, cls, hnone, fuel, hfuel =>
      members_methods hblock h hlt hmethods hshort cls hnone hfuel
  | field :: fields, hfields, cls, hnone, fuel, hfuel => by
      obtain ⟨fuel, rfl⟩ : ∃ m, fuel = m + 1 := ⟨fuel - 1, by omega⟩
      rw [fieldsTokens, List.append_assoc] at hfuel ⊢
      refine members_step (head_modifiers _ _ _)
        (member_field (hfields field List.mem_cons_self) cls) ?_
      rintro cls' ⟨field', heq, rfl⟩
      have hnext : (fieldsTokens fields ++ (methodsTokens methods ++
          (constructorTokens constructor ++ [Token.symbol .rightBrace]))).length < fuel := by
        rw [List.length_append, List.length_append, List.length_cons] at hfuel
        omega
      have hothers : ∀ field ∈ fields, field.decl.WellFormed :=
        fun other hother => hfields other (List.mem_cons_of_mem _ hother)
      refine (members_fields hblock h hlt hmethods hshort hothers
        { cls with fields := cls.fields ++ [field'] } hnone hnext).mono fun result hresult => ?_
      rw [Extends] at hresult ⊢
      rw [hresult, ClassDecl.unlined_eq, ClassDecl.unlined_eq]
      simp only [List.map_append, List.map_cons, heq, List.append_assoc,
        List.cons_append, List.nil_append]

/-! ## Classes -/

theorem supertypesFrom_takes : ∀ (names : List String) {name : String} {fuel : Nat},
    names.length < fuel →
    Takes (supertypesFrom fuel) (commaTokens ((name :: names).map ([.name ·]))) (noSymbol .comma)
      (· = name :: names)
  | [], name, fuel + 1, _ =>
    .identifier (.notIf (fun _ ht => noSymbol_iff.mp ht) (.pure rfl))
  | next :: names, name, fuel + 1, hfuel => by
      refine .identifier (.takenSymbol ?_)
      refine (supertypesFrom_takes names (Nat.lt_of_succ_lt_succ hfuel)).map ?_
      rintro _ rfl
      rfl

theorem supertypes_takes (names : List String) :
    Takes supertypes (supertypesTokens names) (fun t => noSymbol .comma t && noSymbol .colonColon t)
      (· = names) := by
  cases names with
  | nil =>
      refine .notIf (fun t ht => noSymbol_iff.mp ?_) (.pure rfl)
      exact (Bool.and_eq_true_iff.mp ht).2
  | cons name names =>
      refine .takenSymbol (.fuel fun n hn => (supertypesFrom_takes names ?_).weaken fun t ht => ?_)
      · have hle := Takes.length_le_commaTokens ((name :: names).map fun name => [Token.name name])
        rw [List.length_map, List.length_cons] at hle
        omega
      · exact (Bool.and_eq_true_iff.mp ht).1

theorem classDecl_takes (hblock : BlocksBelow n block) {cls : ClassDecl} (h : cls.WellFormed)
    (hlt : cls.tokens.length < n) (line : Nat) :
    Takes (classDecl block cls.isStatic line) cls.tokens anything
      fun cls' => cls'.unlined = cls.unlined := by
  obtain ⟨name, isStatic, supertypes, fields, methods, constructor, line₀⟩ := cls
  obtain ⟨hfields, hmethods, hconstructor⟩ := h
  simp only [ClassDecl.tokens, braces, List.length_append, List.length_cons] at hlt
  refine .identifier (.bind (supertypes_takes supertypes) (fun _ _ => rfl) ?_)
  rintro _ rfl
  refine .expectSymbol fun _ => .fuel fun fuel hfuel => ?_
  rw [List.append_assoc, List.append_assoc] at hfuel ⊢
  exact members_fields hblock hconstructor (by omega) hmethods (by omega) hfields _ rfl hfuel

/-! ## Interfaces -/

theorem signature_takes {decl : MethodSignature} (h : decl.WellFormed) :
    Takes signature decl.tokens anything fun decl' => decl'.unlined = decl.unlined := by
  refine .notIf (fun _ _ => rfl) (.expectKeyword fun line => .identifier ?_)
  refine .bind (params_takes h.params) (fun _ _ => rfl) fun params hparams => ?_
  refine .bind (returnType_takes h.returnType) (fun _ _ => rfl) ?_
  rintro _ rfl
  refine .expectSymbol fun _ => .pure ?_
  rw [MethodSignature.unlined, MethodSignature.unlined, hparams]

theorem signatures_takes : ∀ {decls : List MethodSignature},
    (∀ decl ∈ decls, decl.WellFormed) → ∀ {fuel : Nat},
    (decls.flatMap MethodSignature.tokens).length < fuel →
    Takes (signatures fuel)
      (decls.flatMap MethodSignature.tokens ++ [.symbol .rightBrace]) anything
      fun decls' => decls'.map MethodSignature.unlined = decls.map MethodSignature.unlined
  | [], _, fuel + 1, _ => .takenSymbol (.pure rfl)
  | decl :: decls, hdecls, fuel + 1, hfuel => by
      rw [List.flatMap_cons, List.length_append] at hfuel
      rw [List.flatMap_cons, List.append_assoc]
      have hpos : 0 < decl.tokens.length := Nat.succ_pos _
      refine .notIf (fun _ _ => rfl) ?_
      refine .bind (signature_takes (hdecls decl List.mem_cons_self)) (fun _ _ => rfl)
        fun first hfirst => ?_
      refine (signatures_takes (fun other hother => hdecls other (List.mem_cons_of_mem _ hother))
        (by omega)).map fun rest hrest => ?_
      rw [List.map_cons, List.map_cons, hfirst, hrest]

theorem interfaceDecl_takes {decl : InterfaceDecl}
    (h : ∀ signature ∈ decl.methods, signature.WellFormed) (line : Nat) :
    Takes (interfaceDecl line) decl.tokens anything fun decl' => decl'.unlined = decl.unlined := by
  refine .identifier (.expectSymbol fun _ => .fuel fun n hn => ?_)
  rw [List.length_append] at hn
  refine (signatures_takes h (by omega)).map fun methods hmethods => ?_
  rw [InterfaceDecl.unlined, InterfaceDecl.unlined, hmethods]

/-! ## Enumerations -/

theorem enumValue_takes (value : Int64) :
    Takes enumValue (enumValueTokens value) anything (· = value) := by
  have hplain : Takes enumValue [.int value] anything (· = value) :=
    .notIf (fun _ _ => rfl) (.next? fun _ => .pure rfl)
  unfold enumValueTokens
  split
  next opposite hopposite =>
    split
    · refine .takenSymbol (.next? fun line => ?_)
      simp only [Word.sub?_zero_opposite hopposite]
      exact .pure rfl
    · exact hplain
  · exact hplain

theorem enumMember_takes (member : String × Option Int64) :
    Takes enumMember (enumMemberTokens member) (noSymbol .assign) (· = member) := by
  obtain ⟨name, value⟩ := member
  cases value with
  | none => exact .identifier (.notIf (fun _ ht => noSymbol_iff.mp ht) (.pure rfl))
  | some value =>
      refine .identifier (.takenSymbol (((enumValue_takes value).weaken fun _ _ => rfl).map ?_))
      rintro _ rfl
      rfl

theorem enumDecl_takes (decl : EnumDecl) (line : Nat) :
    Takes (enumDecl line) decl.tokens anything fun decl' => decl'.unlined = decl.unlined := by
  refine .identifier (.expectSymbol fun _ => ?_)
  have hmembers : ∀ member ∈ decl.members,
      Takes enumMember (enumMemberTokens member) (noSymbol .assign) (id · = id member) :=
    fun member _ => enumMember_takes member
  refine (Takes.commaSeparated .rightBrace nofun rfl rfl hmembers ?_).map fun members heq => ?_
  · rintro ⟨name, value⟩ _
    cases value <;> exact ⟨_, rfl, rfl⟩
  · rw [List.map_id, List.map_id] at heq
    rw [heq]
    rfl

end Grammar

end ClassScript
