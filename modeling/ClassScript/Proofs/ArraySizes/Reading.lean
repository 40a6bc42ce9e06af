import ClassScript.Proofs.Printing.Declarations

/-!
# Reading the size of an array

A variable or a field may be declared with the number of its items in the first brackets of its
type. When the declaration is read, a literal size is compared with a list of items; a literal zero
is no size at all, and any other expression is left to evaluation.
-/

namespace ClassScript

/-- The array has too few or too many items. A size of zero leaves their number open. -/
def SizeMismatch (size : Int64) (count : Nat) : Prop := size ≠ 0 ∧ size.toInt ≠ count

instance (size : Int64) (count : Nat) : Decidable (SizeMismatch size count) :=
  inferInstanceAs (Decidable (_ ∧ _))

/-- What an expression in brackets says about the length. -/
def ArrayLength.ofSize : Expr → ArrayLength
  | .literal (.int 0) _ => .inferred
  | size => .explicit size

/-- The declaration of an array whose size stands in brackets. Its reader found no fault in it. -/
structure VariableDecl.Sized (decl : VariableDecl) (element : Ty) (size : Expr) : Prop where
  ty : decl.ty = .array element
  length : decl.length = some (.ofSize size)
  checked : Grammar.declarationFault? decl = none

/-- The declaration of an array with an initializer. -/
def VariableDecl.sized (name : String) (element : Ty) (size value : Expr) (isConst : Bool)
    (line : Nat) : VariableDecl where
  name := name
  ty := .array element
  length := some (.ofSize size)
  initializer := some value
  isConst := isConst
  line := line

/-- What the reader says about a declaration with this size and a list of this many items. -/
def sizeFault? (size : Expr) (count line : Nat) : Option SyntaxError :=
  match size with
  | .literal (.int n) _ =>
    if SizeMismatch n count then some (.arraySizeMismatch n count line) else none
  | _ => none

theorem sizeFault?_literal (n : Int64) (line₀ count line : Nat) :
    sizeFault? (.literal (.int n) line₀) count line =
      if SizeMismatch n count then some (.arraySizeMismatch n count line) else none := rfl

theorem ArrayLength.ofSize_of_ne {size : Expr} (h : ∀ line, size ≠ .literal (.int 0) line) :
    ofSize size = .explicit size := by
  unfold ofSize
  split
  · exact absurd rfl (h _)
  · rfl

namespace Grammar

/-- The lexemes are read as the expression if `more` comes after them. -/
def ReadAs (e : Expr) (ts more : List Lexeme) : Prop := expression (ts ++ more) = .ok e more

/-- The lexemes spell the type of an array, with a size in its first brackets, if `more` comes after
them. -/
inductive SizedType (element : Ty) (size : Expr) (more : List Lexeme) : List Lexeme → Prop
  | spelled {path brackets ts : List Lexeme} {opening closing : Nat}
      (hpath : Spells path (Ty.pathTokens element.path))
      (hbrackets : Spells brackets element.brackets)
      (hsize : ReadAs size ts (⟨.symbol .rightBracket, closing⟩ :: (brackets ++ more))) :
      SizedType element size more
        (path ++ ⟨.symbol .leftBracket, opening⟩ ::
          (ts ++ ⟨.symbol .rightBracket, closing⟩ :: brackets))

/-! ## The type -/

theorem expression_rightBracket (line : Nat) (ts : List Lexeme) :
    ∃ fault rest, expression (⟨.symbol .rightBracket, line⟩ :: ts) = .error fault rest :=
  ⟨_, _, rfl⟩

theorem notNext_of_expression {ts rest : List Lexeme} {e : Expr} (h : expression ts = .ok e rest) :
    NotNext .rightBracket ts := by
  rintro ⟨token, line⟩ hhead rfl
  obtain ⟨tail, rfl⟩ := List.head?_eq_some_iff.mp hhead
  obtain ⟨fault, rest', hfault⟩ := expression_rightBracket line tail
  rw [hfault] at h
  cases h

theorem dimension_of_size {ts rest : List Lexeme} {size : Expr} {line : Nat}
    (h : expression ts = .ok size (⟨.symbol .rightBracket, line⟩ :: rest)) :
    dimension ts = .ok (.ofSize size) rest := by
  have hopen : takeSymbol .rightBracket ts = .ok false ts :=
    takeSymbol_of_notNext (notNext_of_expression h)
  rw [dimension, Action.bind_of_ok hopen, if_neg Bool.false_ne_true, Action.bind_of_ok h,
    Action.bind_of_ok (expectSymbol_cons _ _)]
  split
  · rfl
  next hne => exact congrArg (Outcome.ok · rest) (ArrayLength.ofSize_of_ne hne).symm

/-- The first pair of brackets may have a size. -/
theorem dimensions_first {ts rest : List Lexeme} {length : ArrayLength}
    (h : dimension ts = .ok length rest) (fuel : Nat) (ty : Ty) (line : Nat) :
    dimensions (fuel + 1) ty none (⟨.symbol .leftBracket, line⟩ :: ts) =
      dimensions fuel (.array ty) (some length) rest := by
  have hskip : skip (⟨.symbol .leftBracket, line⟩ :: ts) = .ok () ts := rfl
  have hat : atSymbol .rightBracket ts =
      .ok ((ts.head?.map fun lexeme => lexeme.token.isSymbol .rightBracket).getD false) ts := rfl
  rw [dimensions, Action.bind_of_ok (peek?_cons _ _)]
  dsimp only
  rw [Action.bind_of_ok hskip, Action.bind_of_ok hat, Action.bind_of_ok h, Option.isSome_none,
    Bool.and_false, if_neg Bool.false_ne_true]
  rfl

theorem declaredType_sized {element : Ty} {size : Expr} {ts more : List Lexeme}
    (hbase : Ty.ofName element.base.text = element.base) (h : SizedType element size more ts)
    (hmore : typeEnds (nextToken more) = true) :
    declaredType (ts ++ more) = .ok (.array element, some (.ofSize size)) more := by
  obtain @⟨path, brackets, ts, opening, closing, hpath, hbrackets, hsize⟩ := h
  rw [List.append_assoc, List.cons_append, List.append_assoc, List.cons_append]
  have htail : pathEnds (nextToken (⟨.symbol .leftBracket, opening⟩ ::
      (ts ++ ⟨.symbol .rightBracket, closing⟩ :: (brackets ++ more)))) = true := rfl
  obtain ⟨_, hname, rfl⟩ := typePath_takes element hpath htail
  rw [declaredType, Action.bind_of_ok hname, Action.read_bind, hbase,
    dimensions_first (dimension_of_size hsize)]
  have hfuel : element.brackets.length < (⟨.symbol .leftBracket, opening⟩ ::
      (ts ++ ⟨.symbol .rightBracket, closing⟩ :: (brackets ++ more))).length := by
    rw [← hbrackets, List.length_map]
    simp only [List.length_cons, List.length_append]
    omega
  obtain ⟨_, hread, rfl⟩ :=
    dimensions_brackets element (.array element.base) (.ofSize size) hfuel hbrackets hmore
  rw [hread, Ty.bracketed_array, Ty.bracketed_base]

/-! ## The declaration -/

/-- A declaration of an array with a size and an initializer is read with this outcome. It is one of
a variable or of a field, and the word in front of it has been read. -/
inductive SizedReading (name : String) (element : Ty) (size value : Expr) (isConst : Bool)
    (line : Nat) : Outcome (List Lexeme) SyntaxError VariableDecl → Prop
  | ofVariable {ty init more : List Lexeme} {l₁ l₂ l₃ : Nat}
      (hty : SizedType element size (⟨.symbol .assign, l₃⟩ :: (init ++ more)) ty)
      (hinit : ReadAs value init more) :
      SizedReading name element size value isConst line (variableDecl isConst line
        (⟨.name name, l₁⟩ :: ⟨.symbol .colon, l₂⟩ ::
          (ty ++ ⟨.symbol .assign, l₃⟩ :: (init ++ more))))
  | ofField {mods : Modifiers} {flags : Accessors} {ty marks init more : List Lexeme}
      {l₁ l₂ l₃ l₄ : Nat}
      (hty : SizedType element size
        (marks ++ ⟨.symbol .assign, l₃⟩ :: (init ++ ⟨.symbol .semicolon, l₄⟩ :: more)) ty)
      (hmarks : accessors
        (marks ++ ⟨.symbol .assign, l₃⟩ :: (init ++ ⟨.symbol .semicolon, l₄⟩ :: more)) =
          .ok flags (⟨.symbol .assign, l₃⟩ :: (init ++ ⟨.symbol .semicolon, l₄⟩ :: more)))
      (hinit : ReadAs value init (⟨.symbol .semicolon, l₄⟩ :: more)) :
      SizedReading name element size value isConst line
        ((field mods isConst line >>= fun field => pure field.decl)
          (⟨.name name, l₁⟩ :: ⟨.symbol .colon, l₂⟩ :: (ty ++ (marks ++
            ⟨.symbol .assign, l₃⟩ :: (init ++ ⟨.symbol .semicolon, l₄⟩ :: more)))))

theorem identifier_cons (name what : String) (line : Nat) (ts : List Lexeme) :
    identifier what (⟨.name name, line⟩ :: ts) = .ok name ts := rfl

theorem initializer_assign {value : Expr} {init more : List Lexeme} (h : ReadAs value init more)
    (line : Nat) :
    initializer (⟨.symbol .assign, line⟩ :: (init ++ more)) = .ok (some value) more := by
  rw [initializer, Action.bind_of_ok (takeSymbol_cons _), if_pos rfl, Action.bind_of_ok h]
  rfl

/-- Accessors stand in parentheses, so a type that they follow has come to its end. -/
theorem typeEnds_of_accessors {ts rest : List Lexeme} {flags : Accessors} {line : Nat}
    (h : accessors ts = .ok flags (⟨.symbol .assign, line⟩ :: rest)) :
    typeEnds (nextToken ts) = true := by
  rcases ts with _ | ⟨⟨token, line'⟩, tail⟩
  · rfl
  · by_cases hopen : token = .symbol .leftParen
    · subst hopen
      rfl
    · have hnext : NotNext .leftParen (⟨token, line'⟩ :: tail) := by
        intro lexeme hhead
        obtain rfl := Option.some.inj hhead
        exact hopen
      rw [accessors, Action.bind_of_ok (takeSymbol_of_notNext hnext)] at h
      cases h
      rfl

theorem checked_of_fault {decl : VariableDecl} {fault : SyntaxError}
    (h : declarationFault? decl = some fault) (ts : List Lexeme) :
    checked decl ts = .error fault ts := by
  rw [checked, h]
  rfl

theorem checked_of_sound {decl : VariableDecl} (h : declarationFault? decl = none)
    (ts : List Lexeme) : checked decl ts = .ok decl ts := by
  rw [checked, h]
  rfl

/-- The literal size is compared with the number of items. -/
theorem declarationFault?_list (name : String) (element : Ty) (size : Expr)
    (elements : List Expr) (elementType : Option Ty) (line₀ : Nat) (isConst : Bool) (line : Nat) :
    declarationFault?
      (.sized name element size (.array elements elementType line₀) isConst line) =
      sizeFault? size elements.length line := by
  rcases size with ⟨literal, line₁⟩ | _
  · rcases literal with n | _
    · by_cases hzero : n = 0
      · subst hzero
        rfl
      · have hlength : ArrayLength.ofSize (.literal (.int n) line₁) =
            .explicit (.literal (.int n) line₁) :=
          ArrayLength.ofSize_of_ne fun _ heq => by
            cases heq
            exact hzero rfl
        rw [VariableDecl.sized, hlength, sizeFault?_literal]
        by_cases hcount : n.toInt = elements.length
        · rw [if_neg fun hmismatch => hmismatch.2 hcount]
          exact if_neg (not_not_intro hcount)
        · rw [if_pos ⟨hzero, hcount⟩]
          exact if_pos hcount
    all_goals rfl
  all_goals rfl

namespace SizedReading

variable {name : String} {element : Ty} {size value : Expr} {isConst : Bool} {line : Nat}
  {o : Outcome (List Lexeme) SyntaxError VariableDecl}

/-- The declaration is built from what was read, and checked. -/
theorem checks (h : SizedReading name element size value isConst line o)
    (hbase : Ty.ofName element.base.text = element.base) :
    (∀ fault, declarationFault? (.sized name element size value isConst line) = some fault →
      ∃ rest, o = .error fault rest) ∧
    (declarationFault? (.sized name element size value isConst line) = none →
      ∃ rest, o = .ok (.sized name element size value isConst line) rest) := by
  cases h with
  | ofVariable hty hinit =>
      rw [variableDecl, Action.bind_of_ok (identifier_cons _ _ _ _),
        Action.bind_of_ok (expectSymbol_cons _ _),
        Action.bind_of_ok (declaredType_sized hbase hty rfl)]
      dsimp only
      rw [Action.bind_of_ok (initializer_assign hinit _)]
      exact ⟨fun fault hfault => ⟨_, checked_of_fault hfault _⟩,
        fun hsound => ⟨_, checked_of_sound hsound _⟩⟩
  | @ofField mods flags ty marks init more _ _ _ _ hty hmarks hinit =>
      rw [Grammar.field, Action.bind_assoc, Action.bind_of_ok (identifier_cons _ _ _ _),
        Action.bind_assoc, Action.bind_of_ok (expectSymbol_cons _ _), Action.bind_assoc,
        Action.bind_of_ok (declaredType_sized hbase hty (typeEnds_of_accessors hmarks))]
      dsimp only
      rw [Action.bind_assoc, Action.bind_of_ok hmarks, Action.bind_assoc,
        Action.bind_of_ok (initializer_assign hinit _), Action.bind_assoc]
      constructor
      · intro fault hfault
        exact ⟨_, Action.bind_of_error (checked_of_fault hfault _)⟩
      · intro hsound
        refine ⟨more, (Action.bind_of_ok (checked_of_sound hsound _)).trans ?_⟩
        rw [Action.bind_assoc, Action.bind_of_ok (expectSymbol_cons _ _)]
        rfl

end SizedReading

/-- A size that is not a literal zero is given to an array only. -/
theorem sized_of_wellFormed {decl : VariableDecl} {size : Expr} (h : decl.WellFormed)
    (hlength : decl.length = some (.explicit size)) : ∃ element, decl.Sized element size := by
  obtain ⟨-, hsized, hsize⟩ := h.ty
  rw [hlength, Option.isSome_some] at hsized
  obtain ⟨element, hty⟩ : ∃ element, decl.ty = .array element := by
    cases hty : decl.ty with
    | array element => exact ⟨element, rfl⟩
    | _ =>
        rw [hty] at hsized
        cases hsized
  have hexplicit : ArrayLength.ofSize size = .explicit size :=
    ArrayLength.ofSize_of_ne (hsize _ hlength).2
  exact ⟨element, hty, hlength.trans (congrArg some hexplicit.symm), h.checked⟩

end Grammar

end ClassScript
