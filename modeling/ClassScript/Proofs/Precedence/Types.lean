import ClassScript.Proofs.Action
import ClassScript.Proofs.Precedence.Rendering

/-!
# Reading types

The tokens of a type that can be written read as that type, whatever follows them, as long as it
does not go on with a dot or a pair of brackets.
-/

namespace ClassScript

/-- The lexemes carry these tokens, on whatever lines. -/
def Spells (ts : List Lexeme) (tokens : List Token) : Prop := ts.map Lexeme.token = tokens

namespace Spells

variable {ts : List Lexeme} {token : Token} {tokens left right : List Token}

theorem nil_iff : Spells ts [] ↔ ts = [] := List.map_eq_nil_iff

theorem cons_iff : Spells ts (token :: tokens) ↔
    ∃ line rest, ts = ⟨token, line⟩ :: rest ∧ Spells rest tokens := by
  constructor
  · intro h
    obtain ⟨⟨_, line⟩, rest, rfl, rfl, hrest⟩ := List.map_eq_cons_iff.mp h
    exact ⟨line, rest, rfl, hrest⟩
  · rintro ⟨line, rest, rfl, hrest⟩
    exact congrArg (token :: ·) hrest

theorem append_iff : Spells ts (left ++ right) ↔
    ∃ ts₁ ts₂, ts = ts₁ ++ ts₂ ∧ Spells ts₁ left ∧ Spells ts₂ right := by
  constructor
  · intro h
    obtain ⟨ts₁, ts₂, rfl, h₁, h₂⟩ := List.map_eq_append_iff.mp h
    exact ⟨ts₁, ts₂, rfl, h₁, h₂⟩
  · rintro ⟨ts₁, ts₂, rfl, h₁, h₂⟩
    rw [Spells, List.map_append, h₁, h₂]

theorem singleton_iff : Spells ts [token] ↔ ∃ line, ts = [⟨token, line⟩] := by
  rw [cons_iff]
  constructor
  · rintro ⟨line, rest, rfl, hrest⟩
    exact ⟨line, by rw [nil_iff.mp hrest]⟩
  · rintro ⟨line, rfl⟩
    exact ⟨line, [], rfl, rfl⟩

end Spells

/-- The next token, if there is one, is not this symbol. -/
def NotNext (mark : Symbol) (ts : List Lexeme) : Prop :=
  ∀ lexeme ∈ ts.head?, lexeme.token ≠ .symbol mark

/-! ## Types that can be written -/

namespace Ty

/-- The type under all the brackets. -/
def base : Ty → Ty
  | .array element => element.base
  | ty => ty

theorem base_ofName (name : String) : (ofName name).base = ofName name := by
  unfold ofName
  split <;> rfl

theorem ofName_text (name : String) : ofName (ofName name).text = ofName name := by
  cases h : ofName name with
  | named className =>
      have hname : className = name := by
        unfold ofName at h
        split at h <;> cases h
        rfl
      rw [text, hname, h, hname]
  | array element =>
      unfold ofName at h
      split at h <;> cases h
  | _ => rfl

theorem base_of_arraySuffix {ty result : Ty} {ts rest : List Lexeme}
    (h : Grammar.arraySuffix ty ts = .ok result rest) : result.base = ty.base := by
  fun_induction Grammar.arraySuffix ty ts with
  | case1 ty _ _ rest ih => exact ih h
  | case2 ty rest =>
      cases h
      rfl

/-- A type that can be written stands for the name under its brackets. -/
theorem Producible.ofName_base {ty : Ty} (h : ty.Producible) :
    ofName ty.base.text = ty.base := by
  obtain ⟨ts, rest, hread⟩ := h
  obtain ⟨name, ts', -, hsuffix⟩ := Action.ok_of_bind hread
  rw [base_of_arraySuffix hsuffix, base_ofName, ofName_text]

/-- A type begins with the first word of its path. -/
theorem tokens_eq_cons : ∀ ty : Ty, ∃ word rest, ty.tokens = .name word :: rest ∧
    ty.path.head? = some word := by
  have hpath (name : String) : ∃ word rest,
      pathTokens ((name.toList.splitOn '.').map String.ofList) = .name word :: rest ∧
      ((name.toList.splitOn '.').map String.ofList).head? = some word := by
    cases hwords : name.toList.splitOn '.' with
    | nil => exact absurd hwords (List.splitOn_ne_nil _ _)
    | cons word words => exact ⟨_, _, rfl, rfl⟩
  intro ty
  induction ty with
  | array element ih =>
      obtain ⟨word, rest, htokens, hhead⟩ := ih
      exact ⟨word, _, by rw [tokens, htokens]; rfl, hhead⟩
  | _ => exact hpath _

end Ty

namespace Grammar

/-! ## Paths -/

theorem pathRest_eq {words : List String} (path : String) {ts more : List Lexeme}
    (hts : Spells ts (Ty.furtherWords words)) (hmore : NotNext .dot more) :
    pathRest path (ts ++ more) = .ok (words.foldl (fun p word => p ++ "." ++ word) path) more := by
  induction words generalizing path ts with
  | nil =>
      obtain rfl := Spells.nil_iff.mp hts
      rw [List.nil_append, List.foldl_nil, pathRest.eq_def]
      split
      · exact absurd rfl (hmore _ rfl)
      · exact absurd rfl (hmore _ rfl)
      · rfl
  | cons word words ih =>
      obtain ⟨_, ts₁, rfl, h₁⟩ := Spells.cons_iff.mp hts
      obtain ⟨_, ts₂, rfl, h₂⟩ := Spells.cons_iff.mp h₁
      exact ih _ h₂

theorem toList_foldl_words (words : List String) (path : String) :
    (words.foldl (fun p word => p ++ "." ++ word) path).toList =
      ['.'].intercalate (path.toList :: words.map String.toList) := by
  induction words generalizing path with
  | nil => simp
  | cons word words ih =>
      rw [List.foldl_cons, ih, List.map_cons, List.intercalate_cons_cons]
      cases words with
      | nil => simp
      | cons next words => simp [List.intercalate_cons_cons]

/-- The words between the dots make up the name again. -/
theorem typePath_eq (name : String) {ts more : List Lexeme}
    (hts : Spells ts (Ty.pathTokens ((name.toList.splitOn '.').map String.ofList)))
    (hmore : NotNext .dot more) : typePath (ts ++ more) = .ok name more := by
  cases hwords : name.toList.splitOn '.' with
  | nil => exact absurd hwords (List.splitOn_ne_nil _ _)
  | cons word words =>
      rw [hwords, List.map_cons, Ty.pathTokens] at hts
      obtain ⟨line, rest, rfl, hrest⟩ := Spells.cons_iff.mp hts
      have hfold : (words.map String.ofList).foldl (fun p word => p ++ "." ++ word)
          (String.ofList word) = name := by
        apply String.toList_inj.mp
        rw [toList_foldl_words, String.toList_ofList, List.map_map]
        have hid : String.toList ∘ String.ofList = id := funext fun _ => String.toList_ofList
        rw [hid, List.map_id, ← hwords, List.intercalate_splitOn]
      have hname : identifier "type name" (⟨.name (String.ofList word), line⟩ :: rest ++ more) =
          .ok (String.ofList word) (rest ++ more) := rfl
      calc typePath (⟨.name (String.ofList word), line⟩ :: rest ++ more)
          = pathRest (String.ofList word) (rest ++ more) := Action.bind_of_ok hname
        _ = .ok name more := by rw [pathRest_eq _ hrest hmore, hfold]

/-! ## Brackets -/

theorem arraySuffix_eq {ty : Ty} {more : List Lexeme} (hmore : NotNext .leftBracket more) :
    arraySuffix ty more = .ok ty more := by
  rw [arraySuffix.eq_def]
  split
  · exact absurd rfl (hmore _ rfl)
  · rfl

/-- A type that is no array is read from its path, and then come the brackets. -/
theorem type_eq_of_path {ty : Ty} (hty : Ty.ofName ty.text = ty) {ts more : List Lexeme}
    (hts : Spells ts (Ty.pathTokens ((ty.text.toList.splitOn '.').map String.ofList)))
    (hmore : NotNext .dot more) : type (ts ++ more) = arraySuffix ty more :=
  (Action.bind_of_ok (typePath_eq ty.text hts hmore)).trans (congrArg (arraySuffix · more) hty)

/-- After the tokens of a type come the brackets that make it an array. -/
theorem type_eq_arraySuffix {ty : Ty} (hbase : Ty.ofName ty.base.text = ty.base)
    {ts more : List Lexeme} (hts : Spells ts ty.tokens) (hmore : NotNext .dot more) :
    type (ts ++ more) = arraySuffix ty more := by
  induction ty generalizing ts more with
  | array element ih =>
      obtain ⟨ts₁, ts₂, rfl, h₁, h₂⟩ := Spells.append_iff.mp hts
      obtain ⟨line₁, ts₃, rfl, h₃⟩ := Spells.cons_iff.mp h₂
      obtain ⟨line₂, rfl⟩ := Spells.singleton_iff.mp h₃
      rw [List.append_assoc]
      refine ih hbase h₁ ?_
      rintro lexeme h
      obtain rfl := Option.some.inj h
      nofun
  | _ => exact type_eq_of_path hbase hts hmore

/-- A type that can be written is read back from its tokens. -/
theorem type_eq {ty : Ty} (hty : ty.Producible) {ts more : List Lexeme}
    (hts : Spells ts ty.tokens) (hdot : NotNext .dot more)
    (hbracket : NotNext .leftBracket more) : type (ts ++ more) = .ok ty more := by
  rw [type_eq_arraySuffix hty.ofName_base hts hdot, arraySuffix_eq hbracket]

end Grammar

end ClassScript
