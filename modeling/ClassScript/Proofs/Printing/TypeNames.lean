import ClassScript.Fault.Message
import ClassScript.Proofs.Lexing.MaximalMunch
import ClassScript.Proofs.Printing.ParsedExpressions

/-!
# Types in messages

A message shows a type as a program writes it. Wherever a source text has a type, the text shown for
that type is read as the same type again, in front of whatever does not go on with a dot or a pair
of brackets. So different types of programs are shown differently. This rests on the words of a
path: they came out of a source text as names, so each of them is read as a name again.
-/

namespace ClassScript

namespace Lexical

open Piece

/-! ## Tokens of a text -/

/-- The word is read as a name, and not as a keyword or a truth value. -/
def IsName (word : String) : Prop := ReadsToken word.toList (.name word)

/-- Every token of a text is read from a piece of it. -/
theorem Munches.reads {text : List Char} {pieces : List Piece} {tokens : List Token}
    (h : Munches text pieces (.ok tokens)) : ∀ token ∈ tokens, ∃ slice, ReadsToken slice token := by
  generalize houtcome : (Except.ok tokens : Except LexicalFault (List Token)) = outcome at h
  induction h generalizing tokens with
  | nil =>
      cases houtcome
      exact nofun
  | skipped _ _ _ ih => exact ih houtcome
  | @token piece _ outcome token cut content _ ih =>
      cases outcome with
      | error => cases houtcome
      | ok rest =>
          cases houtcome
          refine List.forall_mem_cons.mpr ⟨⟨piece.slice, ?_⟩, ih rfl⟩
          exact (cut.reads_iff (.token token)).mpr content
  | rejected => cases houtcome
  | unmatched => cases houtcome

theorem isName_of_tokenize {source : String} {lexemes : List Lexeme}
    (h : tokenize source = .ok lexemes) {word : String} {line : Nat}
    (hmem : ⟨.name word, line⟩ ∈ lexemes) : IsName word := by
  obtain ⟨pieces, outcome, hmunches, hagrees⟩ :=
    tokensFrom_munches source.toList.length 1 source.toList (Nat.le_refl _)
  change Agrees 1 pieces (tokenize source) outcome at hagrees
  obtain rfl := (hagrees.ok_iff _).mpr ⟨lexemes, h, rfl⟩
  obtain ⟨slice, hslice⟩ := hmunches.reads _ (List.mem_map_of_mem hmem)
  have hword : slice = word.toList := hslice.1
  rwa [hword] at hslice

/-- The text has these tokens, whatever line it starts on. -/
def HasTokens (text : List Char) (tokens : List Token) : Prop :=
  ∀ fuel line, text.length ≤ fuel →
    ∃ lexemes, tokensFrom fuel line text = .ok lexemes ∧ Spells lexemes tokens

/-- The text does not go on with a character that can stand in a word. -/
def WordEnds (text : List Char) : Prop := ∀ c ∈ text.head?, isWordPart c = false

theorem WordEnds.cons {c : Char} (h : isWordPart c = false) (text : List Char) :
    WordEnds (c :: text) := by
  rintro d hd
  obtain rfl := Option.some.inj hd
  exact h

namespace HasTokens

variable {text more : List Char} {tokens : List Token}

theorem nil : HasTokens [] [] := by
  intro fuel line _
  exact ⟨[], by cases fuel <;> rfl, rfl⟩

/-- The first piece is a token, and the other tokens come after it. -/
theorem cons {c : Char} (slice : List Char) {token : Token}
    (hpiece : startingWith c text = { slice, rest := more, content := .token token })
    (hlength : more.length ≤ text.length) (hmore : HasTokens more tokens) :
    HasTokens (c :: text) (token :: tokens) := by
  intro fuel line hfuel
  obtain ⟨fuel, rfl⟩ : ∃ n, fuel = n + 1 := ⟨fuel - 1, by simp at hfuel; omega⟩
  rw [tokensFrom, first?, hpiece]
  dsimp only
  generalize line + lineBreaks _ = line'
  obtain ⟨lexemes, hlexemes, hspells⟩ := hmore fuel line' (by simp at hfuel; omega)
  exact ⟨⟨token, line'⟩ :: lexemes, by rw [hlexemes]; rfl, Spells.cons_iff.mpr ⟨_, _, rfl, hspells⟩⟩

theorem word {word : String} (hword : IsName word) (hend : WordEnds more)
    (hmore : HasTokens more tokens) : HasTokens (word.toList ++ more) (.name word :: tokens) := by
  obtain ⟨-, hshaped, htruth, hkeyword⟩ := hword
  have htoken := wordToken_name htruth hkeyword
  cases htext : word.toList with
  | nil =>
      rw [htext] at hshaped
      exact hshaped.elim
  | cons c text =>
      rw [htext] at hshaped htoken
      have hall := hshaped.isWordPart
      have hrest : more.takeWhile isWordPart = [] ∧ more.dropWhile isWordPart = more := by
        cases more with
        | nil => exact ⟨rfl, rfl⟩
        | cons d more =>
            have hd : ¬ isWordPart d = true := Bool.eq_false_iff.mp (hend d rfl)
            exact ⟨List.takeWhile_cons_of_neg hd, List.dropWhile_cons_of_neg hd⟩
      refine cons (c :: text) (?_ : startingWith c (text ++ more) = _) (by simp) hmore
      rw [startingWith_eq, Start.of_word hshaped.1, Start.piece, run, ← List.cons_append,
        List.takeWhile_append_of_pos hall, List.dropWhile_append_of_pos hall, hrest.1, hrest.2,
        List.append_nil, htoken]

theorem dot (hmore : HasTokens more tokens) :
    HasTokens ('.' :: more) (.symbol .dot :: tokens) :=
  cons ['.'] rfl (Nat.le_refl _) hmore

theorem brackets (hmore : HasTokens more tokens) :
    HasTokens ('[' :: ']' :: more)
      (.symbol .leftBracket :: .symbol .rightBracket :: tokens) := by
  have hclosing : HasTokens (']' :: more) (.symbol .rightBracket :: tokens) :=
    cons [']'] rfl (Nat.le_refl _) hmore
  exact cons ['['] rfl (Nat.le_refl _) hclosing

end HasTokens

/-- A character that can stand in a word is no dot, no bracket and no comma. -/
theorem IsName.notMem {word : String} (h : IsName word) {c : Char} (hc : isWordPart c = false) :
    c ∉ word.toList := by
  intro hmem
  rw [h.2.1.isWordPart c hmem] at hc
  cases hc

theorem isName_of_primitive {word : String} (h : word ∈ Ty.primitiveNames) : IsName word := by
  have hshaped : WordShaped word.toList := by
    simp only [Ty.primitiveNames, List.mem_cons, List.not_mem_nil, or_false] at h
    rcases h with rfl | rfl | rfl | rfl | rfl | rfl | rfl | rfl | rfl <;>
      exact ⟨by decide, List.all_eq_true.mp (by decide)⟩
  have htruth : ∀ word ∈ Ty.primitiveNames, ∀ value, word.toList ≠ truthWord value := by
    decide +kernel
  have hkeyword : ∀ word ∈ Ty.primitiveNames, ∀ keyword ∈ Keyword.all,
      word.toList ≠ keyword.spelling.toList := by decide +kernel
  exact ⟨rfl, hshaped, htruth word h, fun keyword =>
    hkeyword word h keyword (Keyword.mem_all keyword)⟩

end Lexical

namespace Ty

open Lexical Piece

/-! ## The text of a type -/

/-- The words of a path with dots between them are tokens again. -/
theorem hasTokens_path {words : List String} (hwords : ∀ word ∈ words, IsName word)
    (hne : words ≠ []) {more : List Char} {tokens : List Token} (hmore : HasTokens more tokens)
    (hend : WordEnds more) :
    HasTokens (['.'].intercalate (words.map String.toList) ++ more)
      (pathTokens words ++ tokens) := by
  induction words with
  | nil => exact absurd rfl hne
  | cons word rest ih =>
      obtain ⟨hword, hrest⟩ := List.forall_mem_cons.mp hwords
      cases rest with
      | nil =>
          rw [List.map_singleton, List.intercalate_singleton]
          exact hmore.word hword hend
      | cons next rest =>
          have hpath := (ih hrest (List.cons_ne_nil _ _)).dot.word hword (.cons (by decide) _)
          rw [List.map_cons, List.map_cons, List.intercalate_cons_cons, List.append_assoc,
            List.append_assoc]
          exact hpath

/-- A name is its words with dots between them. -/
theorem toList_of_words (name : String) :
    name.toList =
      ['.'].intercalate (((name.toList.splitOn '.').map String.ofList).map String.toList) := by
  have hid : String.toList ∘ String.ofList = id := funext fun _ => String.toList_ofList
  rw [List.map_map, hid, List.map_id, List.intercalate_splitOn]

theorem hasTokens_name {name : String}
    (hwords : ∀ word ∈ (name.toList.splitOn '.').map String.ofList, IsName word)
    {more : List Char} {tokens : List Token} (hmore : HasTokens more tokens)
    (hend : WordEnds more) :
    HasTokens (name.toList ++ more)
      (pathTokens ((name.toList.splitOn '.').map String.ofList) ++ tokens) := by
  have hpath := hasTokens_path hwords (by simp [List.splitOn_ne_nil]) hmore hend
  rwa [← toList_of_words] at hpath

/-- The text of a type whose path is made of names has the tokens of the type. -/
theorem hasTokens_text {ty : Ty} (hwords : ∀ word ∈ ty.path, IsName word) {more : List Char}
    {tokens : List Token} (hmore : HasTokens more tokens) (hend : WordEnds more) :
    HasTokens (ty.text.toList ++ more) (ty.tokens ++ tokens) := by
  induction ty generalizing more tokens with
  | array element ih =>
      have hbrackets : WordEnds ('[' :: ']' :: more) := .cons (by decide) _
      have helement := ih hwords hmore.brackets hbrackets
      rw [text, String.toList_append, List.append_assoc, Ty.tokens, List.append_assoc]
      exact helement
  | _ => exact hasTokens_name hwords hmore hend

/-- The characters of a path are those of its words, and dots. -/
theorem notMem_path {words : List String} (hwords : ∀ word ∈ words, IsName word) {c : Char}
    (hc : isWordPart c = false) (hdot : c ≠ '.') :
    c ∉ ['.'].intercalate (words.map String.toList) := by
  induction words with
  | nil => exact List.not_mem_nil
  | cons word rest ih =>
      obtain ⟨hword, hrest⟩ := List.forall_mem_cons.mp hwords
      cases rest with
      | nil =>
          rw [List.map_singleton, List.intercalate_singleton]
          exact hword.notMem hc
      | cons next rest =>
          rw [List.map_cons, List.map_cons, List.intercalate_cons_cons, List.mem_append,
            List.mem_append, List.mem_singleton, not_or, not_or]
          exact ⟨⟨hword.notMem hc, hdot⟩, ih hrest⟩

/-- The text of such a type has no comma. -/
theorem comma_notMem_text {ty : Ty} (hwords : ∀ word ∈ ty.path, IsName word) :
    ',' ∉ ty.text.toList := by
  induction ty with
  | array element ih =>
      rw [text, String.toList_append, List.mem_append, not_or]
      exact ⟨ih hwords, by decide⟩
  | _ =>
      rw [toList_of_words]
      exact notMem_path hwords (by decide) (by decide)

theorem path_ofName (name : String) :
    ofName name = .named name ∨ ∀ word ∈ (ofName name).path, word ∈ primitiveNames := by
  unfold ofName
  split
  all_goals first | exact .inl rfl | exact .inr (by decide)

/-- The words of a name that is put together from words without dots. -/
theorem words_of_toList {name : String} {words : List String} (hne : words ≠ [])
    (hwords : ∀ word ∈ words, IsName word)
    (hname : name.toList = ['.'].intercalate (words.map String.toList)) :
    (name.toList.splitOn '.').map String.ofList = words := by
  have hdots : ∀ chars ∈ words.map String.toList, '.' ∉ chars := by
    intro chars hchars
    obtain ⟨word, hword, rfl⟩ := List.mem_map.mp hchars
    exact (hwords word hword).notMem (by decide)
  have hid : String.ofList ∘ String.toList = id := funext fun _ => String.ofList_toList
  rw [hname, List.splitOn_intercalate '.' hdots (by simpa using hne), List.map_map, hid,
    List.map_id]

/-- What is read from names has a path of names. -/
theorem isName_of_type {ts rest : List Lexeme} {ty : Ty} (h : Grammar.type ts = .ok ty rest)
    (hnames : ∀ word line, ⟨.name word, line⟩ ∈ ts → IsName word) :
    ∀ word ∈ ty.path, IsName word := by
  obtain ⟨name, ts₁, hpath, hsuffix⟩ := Action.ok_of_bind h
  obtain ⟨first, ts₂, hfirst, hrest⟩ := Action.ok_of_bind hpath
  obtain ⟨line, rfl⟩ := Grammar.identifier_gives hfirst
  obtain ⟨words, hwords, hname⟩ := Grammar.pathRest_gives hrest
  rw [← path_base, base_of_arraySuffix hsuffix, base_ofName]
  rcases path_ofName name with hnamed | hprimitive
  · have hall : ∀ word ∈ first :: words, IsName word := by
      refine List.forall_mem_cons.mpr ⟨hnames first line List.mem_cons_self, fun word hword => ?_⟩
      obtain ⟨line', hmem⟩ := hwords word hword
      exact hnames word line' (List.mem_cons_of_mem _ hmem)
    have hchars : name.toList = ['.'].intercalate ((first :: words).map String.toList) := by
      rw [hname, Grammar.toList_foldl_words, List.map_cons]
    rw [hnamed]
    change ∀ word ∈ (name.toList.splitOn '.').map String.ofList, IsName word
    rwa [words_of_toList (List.cons_ne_nil _ _) hall hchars]
  · exact fun word hword => isName_of_primitive (hprimitive word hword)

/-! ## Types of source texts -/

/-- A type that is read where some source text has one. -/
def Written (ty : Ty) : Prop :=
  ∃ source tokens ts rest, tokenize source = .ok tokens ∧ ts <:+ tokens ∧
    Grammar.type ts = .ok ty rest

/-- The lexemes go on with an empty pair of brackets. -/
def OpensArray (ts : List Lexeme) : Prop :=
  ∃ line₁ line₂ rest,
    ts = ⟨.symbol .leftBracket, line₁⟩ :: ⟨.symbol .rightBracket, line₂⟩ :: rest

theorem arraySuffix_of_not {ty : Ty} {more : List Lexeme} (h : ¬ OpensArray more) :
    Grammar.arraySuffix ty more = .ok ty more := by
  rw [Grammar.arraySuffix.eq_def]
  split
  · exact absurd ⟨_, _, _, rfl⟩ h
  · rfl

/-- Two texts with a comma between them can be told apart if the first one has no comma. -/
theorem eq_of_comma {before between after left right left' right' : String} {tail : List Char}
    (hbetween : between.toList = ',' :: tail) (hleft : ',' ∉ left.toList)
    (hleft' : ',' ∉ left'.toList)
    (h : before ++ left ++ between ++ right ++ after =
      before ++ left' ++ between ++ right' ++ after) : left = left' ∧ right = right' := by
  have hchars := congrArg String.toList h
  simp only [String.toList_append, List.append_assoc, List.append_cancel_left_eq, hbetween,
    List.cons_append] at hchars
  have hsplit := congrArg (List.splitOn ',') hchars
  rw [List.splitOn_append_cons_self_of_not_mem hleft,
    List.splitOn_append_cons_self_of_not_mem hleft'] at hsplit
  obtain rfl := String.toList_inj.mp (List.cons.inj hsplit).1
  have hright := List.append_cancel_left hchars
  simp only [List.cons.injEq, List.append_cancel_left_eq, List.append_cancel_right_eq, true_and,
    String.toList_inj] at hright
  exact ⟨rfl, hright⟩

namespace Written

variable {ty other found found' : Ty}

theorem producible (h : ty.Written) : ty.Producible := by
  obtain ⟨-, -, ts, rest, -, -, hread⟩ := h
  exact ⟨ts, rest, hread⟩

theorem isName (h : ty.Written) : ∀ word ∈ ty.path, IsName word := by
  obtain ⟨source, tokens, ts, rest, htokens, hsuffix, hread⟩ := h
  exact isName_of_type hread fun word line hmem => isName_of_tokenize htokens (hsuffix.subset hmem)

theorem tokenize_text (h : ty.Written) :
    ∃ ts, tokenize ty.text = .ok ts ∧ Spells ts ty.tokens := by
  have htokens := hasTokens_text h.isName .nil nofun
  rw [List.append_nil, List.append_nil] at htokens
  exact htokens _ 1 (Nat.le_refl _)

theorem reads (h : ty.Written) {ts more : List Lexeme} (hts : Spells ts ty.tokens)
    (hdot : NotNext .dot more) (hbrackets : ¬ OpensArray more) :
    Grammar.type (ts ++ more) = .ok ty more := by
  rw [Grammar.type_eq_arraySuffix h.producible.ofName_base hts hdot, arraySuffix_of_not hbrackets]

/-- Different types have different texts: a type can be read from its text. -/
theorem eq_of_text_eq (h : ty.Written) (h' : other.Written) (htext : ty.text = other.text) :
    ty = other := by
  obtain ⟨ts, htokens, hts⟩ := h.tokenize_text
  obtain ⟨ts', htokens', hts'⟩ := h'.tokenize_text
  rw [← htext, htokens] at htokens'
  obtain rfl := Except.ok.inj htokens'
  have hread : Grammar.type (ts ++ []) = .ok ty [] := h.reads hts nofun nofun
  have hread' : Grammar.type (ts ++ []) = .ok other [] := h'.reads hts' nofun nofun
  have heq := hread.symm.trans hread'
  injection heq

/-- A type error shows both types, with a comma after the first. -/
theorem eq_of_message_eq (h : ty.Written) (h' : other.Written) (hf : found.Written)
    (hf' : found'.Written) {st st' : Store}
    (hmessage : (Cause.typeMismatch ty found).message st =
      (Cause.typeMismatch other found').message st') : ty = other ∧ found = found' := by
  have hcomma : ", found ".toList = ',' :: " found ".toList := rfl
  obtain ⟨hty, hfound⟩ := eq_of_comma hcomma (comma_notMem_text h.isName)
    (comma_notMem_text h'.isName) hmessage
  exact ⟨h.eq_of_text_eq h' hty, hf.eq_of_text_eq hf' hfound⟩

end Written

/-- The text of a type of a program has tokens, and these are read as the type in front of whatever
does not go on with a dot or an empty pair of brackets. So another type has another text, and two
type errors with the same message are about the same types. -/
theorem types_round_trip {ty : Ty} (h : ty.Written) :
    (∃ ts, tokenize ty.text = .ok ts ∧
      ∀ more, NotNext .dot more → ¬ OpensArray more → Grammar.type (ts ++ more) = .ok ty more) ∧
    (∀ other : Ty, other.Written → other ≠ ty → other.text ≠ ty.text) ∧
    ∀ (other found found' : Ty) (st st' : Store), other.Written → found.Written → found'.Written →
      (Cause.typeMismatch ty found).message st = (Cause.typeMismatch other found').message st' →
      ty = other ∧ found = found' := by
  refine ⟨?_, fun other hother hne htext => hne (hother.eq_of_text_eq h htext),
    fun other found found' st st' hother hf hf' => h.eq_of_message_eq hother hf hf'⟩
  obtain ⟨ts, htokens, hts⟩ := h.tokenize_text
  exact ⟨ts, htokens, fun more => h.reads hts⟩

/-- A class path that begins with a primitive type, in front of a bracket that is not closed. -/
theorem types_round_trip_path :
    let ty : Ty := .array (.array (.named "int.x"))
    let bracket : List Lexeme := [⟨.symbol .leftBracket, 1⟩]
    ty.Written ∧ ∃ ts, tokenize "int.x[][]" = .ok ts ∧
      Grammar.type (ts ++ bracket) = .ok ty bracket := by
  intro ty bracket
  have hwritten : ty.Written :=
    ⟨"let p: int.x[][] = q;", _, _, _, rfl, ⟨[_, _, _], rfl⟩, rfl⟩
  obtain ⟨⟨ts, htokens, hreads⟩, -⟩ := types_round_trip hwritten
  refine ⟨hwritten, ts, htokens, hreads bracket ?_ ?_⟩
  · rintro lexeme hlexeme
    obtain rfl := Option.some.inj hlexeme
    nofun
  · rintro ⟨_, _, _, heq⟩
    exact nomatch (List.cons.inj heq).2

end Ty

end ClassScript
