import ClassScript.Proofs.Lexing.MaximalMunch

/-!
# Quoted literals by the byte

A literal is scanned from behind its opening mark: what it stands for, and how many bytes of the
text it takes up, its closing mark included. The scan succeeds exactly on the texts that split into
an inside, the mark and a rest. There is at most one such split, and the bytes end between two
characters. Any text can be written as a string literal, with a backslash before each backslash and
each quote.
-/

namespace ClassScript

namespace Lexical

open Piece

/-! ## Splits -/

/-- The text is the inside of a literal that stands for `meaning`, its closing mark, and a rest. -/
structure Closes (quote : Quote) (text body rest meaning : String) : Prop where
  inside : Inside quote.mark body.toList meaning.toList
  split : text = body ++ String.singleton quote.mark ++ rest

namespace Closes

variable {quote : Quote} {text body rest meaning body' rest' meaning' : String}

theorem toList (h : Closes quote text body rest meaning) :
    text.toList = body.toList ++ quote.mark :: rest.toList := by
  rw [h.split]
  simp

/-- The scan finds the split. -/
theorem scanQuoted (h : Closes quote text body rest meaning) :
    scanQuoted quote.mark text.toList = some
      { text := meaning.toList, slice := body.toList ++ [quote.mark], rest := rest.toList } := by
  rw [h.toList]
  exact scanQuoted_of_inside (Quote.mark_ne_backslash quote) h.inside rest.toList

theorem of_scanQuoted {q : Quoted} (h : Piece.scanQuoted quote.mark text.toList = some q) :
    ∃ body, Closes quote text body (String.ofList q.rest) (String.ofList q.text) ∧
      q.slice = body.toList ++ [quote.mark] := by
  obtain ⟨written, hinside, hslice, htext⟩ := inside_of_scanQuoted h
  refine ⟨String.ofList written, ⟨by simpa using hinside, ?_⟩, by simpa using hslice⟩
  apply String.toList_inj.mp
  rw [htext]
  simp

theorem unique (h : Closes quote text body rest meaning)
    (h' : Closes quote text body' rest' meaning') :
    body' = body ∧ rest' = rest ∧ meaning' = meaning := by
  have hscan := Option.some.inj (h'.scanQuoted.symm.trans h.scanQuoted)
  obtain ⟨hmeaning, hbody, hrest⟩ := Quoted.mk.inj hscan
  exact ⟨String.toList_inj.mp (List.append_cancel_right hbody), String.toList_inj.mp hrest,
    String.toList_inj.mp hmeaning⟩

/-- The bytes of the inside and its mark end between two characters, and the rest follows. -/
theorem bytes (h : Closes quote text body rest meaning) :
    String.Pos.Raw.IsValid text ⟨(body ++ String.singleton quote.mark).utf8ByteSize⟩ ∧
      text.toByteArray.extract (body ++ String.singleton quote.mark).utf8ByteSize
        text.utf8ByteSize = rest.toByteArray := by
  refine ⟨String.Pos.Raw.isValid_iff_exists_append.mpr ⟨_, rest, h.split, rfl⟩, ?_⟩
  have hsize : text.utf8ByteSize =
      (body ++ String.singleton quote.mark).utf8ByteSize + rest.utf8ByteSize := by
    rw [h.split, String.utf8ByteSize_append]
  rw [hsize, h.split, String.toByteArray_append]
  exact ByteArray.extract_append_eq_right rfl rfl

/-- The lexer goes on with what follows the closing mark. -/
theorem quoted (h : Closes quote text body rest meaning) (content : List Char → Content) :
    Piece.quoted quote content text.toList =
      { slice := quote.mark :: (body.toList ++ [quote.mark]), rest := rest.toList,
        content := content meaning.toList } := by
  rw [Piece.quoted, h.scanQuoted]

end Closes

/-! ## Scanning -/

/-- What a literal behind its opening mark stands for, and the number of bytes that it takes up. -/
def scan (quote : Quote) (text : String) : Option (String × Nat) :=
  (scanQuoted quote.mark text.toList).map fun q =>
    (String.ofList q.text, (String.ofList q.slice).utf8ByteSize)

theorem scan_eq_some_iff {quote : Quote} {text meaning : String} {bytes : Nat} :
    scan quote text = some (meaning, bytes) ↔
      ∃ body rest, Closes quote text body rest meaning ∧
        bytes = (body ++ String.singleton quote.mark).utf8ByteSize := by
  constructor
  · intro h
    obtain ⟨q, hq, heq⟩ := Option.map_eq_some_iff.mp h
    obtain ⟨rfl, rfl⟩ := Prod.mk.inj heq
    obtain ⟨body, hcloses, hslice⟩ := Closes.of_scanQuoted hq
    refine ⟨body, String.ofList q.rest, hcloses, ?_⟩
    rw [hslice, String.ofList_append, String.ofList_toList, String.singleton_eq_ofList]
  · rintro ⟨body, rest, hcloses, rfl⟩
    rw [scan, hcloses.scanQuoted, Option.map_some, String.ofList_append, String.ofList_toList,
      String.ofList_toList, String.singleton_eq_ofList]

theorem scan_eq_none_iff {quote : Quote} {text : String} :
    scan quote text = none ↔ ∀ body rest meaning, ¬ Closes quote text body rest meaning := by
  rw [Option.eq_none_iff_forall_ne_some]
  constructor
  · intro h body rest meaning hcloses
    exact h _ (scan_eq_some_iff.mpr ⟨body, rest, hcloses, rfl⟩)
  · rintro h ⟨meaning, bytes⟩ hscan
    obtain ⟨body, rest, hcloses, -⟩ := scan_eq_some_iff.mp hscan
    exact h body rest meaning hcloses

/-! ## Writing literals -/

/-- A character as it is written inside a string literal. -/
def escapedChar (c : Char) : List Char := if c = '\\' ∨ c = '"' then ['\\', c] else [c]

/-- A text with a backslash before each backslash and each quote. -/
def escaped (text : String) : String := String.ofList (text.toList.flatMap escapedChar)

theorem inside_escaped (text : List Char) : Inside '"' (text.flatMap escapedChar) text := by
  induction text with
  | nil => exact .nil
  | cons c text ih =>
      rw [List.flatMap_cons, escapedChar]
      split
      next hc =>
        have hunescape : unescape c = c := by rcases hc with rfl | rfl <;> rfl
        have hescaped := Inside.escaped c ih
        rwa [hunescape] at hescaped
      next hc =>
        obtain ⟨hbackslash, hquote⟩ := not_or.mp hc
        exact .plain hbackslash hquote ih

theorem closes_escaped (text : String) :
    Closes .string (escaped text ++ "\"") (escaped text) "" text := by
  refine ⟨?_, String.append_empty.symm⟩
  rw [escaped, String.toList_ofList]
  exact inside_escaped text.toList

/-- Escaping adds no line breaks. -/
theorem count_escaped (text : List Char) :
    (text.flatMap escapedChar).count '\n' = text.count '\n' := by
  induction text with
  | nil => rfl
  | cons c text ih =>
      have hchar : (escapedChar c).count '\n' = [c].count '\n' := by
        rw [escapedChar]
        split
        next hc => rcases hc with rfl | rfl <;> rfl
        next => rfl
      rw [List.flatMap_cons, List.count_append, ih, hchar, ← List.count_append]
      rfl

/-- A source text that is one piece, and this a token, has just this token. -/
theorem tokenize_of_piece {source : String} {piece : Piece} {token : Token}
    (hfirst : first? source.toList = some piece) (hrest : piece.rest = [])
    (hcontent : piece.content = .token token) :
    tokenize source = .ok [⟨token, 1 + piece.lineBreaks⟩] := by
  have hend (fuel line : Nat) : tokensFrom fuel line [] = .ok [] := by cases fuel <;> rfl
  rw [tokenize]
  cases hsource : source.toList with
  | nil =>
      rw [hsource] at hfirst
      cases hfirst
  | cons c text =>
      rw [hsource] at hfirst
      rw [List.length_cons, tokensFrom, hfirst]
      dsimp only
      rw [hcontent, hrest, hend]
      rfl

theorem tokenize_escaped (text : String) :
    tokenize ("\"" ++ escaped text ++ "\"") =
      .ok [⟨.string text, 1 + text.toList.count '\n'⟩] := by
  have hfirst : first? ("\"" ++ escaped text ++ "\"").toList =
      some (Piece.quoted .string stringContent (escaped text ++ "\"").toList) := by
    have hstart : Start.of '"' = .quote .string := by decide
    have htext : ("\"" ++ escaped text ++ "\"").toList = '"' :: (escaped text ++ "\"").toList := by
      rw [String.append_assoc, String.toList_append]
      rfl
    rw [htext, first?, startingWith_eq, hstart]
    rfl
  rw [(closes_escaped text).quoted] at hfirst
  have htoken : stringContent text.toList = .token (.string text) := by
    rw [stringContent, String.ofList_toList]
  rw [tokenize_of_piece hfirst rfl htoken, lineBreaks]
  dsimp only
  rw [htoken, List.count_cons, List.count_append]
  simp [escaped, count_escaped, Quote.mark]

/-! ## Exact scanning -/

/-- The scan finds what a literal stands for and its length in bytes exactly where the text splits
into an inside that stands for it, the closing mark and a rest, and nothing where there is no such
split. There is only one. The bytes end between two characters, and the lexer goes on right behind
them. Every text is the value of the string literal that writes a backslash before its backslashes
and quotes. -/
theorem scan_exact (quote : Quote) (text : String) :
    (∀ meaning bytes, scan quote text = some (meaning, bytes) ↔
      ∃ body rest, Closes quote text body rest meaning ∧
        bytes = (body ++ String.singleton quote.mark).utf8ByteSize) ∧
    (scan quote text = none ↔ ∀ body rest meaning, ¬ Closes quote text body rest meaning) ∧
    (∀ body rest meaning body' rest' meaning', Closes quote text body rest meaning →
      Closes quote text body' rest' meaning' →
      body' = body ∧ rest' = rest ∧ meaning' = meaning) ∧
    (∀ meaning bytes, scan quote text = some (meaning, bytes) →
      String.Pos.Raw.IsValid text ⟨bytes⟩ ∧
        ∃ rest : String, text.toByteArray.extract bytes text.utf8ByteSize = rest.toByteArray ∧
          ∀ content, ∃ slice, Piece.quoted quote content text.toList =
            { slice, rest := rest.toList, content := content meaning.toList }) ∧
    ∀ value : String, tokenize ("\"" ++ escaped value ++ "\"") =
      .ok [⟨.string value, 1 + value.toList.count '\n'⟩] := by
  refine ⟨fun _ _ => scan_eq_some_iff, scan_eq_none_iff, fun _ _ _ _ _ _ => Closes.unique, ?_,
    tokenize_escaped⟩
  intro meaning bytes h
  obtain ⟨body, rest, hcloses, rfl⟩ := scan_eq_some_iff.mp h
  obtain ⟨hvalid, hafter⟩ := hcloses.bytes
  exact ⟨hvalid, rest, hafter, fun content => ⟨_, hcloses.quoted content⟩⟩

/-- The escaped mark does not close the literal, and the letter before it has two bytes. -/
example : scan .string "é\\\"\" x" = some ("é\"", 5) := by decide +kernel

end Lexical

end ClassScript
