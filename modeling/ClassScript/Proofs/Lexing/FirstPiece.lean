import Mathlib.Data.List.TakeWhile
import ClassScript.Proofs.Lexing.Patterns

/-!
# Tokenizing takes the longest piece

The lexer looks at the first character of what is left and reads on from there. Here it is shown
that the piece it takes is the longest slice that matches a declared pattern, and that it takes the
piece for what the slice stands for; where it finds an unknown character, no pattern matches.

The first character decides which patterns come into question (`Start`, `Shape`), so for each way to
start only a few lengths have to be compared.
-/

namespace ClassScript

namespace Lexical

open Piece

/-! ## How a slice starts -/

/-- What the first character of a piece says about it. -/
inductive Start where
  | word
  | digit
  | blank
  | lineBreak
  | quote (quote : Quote)
  | slash
  | other
  deriving DecidableEq

def Start.of (c : Char) : Start :=
  if isWordStart c then .word
  else if c.isDigit then .digit
  else if isBlank c then .blank
  else if c = '\n' then .lineBreak
  else if c = '"' then .quote .string
  else if c = '\'' then .quote .character
  else if c = '/' then .slash
  else .other

theorem Start.of_digit {c : Char} (h : c.isDigit = true) : Start.of c = .digit := by
  have hword : isWordStart c = false := by
    rw [Bool.eq_false_iff]
    intro hstart
    rcases (Bool.or_eq_true _ _).mp hstart with halpha | hunder
    · change (decide ('A'.val ≤ c.val ∧ c.val ≤ 'Z'.val) ||
        (decide ('a'.val ≤ c.val) && decide (c.val ≤ 'z'.val))) = true at halpha
      simp only [Char.isDigit, Bool.or_eq_true, Bool.and_eq_true, decide_eq_true_eq] at halpha h
      grind
    · rw [beq_iff_eq.mp hunder] at h
      exact absurd h (by decide)
  rw [Start.of, hword, h]
  rfl

theorem Start.of_blank {c : Char} (h : isBlank c = true) : Start.of c = .blank := by
  simp only [isBlank, Bool.or_eq_true, beq_iff_eq] at h
  rcases h with ((rfl | rfl) | rfl) | rfl <;> decide

theorem Start.of_word {c : Char} (h : isWordStart c = true) : Start.of c = .word := by
  rw [Start.of, h]
  rfl

/-- The patterns that come into question for a slice that starts like this. -/
inductive Shape : Start → List Char → Prop where
  | word {slice : List Char} (h : ∀ c ∈ slice, isWordPart c = true) : Shape .word slice
  | integer {slice : List Char} (h : Digits slice) : Shape .digit slice
  | fractional {whole places : List Char} (hwhole : Digits whole) (hplaces : Digits places) :
      Shape .digit (whole ++ '.' :: places)
  | suffixed {whole places : List Char} {suffix : Char} (hwhole : Digits whole)
      (hplaces : Digits places) (hsuffix : suffix ∈ suffixes) :
      Shape .digit (whole ++ '.' :: (places ++ [suffix]))
  | openQuote (quote : Quote) : Shape (.quote quote) [quote.mark]
  | quoted (quote : Quote) {written text : List Char} (h : Inside quote.mark written text) :
      Shape (.quote quote) (quote.mark :: (written ++ [quote.mark]))
  | slash (mark : Symbol) : Shape .slash mark.spelling
  | lineComment {body : List Char} (h : ∀ c ∈ body, isInLine c = true) :
      Shape .slash ('/' :: '/' :: body)
  | blockComment {body : List Char} (h : CommentBody body) :
      Shape .slash ('/' :: '*' :: (body ++ ['*', '/']))
  | lineBreak : Shape .lineBreak ['\n']
  | blanks {slice : List Char} (h : ∀ c ∈ slice, isBlank c = true) : Shape .blank slice
  | other (mark : Symbol) : Shape .other mark.spelling

/-- The slice starts with a character that admits its shape. -/
def Shaped (slice : List Char) : Prop := ∃ c ∈ slice.head?, Shape (Start.of c) slice

theorem Digits.start {whole : List Char} (h : Digits whole) (rest : List Char) :
    ∃ c ∈ (whole ++ rest).head?, Start.of c = .digit := by
  obtain ⟨hne, hall⟩ := h
  cases whole with
  | nil => exact absurd rfl hne
  | cons c cs => exact ⟨c, rfl, Start.of_digit (hall c List.mem_cons_self)⟩

theorem isWordPart_of_isWordStart {c : Char} (h : isWordStart c = true) :
    isWordPart c = true := by
  rcases (Bool.or_eq_true _ _).mp h with h | h
  · rw [isWordPart, Char.isAlphanum, h]
    rfl
  · rw [isWordPart, h, Bool.or_true]

theorem WordShaped.isWordPart {slice : List Char} (h : WordShaped slice) :
    ∀ c ∈ slice, isWordPart c = true := by
  cases slice with
  | nil => exact h.elim
  | cons c cs => exact List.forall_mem_cons.mpr ⟨isWordPart_of_isWordStart h.1, h.2⟩

theorem WordShaped.shaped {slice : List Char} (h : WordShaped slice) : Shaped slice := by
  cases slice with
  | nil => exact h.elim
  | cons c cs => exact ⟨c, rfl, Start.of_word h.1 ▸ .word h.isWordPart⟩

theorem wordShaped_keyword (word : Keyword) : WordShaped word.spelling.toList := by
  cases word <;> simp [Keyword.spelling, WordShaped] <;> decide

theorem wordShaped_truthWord (value : Bool) : WordShaped (truthWord value) := by
  cases value <;> simp [truthWord, WordShaped] <;> decide

theorem Symbol.start (mark : Symbol) :
    ∃ c ∈ mark.spelling.head?, Start.of c = .slash ∨ Start.of c = .other := by
  cases mark <;> exact ⟨_, rfl, by decide⟩

/-- Every pattern has the shape that its first character admits. -/
theorem Matches.shaped {slice : List Char} (h : Matches slice) : Shaped slice := by
  cases h with
  | integer h =>
      obtain ⟨c, hc, hstart⟩ := h.start []
      rw [List.append_nil] at hc
      exact ⟨c, hc, hstart ▸ .integer h⟩
  | fractional hwhole hplaces =>
      obtain ⟨c, hc, hstart⟩ := hwhole.start _
      exact ⟨c, hc, hstart ▸ .fractional hwhole hplaces⟩
  | suffixed hwhole hplaces hsuffix =>
      obtain ⟨c, hc, hstart⟩ := hwhole.start _
      exact ⟨c, hc, hstart ▸ .suffixed hwhole hplaces hsuffix⟩
  | openQuote quote =>
      have hstart : Start.of quote.mark = .quote quote := by cases quote <;> decide
      exact ⟨quote.mark, rfl, hstart ▸ .openQuote quote⟩
  | quoted quote h =>
      have hstart : Start.of quote.mark = .quote quote := by cases quote <;> decide
      exact ⟨quote.mark, rfl, hstart ▸ .quoted quote h⟩
  | truth value => exact (wordShaped_truthWord value).shaped
  | keyword word => exact (wordShaped_keyword word).shaped
  | name h => exact h.shaped
  | symbol mark =>
      obtain ⟨c, hc, hstart⟩ := Symbol.start mark
      rcases hstart with hstart | hstart
      · exact ⟨c, hc, hstart ▸ .slash mark⟩
      · exact ⟨c, hc, hstart ▸ .other mark⟩
  | lineComment h =>
      have hstart : Start.of '/' = .slash := by decide
      exact ⟨'/', rfl, hstart ▸ .lineComment h⟩
  | blockComment h =>
      have hstart : Start.of '/' = .slash := by decide
      exact ⟨'/', rfl, hstart ▸ .blockComment h⟩
  | lineBreak =>
      have hstart : Start.of '\n' = .lineBreak := by decide
      exact ⟨'\n', rfl, hstart ▸ .lineBreak⟩
  | blanks hne h =>
      cases slice with
      | nil => exact absurd rfl hne
      | cons c cs =>
          exact ⟨c, rfl, Start.of_blank (h c List.mem_cons_self) ▸ .blanks h⟩

theorem Matches.ne_nil {slice : List Char} (h : Matches slice) : slice ≠ [] := by
  obtain ⟨c, hc, -⟩ := h.shaped
  rintro rfl
  cases hc

/-- A match at the front of a text has the shape that the text's first character admits. -/
theorem Matches.shape_of_prefix {other text : List Char} {c : Char} (h : Matches other)
    (hfront : other <+: c :: text) : Shape (Start.of c) other := by
  obtain ⟨c', hc', hshape⟩ := h.shaped
  rcases List.prefix_cons_iff.mp hfront with rfl | ⟨tail, rfl, -⟩
  · cases hc'
  · obtain rfl := Option.some.inj hc'
    exact hshape

/-! ## Right cuts -/

/-- The piece is taken off the front of the text as the patterns say, or it reports that none of
them matches there. -/
inductive Cuts (text : List Char) (piece : Piece) : Prop
  | taken (split : piece.slice ++ piece.rest = text) (cut : Cut piece)
  | unmatched {c : Char} {rest : List Char} (front : text = c :: rest)
      (content : piece.content = .invalid (.unrecognizedCharacter c)) (h : Unmatched text)

theorem length_le_takeWhile {p : Char → Bool} {other text : List Char} (hfront : other <+: text)
    (hall : ∀ c ∈ other, p c = true) : other.length ≤ (text.takeWhile p).length := by
  obtain ⟨rest, rfl⟩ := hfront
  rw [List.takeWhile_append_of_pos hall, List.length_append]
  omega

/-- A run of characters is cut off rightly if it matches, if it is what it stands for, and if all
that could match instead are characters of the run. -/
theorem run_cuts {p : Char → Bool} {content : List Char → Content} {text : List Char}
    (hmatches : Matches (text.takeWhile p))
    (hreads : Reads (text.takeWhile p) (content (text.takeWhile p)))
    (hlongest : ∀ other, other <+: text → Matches other →
      other.length ≤ (text.takeWhile p).length) :
    Cuts text (run p content text) := by
  have hsplit : text.takeWhile p ++ text.dropWhile p = text := List.takeWhile_append_dropWhile
  refine .taken hsplit ⟨⟨hmatches, fun other hfront => ?_⟩, hreads⟩
  change other <+: text.takeWhile p ++ text.dropWhile p at hfront
  rw [hsplit] at hfront
  exact hlongest other hfront

/-! ## Words and blanks -/

theorem Keyword.mem_all (word : Keyword) : word ∈ Keyword.all := by
  cases word <;> decide

/-- A word is a truth value or a keyword exactly if it is spelled like one. -/
theorem readsToken_wordToken {slice : List Char} (h : WordShaped slice) :
    ReadsToken slice (wordToken slice) := by
  have hword (word : String) (heq : (String.ofList slice == word) = true) :
      slice = word.toList := by
    rw [← beq_iff_eq.mp heq, String.toList_ofList]
  have hother (word : String) (hne : ¬ (String.ofList slice == word) = true) :
      slice ≠ word.toList := by
    rintro rfl
    rw [String.ofList_toList, beq_self_eq_true] at hne
    exact hne rfl
  unfold wordToken
  dsimp only
  split
  next htrue => exact hword "true" htrue
  next htrue =>
      split
      next hfalse => exact hword "false" hfalse
      next hfalse =>
          split
          next keyword hkeyword =>
              unfold Keyword.ofWord? at hkeyword
              have hspelled := List.find?_some hkeyword
              rw [beq_iff_eq] at hspelled
              exact hword _ (beq_iff_eq.mpr hspelled.symm)
          next hkeyword =>
              refine ⟨String.toList_ofList.symm, h, fun value => ?_, fun keyword heq => ?_⟩
              · cases value with
                | true => exact hother _ htrue
                | false => exact hother _ hfalse
              · refine List.find?_eq_none.mp hkeyword keyword (Keyword.mem_all keyword) ?_
                rw [heq, String.ofList_toList, beq_self_eq_true]

theorem word_cuts {c : Char} (hc : isWordStart c = true) (text : List Char) :
    Cuts (c :: text) (run isWordPart (fun slice => .token (wordToken slice)) (c :: text)) := by
  have hslice : (c :: text).takeWhile isWordPart = c :: text.takeWhile isWordPart :=
    List.takeWhile_cons_of_pos (isWordPart_of_isWordStart hc)
  have hshaped : WordShaped ((c :: text).takeWhile isWordPart) := by
    rw [hslice]
    exact ⟨hc, fun _ => List.mem_takeWhile_imp⟩
  refine run_cuts (.name hshaped) (readsToken_wordToken hshaped) fun other hfront hmatches => ?_
  have hshape := hmatches.shape_of_prefix hfront
  rw [Start.of_word hc] at hshape
  cases hshape with
  | word hall => exact length_le_takeWhile hfront hall

theorem blanks_cuts {c : Char} (hc : isBlank c = true) (text : List Char) :
    Cuts (c :: text) (run isBlank (fun _ => .skipped) (c :: text)) := by
  have hslice : (c :: text).takeWhile isBlank = c :: text.takeWhile isBlank :=
    List.takeWhile_cons_of_pos hc
  have hne : (c :: text).takeWhile isBlank ≠ [] := by
    rw [hslice]
    exact List.cons_ne_nil _ _
  refine run_cuts (.blanks hne (fun _ => List.mem_takeWhile_imp))
    (.blanks (fun _ => List.mem_takeWhile_imp)) fun other hfront hmatches => ?_
  have hshape := hmatches.shape_of_prefix hfront
  rw [Start.of_blank hc] at hshape
  cases hshape with
  | blanks hall => exact length_le_takeWhile hfront hall

theorem lineBreak_cuts (text : List Char) :
    Cuts ('\n' :: text) { slice := ['\n'], rest := text, content := .skipped } := by
  refine .taken rfl ⟨⟨.lineBreak, fun other hfront hmatches => ?_⟩, .lineBreak⟩
  have hshape := hmatches.shape_of_prefix hfront
  have hstart : Start.of '\n' = .lineBreak := by decide
  rw [hstart] at hshape
  cases hshape with
  | lineBreak => exact Nat.le_refl 1

/-! ## Numbers -/

/-- The next character, if there is one, is no digit. -/
def DigitsEnd (rest : List Char) : Prop := ∀ c ∈ rest.head?, c.isDigit = false

theorem DigitsEnd.cons {c : Char} (h : c.isDigit = false) (rest : List Char) :
    DigitsEnd (c :: rest) := by
  intro d hd
  obtain rfl := Option.some.inj hd
  exact h

theorem digitsEnd_point (rest : List Char) : DigitsEnd ('.' :: rest) := .cons (by decide) rest

theorem span_digits {whole rest : List Char} (hwhole : Digits whole) (hrest : DigitsEnd rest) :
    (whole ++ rest).takeWhile Char.isDigit = whole ∧
      (whole ++ rest).dropWhile Char.isDigit = rest := by
  rw [List.takeWhile_append_of_pos hwhole.2, List.dropWhile_append_of_pos hwhole.2]
  cases rest with
  | nil => exact ⟨List.append_nil whole, rfl⟩
  | cons c rest =>
      have hc : ¬ c.isDigit = true := Bool.eq_false_iff.mp (hrest c rfl)
      rw [List.takeWhile_cons_of_neg hc, List.dropWhile_cons_of_neg hc]
      exact ⟨List.append_nil whole, rfl⟩

/-- A text has one run of digits at its front. -/
theorem digits_unique {whole rest whole' rest' : List Char} (hwhole : Digits whole)
    (hrest : DigitsEnd rest) (hwhole' : Digits whole') (hrest' : DigitsEnd rest')
    (heq : whole ++ rest = whole' ++ rest') : whole = whole' ∧ rest = rest' := by
  obtain ⟨htake, hdrop⟩ := span_digits hwhole hrest
  obtain ⟨htake', hdrop'⟩ := span_digits hwhole' hrest'
  exact ⟨by rw [← htake, heq, htake'], by rw [← hdrop, heq, hdrop']⟩

theorem exists_digits {c : Char} (hc : c.isDigit = true) (text : List Char) :
    ∃ whole rest, c :: text = whole ++ rest ∧ Digits whole ∧ DigitsEnd rest := by
  refine ⟨(c :: text).takeWhile Char.isDigit, (c :: text).dropWhile Char.isDigit,
    List.takeWhile_append_dropWhile.symm, ⟨?_, fun _ => List.mem_takeWhile_imp⟩, ?_⟩
  · rw [List.takeWhile_cons_of_pos hc]
    exact List.cons_ne_nil _ _
  · intro d hd
    have hstop := List.head?_dropWhile_not Char.isDigit (c :: text)
    rw [hd] at hstop
    exact hstop

theorem number_eq_fractional {whole places after : List Char} (hwhole : Digits whole)
    (hplaces : Digits places) (hafter : DigitsEnd after) :
    number (whole ++ '.' :: (places ++ after)) = fractional whole places after := by
  obtain ⟨htake, hdrop⟩ := span_digits hwhole (digitsEnd_point (places ++ after))
  obtain ⟨htake', hdrop'⟩ := span_digits hplaces hafter
  unfold number
  rw [htake, hdrop]
  cases places with
  | nil => exact absurd rfl hplaces.1
  | cons d places =>
      rw [List.cons_append] at htake' hdrop'
      simp only [List.cons_append]
      rw [if_pos (hplaces.2 d List.mem_cons_self), htake', hdrop']

theorem number_eq_integer {whole rest : List Char} (hwhole : Digits whole) (hrest : DigitsEnd rest)
    (hplaces : ∀ d more, rest = '.' :: d :: more → d.isDigit = false) :
    number (whole ++ rest) = { slice := whole, rest, content := integer whole } := by
  obtain ⟨htake, hdrop⟩ := span_digits hwhole hrest
  unfold number
  rw [htake, hdrop]
  split
  · rename_i d more
    rw [if_neg (Bool.eq_false_iff.mp (hplaces d more rfl))]
  · rfl

/-- A number that matches at the front of a text with these digits has the same digits before its
point. -/
theorem point_of_prefix {whole rest whole' more : List Char} (hwhole : Digits whole)
    (hrest : DigitsEnd rest) (hwhole' : Digits whole')
    (hfront : whole' ++ '.' :: more <+: whole ++ rest) :
    whole' = whole ∧ '.' :: more <+: rest := by
  obtain ⟨after, heq⟩ := hfront
  rw [List.append_assoc] at heq
  obtain ⟨rfl, rfl⟩ := digits_unique hwhole' (digitsEnd_point _) hwhole hrest heq
  exact ⟨rfl, after, rfl⟩

theorem length_le_of_digits {digits whole rest : List Char} (hdigits : Digits digits)
    (hwhole : Digits whole) (hrest : DigitsEnd rest) (hfront : digits <+: whole ++ rest) :
    digits.length ≤ whole.length := by
  have hle := length_le_takeWhile hfront hdigits.2
  rwa [(span_digits hwhole hrest).1] at hle

theorem reads_integer {digits : List Char} (h : Digits digits) : Reads digits (integer digits) := by
  unfold integer
  cases hvalue : Word.ofInt? (digitsValue digits) with
  | some value => exact ⟨h, hvalue⟩
  | none => exact .inl ⟨h, hvalue⟩

theorem integer_cuts {c : Char} {text whole rest : List Char} (hc : c.isDigit = true)
    (htext : c :: text = whole ++ rest) (hwhole : Digits whole) (hrest : DigitsEnd rest)
    (hplaces : ∀ d more, rest = '.' :: d :: more → d.isDigit = false) :
    Cuts (c :: text) (number (c :: text)) := by
  rw [htext, number_eq_integer hwhole hrest hplaces]
  refine .taken rfl ⟨⟨.integer hwhole, fun other hfront hmatches => ?_⟩, reads_integer hwhole⟩
  -- Without a digit after the point there is no fraction.
  have hnone {whole' places' more : List Char} (hwhole' : Digits whole') (hplaces' : Digits places')
      (hpoint : whole' ++ '.' :: (places' ++ more) <+: whole ++ rest) : False := by
    obtain ⟨-, after, heq⟩ := point_of_prefix hwhole hrest hwhole' hpoint
    cases places' with
    | nil => exact hplaces'.1 rfl
    | cons d places' =>
        have hdigit := hplaces'.2 d List.mem_cons_self
        rw [hplaces d _ heq.symm] at hdigit
        cases hdigit
  have hshape := hmatches.shape_of_prefix (htext ▸ hfront)
  rw [Start.of_digit hc] at hshape
  cases hshape with
  | integer hdigits => exact length_le_of_digits hdigits hwhole hrest hfront
  | fractional hwhole' hplaces' =>
      rw [← List.append_nil (List.cons _ _), List.cons_append] at hfront
      exact (hnone hwhole' hplaces' hfront).elim
  | suffixed hwhole' hplaces' _ => exact (hnone hwhole' hplaces' hfront).elim

theorem isDigit_of_mem_suffixes {suffix : Char} (h : suffix ∈ suffixes) :
    suffix.isDigit = false := by
  simp only [suffixes, List.mem_cons, List.not_mem_nil, or_false] at h
  rcases h with rfl | rfl | rfl <;> decide

/-- At the front of a number with a fraction nothing longer matches, unless a suffix follows. -/
theorem matches_of_fraction {whole places after other : List Char} (hwhole : Digits whole)
    (hplaces : Digits places) (hafter : DigitsEnd after)
    (hfront : other <+: whole ++ '.' :: (places ++ after)) (hmatches : Matches other) :
    other.length ≤ (whole ++ '.' :: places).length ∨
      ∃ suffix ∈ suffixes, after.head? = some suffix ∧
        other.length = (whole ++ '.' :: (places ++ [suffix])).length := by
  have hpoint := digitsEnd_point (places ++ after)
  obtain ⟨c, hc, hstart⟩ := hwhole.start ('.' :: (places ++ after))
  obtain ⟨text, htext⟩ : ∃ text, whole ++ '.' :: (places ++ after) = c :: text := by
    cases hcons : whole ++ '.' :: (places ++ after) with
    | nil =>
        rw [hcons] at hc
        cases hc
    | cons d text =>
        rw [hcons] at hc
        obtain rfl := Option.some.inj hc
        exact ⟨text, rfl⟩
  have hshape := hmatches.shape_of_prefix (htext ▸ hfront)
  rw [hstart] at hshape
  cases hshape with
  | integer hdigits =>
      have hle := length_le_of_digits hdigits hwhole hpoint hfront
      rw [List.length_append]
      exact .inl (Nat.le_add_right_of_le hle)
  | fractional hwhole' hplaces' =>
      obtain ⟨rfl, hmore⟩ := point_of_prefix hwhole hpoint hwhole' hfront
      have hle := length_le_of_digits hplaces' hplaces hafter (List.cons_prefix_cons.mp hmore).2
      simp only [List.length_append, List.length_cons]
      exact .inl (by omega)
  | @suffixed whole' places' suffix hwhole' hplaces' hsuffix =>
      obtain ⟨rfl, hmore⟩ := point_of_prefix hwhole hpoint hwhole' hfront
      obtain ⟨more, heq⟩ := (List.cons_prefix_cons.mp hmore).2
      rw [List.append_assoc, List.singleton_append] at heq
      obtain ⟨rfl, rfl⟩ := digits_unique hplaces'
        (DigitsEnd.cons (isDigit_of_mem_suffixes hsuffix) more) hplaces hafter heq
      exact .inr ⟨suffix, hsuffix, rfl, rfl⟩

theorem fractional_cuts {whole places after : List Char} (hwhole : Digits whole)
    (hplaces : Digits places) (hafter : DigitsEnd after) :
    Cuts (whole ++ '.' :: (places ++ after)) (fractional whole places after) := by
  have htaken {suffix : Char} {rest : List Char} (hsuffix : suffix ∈ suffixes)
      (heq : after = suffix :: rest) {content : Content}
      (hreads : Reads (whole ++ '.' :: (places ++ [suffix])) content) :
      Cuts (whole ++ '.' :: (places ++ after))
        { slice := whole ++ '.' :: places ++ [suffix], rest, content } := by
    subst heq
    have hslice : whole ++ '.' :: places ++ [suffix] = whole ++ '.' :: (places ++ [suffix]) := by
      rw [List.append_assoc, List.cons_append]
    have hsplit : whole ++ '.' :: (places ++ [suffix]) ++ rest =
        whole ++ '.' :: (places ++ suffix :: rest) := by
      simp only [List.append_assoc, List.cons_append, List.nil_append]
    rw [hslice]
    refine .taken hsplit ⟨⟨.suffixed hwhole hplaces hsuffix, fun other hfront hmatches => ?_⟩,
      hreads⟩
    rw [hsplit] at hfront
    rcases matches_of_fraction hwhole hplaces hafter hfront hmatches with hle | ⟨_, _, _, hlen⟩
    · simp only [List.length_append, List.length_cons] at hle ⊢
      omega
    · simp only [List.length_append, List.length_cons, List.length_nil] at hlen ⊢
      omega
  unfold fractional
  dsimp only
  split
  · exact htaken (by decide) rfl ⟨whole, places, hwhole, hplaces, rfl, rfl⟩
  · exact htaken (by decide) rfl ⟨whole, places, hwhole, hplaces, rfl, rfl⟩
  · refine htaken (by decide) rfl ?_
    cases hvalue : Decimal.ofDigits? whole places with
    | some value => exact ⟨whole, places, hwhole, hplaces, rfl, hvalue⟩
    | none => exact .inr ⟨whole, places, hwhole, hplaces, rfl, hvalue⟩
  · rename_i hf hd hm
    have hsplit : whole ++ '.' :: places ++ after = whole ++ '.' :: (places ++ after) := by
      rw [List.append_assoc, List.cons_append]
    refine .taken hsplit ⟨⟨.fractional hwhole hplaces, fun other hfront hmatches => ?_⟩,
      whole, places, hwhole, hplaces, rfl, String.toList_ofList⟩
    rw [hsplit] at hfront
    rcases matches_of_fraction hwhole hplaces hafter hfront hmatches with hle | ⟨suffix, hmem,
      hhead, -⟩
    · exact hle
    · obtain ⟨rest, rfl⟩ := List.head?_eq_some_iff.mp hhead
      simp only [suffixes, List.mem_cons, List.not_mem_nil, or_false] at hmem
      rcases hmem with rfl | rfl | rfl
      · exact (hf rest rfl).elim
      · exact (hd rest rfl).elim
      · exact (hm rest rfl).elim

theorem number_cuts {c : Char} (hc : c.isDigit = true) (text : List Char) :
    Cuts (c :: text) (number (c :: text)) := by
  obtain ⟨whole, rest, htext, hwhole, hrest⟩ := exists_digits hc text
  by_cases hplaces : ∀ d more, rest = '.' :: d :: more → d.isDigit = false
  · exact integer_cuts hc htext hwhole hrest hplaces
  · simp only [not_forall, Bool.not_eq_false] at hplaces
    obtain ⟨d, more, rfl, hd⟩ := hplaces
    obtain ⟨places, after, heq, hplaces, hafter⟩ := exists_digits hd more
    rw [htext, heq, number_eq_fractional hwhole hplaces hafter]
    exact fractional_cuts hwhole hplaces hafter

/-! ## Quoted literals -/

theorem scanQuoted_cons {mark c : Char} (hc : c ≠ '\\') (rest : List Char) :
    scanQuoted mark (c :: rest) =
      if c = mark then some { text := [], slice := [c], rest }
      else (scanQuoted mark rest).map (Quoted.prepend c [c]) := by
  rw [scanQuoted.eq_def]
  split
  · rename_i heq
    cases heq
  · rename_i heq
    exact absurd (List.cons.inj heq).1 hc
  · rename_i heq
    exact absurd (List.cons.inj heq).1 hc
  · rename_i heq
    obtain ⟨rfl, rfl⟩ := List.cons.inj heq
    rfl

theorem scanQuoted_of_inside {mark : Char} (hmark : mark ≠ '\\') {written text : List Char}
    (h : Inside mark written text) (rest : List Char) :
    scanQuoted mark (written ++ mark :: rest) =
      some { text, slice := written ++ [mark], rest } := by
  induction h with
  | nil => rw [List.nil_append, scanQuoted_cons hmark, if_pos rfl, List.nil_append]
  | plain hescape hne _ ih =>
      rw [List.cons_append, scanQuoted_cons hescape, if_neg hne, ih]
      rfl
  | escaped c _ ih =>
      simp only [List.cons_append, scanQuoted]
      rw [ih]
      rfl

theorem inside_of_scanQuoted {mark : Char} {text : List Char} {q : Quoted}
    (h : scanQuoted mark text = some q) :
    ∃ written, Inside mark written q.text ∧ q.slice = written ++ [mark] ∧
      text = written ++ mark :: q.rest := by
  fun_induction scanQuoted mark text generalizing q with
  | case1 => cases h
  | case2 => cases h
  | case3 c rest ih =>
      obtain ⟨inner, hinner, rfl⟩ := Option.map_eq_some_iff.mp h
      obtain ⟨written, hinside, hslice, rfl⟩ := ih hinner
      refine ⟨'\\' :: c :: written, .escaped c hinside, ?_, rfl⟩
      change ['\\', c] ++ inner.slice = _
      rw [hslice]
      rfl
  | case4 rest =>
      obtain rfl := Option.some.inj h
      exact ⟨[], .nil, rfl, rfl⟩
  | case5 c rest hlone hescape hne ih =>
      obtain ⟨inner, hinner, rfl⟩ := Option.map_eq_some_iff.mp h
      obtain ⟨written, hinside, hslice, rfl⟩ := ih hinner
      have hc : c ≠ '\\' := by
        rintro rfl
        cases hrest : written ++ mark :: inner.rest with
        | nil => exact hlone rfl hrest
        | cons d more => exact hescape d more rfl hrest
      refine ⟨c :: written, .plain hc hne hinside, ?_, rfl⟩
      change [c] ++ inner.slice = _
      rw [hslice]
      rfl

theorem Quote.mark_ne_backslash (quote : Quote) : quote.mark ≠ '\\' := by
  cases quote <;> decide

/-- A literal runs through its first closing mark; without one the opening mark stands alone. -/
theorem quoted_cuts (quote : Quote) {content : List Char → Content}
    (hcontent : ∀ text slice, Quotes quote text slice → Reads slice (content text))
    (text : List Char) : Cuts (quote.mark :: text) (quoted quote content text) := by
  have hstart : Start.of quote.mark = .quote quote := by cases quote <;> decide
  -- A closed literal at the front of the text is the one that the scan finds.
  have hscan {written inner : List Char} (hinside : Inside quote.mark written inner)
      (hfront : quote.mark :: (written ++ [quote.mark]) <+: quote.mark :: text) :
      ∃ rest, scanQuoted quote.mark text =
        some { text := inner, slice := written ++ [quote.mark], rest } := by
    obtain ⟨rest, heq⟩ := (List.cons_prefix_cons.mp hfront).2
    rw [List.append_assoc, List.singleton_append] at heq
    exact ⟨rest, heq ▸ scanQuoted_of_inside (Quote.mark_ne_backslash quote) hinside rest⟩
  unfold quoted
  split
  next q hq =>
      obtain ⟨written, hinside, hslice, htext⟩ := inside_of_scanQuoted hq
      have hquotes : Quotes quote q.text (quote.mark :: q.slice) :=
        ⟨written, hinside, by rw [hslice]⟩
      have hsplit : quote.mark :: q.slice ++ q.rest = quote.mark :: text := by
        rw [hslice, htext, List.cons_append, List.append_assoc, List.singleton_append]
      refine .taken hsplit ⟨⟨?_, fun other hfront hmatches => ?_⟩, hcontent _ _ hquotes⟩
      · change Matches (quote.mark :: q.slice)
        rw [hslice]
        exact .quoted quote hinside
      · change other <+: quote.mark :: q.slice ++ q.rest at hfront
        rw [hsplit] at hfront
        have hshape := hmatches.shape_of_prefix hfront
        rw [hstart] at hshape
        cases hshape with
        | openQuote => exact Nat.succ_le_succ (Nat.zero_le _)
        | quoted _ hinside' =>
            obtain ⟨rest, hq'⟩ := hscan hinside' hfront
            obtain rfl := Option.some.inj (hq.symm.trans hq')
            exact Nat.le_refl _
  next hnone =>
      refine .taken rfl ⟨⟨.openQuote quote, fun other hfront hmatches => ?_⟩, rfl⟩
      have hshape := hmatches.shape_of_prefix hfront
      rw [hstart] at hshape
      cases hshape with
      | openQuote => exact Nat.le_refl 1
      | quoted _ hinside' =>
          obtain ⟨rest, hq'⟩ := hscan hinside' hfront
          cases hnone.symm.trans hq'

theorem reads_stringContent {text slice : List Char} (h : Quotes .string text slice) :
    Reads slice (stringContent text) := by
  change Quotes .string (String.ofList text).toList slice
  rwa [String.toList_ofList]

theorem reads_charContent {text slice : List Char} (h : Quotes .character text slice) :
    Reads slice (charContent text) := by
  unfold charContent
  split
  · exact h
  · rename_i hne
    refine ⟨by rwa [String.toList_ofList], fun hlength => ?_⟩
    rw [String.toList_ofList] at hlength
    obtain ⟨c, rfl⟩ := List.length_eq_one_iff.mp hlength
    exact hne c rfl

/-! ## Symbols and comments -/

theorem Symbol.mem_all (mark : Symbol) : mark ∈ Symbol.all := by
  cases mark <;> decide

theorem Symbol.longer_first :
    Symbol.all.Pairwise fun a b => b.spelling.length ≤ a.spelling.length := by
  decide

/-- Longer symbols are tried first, so the one that is found is the longest. -/
theorem symbol_longest {text : List Char} {mark other : Symbol}
    (h : (Symbol.all.find? fun s => s.spelling.isPrefixOf text) = some mark)
    (hother : other.spelling <+: text) : other.spelling.length ≤ mark.spelling.length := by
  obtain ⟨-, before, after, hall, hbefore⟩ := List.find?_eq_some_iff_append.mp h
  have hmem := Symbol.mem_all other
  have hsorted := Symbol.longer_first
  rw [hall] at hmem hsorted
  rcases List.mem_append.mp hmem with hmem | hmem
  · have hnot := hbefore other hmem
    rw [List.isPrefixOf_iff_prefix.mpr hother] at hnot
    cases hnot
  · rcases List.mem_cons.mp hmem with rfl | hmem
    · exact Nat.le_refl _
    · exact (List.pairwise_cons.mp (List.pairwise_append.mp hsorted).2.1).1 other hmem

/-- Where only symbols come into question, the longest one is taken, or there is none. -/
theorem symbolOrFault_cuts {c : Char} {text : List Char}
    (h : ∀ other, other <+: c :: text → Matches other → ∃ mark : Symbol, other = mark.spelling) :
    Cuts (c :: text) (symbolOrFault c text) := by
  unfold symbolOrFault symbol?
  cases hfind : Symbol.all.find? fun s => s.spelling.isPrefixOf (c :: text) with
  | some mark =>
      have hfront : mark.spelling <+: c :: text := by
        have hfound := List.find?_some hfind
        exact List.isPrefixOf_iff_prefix.mp hfound
      have hsplit : mark.spelling ++ (c :: text).drop mark.spelling.length = c :: text :=
        List.prefix_iff_eq_append.mp hfront
      refine .taken hsplit ⟨⟨.symbol mark, fun other hother hmatches => ?_⟩, rfl⟩
      change other <+: mark.spelling ++ (c :: text).drop mark.spelling.length at hother
      rw [hsplit] at hother
      obtain ⟨found, rfl⟩ := h other hother hmatches
      exact symbol_longest hfind hother
  | none =>
      refine .unmatched rfl rfl fun other hother hmatches => ?_
      obtain ⟨found, rfl⟩ := h other hother hmatches
      have hnot := List.find?_eq_none.mp hfind found (Symbol.mem_all found)
      exact hnot (List.isPrefixOf_iff_prefix.mpr hother)

theorem commentEnd_of_body {body : List Char} (h : CommentBody body) (rest : List Char) :
    afterCommentEnd? (body ++ '*' :: '/' :: rest) = some (body ++ ['*', '/'], rest) := by
  induction body with
  | nil => rfl
  | cons c body ih =>
      have hbody : CommentBody body := fun hinfix => h (List.infix_cons hinfix)
      have hearly (more : List Char) (hc : c = '*')
          (heq : body ++ '*' :: '/' :: rest = '/' :: more) : False := by
        cases body with
        | nil => cases heq
        | cons d body =>
            obtain ⟨rfl, -⟩ := List.cons.inj heq
            subst hc
            exact h ⟨[], body ++ ['*'], rfl⟩
      rw [List.cons_append, afterCommentEnd?.eq_3 _ _ hearly, ih hbody]
      rfl

theorem body_of_commentEnd {text slice rest : List Char}
    (h : afterCommentEnd? text = some (slice, rest)) :
    ∃ body, CommentBody body ∧ slice = body ++ ['*', '/'] ∧ text = slice ++ rest := by
  fun_induction afterCommentEnd? text generalizing slice with
  | case1 => cases h
  | case2 rest' =>
      cases h
      have hempty : ¬ ['*', '/'] <:+: ['*'] := by decide
      exact ⟨[], hempty, rfl, rfl⟩
  | case3 c more hearly ih =>
      obtain ⟨⟨inner, _⟩, hinner, heq⟩ := Option.map_eq_some_iff.mp h
      cases heq
      obtain ⟨body, hbody, rfl, rfl⟩ := ih hinner
      refine ⟨c :: body, fun hinfix => ?_, rfl, rfl⟩
      rw [List.cons_append] at hinfix
      rcases List.infix_cons_iff.mp hinfix with hfront | hinfix
      · obtain ⟨rfl, hslash⟩ := List.cons_prefix_cons.mp hfront
        cases body with
        | nil => exact absurd hslash (by decide)
        | cons d body =>
            obtain ⟨rfl, -⟩ := List.cons_prefix_cons.mp hslash
            exact hearly _ rfl rfl
      · exact hbody hinfix

/-- The symbols that begin with a slash have at most two characters. -/
theorem length_of_slash {mark : Symbol} {text : List Char} (h : mark.spelling <+: '/' :: text) :
    mark.spelling.length ≤ 2 := by
  cases mark <;> simp [Symbol.spelling] at h ⊢

theorem start_slash : Start.of '/' = .slash := by decide

theorem lineComment_cuts (text : List Char) :
    Cuts ('/' :: '/' :: text) (run isInLine (fun _ => .skipped) ('/' :: '/' :: text)) := by
  have hslice : ('/' :: '/' :: text).takeWhile isInLine = '/' :: '/' :: text.takeWhile isInLine :=
    rfl
  have hbody : ∀ c ∈ text.takeWhile isInLine, isInLine c = true :=
    fun _ => List.mem_takeWhile_imp
  refine run_cuts (hslice ▸ .lineComment hbody) (hslice ▸ .lineComment hbody)
    fun other hfront hmatches => ?_
  have hshape := hmatches.shape_of_prefix hfront
  rw [start_slash] at hshape
  cases hshape with
  | slash mark =>
      have hle := length_of_slash hfront
      rw [hslice, List.length_cons, List.length_cons]
      omega
  | lineComment hall =>
      have hle := length_le_takeWhile (List.cons_prefix_cons.mp
        (List.cons_prefix_cons.mp hfront).2).2 hall
      rw [hslice, List.length_cons, List.length_cons, List.length_cons, List.length_cons]
      omega
  | blockComment =>
      have heq := (List.cons_prefix_cons.mp (List.cons_prefix_cons.mp hfront).2).1
      exact absurd heq (by decide)

theorem blockComment_cuts {text slice rest : List Char}
    (h : afterCommentEnd? text = some (slice, rest)) :
    Cuts ('/' :: '*' :: text)
      { slice := '/' :: '*' :: slice, rest, content := .skipped } := by
  obtain ⟨body, hbody, rfl, rfl⟩ := body_of_commentEnd h
  refine .taken rfl ⟨⟨.blockComment hbody, fun other hfront hmatches => ?_⟩, .blockComment hbody⟩
  have hshape := hmatches.shape_of_prefix hfront
  rw [start_slash] at hshape
  cases hshape with
  | slash mark =>
      have hle := length_of_slash hfront
      simp only [List.length_cons]
      omega
  | lineComment =>
      have heq := (List.cons_prefix_cons.mp (List.cons_prefix_cons.mp hfront).2).1
      exact absurd heq (by decide)
  | blockComment hbody' =>
      change _ <+: '/' :: '*' :: (body ++ ['*', '/'] ++ rest) at hfront
      obtain ⟨more, heq⟩ := (List.cons_prefix_cons.mp (List.cons_prefix_cons.mp hfront).2).2
      have hfirst := commentEnd_of_body hbody' more
      rw [List.append_assoc _ _ more] at heq
      change _ ++ '*' :: '/' :: more = _ at heq
      rw [heq, h] at hfirst
      obtain ⟨hslice, -⟩ := Prod.mk.inj (Option.some.inj hfirst)
      change ('/' :: '*' :: _).length ≤ ('/' :: '*' :: (body ++ ['*', '/'])).length
      rw [hslice]

theorem slash_cuts (text : List Char) : Cuts ('/' :: text) (slash text) := by
  unfold slash
  split
  next text => exact lineComment_cuts text
  next text =>
      split
      next slice rest hend => exact blockComment_cuts hend
      next hend =>
          refine symbolOrFault_cuts fun other hfront hmatches => ?_
          have hshape := hmatches.shape_of_prefix hfront
          rw [start_slash] at hshape
          cases hshape with
          | slash mark => exact ⟨mark, rfl⟩
          | lineComment =>
              have heq := (List.cons_prefix_cons.mp (List.cons_prefix_cons.mp hfront).2).1
              exact absurd heq (by decide)
          | blockComment hbody =>
              -- An end that follows would have been found.
              obtain ⟨more, heq⟩ :=
                (List.cons_prefix_cons.mp (List.cons_prefix_cons.mp hfront).2).2
              rw [List.append_assoc] at heq
              change _ ++ '*' :: '/' :: more = _ at heq
              rw [← heq, commentEnd_of_body hbody more] at hend
              cases hend
  next hline hblock =>
      refine symbolOrFault_cuts fun other hfront hmatches => ?_
      have hshape := hmatches.shape_of_prefix hfront
      rw [start_slash] at hshape
      cases hshape with
      | slash mark => exact ⟨mark, rfl⟩
      | lineComment =>
          obtain ⟨more, rfl⟩ := (List.cons_prefix_cons.mp hfront).2
          exact (hline _ rfl).elim
      | blockComment =>
          obtain ⟨more, rfl⟩ := (List.cons_prefix_cons.mp hfront).2
          exact (hblock _ rfl).elim

/-! ## The first piece -/

/-- Whatever character a text starts with, the piece is cut off rightly. -/
theorem startingWith_cuts (c : Char) (text : List Char) :
    Cuts (c :: text) (startingWith c text) := by
  unfold startingWith
  split
  next hword => exact word_cuts hword text
  next hword =>
  split
  next hdigit => exact number_cuts hdigit text
  next hdigit =>
  split
  next hblank => exact blanks_cuts hblank text
  next hblank =>
  split
  next hbreak =>
      subst hbreak
      exact lineBreak_cuts text
  next hbreak =>
  split
  next hstring =>
      subst hstring
      exact quoted_cuts .string (fun _ _ => reads_stringContent) text
  next hstring =>
  split
  next hchar =>
      subst hchar
      exact quoted_cuts .character (fun _ _ => reads_charContent) text
  next hchar =>
  split
  next hslash =>
      subst hslash
      exact slash_cuts text
  next hslash =>
      have hstart : Start.of c = .other := by
        rw [Start.of, if_neg hword, if_neg hdigit, if_neg hblank, if_neg hbreak, if_neg hstring,
          if_neg hchar, if_neg hslash]
      refine symbolOrFault_cuts fun other hfront hmatches => ?_
      have hshape := hmatches.shape_of_prefix hfront
      rw [hstart] at hshape
      cases hshape with
      | other mark => exact ⟨mark, rfl⟩

end Lexical

end ClassScript
