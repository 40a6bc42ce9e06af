import ClassScript.Proofs.Lexing.FirstPiece

/-!
# Tokenizing is maximal munch

A text is cut in one way only: at each place the longest slice that matches a pattern is taken, and
a slice stands for one thing. `tokenize` makes these cuts, gives the tokens that they stand for, and
stops at the first slice that is rejected or at the first place where no pattern matches.
-/

namespace ClassScript

namespace Lexical

open Piece

/-! ## A slice stands for one thing -/

/-- What a literal with these marks is read as. -/
def quotedContent : Quote → List Char → Content
  | .string => stringContent
  | .character => charContent

/-- The piece that starts with `c` and goes on in `text`, by the way it starts. -/
def Start.piece (c : Char) (text : List Char) : Start → Piece
  | .word => run isWordPart (fun slice => .token (wordToken slice)) (c :: text)
  | .digit => number (c :: text)
  | .blank => run isBlank (fun _ => .skipped) (c :: text)
  | .lineBreak => { slice := [c], rest := text, content := .skipped }
  | .quote mark => quoted mark (quotedContent mark) text
  | .slash => Piece.slash text
  | .other => symbolOrFault c text

theorem startingWith_eq (c : Char) (text : List Char) :
    startingWith c text = (Start.of c).piece c text := by
  unfold startingWith Start.of
  split_ifs <;> rfl

/-- What the lexer takes a whole slice for. -/
def contentOf : List Char → Content
  | [] => .skipped
  | c :: text => (startingWith c text).content

theorem contentOf_number {slice rest : List Char} (h : Digits slice) :
    contentOf (slice ++ rest) = (number (slice ++ rest)).content := by
  obtain ⟨hne, hall⟩ := h
  cases slice with
  | nil => exact absurd rfl hne
  | cons c text =>
      change (startingWith c (text ++ rest)).content = _
      rw [startingWith_eq, Start.of_digit (hall c List.mem_cons_self)]
      rfl

theorem contentOf_digits {slice : List Char} (h : Digits slice) :
    contentOf slice = integer slice := by
  have hnumber : number (slice ++ []) = { slice, rest := [], content := integer slice } :=
    number_eq_integer h (fun _ hd => nomatch hd) (fun _ _ heq => nomatch heq)
  rw [← List.append_nil slice, contentOf_number h, hnumber, List.append_nil]

theorem contentOf_fraction {whole places after : List Char} (hwhole : Digits whole)
    (hplaces : Digits places) (hafter : DigitsEnd after) :
    contentOf (whole ++ '.' :: (places ++ after)) = (fractional whole places after).content := by
  rw [contentOf_number hwhole, number_eq_fractional hwhole hplaces hafter]

theorem contentOf_suffixed {whole places : List Char} {suffix : Char} (hwhole : Digits whole)
    (hplaces : Digits places) (hsuffix : suffix ∈ suffixes) :
    contentOf (whole ++ '.' :: (places ++ [suffix])) =
      (fractional whole places [suffix]).content :=
  contentOf_fraction hwhole hplaces (.cons (isDigit_of_mem_suffixes hsuffix) [])

theorem contentOf_quotes {quote : Quote} {text slice : List Char} (h : Quotes quote text slice) :
    contentOf slice = quotedContent quote text := by
  have hstart : Start.of quote.mark = .quote quote := by cases quote <;> decide
  obtain ⟨written, hinside, rfl⟩ := h
  change (startingWith quote.mark (written ++ [quote.mark])).content = _
  rw [startingWith_eq, hstart, Start.piece, quoted,
    scanQuoted_of_inside (Quote.mark_ne_backslash quote) hinside []]

theorem contentOf_word {slice : List Char} (h : WordShaped slice) :
    contentOf slice = .token (wordToken slice) := by
  cases slice with
  | nil => exact h.elim
  | cons c text =>
      have hrun : (c :: text).takeWhile isWordPart = c :: text :=
        List.takeWhile_eq_self_iff.mpr h.isWordPart
      change (startingWith c text).content = _
      rw [startingWith_eq, Start.of_word h.1, Start.piece, run]
      dsimp only
      rw [hrun]

theorem wordToken_keyword (word : Keyword) : wordToken word.spelling.toList = .keyword word := by
  cases word <;> rfl

theorem wordToken_truthWord (value : Bool) : wordToken (truthWord value) = .bool value := by
  cases value <;> rfl

theorem wordToken_name {word : String} (htruth : ∀ value, word.toList ≠ truthWord value)
    (hkeyword : ∀ keyword : Keyword, word.toList ≠ keyword.spelling.toList) :
    wordToken word.toList = .name word := by
  have hnone : Keyword.ofWord? word = none := by
    refine List.find?_eq_none.mpr fun keyword _ heq => hkeyword keyword ?_
    rw [beq_iff_eq.mp heq]
  have htrue : ¬ (word == "true") = true := fun heq => htruth true (by rw [beq_iff_eq.mp heq]; rfl)
  have hfalse : ¬ (word == "false") = true :=
    fun heq => htruth false (by rw [beq_iff_eq.mp heq]; rfl)
  rw [wordToken, String.ofList_toList, if_neg htrue, if_neg hfalse, hnone]

theorem contentOf_symbol (mark : Symbol) : contentOf mark.spelling = .token (.symbol mark) := by
  cases mark <;> rfl

theorem contentOf_skipped {slice : List Char} (h : Skipped slice) : contentOf slice = .skipped := by
  cases h with
  | blanks h =>
      cases slice with
      | nil => rfl
      | cons c text =>
          change (startingWith c text).content = _
          rw [startingWith_eq, Start.of_blank (h c List.mem_cons_self)]
          rfl
  | lineBreak => rfl
  | lineComment => rfl
  | @blockComment body h =>
      have hend := commentEnd_of_body h []
      change (slash ('*' :: (body ++ ['*', '/']))).content = _
      rw [slash, hend]

/-- What a token is written as is read as that token. -/
theorem contentOf_readsToken {slice : List Char} {token : Token} (h : ReadsToken slice token) :
    contentOf slice = .token token := by
  cases token with
  | int value =>
      rw [contentOf_digits h.1, integer, h.2]
      rfl
  | float value =>
      obtain ⟨whole, places, hwhole, hplaces, rfl, rfl⟩ := h
      exact contentOf_suffixed hwhole hplaces (by decide)
  | double value =>
      obtain ⟨whole, places, hwhole, hplaces, rfl, rfl⟩ := h
      exact contentOf_suffixed hwhole hplaces (by decide)
  | decimal value =>
      obtain ⟨whole, places, hwhole, hplaces, rfl, hvalue⟩ := h
      rw [contentOf_suffixed hwhole hplaces (by decide), fractional]
      dsimp only
      rw [hvalue]
      rfl
  | string value =>
      rw [contentOf_quotes h]
      exact congrArg (fun text => Content.token (.string text)) String.ofList_toList
  | char value => exact contentOf_quotes h
  | bool value =>
      obtain rfl : slice = truthWord value := h
      rw [contentOf_word (wordShaped_truthWord value), wordToken_truthWord]
  | keyword word =>
      obtain rfl : slice = word.spelling.toList := h
      rw [contentOf_word (wordShaped_keyword word), wordToken_keyword]
  | name word =>
      obtain ⟨rfl, hshaped, htruth, hkeyword⟩ := h
      rw [contentOf_word hshaped, wordToken_name htruth hkeyword]
  | symbol mark =>
      obtain rfl : slice = mark.spelling := h
      exact contentOf_symbol mark

theorem contentOf_rejected {slice : List Char} {fault : LexicalFault} (h : Rejected slice fault) :
    contentOf slice = .invalid fault := by
  cases fault with
  | unrecognizedCharacter => exact h.elim
  | missingNumericSuffix literal =>
      obtain ⟨whole, places, hwhole, hplaces, rfl, hliteral⟩ := h
      have hcontent : contentOf (whole ++ '.' :: (places ++ [])) = _ :=
        contentOf_fraction hwhole hplaces (fun _ hd => nomatch hd)
      rw [List.append_nil] at hcontent
      rw [hcontent, ← String.ofList_toList (s := literal), hliteral]
      rfl
  | unterminatedLiteral quote =>
      obtain rfl : slice = [quote.mark] := h
      cases quote <;> rfl
  | invalidCharLiteral text =>
      obtain ⟨hquotes, hlength⟩ := h
      rw [contentOf_quotes hquotes]
      change charContent text.toList = _
      unfold charContent
      split
      next heq =>
          rw [heq] at hlength
          exact absurd rfl hlength
      next => rw [String.ofList_toList]
  | literalTooLarge =>
      rcases h with ⟨hdigits, hvalue⟩ | ⟨whole, places, hwhole, hplaces, rfl, hvalue⟩
      · rw [contentOf_digits hdigits, integer, hvalue]
        rfl
      · rw [contentOf_suffixed hwhole hplaces (by decide), fractional]
        dsimp only
        rw [hvalue]
        rfl

theorem contentOf_reads {slice : List Char} {content : Content} (h : Reads slice content) :
    contentOf slice = content := by
  cases content with
  | skipped => exact contentOf_skipped h
  | token token => exact contentOf_readsToken h
  | invalid fault => exact contentOf_rejected h

/-- A piece is what its slice stands for, and its slice stands for nothing else. -/
theorem Cut.reads_iff {piece : Piece} (cut : Cut piece) (content : Content) :
    Reads piece.slice content ↔ piece.content = content := by
  constructor
  · intro h
    rw [← contentOf_reads cut.reads, contentOf_reads h]
  · rintro rfl
    exact cut.reads

/-! ## A text is cut in one way -/

theorem Longest.slice_eq {slice rest slice' rest' : List Char} (h : Longest slice rest)
    (h' : Longest slice' rest') (heq : slice ++ rest = slice' ++ rest') :
    slice = slice' ∧ rest = rest' := by
  have hle := h'.longest slice (heq ▸ List.prefix_append _ _) h.pattern
  have hge := h.longest slice' (heq ▸ List.prefix_append _ _) h'.pattern
  exact List.append_inj heq (Nat.le_antisymm hle hge)

theorem Cut.unique {piece piece' : Piece} (cut : Cut piece) (cut' : Cut piece')
    (heq : piece.slice ++ piece.rest = piece'.slice ++ piece'.rest) : piece = piece' := by
  obtain ⟨hslice, hrest⟩ := cut.longest.slice_eq cut'.longest heq
  have hcontent := (cut'.reads_iff piece.content).mp (hslice ▸ cut.reads)
  obtain ⟨slice, rest, content⟩ := piece
  obtain ⟨slice', rest', content'⟩ := piece'
  simp only at hslice hrest hcontent
  rw [hslice, hrest, hcontent]

theorem Cut.ne_nil {piece : Piece} (cut : Cut piece) : piece.slice ++ piece.rest ≠ [] := by
  intro heq
  exact cut.longest.pattern.ne_nil (List.append_eq_nil_iff.mp heq).1

theorem Cut.not_unmatched {piece : Piece} (cut : Cut piece) :
    ¬ Unmatched (piece.slice ++ piece.rest) := by
  intro h
  exact h _ (List.prefix_append _ _) cut.longest.pattern

/-- The pieces of a text, and what it is read as, are determined. -/
theorem Munches.unique {text : List Char} {pieces pieces' : List Piece}
    {outcome outcome' : Except LexicalFault (List Token)} (h : Munches text pieces outcome)
    (h' : Munches text pieces' outcome') : pieces' = pieces ∧ outcome' = outcome := by
  induction h generalizing pieces' outcome' with
  | nil =>
      generalize htext : ([] : List Char) = text at h'
      cases h' with
      | nil => exact ⟨rfl, rfl⟩
      | skipped cut' => exact (cut'.ne_nil htext.symm).elim
      | token cut' => exact (cut'.ne_nil htext.symm).elim
      | rejected cut' => exact (cut'.ne_nil htext.symm).elim
      | unmatched => cases htext
  | @skipped piece pieces outcome cut content rest ih =>
      generalize htext : piece.slice ++ piece.rest = text at h'
      -- Two cuts of one text are the same piece, so the rules agree on what it is.
      cases h' with
      | nil => exact (cut.ne_nil htext).elim
      | skipped cut' _ rest' =>
          obtain rfl := cut.unique cut' htext
          obtain ⟨rfl, rfl⟩ := ih rest'
          exact ⟨rfl, rfl⟩
      | token cut' content' =>
          obtain rfl := cut.unique cut' htext
          cases content.symm.trans content'
      | rejected cut' content' =>
          obtain rfl := cut.unique cut' htext
          cases content.symm.trans content'
      | unmatched hunmatched => exact (cut.not_unmatched (htext ▸ hunmatched)).elim
  | @token piece pieces outcome token cut content rest ih =>
      generalize htext : piece.slice ++ piece.rest = text at h'
      cases h' with
      | nil => exact (cut.ne_nil htext).elim
      | skipped cut' content' =>
          obtain rfl := cut.unique cut' htext
          cases content.symm.trans content'
      | token cut' content' rest' =>
          obtain rfl := cut.unique cut' htext
          cases content.symm.trans content'
          obtain ⟨rfl, rfl⟩ := ih rest'
          exact ⟨rfl, rfl⟩
      | rejected cut' content' =>
          obtain rfl := cut.unique cut' htext
          cases content.symm.trans content'
      | unmatched hunmatched => exact (cut.not_unmatched (htext ▸ hunmatched)).elim
  | @rejected piece fault cut content =>
      generalize htext : piece.slice ++ piece.rest = text at h'
      cases h' with
      | nil => exact (cut.ne_nil htext).elim
      | skipped cut' content' =>
          obtain rfl := cut.unique cut' htext
          cases content.symm.trans content'
      | token cut' content' =>
          obtain rfl := cut.unique cut' htext
          cases content.symm.trans content'
      | rejected cut' content' =>
          obtain rfl := cut.unique cut' htext
          cases content.symm.trans content'
          exact ⟨rfl, rfl⟩
      | unmatched hunmatched => exact (cut.not_unmatched (htext ▸ hunmatched)).elim
  | @unmatched c text hunmatched =>
      generalize htext : c :: text = whole at h'
      cases h' with
      | nil => cases htext
      | skipped cut' => exact (cut'.not_unmatched (htext ▸ hunmatched)).elim
      | token cut' => exact (cut'.not_unmatched (htext ▸ hunmatched)).elim
      | rejected cut' => exact (cut'.not_unmatched (htext ▸ hunmatched)).elim
      | unmatched =>
          cases htext
          exact ⟨rfl, rfl⟩

theorem Munches.cuts {text : List Char} {pieces : List Piece}
    {outcome : Except LexicalFault (List Token)} (h : Munches text pieces outcome) :
    ∀ piece ∈ pieces, Cut piece := by
  induction h with
  | nil => exact fun _ hmem => nomatch hmem
  | skipped cut _ _ ih => exact List.forall_mem_cons.mpr ⟨cut, ih⟩
  | token cut _ _ ih => exact List.forall_mem_cons.mpr ⟨cut, ih⟩
  | rejected cut => exact List.forall_mem_cons.mpr ⟨cut, fun _ hmem => nomatch hmem⟩
  | unmatched => exact fun _ hmem => nomatch hmem

/-- No piece is rejected. -/
def Accepted (pieces : List Piece) : Prop :=
  ∀ piece ∈ pieces, ∀ fault, piece.content ≠ .invalid fault

theorem accepted_cons {piece : Piece} {pieces : List Piece}
    (h : ∀ fault, piece.content ≠ .invalid fault) :
    Accepted (piece :: pieces) ↔ Accepted pieces := by
  rw [Accepted, List.forall_mem_cons]
  exact and_iff_right h

/-- Where a text ends before `rest`: an unrecognized character is the first one of it, exactly if
all pieces before were accepted and no pattern matches there. -/
structure Stops (pieces : List Piece) (rest : List Char)
    (outcome : Except LexicalFault (List Token)) : Prop where
  finished : ∀ tokens, outcome = .ok tokens → rest = []
  unrecognized : ∀ c, outcome = .error (.unrecognizedCharacter c) ↔
    rest.head? = some c ∧ Unmatched rest ∧ Accepted pieces

/-- The slices, one after the other, are the text as far as it is read. -/
theorem Munches.consumed {text : List Char} {pieces : List Piece}
    {outcome : Except LexicalFault (List Token)} (h : Munches text pieces outcome) :
    ∃ rest, text = pieces.flatMap Piece.slice ++ rest ∧ Stops pieces rest outcome := by
  have hcons {piece : Piece} {pieces : List Piece} {rest : List Char}
      (htext : piece.rest = pieces.flatMap Piece.slice ++ rest) :
      piece.slice ++ piece.rest = (piece :: pieces).flatMap Piece.slice ++ rest := by
    rw [htext, List.flatMap_cons, List.append_assoc]
  induction h with
  | nil =>
      refine ⟨[], rfl, fun _ _ => rfl, fun c => ⟨(fun heq => nomatch heq), fun hstop => ?_⟩⟩
      exact nomatch hstop.1
  | skipped _ content _ ih =>
      obtain ⟨rest, htext, hfinished, hstop⟩ := ih
      refine ⟨rest, hcons htext, hfinished, fun c => ?_⟩
      rw [hstop c, accepted_cons fun fault heq => nomatch content.symm.trans heq]
  | @token _ _ outcome _ _ content _ ih =>
      obtain ⟨rest, htext, hfinished, hstop⟩ := ih
      refine ⟨rest, hcons htext, fun tokens heq => ?_, fun c => ?_⟩
      · cases outcome with
        | ok inner => exact hfinished inner rfl
        | error => cases heq
      · rw [accepted_cons (fun fault heq => nomatch content.symm.trans heq), ← hstop c]
        cases outcome <;> simp [Except.map]
  | @rejected piece fault cut content =>
      refine ⟨piece.rest, hcons rfl, (fun _ heq => nomatch heq), fun c =>
        ⟨fun heq => ?_, fun hstop => ?_⟩⟩
      · cases heq
        have hrejected := (cut.reads_iff _).mpr content
        exact hrejected.elim
      · exact absurd content (hstop.2.2 piece List.mem_cons_self fault)
  | @unmatched c text hunmatched =>
      refine ⟨c :: text, rfl, (fun _ heq => nomatch heq), fun d => ⟨fun heq => ?_, fun hstop => ?_⟩⟩
      · cases heq
        exact ⟨rfl, hunmatched, fun _ hmem => nomatch hmem⟩
      · obtain rfl := Option.some.inj hstop.1
        rfl

/-! ## The lexer makes these cuts -/

/-- The lexemes of pieces that start on `line`: each token with the line on which it ends. -/
def lexemes : Nat → List Piece → List Lexeme
  | _, [] => []
  | line, piece :: pieces =>
      let line := line + piece.lineBreaks
      match piece.content with
      | .token token => ⟨token, line⟩ :: lexemes line pieces
      | _ => lexemes line pieces

/-- A lexer's answer on a text that starts on `line` is what its pieces say. -/
def Agrees (line : Nat) (pieces : List Piece) :
    Except SyntaxError (List Lexeme) → Except LexicalFault (List Token) → Prop
  | .ok answer, .ok tokens => answer = lexemes line pieces ∧ answer.map Lexeme.token = tokens
  | .error error, .error fault => ∃ line, error = .lexical fault line
  | _, _ => False

/-- What is left of a text after a piece is shorter, so the fuel lasts. -/
theorem tokensFrom_munches (fuel line : Nat) (text : List Char) (hfuel : text.length ≤ fuel) :
    ∃ pieces outcome, Munches text pieces outcome ∧
      Agrees line pieces (tokensFrom fuel line text) outcome := by
  induction fuel generalizing line text with
  | zero =>
      obtain rfl := List.eq_nil_of_length_eq_zero (Nat.le_zero.mp hfuel)
      exact ⟨[], .ok [], .nil, rfl, rfl⟩
  | succ fuel ih =>
      cases text with
      | nil => exact ⟨[], .ok [], .nil, rfl, rfl⟩
      | cons c text =>
          rw [tokensFrom, first?]
          dsimp only
          generalize hpiece : startingWith c text = piece
          have hcuts := startingWith_cuts c text
          rw [hpiece] at hcuts
          cases hcuts with
          | unmatched front content h =>
              cases front
              rw [content]
              exact ⟨[], _, .unmatched h, _, rfl⟩
          | taken split cut =>
              have hrest : piece.rest.length ≤ fuel := by
                have hslice := List.length_pos_iff.mpr cut.longest.pattern.ne_nil
                rw [← split, List.length_append] at hfuel
                omega
              obtain ⟨pieces, outcome, hmunches, hagrees⟩ :=
                ih (line + piece.lineBreaks) piece.rest hrest
              cases hcontent : piece.content with
              | skipped =>
                  have hmore := Munches.skipped cut hcontent hmunches
                  rw [split] at hmore
                  refine ⟨piece :: pieces, outcome, hmore, ?_⟩
                  revert hagrees
                  dsimp only
                  cases tokensFrom fuel (line + piece.lineBreaks) piece.rest <;> cases outcome <;>
                    simp [Agrees, lexemes, hcontent]
              | token token =>
                  have hmore := Munches.token cut hcontent hmunches
                  rw [split] at hmore
                  refine ⟨piece :: pieces, _, hmore, ?_⟩
                  revert hagrees
                  dsimp only
                  cases tokensFrom fuel (line + piece.lineBreaks) piece.rest <;> cases outcome <;>
                    simp [Agrees, lexemes, hcontent, Except.map]
              | invalid fault =>
                  have hlast := Munches.rejected cut hcontent
                  rw [split] at hlast
                  exact ⟨[piece], .error fault, hlast, _, rfl⟩

theorem Agrees.ok_iff {line : Nat} {pieces : List Piece}
    {answer : Except SyntaxError (List Lexeme)} {outcome : Except LexicalFault (List Token)}
    (h : Agrees line pieces answer outcome) (tokens : List Token) :
    outcome = .ok tokens ↔
      ∃ lexemes, answer = .ok lexemes ∧ lexemes.map Lexeme.token = tokens := by
  cases answer with
  | ok lexemes =>
      cases outcome with
      | error => exact h.elim
      | ok tokens' =>
          obtain ⟨-, rfl⟩ := h
          constructor
          · rintro ⟨⟩
            exact ⟨lexemes, rfl, rfl⟩
          · rintro ⟨_, ⟨⟩, rfl⟩
            rfl
  | error => cases outcome <;> simp [Agrees] at h ⊢

theorem Agrees.error_iff {line : Nat} {pieces : List Piece}
    {answer : Except SyntaxError (List Lexeme)} {outcome : Except LexicalFault (List Token)}
    (h : Agrees line pieces answer outcome) (fault : LexicalFault) :
    outcome = .error fault ↔ ∃ line, answer = .error (.lexical fault line) := by
  cases answer with
  | ok => cases outcome <;> simp [Agrees] at h ⊢
  | error error =>
      cases outcome with
      | ok => exact h.elim
      | error fault' =>
          obtain ⟨line', rfl⟩ := h
          constructor
          · rintro ⟨⟩
            exact ⟨line', rfl⟩
          · rintro ⟨_, ⟨⟩⟩
            rfl

/-- Every text is cut in exactly one way, and `tokenize` answers as the pieces say. They are not
empty and follow each other from the start of the text, to its end if all of it is read; each is
the longest at its place, is what its slice stands for and is nothing else; and a character is
reported as unrecognized exactly if the accepted pieces end before it and no pattern matches
there. -/
theorem tokenize_munches (source : String) :
    ∃ pieces outcome, Munches source.toList pieces outcome ∧
      (∀ pieces' outcome', Munches source.toList pieces' outcome' →
        pieces' = pieces ∧ outcome' = outcome) ∧
      (∀ tokens, outcome = .ok tokens ↔
        ∃ lexemes, tokenize source = .ok lexemes ∧ lexemes.map Lexeme.token = tokens) ∧
      (∀ fault, outcome = .error fault ↔ ∃ line, tokenize source = .error (.lexical fault line)) ∧
      (∀ piece ∈ pieces, piece.slice ≠ [] ∧ Longest piece.slice piece.rest ∧
        ∀ content, Reads piece.slice content ↔ piece.content = content) ∧
      ∃ rest, source.toList = pieces.flatMap Piece.slice ++ rest ∧
        (∀ lexemes, tokenize source = .ok lexemes → rest = []) ∧
        ∀ c, (∃ line, tokenize source = .error (.lexical (.unrecognizedCharacter c) line)) ↔
          rest.head? = some c ∧ Unmatched rest ∧ Accepted pieces := by
  obtain ⟨pieces, outcome, hmunches, hagrees⟩ :=
    tokensFrom_munches source.toList.length 1 source.toList (Nat.le_refl _)
  change Agrees 1 pieces (tokenize source) outcome at hagrees
  obtain ⟨rest, htext, hfinished, hstop⟩ := hmunches.consumed
  refine ⟨pieces, outcome, hmunches, fun _ _ => hmunches.unique, hagrees.ok_iff, hagrees.error_iff,
    fun piece hmem => ?_, rest, htext, fun lexemes hok => ?_, fun c => ?_⟩
  · have cut := hmunches.cuts piece hmem
    exact ⟨cut.longest.pattern.ne_nil, cut.longest, cut.reads_iff⟩
  · exact hfinished _ ((hagrees.ok_iff _).mpr ⟨lexemes, hok, rfl⟩)
  · rw [← hagrees.error_iff, hstop c]

end Lexical

end ClassScript
