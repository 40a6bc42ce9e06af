import ClassScript.Proofs.Lexing.MaximalMunch

/-!
# The lines of tokens

A token is to be paired with the line on which it ends: one more than the line breaks in the source
up to there. Blank space, comments and string literals account for their own line breaks, and no
number, word or symbol has one. A character literal may have one and does not account for it, so
each line is short by just the line breaks inside the character literals up to that token.
-/

namespace ClassScript

namespace Lexical

open Piece

/-- The token that a piece stands for, if it stands for one. -/
def tokenOf? (piece : Piece) : Option Token :=
  match piece.content with
  | .token token => some token
  | _ => none

/-- The line breaks in a piece that is a character literal. -/
def inCharacter (piece : Piece) : Nat :=
  match piece.content with
  | .token (.char _) => piece.slice.count '\n'
  | _ => 0

/-- The line breaks in the character literals among the pieces. -/
def inCharacters : List Piece → Nat
  | [] => 0
  | piece :: pieces => inCharacter piece + inCharacters pieces

/-- The line breaks in the text of the pieces. -/
def brokenLines (pieces : List Piece) : Nat := (pieces.flatMap Piece.slice).count '\n'

theorem inCharacters_cons (piece : Piece) (pieces : List Piece) :
    inCharacters (piece :: pieces) = inCharacter piece + inCharacters pieces := rfl

theorem brokenLines_cons (piece : Piece) (pieces : List Piece) :
    brokenLines (piece :: pieces) = piece.slice.count '\n' + brokenLines pieces := by
  rw [brokenLines, List.flatMap_cons, List.count_append, brokenLines]

/-! ## Tokens without line breaks -/

theorem Digits.lineBreak_notMem {digits : List Char} (h : Digits digits) : '\n' ∉ digits :=
  fun hmem => absurd (h.2 _ hmem) (by decide)

theorem Suffixed.lineBreak_notMem {suffix : Char} {P : List Char → List Char → Prop}
    {slice : List Char} (h : Suffixed suffix P slice) (hsuffix : suffix ≠ '\n') : '\n' ∉ slice := by
  obtain ⟨whole, places, hwhole, hplaces, rfl, -⟩ := h
  intro hmem
  rcases List.mem_append.mp hmem with hmem | hmem
  · exact hwhole.lineBreak_notMem hmem
  rcases List.mem_cons.mp hmem with heq | hmem
  · cases heq
  rcases List.mem_append.mp hmem with hmem | hmem
  · exact hplaces.lineBreak_notMem hmem
  · exact hsuffix (List.mem_singleton.mp hmem).symm

theorem WordShaped.lineBreak_notMem {slice : List Char} (h : WordShaped slice) : '\n' ∉ slice :=
  fun hmem => absurd (h.isWordPart _ hmem) (by decide)

theorem Symbol.lineBreak_notMem (mark : Symbol) : '\n' ∉ mark.spelling := by
  cases mark <;> decide

/-- Only quoted literals can go over a line break. -/
theorem ReadsToken.lineBreak_notMem {slice : List Char} {token : Token} (h : ReadsToken slice token)
    (hstring : ∀ value, token ≠ .string value) (hchar : ∀ value, token ≠ .char value) :
    '\n' ∉ slice := by
  cases token with
  | int => exact h.1.lineBreak_notMem
  | float => exact Suffixed.lineBreak_notMem h (by decide)
  | double => exact Suffixed.lineBreak_notMem h (by decide)
  | decimal => exact Suffixed.lineBreak_notMem h (by decide)
  | string value => exact absurd rfl (hstring value)
  | char value => exact absurd rfl (hchar value)
  | bool value =>
      obtain rfl : slice = truthWord value := h
      exact (wordShaped_truthWord value).lineBreak_notMem
  | keyword word =>
      obtain rfl : slice = word.spelling.toList := h
      exact (wordShaped_keyword word).lineBreak_notMem
  | name => exact h.2.1.lineBreak_notMem
  | symbol mark =>
      obtain rfl : slice = mark.spelling := h
      exact Symbol.lineBreak_notMem mark

/-! ## Counting lines -/

/-- The count goes up by the line breaks of a piece, those in character literals left out. -/
theorem Cut.lineBreaks_add {piece : Piece} (cut : Cut piece)
    (haccepted : ∀ fault, piece.content ≠ .invalid fault) :
    piece.lineBreaks + inCharacter piece = piece.slice.count '\n' := by
  have hreads := cut.reads
  unfold lineBreaks inCharacter
  cases hcontent : piece.content with
  | skipped => rfl
  | invalid fault => exact absurd hcontent (haccepted fault)
  | token token =>
      rw [hcontent] at hreads
      have hnone (hstring : ∀ value, token ≠ .string value) (hchar : ∀ value, token ≠ .char value) :
          piece.slice.count '\n' = 0 :=
        List.count_eq_zero.mpr (ReadsToken.lineBreak_notMem hreads hstring hchar)
      cases token with
      | string => rfl
      -- The slice may have line breaks here, and they are not counted.
      | char => exact Nat.zero_add _
      | int | float | double | decimal | bool | name | keyword | symbol =>
        exact (hnone (fun _ h => nomatch h) (fun _ h => nomatch h)).symm

/-- The piece of a lexeme, with the pieces before and after it. -/
structure Located (line : Nat) (pieces : List Piece) (before : List Lexeme) (lexeme : Lexeme)
    (upTo after : List Piece) : Prop where
  split : pieces = upTo ++ after
  tokens : upTo.filterMap tokenOf? = before.map Lexeme.token ++ [lexeme.token]
  last : ∃ piece ∈ upTo.getLast?, piece.content = .token lexeme.token
  counted : lexeme.line + inCharacters upTo = line + brokenLines upTo

theorem Located.cons {line : Nat} {pieces : List Piece} {before : List Lexeme} {lexeme : Lexeme}
    {upTo after : List Piece} {piece : Piece}
    (h : Located (line + piece.lineBreaks) pieces before lexeme upTo after) (cut : Cut piece)
    (haccepted : ∀ fault, piece.content ≠ .invalid fault) {before' : List Lexeme}
    (hbefore : before'.map Lexeme.token = (tokenOf? piece).toList ++ before.map Lexeme.token) :
    Located line (piece :: pieces) before' lexeme (piece :: upTo) after := by
  obtain ⟨hsplit, htokens, ⟨last, hlast, hcontent⟩, hcounted⟩ := h
  have hbreaks := cut.lineBreaks_add haccepted
  refine ⟨by rw [hsplit, List.cons_append], ?_, ⟨last, ?_, hcontent⟩, ?_⟩
  · rw [hbefore, List.append_assoc, ← htokens]
    cases hpiece : tokenOf? piece with
    | none => rw [List.filterMap_cons_none hpiece]; rfl
    | some token => rw [List.filterMap_cons_some hpiece]; rfl
  · rw [List.getLast?_cons_of_ne_nil]
    · exact hlast
    · rintro rfl
      cases hlast
  · rw [inCharacters_cons, brokenLines_cons]
    omega

/-- Every lexeme of the pieces has its place among them. -/
theorem exists_located {line : Nat} {pieces : List Piece} (cuts : ∀ piece ∈ pieces, Cut piece)
    (haccepted : Accepted pieces) {before after : List Lexeme} {lexeme : Lexeme}
    (h : lexemes line pieces = before ++ lexeme :: after) :
    ∃ upTo rest, Located line pieces before lexeme upTo rest := by
  induction pieces generalizing line before with
  | nil => cases before <;> cases h
  | cons piece pieces ih =>
      obtain ⟨cut, cuts⟩ := List.forall_mem_cons.mp cuts
      obtain ⟨hpiece, haccepted⟩ := List.forall_mem_cons.mp haccepted
      rw [lexemes] at h
      cases hcontent : piece.content with
      | invalid fault => exact absurd hcontent (hpiece fault)
      | skipped =>
          rw [hcontent] at h
          obtain ⟨upTo, rest, hlocated⟩ := ih cuts haccepted h
          have hnone : tokenOf? piece = none := by rw [tokenOf?, hcontent]
          exact ⟨piece :: upTo, rest, hlocated.cons cut hpiece (by rw [hnone]; rfl)⟩
      | token token =>
          rw [hcontent] at h
          have hsome : tokenOf? piece = some token := by rw [tokenOf?, hcontent]
          cases before with
          | nil =>
              obtain ⟨rfl, -⟩ := List.cons.inj h
              have hbreaks := cut.lineBreaks_add hpiece
              refine ⟨[piece], pieces, rfl, ?_, ⟨piece, rfl, hcontent⟩, ?_⟩
              · rw [List.filterMap_cons_some hsome]
                rfl
              · rw [inCharacters_cons, brokenLines_cons]
                change line + piece.lineBreaks + (inCharacter piece + 0) = line + (_ + 0)
                omega
          | cons first before =>
              obtain ⟨rfl, hrest⟩ := List.cons.inj h
              obtain ⟨upTo, rest, hlocated⟩ := ih cuts haccepted hrest
              exact ⟨piece :: upTo, rest, hlocated.cons cut hpiece (by rw [hsome]; rfl)⟩

theorem Munches.accepted {text : List Char} {pieces : List Piece} {tokens : List Token}
    (h : Munches text pieces (.ok tokens)) : Accepted pieces := by
  generalize houtcome : (Except.ok tokens : Except LexicalFault (List Token)) = outcome at h
  induction h generalizing tokens with
  | nil => exact fun _ hmem => nomatch hmem
  | skipped _ content _ ih =>
      rw [accepted_cons fun fault heq => nomatch content.symm.trans heq]
      exact ih houtcome
  | @token _ _ outcome _ _ content _ ih =>
      rw [accepted_cons fun fault heq => nomatch content.symm.trans heq]
      cases outcome with
      | ok => exact ih rfl
      | error => cases houtcome
  | rejected => cases houtcome
  | unmatched => cases houtcome

/-- The line of each token, together with the line breaks inside the character literals up to it,
is one more than the line breaks in the source up to its end. -/
theorem tokenize_lines {source : String} {answer : List Lexeme}
    (h : tokenize source = .ok answer) :
    ∃ pieces, Munches source.toList pieces (.ok (answer.map Lexeme.token)) ∧
      ∀ before lexeme after, answer = before ++ lexeme :: after →
        ∃ upTo rest, pieces = upTo ++ rest ∧
          source.toList = upTo.flatMap Piece.slice ++ rest.flatMap Piece.slice ∧
          upTo.filterMap tokenOf? = before.map Lexeme.token ++ [lexeme.token] ∧
          (∃ piece ∈ upTo.getLast?, piece.content = .token lexeme.token) ∧
          lexeme.line + inCharacters upTo = 1 + (upTo.flatMap Piece.slice).count '\n' := by
  obtain ⟨pieces, outcome, hmunches, hagrees⟩ :=
    tokensFrom_munches source.toList.length 1 source.toList (Nat.le_refl _)
  change Agrees 1 pieces (tokenize source) outcome at hagrees
  obtain rfl := (hagrees.ok_iff _).mpr ⟨answer, h, rfl⟩
  rw [h] at hagrees
  obtain ⟨hlexemes, -⟩ := hagrees
  refine ⟨pieces, hmunches, fun before lexeme after heq => ?_⟩
  obtain ⟨upTo, rest, hlocated⟩ := exists_located hmunches.cuts hmunches.accepted
    (hlexemes.symm.trans heq)
  obtain ⟨left, htext, hstops⟩ := hmunches.consumed
  obtain rfl := hstops.finished _ rfl
  refine ⟨upTo, rest, hlocated.split, ?_, hlocated.tokens, hlocated.last, hlocated.counted⟩
  rw [htext, List.append_nil, hlocated.split, List.flatMap_append]

/-- Line breaks in a comment and in a string are counted, one in a character literal is not. -/
theorem tokenize_lines_mixed :
    ∃ answer, tokenize "/*\n*/ \"a\nb\"\n'\n' x" = .ok answer ∧
      answer.map Lexeme.line = [3, 4, 4] ∧
      ∃ pieces, Munches "/*\n*/ \"a\nb\"\n'\n' x".toList pieces
          (.ok (answer.map Lexeme.token)) ∧
        ∀ before lexeme after, answer = before ++ lexeme :: after →
          ∃ upTo rest, pieces = upTo ++ rest ∧
            "/*\n*/ \"a\nb\"\n'\n' x".toList =
              upTo.flatMap Piece.slice ++ rest.flatMap Piece.slice ∧
            upTo.filterMap tokenOf? = before.map Lexeme.token ++ [lexeme.token] ∧
            (∃ piece ∈ upTo.getLast?, piece.content = .token lexeme.token) ∧
            lexeme.line + inCharacters upTo = 1 + (upTo.flatMap Piece.slice).count '\n' :=
  ⟨_, rfl, rfl, tokenize_lines rfl⟩

/-- The literal ends on the second line, and its token is paired with the first. -/
theorem character_literal_line_short :
    ∃ lexeme rest, tokenize "'\n' x" = .ok (lexeme :: rest) ∧
      ReadsToken "'\n'".toList lexeme.token ∧
      lexeme.line ≠ 1 + "'\n'".toList.count '\n' := by
  exact ⟨_, _, rfl, ⟨['\n'], .plain (by decide) (by decide) .nil, rfl⟩, by decide⟩

end Lexical

end ClassScript
