import ClassScript.Proofs.Printing.Statements

/-!
# Programs read back

Printing a program and reading the tokens again is the identity on what the grammar gives, up to
lines. It is not the identity on tokens: what can be written in several ways is printed in one.
-/

namespace ClassScript

namespace Grammar

theorem statement_takes {s : Statement} (h : s.WellFormed) :
    Takes Grammar.statement s.tokens (follow s) fun s' => s'.unlined = s.unlined := by
  intro ts more hts hmore
  have hlt : s.tokens.length < (ts ++ more).length + 1 := by
    rw [← hts, List.length_map, List.length_append]
    omega
  exact statementAt_takes _ h hlt hts hmore

theorem statementsToEnd_takes : ∀ {p : List Statement}, WellFormedStatements p →
    ∀ {fuel : Nat}, (statementsTokens p).length < fuel →
    Takes (statementsToEnd fuel) (statementsTokens p) (fun t => t.isNone)
      fun p' => unlinedStatements p' = unlinedStatements p
  | [], _, fuel + 1, _ => by
      refine .peek? fun t found ht hfound => ?_
      obtain rfl := Option.isNone_iff_eq_none.mp ht
      obtain rfl := Option.map_eq_none_iff.mp hfound
      exact .pure rfl
  | s :: p, hp, fuel + 1, hfuel => by
      have hpos := s.tokens_pos
      rw [statementsTokens, List.length_append] at hfuel
      obtain ⟨token, hhead, htoken⟩ := s.begins
      rw [statementsTokens]
      refine .peekHead (by rw [List.head?_append, hhead]; rfl) fun line => ?_
      refine .bind (statement_takes hp.1) (fun t ht => ?_) fun s' hs => ?_
      · obtain rfl := Option.isNone_iff_eq_none.mp ht
        have hfollow := follow_statements s p [] (t := none) rfl
        rwa [List.append_nil] at hfollow
      · refine (statementsToEnd_takes hp.2 (by omega)).map fun p' hp' => ?_
        rw [unlinedStatements, unlinedStatements, hs, hp']

end Grammar

/-- Printing and reading again changes nothing but lines: if some tokens read as a program, then the
tokens printed for it, on whatever lines they stand, read as the same program up to its lines. -/
theorem Grammar.program_of_printed (ts printed : List Lexeme) (p : Program)
    (hread : Grammar.program ts = .ok p) (hprinted : Spells printed p.tokens) :
    ∃ p' : Program, Grammar.program printed = .ok p' ∧ p'.unlined = p.unlined := by
  have hlength : printed.length = (statementsTokens p).length := by
    rw [← List.length_map Lexeme.token]
    exact congrArg List.length hprinted
  have hfuel : (statementsTokens p).length < printed.length + 1 := by omega
  -- What has been read is well formed, and that is all that reading it again needs.
  have htakes := statementsToEnd_takes (program_wellFormed hread) hfuel
  have hend : (nextToken []).isNone = true := rfl
  obtain ⟨p', hend, heq⟩ := htakes hprinted hend
  rw [List.append_nil] at hend
  refine ⟨p', ?_, heq⟩
  rw [program, hend]

/-- `class A { func f(): int => 1; let n: int[0] (getter) = [1]; }` and
`if (a) while (b) break; else switch (c) { default: case 2: d(); }` are printed with the field
before the method, a block as its body, and `default` last. -/
theorem Grammar.program_of_printed_reordered :
    ∃ p' : Program, Grammar.program
        [⟨.keyword .kwClass, 1⟩, ⟨.name "A", 1⟩, ⟨.symbol .leftBrace, 1⟩, ⟨.keyword .kwLet, 2⟩,
          ⟨.name "n", 2⟩, ⟨.symbol .colon, 2⟩, ⟨.name "int", 2⟩, ⟨.symbol .leftBracket, 2⟩,
          ⟨.symbol .rightBracket, 2⟩, ⟨.symbol .leftParen, 2⟩, ⟨.keyword .kwGetter, 2⟩,
          ⟨.symbol .rightParen, 2⟩, ⟨.symbol .assign, 2⟩, ⟨.symbol .leftParen, 2⟩,
          ⟨.symbol .leftBracket, 2⟩, ⟨.int 1, 2⟩, ⟨.symbol .rightBracket, 2⟩,
          ⟨.symbol .rightParen, 2⟩, ⟨.symbol .semicolon, 2⟩, ⟨.keyword .kwFunc, 3⟩, ⟨.name "f", 3⟩,
          ⟨.symbol .leftParen, 3⟩, ⟨.symbol .rightParen, 3⟩, ⟨.symbol .colon, 3⟩, ⟨.name "int", 3⟩,
          ⟨.symbol .leftBrace, 3⟩, ⟨.keyword .kwReturn, 3⟩, ⟨.int 1, 3⟩, ⟨.symbol .semicolon, 3⟩,
          ⟨.symbol .rightBrace, 3⟩, ⟨.symbol .rightBrace, 4⟩, ⟨.keyword .kwIf, 5⟩,
          ⟨.symbol .leftParen, 5⟩, ⟨.name "a", 5⟩, ⟨.symbol .rightParen, 5⟩, ⟨.keyword .kwWhile, 5⟩,
          ⟨.symbol .leftParen, 5⟩, ⟨.name "b", 5⟩, ⟨.symbol .rightParen, 5⟩, ⟨.keyword .kwBreak, 5⟩,
          ⟨.symbol .semicolon, 5⟩, ⟨.keyword .kwElse, 6⟩, ⟨.keyword .kwSwitch, 6⟩,
          ⟨.symbol .leftParen, 6⟩, ⟨.name "c", 6⟩, ⟨.symbol .rightParen, 6⟩,
          ⟨.symbol .leftBrace, 6⟩, ⟨.keyword .kwCase, 7⟩, ⟨.int 2, 7⟩, ⟨.symbol .colon, 7⟩,
          ⟨.name "d", 7⟩, ⟨.symbol .leftParen, 7⟩, ⟨.symbol .rightParen, 7⟩,
          ⟨.symbol .semicolon, 7⟩, ⟨.keyword .kwDefault, 8⟩, ⟨.symbol .colon, 8⟩,
          ⟨.symbol .rightBrace, 9⟩] = .ok p' ∧
      p'.unlined =
        [.classType ⟨"A", false, [],
            [⟨⟨"n", .array .int, some .inferred, some (.array [.literal (.int 1) 0] none 0), false,
              0⟩, .everyone, false, ⟨true, false⟩⟩],
            [⟨⟨"f", [], .int, [.returnValue (some (.literal (.int 1) 0)) 0], 0⟩, .everyone, false,
              .plain⟩], none, 0⟩,
          .branch (.var "a" 0) (.whileLoop (.var "b" 0) (.breakLoop 0) 0)
            (some (.switch (.var "c" 0)
              [⟨.literal (.int 2) 0, [.expression (.call "d" [] 0) 0], 0⟩] (some []) 0)) 0] :=
  program_of_printed
    [⟨.keyword .kwClass, 1⟩, ⟨.name "A", 1⟩, ⟨.symbol .leftBrace, 1⟩, ⟨.keyword .kwFunc, 1⟩,
      ⟨.name "f", 1⟩, ⟨.symbol .leftParen, 1⟩, ⟨.symbol .rightParen, 1⟩, ⟨.symbol .colon, 1⟩,
      ⟨.name "int", 1⟩, ⟨.symbol .fatArrow, 1⟩, ⟨.int 1, 1⟩, ⟨.symbol .semicolon, 1⟩,
      ⟨.keyword .kwLet, 1⟩, ⟨.name "n", 1⟩, ⟨.symbol .colon, 1⟩, ⟨.name "int", 1⟩,
      ⟨.symbol .leftBracket, 1⟩, ⟨.int 0, 1⟩, ⟨.symbol .rightBracket, 1⟩, ⟨.symbol .leftParen, 1⟩,
      ⟨.keyword .kwGetter, 1⟩, ⟨.symbol .rightParen, 1⟩, ⟨.symbol .assign, 1⟩,
      ⟨.symbol .leftBracket, 1⟩, ⟨.int 1, 1⟩, ⟨.symbol .rightBracket, 1⟩, ⟨.symbol .semicolon, 1⟩,
      ⟨.symbol .rightBrace, 1⟩, ⟨.keyword .kwIf, 1⟩, ⟨.symbol .leftParen, 1⟩, ⟨.name "a", 1⟩,
      ⟨.symbol .rightParen, 1⟩, ⟨.keyword .kwWhile, 1⟩, ⟨.symbol .leftParen, 1⟩, ⟨.name "b", 1⟩,
      ⟨.symbol .rightParen, 1⟩, ⟨.keyword .kwBreak, 1⟩, ⟨.symbol .semicolon, 1⟩,
      ⟨.keyword .kwElse, 1⟩, ⟨.keyword .kwSwitch, 1⟩, ⟨.symbol .leftParen, 1⟩, ⟨.name "c", 1⟩,
      ⟨.symbol .rightParen, 1⟩, ⟨.symbol .leftBrace, 1⟩, ⟨.keyword .kwDefault, 1⟩,
      ⟨.symbol .colon, 1⟩, ⟨.keyword .kwCase, 1⟩, ⟨.int 2, 1⟩, ⟨.symbol .colon, 1⟩, ⟨.name "d", 1⟩,
      ⟨.symbol .leftParen, 1⟩, ⟨.symbol .rightParen, 1⟩, ⟨.symbol .semicolon, 1⟩,
      ⟨.symbol .rightBrace, 1⟩]
    _
    [.classType ⟨"A", false, [],
        [⟨⟨"n", .array .int, some .inferred, some (.array [.literal (.int 1) 1] none 1), false, 1⟩,
          .everyone, false, ⟨true, false⟩⟩],
        [⟨⟨"f", [], .int, [.returnValue (some (.literal (.int 1) 1)) 1], 1⟩, .everyone, false,
          .plain⟩], none, 1⟩,
      .branch (.var "a" 1) (.whileLoop (.var "b" 1) (.breakLoop 1) 1)
        (some (.switch (.var "c" 1)
          [⟨.literal (.int 2) 1, [.expression (.call "d" [] 1) 1], 1⟩] (some []) 1)) 1]
    rfl rfl

end ClassScript
