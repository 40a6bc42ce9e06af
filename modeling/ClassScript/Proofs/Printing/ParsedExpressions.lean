import ClassScript.Proofs.Precedence.Types

/-!
# Expressions that the grammar gives

Whatever the tokens are, an expression read from them is well formed: its types can be written, and
an array literal with elements has an element type only if that begins with the name of a primitive
type. The compound assignments and the steps `++` and `--` repeat their target, which is well formed
because it was an expression.
-/

namespace ClassScript

theorem wellFormedAll_iff {es : List Expr} : WellFormedAll es ↔ ∀ e ∈ es, e.WellFormed := by
  induction es with
  | nil => exact ⟨nofun, fun _ => trivial⟩
  | cons e es ih => rw [WellFormedAll, ih, List.forall_mem_cons]

theorem Expr.wellFormed_target? {e : Expr} {target : Target} (he : e.WellFormed)
    (h : e.target? = some target) : target.WellFormed := by
  cases e <;> cases h <;> exact he

/-! ## What parsers give -/

namespace Grammar

variable {α β : Type}

theorem itemsUntil_yields {item : Parser α} {closing : Symbol} {P : α → Prop}
    (h : Yields item P) (fuel : Nat) :
    Yields (itemsUntil item closing fuel) fun xs => ∀ x ∈ xs, P x := by
  induction fuel with
  | zero => exact .outOfFuel
  | succ fuel ih =>
      refine .bind h fun first hfirst => .after fun found => ?_
      split
      · split
        · exact .bind ih fun rest hrest => .pure (List.forall_mem_cons.mpr ⟨hfirst, hrest⟩)
        · split
          · exact .pure (List.forall_mem_singleton.mpr hfirst)
          · exact .fail
      · exact .fail
      · exact .fail

theorem commaSeparated_yields {item : Parser α} {closing : Symbol} {P : α → Prop}
    (h : Yields item P) : Yields (commaSeparated item closing) fun xs => ∀ x ∈ xs, P x := by
  refine .after fun closed => ?_
  split
  · exact .pure nofun
  · exact .after fun fuel => itemsUntil_yields h fuel

theorem type_yields : Yields type Ty.Producible := fun ts _ rest h => ⟨ts, rest, h⟩

/-! ## Types that begin with a primitive type -/

theorem identifier_gives {what word : String} {ts rest : List Lexeme}
    (h : identifier what ts = .ok word rest) : ∃ line, ts = ⟨.name word, line⟩ :: rest := by
  cases ts with
  | nil => cases h
  | cons lexeme ts =>
      obtain ⟨token, line⟩ := lexeme
      cases token <;> cases h
      exact ⟨line, rfl⟩

/-- A path is made of names among the tokens. -/
theorem pathRest_gives {path name : String} {ts rest : List Lexeme}
    (h : pathRest path ts = .ok name rest) :
    ∃ words : List String, (∀ word ∈ words, ∃ line, ⟨.name word, line⟩ ∈ ts) ∧
      name = words.foldl (fun p word => p ++ "." ++ word) path := by
  fun_induction pathRest path ts with
  | case1 path _ word line rest ih =>
      obtain ⟨words, hwords, hname⟩ := ih h
      refine ⟨word :: words, List.forall_mem_cons.mpr ⟨⟨line, by simp⟩, fun w hw => ?_⟩, hname⟩
      obtain ⟨line', hmem⟩ := hwords w hw
      exact ⟨line', List.mem_cons_of_mem _ (List.mem_cons_of_mem _ hmem)⟩
  | case2 path _ rest hother =>
      obtain ⟨line, rfl⟩ := identifier_gives h
      exact absurd rfl (hother _ _ _)
  | case3 path rest =>
      cases h
      exact ⟨[], nofun, rfl⟩

end Grammar

namespace Ty

theorem path_base : ∀ ty : Ty, ty.base.path = ty.path
  | .array element => path_base element
  | .int | .float | .double | .decimal | .bool | .string | .char | .void | .named _ => rfl

theorem ofName_of_dot {name : String} (h : '.' ∈ name.toList) : ofName name = .named name := by
  unfold ofName
  split
  all_goals first | rfl | exact absurd h (by decide)

theorem startsPrimitive_ofName {word : String} (h : isPrimitiveName word = true) :
    (ofName word).StartsPrimitive := by
  have hall : ∀ word ∈ primitiveNames, (ofName word).path.head?.any isPrimitiveName = true := by
    decide
  have hany := hall word (List.contains_iff_mem.mp h)
  cases hhead : (ofName word).path.head? with
  | none =>
      rw [hhead] at hany
      cases hany
  | some first =>
      rw [hhead] at hany
      exact ⟨first, hhead, hany⟩

theorem not_dot_mem_of_isPrimitiveName {word : String} (h : isPrimitiveName word = true) :
    '.' ∉ word.toList := by
  have hall : ∀ word ∈ primitiveNames, '.' ∉ word.toList := by decide
  exact hall word (List.contains_iff_mem.mp h)

end Ty

namespace Grammar

/-- Whether a path begins with a primitive type can be told from its first word. -/
theorem startsPrimitive_of_type {word : String} {line : Nat} {ts rest : List Lexeme} {ty : Ty}
    (hword : Ty.isPrimitiveName word = true)
    (h : type (⟨.name word, line⟩ :: ts) = .ok ty rest) : ty.StartsPrimitive := by
  obtain ⟨name, ts₁, hpath, hsuffix⟩ := Action.ok_of_bind h
  have hrest : pathRest word ts = .ok name ts₁ := hpath
  obtain ⟨words, -, hname⟩ := pathRest_gives hrest
  rw [Ty.StartsPrimitive, ← ty.path_base, Ty.base_of_arraySuffix hsuffix, Ty.base_ofName]
  cases words with
  | nil =>
      subst hname
      exact Ty.startsPrimitive_ofName hword
  | cons next words =>
      have htext : ∃ tail, name.toList = word.toList ++ '.' :: tail := by
        rw [hname, toList_foldl_words, List.map_cons, List.intercalate_cons_cons]
        exact ⟨_, List.append_assoc _ _ _⟩
      obtain ⟨tail, htext⟩ := htext
      have hdot : '.' ∈ name.toList := by
        rw [htext]
        exact List.mem_append_right _ List.mem_cons_self
      refine ⟨word, ?_, hword⟩
      rw [Ty.ofName_of_dot hdot]
      change word ∈ ((name.toList.splitOn '.').map String.ofList).head?
      rw [htext, List.splitOn_append_cons_self_of_not_mem
        (Ty.not_dot_mem_of_isPrimitiveName hword), List.map_cons, String.ofList_toList]
      rfl

/-! ## Primary expressions and suffixes -/

variable {expression : Parser Expr} (h : Yields expression Expr.WellFormed)

include h

theorem expressions_yield (closing : Symbol) :
    Yields (commaSeparated expression closing) WellFormedAll :=
  (commaSeparated_yields h).mono fun _ hes => wellFormedAll_iff.mpr hes

theorem arrayLiteral_yields (line : Nat) :
    Yields (arrayLiteral expression line) Expr.WellFormed := by
  refine .bind (expressions_yield h _) fun elements helements ts e rest heq => ?_
  change (if elementTypeFollows elements ts then _ else _ : Parser Expr) ts = _ at heq
  split at heq
  case isTrue hfollows =>
    unfold elementTypeFollows at hfollows
    split at hfollows
    case h_1 word line₂ ts₁ =>
      obtain ⟨ty, ts₂, hty, heq⟩ := Action.ok_of_bind (x := type) heq
      cases heq
      refine ⟨helements, type_yields hty, ?_⟩
      rw [Bool.or_eq_true] at hfollows
      exact hfollows.imp List.isEmpty_iff.mp fun hword => startsPrimitive_of_type hword hty
    case h_2 => cases hfollows
  case isFalse =>
    cases heq
    exact helements

theorem named_yields (name : String) (line : Nat) :
    Yields (named expression name line) Expr.WellFormed := by
  refine .after fun called => ?_
  split
  · exact .bind (expressions_yield h _) fun _ hes => .pure hes
  · exact .pure trivial

theorem creation_yields (line : Nat) : Yields (creation expression line) Expr.WellFormed :=
  .after fun _ => .after fun _ => .bind (expressions_yield h _) fun _ hes => .pure hes

theorem parenthesized_yields : Yields (parenthesized expression) Expr.WellFormed :=
  .bind h fun _ he => .after fun _ => .pure he

theorem primary_yields : Yields (primary expression) Expr.WellFormed := by
  refine .after fun found => ?_
  split
  · exact named_yields h _ _
  · exact .pure trivial
  · exact creation_yields h _
  · exact parenthesized_yields h
  · exact arrayLiteral_yields h _
  · split
    · exact .pure trivial
    · exact .fail
  · exact .fail

theorem memberOf_yields {object : Expr} (hobject : object.WellFormed) (line : Nat) :
    Yields (memberOf expression object line) Expr.WellFormed := by
  refine .after fun name => .after fun called => ?_
  split
  · exact .bind (expressions_yield h _) fun _ hes => .pure ⟨hobject, hes⟩
  · exact .pure hobject

theorem elementOf_yields {array : Expr} (harray : array.WellFormed) (line : Nat) :
    Yields (elementOf expression array line) Expr.WellFormed :=
  .bind h fun _ hposition => .after fun _ => .pure ⟨harray, hposition⟩

omit h in
theorem targetOf_yields {e : Expr} (he : e.WellFormed) (line : Nat) :
    Yields (targetOf e line) Target.WellFormed := by
  unfold targetOf
  split
  next target htarget => exact .pure (Expr.wellFormed_target? he htarget)
  · exact .fail

omit h in
/-- The target stands twice in the assignment. -/
theorem wellFormed_updated {target : Target} {operand : Expr} (htarget : target.WellFormed)
    (hoperand : operand.WellFormed) (op : BinaryOp) (line : Nat) :
    (updated target op operand line).WellFormed :=
  ⟨htarget, Target.wellFormed_toExpr htarget, hoperand⟩

omit h in
theorem wellFormed_build {target : Target} {value : Expr} (htarget : target.WellFormed)
    (hvalue : value.WellFormed) (op : AssignOp) (line : Nat) :
    (op.build target value line).WellFormed := by
  cases op with
  | replace => exact ⟨htarget, hvalue⟩
  | combine op => exact wellFormed_updated htarget hvalue op line

omit h in
theorem stepped_yields {operand : Expr} (he : operand.WellFormed) (op : BinaryOp) (line : Nat) :
    Yields (stepped operand op line) Expr.WellFormed := by
  have hone : (Expr.literal (.int 1) line).WellFormed := trivial
  exact .bind (targetOf_yields he line) fun _ htarget =>
    .pure (wellFormed_updated htarget hone op line)

theorem suffix?_yields {e : Expr} (he : e.WellFormed) :
    Yields (suffix? expression e) fun e? => ∀ e' ∈ e?, e'.WellFormed := by
  refine .after fun found => ?_
  split
  · exact .after fun _ => .bind (memberOf_yields h he _) fun _ he' => .some he'
  · exact .after fun _ => .bind (elementOf_yields h he _) fun _ he' => .some he'
  · exact .after fun _ => .bind (stepped_yields he _ _) fun _ he' => .some he'
  · exact .after fun _ => .bind (stepped_yields he _ _) fun _ he' => .some he'
  · exact .pure nofun

theorem suffixes_yields (fuel : Nat) {e : Expr} (he : e.WellFormed) :
    Yields (suffixes expression fuel e) Expr.WellFormed := by
  induction fuel generalizing e with
  | zero => exact .outOfFuel
  | succ fuel ih =>
      refine .bind (suffix?_yields h he) fun e? he? => ?_
      split
      · exact ih (he? _ rfl)
      · exact .pure he

/-! ## Operators -/

omit h in
theorem applyLeading_yields {operand : Expr} (he : operand.WellFormed)
    (ops : List (LeadingOp × Nat)) : Yields (applyLeading operand ops) Expr.WellFormed := by
  induction ops with
  | nil => exact .pure he
  | cons op ops ih =>
      refine .bind ih fun e' he' => ?_
      cases op.1 with
      | unary op => exact .pure he'
      | step op => exact stepped_yields he' op _

theorem unary_yields (fuel : Nat) : Yields (unary expression fuel) Expr.WellFormed := by
  refine .after fun ops => .bind (primary_yields h) fun first hfirst => ?_
  exact .bind (suffixes_yields h fuel hfirst) fun operand hoperand =>
    applyLeading_yields hoperand ops

omit h in
theorem level_rest_yields {operand : Parser Expr} (hoperand : Yields operand Expr.WellFormed)
    (level : Level) (fuel : Nat) {left : Expr} (hleft : left.WellFormed) :
    Yields (level.rest operand fuel left) Expr.WellFormed := by
  induction fuel generalizing left with
  | zero => exact .outOfFuel
  | succ fuel ih =>
      have hextend : Yields (level.extend? operand left) fun e? => ∀ e ∈ e?, e.WellFormed := by
        refine .after fun found => ?_
        split
        · split
          · exact .after fun _ => .bind hoperand fun _ hright => .some ⟨hleft, hright⟩
          · exact .after fun _ => .bind type_yields fun _ hty => .some ⟨hleft, hty⟩
          · exact .pure nofun
        · exact .pure nofun
      refine .bind hextend fun e? he? => ?_
      split
      · exact ih (he? _ rfl)
      · exact .pure hleft

omit h in
theorem binary_yields {operand : Parser Expr} (hoperand : Yields operand Expr.WellFormed)
    (fuel : Nat) (levels : List Level) : Yields (binary operand fuel levels) Expr.WellFormed := by
  induction levels with
  | nil => exact hoperand
  | cons level tighter ih => exact .bind ih fun left hleft => level_rest_yields ih level fuel hleft

theorem conditional_yields (fuel : Nat) :
    Yields (conditional expression fuel) Expr.WellFormed := by
  refine .bind (binary_yields (unary_yields h fuel) fuel levels) fun condition hcondition => ?_
  refine .after fun found => ?_
  split
  · refine .after fun _ => .bind h fun onTrue htrue => .after fun _ => ?_
    exact .bind h fun onFalse hfalse => .pure ⟨hcondition, htrue, hfalse⟩
  · exact .pure hcondition

theorem assignment_yields (fuel : Nat) : Yields (assignment expression fuel) Expr.WellFormed := by
  refine .bind (conditional_yields h fuel) fun left hleft => .after fun found => ?_
  split
  · split
    · refine .after fun _ => .bind (targetOf_yields hleft _) fun target htarget => ?_
      refine .bind h fun value hvalue => ?_
      exact .pure (wellFormed_build htarget hvalue _ _)
    · exact .pure hleft
  · exact .pure hleft

omit h

/-! ## Whole expressions -/

theorem expressionAt_yields (n : Nat) : Yields (expressionAt n) Expr.WellFormed := by
  induction n with
  | zero => exact .outOfFuel
  | succ n ih => exact assignment_yields ih n

/-- Every expression that is read is well formed. -/
theorem expression_yields : Yields Grammar.expression Expr.WellFormed :=
  fun ts _ _ heq => expressionAt_yields (ts.length + 1) heq

end Grammar

end ClassScript
