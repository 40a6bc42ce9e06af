import ClassScript.Grammar.Declaration
import ClassScript.Proofs.Progress.Expressions

/-!
# Progress in declarations

Every declaration takes at least one token after the word that introduces it, and so do a dimension,
a member of a class, a signature and a member of an enumeration; these are the items of the loops
here.
-/

namespace ClassScript.Grammar

variable {n : Nat}

/-! ## Variables -/

theorem dimension_proceeds : Proceeds n always dimension dimension := by
  refine (takeIf_proceeds _).ifTaken (.pure _) ?_
  refine expression_proceeds.next fun size => (expect_proceeds _ _).after fun _ => ?_
  split
  next => exact .pure _
  next => exact .pure _

theorem dimensions_proceeds : ∀ {n k k' : Nat}, n ≤ k → n ≤ k' → ∀ ty length,
    Proceeds n perhaps (dimensions k ty length) (dimensions k' ty length)
  | 0, _, _, _, _, _, _ => .zero
  | n + 1, _ + 1, _ + 1, hk, hk', ty, length => by
    have hmore := dimensions_proceeds (Nat.le_of_succ_le_succ hk) (Nat.le_of_succ_le_succ hk')
    refine .peek (fun lexeme => ?_) (.pure _)
    split
    next =>
      refine .skip ((at?_proceeds _).after fun closed => dimension_proceeds.after fun size => ?_)
      split
      next => exact .fail _
      next => exact hmore _ _
    next => exact .of (.pure _)

theorem declaredType_proceeds : Proceeds n always declaredType declaredType :=
  typePath_proceeds.next fun _ => .fuel fun k _ =>
    dimensions_proceeds (Nat.le_refl k) (Nat.le_refl k) _ _

theorem initializer_proceeds : Proceeds n perhaps initializer initializer :=
  (takeIf_proceeds _).ifTaken (expression_proceeds.after fun _ => .pure _) (.pure _)

theorem checked_proceeds (decl : VariableDecl) :
    Proceeds n perhaps (checked decl) (checked decl) := by
  unfold checked
  split
  next => exact .fail _
  next => exact .pure _

theorem variableDecl_proceeds (isConst : Bool) (line : Nat) :
    Proceeds n always (variableDecl isConst line) (variableDecl isConst line) := by
  refine (identifier_proceeds _).next fun name => (expect_proceeds _ _).after fun _ => ?_
  refine declaredType_proceeds.after fun ⟨ty, length⟩ => ?_
  exact initializer_proceeds.after fun _ => checked_proceeds _

section

variable {block block' : Parser (List Statement)}

/-! ## Functions -/

theorem functionBody_proceeds (hblock : Proceeds n always block block') (returnType : Ty) :
    Proceeds n always (functionBody block returnType) (functionBody block' returnType) := by
  refine (takeIf_proceeds _).ifTaken ?_ hblock
  refine peekLine_proceeds.after fun line => expression_proceeds.after fun value => ?_
  refine (expect_proceeds _ _).after fun _ => ?_
  split
  next => exact .pure _
  next => exact .pure _

theorem function_proceeds (hblock : Proceeds n always block block') (line : Nat) :
    Proceeds n always (function block line) (function block' line) := by
  have hblock : Proceeds (n - 1) always block block' := hblock.anti (Nat.sub_le n 1)
  refine (identifier_proceeds _).next fun name => params_proceeds.after fun params => ?_
  refine returnType_proceeds.after fun returnType => ?_
  exact (functionBody_proceeds hblock _).after fun _ => .pure _

/-! ## Classes -/

theorem accessor_proceeds : Proceeds n always accessor accessor := by
  refine next?_proceeds.ifSome (fun lexeme => ?_) (.fail _)
  split
  next => exact .pure _
  next => exact .pure _
  next => exact .fail _
  next => exact .fail _

theorem accessors_proceeds : Proceeds n perhaps accessors accessors :=
  (takeIf_proceeds _).ifTaken
    ((commaSeparated_proceeds accessor_proceeds _).after fun _ => .pure _) (.pure _)

theorem access_proceeds : Proceeds n perhaps access access :=
  (takeIf_proceeds _).ifTaken (.pure _) ((takeIf_proceeds _).after fun _ => .pure _)

theorem methodModifier_proceeds : Proceeds n perhaps methodModifier methodModifier :=
  (takeIf_proceeds _).ifTaken (.pure _) ((takeIf_proceeds _).ifTaken (.pure _) (.pure _))

theorem modifiers_proceeds : Proceeds n perhaps modifiers modifiers :=
  access_proceeds.after fun _ => (takeIf_proceeds _).after fun _ =>
    methodModifier_proceeds.after fun _ => .pure _

theorem field_proceeds (mods : Modifiers) (isConst : Bool) (line : Nat) :
    Proceeds n always (field mods isConst line) (field mods isConst line) := by
  refine (identifier_proceeds _).next fun name => (expect_proceeds _ _).after fun _ => ?_
  refine declaredType_proceeds.after fun ⟨ty, length⟩ => accessors_proceeds.after fun _ => ?_
  refine initializer_proceeds.after fun _ => (checked_proceeds _).after fun decl => ?_
  exact (expect_proceeds _ _).after fun _ => .pure _

theorem parentArguments_proceeds : Proceeds n perhaps parentArguments parentArguments := by
  refine (takeIf_proceeds _).ifTaken ?_ (.pure _)
  refine (expect_proceeds _ _).after fun _ => (expect_proceeds _ _).after fun _ => ?_
  exact (arguments_proceeds expression_proceeds).after fun _ => .pure _

theorem constructorDecl_proceeds (hblock : Proceeds n always block block') (access : Access)
    (line : Nat) :
    Proceeds n always (constructorDecl block access line) (constructorDecl block' access line) := by
  refine params_proceeds.next fun params => parentArguments_proceeds.after fun arguments => ?_
  exact (hblock.anti (Nat.sub_le n 1)).after fun _ => .pure _

theorem member_proceeds (hblock : Proceeds n always block block') (cls : ClassDecl) :
    Proceeds n always (member block cls) (member block' cls) := by
  have hblock : Proceeds (n - 1) always block block' := hblock.anti (Nat.sub_le n 1)
  refine modifiers_proceeds.after fun mods => next?_proceeds.ifSome (fun lexeme => ?_) (.fail _)
  split
  next => exact (function_proceeds hblock _).after fun _ => .pure _
  next => exact (field_proceeds _ _ _).after fun _ => .pure _
  next => exact (field_proceeds _ _ _).after fun _ => .pure _
  next =>
    split
    next => exact .fail _
    next =>
      split
      next => exact .fail _
      next => exact (constructorDecl_proceeds hblock _ _).after fun _ => .pure _
  next => exact .fail _
  next => exact .fail _

theorem members_proceeds : ∀ {n k k' : Nat}, Proceeds n always block block' → n ≤ k → n ≤ k' →
    ∀ cls, Proceeds n always (members block k cls) (members block' k' cls)
  | 0, _, _, _, _, _, _ => .zero
  | n + 1, _ + 1, _ + 1, hblock, hk, hk', cls => by
    have hmore := members_proceeds (hblock.anti (Nat.le_succ n)) (Nat.le_of_succ_le_succ hk)
      (Nat.le_of_succ_le_succ hk')
    refine (takeIf_proceeds _).ifTaken (.pure _) ?_
    exact (member_proceeds hblock cls).next fun cls => (hmore cls).to_perhaps

theorem supertypesFrom_proceeds : ∀ {n k k' : Nat}, n ≤ k → n ≤ k' →
    Proceeds n always (supertypesFrom k) (supertypesFrom k')
  | 0, _, _, _, _ => .zero
  | n + 1, _ + 1, _ + 1, hk, hk' => by
    have hmore := supertypesFrom_proceeds (Nat.le_of_succ_le_succ hk) (Nat.le_of_succ_le_succ hk')
    refine (identifier_proceeds _).next fun name => (takeIf_proceeds _).ifTaken ?_ (.pure _)
    exact (hmore.anti (Nat.sub_le n 1)).after fun _ => .pure _

theorem supertypes_proceeds : Proceeds n perhaps supertypes supertypes := by
  refine (takeIf_proceeds _).ifTaken (.fuel fun k _ => ?_) (.pure _)
  exact (supertypesFrom_proceeds (Nat.le_refl k) (Nat.le_refl k)).to_perhaps

theorem classDecl_proceeds (hblock : Proceeds n always block block') (isStatic : Bool)
    (line : Nat) :
    Proceeds n always (classDecl block isStatic line) (classDecl block' isStatic line) := by
  have hblock : Proceeds (n - 1) always block block' := hblock.anti (Nat.sub_le n 1)
  refine (identifier_proceeds _).next fun name => supertypes_proceeds.after fun supertypes => ?_
  refine (expect_proceeds _ _).after fun _ => .fuel fun k hk => ?_
  exact (members_proceeds (hblock.anti hk) (Nat.le_refl k) (Nat.le_refl k) _).to_perhaps

end

/-! ## Interfaces and enumerations -/

theorem signature_proceeds : Proceeds n always signature signature := by
  refine (takeIf_proceeds _).after fun _ => (expect_proceeds _ _).next fun line => ?_
  refine (identifier_proceeds _).after fun name => params_proceeds.after fun params => ?_
  exact returnType_proceeds.after fun _ => (expect_proceeds _ _).after fun _ => .pure _

theorem signatures_proceeds : ∀ {n k k' : Nat}, n ≤ k → n ≤ k' →
    Proceeds n always (signatures k) (signatures k')
  | 0, _, _, _, _ => .zero
  | n + 1, _ + 1, _ + 1, hk, hk' => by
    have hmore := signatures_proceeds (Nat.le_of_succ_le_succ hk) (Nat.le_of_succ_le_succ hk')
    refine (takeIf_proceeds _).ifTaken (.pure _) ?_
    exact signature_proceeds.next fun first => hmore.after fun _ => .pure _

theorem interfaceDecl_proceeds (line : Nat) :
    Proceeds n always (interfaceDecl line) (interfaceDecl line) := by
  refine (identifier_proceeds _).next fun name => (expect_proceeds _ _).after fun _ => ?_
  refine .fuel fun k _ => ?_
  exact (signatures_proceeds (Nat.le_refl k) (Nat.le_refl k)).after fun _ => .pure _

theorem enumValue_proceeds : Proceeds n always enumValue enumValue := by
  refine (takeIf_proceeds _).after fun negative => ?_
  refine next?_proceeds.ifSome (fun lexeme => ?_) (.fail _)
  split
  next =>
    split
    next =>
      split
      next => exact .pure _
      next => exact .fail _
    next => exact .pure _
  next => exact .fail _
  next => exact .fail _

theorem enumMember_proceeds : Proceeds n always enumMember enumMember :=
  (identifier_proceeds _).next fun _ =>
    (takeIf_proceeds _).ifTaken (enumValue_proceeds.after fun _ => .pure _) (.pure _)

theorem enumDecl_proceeds (line : Nat) : Proceeds n always (enumDecl line) (enumDecl line) := by
  refine (identifier_proceeds _).next fun name => (expect_proceeds _ _).after fun _ => ?_
  exact (commaSeparated_proceeds enumMember_proceeds _).after fun _ => .pure _

end ClassScript.Grammar
