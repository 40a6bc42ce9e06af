import ClassScript.Proofs.Conformance
import ClassScript.Proofs.Jumps.Placement

/-!
# Orderly steps

An action is orderly if in every well-placed session it leaves a well-placed one and fails for
another reason than an escaped jump. The judgement `Orderly` speaks of two actions at once: the
second is the same thing as run by another interpreter, and must do the same wherever the first is
run. Here are its rules, and the steps of evaluation that run no code.
-/

namespace ClassScript

/-- Nothing else keeps a scope from being left. -/
theorem ScopeStack.exit_error {scopes : ScopeStack} {cause : Cause}
    (h : scopes.exit = .error cause) : cause = .scopeUnderflow := by
  unfold exit at h
  split at h <;> cases h
  rfl

namespace Eval

/-- In every well-placed session `y` does what `x` does: it leaves a well-placed session, a value
satisfies `Q`, and a fault is no escaped jump. -/
def Orderly {α : Type} (x y : Eval α) (Q : α → Prop) : Prop :=
  ∀ s : Session, s.WellPlaced → y s = x s ∧
    (x s).Ends (fun a s' => s'.WellPlaced ∧ Q a)
      fun fault s' => s'.WellPlaced ∧ fault.cause.isEscape = false

/-- The two actions are orderly, whatever value they give. -/
abbrev Tame {α : Type} (x y : Eval α) : Prop := Orderly x y fun _ => True

/-- What is known of a result that was caught. -/
def Settled {α : Type} (Q : α → Prop) : Except Fault α → Prop
  | .ok a => Q a
  | .error fault => fault.cause.isEscape = false

namespace Orderly

variable {α β : Type} {x y : Eval α} {f g : α → Eval β} {Q : α → Prop} {R : β → Prop}

/-! ## Rules -/

protected theorem pure {a : α} (h : Q a) : Orderly (Pure.pure a) (Pure.pure a) Q :=
  fun _ hs => ⟨rfl, hs, h⟩

protected theorem bind (hx : Orderly x y Q) (hf : ∀ a, Q a → Orderly (f a) (g a) R) :
    Orderly (x >>= f) (y >>= g) R := by
  intro s hs
  obtain ⟨heq, hends⟩ := hx s hs
  cases hrun : x s with
  | ok a s' =>
      rw [hrun] at heq hends
      rw [Action.bind_of_ok hrun, Action.bind_of_ok heq]
      exact hf a hends.2 s' hends.1
  | error fault s' =>
      rw [hrun] at heq hends
      rw [Action.bind_of_error hrun, Action.bind_of_error heq]
      exact ⟨rfl, hends⟩
  | exhausted =>
      rw [hrun] at heq
      rw [Action.bind_of_exhausted hrun, Action.bind_of_exhausted heq]
      exact ⟨rfl, trivial⟩

theorem outOfFuel : Orderly (Action.outOfFuel : Eval α) Action.outOfFuel Q :=
  fun _ _ => ⟨rfl, trivial⟩

theorem fail {fault : Fault} (h : fault.cause.isEscape = false) :
    Orderly (Action.fail fault : Eval α) (Action.fail fault) Q :=
  fun _ hs => ⟨rfl, hs, h⟩

theorem raise {cause : Cause} (h : cause.isEscape = false) (line : Nat) :
    Orderly (Eval.raise cause line : Eval α) (Eval.raise cause line) Q :=
  fail h

theorem ask {question : Session → Except Cause α} (line : Nat)
    (hok : ∀ {s : Session} {a : α}, s.WellPlaced → question s = .ok a → Q a)
    (herror : ∀ {s : Session} {cause : Cause}, s.WellPlaced → question s = .error cause →
      cause.isEscape = false) :
    Orderly (Eval.ask line question) (Eval.ask line question) Q := by
  intro s hs
  refine ⟨rfl, ?_⟩
  rw [Eval.ask]
  cases h : question s with
  | ok a => exact ⟨hs, hok hs h⟩
  | error cause => exact ⟨hs, herror hs h⟩

/-- A question of which only the answer is used. -/
theorem query {question : Session → Except Cause α} {P : Session → α → Prop} (line : Nat)
    (h : ∀ s, Answers (P s) (question s)) :
    Tame (Eval.ask line question) (Eval.ask line question) :=
  ask line (fun _ _ => trivial) fun _ hq =>
    Cause.not_isEscape_of_isReason ((h _).isReason_of_error hq)

theorem queryStore {question : Store → Except Cause α} {P : Store → α → Prop} (line : Nat)
    (h : ∀ st, Answers (P st) (question st)) :
    Tame (Eval.askStore line question) (Eval.askStore line question) :=
  query line fun s => h s.store

theorem read {look : Session → α} (hQ : ∀ {s : Session}, s.WellPlaced → Q (look s)) :
    Orderly (Action.read look) (Action.read look) Q :=
  fun _ hs => ⟨rfl, hs, hQ hs⟩

/-- A part of the session about which nothing need be known. -/
theorem look {look : Session → α} : Tame (Action.read look) (Action.read look) :=
  read fun _ => trivial

theorem update {change : Session → Session}
    (h : ∀ {s : Session}, s.WellPlaced → (change s).WellPlaced) :
    Tame (Action.update change) (Action.update change) :=
  fun _ hs => ⟨rfl, h hs, trivial⟩

theorem updateStore {change : Store → Store}
    (h : ∀ {st : Store}, st.WellPlaced → (change st).WellPlaced) :
    Tame (Eval.updateStore change) (Eval.updateStore change) :=
  update fun hs => hs.with (h hs.classes) _ _ _ _

theorem allocate {change : Store → α × Store}
    (h : ∀ {st : Store}, st.WellPlaced → (change st).2.WellPlaced) :
    Tame (Eval.allocate change) (Eval.allocate change) :=
  fun _ hs => ⟨rfl, hs.with (h hs.classes) _ _ _ _, trivial⟩

theorem attempt (hx : Orderly x y Q) :
    Orderly (Action.attempt x) (Action.attempt y) (Settled Q) := by
  intro s hs
  obtain ⟨heq, hends⟩ := hx s hs
  cases hrun : x s with
  | ok a s' =>
      rw [hrun] at heq hends
      rw [Action.attempt_of_ok hrun, Action.attempt_of_ok heq]
      exact ⟨rfl, hends⟩
  | error fault s' =>
      rw [hrun] at heq hends
      rw [Action.attempt_of_error hrun, Action.attempt_of_error heq]
      exact ⟨rfl, hends⟩
  | exhausted =>
      rw [hrun] at heq
      rw [Action.attempt_of_exhausted hrun, Action.attempt_of_exhausted heq]
      exact ⟨rfl, trivial⟩

theorem ofExcept {result : Except Fault α} (h : Settled Q result) :
    Orderly (Action.ofExcept result) (Action.ofExcept result) Q := by
  intro s hs
  cases result with
  | ok a => exact ⟨rfl, hs, h⟩
  | error fault => exact ⟨rfl, hs, h⟩

/-! ## Blocks and calls -/

/-- However the first action ended, the second one follows. -/
theorem thenAlways {after : Eval Unit} (hx : Orderly x y Q) (hafter : Tame after after) :
    Orderly (Eval.thenAlways x after) (Eval.thenAlways y after) Q := by
  refine hx.attempt.bind fun result hresult => ?_
  refine hafter.attempt.bind fun finished hfinished => ?_
  refine (ofExcept hresult).bind fun a ha => ?_
  exact (ofExcept hfinished).bind fun _ _ => .pure ha

theorem exitScope (line : Nat) : Tame (Eval.exitScope line) (Eval.exitScope line) := by
  intro s hs
  refine ⟨rfl, ?_⟩
  unfold Eval.exitScope
  cases hexit : s.scopes.exit with
  | ok scopes => exact ⟨hs.with hs.classes _ _ _ _, trivial⟩
  | error cause =>
      obtain rfl := ScopeStack.exit_error hexit
      exact ⟨hs, rfl⟩

theorem inScope (line : Nat) (hx : Orderly x y Q) :
    Orderly (Eval.inScope line x) (Eval.inScope line y) Q :=
  (update fun hs => hs.with hs.classes _ _ _ _).bind fun _ _ => hx.thenAlways (exitScope line)

theorem exitCall (line : Nat) : Tame (Eval.exitCall line) (Eval.exitCall line) := by
  refine (exitScope line).attempt.bind fun exited hexited => ?_
  refine (update fun hs => hs.with hs.classes _ _ _ _).bind fun _ _ => ?_
  exact ofExcept hexited

theorem withFrame (frame : CallFrame) (line : Nat) (hx : Orderly x y Q) :
    Orderly (Eval.withFrame frame line x) (Eval.withFrame frame line y) Q := by
  refine look.bind fun depth _ => ?_
  split
  · exact raise rfl line
  · refine (update fun hs => hs.with hs.classes _ _ _ _).bind fun _ _ => ?_
    exact hx.thenAlways (exitCall line)

/-! ## Variables, members and the console -/

theorem declareVariable (name : String) (ty : Ty) (v : Value) (isConst : Bool) (line : Nat) :
    Tame (Eval.declareVariable name ty v isConst line)
      (Eval.declareVariable name ty v isConst line) :=
  (query line fun s => s.scopes.declarable_answers s.store name ty v).bind fun _ _ =>
    update fun hs => hs.with hs.classes _ _ _ _

theorem bindParameters (line : Nat) (params : List Param) (args : List Value) :
    Tame (ClassScript.bindParameters line params args)
      (ClassScript.bindParameters line params args) := by
  induction params generalizing args with
  | nil => exact .pure trivial
  | cons param params ih =>
      cases args with
      | nil => exact .pure trivial
      | cons arg args =>
          exact (declareVariable param.name param.ty arg false line).bind fun _ _ => ih args

theorem assignVariable (name : String) (v : Value) (line : Nat) :
    Tame (Eval.assignVariable name v line) (Eval.assignVariable name v line) :=
  (query line fun s => s.scopes.assignable_answers s.store name v).bind fun _ _ =>
    update fun hs => hs.with hs.classes _ _ _ _

theorem assignItem (target : Value) (index : Int64) (v : Value) (line : Nat) :
    Tame (Eval.assignItem target index v line) (Eval.assignItem target index v line) :=
  (queryStore line fun st => st.itemTarget_answers target index v).bind fun _ _ =>
    updateStore fun h => h

theorem putField (id : ObjectId) (name : String) (v : Value) :
    Tame (Eval.updateStore fun st => st.putField id name v)
      (Eval.updateStore fun st => st.putField id name v) :=
  updateStore fun h => h

theorem putStatic (cls : ClassId) (name : String) (v : Value) :
    Tame (Eval.updateStore fun st => st.putStatic cls name v)
      (Eval.updateStore fun st => st.putStatic cls name v) :=
  updateStore fun h => Store.coded_putStatic h cls name v

theorem writeStatic (cls : ClassId) (name : String) (v : Value) (line : Nat) :
    Tame (Eval.writeStatic cls name v line) (Eval.writeStatic cls name v line) :=
  (query line fun s => s.staticTarget_answers cls name v).bind fun holder _ =>
    putStatic holder name v

theorem writeField (id : ObjectId) (name : String) (v : Value) (line : Nat) :
    Tame (Eval.writeField id name v line) (Eval.writeField id name v line) :=
  (query line fun s => s.checkFieldWrite_answers id name v).bind fun _ _ => putField id name v

theorem writeName (name : String) (v : Value) (line : Nat) :
    Tame (Eval.writeName name v line) (Eval.writeName name v line) := by
  refine look.bind fun declared _ => ?_
  split
  · exact assignVariable name v line
  refine look.bind fun member _ => ?_
  split
  next => exact raise rfl line
  next scope field =>
      split
      · exact writeStatic _ name v line
      · exact (query line fun s => s.receiver_answers scope name).bind fun id _ =>
          writeField id name v line

theorem readLine (line : Nat) : Tame (Eval.readLine line) (Eval.readLine line) := by
  have hread : Tame (Action.modifyGet fun s : Session =>
      (s.console.readLine.1, { s with console := s.console.readLine.2 })) _ :=
    fun s hs => ⟨rfl, hs.with hs.classes _ _ _ _, trivial⟩
  refine hread.bind fun input _ => ?_
  cases input with
  | some text => exact .pure trivial
  | none => exact raise rfl line

theorem builtin (b : Builtin) (name : String) (args : List Value) (line : Nat) :
    Tame (b.call name args line) (b.call name args line) := by
  unfold Builtin.call
  split
  · cases b with
    | print | println =>
        refine look.bind fun text _ => ?_
        exact (update fun hs => hs.with hs.classes _ _ _ _).bind fun _ _ => .pure trivial
    | read => exact (readLine line).bind fun _ _ => .pure trivial
    | str => exact look.bind fun _ _ => .pure trivial
  · exact raise rfl line

/-! ## Declarations -/

theorem declareFunction {decl : FunctionDecl} (h : decl.WellPlaced) :
    Tame (ClassScript.declareFunction decl) (ClassScript.declareFunction decl) := by
  refine (query decl.line fun s => s.checkFunction_answers decl).bind fun _ _ =>
    update fun {s} hs => ⟨fun {name found} hfind => ?_, hs.classes, hs.modules⟩
  rw [Table.find?_insert] at hfind
  split at hfind
  · obtain rfl := Option.some.inj hfind
    exact h
  · exact hs.functions hfind

theorem declareClassInfo {info : ClassInfo} (h : info.WellPlaced) (line : Nat) :
    Tame (ClassScript.declareClassInfo info line) (ClassScript.declareClassInfo info line) :=
  (queryStore line fun st => st.checkClassName_answers info.name).bind fun _ _ =>
    allocate fun hst => Store.coded_enrollClass hst h

/-- Describing a class only looks at the store. -/
theorem describeClass {decl : ClassDecl} (h : decl.WellPlaced) :
    Orderly (fun s => (Action.ofExcept (ClassInfo.ofDecl s.store decl) : Eval ClassInfo) s)
      (fun s => (Action.ofExcept (ClassInfo.ofDecl s.store decl) : Eval ClassInfo) s)
      ClassInfo.WellPlaced := by
  intro s hs
  refine ⟨rfl, ?_⟩
  change ((Action.ofExcept (ClassInfo.ofDecl s.store decl) : Eval ClassInfo) s).Ends _ _
  cases hok : ClassInfo.ofDecl s.store decl with
  | ok info => exact ⟨hs, .ofDecl hs.classes h hok⟩
  | error fault => exact ⟨hs, Cause.not_isEscape_of_isReason (ClassInfo.ofDecl_isReason hok)⟩

theorem declareInterface (decl : InterfaceDecl) :
    Tame (ClassScript.declareInterface decl) (ClassScript.declareInterface decl) :=
  (declareClassInfo (.ofInterface trivial decl) decl.line).bind fun _ _ => .pure trivial

theorem declareEnum (decl : EnumDecl) :
    Tame (ClassScript.declareEnum decl) (ClassScript.declareEnum decl) := by
  have hdescribe : Orderly (Eval.ask decl.line fun _ => ClassInfo.ofEnum decl) _
      ClassInfo.WellPlaced :=
    ask decl.line (fun _ hok => .ofEnum hok) fun _ herror =>
      Cause.not_isEscape_of_isReason ((ClassInfo.addMembers_answers _ _ _).isReason_of_error herror)
  exact hdescribe.bind fun _ hinfo =>
    (declareClassInfo hinfo decl.line).bind fun _ _ => .pure trivial

end Orderly

end Eval

end ClassScript
