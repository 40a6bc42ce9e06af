import ClassScript.Proofs.Instantiation
import ClassScript.Proofs.Isolation
import ClassScript.Proofs.Results
import ClassScript.Proofs.Scoping.Refinement
import ClassScript.Proofs.Uncatchable

/-!
# Exceptions

What a `try` statement means is said here without the evaluator: how its body ends decides what is
offered to the clauses, the first clause that takes the offer decides the result, and the finalizer
lets this result stand or puts its own in its place. The body, the clause and the finalizer are run
at most once each, each in a block of its own.

A thrown value comes in two forms. In the call that throws it, it is a signal; beyond that call it
is a fault. The clauses cannot tell the two apart, and they get the value itself, so an array or an
object is still the same one.
-/

namespace ClassScript

/-! ## Frames -/

/-- In `t` exactly what is visible in `s` can be seen: every name means the same slot, of the same
type and constancy, and the innermost block has declared nothing itself. -/
structure Session.ShowsAnew (s t : Session) : Prop where
  bindings : t.scopes.current.block.bindings = s.scopes.current.block.bindings
  signatures : t.scopes.current.signatures = s.scopes.current.signatures
  undeclared : ∀ name, t.scopes.isDeclaredHere name = false
  suspended : t.scopes.suspended = s.scopes.suspended
  calls : t.calls = s.calls

namespace ScopeStack

variable {a b : ScopeStack}

theorem Sane.keeps (h : Sane a) (hk : Keeps false a b) : Sane b := by
  have hbindings := hk.bindings rfl
  have hsize := hk.size rfl
  refine ⟨fun name id hid => ?_, ?_⟩
  · rw [slotOf?, hbindings] at hid
    rw [hsize]
    exact h.bounded name id hid
  · rw [hk.base, hsize]
    exact h.base_le

theorem Keeps.signatures_eq (hk : Keeps false a b) :
    b.current.signatures = a.current.signatures := by
  refine (hk.signatures.eq_of_length ?_).symm
  simp [hk.size rfl]

end ScopeStack

namespace Session.Keeps

variable {s t : Session}

theorem closing (h : s.entered.Keeps true t) : s.Keeps false (s.closing t) :=
  ⟨h.scopes.exit_enter.2, h.calls, h.store⟩

theorem showsAnew (h : s.Keeps false t) (hs : s.scopes.Sane) :
    s.ShowsAnew t.entered where
  bindings := h.scopes.bindings rfl
  signatures := h.scopes.signatures_eq
  undeclared := ScopeStack.isDeclaredHere_enter (hs.keeps h.scopes)
  suspended := h.scopes.suspended
  calls := h.calls

end Session.Keeps

/-! ## What is thrown, and who takes it -/

/-- The result throws `v`: as a signal, or as a fault that has crossed a call. -/
inductive Throws (v : Value) : Except Fault Signal → Prop where
  | signal : Throws v (.ok (.thrown v))
  | crossed (line : Nat) : Throws v (.error { cause := .thrown v, line })

/-- What the clauses of a `try` are offered if its body ended with this result: a thrown value, the
message of any other fault that may be caught, or nothing. -/
inductive Offers (st : Store) : Except Fault Signal → Option Value → Prop where
  | thrown {r : Except Fault Signal} {v : Value} (h : Throws v r) : Offers st r (some v)
  | message {fault : Fault} (hcatchable : fault.cause.isCatchable = true)
      (hother : ∀ v, fault.cause ≠ .thrown v) :
      Offers st (.error fault) (some (.string (fault.message st)))
  | uncatchable {fault : Fault} (h : fault.cause.isCatchable = false) :
      Offers st (.error fault) none
  | unthrown {signal : Signal} (h : ∀ v, signal ≠ .thrown v) : Offers st (.ok signal) none

/-- A fault that throws no value is caught as its message. -/
theorem Fault.caughtValue_of_ne {fault : Fault} (hother : ∀ v, fault.cause ≠ .thrown v)
    (st : Store) : fault.caughtValue st = .string (fault.message st) := by
  obtain ⟨cause, line⟩ := fault
  cases cause with
  | thrown v => exact absurd rfl (hother v)
  | _ => rfl

theorem offers_iff {st : Store} {r : Except Fault Signal} {offer : Option Value} :
    Offers st r offer ↔ Interpreter.thrownValue? r st = offer := by
  constructor
  · intro h
    cases h with
    | thrown h => cases h <;> rfl
    | message hcatchable hother =>
        rw [Interpreter.thrownValue?, if_pos hcatchable, Fault.caughtValue_of_ne hother]
    | uncatchable h => rw [Interpreter.thrownValue?, h]; rfl
    | @unthrown signal h =>
        cases signal with
        | thrown v => exact absurd rfl (h v)
        | _ => rfl
  · rintro rfl
    cases r with
    | ok signal =>
        cases signal with
        | thrown v => exact .thrown .signal
        | _ => exact .unthrown fun v h => by cases h
    | error fault =>
        rw [Interpreter.thrownValue?]
        split
        · next hcatchable =>
            by_cases hthrown : ∃ v, fault.cause = .thrown v
            · obtain ⟨v, hv⟩ := hthrown
              obtain ⟨_, line⟩ := fault
              obtain rfl := hv
              exact .thrown (.crossed line)
            · have hother : ∀ v, fault.cause ≠ .thrown v := not_exists.mp hthrown
              rw [Fault.caughtValue_of_ne hother]
              exact .message hcatchable hother
        · next huncatchable => exact .uncatchable (Bool.eq_false_iff.mpr huncatchable)

/-- The clause takes the value: it names no type, or one that accepts the value. -/
def CatchClause.Takes (clause : CatchClause) (st : Store) (v : Value) : Prop :=
  ∀ ty, clause.ty = some ty → st.accepts ty v = true

/-- The session in which the body of a clause starts: the variable of the clause stands for the
value, in a block of its own. -/
def Session.caught (s : Session) (clause : CatchClause) (v : Value) : Session :=
  let slot : Slot := { value := v, ty := clause.ty.getD (s.store.typeOf v), isConst := false }
  { s.entered with scopes := s.entered.scopes.bind clause.name slot }

/-- The clause that is selected if the body ended with `r`, and the value that it is given: the
first clause that takes what is offered. -/
inductive Selects (catches : List CatchClause) (st : Store) (r : Except Fault Signal) :
    Option (CatchClause × Value) → Prop where
  | unoffered (h : Offers st r none) : Selects catches st r none
  | untaken {v : Value} (h : Offers st r (some v))
      (hnone : ∀ clause ∈ catches, ¬ clause.Takes st v) : Selects catches st r none
  | taken {v : Value} {clause : CatchClause} (skipped rest : List CatchClause)
      (h : Offers st r (some v)) (hcatches : catches = skipped ++ clause :: rest)
      (hskipped : ∀ earlier ∈ skipped, ¬ earlier.Takes st v) (htakes : clause.Takes st v) :
      Selects catches st r (some (clause, v))

theorem Selects.takes {catches : List CatchClause} {st : Store} {r : Except Fault Signal}
    {clause : CatchClause} {v : Value} (h : Selects catches st r (some (clause, v))) :
    clause.Takes st v := by
  cases h with
  | taken _ _ _ _ _ htakes => exact htakes

/-- What the clauses make of the result of the body: it stands, or the body of the selected clause
runs. -/
inductive Handles (run : Interpreter) (catches : List CatchClause) (r : Except Fault Signal)
    (s : Session) : Except Fault Signal → Session → Prop where
  | passed (h : Selects catches s.store r none) : Handles run catches r s r s
  | caught {clause : CatchClause} {v : Value} {r' : Except Fault Signal} {t : Session}
      (h : Selects catches s.store r (some (clause, v)))
      (hbody : (run.execAll clause.body).Gives (s.caught clause v) r' t) :
      Handles run catches r s r' (s.closing t)

/-- What the finalizer makes of the result of the body or the clause. It runs whatever the result
is, and a result of its own that is not normal takes the place of the other. -/
inductive Finishes (run : Interpreter) (r : Except Fault Signal) (s : Session) :
    Option (List Statement) → Except Fault Signal → Session → Prop where
  | absent : Finishes run r s none r s
  | normal {statements : List Statement} {t : Session}
      (h : (run.execAll statements).Gives s.entered (.ok .normal) t) :
      Finishes run r s (some statements) r (s.closing t)
  | displaced {statements : List Statement} {r' : Except Fault Signal} {t : Session}
      (h : (run.execAll statements).Gives s.entered r' t) (hjump : r' ≠ .ok .normal) :
      Finishes run r s (some statements) r' (s.closing t)

/-! ## The variable of a clause -/

/-- A value is accepted by its own type. -/
theorem Store.accepts_typeOf (st : Store) (v : Value) : st.accepts (st.typeOf v) v = true := by
  cases v with
  | array id => exact beq_self_eq_true _
  | object id =>
      refine List.any_eq_true.mpr ⟨(st.objectCell id).cls, List.mem_cons_self, ?_⟩
      exact Bool.or_eq_true_iff.mpr (.inl (beq_self_eq_true (st.className _)))
  | _ => rfl

namespace CatchClause.Takes

variable {clause : CatchClause} {s : Session} {v : Value}

theorem accepts {st : Store} (h : clause.Takes st v) :
    st.accepts (clause.ty.getD (st.typeOf v)) v = true := by
  cases hty : clause.ty with
  | none => exact st.accepts_typeOf v
  | some ty => exact h ty hty

/-- The variable of a clause that takes the value can be declared. -/
theorem declareVariable (h : clause.Takes s.store v) (hs : s.scopes.Sane) :
    Eval.declareVariable clause.name (clause.ty.getD (s.store.typeOf v)) v false clause.line
      s.entered = .ok () (s.caught clause v) := by
  have hnew : s.entered.scopes.isDeclaredHere clause.name = false :=
    ScopeStack.isDeclaredHere_enter hs clause.name
  have hdeclarable : s.entered.scopes.declarable s.entered.store clause.name
      (clause.ty.getD (s.store.typeOf v)) v = .ok () := by
    have hcheck : s.entered.store.check (clause.ty.getD (s.store.typeOf v)) v = .ok () :=
      if_pos h.accepts
    rw [ScopeStack.declarable, hcheck, hnew]
    rfl
  exact Action.bind_of_ok (Eval.ask_of_ok hdeclarable clause.line)

end CatchClause.Takes

theorem Session.lookup?_caught {s : Session} (hs : s.scopes.Sane) (clause : CatchClause)
    (v : Value) : (s.caught clause v).scopes.lookup? clause.name = some v := by
  have hentered : s.entered.scopes.Sane := ScopeStack.Sane.enter hs
  rw [ScopeStack.lookup?_eq, Session.caught, ScopeStack.slotNamed?_bind hentered, if_pos rfl]
  rfl

/-! ## The parts of a `try` -/

namespace Interpreter

open Discipline

theorem takes_iff {clause : CatchClause} {st : Store} {v : Value} :
    (match clause.ty with
      | some ty => st.accepts ty v
      | none => true) = true ↔ clause.Takes st v := by
  unfold CatchClause.Takes
  cases clause.ty with
  | none => simp
  | some ty => simp

theorem findClause?_eq_some {catches : List CatchClause} {v : Value} {st : Store}
    {clause : CatchClause} :
    findClause? catches v st = some clause ↔
      clause.Takes st v ∧ ∃ skipped rest, catches = skipped ++ clause :: rest ∧
        ∀ earlier ∈ skipped, ¬ earlier.Takes st v := by
  refine List.find?_eq_some_iff_append.trans (and_congr takes_iff ?_)
  refine exists_congr fun skipped => exists_congr fun rest => and_congr_right fun _ => ?_
  refine forall_congr' fun earlier => imp_congr_right fun _ => ?_
  rw [Bool.not_eq_true', ← Bool.not_eq_true]
  exact not_congr takes_iff

theorem findClause?_eq_none {catches : List CatchClause} {v : Value} {st : Store} :
    findClause? catches v st = none ↔ ∀ clause ∈ catches, ¬ clause.Takes st v :=
  List.find?_eq_none.trans <| forall_congr' fun _ => imp_congr_right fun _ => not_congr takes_iff

/-- The selected clause, computed. -/
def selection? (catches : List CatchClause) (r : Except Fault Signal) (st : Store) :
    Option (CatchClause × Value) := do
  let v ← thrownValue? r st
  let clause ← findClause? catches v st
  return (clause, v)

theorem selects_iff {catches : List CatchClause} {st : Store} {r : Except Fault Signal}
    {selected : Option (CatchClause × Value)} :
    Selects catches st r selected ↔ selection? catches r st = selected := by
  unfold selection?
  constructor
  · intro h
    cases h with
    | unoffered h => rw [offers_iff.mp h]; rfl
    | untaken h hnone =>
        rw [offers_iff.mp h, Option.bind_eq_bind, Option.bind_some, findClause?_eq_none.mpr hnone]
        rfl
    | taken skipped rest h hcatches hskipped htakes =>
        rw [offers_iff.mp h, Option.bind_eq_bind, Option.bind_some,
          findClause?_eq_some.mpr ⟨htakes, skipped, rest, hcatches, hskipped⟩]
        rfl
  · rintro rfl
    cases hoffer : thrownValue? r st with
    | none => exact .unoffered (offers_iff.mpr hoffer)
    | some v =>
        rw [Option.bind_eq_bind, Option.bind_some]
        cases hfind : findClause? catches v st with
        | none => exact .untaken (offers_iff.mpr hoffer) (findClause?_eq_none.mp hfind)
        | some clause =>
            obtain ⟨htakes, skipped, rest, hcatches, hskipped⟩ := findClause?_eq_some.mp hfind
            exact .taken skipped rest (offers_iff.mpr hoffer) hcatches hskipped htakes

theorem execCatches_eq (run : Interpreter) (catches : List CatchClause)
    (r : Except Fault Signal) (s : Session) :
    run.execCatches catches r s = (selection? catches r s.store).elim (Action.ofExcept r s)
      fun selected => run.execClause selected.1 selected.2 s := by
  unfold execCatches selection?
  rw [Action.read_bind]
  cases thrownValue? r s.store with
  | none => rfl
  | some v =>
      rw [Option.bind_eq_bind, Option.bind_some]
      dsimp only
      rw [Action.read_bind]
      cases findClause? catches v s.store <;> rfl

variable {fuel : Nat} {s s' t : Session} {r r' : Except Fault Signal}

theorem execAll_gives_keeps {statements : List Statement}
    (h : ((interpreter fuel).execAll statements).Gives s r s') : s.Keeps true s' :=
  (Laws.execAll_conforms (free_laws.interpreter_runs fuel) (free_inv s) statements).keeps_of_gives h

/-- A block of statements runs in a scope of its own. -/
theorem inScope_execAll_gives (statements : List Statement) (line : Nat) :
    (Eval.inScope line ((interpreter fuel).execAll statements)).Gives s r s' ↔
      ∃ t, ((interpreter fuel).execAll statements).Gives s.entered r t ∧ s' = s.closing t :=
  (Laws.execAll_conforms (free_laws.interpreter_runs fuel) (free_inv s.entered)
    statements).inScope_gives line

theorem execClause_gives {clause : CatchClause} {v : Value} (hs : s.scopes.Sane)
    (htakes : clause.Takes s.store v) :
    ((interpreter fuel).execClause clause v).Gives s r s' ↔
      ∃ t, ((interpreter fuel).execAll clause.body).Gives (s.caught clause v) r t ∧
        s' = s.closing t := by
  let ty := clause.ty.getD (s.store.typeOf v)
  let body : Eval Signal := do
    Eval.declareVariable clause.name ty v false clause.line
    (interpreter fuel).execAll clause.body
  have hbody := (free_laws.declareVariable_conforms (free_inv s.entered) (v := v) trivial
    clause.name ty false clause.line).bind fun _ _ _ hs₁ _ =>
      Laws.execAll_conforms (free_laws.interpreter_runs fuel) hs₁ clause.body
  have hclause : (interpreter fuel).execClause clause v s = Eval.inScope clause.line body s := by
    rw [execClause, Action.read_bind]
  rw [Action.gives_congr hclause, hbody.inScope_gives clause.line]
  have hbound (t : Session) : body.Gives s.entered r t ↔
      ((interpreter fuel).execAll clause.body).Gives (s.caught clause v) r t :=
    Action.gives_congr (Action.bind_of_ok (htakes.declareVariable hs))
  exact exists_congr fun t => and_congr (hbound t) Iff.rfl

theorem execCatches_gives (hs : s.scopes.Sane) (catches : List CatchClause) :
    ((interpreter fuel).execCatches catches r).Gives s r' s' ↔
      Handles (interpreter fuel) catches r s r' s' := by
  cases hselected : selection? catches r s.store with
  | none =>
      have hpassed : (interpreter fuel).execCatches catches r s = Action.ofExcept r s := by
        rw [execCatches_eq, hselected, Option.elim_none]
      rw [Action.gives_congr hpassed, Action.ofExcept_gives]
      constructor
      · rintro ⟨rfl, rfl⟩
        exact .passed (selects_iff.mpr hselected)
      · intro h
        cases h with
        | passed => exact ⟨rfl, rfl⟩
        | caught h => cases hselected.symm.trans (selects_iff.mp h)
  | some selected =>
      obtain ⟨clause, v⟩ := selected
      have hcaught : (interpreter fuel).execCatches catches r s =
          (interpreter fuel).execClause clause v s := by
        rw [execCatches_eq, hselected, Option.elim_some]
      have hselects := selects_iff.mpr hselected
      rw [Action.gives_congr hcaught, execClause_gives hs hselects.takes]
      constructor
      · rintro ⟨t, hbody, rfl⟩
        exact .caught hselects hbody
      · intro h
        cases h with
        | passed h => cases hselected.symm.trans (selects_iff.mp h)
        | caught h hbody =>
            cases hselected.symm.trans (selects_iff.mp h)
            exact ⟨_, hbody, rfl⟩

theorem finish_gives (finalizer : Option (List Statement)) (line : Nat) :
    ((interpreter fuel).finish finalizer line r).Gives s r' s' ↔
      Finishes (interpreter fuel) r s finalizer r' s' := by
  cases finalizer with
  | none =>
      rw [finish, Action.ofExcept_gives]
      constructor
      · rintro ⟨rfl, rfl⟩
        exact .absent
      · rintro ⟨⟩
        exact ⟨rfl, rfl⟩
  | some statements =>
      rw [finish, Action.bind_gives]
      simp only [inScope_execAll_gives]
      constructor
      · rintro (⟨signal, t, ⟨u, h, rfl⟩, hrest⟩ | ⟨fault, ⟨u, h, rfl⟩, rfl⟩)
        · cases signal with
          | normal =>
              obtain ⟨rfl, rfl⟩ := Action.ofExcept_gives.mp hrest
              exact .normal h
          | _ =>
              obtain ⟨rfl, rfl⟩ := Action.ofExcept_gives (r := .ok _).mp hrest
              exact .displaced h fun hr => by cases hr
        · exact .displaced h fun hr => by cases hr
      · intro h
        cases h with
        | normal h => exact .inl ⟨_, _, ⟨_, h, rfl⟩, Action.ofExcept_gives.mpr ⟨rfl, rfl⟩⟩
        | displaced h hjump =>
            cases r' with
            | error fault => exact .inr ⟨_, ⟨_, h, rfl⟩, rfl⟩
            | ok signal =>
                refine .inl ⟨_, _, ⟨_, h, rfl⟩, ?_⟩
                cases signal with
                | normal => exact absurd rfl hjump
                | _ => rfl

/-! ## Calls -/

/-- A call passes on what its body throws, as a fault. -/
theorem withFrame_throws {D : Discipline} {α : Type} {x y : Eval Signal}
    {Q : Store → Signal → Prop} {frame : CallFrame} {v : Value}
    (hx : D.Conforms true (s.called frame) x y Q) (hroom : s.calls.length < maxCallDepth)
    (hbody : x.Gives (s.called frame) r t) (hr : Throws v r) (line : Nat)
    {result : Signal → Eval α} (hresult : ∀ s, ∃ line', result (.thrown v) s =
      .error { cause := .thrown v, line := line' } s) :
    ∃ line', (Eval.withFrame frame line x >>= result) s =
      .error { cause := .thrown v, line := line' } (s.resumed t) := by
  have hframe := (hx.withFrame_gives hroom line).mpr ⟨t, hbody, rfl⟩
  cases hr with
  | signal =>
      rw [Action.bind_of_ok (Action.gives_ok.mp hframe)]
      exact hresult _
  | crossed line' => exact ⟨line', Action.bind_of_error (Action.gives_error.mp hframe)⟩

theorem callFunction_throws {decl : FunctionDecl} {frame : CallFrame} {args : List Value}
    {line : Nat} {v : Value}
    (hargs : checkArguments frame.name decl.params args s.store = .ok ())
    (hroom : s.calls.length < maxCallDepth)
    (hbody : (do bindParameters line decl.params args
                 (interpreter fuel).execAll decl.body : Eval Signal).Gives (s.called frame) r t)
    (hr : Throws v r) :
    ∃ line', (interpreter fuel).callFunction decl frame args line s =
      .error { cause := .thrown v, line := line' } (s.resumed t) := by
  have hcode := (free_laws.bindParameters_conforms (free_inv (s.called frame)) line decl.params
    args fun _ _ => trivial).bind fun _ _ _ hs₁ _ =>
      Laws.execAll_conforms (free_laws.interpreter_runs fuel) hs₁ decl.body
  have hchecked : (interpreter fuel).callFunction decl frame args line s = _ :=
    Action.bind_of_ok (Eval.ask_of_ok hargs line)
  rw [hchecked]
  exact withFrame_throws hcode hroom hbody hr line fun _ => ⟨line, rfl⟩

theorem construct_throws {c : Construction} {v : Value}
    (hargs : checkArguments (c.constructor.owner ++ ".constructor") c.constructor.decl.params
      c.arguments s.store = .ok ())
    (hroom : s.calls.length < maxCallDepth)
    (hbody : (do bindParameters c.line c.constructor.decl.params c.arguments
                 (interpreter fuel).constructParent c
                 (interpreter fuel).execAll c.constructor.decl.body : Eval Signal).Gives
      (s.called (c.frame s.store)) r t)
    (hr : Throws v r) :
    ∃ line', (interpreter (fuel + 1)).construct c s =
      .error { cause := .thrown v, line := line' } (s.resumed t) := by
  have hcode := free_laws.constructorCode_conforms (free_laws.interpreter_runs fuel)
    (free_inv (s.called (c.frame s.store))) c trivial ⟨trivial, trivial⟩ fun _ _ => trivial
  have hchecked : (interpreter (fuel + 1)).construct c s = _ :=
    Action.bind_of_ok (Eval.ask_of_ok hargs c.line)
  rw [hchecked, Action.read_bind]
  exact withFrame_throws hcode hroom hbody hr c.line fun _ => ⟨c.line, rfl⟩

end Interpreter

/-! ## Sane scopes stay sane -/

namespace Discipline

/-- Every visible name has a slot. -/
def sane : Discipline :=
  { free with Inv := fun s => s.scopes.Sane }

theorem sane_laws : sane.Laws where
  __ := free_laws
  val_stored _ _ := trivial
  val_self _ _ _ := trivial
  cls_named _ _ := trivial
  init_field _ _ _ := trivial
  meth_found _ _ := False.elim
  native {s _ _ _} cls _ := free_laws.native cls (free_inv s)
  enter hs := ScopeStack.Sane.enter hs
  exit {s s' scopes} hs hk _ hexit := by
    obtain ⟨hclosing, hkept⟩ := hk.scopes.exit_enter
    obtain rfl : s.scopes.closing s'.scopes = scopes :=
      Except.ok.inj (hclosing.symm.trans hexit)
    exact ScopeStack.Sane.keeps hs hkept
  call _ _ _ := .enterIsolated _
  finish {s s' _ scopes} hs hk _ hexit := by
    obtain rfl : s.scopes = scopes :=
      Except.ok.inj (hk.scopes.exit_enterIsolated.symm.trans hexit)
    exact hs
  declare hs _ _ := ScopeStack.Sane.bind hs _ _
  assign hs _ _ := ScopeStack.Sane.keeps hs (.write _ _ _)
  newArray hs _ := ⟨hs, trivial⟩
  putItem hs _ _ := hs
  newObject hs _ := ⟨hs, trivial⟩
  built_new _ := trivial
  receives_object _ _ := trivial
  receives_self _ _ _ := trivial
  initField _ hs _ _ _ _ _ := hs
  writeField hs _ _ := hs
  enroll hs _ _ := ⟨hs, trivial⟩
  initStatic hs _ _ _ _ _ _ := hs
  writeStatic hs _ _ := hs
  functions hs := hs
  console hs := hs
  included hs := hs

end Discipline

noncomputable instance : DecidablePred fun s : Session => s.scopes.Sane := Classical.decPred _

/-! ## The meaning of `try` -/

theorem Handles.keeps {fuel : Nat} {catches : List CatchClause} {r r' : Except Fault Signal}
    {s s' : Session} (h : Handles (interpreter fuel) catches r s r' s') : s.Keeps false s' := by
  cases h with
  | passed => exact .refl _ _
  | @caught clause v _ _ _ hbody =>
      have hbound : s.entered.Keeps true (s.caught clause v) := ⟨.bind _ _ _, rfl, .refl _⟩
      exact (hbound.trans (Interpreter.execAll_gives_keeps hbody)).closing

open Interpreter in
/-- What a `try` means, in every session with sane scopes, and a program that starts with sane
scopes is never run in others. The body runs in a block of its own; what it throws, or the message
of another fault that may be caught, goes to the first clause that takes it; the finalizer then runs
on every path, and unless it ends normally the result is its own. The variable of the selected
clause can always be declared, and it stands for the very value; the finalizer sees what could be
seen at the `try`. A call whose body throws, as a signal or as a fault, passes the value on as a
fault. -/
theorem tryCatch_meaning (fuel : Nat) {s : Session} (hs : s.scopes.Sane) (body : List Statement)
    (catches : List CatchClause) (finalizer : Option (List Statement)) (line : Nat) :
    (∀ r s', (execute (fuel + 1) (.tryCatch body catches finalizer line)).Gives s r s' ↔
      ∃ r₁ t r₂ s₂, ((interpreter fuel).execAll body).Gives s.entered r₁ t ∧
        Handles (interpreter fuel) catches r₁ (s.closing t) r₂ s₂ ∧
        Finishes (interpreter fuel) r₂ s₂ finalizer r s') ∧
    (∀ r₁ t, ((interpreter fuel).execAll body).Gives s.entered r₁ t →
      (∀ clause v, Selects catches (s.closing t).store r₁ (some (clause, v)) →
        Eval.declareVariable clause.name (clause.ty.getD ((s.closing t).store.typeOf v)) v false
          clause.line (s.closing t).entered = .ok () ((s.closing t).caught clause v) ∧
        ((s.closing t).caught clause v).scopes.lookup? clause.name = some v) ∧
      ∀ r₂ s₂, Handles (interpreter fuel) catches r₁ (s.closing t) r₂ s₂ →
        s.ShowsAnew s₂.entered) ∧
    (∀ (decl : FunctionDecl) frame args line (s t : Session) r v,
      checkArguments frame.name decl.params args s.store = .ok () →
      s.calls.length < maxCallDepth →
      (do bindParameters line decl.params args
          (interpreter fuel).execAll decl.body : Eval Signal).Gives (s.called frame) r t →
      Throws v r → ∃ line', (interpreter fuel).callFunction decl frame args line s =
        .error { cause := .thrown v, line := line' } (s.resumed t)) ∧
    (∀ (c : Construction) (s t : Session) r v,
      checkArguments (c.constructor.owner ++ ".constructor") c.constructor.decl.params
        c.arguments s.store = .ok () →
      s.calls.length < maxCallDepth →
      (do bindParameters c.line c.constructor.decl.params c.arguments
          (interpreter fuel).constructParent c
          (interpreter fuel).execAll c.constructor.decl.body : Eval Signal).Gives
        (s.called (c.frame s.store)) r t →
      Throws v r → ∃ line', (interpreter (fuel + 1)).construct c s =
        .error { cause := .thrown v, line := line' } (s.resumed t)) ∧
    ∀ program other,
      (interpreterWithin (fun s : Session => s.scopes.Sane) other fuel).execProgram program s =
        runProgram fuel program s := by
  refine ⟨fun r s' => ?_, fun r₁ t hbody => ?_, ?_, ?_, fun program other => ?_⟩
  · have htry : execute (fuel + 1) (.tryCatch body catches finalizer line) = _ :=
      execTry_eq (interpreter fuel) body catches finalizer line
    rw [htry, Action.attempt_bind_gives]
    simp only [inScope_execAll_gives, Action.attempt_bind_gives, finish_gives]
    constructor
    · rintro ⟨r₁, _, ⟨t, hbody, rfl⟩, r₂, s₂, hcatches, hfinish⟩
      have hclosed := hs.keeps (execAll_gives_keeps hbody).closing.scopes
      exact ⟨r₁, t, r₂, s₂, hbody, (execCatches_gives hclosed catches).mp hcatches, hfinish⟩
    · rintro ⟨r₁, t, r₂, s₂, hbody, hhandles, hfinish⟩
      have hclosed := hs.keeps (execAll_gives_keeps hbody).closing.scopes
      exact ⟨r₁, _, ⟨t, hbody, rfl⟩, r₂, s₂, (execCatches_gives hclosed catches).mpr hhandles,
        hfinish⟩
  · have hblock := (execAll_gives_keeps hbody).closing
    have hclosed : (s.closing t).scopes.Sane := hs.keeps hblock.scopes
    refine ⟨fun clause v hselects => ?_, fun r₂ s₂ hhandles => ?_⟩
    · exact ⟨hselects.takes.declareVariable hclosed, Session.lookup?_caught hclosed clause v⟩
    · exact (hblock.trans hhandles.keeps).showsAnew hs
  · intro decl frame args line s t r v hargs hroom hbody hr
    exact callFunction_throws hargs hroom hbody hr
  · intro c s t r v hargs hroom hbody hr
    exact construct_throws hargs hroom hbody hr
  · have L := Discipline.sane_laws
    have hwithin := L.interpreterWithin_runs (P := fun s => s.scopes.Sane) (fun _ hs => hs) other
      fuel
    exact (L.execProgram_conforms hwithin hs program).eq.symm

/-- A function throws; the second clause takes what its call passes on, and returns it. -/
theorem tryCatch_meaning_call :
    let f : FunctionDecl :=
      { name := "f", params := [], returnType := .void,
        body := [.throwValue (.literal (.string "x") 1) 1], line := 1 }
    let body : List Statement := [.expression (.call "f" [] 2) 2]
    let catches : List CatchClause :=
      [{ name := "e", ty := some .int, body := [], line := 3 },
        { name := "e", ty := none, body := [.returnValue (some (.var "e" 4)) 4], line := 4 }]
    let s : Session :=
      { Session.start (fun _ => .error .unknownModule) [] with
        functions := Table.empty.insert "f" f }
    s.scopes.Sane ∧ ∃ s', (execute 6 (.tryCatch body catches (some []) 2)).Gives s
      (.ok (.returned (some (.string "x")))) s' := by
  intro f body catches s
  have hs : s.scopes.Sane := ScopeStack.sane_start
  have hbody : ((interpreter 5).execAll body).Gives s.entered
      (.error { cause := .thrown (.string "x"), line := 2 }) s.entered := rfl
  refine ⟨hs, _, ((tryCatch_meaning 5 hs body catches (some []) 2).1 _ _).mpr
    ⟨_, _, _, _, hbody, .caught (.taken [_] [] (.thrown (.crossed 2)) rfl ?_ nofun) rfl,
      .normal rfl⟩⟩
  intro earlier hearlier htakes
  obtain rfl := List.mem_singleton.mp hearlier
  cases htakes .int rfl

end ClassScript
