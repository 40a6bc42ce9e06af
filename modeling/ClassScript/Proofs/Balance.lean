import ClassScript.Proofs.Classes
import ClassScript.Proofs.Conduct.Programs

/-!
# Balance

However a run ends, it closes every block and every call that it opened. The frames that were open
before are open again with the names they bound, no call was started beyond the limit, and no block
was missing when one had to be closed.
-/

namespace ClassScript

/-- The state with which the outcome ends, if it ends, satisfies `P`. -/
def Outcome.Leaves {σ ε α : Type} (P : σ → Prop) (o : Outcome σ ε α) : Prop :=
  o.Ends (fun _ s => P s) fun _ s => P s

/-- As many blocks are open as before, the same calls are in progress, and every block that was
open binds the same names, in the same order, to the same slots. Only if `binds` is set, the
innermost block may have bound further names or shadowed some. -/
structure Session.Restored (binds : Bool) (s s' : Session) : Prop where
  depth : s'.scopes.depth = s.scopes.depth
  calls : s'.calls = s.calls
  frames : s.scopes.Keeps binds s'.scopes

/-- No more calls are in progress than may be. -/
def Session.WithinLimit (s : Session) : Prop := s.calls.length ≤ maxCallDepth

instance : DecidablePred Session.WithinLimit := fun s =>
  inferInstanceAs (Decidable (s.calls.length ≤ maxCallDepth))

/-- A method of the host does not pretend that a scope could not be left. -/
def MethodInfo.SparesUnderflow (method : MethodInfo) : Prop :=
  ∀ run, method.body = .native run → ∀ typeOf args, run typeOf args ≠ .error .scopeUnderflow

/-- No method of the host pretends that a scope could not be left. -/
def Store.SparesUnderflow (st : Store) : Prop :=
  ∀ cls name method, (st.classInfo cls).methods.find? name = some method → method.SparesUnderflow

/-- The code, which may bind names in the innermost block only if `binds` is set, gives everything
back. If it starts within the limit for calls, no part of it is ever run beyond the limit: what any
`other` interpreter would do there makes no difference. And it never finds a scope missing. -/
structure Balanced {α : Type} (fuel : Nat) (s : Session) (binds : Bool)
    (code : Interpreter → Eval α) : Prop where
  restores : (code (interpreter fuel) s).Leaves (s.Restored binds)
  limited : s.WithinLimit → ∀ other,
    code (interpreterWithin Session.WithinLimit other fuel) s = code (interpreter fuel) s
  grounded : s.store.SparesUnderflow → ∀ fault s',
    code (interpreter fuel) s = .error fault s' → fault.cause ≠ .scopeUnderflow

/-! ## The discipline of balance -/

theorem MethodInfo.sparesUnderflow_of_body {method : MethodInfo}
    (h : ∀ run, method.body ≠ .native run) : method.SparesUnderflow :=
  fun run hrun => absurd hrun (h run)

theorem Store.SparesUnderflow.enrollClass {st : Store} (h : st.SparesUnderflow)
    {info : ClassInfo} (hinfo : ClassInfo.Declared st info) :
    (st.enrollClass info).2.SparesUnderflow := by
  intro cls name method hfind
  rw [classInfo_enrollClass] at hfind
  split at hfind
  · exact hinfo.built.methods (fun _ => MethodInfo.sparesUnderflow_of_body) h hfind
  · exact h cls name method hfind

theorem Store.SparesUnderflow.putStatic {st : Store} (h : st.SparesUnderflow) (holder : ClassId)
    (name : String) (v : Value) : (st.putStatic holder name v).SparesUnderflow := by
  intro cls member method hfind
  rw [methods_putStatic] at hfind
  exact h cls member method hfind

namespace Discipline

/-- If the run started within the limit, it stays within it; if the methods of the host play by the
rules, no scope is found missing. -/
def balance (limited spared : Prop) : Discipline where
  Inv s := (limited → s.WithinLimit) ∧ (spared → s.store.SparesUnderflow)
  Val _ _ := True
  Err _ cause := spared → cause ≠ .scopeUnderflow
  Cls _ _ := True
  Init _ _ _ := True
  Meth _ method := spared → method.SparesUnderflow

theorem balance_laws (limited spared : Prop) : (balance limited spared).Laws where
  val_grows _ h := h
  err_grows _ h := h
  cls_grows _ h := h
  init_grows _ h := h
  meth_grows _ h := h
  val_plain _ := trivial
  val_stored _ _ := trivial
  val_self _ _ _ := trivial
  cls_named _ _ := trivial
  init_field _ _ _ := trivial
  init_value _ _ := trivial
  meth_found hs hfind hspared := hs.2 hspared _ _ _ hfind
  err_ordinary hc _ := by
    rintro rfl
    cases hc
  err_thrown := ⟨fun _ => trivial, fun _ _ => nofun⟩
  native _ _ hmethod hbody _ := by
    refine ⟨fun _ _ => trivial, fun cause hcause hspared => ?_⟩
    rintro rfl
    rcases Store.callNative_error hcause with hordinary | hrun
    · cases hordinary
    · exact hmethod hspared _ hbody _ _ hrun
  enter hs := hs
  exit _ _ hs _ := hs
  -- A call starts only where there is room for one more.
  call hs hlt _ := ⟨fun _ => hlt, hs.2⟩
  finish {_ s _ _} _ _ hs _ := by
    refine ⟨fun hlimited => ?_, hs.2⟩
    have hle : s.calls.length ≤ maxCallDepth := hs.1 hlimited
    change s.calls.tail.length ≤ maxCallDepth
    rw [List.length_tail]
    omega
  declare hs _ _ := hs
  assign hs _ _ := hs
  newArray hs _ := ⟨hs, trivial⟩
  putItem hs _ _ := hs
  newObject hs _ := ⟨hs, trivial⟩
  initField _ hs _ _ _ _ _ := hs
  writeField hs _ _ := hs
  enroll hs hinfo _ := ⟨⟨hs.1, fun hspared => (hs.2 hspared).enrollClass hinfo⟩, trivial⟩
  initStatic hs _ _ _ _ _ _ := ⟨hs.1, fun hspared => (hs.2 hspared).putStatic _ _ _⟩
  writeStatic hs _ _ := ⟨hs.1, fun hspared => (hs.2 hspared).putStatic _ _ _⟩
  functions hs := hs
  console hs := hs
  included hs := hs

namespace Conforms

variable {D : Discipline} {α : Type} {binds : Bool} {s : Session} {x y : Eval α}
  {Q : Store → α → Prop}

/-- In the surroundings that there are, the two runs are the same. -/
theorem eq (h : D.Conforms binds s x y Q) : y s = x s := by
  have htwin : y s = (x s).mapState (·.amid s.outerScopes) := h.twin s.outerScopes fun _ => rfl
  have hends := h.ends
  rw [htwin]
  cases hx : x s with
  | ok a s' =>
      rw [hx] at hends
      rw [Outcome.mapState, hends.1.amid_outerScopes]
  | error fault s' =>
      rw [hx] at hends
      rw [Outcome.mapState, hends.1.amid_outerScopes]
  | exhausted => rfl

/-- The discipline is observed wherever the run ends. -/
theorem leaves (h : D.Conforms binds s x y Q) : (x s).Leaves D.Inv :=
  h.ends.mono (fun _ _ hok => hok.2.1) fun _ _ herror => herror.2.1

end Conforms

end Discipline

theorem Session.Keeps.restored {s s' : Session} {binds : Bool} (h : s.Keeps binds s') :
    s.Restored binds s' :=
  ⟨h.scopes.depth_eq, h.calls, h.scopes⟩

/-! ## Every run is balanced -/

/-- Code that conforms to every lawful discipline is balanced. -/
theorem Balanced.of_conforms {α : Type} {binds : Bool} {code : Interpreter → Eval α}
    (h : ∀ {D : Discipline} {run run' : Interpreter} {s : Session}, D.Laws → D.Runs run run' →
      D.Inv s → D.Conforms binds s (code run) (code run') fun _ _ => True)
    (fuel : Nat) (s : Session) : Balanced fuel s binds code := by
  have L := Discipline.balance_laws s.WithinLimit s.store.SparesUnderflow
  have hs : (Discipline.balance s.WithinLimit s.store.SparesUnderflow).Inv s := ⟨id, id⟩
  have hcode := h L (L.interpreter_runs fuel) hs
  refine ⟨?_, fun hlimited other => ?_, fun hspared fault s' herror => ?_⟩
  · exact hcode.ends.mono (fun _ _ hok => hok.1.restored) fun _ _ herror => herror.1.restored
  · have hwithin := L.interpreterWithin_runs (fun s hs => hs.1 hlimited) other fuel
    exact (h L hwithin hs).eq.symm
  · have hends := hcode.ends
    rw [herror] at hends
    exact hends.2.2 hspared

/-- The body of a call starts within the limit, or not at all. -/
theorem withFrame_limited {α : Type} {body body' : Eval α}
    (h : ∀ s : Session, s.WithinLimit → body s = body' s) (frame : CallFrame) (line : Nat)
    (s : Session) : Eval.withFrame frame line body s = Eval.withFrame frame line body' s :=
  Eval.withFrame_congr (h (s.called frame)) line

/-- Every expression, every statement and every program is balanced, in every session. -/
theorem runs_balanced (fuel : Nat) (s : Session) :
    (∀ e expected, Balanced fuel s false fun run => run.eval e expected) ∧
    (∀ statement, Balanced fuel s statement.binds fun run => run.exec statement) ∧
    (∀ program, Balanced fuel s (program.any Statement.binds) fun run =>
      run.execProgram program) ∧
    ∀ (α : Type) (frame : CallFrame) (line : Nat) (body body' : Eval α),
      (∀ s' : Session, s'.WithinLimit → body s' = body' s') →
      Eval.withFrame frame line body s = Eval.withFrame frame line body' s := by
  refine ⟨fun e expected => ?_, fun statement => ?_, fun program => ?_,
    fun _ frame line _ _ h => withFrame_limited h frame line s⟩
  · exact .of_conforms (fun L hrun hs => (hrun.eval hs e expected).mono fun _ _ _ => trivial)
      fuel s
  · exact .of_conforms (fun L hrun hs => (hrun.exec hs statement).mono fun _ _ _ => trivial)
      fuel s
  · exact .of_conforms (fun L hrun hs => L.execProgram_conforms hrun hs program) fuel s

/-- At the start, a `try` whose finalizer declares a variable and jumps away is balanced. -/
theorem runs_balanced_start :
    let s := Session.start (fun _ => .error .unknownModule) []
    let x : VariableDecl :=
      { name := "x", ty := .int, length := none, initializer := none, isConst := false, line := 2 }
    let statement := Statement.tryCatch [] [] (some [.declare x, .breakLoop 3]) 1
    s.WithinLimit ∧ s.store.SparesUnderflow ∧
      (execute 9 statement s).Leaves (s.Restored false) ∧
      (∀ other, (interpreterWithin Session.WithinLimit other 9).exec statement s =
        execute 9 statement s) ∧
      ∀ fault s', execute 9 statement s = .error fault s' → fault.cause ≠ .scopeUnderflow := by
  intro s x statement
  have hlimit : s.WithinLimit := Nat.zero_le _
  have hspared : s.store.SparesUnderflow := fun cls name method hfind => by cases hfind
  have h := (runs_balanced 9 s).2.1 statement
  exact ⟨hlimit, hspared, h.restores, h.limited hlimit, h.grounded hspared⟩

end ClassScript
