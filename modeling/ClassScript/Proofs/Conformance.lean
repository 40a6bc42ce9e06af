import ClassScript.Proofs.Action
import ClassScript.Proofs.Discipline

/-!
# Conformance

`D.Conforms binds s x y Q` compares the run of `x` from `s` with the runs of `y` from `s` in any
surroundings that may stand for its own. They do the same; whatever the outcome, the frames, the
calls and the shapes in the store are kept and the discipline is observed; a value satisfies `Q`.
This module has one rule for each way of putting actions together.
-/

namespace ClassScript

/-! ## Questions, blocks and calls -/

namespace Eval

variable {α : Type} {x : Eval α} {after : Eval Unit} {s s' s'' : Session}

theorem ask_of_ok {question : Session → Except Cause α} {a : α} (h : question s = .ok a)
    (line : Nat) : ask line question s = .ok a s := by
  rw [ask, h]

theorem ask_of_error {question : Session → Except Cause α} {cause : Cause}
    (h : question s = .error cause) (line : Nat) :
    ask line question s = .error { cause, line } s := by
  rw [ask, h]

/-- Asking changes nothing. -/
theorem ok_of_ask {question : Session → Except Cause α} {line : Nat} {a : α}
    (h : ask line question s = .ok a s') : s' = s ∧ question s = .ok a := by
  cases hq : question s with
  | ok b =>
      rw [ask_of_ok hq] at h
      cases h
      exact ⟨rfl, rfl⟩
  | error cause =>
      rw [ask_of_error hq] at h
      cases h

theorem ok_of_allocate {change : Store → α × Store} {a : α} (h : allocate change s = .ok a s') :
    a = (change s.store).1 ∧ s' = { s with store := (change s.store).2 } := by
  cases h
  exact ⟨rfl, rfl⟩

theorem thenAlways_of_ok {a : α} (hx : x s = .ok a s') (hafter : after s' = .ok () s'') :
    thenAlways x after s = .ok a s'' := by
  rw [thenAlways, Action.bind_of_ok (Action.attempt_of_ok hx),
    Action.bind_of_ok (Action.attempt_of_ok hafter)]
  rfl

theorem thenAlways_of_error {fault : Fault} (hx : x s = .error fault s')
    (hafter : after s' = .ok () s'') : thenAlways x after s = .error fault s'' := by
  rw [thenAlways, Action.bind_of_ok (Action.attempt_of_error hx),
    Action.bind_of_ok (Action.attempt_of_ok hafter)]
  rfl

theorem thenAlways_of_exhausted (hx : x s = .exhausted) : thenAlways x after s = .exhausted := by
  rw [thenAlways, Action.bind_of_exhausted (Action.attempt_of_exhausted hx)]

/-- Of the first action only the outcome matters. -/
theorem thenAlways_congr {y : Eval α} (h : x s = y s) :
    thenAlways x after s = thenAlways y after s := by
  have hattempt : Action.attempt x s = Action.attempt y s := by
    rw [Action.attempt, Action.attempt, h]
  change Action.bind (Action.attempt x) _ s = Action.bind (Action.attempt y) _ s
  rw [Action.bind, Action.bind, hattempt]

theorem exitScope_of_ok {scopes : ScopeStack} (h : s.scopes.exit = .ok scopes) (line : Nat) :
    exitScope line s = .ok () { s with scopes } := by
  rw [exitScope, h]

theorem exitCall_of_ok {scopes : ScopeStack} (h : s.scopes.exit = .ok scopes) (line : Nat) :
    exitCall line s = .ok () { s with scopes, calls := s.calls.tail } := by
  rw [exitCall, Action.bind_of_ok (Action.attempt_of_ok (exitScope_of_ok h line))]
  rfl

theorem withFrame_of_lt (h : s.calls.length < maxCallDepth) (frame : CallFrame) (line : Nat)
    (x : Eval α) :
    withFrame frame line x s = thenAlways x (exitCall line) (s.called frame) := by
  change (if maxCallDepth ≤ s.calls.length then (raise (.stackOverflow maxCallDepth) line : Eval α)
    else enterCall frame >>= fun _ => thenAlways x (exitCall line)) s = _
  rw [if_neg (Nat.not_le_of_lt h)]
  rfl

theorem withFrame_of_le (h : maxCallDepth ≤ s.calls.length) (frame : CallFrame) (line : Nat)
    (x : Eval α) :
    withFrame frame line x s = .error { cause := .stackOverflow maxCallDepth, line } s := by
  change (if maxCallDepth ≤ s.calls.length then (raise (.stackOverflow maxCallDepth) line : Eval α)
    else enterCall frame >>= fun _ => thenAlways x (exitCall line)) s = _
  rw [if_pos h]
  rfl

/-- Of the body of a call only the outcome matters, and only if there is room for the call. -/
theorem withFrame_congr {y : Eval α} {frame : CallFrame}
    (h : s.calls.length < maxCallDepth → x (s.called frame) = y (s.called frame)) (line : Nat) :
    withFrame frame line x s = withFrame frame line y s := by
  rcases Nat.lt_or_ge s.calls.length maxCallDepth with hlt | hge
  · rw [withFrame_of_lt hlt, withFrame_of_lt hlt]
    exact thenAlways_congr (h hlt)
  · rw [withFrame_of_le hge, withFrame_of_le hge]

end Eval

namespace Discipline

variable {D : Discipline} {α β : Type} {binds : Bool} {s : Session}

structure Conforms (D : Discipline) (binds : Bool) (s : Session) (x y : Eval α)
    (Q : Store → α → Prop) : Prop where
  twin : ∀ around : OuterScopes, around.Suit binds s →
    y (s.amid around) = (x s).mapState (·.amid around)
  ends : (x s).Ends (fun a s' => s.Keeps binds s' ∧ D.Inv s' ∧ Q s'.store a)
    fun fault s' => s.Keeps binds s' ∧ D.Inv s' ∧ D.Err s'.store fault.cause

namespace Conforms

variable {x y : Eval α} {f g : α → Eval β} {Q Q' : Store → α → Prop} {R : Store → β → Prop}

theorem of_ok {a : α} {s' : Session} (h : D.Conforms binds s x y Q) (hx : x s = .ok a s') :
    s.Keeps binds s' ∧ D.Inv s' ∧ Q s'.store a := by
  have hends := h.ends
  rw [hx] at hends
  exact hends

/-! ## Sequences -/

protected theorem pure (hs : D.Inv s) {a : α} (h : Q s.store a) :
    D.Conforms binds s (Pure.pure a) (Pure.pure a) Q :=
  ⟨fun _ _ => rfl, .refl _ _, hs, h⟩

protected theorem bind (hx : D.Conforms binds s x y Q)
    (hf : ∀ a s', s.Keeps binds s' → D.Inv s' → Q s'.store a →
      D.Conforms binds s' (f a) (g a) R) :
    D.Conforms binds s (x >>= f) (y >>= g) R := by
  obtain ⟨twin, ends⟩ := hx
  cases hxs : x s with
  | ok a s' =>
      rw [hxs] at twin ends
      obtain ⟨hk, hs', ha⟩ := ends
      obtain ⟨twin', ends'⟩ := hf a s' hk hs' ha
      refine ⟨fun around hsuit => ?_, ?_⟩
      · rw [Action.bind_of_ok (twin around hsuit), Action.bind_of_ok hxs]
        exact twin' around fun hbinds => (hsuit hbinds).trans hk.scopes.base.symm
      · rw [Action.bind_of_ok hxs]
        exact ends'.mono (fun _ _ h => ⟨hk.trans h.1, h.2⟩) fun _ _ h => ⟨hk.trans h.1, h.2⟩
  | error fault s' =>
      rw [hxs] at twin ends
      refine ⟨fun around hsuit => ?_, ?_⟩
      · rw [Action.bind_of_error (twin around hsuit), Action.bind_of_error hxs]
        rfl
      · rw [Action.bind_of_error hxs]
        exact ends
  | exhausted =>
      rw [hxs] at twin
      refine ⟨fun around hsuit => ?_, ?_⟩
      · rw [Action.bind_of_exhausted (twin around hsuit), Action.bind_of_exhausted hxs]
        rfl
      · rw [Action.bind_of_exhausted hxs]
        trivial

theorem mono (h : D.Conforms binds s x y Q) (hQ : ∀ st a, Q st a → Q' st a) :
    D.Conforms binds s x y Q' :=
  ⟨h.twin, h.ends.mono (fun _ _ h => ⟨h.1, h.2.1, hQ _ _ h.2.2⟩) fun _ _ h => h⟩

/-- Code that binds nothing may stand wherever code may bind. -/
theorem weaken (h : D.Conforms false s x y Q) (binds : Bool) : D.Conforms binds s x y Q :=
  ⟨fun around _ => h.twin around nofun, h.ends.mono (fun _ _ h => ⟨h.1.weaken binds, h.2⟩)
    fun _ _ h => ⟨h.1.weaken binds, h.2⟩⟩

theorem toBinding (h : D.Conforms binds s x y Q) : D.Conforms true s x y Q := by
  cases binds with
  | false => exact h.weaken true
  | true => exact h

/-! ## Small steps -/

theorem outOfFuel : D.Conforms binds s (Action.outOfFuel : Eval α) Action.outOfFuel Q :=
  ⟨fun _ _ => rfl, trivial⟩

theorem fail (hs : D.Inv s) {fault : Fault} (h : D.Err s.store fault.cause) :
    D.Conforms binds s (Action.fail fault) (Action.fail fault) Q :=
  ⟨fun _ _ => rfl, .refl _ _, hs, h⟩

theorem raise (hs : D.Inv s) {cause : Cause} (line : Nat) (h : D.Err s.store cause) :
    D.Conforms binds s (Eval.raise cause line) (Eval.raise cause line) Q :=
  fail hs h

/-- A question about the session that does not look at its surroundings. -/
theorem ask (hs : D.Inv s) {question : Session → Except Cause α} (line : Nat)
    (hlocal : ∀ around : OuterScopes, around.Suit binds s → question (s.amid around) = question s)
    (hok : ∀ a, question s = .ok a → Q s.store a)
    (herror : ∀ cause, question s = .error cause → D.Err s.store cause) :
    D.Conforms binds s (Eval.ask line question) (Eval.ask line question) Q := by
  constructor
  · intro around hsuit
    rw [Eval.ask, Eval.ask, hlocal around hsuit]
    cases question s <;> rfl
  · rw [Eval.ask]
    cases h : question s with
    | ok a => exact ⟨.refl _ _, hs, hok a h⟩
    | error cause => exact ⟨.refl _ _, hs, herror cause h⟩

theorem askStore (hs : D.Inv s) {question : Store → Except Cause α} (line : Nat)
    (hok : ∀ a, question s.store = .ok a → Q s.store a)
    (herror : ∀ cause, question s.store = .error cause → D.Err s.store cause) :
    D.Conforms binds s (Eval.askStore line question) (Eval.askStore line question) Q :=
  ask hs line (fun _ _ => rfl) hok herror

/-- An answered question leaves the session as it is, so what follows it may rely on the answer. -/
theorem askThen (hs : D.Inv s) {question : Session → Except Cause α} (line : Nat)
    (hlocal : ∀ around : OuterScopes, around.Suit binds s → question (s.amid around) = question s)
    (herror : ∀ cause, question s = .error cause → D.Err s.store cause)
    (hf : ∀ a, question s = .ok a → D.Conforms binds s (f a) (g a) R) :
    D.Conforms binds s (Eval.ask line question >>= f) (Eval.ask line question >>= g) R := by
  cases h : question s with
  | ok a =>
      have hask := Eval.ask_of_ok h line
      obtain ⟨twin, ends⟩ := hf a h
      refine ⟨fun around hsuit => ?_, ?_⟩
      · have hask' := Eval.ask_of_ok ((hlocal around hsuit).trans h) line
        rw [Action.bind_of_ok hask', Action.bind_of_ok hask]
        exact twin around hsuit
      · rw [Action.bind_of_ok hask]
        exact ends
  | error cause =>
      refine (ask (Q := fun _ _ => False) hs line hlocal (fun a ha => ?_) herror).bind
        fun _ _ _ _ h => h.elim
      rw [h] at ha
      cases ha

theorem askStoreThen (hs : D.Inv s) {question : Store → Except Cause α} (line : Nat)
    (herror : ∀ cause, question s.store = .error cause → D.Err s.store cause)
    (hf : ∀ a, question s.store = .ok a → D.Conforms binds s (f a) (g a) R) :
    D.Conforms binds s (Eval.askStore line question >>= f) (Eval.askStore line question >>= g) R :=
  askThen hs line (fun _ _ => rfl) herror hf

theorem readThen {look : Session → α}
    (hlocal : ∀ around, look (s.amid around) = look s)
    (hf : D.Conforms binds s (f (look s)) (g (look s)) R) :
    D.Conforms binds s (Action.read look >>= f) (Action.read look >>= g) R := by
  refine ⟨fun around hsuit => ?_, hf.ends⟩
  change g (look (s.amid around)) (s.amid around) = _
  rw [hlocal around]
  exact hf.twin around hsuit

theorem update {change : Session → Session} {Q : Store → Unit → Prop}
    (hlocal : ∀ around, change (s.amid around) = (change s).amid around)
    (hk : s.Keeps binds (change s)) (hs : D.Inv (change s)) (h : Q (change s).store ()) :
    D.Conforms binds s (Action.update change) (Action.update change) Q := by
  refine ⟨fun around _ => ?_, hk, hs, h⟩
  rw [Action.update, Action.update, hlocal around]
  rfl

theorem updateStore {change : Store → Store} {Q : Store → Unit → Prop}
    (hgrows : s.store.Grows (change s.store)) (hs : D.Inv { s with store := change s.store })
    (h : Q (change s.store) ()) :
    D.Conforms binds s (Eval.updateStore change) (Eval.updateStore change) Q :=
  update (fun _ => rfl) ⟨.refl _ _, rfl, hgrows⟩ hs h

theorem allocate {change : Store → α × Store} (hgrows : s.store.Grows (change s.store).2)
    (hs : D.Inv { s with store := (change s.store).2 })
    (h : Q (change s.store).2 (change s.store).1) :
    D.Conforms binds s (Eval.allocate change) (Eval.allocate change) Q :=
  ⟨fun _ _ => rfl, ⟨.refl _ _, rfl, hgrows⟩, hs, h⟩

/-! ## Caught results -/

theorem attempt (hx : D.Conforms binds s x y Q) :
    D.Conforms binds s (Action.attempt x) (Action.attempt y) (D.Caught Q) := by
  obtain ⟨twin, ends⟩ := hx
  cases hxs : x s with
  | ok a s' =>
      rw [hxs] at twin ends
      refine ⟨fun around hsuit => ?_, ?_⟩
      · rw [Action.attempt_of_ok (twin around hsuit), Action.attempt_of_ok hxs]
        rfl
      · rw [Action.attempt_of_ok hxs]
        exact ends
  | error fault s' =>
      rw [hxs] at twin ends
      refine ⟨fun around hsuit => ?_, ?_⟩
      · rw [Action.attempt_of_error (twin around hsuit), Action.attempt_of_error hxs]
        rfl
      · rw [Action.attempt_of_error hxs]
        exact ends
  | exhausted =>
      rw [hxs] at twin
      refine ⟨fun around hsuit => ?_, ?_⟩
      · rw [Action.attempt_of_exhausted (twin around hsuit), Action.attempt_of_exhausted hxs]
        rfl
      · rw [Action.attempt_of_exhausted hxs]
        trivial

theorem ofExcept (hs : D.Inv s) {result : Except Fault α} (h : D.Caught Q s.store result) :
    D.Conforms binds s (Action.ofExcept result) (Action.ofExcept result) Q := by
  cases result with
  | ok a => exact ⟨fun _ _ => rfl, .refl _ _, hs, h⟩
  | error fault => exact ⟨fun _ _ => rfl, .refl _ _, hs, h⟩

/-! ## Blocks and calls -/

/-- However the enclosed action ends, the second one follows; here it always succeeds. The twin runs
start in the surroundings `under i`, and they end as `restore i` says. -/
theorem thenAlways {ι : Type} (K : Session → Prop) (after : Eval Unit) (back : Session → Session)
    (under : ι → OuterScopes) (restore : ι → Session → Session)
    (hx : D.Conforms true s x y Q) (hsuit : ∀ i, (under i).Suit true s)
    (hback : ∀ s', s.Keeps true s' → D.Inv s' → after s' = .ok () (back s') ∧
      (∀ i, after (s'.amid (under i)) = .ok () (restore i (back s'))) ∧
      K (back s') ∧ D.Inv (back s') ∧ (back s').store = s'.store) :
    (∀ i, Eval.thenAlways y after (s.amid (under i)) =
      (Eval.thenAlways x after s).mapState (restore i)) ∧
    (Eval.thenAlways x after s).Ends
      (fun a s' => K s' ∧ D.Inv s' ∧ Q s'.store a)
      fun fault s' => K s' ∧ D.Inv s' ∧ D.Err s'.store fault.cause := by
  obtain ⟨twin, ends⟩ := hx
  cases hxs : x s with
  | ok a s' =>
      rw [hxs] at twin ends
      obtain ⟨hk, hs', ha⟩ := ends
      obtain ⟨hafter, hafter', hk', hinv, hstore⟩ := hback s' hk hs'
      rw [Eval.thenAlways_of_ok hxs hafter]
      refine ⟨fun i => ?_, hk', hinv, hstore ▸ ha⟩
      exact Eval.thenAlways_of_ok (twin (under i) (hsuit i)) (hafter' i)
  | error fault s' =>
      rw [hxs] at twin ends
      obtain ⟨hk, hs', he⟩ := ends
      obtain ⟨hafter, hafter', hk', hinv, hstore⟩ := hback s' hk hs'
      rw [Eval.thenAlways_of_error hxs hafter]
      refine ⟨fun i => ?_, hk', hinv, hstore ▸ he⟩
      exact Eval.thenAlways_of_error (twin (under i) (hsuit i)) (hafter' i)
  | exhausted =>
      rw [hxs] at twin
      rw [Eval.thenAlways_of_exhausted hxs]
      exact ⟨fun i => Eval.thenAlways_of_exhausted (twin (under i) (hsuit i)), trivial⟩

/-- A block may bind names; none of them is left when it ends. -/
theorem inScope (L : D.Laws) (hs : D.Inv s) (line : Nat)
    (hx : D.Conforms true s.entered x y Q) :
    D.Conforms false s (Eval.inScope line x) (Eval.inScope line y) Q := by
  have h := thenAlways (s.Keeps false) (Eval.exitScope line)
    (fun s' => { s' with scopes := s.scopes.closing s'.scopes }) (·.entered s)
    (fun around s' => s'.amid around) hx (fun _ _ => rfl) ?_
  · exact ⟨fun around _ => h.1 around, h.2⟩
  intro s' hk hs'
  obtain ⟨hexit, hkept⟩ := hk.scopes.exit_enter
  exact ⟨Eval.exitScope_of_ok hexit line, fun _ => Eval.exitScope_of_ok rfl line,
    ⟨hkept, hk.calls, hk.store⟩, L.exit hs hk hs' hexit, rfl⟩

/-- A call runs in an activation of its own: it does the same whatever variables its caller has, and
it leaves them as they were. -/
theorem withFrame_scopes (L : D.Laws) (hs : D.Inv s) (frame : CallFrame) (line : Nat)
    (hself : ∀ scope id, frame.member = some scope → scope.self = some id →
      D.Admits s.store scope.cls id)
    (hx : D.Inv (s.called frame) → D.Conforms true (s.called frame) x y Q) :
    (∀ scopes, Eval.withFrame frame line y { s with scopes } =
      (Eval.withFrame frame line x s).mapState fun s' => { s' with scopes }) ∧
    (Eval.withFrame frame line x s).Ends
      (fun a s' => (s'.scopes = s.scopes ∧ s.Keeps false s') ∧ D.Inv s' ∧ Q s'.store a)
      fun fault s' => (s'.scopes = s.scopes ∧ s.Keeps false s') ∧ D.Inv s' ∧
        D.Err s'.store fault.cause := by
  rcases Nat.lt_or_ge s.calls.length maxCallDepth with hlt | hge
  · have h := thenAlways (fun s' => s'.scopes = s.scopes ∧ s.Keeps false s') (Eval.exitCall line)
      (fun s' => { s' with scopes := s.scopes, calls := s.calls }) OuterScopes.called
      (fun scopes s' => { s' with scopes }) (hx (L.call hs hlt hself)) (fun _ _ => rfl) ?_
    · refine ⟨fun scopes => ?_, ?_⟩
      · rw [Eval.withFrame_of_lt (s := { s with scopes }) hlt, Eval.withFrame_of_lt hlt]
        exact h.1 scopes
      · rw [Eval.withFrame_of_lt hlt]
        exact h.2
    intro s' hk hs'
    have hexit := hk.scopes.exit_enterIsolated
    have hfinish := L.finish hs hk hs' hexit
    have htail : s'.calls.tail = s.calls := by rw [hk.calls]; rfl
    rw [htail] at hfinish
    refine ⟨?_, fun scopes => ?_, ⟨rfl, .refl _ _, rfl, hk.store⟩, hfinish, rfl⟩
    · rw [Eval.exitCall_of_ok hexit line, htail]
    · rw [Eval.exitCall_of_ok (s := s'.amid (.called scopes)) rfl line, ← htail]
      rfl
  · refine ⟨fun scopes => ?_, ?_⟩
    · rw [Eval.withFrame_of_le (s := { s with scopes }) hge, Eval.withFrame_of_le hge]
      rfl
    · rw [Eval.withFrame_of_le hge]
      exact ⟨⟨rfl, .refl _ _⟩, hs, L.err_ordinary rfl⟩

theorem withFrame (L : D.Laws) (hs : D.Inv s) (frame : CallFrame) (line : Nat)
    (hself : ∀ scope id, frame.member = some scope → scope.self = some id →
      D.Admits s.store scope.cls id)
    (hx : D.Inv (s.called frame) → D.Conforms true (s.called frame) x y Q) :
    D.Conforms false s (Eval.withFrame frame line x) (Eval.withFrame frame line y) Q := by
  obtain ⟨hscopes, hends⟩ := withFrame_scopes L hs frame line hself hx
  refine ⟨fun around _ => (hscopes (s.amid around).scopes).trans ?_,
    hends.mono (fun _ _ h => ⟨h.1.2, h.2⟩) fun _ _ h => ⟨h.1.2, h.2⟩⟩
  cases hrun : Eval.withFrame frame line x s with
  | ok a s' =>
      rw [hrun] at hends
      rw [Outcome.mapState, Outcome.mapState, Session.amid, Session.amid, hends.1.1]
  | error fault s' =>
      rw [hrun] at hends
      rw [Outcome.mapState, Outcome.mapState, Session.amid, Session.amid, hends.1.1]
  | exhausted => rfl

end Conforms

end Discipline

end ClassScript
