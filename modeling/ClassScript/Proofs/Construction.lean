import Mathlib.Data.List.Chain
import ClassScript.Proofs.Access.Constructors
import ClassScript.Proofs.Inheritance.Chain
import ClassScript.Proofs.Instantiation
import ClassScript.Proofs.Results

/-!
# Which constructors an instance runs

A class without a constructor has that of an ancestor, and a constructor starts with the one that
the parent of its class has, whether it says `parent(...)` or not. So the constructors of a lineage
follow each other without gaps, and their bodies run from the most distant ancestor down, each once,
on an object that has got all its fields before.

That no constructor is run on the object a second time does not show in how the run ends. It is read
off a run that leaves every other constructor of the object to another interpreter, which may do
anything.
-/

namespace ClassScript

/-! ## The constructors of a lineage -/

/-- The constructor that the class itself declares. -/
def declaredConstructor? (origins : List Origin) (cls : ClassId) : Option ConstructorInfo :=
  (declarationOf? origins cls).bind ClassDecl.constructorInfo?

namespace Store

/-- All classes of the lineage are declared, and they declare these constructors, nearest first. -/
def ConstructorsOf (st : Store) (cls : ClassId) (constructors : List ConstructorInfo) : Prop :=
  ∃ origins, st.Arises origins ∧
    (∀ c ∈ st.lineage cls, (declarationOf? origins c).isSome = true) ∧
    (st.lineage cls).filterMap (declaredConstructor? origins) = constructors

/-- The lineage goes on with that of the parent. -/
theorem Declares.lineage {st : Store} {cls : ClassId} {decl : ClassDecl}
    (h : st.Declares cls decl) :
    st.lineage cls = cls :: (decl.parentIn? st).elim [] st.lineage := by
  rw [Store.lineage, h.extended.ancestors]

/-- No class is its own ancestor. -/
theorem Arises.lineage_nodup {st : Store} {origins : List Origin} (h : st.Arises origins)
    {cls : ClassId} (hdeclared : ∀ c ∈ st.lineage cls, (declarationOf? origins c).isSome = true) :
    (st.lineage cls).Nodup ∧ ∀ c ∈ (st.classInfo cls).ancestors,
      (st.classInfo c).ancestors.length < (st.classInfo cls).ancestors.length := by
  obtain ⟨decl, hdecl⟩ := Option.isSome_iff_exists.mp (hdeclared cls List.mem_cons_self)
  have hlineage := (h.declares_of hdecl).lineage
  have hancestors := (h.declares_of hdecl).extended.ancestors
  cases hparent : decl.parentIn? st with
  | none =>
      rw [hparent] at hlineage hancestors
      rw [hlineage, hancestors]
      exact ⟨List.nodup_cons.mpr ⟨List.not_mem_nil, List.nodup_nil⟩,
        fun _ hc => absurd hc List.not_mem_nil⟩
  | some parent =>
      rw [hparent] at hlineage hancestors
      change st.lineage cls = cls :: st.lineage parent at hlineage
      change (st.classInfo cls).ancestors = st.lineage parent at hancestors
      have hlength : (st.classInfo cls).ancestors.length =
          (st.classInfo parent).ancestors.length + 1 := congrArg List.length hancestors
      have hparents : ∀ c ∈ st.lineage parent, (declarationOf? origins c).isSome = true :=
        fun c hc => hdeclared c (hlineage ▸ List.mem_cons_of_mem _ hc)
      obtain ⟨hnodup, hshorter⟩ := h.lineage_nodup hparents
      have hall : ∀ c ∈ (st.classInfo cls).ancestors,
          (st.classInfo c).ancestors.length < (st.classInfo cls).ancestors.length := by
        intro c hc
        rw [hancestors] at hc
        rcases List.mem_cons.mp hc with rfl | hc
        · omega
        · have := hshorter c hc
          omega
      refine ⟨?_, hall⟩
      rw [hlineage]
      refine List.nodup_cons.mpr ⟨fun hmem => ?_, hnodup⟩
      exact Nat.lt_irrefl _ (hall cls (hancestors ▸ hmem))
termination_by (st.classInfo cls).ancestors.length
decreasing_by omega

namespace ConstructorsOf

variable {st st' : Store} {cls : ClassId} {constructors : List ConstructorInfo}

/-- Seen from a class, the constructors are its own, if it declares one, and those of its parent. -/
theorem split (h : st.ConstructorsOf cls constructors) :
    ∃ decl above, st.Declares cls decl ∧ constructors = decl.constructorInfo?.toList ++ above ∧
      ((decl.parentIn? st = none ∧ above = []) ∨
        ∃ parent, decl.parentIn? st = some parent ∧ st.ConstructorsOf parent above) := by
  obtain ⟨origins, harises, hdeclared, rfl⟩ := h
  obtain ⟨decl, hdecl⟩ := Option.isSome_iff_exists.mp (hdeclared cls List.mem_cons_self)
  have hdeclares := harises.declares_of hdecl
  have hown : declaredConstructor? origins cls = decl.constructorInfo? := by
    rw [declaredConstructor?, hdecl]
    rfl
  have hlineage := hdeclares.lineage
  refine ⟨decl, ((decl.parentIn? st).elim [] st.lineage).filterMap (declaredConstructor? origins),
    hdeclares, ?_, ?_⟩
  · rw [hlineage, List.filterMap_cons, hown]
    cases decl.constructorInfo? <;> rfl
  · cases hparent : decl.parentIn? st with
    | none => exact .inl ⟨rfl, rfl⟩
    | some parent =>
        rw [hparent] at hlineage
        refine .inr ⟨parent, rfl, origins, harises, fun c hc => hdeclared c ?_, rfl⟩
        rw [hlineage]
        exact List.mem_cons_of_mem _ hc

/-- The constructor that a class has is the nearest one. -/
theorem constructor_eq (h : st.ConstructorsOf cls constructors) :
    (st.classInfo cls).constructor = constructors.head? := by
  obtain ⟨origins, harises, hdeclared, rfl⟩ := h
  have hchain : st.chain origins cls = st.lineage cls := by
    refine harises.chain_eq_lineage fun c hc hnone => ?_
    have hsome := hdeclared c hc
    rw [hnone] at hsome
    cases hsome
  rw [harises.constructor_eq cls, hchain, ← List.head?_filterMap]
  refine congrArg List.head? (List.filterMap_congr fun c hc => ?_)
  obtain ⟨decl, hdecl⟩ := Option.isSome_iff_exists.mp (hdeclared c hc)
  rw [ownConstructor?, declaredConstructor?, hdecl]
  rfl

/-- The class that declares the nearest constructor is registered, and its parent has the others. -/
theorem next {cls : ClassId} {constructor : ConstructorInfo} {rest : List ConstructorInfo}
    (h : st.ConstructorsOf cls (constructor :: rest)) :
    ∃ k, st.findClass? constructor.owner = some k ∧
      (((st.classInfo k).parent? = none ∧ rest = []) ∨
        ∃ parent, (st.classInfo k).parent? = some parent ∧ st.ConstructorsOf parent rest) := by
  obtain ⟨decl, above, hdeclares, hsplit, hparent⟩ := h.split
  have hancestors := hdeclares.extended.ancestors
  cases hown : decl.constructorInfo? with
  | some own =>
      rw [hown] at hsplit
      obtain ⟨rfl, rfl⟩ := List.cons.inj hsplit
      obtain ⟨_, _, rfl⟩ := Option.map_eq_some_iff.mp hown
      refine ⟨cls, hdeclares.registered, ?_⟩
      rw [hdeclares.parent?]
      exact hparent
  | none =>
      rw [hown] at hsplit
      obtain rfl : constructor :: rest = above := hsplit
      rcases hparent with ⟨-, habove⟩ | ⟨parent, hparent, habove⟩
      · cases habove
      · exact habove.next
termination_by (st.classInfo cls).ancestors.length
decreasing_by
  rw [hancestors, hparent]
  exact Nat.lt_succ_self _

end ConstructorsOf

/-- The constructors of a lineage stay the same. -/
theorem lasting_constructorsOf (cls : ClassId) (constructors : List ConstructorInfo) :
    Lasting fun st => st.ConstructorsOf cls constructors where
  kept := by
    rintro st st' ⟨origins, harises, hdeclared, hconstructors⟩ hkeeps
    have hlineage : st'.lineage cls = st.lineage cls :=
      congrArg (cls :: ·) (hkeeps.ancestors cls)
    refine ⟨origins, harises.changed hkeeps, ?_, ?_⟩
    · rw [hlineage]
      exact hdeclared
    · rw [hlineage]
      exact hconstructors
  enroll := by
    rintro st info ⟨origins, harises, hdeclared, hconstructors⟩ hinfo hname
    obtain ⟨origin, -, hdescribes⟩ := hinfo.describes
    have hsome (c : ClassId) (hc : c ∈ st.lineage cls) :
        declarationOf? (origins ++ [origin]) c = declarationOf? origins c := by
      obtain ⟨decl, hdecl⟩ := Option.isSome_iff_exists.mp (hdeclared c hc)
      have hlt := (List.getElem?_eq_some_iff.mp (origin_of_declarationOf? hdecl)).1
      rw [declarationOf?, declarationOf?, List.getElem?_append_left hlt]
    have hlineage : (st.enrollClass info).2.lineage cls = st.lineage cls := by
      obtain ⟨decl, hdecl⟩ := Option.isSome_iff_exists.mp (hdeclared cls List.mem_cons_self)
      have hlt := (List.getElem?_eq_some_iff.mp (origin_of_declarationOf? hdecl)).1
      rw [← harises.size] at hlt
      rw [lineage, classInfo_enrollClass, if_neg (Nat.ne_of_lt hlt), lineage]
    refine ⟨origins ++ [origin], harises.enrolled hdescribes hname, ?_, ?_⟩
    · rw [hlineage]
      intro c hc
      rw [hsome c hc]
      exact hdeclared c hc
    · rw [hlineage, ← hconstructors]
      refine List.filterMap_congr fun c hc => ?_
      rw [declaredConstructor?, declaredConstructor?, hsome c hc]

end Store

/-! ## Runs of constructors -/

/-- A run of the body of a constructor. -/
structure BodyRun where
  constructor : ConstructorInfo
  start : Session
  finish : Session

/-- The second body starts at once when the first one and its call have ended. -/
def BodyRun.LeadsTo (b b' : BodyRun) : Prop := ∃ s : Session, b'.start = s.resumed b.finish

/-- The run of a constructor from `s` to `s'`, with the bodies that ran for it on the object: its
own is the last one. The constructor of the parent class, if there is one, runs when the parameters
are bound and its arguments are evaluated. -/
inductive Constructs (run : Nat → Interpreter) :
    Nat → Construction → Session → List BodyRun → Session → Prop where
  | topmost {fuel : Nat} {c : Construction} {s t t' : Session} {signal : Signal}
      (hbind : bindParameters c.line c.constructor.decl.params c.arguments
        (s.called (c.frame s.store)) = .ok () t)
      (hbody : (run fuel).execAll c.constructor.decl.body t = .ok signal t')
      (hend : signal = .normal ∨ signal = .returned none) :
      Constructs run (fuel + 1) c s [⟨c.constructor, t, t'⟩] (s.resumed t')
  | chained {fuel : Nat} {c : Construction} {s t₁ t₂ t₃ t₄ : Session} {args : List Value}
      {parent : ConstructorInfo} {bodies : List BodyRun} {signal : Signal}
      (hbind : bindParameters c.line c.constructor.decl.params c.arguments
        (s.called (c.frame s.store)) = .ok () t₁)
      (hargs : (run fuel).evalAll (c.constructor.decl.parentArguments.getD []) t₁ = .ok args t₂)
      (hparent : Constructs run fuel { c with constructor := parent, arguments := args } t₂ bodies
        t₃)
      (hbody : (run fuel).execAll c.constructor.decl.body t₃ = .ok signal t₄)
      (hend : signal = .normal ∨ signal = .returned none) :
      Constructs run (fuel + 1) c s (bodies ++ [⟨c.constructor, t₃, t₄⟩]) (s.resumed t₄)

namespace Constructs

variable {run : Nat → Interpreter} {fuel : Nat} {c : Construction} {s s' : Session}
  {bodies : List BodyRun}

/-- The session is left as the last body left it. -/
theorem last (h : Constructs run fuel c s bodies s') :
    ∃ b, bodies.getLast? = some b ∧ s' = s.resumed b.finish := by
  cases h with
  | topmost => exact ⟨_, rfl, rfl⟩
  | chained => exact ⟨_, List.getLast?_concat, rfl⟩

/-- The bodies follow each other. -/
theorem isChain (h : Constructs run fuel c s bodies s') : bodies.IsChain BodyRun.LeadsTo := by
  induction h with
  | topmost => exact .singleton _
  | @chained _ _ _ _ t₂ _ _ _ _ _ _ _ _ hparent _ _ ih =>
      refine ih.append (.singleton _) fun b hb b' hb' => ?_
      obtain ⟨last, hlast, hresumed⟩ := hparent.last
      obtain rfl := Option.some.inj (hlast.symm.trans hb)
      obtain rfl := Option.some.inj hb'
      exact ⟨t₂, hresumed⟩

theorem calls (h : Constructs run fuel c s bodies s') : s'.calls = s.calls := by
  obtain ⟨b, -, rfl⟩ := h.last
  rfl

end Constructs

namespace Interpreter

open Discipline

variable {fuel : Nat} {c : Construction} {s s' : Session}

/-- Each body runs as code of the class that declares the constructor, on the object. -/
theorem member?_of_constructs {bodies : List BodyRun}
    (h : Constructs interpreter fuel c s bodies s') : ∀ b ∈ bodies,
    b.start.member? = some { cls := c.cls, owner := b.constructor.owner, self := some c.self } := by
  induction h with
  | topmost hbind =>
      intro b hb
      obtain rfl := List.mem_singleton.mp hb
      exact member?_of_bindParameters hbind
  | @chained fuel _ _ t₁ _ _ _ _ _ _ _ hbind hargs hparent _ _ ih =>
      intro b hb
      rcases List.mem_append.mp hb with hb | hb
      · exact ih b hb
      · obtain rfl := List.mem_singleton.mp hb
        have hkeeps := (free_laws.evalAll_conforms (free_laws.interpreter_runs fuel) (free_inv t₁)
          _).of_ok hargs
        refine Eq.trans (Session.member?_of_calls ?_) (member?_of_bindParameters hbind)
        exact hparent.calls.trans hkeeps.1.calls

theorem evalAll_nil {run : Interpreter} {es : List Expr} (h : run.evalAll es s = .ok [] s') :
    s' = s := by
  cases es with
  | nil => cases h; rfl
  | cons e rest =>
      obtain ⟨v, s₁, -, hrest⟩ := Action.ok_of_bind h
      obtain ⟨vs, s₂, -, hcons⟩ := Action.ok_of_bind hrest
      cases hcons

/-- The body of a constructor ends normally or returns without a value. -/
theorem ends_of_callResult {name : String} {signal : Signal} {st : Store} {v : Value}
    (h : callResult name .void signal st = .ok v) : signal = .normal ∨ signal = .returned none := by
  cases signal with
  | normal => exact .inl rfl
  | returned result =>
      cases result with
      | none => exact .inr rfl
      | some w => cases h
  | breakLoop | continueLoop | thrown => cases h

theorem construct_stages (h : (interpreter (fuel + 1)).construct c s = .ok () s') :
    ∃ t₁ t₂ t₃ signal,
      bindParameters c.line c.constructor.decl.params c.arguments
        (s.called (c.frame s.store)) = .ok () t₁ ∧
      (interpreter fuel).constructParent c t₁ = .ok () t₂ ∧
      (interpreter fuel).execAll c.constructor.decl.body t₂ = .ok signal t₃ ∧
      (signal = .normal ∨ signal = .returned none) ∧ s' = s.resumed t₃ := by
  obtain ⟨_, s₁, hask, h₁⟩ := Action.ok_of_bind h
  obtain ⟨rfl, -⟩ := Eval.ok_of_ask hask
  rw [Action.read_bind] at h₁
  obtain ⟨signal, s₂, hframe, h₂⟩ := Action.ok_of_bind h₁
  obtain ⟨_, s₃, hresult, h₃⟩ := Action.ok_of_bind h₂
  obtain ⟨rfl, hok⟩ := Eval.ok_of_ask hresult
  cases h₃
  rcases Nat.lt_or_ge s₁.calls.length maxCallDepth with hroom | hfull
  · have hcode := free_laws.constructorCode_conforms (free_laws.interpreter_runs fuel)
      (free_inv (s₁.called (c.frame s₁.store))) c trivial ⟨trivial, trivial⟩ fun _ _ => trivial
    obtain ⟨t₃, hcode, rfl⟩ := (hcode.withFrame_gives hroom c.line).mp (Action.gives_ok.mpr hframe)
    obtain ⟨_, t₁, hbind, hcode⟩ := Action.ok_of_bind (Action.gives_ok.mp hcode)
    obtain ⟨_, t₂, hparent, hbody⟩ := Action.ok_of_bind hcode
    exact ⟨t₁, t₂, t₃, signal, hbind, hparent, hbody, ends_of_callResult hok, rfl⟩
  · rw [Eval.withFrame_of_le hfull] at hframe
    cases hframe

theorem constructParent_stages {run : Interpreter} (h : run.constructParent c s = .ok () s') :
    ∃ k, s.store.findClass? c.constructor.owner = some k ∧
      (((s.store.classInfo k).parent? = none ∧ s' = s) ∨
        ∃ parent args t, (s.store.classInfo k).parent? = some parent ∧
          run.evalAll (c.constructor.decl.parentArguments.getD []) s = .ok args t ∧
          (((t.store.classInfo parent).constructor = none ∧ args = [] ∧ s' = t) ∨
            ∃ constructor, (t.store.classInfo parent).constructor = some constructor ∧
              run.construct { c with constructor, arguments := args } t = .ok () s')) := by
  obtain ⟨k, s₁, hask, h₁⟩ := Action.ok_of_bind h
  obtain ⟨rfl, hclass⟩ := Eval.ok_of_ask hask
  refine ⟨k, (s₁.store.getClass_answers c.constructor.owner).of_ok hclass, ?_⟩
  rw [Action.read_bind] at h₁
  cases hparent : (s₁.store.classInfo k).parent? with
  | none =>
      rw [hparent] at h₁
      dsimp only at h₁
      split at h₁
      · cases h₁
      · cases h₁
        exact .inl ⟨rfl, rfl⟩
  | some parent =>
      rw [hparent] at h₁
      obtain ⟨args, t, hargs, h₂⟩ := Action.ok_of_bind h₁
      rw [Action.read_bind] at h₂
      refine .inr ⟨parent, args, t, rfl, hargs, ?_⟩
      cases hconstructor : (t.store.classInfo parent).constructor with
      | some constructor =>
          rw [hconstructor] at h₂
          exact .inr ⟨constructor, rfl, h₂⟩
      | none =>
          rw [hconstructor] at h₂
          dsimp only at h₂
          split at h₂
          next hempty =>
              cases h₂
              exact .inl ⟨rfl, List.isEmpty_iff.mp hempty, rfl⟩
          next => cases h₂

/-- A constructor that succeeds has run the constructors of the lineage, the most distant one
first. The induction is on the fuel, one constructor for each unit. -/
theorem constructs_of_construct {cls : ClassId} {rest : List ConstructorInfo}
    (hconstructors : s.store.ConstructorsOf cls (c.constructor :: rest))
    (h : (interpreter fuel).construct c s = .ok () s') :
    ∃ bodies, Constructs interpreter fuel c s bodies s' ∧
      bodies.map BodyRun.constructor = (c.constructor :: rest).reverse := by
  induction fuel generalizing c s s' cls rest with
  | zero => cases h
  | succ fuel ih =>
      obtain ⟨t₁, t₂, t₃, signal, hbind, hparent, hbody, hend, rfl⟩ := construct_stages h
      have L := lasting_laws (Store.lasting_constructorsOf cls (c.constructor :: rest))
      have hbound := (L.bindParameters_conforms (s := s.called (c.frame s.store)) hconstructors
        c.line c.constructor.decl.params c.arguments fun _ _ => trivial).of_ok hbind
      obtain ⟨k, hk, hstages⟩ := constructParent_stages hparent
      obtain ⟨k', hk', hnext⟩ := Store.ConstructorsOf.next hbound.2.1
      obtain rfl := Option.some.inj (hk.symm.trans hk')
      rcases hstages with ⟨hnone, rfl⟩ | ⟨parent, args, t, hsome, hargs, hstages⟩
      · rcases hnext with ⟨-, rfl⟩ | ⟨parent, hsome, -⟩
        · exact ⟨_, .topmost hbind hbody hend, rfl⟩
        · cases hnone.symm.trans hsome
      · rcases hnext with ⟨hnone, -⟩ | ⟨parent', hsome', hrest⟩
        · cases hnone.symm.trans hsome
        obtain rfl := Option.some.inj (hsome.symm.trans hsome')
        -- The arguments for the parent may declare classes, which changes none of the lineage.
        have L' := lasting_laws (Store.lasting_constructorsOf parent rest)
        have hevaluated := (L'.evalAll_conforms (L'.interpreter_runs fuel) hrest _).of_ok hargs
        have hconstructor := Store.ConstructorsOf.constructor_eq hevaluated.2.1
        rcases hstages with ⟨hnone, rfl, rfl⟩ | ⟨constructor, hsome, hconstruct⟩
        · obtain rfl := evalAll_nil hargs
          obtain rfl := List.head?_eq_none_iff.mp (hconstructor.symm.trans hnone)
          exact ⟨_, .topmost hbind hbody hend, rfl⟩
        · obtain ⟨above, rfl⟩ := List.head?_eq_some_iff.mp (hconstructor.symm.trans hsome)
          obtain ⟨bodies, hbodies, hmap⟩ := ih (c := { c with constructor, arguments := args })
            hevaluated.2.1 hconstruct
          refine ⟨_, .chained hbind hargs hbodies hbody hend, ?_⟩
          rw [List.map_append, hmap, List.reverse_cons (a := c.constructor)]
          rfl

end Interpreter

/-! ## No other constructor of the object -/

/-- Leaves to `other` every constructor of the object. -/
def Interpreter.sparing (run : Interpreter) (self : ObjectId) (other : Interpreter) : Interpreter :=
  run.granting (fun _ c => c.self ≠ self) other

/-- The interpreter that, at every level, leaves to `other` every constructor of the object. -/
def interpreterSparing (self : ObjectId) (other : Interpreter) : Nat → Interpreter :=
  interpreterWrapped (·.sparing self other)

/-- A write to a field makes no objects. -/
theorem Store.size_objects_putField (st : Store) (id : ObjectId) (name : String) (v : Value) :
    (st.putField id name v).objects.size = st.objects.size :=
  Array.size_modify

namespace Discipline

/-- The object is there, and no constructor runs on it. -/
def sparing (self : ObjectId) : Discipline :=
  { free with
    Inv := fun s => self < s.store.objects.size
    Built := fun id => id ≠ self }

theorem sparing_laws (self : ObjectId) : (sparing self).Laws where
  __ := free_laws
  val_stored _ _ := trivial
  val_self _ _ _ := trivial
  cls_named _ _ := trivial
  init_field _ _ _ := trivial
  meth_found _ _ := False.elim
  native {s _ _ _} cls _ := free_laws.native cls (free_inv s)
  enter hs := hs
  exit _ _ hs _ := hs
  call hs _ _ := hs
  finish _ _ hs _ := hs
  declare hs _ _ := hs
  assign hs _ _ := hs
  newArray hs _ := ⟨hs, trivial⟩
  putItem hs _ _ := hs
  newObject {s _} hs _ := by
    refine ⟨?_, trivial⟩
    change self < (s.store.objects.push _).size
    rw [Array.size_push]
    exact Nat.lt_succ_of_lt hs
  -- A new object is not one that is there.
  built_new hs := Nat.ne_of_gt hs
  receives_object _ _ := trivial
  receives_self _ _ _ := trivial
  initField {s _ _ _ _} _ hs _ _ _ _ _ :=
    Nat.lt_of_lt_of_eq hs (s.store.size_objects_putField _ _ _).symm
  writeField {s _ _ _} hs _ _ := Nat.lt_of_lt_of_eq hs (s.store.size_objects_putField _ _ _).symm
  enroll hs _ _ := ⟨hs, trivial⟩
  initStatic hs _ _ _ _ _ _ := hs
  writeStatic hs _ _ := hs
  functions hs := hs
  console hs := hs
  included hs := hs

variable {self : ObjectId} {run run' : Interpreter}

theorem runs_sparing (hrun : (sparing self).Runs run run') (other : Interpreter) :
    (sparing self).Runs (run.sparing self other) run' where
  eval := hrun.eval
  exec := hrun.exec
  construct hs c hbuilt hself hargs :=
    (hrun.construct hs c hbuilt hself hargs).congr (run.granting_construct _ other hbuilt)

theorem interpreterSparing_runs (self : ObjectId) (other : Interpreter) (fuel : Nat) :
    (sparing self).Runs (interpreterSparing self other fuel) (interpreter fuel) :=
  (sparing_laws self).interpreterWrapped_runs (runs_sparing · other) fuel

/-- What one of two conforming runs does, the other one does. -/
theorem Conforms.same_of_ok {D : Discipline} {α : Type} {binds : Bool} {s s' : Session}
    {x y : Eval α} {Q : Store → α → Prop} {a : α} (h : D.Conforms binds s x y Q)
    (hy : y s = .ok a s') : x s = .ok a s' ∧ D.Inv s' := by
  have hx := h.eq.symm.trans hy
  exact ⟨hx, (h.of_ok hx).2.1⟩

end Discipline

open Discipline in
/-- The run of a constructor needs no further constructor of an object that is there. -/
theorem Constructs.spares {self : ObjectId} {fuel : Nat} {c : Construction} {s s' : Session}
    {bodies : List BodyRun} (h : Constructs interpreter fuel c s bodies s')
    (hs : self < s.store.objects.size) (other : Interpreter) :
    Constructs (interpreterSparing self other) fuel c s bodies s' ∧
      self < s'.store.objects.size := by
  have L := sparing_laws self
  induction h with
  | @topmost fuel c s _ _ _ hbind hbody hend =>
      have hrun := interpreterSparing_runs self other fuel
      obtain ⟨-, ht⟩ := (L.bindParameters_conforms (s := s.called (c.frame s.store)) hs c.line _
        c.arguments fun _ _ => trivial).same_of_ok hbind
      obtain ⟨hbody, ht'⟩ := (Laws.execAll_conforms hrun ht _).same_of_ok hbody
      exact ⟨.topmost hbind hbody hend, ht'⟩
  | @chained fuel c s _ _ _ _ _ _ _ _ hbind hargs _ hbody hend ih =>
      have hrun := interpreterSparing_runs self other fuel
      obtain ⟨-, ht₁⟩ := (L.bindParameters_conforms (s := s.called (c.frame s.store)) hs c.line _
        c.arguments fun _ _ => trivial).same_of_ok hbind
      obtain ⟨hargs, ht₂⟩ := (L.evalAll_conforms hrun ht₁ _).same_of_ok hargs
      obtain ⟨hparent, ht₃⟩ := ih ht₂
      obtain ⟨hbody, ht₄⟩ := (Laws.execAll_conforms hrun ht₃ _).same_of_ok hbody
      exact ⟨.chained hbind hargs hparent hbody hend, ht₄⟩

namespace Interpreter

open Discipline

variable {fuel : Nat} {s s' : Session}

/-- The object is made and gets its fields without a constructor. -/
theorem initializeFields_spares {cls : ClassId} {line : Nat} {fields : List FieldInfo}
    (h : (interpreter fuel).initializeFields cls s.store.objects.size line fields (s.made cls) =
      .ok () s') (other : Interpreter) :
    (interpreterSparing s.store.objects.size other fuel).initializeFields cls s.store.objects.size
        line fields (s.made cls) = .ok () s' ∧
      s.store.objects.size < s'.store.objects.size := by
  have L := sparing_laws s.store.objects.size
  have hmade : s.store.objects.size < (s.made cls).store.objects.size := by
    change _ < (s.store.objects.push _).size
    rw [Array.size_push]
    exact Nat.lt_succ_self _
  exact (L.initializeFields_conforms_of (interpreterSparing_runs _ other fuel) hmade line fields
    (.newObject _ cls) trivial fun _ _ => ⟨trivial, fun {s _} hs _ _ _ _ =>
      Nat.lt_of_lt_of_eq hs (s.store.size_objects_putField _ _ _).symm⟩).same_of_ok h

/-- The constructors of the class are known when the fields of the new object are initialized. -/
theorem constructorsOf_of_instantiates {className : String} {arguments : List Expr} {line : Nat}
    {cls : ClassId} {args : List Value} {s₁ s₂ : Session} {constructors : List ConstructorInfo}
    (hs : s.store.ConstructorsOf cls constructors)
    (h : (interpreter fuel).Instantiates className arguments line cls args s s₁ s₂ s') :
    s₂.store.ConstructorsOf cls constructors := by
  have hlasting := Store.lasting_constructorsOf cls constructors
  have L := lasting_laws hlasting
  have hrun := L.interpreter_runs fuel
  have hs₁ := ((L.evalAll_conforms hrun hs arguments).of_ok h.evaluated).2.1
  have hmade := hlasting.kept hs₁ ⟨s₁.store.grows_newObject cls, rfl, rfl⟩
  exact ((L.initializeFields_conforms (s := s₁.made cls) hrun hmade line _
    ⟨s₁, hs₁, Nat.le_refl _⟩ (.newObject _ cls) trivial fun field hfield =>
      ⟨trivial, by simpa using (List.mem_filter.mp hfield).2⟩).of_ok h.initialized).2.1

end Interpreter

open Interpreter in
/-- A `new` that succeeds, of a class whose whole lineage is declared, makes an object, initializes
all fields in the table of the class, and then runs the constructors that the classes of the lineage
declare: their bodies, from the most distant ancestor down, each starting where the one before
ended, and all as code on the object. They are all the constructors that ever run on it. What any
`other` interpreter would do with a constructor of the object makes no difference: not while the
fields are initialized, not in the parent arguments and the bodies, and not in any later program. -/
theorem constructors_run_once {s s' : Session} {origins : List Origin} (h : s.store.Arises origins)
    {fuel : Nat} {className : String} {arguments : List Expr} {line : Nat} {expected : Option Ty}
    {v : Value} {cls : ClassId} (hnamed : s.store.findClass? className = some cls)
    (hdeclared : ∀ c ∈ s.store.lineage cls, (declarationOf? origins c).isSome = true)
    (hnew : evaluate (fuel + 1) (.new className arguments line) expected s = .ok v s') :
    (s.store.lineage cls).Nodup ∧
    ∃ self args s₁ s₂ bodies, self = s₁.store.objects.size ∧ v = .object self ∧
      (interpreter fuel).Instantiates className arguments line cls args s s₁ s₂ s' ∧
      bodies.map BodyRun.constructor =
        (s.store.lineage cls).reverse.filterMap (declaredConstructor? origins) ∧
      bodies.IsChain BodyRun.LeadsTo ∧
      (∀ b ∈ bodies, b.start.member? =
        some { cls, owner := b.constructor.owner, self := some self }) ∧
      ∀ other,
        (interpreterSparing self other fuel).initializeFields cls self line
          (instanceFields (s₁.store.classInfo cls)) (s₁.made cls) = .ok () s₂ ∧
        ((bodies = [] ∧ s' = s₂) ∨ ∃ constructor, Constructs (interpreterSparing self other) fuel
          { cls, constructor, self, arguments := args, line } s₂ bodies s') ∧
        ∀ fuel program (t : Session), self < t.store.objects.size →
          (interpreterSparing self other fuel).execProgram program t =
            runProgram fuel program t := by
  refine ⟨(h.lineage_nodup hdeclared).1, ?_⟩
  obtain ⟨cls', args, s₁, s₂, rfl, stages⟩ := new_stages hnew
  obtain rfl := Option.some.inj (hnamed.symm.trans stages.named)
  have hlater (other : Interpreter) (fuel : Nat) (program : Program) (t : Session)
      (ht : s₁.store.objects.size < t.store.objects.size) :
      (interpreterSparing s₁.store.objects.size other fuel).execProgram program t =
        runProgram fuel program t :=
    (Discipline.Laws.execProgram_conforms (Discipline.sparing_laws _)
      (Discipline.interpreterSparing_runs _ other fuel) ht program).eq.symm
  have hconstructors := constructorsOf_of_instantiates ⟨origins, h, hdeclared, rfl⟩ stages
  have hnearest := hconstructors.constructor_eq
  rw [List.filterMap_reverse]
  cases hlist : (s.store.lineage cls).filterMap (declaredConstructor? origins) with
  | nil =>
      rw [hlist] at hnearest
      refine ⟨_, args, s₁, s₂, [], rfl, rfl, stages, rfl, .nil,
        fun _ hb => absurd hb List.not_mem_nil, fun other => ?_⟩
      obtain ⟨hinitialized, -⟩ := initializeFields_spares stages.initialized other
      exact ⟨hinitialized, .inl ⟨rfl, stages.unconstructed hnearest⟩, hlater other⟩
  | cons constructor rest =>
      rw [hlist] at hnearest hconstructors
      obtain ⟨bodies, hbodies, hmap⟩ :=
        constructs_of_construct hconstructors (stages.constructed constructor hnearest)
      refine ⟨_, args, s₁, s₂, bodies, rfl, rfl, stages, hmap, hbodies.isChain,
        member?_of_constructs hbodies, fun other => ?_⟩
      obtain ⟨hinitialized, hs₂⟩ := initializeFields_spares stages.initialized other
      exact ⟨hinitialized, .inr ⟨constructor, (hbodies.spares hs₂ other).1⟩, hlater other⟩

/-- The class in the middle of the lineage declares no constructor, and nobody says
`parent(...)`. -/
theorem constructors_run_once_skipping :
    let greet (text : String) : List Statement :=
      [.expression (.call "println" [.literal (.string text) 1] 1) 1]
    let a : ClassDecl := .ofConstructor "A" [] .everyone (greet "A")
    let b : ClassDecl := { ClassDecl.ofConstructor "B" ["A"] .everyone [] with constructor := none }
    let c : ClassDecl := .ofConstructor "C" ["B"] .everyone (greet "C")
    let enroll (st : Store) (decl : ClassDecl) : Store :=
      (st.enrollClass ((ClassInfo.ofDecl st decl).toOption.getD (.blank ""))).2
    let st := enroll (enroll (enroll .empty a) b) c
    let s := { Session.start (fun _ => .error .unknownModule) [] with store := st }
    let origins : List Origin := [.declared a, .declared b, .declared c]
    s.store.Arises origins ∧ s.store.findClass? "C" = some 2 ∧
      (∀ cls ∈ s.store.lineage 2, (declarationOf? origins cls).isSome = true) ∧
      ∃ v s', evaluate 9 (.new "C" [] 2) none s = .ok v s' ∧
        s'.console.output.toList = ["A", "C"] ∧
        ∃ bodies : List BodyRun, bodies.IsChain BodyRun.LeadsTo ∧
          bodies.map BodyRun.constructor = [a, c].filterMap ClassDecl.constructorInfo? := by
  intro greet a b c enroll st s origins
  have harises : s.store.Arises origins := by
    have ha : ClassInfo.ofDecl .empty a = .ok _ := rfl
    have hb : ClassInfo.ofDecl (enroll .empty a) b = .ok _ := rfl
    have hc : ClassInfo.ofDecl (enroll (enroll .empty a) b) c = .ok _ := rfl
    exact ((Store.Arises.empty.enrolled (.declared ha) rfl).enrolled (.declared hb) rfl).enrolled
      (.declared hc) rfl
  have hdeclared : ∀ cls ∈ s.store.lineage 2, (declarationOf? origins cls).isSome = true := by
    decide +kernel
  have hok : (evaluate 9 (.new "C" [] 2) none s).isOkWith
      (fun _ s' => s'.console.output.toList == ["A", "C"]) = true := by decide +kernel
  obtain ⟨v, s', hnew, hprinted⟩ := Outcome.exists_of_isOkWith hok
  have hnamed : s.store.findClass? "C" = some 2 := by decide +kernel
  obtain ⟨-, _, _, _, _, bodies, -, -, -, hbodies, hchain, -⟩ :=
    constructors_run_once harises hnamed hdeclared hnew
  exact ⟨harises, hnamed, hdeclared, v, s', hnew, beq_iff_eq.mp hprinted, bodies, hchain,
    hbodies⟩

end ClassScript
