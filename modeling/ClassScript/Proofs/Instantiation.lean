import ClassScript.Proofs.Answers
import ClassScript.Proofs.Conformance

/-!
# How an instance is made

A `new` that succeeds evaluates its arguments, makes an object without fields, gives it the fields
of its class one after the other, and then runs a constructor if the class has one.
-/

namespace ClassScript

/-- The session in which a new object of the class has been made. -/
def Session.made (s : Session) (cls : ClassId) : Session :=
  { s with store := (s.store.newObject cls).2 }

/-- The frame in which the constructor runs. -/
def Construction.frame (c : Construction) (st : Store) : CallFrame :=
  memberFrame st "constructor"
    { cls := c.cls, owner := c.constructor.owner, self := some c.self } .void

namespace Interpreter

variable {run : Interpreter} {s s' : Session} {line : Nat}

/-- The stages of a `new` that led from `s` to `s'`: it made an object of the class `cls` in `s₁`,
after the arguments, and the object had its fields in `s₂`. -/
structure Instantiates (run : Interpreter) (className : String) (arguments : List Expr)
    (line : Nat) (cls : ClassId) (args : List Value) (s s₁ s₂ s' : Session) : Prop where
  named : s.store.findClass? className = some cls
  evaluated : run.evalAll arguments s = .ok args s₁
  permitted : checkConstructor cls args s₁ = .ok ()
  initialized : run.initializeFields cls s₁.store.objects.size line
    (instanceFields (s₁.store.classInfo cls)) (s₁.made cls) = .ok () s₂
  constructed : ∀ constructor, (s₂.store.classInfo cls).constructor = some constructor →
    run.construct { cls, constructor, self := s₁.store.objects.size, arguments := args, line } s₂ =
      .ok () s'
  unconstructed : (s₂.store.classInfo cls).constructor = none → s' = s₂

theorem new_stages {className : String} {arguments : List Expr} {v : Value}
    (h : run.new className arguments line s = .ok v s') :
    ∃ cls args s₁ s₂, v = .object s₁.store.objects.size ∧
      run.Instantiates className arguments line cls args s s₁ s₂ s' := by
  obtain ⟨cls, s₀, hcls, h₀⟩ := Action.ok_of_bind h
  obtain ⟨rfl, hinstantiable⟩ := Eval.ok_of_ask hcls
  have hnamed := (s₀.store.instantiable_answers className).of_ok hinstantiable
  obtain ⟨args, s₁, hargs, h₁⟩ := Action.ok_of_bind h₀
  obtain ⟨_, s₂, hcheck, h₂⟩ := Action.ok_of_bind h₁
  obtain ⟨rfl, hpermitted⟩ := Eval.ok_of_ask hcheck
  obtain ⟨self, s₃, hself, h₃⟩ := Action.ok_of_bind h₂
  obtain ⟨rfl, rfl⟩ := Eval.ok_of_allocate hself
  rw [Action.read_bind] at h₃
  obtain ⟨_, s₄, hinit, h₄⟩ := Action.ok_of_bind h₃
  rw [Action.read_bind] at h₄
  refine ⟨cls, args, s₂, s₄, ?_⟩
  cases hconstructor : (s₄.store.classInfo cls).constructor with
  | none =>
      rw [hconstructor] at h₄
      cases h₄
      refine ⟨rfl, hnamed, hargs, hpermitted, hinit, fun constructor hsome => ?_, fun _ => rfl⟩
      cases hconstructor.symm.trans hsome
  | some constructor =>
      rw [hconstructor] at h₄
      obtain ⟨_, s₅, hconstruct, h₅⟩ := Action.ok_of_bind h₄
      cases h₅
      refine ⟨rfl, hnamed, hargs, hpermitted, hinit, fun other hother => ?_, fun hnone => ?_⟩
      · obtain rfl := Option.some.inj (hconstructor.symm.trans hother)
        exact hconstruct
      · cases hconstructor.symm.trans hnone

/-- Around one of the fields that an object is given. -/
theorem initializeFields_split {cls : ClassId} {self : ObjectId} {before after : List FieldInfo}
    {field : FieldInfo}
    (h : run.initializeFields cls self line (before ++ field :: after) s = .ok () s') :
    ∃ s₁ v s₂, run.initializeFields cls self line before s = .ok () s₁ ∧
      run.fieldValue field { cls, owner := field.owner, self := some self } line s₁ = .ok v s₂ ∧
      run.initializeFields cls self line after
        { s₂ with store := s₂.store.putField self field.name v } = .ok () s' := by
  induction before generalizing s with
  | nil =>
      obtain ⟨v, s₂, hvalue, h⟩ := Action.ok_of_bind h
      obtain ⟨_, s₃, hput, hafter⟩ := Action.ok_of_bind h
      cases hput
      exact ⟨s, v, s₂, rfl, hvalue, hafter⟩
  | cons first rest ih =>
      obtain ⟨w, s₁, hfirst, h⟩ := Action.ok_of_bind h
      obtain ⟨_, s₂, hput, hrest⟩ := Action.ok_of_bind h
      obtain ⟨s₃, v, s₄, hbefore, hvalue, hafter⟩ := ih hrest
      refine ⟨s₃, v, s₄, ?_, hvalue, hafter⟩
      refine (Action.bind_of_ok hfirst).trans ?_
      exact (Action.bind_of_ok hput).trans hbefore

end Interpreter

end ClassScript
