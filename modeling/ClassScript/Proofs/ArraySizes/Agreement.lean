import ClassScript.Proofs.ArraySizes.Running
import ClassScript.Proofs.Inheritance.Overlay
import ClassScript.Proofs.Isolation
import ClassScript.Proofs.Results

/-!
# Sizes of arrays in declarations

A size that is written as a literal is checked when the declaration is read and any other size when
it is run, by one rule: a size other than zero is the number of items. So a declaration that
succeeds has an array of its size, as a variable and as a field, unless its initializer gave no
array or the size was zero.
-/

namespace ClassScript

/-! ## Where declarations are run -/

/-- A variable is declared in the innermost block, a field gets its first value in a call that is
made for it. -/
inductive Site where
  | inBlock
  | inClass (cls : ClassDecl) (field : FieldDecl) (scope : MemberScope) (line : Nat)

theorem ScopeStack.Keeps.isDeclaredHere {a b : ScopeStack} (h : a.Keeps false b) (name : String) :
    b.isDeclaredHere name = a.isDeclaredHere name := by
  rw [ScopeStack.isDeclaredHere, ScopeStack.slotOf?, h.bindings rfl, h.base]
  rfl

theorem ScopeStack.lookup?_bind (scopes : ScopeStack) (name : String) (slot : Slot) :
    (scopes.bind name slot).lookup? name = some slot.value := by
  have hslot : (scopes.bind name slot).slotOf? name = some scopes.current.slots.size :=
    (Table.find?_insert _ _ _ _).trans (if_pos rfl)
  have hpushed : (scopes.bind name slot).current.slots[scopes.current.slots.size]? = some slot :=
    Array.getElem?_push_size
  rw [lookup?, hslot, Option.bind_eq_bind, Option.bind_some, hpushed]
  rfl

theorem ScopeStack.declarable_of_accepts (scopes : ScopeStack) {st : Store} {ty : Ty} {v : Value}
    (h : st.accepts ty v = true) (name : String) :
    scopes.declarable st name ty v =
      if scopes.isDeclaredHere name then .error (.alreadyDeclared name) else .ok () := by
  rw [declarable, Store.check, if_pos h]
  rfl

namespace Interpreter

variable {decl : VariableDecl} {s s' : Session} {k : Nat}

theorem declaredValue_keeps {r : Except Fault Value}
    (h : ((interpreter k).declaredValue decl).Gives s r s') : s.Keeps false s' :=
  (Discipline.free_laws.declaredValue_conforms (Discipline.free_laws.interpreter_runs k)
    (Discipline.free_inv s) decl).keeps_of_gives h

/-- The value is computed under the names of the block, and none is added. -/
theorem declaredValue_isDeclaredHere {v : Value}
    (h : (interpreter k).declaredValue decl s = .ok v s') (name : String) :
    s'.scopes.isDeclaredHere name = s.scopes.isDeclaredHere name :=
  (declaredValue_keeps (Action.gives_ok.mpr h)).scopes.isDeclaredHere name

theorem execute_declare {v : Value} (h : (interpreter k).declaredValue decl s = .ok v s') :
    execute (k + 1) (.declare decl) s =
      (Eval.declareVariable decl.name decl.ty v decl.isConst decl.line >>=
        fun _ => pure Signal.normal) s' := by
  have hrun : execute (k + 1) (.declare decl) =
      (interpreter k).declaredValue decl >>= fun v =>
        Eval.declareVariable decl.name decl.ty v decl.isConst decl.line >>=
          fun _ => pure Signal.normal := Action.bind_assoc _ _ _
  rw [hrun, Action.bind_of_ok h]

theorem fieldValue_declared (run : Interpreter) {field : FieldInfo}
    (hinit : field.init = .declared decl) (scope : MemberScope) (line : Nat) (s : Session) :
    run.fieldValue field scope line s =
      (Eval.withFrame (memberFrame s.store field.name scope field.ty) line
        (run.declaredValue decl) >>= fun v =>
          Eval.askStore line (fun st => st.check field.ty v) >>= fun _ => pure v) s := by
  rw [fieldValue, hinit]
  rfl

/-- A declaration gives in a call what it gives in the session in which the call starts. -/
theorem withFrame_declaredValue {frame : CallFrame} (hroom : s.calls.length < maxCallDepth)
    (line : Nat) {r : Except Fault Value} :
    (Eval.withFrame frame line ((interpreter k).declaredValue decl)).Gives s r s' ↔
      ∃ t, ((interpreter k).declaredValue decl).Gives (s.called frame) r t ∧ s' = s.resumed t := by
  have L := Discipline.free_laws
  exact (L.declaredValue_conforms (L.interpreter_runs k) (Discipline.free_inv _) decl).toBinding
    |>.withFrame_gives hroom line

end Interpreter

namespace Site

/-- The declaration is the one of the field. -/
def Of (decl : VariableDecl) : Site → Prop
  | inBlock => True
  | inClass _ field _ _ => field.decl = decl

/-- Runs the declaration and gives what then stands under its name. -/
def run (decl : VariableDecl) : Site → Nat → Eval (Option Value)
  | inBlock, fuel => do
    let _ ← execute fuel (.declare decl)
    Action.read fun s => s.scopes.lookup? decl.name
  | inClass cls field scope line, fuel => do
    return some (← (interpreter fuel).fieldValue (cls.fieldInfo field) scope line)

/-- The session in which the size is evaluated. -/
def start : Site → Session → Session
  | inBlock, s => s
  | inClass _ field scope _, s =>
    s.called (memberFrame s.store field.decl.name scope field.decl.ty)

/-- The session `s`, after the computation of the first value has ended in `t`. -/
def back : Site → Session → Session → Session
  | inBlock, _, t => t
  | inClass .., s, t => s.resumed t

/-- The computation of the first value can begin. -/
def Open (s : Session) : Site → Prop
  | inBlock => True
  | inClass .. => s.calls.length < maxCallDepth

/-- The name can be declared. -/
def Free (decl : VariableDecl) (s : Session) : Site → Prop
  | inBlock => s.scopes.isDeclaredHere decl.name = false
  | inClass .. => True

variable {decl : VariableDecl} {site : Site} {s s' t : Session} {v : Value} {fault : Fault}

theorem error (hof : site.Of decl) (hopen : site.Open s)
    (h : decl.ComesTo (site.start s) (.error fault t)) :
    Reaches (site.run decl) s (.error fault (site.back s t)) := by
  obtain ⟨-, k, hk⟩ := h
  cases site with
  | inBlock =>
      have hdeclare : (interpreter k).execDeclaration decl s = .error fault t :=
        Action.bind_of_error hk
      have hexecute : execute (k + 1) (.declare decl) s = .error fault t :=
        Action.bind_of_error hdeclare
      exact .of_error (n := k + 1) (Action.bind_of_error hexecute)
  | inClass cls field scope line =>
      obtain rfl := hof
      have hframe := (Interpreter.withFrame_declaredValue hopen line).mpr
        ⟨t, Action.gives_error.mpr hk, rfl⟩
      refine .of_error (n := k) (Action.bind_of_error ?_)
      rw [Interpreter.fieldValue_declared _ rfl]
      exact Action.bind_of_error (Action.gives_error.mp hframe)

/-- A value that the declared type accepts stands under the name, if this is free. -/
theorem ok (hof : site.Of decl) (hopen : site.Open s) (hfree : site.Free decl s)
    (h : decl.ComesTo (site.start s) (.ok v t)) (haccepts : t.store.accepts decl.ty v = true) :
    ∃ s', s'.store = t.store ∧ Reaches (site.run decl) s (.ok (some v) s') := by
  obtain ⟨-, k, hk⟩ := h
  cases site with
  | inBlock =>
      -- No name has come in while the value was computed.
      have hname : t.scopes.isDeclaredHere decl.name = false :=
        (Interpreter.declaredValue_isDeclaredHere hk _).trans hfree
      have hask : t.scopes.declarable t.store decl.name decl.ty v = .ok () := by
        rw [ScopeStack.declarable_of_accepts _ haccepts, hname]
        rfl
      have hdeclare : Eval.declareVariable decl.name decl.ty v decl.isConst decl.line t =
          .ok () { t with scopes := t.scopes.bind decl.name ⟨v, decl.ty, decl.isConst⟩ } :=
        Action.bind_of_ok (Eval.ask_of_ok hask decl.line)
      have hexecute := (Interpreter.execute_declare hk).trans (Action.bind_of_ok hdeclare)
      refine ⟨{ t with scopes := t.scopes.bind decl.name ⟨v, decl.ty, decl.isConst⟩ }, rfl, ?_⟩
      refine .of_ok (n := k + 1) ((Action.bind_of_ok hexecute).trans ?_)
      rw [Action.read, ScopeStack.lookup?_bind]
  | inClass cls field scope line =>
      obtain rfl := hof
      have hframe := Action.gives_ok.mp ((Interpreter.withFrame_declaredValue hopen line).mpr
        ⟨t, Action.gives_ok.mpr hk, rfl⟩)
      have hask : Eval.askStore line (fun st => st.check field.decl.ty v) (s.resumed t) =
          .ok () (s.resumed t) := Eval.ask_of_ok (if_pos haccepts) line
      have hvalue : (interpreter k).fieldValue (cls.fieldInfo field) scope line s =
          .ok v (s.resumed t) := by
        rw [Interpreter.fieldValue_declared _ rfl]
        exact (Action.bind_of_ok hframe).trans (Action.bind_of_ok hask)
      exact ⟨s.resumed t, rfl, .of_ok (n := k) (Action.bind_of_ok hvalue)⟩

/-- A variable of the block keeps its name from being declared again. -/
theorem taken (hfree : ¬ site.Free decl s) (h : decl.ComesTo (site.start s) (.ok v t))
    (haccepts : t.store.accepts decl.ty v = true) :
    Reaches (site.run decl) s
      (.error { cause := .alreadyDeclared decl.name, line := decl.line } t) := by
  obtain ⟨-, k, hk⟩ := h
  cases site with
  | inBlock =>
      have hname : t.scopes.isDeclaredHere decl.name = true :=
        (Interpreter.declaredValue_isDeclaredHere hk _).trans (eq_true_of_ne_false hfree)
      have hask : t.scopes.declarable t.store decl.name decl.ty v =
          .error (.alreadyDeclared decl.name) := by
        rw [ScopeStack.declarable_of_accepts _ haccepts, hname]
        rfl
      have hdeclare : Eval.declareVariable decl.name decl.ty v decl.isConst decl.line t =
          .error { cause := .alreadyDeclared decl.name, line := decl.line } t :=
        Action.bind_of_error (Eval.ask_of_error hask decl.line)
      have hexecute := (Interpreter.execute_declare hk).trans (Action.bind_of_error hdeclare)
      exact .of_error (n := k + 1) (Action.bind_of_error hexecute)
  | inClass => exact absurd trivial hfree

/-- What stands under the name in the end is the value that the declaration has computed. -/
theorem of_ok (hof : site.Of decl) {found : Option Value}
    (h : Reaches (site.run decl) s (.ok found s')) :
    ∃ v t, found = some v ∧ decl.ComesTo (site.start s) (.ok v t) ∧
      t.store.accepts decl.ty v = true ∧ s'.store = t.store := by
  cases site with
  | inBlock =>
      obtain ⟨-, _ | k, hk⟩ := h
      · cases hk
      obtain ⟨_, s₁, hexecute, hread⟩ := Action.ok_of_bind hk
      obtain ⟨_, s₂, hdeclare, hnormal⟩ := Action.ok_of_bind hexecute
      obtain ⟨v, t, hvalue, hbound⟩ := Action.ok_of_bind hdeclare
      obtain ⟨_, s₃, hask, hbind⟩ := Action.ok_of_bind hbound
      obtain ⟨rfl, hdeclarable⟩ := Eval.ok_of_ask hask
      cases hbind
      cases hnormal
      cases hread
      refine ⟨v, s₃, ScopeStack.lookup?_bind _ _ _, .of_ok (n := k) hvalue, ?_, rfl⟩
      exact (ScopeStack.declarable_answers _ _ _ _ _).of_ok hdeclarable
  | inClass cls field scope line =>
      obtain rfl := hof
      obtain ⟨-, k, hk⟩ := h
      obtain ⟨v, s₁, hvalue, hfound⟩ := Action.ok_of_bind hk
      cases hfound
      rw [Interpreter.fieldValue_declared _ rfl] at hvalue
      obtain ⟨w, s₂, hframe, hrest⟩ := Action.ok_of_bind hvalue
      obtain ⟨_, s₃, hask, hpure⟩ := Action.ok_of_bind hrest
      obtain ⟨rfl, hcheck⟩ := Eval.ok_of_ask hask
      cases hpure
      -- With no room for the call there would be no value.
      have hroom : s.calls.length < maxCallDepth := by
        by_contra hfull
        rw [Eval.withFrame_of_le (Nat.le_of_not_lt hfull)] at hframe
        cases hframe
      obtain ⟨t, ht, rfl⟩ :=
        (Interpreter.withFrame_declaredValue hroom line).mp (Action.gives_ok.mpr hframe)
      exact ⟨v, t, rfl, .of_ok (n := k) (Action.gives_ok.mp ht), t.store.check_ok hcheck, rfl⟩

end Site

/-! ## The rule -/

/-- The value is what the declaration of an array should have if its size is `n`, which became known
in the session `s₁`: that many default values, or what its initializer evaluates to. -/
structure SizedValue (decl : VariableDecl) (element : Ty) (n : Int64) (s₁ : Session) (st : Store)
    (v : Value) : Prop where
  nonneg : 0 ≤ n.toInt
  filled : decl.initializer = none → ∃ id, v = .array id ∧
    st.arrayCell id = { element, items := Array.replicate n.toInt.toNat (.defaultFor element) }
  initialized : ∀ e, decl.initializer = some e →
    (∃ t, e.ComesTo (some (.array element)) s₁ (.ok v t) ∧ t.store = st) ∧
    (v = .void ∨ ∃ id, v = .array id ∧ (st.arrayCell id).element = element ∧
      (n ≠ 0 → (st.arrayCell id).items.size = n.toInt))

/-- The declaration has the size `n` and a list of accepted items. It is refused if they are too few
or too many; otherwise they stand under its name, unless this is the name of another variable of the
block. -/
structure Site.ListChecked (decl : VariableDecl) (element : Ty) (n : Int64) (items : List Value)
    (site : Site) (s : Session) : Prop where
  refused : SizeMismatch n items.length → ∃ t, Reaches (site.run decl) s
    (.error { cause := .arraySizeMismatch n items.length, line := decl.line } t)
  stored : ¬ SizeMismatch n items.length → site.Free decl s →
    ∃ id t, Reaches (site.run decl) s (.ok (some (.array id)) t) ∧
      t.store.arrayCell id = { element, items := items.toArray }
  taken : ¬ SizeMismatch n items.length → ¬ site.Free decl s → ∃ t, Reaches (site.run decl) s
    (.error { cause := .alreadyDeclared decl.name, line := decl.line } t)

theorem Store.arrayCell_newArray (st : Store) (element : Ty) (items : Array Value) :
    (st.newArray element items).2.arrayCell st.arrays.size = { element, items } := by
  rw [arrayCell, newArray, Array.getElem?_push_size]
  rfl

theorem Store.of_accepts_array {st : Store} {element : Ty} {v : Value}
    (h : st.accepts (.array element) v = true) :
    v = .void ∨ ∃ id, v = .array id ∧ (st.arrayCell id).element = element := by
  cases v with
  | void => exact .inl rfl
  | array id => exact .inr ⟨id, rfl, eq_of_beq h⟩
  | _ => cases h

namespace VariableDecl.Sized

variable {decl : VariableDecl} {element : Ty} {size : Expr} {s s₁ : Session} {n : Int64}

theorem sizedValue (h : decl.Sized element size) {v : Value} {t : Session}
    (hvalue : decl.ComesTo s (.ok v t)) (haccepts : t.store.accepts decl.ty v = true) :
    ∃ n s₁, size.ComesTo none s (.ok (.int n) s₁) ∧ SizedValue decl element n s₁ t.store v := by
  obtain ⟨n, s₁, hsize, hn, hfilled, hinitialized⟩ := h.of_ok hvalue
  rw [h.ty] at haccepts
  refine ⟨n, s₁, hsize, hn, fun hinit => ?_, fun e hinit => ?_⟩
  · obtain ⟨rfl, rfl⟩ := hfilled hinit
    exact ⟨_, rfl, s₁.store.arrayCell_newArray _ _⟩
  · obtain ⟨hcomes, hcheck⟩ := hinitialized e hinit
    refine ⟨⟨t, hcomes, rfl⟩, ?_⟩
    rcases Store.of_accepts_array haccepts with rfl | ⟨id, rfl, helement⟩
    · exact .inl rfl
    · refine .inr ⟨id, rfl, helement, fun hzero => ?_⟩
      by_contra hcount
      rw [checkSize_array, if_pos ⟨hzero, fun heq => hcount heq.symm⟩] at hcheck
      cases hcheck

/-- A list of accepted items is refused if there are too few or too many of them, and is the value
otherwise. -/
theorem list (h : decl.Sized element size)
    (hsize : size.ComesTo none s (.ok (.int n) s₁)) (hn : 0 ≤ n.toInt) {elements : List Expr}
    {line : Nat} (hinit : decl.initializer = some (.array elements none line))
    {items : List Value} {s₂ : Session} (hitems : ComeTo (some element) elements s₁ items s₂)
    (haccepts : ∀ v ∈ items, s₂.store.accepts element v = true) :
    ∃ id t, t.store.arrayCell id = { element, items := items.toArray } ∧
      decl.ComesTo s (if SizeMismatch n items.length then
        .error { cause := .arraySizeMismatch n items.length, line := decl.line } t
      else .ok (.array id) t) := by
  have hvalue := hitems.array haccepts line
  have hcell := s₂.store.arrayCell_newArray element items.toArray
  refine ⟨s₂.store.arrays.size,
    { s₂ with store := (s₂.store.newArray element items.toArray).2 }, hcell, ?_⟩
  have hcheck : Interpreter.checkSize (some n) (.array s₂.store.arrays.size)
      (s₂.store.newArray element items.toArray).2 =
      if SizeMismatch n items.length then .error (.arraySizeMismatch n items.length)
      else .ok () := by
    rw [checkSize_array, hcell, List.size_toArray]
  by_cases hmismatch : SizeMismatch n items.length
  · rw [if_pos hmismatch] at hcheck ⊢
    exact h.initialized hsize hn hinit hvalue nofun
      (Action.bind_of_error (Eval.ask_of_error hcheck decl.line))
  · rw [if_neg hmismatch] at hcheck ⊢
    exact h.initialized hsize hn hinit hvalue nofun
      (Action.bind_of_ok (Eval.ask_of_ok hcheck decl.line))

end VariableDecl.Sized

namespace Site

variable {decl : VariableDecl} {element : Ty} {size : Expr} {site : Site} {s s₁ : Session}
  {n : Int64}

theorem listChecked (hof : site.Of decl) (hopen : site.Open s) (h : decl.Sized element size)
    (hsize : size.ComesTo none (site.start s) (.ok (.int n) s₁)) (hn : 0 ≤ n.toInt)
    {elements : List Expr} {line : Nat}
    (hinit : decl.initializer = some (.array elements none line)) {items : List Value}
    {s₂ : Session} (hitems : ComeTo (some element) elements s₁ items s₂)
    (haccepts : ∀ v ∈ items, s₂.store.accepts element v = true) :
    site.ListChecked decl element n items s := by
  obtain ⟨id, t, hcell, hvalue⟩ := h.list hsize hn hinit hitems haccepts
  have haccepted : t.store.accepts decl.ty (.array id) = true := by
    rw [h.ty, Store.accepts, hcell]
    exact beq_self_eq_true element
  constructor
  · intro hmismatch
    rw [if_pos hmismatch] at hvalue
    exact ⟨_, error hof hopen hvalue⟩
  · intro hmismatch hfree
    rw [if_neg hmismatch] at hvalue
    obtain ⟨s', hstore, hok⟩ := ok hof hopen hfree hvalue haccepted
    exact ⟨id, s', hok, hstore ▸ hcell⟩
  · intro hmismatch hfree
    rw [if_neg hmismatch] at hvalue
    exact ⟨t, taken hfree hvalue haccepted⟩

end Site

/-- A declaration of an array with a list of items is refused by its reader exactly if its size is a
literal that does not match their number, and by evaluation exactly if its size is another
expression whose value does not. A negative size is refused before the initializer is evaluated.
What a declaration that succeeds leaves under its name is an array of its size, unless the
initializer has given no array or the size is zero. -/
theorem array_sizes_agree :
    (∀ {name : String} {element : Ty} {size : Expr} {elements : List Expr}
      {elementType : Option Ty} {isConst : Bool} {line₀ line : Nat} {o}, element.Producible →
      let value : Expr := .array elements elementType line₀
      let decl : VariableDecl := .sized name element size value isConst line
      Grammar.SizedReading name element size value isConst line o →
      (∀ fault, sizeFault? size elements.length line = some fault → ∃ rest, o = .error fault rest) ∧
      (sizeFault? size elements.length line = none →
        (∃ rest, o = .ok decl rest) ∧ decl.Sized element size)) ∧
    (∀ {decl : VariableDecl} {size : Expr} {isConst : Bool} {line : Nat} {ts rest : List Lexeme},
      decl.length = some (.explicit size) →
      (Grammar.variableDecl isConst line ts = .ok decl rest ∨
        ∃ mods field, Grammar.field mods isConst line ts = .ok field rest ∧ field.decl = decl) →
      ∃ element, decl.Sized element size) ∧
    (∀ {decl : VariableDecl} {element : Ty} {size : Expr} {site : Site} {s s₁ : Session}
      {n : Int64}, decl.Sized element size → site.Of decl → site.Open s →
      size.ComesTo none (site.start s) (.ok (.int n) s₁) →
      (n.toInt < 0 → Reaches (site.run decl) s
        (.error { cause := .negativeArraySize n, line := decl.line } (site.back s s₁))) ∧
      (0 ≤ n.toInt → ∀ {elements : List Expr} {line₀ : Nat} {items : List Value} {s₂ : Session},
        decl.initializer = some (.array elements none line₀) →
        ComeTo (some element) elements s₁ items s₂ →
        (∀ v ∈ items, s₂.store.accepts element v = true) →
        items.length = elements.length ∧ site.ListChecked decl element n items s)) ∧
    ∀ {decl : VariableDecl} {element : Ty} {size : Expr} {site : Site} {s s' : Session}
      {found : Option Value}, decl.Sized element size → site.Of decl →
      Reaches (site.run decl) s (.ok found s') →
      ∃ n s₁ v, size.ComesTo none (site.start s) (.ok (.int n) s₁) ∧ found = some v ∧
        SizedValue decl element n s₁ s'.store v := by
  refine ⟨fun hbase => ?_, fun hlength hread => ?_,
    fun h hof hopen hsize => ⟨?_, ?_⟩, fun h hof hrun => ?_⟩
  · intro value decl hread
    have hfault : Grammar.declarationFault? decl = sizeFault? _ _ _ :=
      Grammar.declarationFault?_list ..
    obtain ⟨hrefused, haccepted⟩ := hread.checks hbase.ofName_base
    rw [hfault] at hrefused haccepted
    exact ⟨hrefused, fun hnone => ⟨haccepted hnone, rfl, rfl, hfault.trans hnone⟩⟩
  · refine Grammar.sized_of_wellFormed ?_ hlength
    rcases hread with hread | ⟨mods, field, hread, rfl⟩
    · exact Grammar.variableDecl_yields _ _ hread
    · exact Grammar.field_yields _ _ _ hread
  · exact fun hn => Site.error hof hopen (h.negative hsize hn)
  · exact fun hn _ _ _ _ hinit hitems haccepts =>
      ⟨hitems.length_eq, Site.listChecked hof hopen h hsize hn hinit hitems haccepts⟩
  · obtain ⟨v, t, rfl, hvalue, haccepts, hstore⟩ := Site.of_ok hof hrun
    obtain ⟨n, s₁, hsize, hsized⟩ := h.sizedValue hvalue haccepts
    exact ⟨n, s₁, v, hsize, rfl, hstore ▸ hsized⟩

/-- Two items are asked for and one is given: the reader refuses the declaration if the size is a
literal, and evaluation does if it is a sum. If none is given, the sum is the number of items. -/
theorem array_sizes_agree_one_for_two :
    let seven : Expr := .array [.literal (.int 7) 1] none 1
    let sum : Expr := .binary (.literal (.int 1) 1) .add (.literal (.int 1) 1) 1
    let blank : VariableDecl :=
      { name := "y", ty := .array .int, length := some (.explicit sum), initializer := none
        isConst := false, line := 1 }
    let s : Session := .start (fun _ => .error .unknownModule) []
    (∃ rest, Grammar.variableDecl false 1 [⟨.name "x", 1⟩, ⟨.symbol .colon, 1⟩, ⟨.name "int", 1⟩,
      ⟨.symbol .leftBracket, 1⟩, ⟨.int 2, 1⟩, ⟨.symbol .rightBracket, 1⟩, ⟨.symbol .assign, 1⟩,
      ⟨.symbol .leftBracket, 1⟩, ⟨.int 7, 1⟩, ⟨.symbol .rightBracket, 1⟩] =
        .error (.arraySizeMismatch 2 1 1) rest) ∧
    (∃ t, Reaches (Site.inBlock.run (.sized "x" .int sum seven false 1)) s
      (.error { cause := .arraySizeMismatch 2 1, line := 1 } t)) ∧
    ∃ t n s₁, Reaches (Site.inBlock.run blank) s (.ok (some (.array 0)) t) ∧
      sum.ComesTo none s (.ok (.int n) s₁) ∧ SizedValue blank .int n s₁ t.store (.array 0) := by
  intro seven sum blank s
  refine ⟨?_, ?_, ?_⟩
  · let value : List Lexeme :=
      [⟨.symbol .leftBracket, 1⟩, ⟨.int 7, 1⟩, ⟨.symbol .rightBracket, 1⟩]
    have hvalue : Grammar.ReadAs seven value [] := rfl
    have hsize : Grammar.ReadAs (.literal (.int 2) 1) [⟨.int 2, 1⟩]
        (⟨.symbol .rightBracket, 1⟩ :: ([] ++ (⟨.symbol .assign, 1⟩ :: (value ++ [])))) := rfl
    have hty : Grammar.SizedType .int (.literal (.int 2) 1)
        (⟨.symbol .assign, 1⟩ :: (value ++ []))
        ([⟨.name "int", 1⟩] ++ ⟨.symbol .leftBracket, 1⟩ ::
          ([⟨.int 2, 1⟩] ++ ⟨.symbol .rightBracket, 1⟩ :: [])) := .spelled rfl rfl hsize
    have hint : Ty.int.Producible := ⟨[⟨.name "int", 0⟩], [], rfl⟩
    exact (array_sizes_agree.1 hint (.ofVariable hty hvalue)).1 _ rfl
  · have hsum : sum.ComesTo none s (.ok (.int 2) s) := ⟨nofun, 2, rfl⟩
    have hseven : ComeTo (some .int) [.literal (.int 7) 1] s [.int 7] s :=
      .cons ⟨nofun, 1, rfl⟩ .nil
    have hsized : (VariableDecl.sized "x" .int sum seven false 1).Sized .int sum :=
      ⟨rfl, rfl, rfl⟩
    have hof : Site.inBlock.Of (.sized "x" .int sum seven false 1) := trivial
    have hchecked := ((array_sizes_agree.2.2.1 hsized hof trivial hsum).2 (by decide) rfl hseven
      (by simp [Store.accepts])).2
    exact hchecked.refused (by decide)
  · have hread : Grammar.variableDecl false 1 [⟨.name "y", 1⟩, ⟨.symbol .colon, 1⟩,
        ⟨.name "int", 1⟩, ⟨.symbol .leftBracket, 1⟩, ⟨.int 1, 1⟩, ⟨.symbol .plus, 1⟩, ⟨.int 1, 1⟩,
        ⟨.symbol .rightBracket, 1⟩] = .ok blank [] := rfl
    obtain ⟨element, hsized⟩ := array_sizes_agree.2.1 rfl (.inl hread)
    obtain rfl : element = .int := (Ty.array.inj hsized.ty).symm
    have hrun : Reaches (Site.inBlock.run blank) s (.ok (some (.array 0)) _) := ⟨nofun, 9, rfl⟩
    have hof : Site.inBlock.Of blank := trivial
    obtain ⟨n, s₁, v, hsum, hv, hvalue⟩ := array_sizes_agree.2.2.2 hsized hof hrun
    cases hv
    exact ⟨_, n, s₁, hrun, hsum, hvalue⟩

end ClassScript
