import Mathlib.Data.Finset.Card
import Mathlib.Data.List.Chain
import Mathlib.Logic.Relation
import ClassScript.Proofs.Typing.Soundness

/-!
# Nesting of arrays

Arrays are shared and can be changed, and the text of an array is made from the texts of its items,
without a record of the arrays on the way. It is finite all the same, and for a reason that has
nothing to do with printing: an item is of the element type of its array, so along items the types
lose a dimension at each step. Objects may well form cycles, but the text of an object does not go
into its fields.
-/

namespace ClassScript

/-- How many times items can be taken from a value of the type. -/
def Ty.dimensions : Ty → Nat
  | .array element => element.dimensions + 1
  | _ => 0

namespace Store

variable {st : Store}

/-! ## Paths along items -/

/-- Array `b` is an item of array `a`. -/
def HasItem (st : Store) (a b : ArrayId) : Prop := .array b ∈ (st.arrayCell a).items

/-- An item has one dimension less than the array it is in. -/
theorem Sound.dimensions_item (h : st.Sound) {a b : ArrayId} (hitem : st.HasItem a b) :
    (st.arrayCell b).element.dimensions + 1 = (st.arrayCell a).element.dimensions := by
  cases hcell : st.arrays[a]? with
  | none =>
      rw [HasItem, arrayCell, hcell] at hitem
      exact absurd hitem (Array.not_mem_empty _)
  | some cell =>
      have ha : st.arrayCell a = cell := by rw [arrayCell, hcell]; rfl
      rw [HasItem, ha] at hitem
      have haccepts := (h.arrays a cell hcell _ hitem).accepts
      rw [ha]
      cases helement : cell.element with
      | array element =>
          rw [helement] at haccepts
          rw [beq_iff_eq.mp haccepts, Ty.dimensions]
      | _ =>
          rw [helement] at haccepts
          cases haccepts

/-- Going from item to item, the dimensions fall. -/
theorem Sound.dimensions_lt (h : st.Sound) {a b : ArrayId}
    (hpath : Relation.TransGen st.HasItem a b) :
    (st.arrayCell b).element.dimensions < (st.arrayCell a).element.dimensions := by
  induction hpath with
  | single hitem => exact Nat.lt_of_lt_of_eq (Nat.lt_succ_self _) (h.dimensions_item hitem)
  | tail _ hitem ih =>
      exact Nat.lt_trans (Nat.lt_of_lt_of_eq (Nat.lt_succ_self _) (h.dimensions_item hitem)) ih

/-- No array contains itself, however deep one looks. -/
theorem Sound.not_nested (h : st.Sound) (a : ArrayId) : ¬ Relation.TransGen st.HasItem a a :=
  fun hcycle => Nat.lt_irrefl _ (h.dimensions_lt hcycle)

/-- A path along items never comes to an array twice. -/
theorem Sound.path_nodup (h : st.Sound) {path : List ArrayId} (hpath : path.IsChain st.HasItem) :
    path.Nodup := by
  have htransitive := hpath.imp fun a b => Relation.TransGen.single (r := st.HasItem)
  refine (List.isChain_iff_pairwise.mp htransitive).imp fun {a b} hab => ?_
  rintro rfl
  exact h.not_nested a hab

/-! ## Texts -/

/-- The value is printed as the text. -/
inductive Prints (st : Store) : Value → String → Prop where
  | int (value : Int64) : Prints st (.int value) (toString value.toInt)
  | float (value : Float32) : Prints st (.float value) (Floating.singleText value)
  | double (value : Float) : Prints st (.double value) (Floating.doubleText value)
  | decimal (value : Decimal) : Prints st (.decimal value) value.text
  | bool (value : Bool) : Prints st (.bool value) (if value then "true" else "false")
  | string (value : String) : Prints st (.string value) value
  | char (value : Char) : Prints st (.char value) value.toString
  | void : Prints st .void "void"
  | object (id : ObjectId) :
      Prints st (.object id) ("<" ++ st.className (st.objectCell id).cls ++ ">")
  | array {id : ArrayId} {texts : List String}
      (length : texts.length = (st.arrayCell id).items.size)
      (items : ∀ (i : Nat) v t, (st.arrayCell id).items[i]? = some v → texts[i]? = some t →
        Prints st v t) :
      Prints st (.array id) ("[" ++ ", ".intercalate texts ++ "]")

/-- A value has one text at most. -/
theorem Prints.unique {v : Value} {t t' : String} (h : st.Prints v t) (h' : st.Prints v t') :
    t = t' := by
  induction h generalizing t' with
  | int | float | double | decimal | bool | string | char | void | object =>
      cases h'
      rfl
  | @array id texts hlength hitems ih =>
      cases h' with
      | @array _ texts' hlength' hitems' =>
          have htexts : texts = texts' := by
            refine List.ext_getElem (hlength.trans hlength'.symm) fun i hi hi' => ?_
            have hitem : (st.arrayCell id).items[i]? = some (st.arrayCell id).items[i] :=
              Array.getElem?_eq_getElem (hlength ▸ hi)
            exact ih i _ _ hitem (List.getElem?_eq_getElem hi)
              (hitems' i _ _ hitem (List.getElem?_eq_getElem hi'))
          rw [htexts]

/-- The texts of the items of an array, as `textWithin?` collects them. -/
theorem mapM_texts {text? : Value → Option String} {vs : List Value} {texts : List String}
    (h : vs.mapM text? = some texts) :
    texts.length = vs.length ∧
      ∀ (i : Nat) v t, vs[i]? = some v → texts[i]? = some t → text? v = some t := by
  induction vs generalizing texts with
  | nil =>
      rw [List.mapM_nil] at h
      obtain rfl := Option.some.inj h
      exact ⟨rfl, nofun⟩
  | cons first rest ih =>
      rw [List.mapM_cons] at h
      obtain ⟨t, hfirst, h⟩ := Option.bind_eq_some_iff.mp h
      obtain ⟨texts, hrest, h⟩ := Option.bind_eq_some_iff.mp h
      obtain rfl := Option.some.inj h
      obtain ⟨hlength, hitems⟩ := ih hrest
      refine ⟨congrArg Nat.succ hlength, fun i v t' hv ht => ?_⟩
      cases i with
      | zero =>
          obtain rfl := Option.some.inj hv
          obtain rfl := Option.some.inj ht
          exact hfirst
      | succ i => exact hitems i v t' hv ht

theorem mapM_isSome {text? : Value → Option String} {vs : List Value}
    (h : ∀ v ∈ vs, (text? v).isSome = true) : (vs.mapM text?).isSome = true := by
  induction vs with
  | nil => rfl
  | cons first rest ih =>
      obtain ⟨t, hfirst⟩ := Option.isSome_iff_exists.mp (h first List.mem_cons_self)
      obtain ⟨texts, hrest⟩ := Option.isSome_iff_exists.mp
        (ih fun v hv => h v (List.mem_cons_of_mem _ hv))
      rw [List.mapM_cons, hfirst, hrest]
      rfl

/-- What a bounded look into the arrays finds is the text. -/
theorem prints_of_textWithin? {depth : Nat} {v : Value} {t : String}
    (h : st.textWithin? depth v = some t) : st.Prints v t := by
  induction depth generalizing v t with
  | zero =>
      cases v with
      | array id => cases h
      | _ =>
          obtain rfl := Option.some.inj h
          constructor
  | succ depth ih =>
      cases v with
      | array id =>
          obtain ⟨texts, htexts, hjoined⟩ := Option.bind_eq_some_iff.mp h
          obtain rfl := Option.some.inj hjoined
          obtain ⟨hlength, hitems⟩ := mapM_texts htexts
          refine .array (by simpa using hlength) fun i v t hv ht => ih ?_
          exact hitems i v t (by simpa using hv) ht
      | _ =>
          obtain rfl := Option.some.inj h
          constructor

open Classical in
/-- The array and those on paths along items from it. -/
noncomputable def nested (st : Store) (id : ArrayId) : Finset ArrayId :=
  (Finset.range st.arrays.size).filter (Relation.ReflTransGen st.HasItem id)

theorem mem_nested {a b : ArrayId} :
    b ∈ st.nested a ↔ b < st.arrays.size ∧ Relation.ReflTransGen st.HasItem a b := by
  simp [nested]

theorem card_nested_le (st : Store) (id : ArrayId) : (st.nested id).card ≤ st.arrays.size := by
  classical
  exact (Finset.card_filter_le _ _).trans_eq (Finset.card_range _)

/-- Fewer arrays are nested in an item than in its array: the array itself is no longer there. -/
theorem Sound.card_nested_lt (h : st.Sound) {a b : ArrayId} (ha : a < st.arrays.size)
    (hitem : st.HasItem a b) : (st.nested b).card < (st.nested a).card := by
  refine Finset.card_lt_card ⟨fun c hc => ?_, fun hsubset => ?_⟩
  · obtain ⟨hlt, hpath⟩ := mem_nested.mp hc
    exact mem_nested.mpr ⟨hlt, .head hitem hpath⟩
  · obtain ⟨-, hback⟩ := mem_nested.mp (hsubset (mem_nested.mpr ⟨ha, .refl⟩))
    exact h.not_nested a (.head' hitem hback)

/-- A look as deep as arrays are nested finds a text. -/
theorem Sound.textWithin?_isSome (h : st.Sound) {depth : Nat} {v : Value} (hv : st.Holds v)
    (hdepth : ∀ id, v = .array id → (st.nested id).card ≤ depth) :
    (st.textWithin? depth v).isSome = true := by
  induction depth generalizing v with
  | zero =>
      cases v with
      | array id =>
          have hself : id ∈ st.nested id := mem_nested.mpr ⟨hv, .refl⟩
          exact absurd (hdepth id rfl) (Nat.not_le_of_lt (Finset.card_pos.mpr ⟨id, hself⟩))
      | _ => rfl
  | succ depth ih =>
      cases v with
      | array id =>
          have hcell : st.arrays[id]? = some (st.arrayCell id) := by
            rw [arrayCell, Array.getElem?_eq_getElem hv]
            rfl
          have hitems : ((st.arrayCell id).items.toList.mapM (st.textWithin? depth)).isSome := by
            refine mapM_isSome fun item hitem => ?_
            have hmem := Array.mem_toList_iff.mp hitem
            refine ih (h.arrays id _ hcell item hmem).holds ?_
            rintro b rfl
            exact Nat.le_of_lt_succ (Nat.lt_of_lt_of_le (h.card_nested_lt hv hmem) (hdepth id rfl))
          obtain ⟨texts, htexts⟩ := Option.isSome_iff_exists.mp hitems
          rw [textWithin?, htexts]
          rfl
      | _ => rfl

/-- Every value of the store has one text, and it is the one that `text` gives. -/
theorem Sound.prints_iff (h : st.Sound) {v : Value} (hv : st.Holds v) (t : String) :
    st.Prints v t ↔ t = st.text v := by
  obtain ⟨found, hfound⟩ := Option.isSome_iff_exists.mp
    (h.textWithin?_isSome hv fun id _ => st.card_nested_le id)
  have htext : st.text v = found := by rw [text, hfound]; rfl
  have hprints : st.Prints v (st.text v) := htext ▸ prints_of_textWithin? hfound
  exact ⟨fun ht => ht.unique hprints, fun ht => ht ▸ hprints⟩

end Store

/-! ## Printing -/

noncomputable instance : DecidablePred Session.Sound := Classical.decPred _

/-- No path along items comes to an array twice, and whatever is stored has a text, the only one
there is; it is what a program prints and makes strings of, and what is said of an exception that
nothing catches. -/
structure Session.Printable (s : Session) : Prop where
  path : ∀ path : List ArrayId, path.IsChain s.store.HasItem → path.Nodup
  stored : ∀ v, s.Stores v → s.store.Holds v
  text : ∀ v, s.store.Holds v → ∃ t, (∀ t', s.store.Prints v t' ↔ t' = t) ∧
    (∀ b ∈ [Builtin.print, Builtin.println], ∀ name line,
      b.call name [v] line s = .ok .void { s with console := s.console.print t }) ∧
    (∀ name line, Builtin.str.call name [v] line s = .ok (.string t) s) ∧
    (Cause.thrown v).message s.store = "Uncaught exception: " ++ t

theorem Session.Sound.printable {s : Session} (h : s.Sound) : s.Printable where
  path _ hpath := h.store.path_nodup hpath
  stored _ hv := h.stored hv
  text v hv := by
    refine ⟨s.store.text v, h.store.prints_iff hv, fun b hb name line => ?_,
      fun name line => ?_, rfl⟩
    · rcases List.mem_pair.mp hb with rfl | rfl <;> rfl
    · have hjoin : String.join [s.store.text v] = s.store.text v := by simp [String.join]
      change Outcome.ok (Value.string (String.join [s.store.text v])) s = _
      rw [hjoin]

open Discipline in
/-- Arrays never contain themselves, and printing terminates: so it is in every reachable session,
after every further program, with the exception that it may have failed with, and whenever a part
of that program is run, so what any `other` interpreter would do elsewhere makes no difference. In
each such session every expression ends with a value that has a text, or with a fault that has. -/
theorem printing_terminates {s : Session} (h : s.Reachable) :
    s.Printable ∧
    (∀ fuel program,
      (runProgram fuel program s).Ends (fun _ s' => s'.Printable)
        (fun fault s' => s'.Printable ∧ ∀ v, fault.cause = .thrown v → s'.store.Holds v) ∧
      ∀ other, (interpreterWithin Session.Sound other fuel).execProgram program s =
        runProgram fuel program s) ∧
    ∀ s' : Session, s'.Sound → s'.Printable ∧ ∀ fuel e expected,
      (evaluate fuel e expected s').Ends (fun v s'' => s''.Sound ∧ s''.store.Holds v)
        fun fault s'' => s''.Sound ∧ ∀ v, fault.cause = .thrown v → s''.store.Holds v := by
  have L := typing_laws
  refine ⟨h.sound.printable, fun fuel program => ⟨?_, fun other => ?_⟩, fun s' hs' =>
    ⟨hs'.printable, fun fuel e expected => ?_⟩⟩
  · have hprogram := L.execProgram_conforms (L.interpreter_runs fuel) h.sound program
    exact hprogram.ends.mono (fun _ _ hok => Session.Sound.printable hok.2.1)
      fun _ _ herror => ⟨Session.Sound.printable herror.2.1, herror.2.2⟩
  · have hwithin := L.interpreterWithin_runs (P := Session.Sound) (fun _ hs => hs) other fuel
    exact (L.execProgram_conforms hwithin h.sound program).eq.symm
  · exact ((L.interpreter_runs fuel).eval hs' e expected).ends.mono (fun _ _ hok => hok.2)
      fun _ _ herror => herror.2

/-- An object is an item of an array that is in a field of the object. -/
theorem printing_terminates_cycle :
    let next : FieldDecl :=
      { decl := { name := "next", ty := .array (.named "N"), length := none, initializer := none,
                  isConst := false, line := 1 }
        access := .everyone, isStatic := false, accessors := { getter := false, setter := false } }
    let decl : ClassDecl :=
      { name := "N", isStatic := false, supertypes := [], fields := [next], methods := [],
        constructor := none, line := 1 }
    let n : VariableDecl :=
      { name := "n", ty := .named "N", length := none, initializer := some (.new "N" [] 2),
        isConst := false, line := 2 }
    let items : Expr := .member (.var "n" 3) "next" 3
    let link : Expr := .assign (.member (.var "n" 3) "next") (.array [.var "n" 3] none 3) 3
    let program : Program :=
      [.classType decl, .declare n, .expression link 3, .expression (.call "print" [items] 3) 3]
    let s := Session.start (fun _ => .error .unknownModule) []
    s.Reachable ∧ ∃ s', runProgram 9 program s = .ok () s' ∧
      s'.console.output.toList = ["[<N>]"] ∧ s'.Printable := by
  intro next decl n items link program s
  have hfresh : s.Reachable := .fresh rfl rfl Store.sound_empty
  have hok : (runProgram 9 program s).isOkWith
      (fun _ s' => s'.console.output.toList == ["[<N>]"]) = true := by decide +kernel
  obtain ⟨_, s', hrun, hprinted⟩ := Outcome.exists_of_isOkWith hok
  obtain ⟨-, hprograms, -⟩ := printing_terminates hfresh
  specialize hprograms 9 program
  rw [hrun] at hprograms
  exact ⟨hfresh, s', hrun, beq_iff_eq.mp hprinted, hprograms.1⟩

end ClassScript
