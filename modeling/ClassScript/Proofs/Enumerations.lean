import Mathlib.Data.List.Nodup
import ClassScript.Proofs.Declaring
import ClassScript.Proofs.Words

/-!
# Enumerations

The members of an enumeration are numbered over the integers: the number of a member is the value
that is written for it, or else comes after the number of the member before it. A declaration finds
fault with a member whose name stands before, and with one that would have to come after the
greatest word; the first such member is reported. If there is none, the enumeration becomes a static
class of these numbers, provided that its name is free.
-/

namespace ClassScript

/-! ## Numbers -/

/-- The numbers of members. The first one has the number `next` if no value is written for it. -/
def numbersFrom (next : Int) : List (String × Option Int64) → List Int
  | [] => []
  | (_, written) :: rest =>
    let number := (written.map Int64.toInt).getD next
    number :: numbersFrom (number + 1) rest

theorem numbersFrom_zero {members : List (String × Option Int64)} {name : String} (next : Int)
    (h : members[0]? = some (name, none)) : (numbersFrom next members)[0]? = some next := by
  cases members with
  | nil => cases h
  | cons member rest =>
      obtain rfl := Option.some.inj h
      rfl

theorem length_numbersFrom (next : Int) (members : List (String × Option Int64)) :
    (numbersFrom next members).length = members.length := by
  induction members generalizing next with
  | nil => rfl
  | cons member rest ih => exact congrArg (· + 1) (ih _)

/-- A member without a value comes after the member before it. -/
theorem numbersFrom_succ {members : List (String × Option Int64)} {i : Nat} {name : String}
    (next : Int) (h : members[i + 1]? = some (name, none)) :
    (numbersFrom next members)[i + 1]? = (numbersFrom next members)[i]?.map (· + 1) := by
  induction members generalizing next i with
  | nil => cases h
  | cons member rest ih =>
      obtain ⟨_, written⟩ := member
      rw [List.getElem?_cons_succ] at h
      cases i with
      | zero =>
          cases rest with
          | nil => cases h
          | cons second rest =>
              rw [List.getElem?_cons_zero] at h
              obtain rfl := Option.some.inj h
              rfl
      | succ i => exact ih _ h

namespace EnumDecl

def names (decl : EnumDecl) : List String := decl.members.map Prod.fst

/-- The numbers of the members, from zero on. -/
def numbers (decl : EnumDecl) : List Int := numbersFrom 0 decl.members

/-- What is wrong with the member at position `i`. A member whose name stands before is reported for
its name alone. -/
inductive Offends (decl : EnumDecl) (i : Nat) : Cause → Prop where
  | repeated {name : String} (here : decl.names[i]? = some name)
      (before : ∃ j < i, decl.names[j]? = some name) :
      Offends decl i (.alreadyDeclared (decl.name ++ "." ++ name))
  | exhausted {j : Nat} {name : String} (next : i = j + 1)
      (here : decl.members[i]? = some (name, none))
      (new : ¬ ∃ j < i, decl.names[j]? = some name)
      (greatest : decl.numbers[j]? = some (2 ^ 63 - 1)) : Offends decl i .overflow

end EnumDecl

/-! ## Members one by one -/

/-- What is wrong with the member at position `i`, after members with the names `taken` and in front
of the number `next`. -/
inductive OffendsAfter (owner : String) (taken : List String) (next : Int)
    (members : List (String × Option Int64)) (i : Nat) : Cause → Prop where
  | repeated {name : String} (here : (members.map Prod.fst)[i]? = some name)
      (before : name ∈ taken ∨ ∃ j < i, (members.map Prod.fst)[j]? = some name) :
      OffendsAfter owner taken next members i (.alreadyDeclared (owner ++ "." ++ name))
  | exhausted {name : String} (here : members[i]? = some (name, none))
      (new : ¬ (name ∈ taken ∨ ∃ j < i, (members.map Prod.fst)[j]? = some name))
      (number : (numbersFrom next members)[i]? = some (2 ^ 63)) :
      OffendsAfter owner taken next members i .overflow

namespace OffendsAfter

variable {owner : String} {taken : List String} {next : Int} {name : String}
  {written : Option Int64} {rest : List (String × Option Int64)} {i : Nat} {cause : Cause}

theorem before_succ_iff {other : String} {names : List String} :
    (other ∈ taken ∨ ∃ j < i + 1, (name :: names)[j]? = some other) ↔
      (other ∈ taken ++ [name] ∨ ∃ j < i, names[j]? = some other) := by
  rw [List.mem_append, List.mem_singleton, or_assoc]
  refine or_congr_right ?_
  constructor
  · rintro ⟨j, hj, hother⟩
    cases j with
    | zero => exact .inl (Option.some.inj hother).symm
    | succ j => exact .inr ⟨j, Nat.lt_of_succ_lt_succ hj, hother⟩
  · rintro (rfl | ⟨j, hj, hother⟩)
    · exact ⟨0, Nat.succ_pos i, rfl⟩
    · exact ⟨j + 1, Nat.succ_lt_succ hj, hother⟩

/-- A later member is judged after the first one. -/
theorem succ_iff : OffendsAfter owner taken next ((name, written) :: rest) (i + 1) cause ↔
    OffendsAfter owner (taken ++ [name]) ((written.map Int64.toInt).getD next + 1) rest i
      cause := by
  constructor
  · intro h
    cases h with
    | repeated here before => exact .repeated here (before_succ_iff.mp before)
    | exhausted here new number => exact .exhausted here (mt before_succ_iff.mpr new) number
  · intro h
    cases h with
    | repeated here before => exact .repeated here (before_succ_iff.mpr before)
    | exhausted here new number => exact .exhausted here (mt before_succ_iff.mp new) number

theorem not_zero (hnew : name ∉ taken) (hnumber : written = none → next ≠ 2 ^ 63) :
    ¬ OffendsAfter owner taken next ((name, written) :: rest) 0 cause := by
  intro h
  cases h with
  | repeated here before =>
      obtain rfl := Option.some.inj here
      rcases before with hmem | ⟨j, hj, -⟩
      · exact hnew hmem
      · exact absurd hj (Nat.not_lt_zero j)
  | exhausted here new number =>
      obtain ⟨-, rfl⟩ := Prod.mk.inj (Option.some.inj here)
      exact hnumber rfl (Option.some.inj number)

end OffendsAfter

/-- Among the members of an enumeration, none is taken before the first, and it may be zero. -/
theorem EnumDecl.offends_iff {decl : EnumDecl} {i : Nat} {cause : Cause} :
    decl.Offends i cause ↔ OffendsAfter decl.name [] 0 decl.members i cause := by
  have hbefore (name : String) : (name ∈ ([] : List String) ∨ ∃ j < i, decl.names[j]? = some name) ↔
      ∃ j < i, decl.names[j]? = some name := or_iff_right List.not_mem_nil
  constructor
  · intro h
    cases h with
    | repeated here before => exact .repeated here ((hbefore _).mpr before)
    | exhausted next here new greatest =>
        refine .exhausted here (mt (hbefore _).mp new) ?_
        subst next
        rw [numbersFrom_succ 0 here]
        exact congrArg (Option.map (· + 1)) greatest
  · intro h
    cases h with
    | repeated here before => exact .repeated here ((hbefore _).mp before)
    | exhausted here new number =>
        cases i with
        | zero =>
            rw [numbersFrom_zero 0 here] at number
            cases Option.some.inj number
        | succ j =>
            rw [numbersFrom_succ 0 here] at number
            obtain ⟨previous, hprevious, heq⟩ := Option.map_eq_some_iff.mp number
            refine .exhausted rfl here (mt (hbefore _).mpr new) ?_
            have hgreatest : previous = 2 ^ 63 - 1 := by omega
            exact hgreatest ▸ hprevious

/-! ## The class of an enumeration -/

/-- A public static constant of the class `owner`. -/
def constantField (owner name : String) (number : Int) : FieldInfo where
  name := name
  ty := .int
  access := .everyone
  isStatic := true
  isConst := true
  accessors := { getter := false, setter := false }
  owner := owner
  init := .value (.int (Int64.ofInt number))

namespace ClassInfo

/-- The class with further constants after its fields. -/
def withConstants (info : ClassInfo) (constants : List (String × Int)) : ClassInfo :=
  { info with
    fields := ⟨info.fields.entries ++
      constants.map fun (name, number) => (name, constantField info.name name number)⟩
    statics := ⟨info.statics.entries ++
      constants.map fun (name, number) => (name, .int (Int64.ofInt number))⟩ }

variable {info : ClassInfo} {name : String} {next : Int}

theorem withConstants_nil (info : ClassInfo) : info.withConstants [] = info := by
  rw [withConstants, List.map_nil, List.map_nil, List.append_nil, List.append_nil]

theorem withConstants_cons (info : ClassInfo) (constant : String × Int)
    (rest : List (String × Int)) :
    info.withConstants (constant :: rest) = (info.withConstants [constant]).withConstants rest := by
  simp only [withConstants, List.map_cons, List.map_nil, List.append_assoc, List.singleton_append]

/-- A constant of a new name stands after the other fields. -/
theorem withConstant_of_new (hfields : info.fields.find? name = none)
    (hstatics : info.statics.find? name = none) (value : Int64) :
    info.withConstant name .int (.int value) = info.withConstants [(name, value.toInt)] := by
  rw [withConstant, Table.insert_of_find?_none hfields, Table.insert_of_find?_none hstatics]
  simp only [withConstants, List.map_cons, List.map_nil, constantField, Int64.ofInt_toInt]

theorem names_withConstants (info : ClassInfo) (constants : List (String × Int)) :
    (info.withConstants constants).fields.names = info.fields.names ++ constants.map Prod.fst ∧
      (info.withConstants constants).statics.names =
        info.statics.names ++ constants.map Prod.fst := by
  simp [withConstants, Table.names, Function.comp_def]

/-- How adding members ends: with the first offence, or else with a constant for each member. -/
inductive Added (info : ClassInfo) (next : Int) (members : List (String × Option Int64)) :
    Except Cause ClassInfo → Prop where
  | refused {i : Nat} {cause : Cause}
      (offends : OffendsAfter info.name info.fields.names next members i cause)
      (first : ∀ j < i, ∀ other, ¬ OffendsAfter info.name info.fields.names next members j other) :
      Added info next members (.error cause)
  | numbered (fits : ∀ number ∈ numbersFrom next members, Word.Fits number)
      (none : ∀ i cause, ¬ OffendsAfter info.name info.fields.names next members i cause) :
      Added info next members
        (.ok (info.withConstants ((members.map Prod.fst).zip (numbersFrom next members))))

variable {rest : List (String × Option Int64)} {written : Option Int64}
  {result : Except Cause ClassInfo}

theorem Added.of_refused {cause : Cause}
    (h : OffendsAfter info.name info.fields.names next ((name, written) :: rest) 0 cause) :
    Added info next ((name, written) :: rest) (.error cause) :=
  .refused h fun j hj => absurd hj (Nat.not_lt_zero j)

/-- With nothing wrong about the first member, the others decide. -/
theorem Added.cons {word : Int64} (hnumber : (written.map Int64.toInt).getD next = word.toInt)
    (hzero : ∀ cause, ¬ OffendsAfter info.name info.fields.names next ((name, written) :: rest) 0
      cause)
    (h : Added (info.withConstants [(name, word.toInt)]) (word.toInt + 1) rest result) :
    Added info next ((name, written) :: rest) result := by
  have hlater {i : Nat} {cause : Cause} : OffendsAfter info.name info.fields.names next
      ((name, written) :: rest) (i + 1) cause ↔
      OffendsAfter info.name (info.withConstants [(name, word.toInt)]).fields.names
        (word.toInt + 1) rest i cause := by
    rw [OffendsAfter.succ_iff, hnumber, (info.names_withConstants _).1]
    rfl
  have hnumbers : numbersFrom next ((name, written) :: rest) =
      word.toInt :: numbersFrom (word.toInt + 1) rest := by
    rw [numbersFrom, hnumber]
  cases h with
  | refused offends first =>
      refine .refused (hlater.mpr offends) fun j hj other => ?_
      cases j with
      | zero => exact hzero other
      | succ j => exact mt hlater.mp (first j (Nat.lt_of_succ_lt_succ hj) other)
  | numbered fits none =>
      rw [← withConstants_cons, ← List.zip_cons_cons, ← hnumbers]
      refine .numbered ?_ fun i cause => ?_
      · rw [hnumbers]
        exact List.forall_mem_cons.mpr ⟨Word.fits_toInt word, fits⟩
      · cases i with
        | zero => exact hzero cause
        | succ i => exact mt hlater.mp (none i cause)

/-- A member of a new name gets its value, and the others follow. -/
theorem addMembers_of_new (hstatics : info.statics.names = info.fields.names)
    (hnew : name ∉ info.fields.names) {word : Int64}
    (hword : (written.orElse fun _ => Word.ofInt? next) = some word) :
    info.addMembers (Word.ofInt? next) ((name, written) :: rest) =
      (info.withConstants [(name, word.toInt)]).addMembers (Word.ofInt? (word.toInt + 1)) rest := by
  have hfields : info.fields.find? name = none := Table.find?_eq_none_iff.mpr hnew
  have hvalues : info.statics.find? name = none := Table.find?_eq_none_iff.mpr (hstatics ▸ hnew)
  rw [addMembers, if_neg (by rw [Table.contains, hfields]; exact Bool.false_ne_true), hword]
  dsimp only
  rw [withConstant_of_new hfields hvalues]
  rfl

/-- The induction is on the members. The value of the next one is a word as long as its number fits,
and a number that does not fit is the one after the greatest word. -/
theorem addMembers_added {members : List (String × Option Int64)}
    (hstatics : info.statics.names = info.fields.names) (hnext : -2 ^ 63 ≤ next ∧ next ≤ 2 ^ 63) :
    Added info next members (info.addMembers (Word.ofInt? next) members) := by
  induction members generalizing info next with
  | nil =>
      have h : Added info next [] (.ok (info.withConstants [])) := by
        refine .numbered nofun fun i cause h => ?_
        cases h with
        | repeated here _ => cases here
        | exhausted here _ _ => cases here
      rwa [withConstants_nil] at h
  | cons member rest ih =>
      obtain ⟨name, written⟩ := member
      by_cases hmem : name ∈ info.fields.names
      · -- The name stands before, whatever the number would be.
        have hcontains : info.fields.contains name = true :=
          Option.isSome_iff_exists.mpr (Table.mem_names_iff.mp hmem)
        rw [addMembers, if_pos hcontains]
        exact .of_refused (.repeated rfl (.inl hmem))
      have hgo {word : Int64} (hword : (written.orElse fun _ => Word.ofInt? next) = some word)
          (hnumber : (written.map Int64.toInt).getD next = word.toInt)
          (hnone : written = none → next ≠ 2 ^ 63) :
          Added info next ((name, written) :: rest)
            (info.addMembers (Word.ofInt? next) ((name, written) :: rest)) := by
        have hnames := info.names_withConstants [(name, word.toInt)]
        have hfits := Word.fits_toInt word
        rw [addMembers_of_new hstatics hmem hword]
        refine .cons hnumber (fun cause => OffendsAfter.not_zero hmem hnone) (ih ?_ ?_)
        · rw [hnames.1, hnames.2, hstatics]
        · unfold Word.Fits at hfits
          omega
      cases written with
      | some word => exact hgo rfl rfl nofun
      | none =>
          cases hword : Word.ofInt? next with
          | some word =>
              have hnumber : word.toInt = next := Word.ofInt?_eq_some_iff.mp hword
              rw [← hword]
              refine hgo hword hnumber.symm fun _ heq => ?_
              exact absurd (Word.fits_toInt word).2 (by omega)
          | none =>
              -- Of the numbers that may come next, only one is not a word.
              have hover : next = 2 ^ 63 := by
                have hfits := Word.ofInt?_eq_none_iff.mp hword
                unfold Word.Fits at hfits
                omega
              have hcontains : ¬ info.fields.contains name = true := fun h =>
                hmem (Table.mem_names_iff.mpr (Option.isSome_iff_exists.mp h))
              rw [addMembers, if_neg hcontains]
              refine .of_refused (.exhausted rfl ?_ (congrArg some hover))
              rintro (h | ⟨j, hj, -⟩)
              · exact hmem h
              · exact absurd hj (Nat.not_lt_zero j)

end ClassInfo

/-! ## Declarations -/

namespace EnumDecl

variable {decl : EnumDecl}

/-- The class of an enumeration. -/
def described (decl : EnumDecl) : ClassInfo :=
  { ClassInfo.blank decl.name with isStatic := true }.withConstants (decl.names.zip decl.numbers)

/-- There is nothing wrong with any member. -/
theorem forall_not_offends_iff :
    (∀ i cause, ¬ decl.Offends i cause) ↔
      decl.names.Nodup ∧ ∀ i name, decl.members[i + 1]? = some (name, none) →
        decl.numbers[i]? ≠ some (2 ^ 63 - 1) := by
  constructor
  · intro h
    have hnew {i : Nat} {name : String} (here : decl.names[i]? = some name) :
        ¬ ∃ j < i, decl.names[j]? = some name := fun before => h i _ (.repeated here before)
    refine ⟨List.nodup_iff_getElem?_ne_getElem?.mpr fun i j hij hj heq => ?_,
      fun i name here greatest => ?_⟩
    · exact hnew (List.getElem?_eq_getElem hj) ⟨i, hij, heq.trans (List.getElem?_eq_getElem hj)⟩
    · have hname : decl.names[i + 1]? = some name := by
        rw [names, List.getElem?_map, here]
        rfl
      exact h (i + 1) _ (.exhausted rfl here (hnew hname) greatest)
  · rintro ⟨hnodup, hgreatest⟩ i cause h
    cases h with
    | repeated here before =>
        obtain ⟨j, hj, before⟩ := before
        have hi : i < decl.names.length := (List.getElem?_eq_some_iff.mp here).1
        exact List.nodup_iff_getElem?_ne_getElem?.mp hnodup j i hj hi (before.trans here.symm)
    | exhausted next here _ greatest => exact hgreatest _ _ (next ▸ here) greatest

/-- The description of an enumeration is refused for its first offence. -/
theorem ofEnum_cases (decl : EnumDecl) :
    (∃ i cause, ClassInfo.ofEnum decl = .error cause ∧ decl.Offends i cause ∧
      ∀ j < i, ∀ other, ¬ decl.Offends j other) ∨
    (ClassInfo.ofEnum decl = .ok decl.described ∧ (∀ number ∈ decl.numbers, Word.Fits number) ∧
      ∀ i cause, ¬ decl.Offends i cause) := by
  have hstart : ClassInfo.ofEnum decl =
      ({ ClassInfo.blank decl.name with isStatic := true }).addMembers (Word.ofInt? 0)
        decl.members := rfl
  have hadded : ClassInfo.Added { ClassInfo.blank decl.name with isStatic := true } 0 decl.members
      (ClassInfo.ofEnum decl) :=
    hstart ▸ ClassInfo.addMembers_added rfl (by decide)
  cases hresult : ClassInfo.ofEnum decl with
  | error cause =>
      rw [hresult] at hadded
      cases hadded with
      | refused offends first =>
          exact .inl ⟨_, cause, rfl, offends_iff.mpr offends,
            fun j hj other => mt offends_iff.mp (first j hj other)⟩
  | ok info =>
      rw [hresult] at hadded
      cases hadded with
      | numbered fits none =>
          exact .inr ⟨rfl, fits, fun i cause => mt offends_iff.mp (none i cause)⟩

theorem names_described (decl : EnumDecl) :
    decl.described.fields.names = decl.names ∧ decl.described.statics.names = decl.names := by
  have hzip : (decl.names.zip decl.numbers).map Prod.fst = decl.names := by
    refine List.map_fst_zip (Nat.le_of_eq ?_)
    rw [names, numbers, length_numbersFrom, List.length_map]
  have hnames := ClassInfo.names_withConstants { ClassInfo.blank decl.name with isStatic := true }
    (decl.names.zip decl.numbers)
  rw [hzip] at hnames
  exact hnames

variable {name : String} {number : Int}

/-- A look-up in the new class finds each member. -/
theorem find?_described (hnodup : decl.names.Nodup)
    (hmem : (name, number) ∈ decl.names.zip decl.numbers) :
    decl.described.fields.find? name = some (constantField decl.name name number) ∧
      decl.described.statics.find? name = some (.int (Int64.ofInt number)) := by
  obtain ⟨hfields, hstatics⟩ := decl.names_described
  constructor
  · refine Table.WellKeyed.find?_of_mem (by rwa [Table.WellKeyed, hfields]) ?_
    exact List.mem_map.mpr ⟨(name, number), hmem, rfl⟩
  · refine Table.WellKeyed.find?_of_mem (by rwa [Table.WellKeyed, hstatics]) ?_
    exact List.mem_map.mpr ⟨(name, number), hmem, rfl⟩

/-- Every code may read the members of a declared enumeration. -/
theorem readStatic_described {s : Session} {cls : ClassId}
    (hcls : s.store.classInfo cls = decl.described) (hnodup : decl.names.Nodup)
    (hmem : (name, number) ∈ decl.names.zip decl.numbers) :
    s.readStatic cls name = .ok (.int (Int64.ofInt number)) := by
  obtain ⟨hfield, hvalue⟩ := find?_described hnodup hmem
  have hstatic : s.staticField cls name = .ok (constantField decl.name name number) := by
    rw [Session.staticField, Session.findField, hcls, hfield]
    rfl
  have hholder : s.store.staticHolder? cls name = some cls := by
    rw [Store.staticHolder?, Store.lineage, List.find?_cons, hcls, Table.contains, hvalue]
    rfl
  have hread : s.store.staticValue? cls name = some (.int (Int64.ofInt number)) := by
    rw [Store.staticValue?, hholder]
    exact (congrArg (fun info => info.statics.find? name) hcls).trans hvalue
  rw [Session.readStatic, hstatic]
  dsimp only [Bind.bind, Except.bind]
  rw [hread]

end EnumDecl

/-- An enumeration is declared exactly if its name is free, no two members have one name and no
member without a value follows the greatest word. It becomes the next class, whose fields are the
members in their order, public constants that anyone reads as their numbers. Otherwise the session
is as before, and the first member that there is something wrong with is reported, or only then the
name of the enumeration. -/
theorem declareEnum_numbers_members (decl : EnumDecl) (s : Session) :
    ((∃ s', declareEnum decl s = .ok () s') ↔
      s.store.findClass? decl.name = none ∧ decl.names.Nodup ∧
        ∀ i name, decl.members[i + 1]? = some (name, none) →
          decl.numbers[i]? ≠ some (2 ^ 63 - 1)) ∧
    match declareEnum decl s with
    | .ok () s' =>
        s' = { s with store := (s.store.enrollClass decl.described).2 } ∧
        s'.store.findClass? decl.name = some s.store.classes.size ∧
        s'.store.classInfo s.store.classes.size = decl.described ∧
        decl.described.fields.names = decl.names ∧
        ∀ name number, (name, number) ∈ decl.names.zip decl.numbers → ∃ word,
          word.toInt = number ∧ s'.readStatic s.store.classes.size name = .ok (.int word)
    | .error fault s' =>
        s' = s ∧ fault.line = decl.line ∧
        ((∃ i, decl.Offends i fault.cause ∧ ∀ j < i, ∀ other, ¬ decl.Offends j other) ∨
          (∀ i other, ¬ decl.Offends i other) ∧ s.store.findClass? decl.name ≠ none ∧
            fault.cause = .classAlreadyDeclared decl.name)
    | .exhausted => False := by
  rw [← EnumDecl.forall_not_offends_iff]
  rcases decl.ofEnum_cases with ⟨i, cause, herror, hoffends, hfirst⟩ | ⟨hok, hfits, hnone⟩
  · -- A member is refused.
    have hrun : declareEnum decl s = .error { cause, line := decl.line } s :=
      Action.bind_of_error (Eval.ask_of_error herror decl.line)
    rw [hrun]
    exact ⟨iff_of_false nofun fun h => h.2 i cause hoffends, rfl, rfl, .inl ⟨i, hoffends, hfirst⟩⟩
  have hinfo : Eval.ask decl.line (fun _ => ClassInfo.ofEnum decl) s = .ok decl.described s :=
    Eval.ask_of_ok hok decl.line
  rw [declareEnum, Action.bind_of_ok hinfo]
  cases hname : s.store.findClass? decl.name with
  | some cls =>
      rw [Action.bind_of_error
        (Session.declareClassInfo_of_taken (Store.checkClassName_of_taken hname) decl.line)]
      exact ⟨iff_of_false nofun fun h => Option.some_ne_none cls h.1, rfl, rfl,
        .inr ⟨hnone, Option.some_ne_none cls, rfl⟩⟩
  | none =>
      rw [Action.bind_of_ok
        (Session.declareClassInfo_of_free (Store.checkClassName_of_free hname) decl.line)]
      have hcls : (s.store.enrollClass decl.described).2.classInfo s.store.classes.size =
          decl.described := by
        rw [Store.classInfo_enrollClass, if_pos rfl]
      refine ⟨iff_of_true ⟨_, rfl⟩ ⟨rfl, hnone⟩, rfl, ?_, hcls,
        decl.names_described.1,
        fun name number hmem => ?_⟩
      · exact (s.store.findClass?_enrollClass decl.described decl.name).trans (if_pos rfl)
      · exact ⟨Int64.ofInt number, Word.toInt_ofInt (hfits number (List.of_mem_zip hmem).2),
          EnumDecl.readStatic_described hcls (EnumDecl.forall_not_offends_iff.mp hnone).1 hmem⟩

end ClassScript
