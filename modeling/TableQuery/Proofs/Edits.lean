import Mathlib.Data.List.Forall2
import TableQuery.Proofs.FieldName
import TableQuery.Proofs.Outcome

/-!
# Which edits can be resolved

An edit resolves in one way or not at all, and each entry of an edit map is
resolved by itself. A map can be resolved exactly if the names of its entries
are valid and each entry that is left over resolves; the resolved edits are then
in the order of these entries.
-/

namespace TableQuery

/-! ## Single edits -/

/-- A value carries a position if it is an object with an integer of at most 64
bits and a sign as its index. -/
def CarriesIndex (value : Json) (index : Int64) : Prop :=
  ∃ members held, value = .object members ∧
    members.lookup inlineIndexName = some (.number (.int index.toInt held))

theorem toInt64?_eq_some_iff (number : Number) (index : Int64) :
    number.toInt64? = some index ↔
      ∃ held, number = .int index.toInt held := by
  have largest : Int64.maxValue.toInt = 0x7fffffffffffffff := by decide
  cases number with
  | float value => simp [Number.toInt64?]
  | int value held =>
      simp only [Number.toInt64?, largest, Number.int.injEq, exists_prop]
      constructor
      · intro found
        split at found
        · next small =>
            have exact := Int64.toInt_ofInt_of_le (n := value)
              (by omega) (by omega)
            cases found
            exact ⟨exact.symm ▸ held, exact.symm⟩
        · cases found
      · rintro ⟨_, rfl⟩
        have below := index.toInt_lt
        rw [if_pos (by omega), Int64.ofInt_toInt]

theorem inlineIndex_eq_some_iff (value : Json) (index : Int64) :
    inlineIndex value = some index ↔ CarriesIndex value index := by
  unfold inlineIndex CarriesIndex
  constructor
  · intro found
    split at found
    · next number member =>
        obtain ⟨held, rfl⟩ := (toInt64?_eq_some_iff number index).1 found
        cases value with
        | object members => exact ⟨members, held, rfl, member⟩
        | _ => cases member
    · cases found
  · rintro ⟨members, held, rfl, member⟩
    simp only [Json.member?, member]
    exact (toInt64?_eq_some_iff _ index).2 ⟨held, rfl⟩

theorem inlineIndex_eq_none_iff (value : Json) :
    inlineIndex value = none ↔ ∀ index, ¬ CarriesIndex value index := by
  simp only [Option.eq_none_iff_forall_ne_some, ne_eq, inlineIndex_eq_some_iff]

/-- How an edit writes a value. -/
inductive Edit.Writes (edit : Edit) : Json → Assignment → Prop
  /-- The items of a list are appended. -/
  | append {items : List Json} (append : edit.append = true) :
      edit.Writes (.array items) (.append items)
  /-- What is no list cannot be appended and replaces the value. -/
  | replace {value : Json}
      (append : edit.append = true)
      (noList : ∀ items, value ≠ .array items) :
      edit.Writes value (.set value)
  /-- The edit gives the position of an item. -/
  | position {value : Json} {index : Int64} {position : Nat}
      (noAppend : edit.append = false)
      (given : edit.index = some index)
      (same : (position : Int) = index.toInt) :
      edit.Writes value (.setAt position value)
  /-- The value carries the position of an item and is written without it. -/
  | inlinePosition {members : List (String × Json)} {index : Int64}
      {position : Nat}
      (noAppend : edit.append = false)
      (absent : edit.index = none)
      (carried : CarriesIndex (.object members) index)
      (same : (position : Int) = index.toInt) :
      edit.Writes (.object members)
        (.setAt position
          (.object (members.filter fun member => member.1 ≠ inlineIndexName)))
  /-- Nothing gives a position. -/
  | set {value : Json}
      (noAppend : edit.append = false)
      (absent : edit.index = none)
      (uncarried : ∀ index, ¬ CarriesIndex value index) :
      edit.Writes value (.set value)

theorem listIndex_eq_ok_iff (field : String) (index : Int64) (position : Nat) :
    listIndex field index = .ok position ↔ (position : Int) = index.toInt := by
  unfold listIndex
  split
  · simp only [Except.ok.injEq]
    omega
  · simp only [reduceCtorEq, false_iff]
    omega

theorem resolveAssignment_eq_ok_iff
    (field : String)
    (edit : Edit)
    (value : Json)
    (assignment : Assignment) :
    resolveAssignment field edit value = .ok assignment ↔
      edit.Writes value assignment := by
  constructor
  · intro resolved
    unfold resolveAssignment at resolved
    split at resolved
    · next append =>
        split at resolved
        · cases resolved
          exact .append append
        · next noList =>
            cases resolved
            exact .replace append noList
    · next noAppend =>
        rw [Bool.not_eq_true] at noAppend
        split at resolved
        · next index given =>
            obtain ⟨position, found, rest⟩ := bind_eq_ok_iff.1 resolved
            cases rest
            exact .position noAppend given ((listIndex_eq_ok_iff _ _ _).1 found)
        · next absent =>
            split at resolved
            · next index carried =>
                obtain ⟨position, found, rest⟩ := bind_eq_ok_iff.1 resolved
                cases rest
                have carries := (inlineIndex_eq_some_iff _ _).1 carried
                have ⟨members, _, isObject, _⟩ := carries
                subst isObject
                have filtered : (Json.object members).without
                      [inlineIndexName] =
                    .object (members.filter fun member =>
                      member.1 ≠ inlineIndexName) := by
                  simp [Json.without]
                rw [filtered]
                exact .inlinePosition noAppend absent carries
                  ((listIndex_eq_ok_iff _ _ _).1 found)
            · next uncarried =>
                cases resolved
                exact .set noAppend absent
                  ((inlineIndex_eq_none_iff value).1 uncarried)
  · intro writes
    cases writes with
    | append append => simp [resolveAssignment, append]
    | replace append noList => simp [resolveAssignment, append]
    | position noAppend given same =>
        have found := (listIndex_eq_ok_iff field _ _).2 same
        simp [resolveAssignment, noAppend, given, found]
    | inlinePosition noAppend absent carried same =>
        have found := (listIndex_eq_ok_iff field _ _).2 same
        have index := (inlineIndex_eq_some_iff _ _).2 carried
        simp [resolveAssignment, noAppend, absent, index, found, Json.without]
    | set noAppend absent uncarried =>
        have none := (inlineIndex_eq_none_iff value).2 uncarried
        simp [resolveAssignment, noAppend, absent, none]

/-- How an entry of an edit map is written: it has to describe an edit that
has a value. -/
def Assigns (entry : Option EditEntry) (assignment : Assignment) : Prop :=
  ∃ edit value, entry = some (.described edit) ∧ edit.value = some value ∧
    edit.Writes value assignment

theorem requireValue_eq_ok_iff
    (field : String)
    (entry : Option EditEntry)
    (edit : Edit)
    (value : Json) :
    requireValue field entry = .ok (edit, value) ↔
      entry = some (.described edit) ∧ edit.value = some value := by
  unfold requireValue
  match entry with
  | none => simp
  | some (.raw other) => simp [EditEntry.edit?]
  | some (.described other) =>
      cases given : other.value with
      | none =>
          simp only [Option.bind_some, EditEntry.edit?, given, reduceCtorEq,
            Option.some.injEq, EditEntry.described.injEq, false_iff]
          rintro ⟨rfl, present⟩
          simp [given] at present
      | some content =>
          simp only [Option.bind_some, EditEntry.edit?, given, Except.ok.injEq,
            Prod.mk.injEq, Option.some.injEq, EditEntry.described.injEq]
          constructor
          · rintro ⟨rfl, rfl⟩
            exact ⟨rfl, given⟩
          · rintro ⟨rfl, present⟩
            exact ⟨rfl, Option.some.inj (given.symm.trans present)⟩

theorem assigns_iff
    (field : String)
    (entry : Option EditEntry)
    (assignment : Assignment) :
    Assigns entry assignment ↔
      ∃ required, requireValue field entry = .ok required ∧
        resolveAssignment field required.1 required.2 = .ok assignment := by
  constructor
  · rintro ⟨edit, value, described, present, writes⟩
    exact ⟨(edit, value),
      (requireValue_eq_ok_iff _ _ _ _).2 ⟨described, present⟩,
      (resolveAssignment_eq_ok_iff _ _ _ _).2 writes⟩
  · rintro ⟨⟨edit, value⟩, required, resolved⟩
    obtain ⟨described, present⟩ := (requireValue_eq_ok_iff _ _ _ _).1 required
    exact ⟨edit, value, described, present,
      (resolveAssignment_eq_ok_iff _ _ _ _).1 resolved⟩

/-- An entry is written in one way. -/
theorem Assigns.unique
    {entry : Option EditEntry}
    {left right : Assignment}
    (leftAssigns : Assigns entry left)
    (rightAssigns : Assigns entry right) : left = right := by
  obtain ⟨required, present, resolved⟩ := (assigns_iff "" _ _).1 leftAssigns
  obtain ⟨again, presentAgain, resolvedAgain⟩ :=
    (assigns_iff "" _ _).1 rightAssigns
  rw [present] at presentAgain
  rw [← Except.ok.inj presentAgain, resolved] at resolvedAgain
  exact Except.ok.inj resolvedAgain

/-- How an entry of an edit map is removed. -/
inductive Removes : Option EditEntry → Removal → Prop
  /-- The edit gives the position of an item. -/
  | item {edit : Edit} {index : Int64} {position : Nat}
      (given : edit.index = some index)
      (same : (position : Int) = index.toInt) :
      Removes (some (.described edit)) (.item position)
  /-- Nothing gives a position, and the whole field goes. -/
  | field {entry : Option EditEntry}
      (absent : ∀ edit, entry = some (.described edit) → edit.index = none) :
      Removes entry .field

theorem resolveRemoval_eq_ok_iff
    (field : String)
    (entry : Option EditEntry)
    (removal : Removal) :
    resolveRemoval field entry = .ok removal ↔ Removes entry removal := by
  unfold resolveRemoval
  constructor
  · intro resolved
    split at resolved
    · next index given =>
        obtain ⟨position, found, rest⟩ := bind_eq_ok_iff.1 resolved
        cases rest
        match entry with
        | some (.described edit) =>
            exact .item given ((listIndex_eq_ok_iff _ _ _).1 found)
    · next absent =>
        cases resolved
        refine .field ?_
        rintro edit rfl
        exact absent
  · intro removes
    cases removes with
    | item given same =>
        have found := (listIndex_eq_ok_iff field _ _).2 same
        simp [EditEntry.edit?, given, found]
    | field absent =>
        match entry with
        | none => rfl
        | some (.raw value) => rfl
        | some (.described edit) =>
            simp [EditEntry.edit?, absent edit rfl]

/-! ## Edit maps -/

/-- An index key without a value. -/
def Suppressed (config : Config) (entry : String × Option EditEntry) : Prop :=
  entry.1 ∈ config.indexKeys ∧
    (entry.2.bind EditEntry.value? = none ∨
      entry.2.bind EditEntry.value? = some .null ∨
      entry.2.bind EditEntry.value? = some (.string ""))

theorem isSuppressed_iff
    (config : Config)
    (entry : String × Option EditEntry) :
    isSuppressed config entry.1 entry.2 = true ↔ Suppressed config entry := by
  unfold isSuppressed Suppressed Config.isIndexKey
  rw [Bool.and_eq_true, List.contains_iff_mem]
  apply and_congr_right
  intro _
  split <;> simp_all

instance (config : Config) (entry : String × Option EditEntry) :
    Decidable (Suppressed config entry) :=
  decidable_of_iff _ (isSuppressed_iff config entry)

/-- The entries that write a field. -/
def writtenEntries
    (config : Config)
    (entries : List (String × Option EditEntry)) :
    List (String × Option EditEntry) :=
  entries.filter fun entry =>
    entry.1 ≠ reservedField ∧ ¬ Suppressed config entry

/-- The entries that remove a field. -/
def removedEntries (entries : List (String × Option EditEntry)) :
    List (String × Option EditEntry) :=
  entries.filter fun entry => entry.1 ≠ reservedField

/-- An entry that writes and the assignment that it resolves to. -/
def WritesField
    (entry : String × Option EditEntry)
    (result : String × Assignment) : Prop :=
  entry.1 = result.1 ∧ Assigns entry.2 result.2

/-- An entry that removes and the removal that it resolves to. -/
def RemovesField
    (entry : String × Option EditEntry)
    (result : String × Removal) : Prop :=
  entry.1 = result.1 ∧ Removes entry.2 result.2

/-- The names of the entries can be spliced, except for the reserved one, which
never is. -/
def ValidNames (entries : List (String × Option EditEntry)) : Prop :=
  ∀ entry ∈ entries, entry.1 ≠ reservedField → ValidName entry.1

theorem resolveUpdate_eq_ok_iff
    (config : Config)
    (entries : List (String × Option EditEntry))
    (found : List (String × Assignment)) :
    resolveUpdate config entries = .ok found ↔
      ValidNames entries ∧
        List.Forall₂ WritesField (writtenEntries config entries) found := by
  induction entries generalizing found with
  | nil => simp [resolveUpdate, ValidNames, writtenEntries]
  | cons entry entries hypothesis =>
      obtain ⟨field, entry⟩ := entry
      rw [resolveUpdate, ValidNames, List.forall_mem_cons, writtenEntries,
        List.filter_cons, ← ValidNames, ← writtenEntries]
      by_cases reserved : field = reservedField
      · simp [reserved, hypothesis]
      rw [if_neg reserved, check_bind_eq_ok_iff, checkFieldName_eq_ok]
      by_cases suppressed : Suppressed config (field, entry)
      · rw [if_pos ((isSuppressed_iff config (field, entry)).2 suppressed),
          hypothesis]
        simp [reserved, suppressed, and_assoc]
      · rw [if_neg fun holds =>
          suppressed ((isSuppressed_iff config (field, entry)).1 holds)]
        have kept : decide (field ≠ reservedField ∧
            ¬ Suppressed config (field, entry)) = true := by
          simp [reserved, suppressed]
        rw [if_pos kept, List.forall₂_cons_left_iff]
        simp only [bind_eq_ok_iff, hypothesis, Except.ok.injEq]
        constructor
        · rintro ⟨valid, required, present, assignment, resolved, others,
            ⟨valids, rest⟩, rfl⟩
          exact ⟨⟨fun _ => valid, valids⟩, (field, assignment), others,
            ⟨rfl, (assigns_iff field _ _).2 ⟨required, present, resolved⟩⟩,
            rest, rfl⟩
        · rintro ⟨⟨valid, valids⟩, ⟨_, assignment⟩, others, ⟨rfl, assigns⟩,
            rest, rfl⟩
          obtain ⟨required, present, resolved⟩ :=
            (assigns_iff field _ _).1 assigns
          exact ⟨valid reserved, required, present, assignment, resolved,
            others, ⟨valids, rest⟩, rfl⟩

theorem resolveRemove_eq_ok_iff
    (entries : List (String × Option EditEntry))
    (found : List (String × Removal)) :
    resolveRemove entries = .ok found ↔
      ValidNames entries ∧
        List.Forall₂ RemovesField (removedEntries entries) found := by
  induction entries generalizing found with
  | nil => simp [resolveRemove, ValidNames, removedEntries]
  | cons entry entries hypothesis =>
      obtain ⟨field, entry⟩ := entry
      rw [resolveRemove, ValidNames, List.forall_mem_cons, removedEntries,
        List.filter_cons, ← ValidNames, ← removedEntries]
      by_cases reserved : field = reservedField
      · simp [reserved, hypothesis]
      have kept : decide (field ≠ reservedField) = true := by
        simp [reserved]
      rw [if_neg reserved, check_bind_eq_ok_iff, checkFieldName_eq_ok,
        if_pos kept, List.forall₂_cons_left_iff]
      simp only [bind_eq_ok_iff, hypothesis, resolveRemoval_eq_ok_iff,
        Except.ok.injEq]
      constructor
      · rintro ⟨valid, removal, removes, others, ⟨valids, rest⟩, rfl⟩
        exact ⟨⟨fun _ => valid, valids⟩, (field, removal), others,
          ⟨rfl, removes⟩, rest, rfl⟩
      · rintro ⟨⟨valid, valids⟩, ⟨_, removal⟩, others, ⟨rfl, removes⟩,
          rest, rfl⟩
        exact ⟨valid reserved, removal, removes, others, ⟨valids, rest⟩, rfl⟩

end TableQuery
