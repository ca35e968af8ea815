import TableQuery.Proofs.Refusals
import TableQuery.Proofs.Resolution

/-!
# Suppression leaves entries out

An index key that has no value is not written. Compilation could as well be
given the conditions without such entries: then nothing has to be known about
index keys, and the outcome is the same, failures included. So no update writes
an empty value to an index key. Removing is a different matter, as index keys are
removed like other fields.
-/

namespace TableQuery

namespace FieldMap

variable {α : Type}

/-- The entries of a map that are kept. -/
def filter (keep : String × α → Bool) (map : FieldMap α) : FieldMap α :=
  ⟨map.entries.filter keep,
    map.distinct.sublist (List.filter_sublist.map Prod.fst)⟩

@[simp] theorem entries_filter
    (keep : String × α → Bool)
    (map : FieldMap α) :
    (map.filter keep).entries = map.entries.filter keep := rfl

end FieldMap

/-! ## Entries that are left out -/

/-- Without index keys nothing is suppressed. -/
theorem isSuppressed_default (field : String) (entry : Option EditEntry) :
    isSuppressed .default field entry = false := rfl

/-- Entries that are suppressed may be left out if their names are valid. -/
theorem resolveUpdate_eq_filter
    (config : Config)
    {entries : List (String × Option EditEntry)}
    (valid : ValidNames entries) :
    resolveUpdate config entries =
      resolveUpdate .default
        (entries.filter fun entry => ¬ Suppressed config entry) := by
  induction entries with
  | nil => rfl
  | cons entry entries hypothesis =>
      obtain ⟨field, entry⟩ := entry
      obtain ⟨validField, validFields⟩ := List.forall_mem_cons.1 valid
      have rest := hypothesis validFields
      by_cases suppressed : Suppressed config (field, entry)
      · have left : ((field, entry) :: entries).filter
            (fun entry => ¬ Suppressed config entry) =
              entries.filter fun entry => ¬ Suppressed config entry :=
          List.filter_cons_of_neg (by simpa using suppressed)
        rw [left, ← rest, resolveUpdate]
        -- A suppressed entry is only asked for its name.
        by_cases reserved : field = reservedField
        · rw [if_pos reserved]
        · rw [if_neg reserved, (checkFieldName_eq_ok field).2
              (validField reserved), ok_bind,
            if_pos ((isSuppressed_iff config (field, entry)).2 suppressed)]
      · have left : ((field, entry) :: entries).filter
            (fun entry => ¬ Suppressed config entry) =
              (field, entry) ::
                entries.filter fun entry => ¬ Suppressed config entry :=
          List.filter_cons_of_pos (by simpa using suppressed)
        rw [left, resolveUpdate, resolveUpdate, ← rest,
          if_neg ((isSuppressed_iff config (field, entry)).not.2 suppressed),
          isSuppressed_default]
        rfl

namespace Conditions

/-- Conditions without the entries that are suppressed. -/
def withoutSuppressed (conditions : Conditions) (config : Config) :
    Conditions :=
  { conditions with
    update := conditions.update.map fun update =>
      update.filter fun entry => ¬ Suppressed config entry }

theorem assignments_withoutSuppressed
    {config : Config}
    {conditions : Conditions}
    (valid : ValidNames (sectionEntries conditions.update)) :
    assignments config conditions =
      assignments .default (conditions.withoutSuppressed config) := by
  unfold assignments withoutSuppressed
  cases present : conditions.update with
  | none => rfl
  | some update =>
      have entries : sectionEntries conditions.update = update.entries := by
        rw [present]
        rfl
      rw [entries] at valid
      simp only [Option.map_some, FieldMap.entries_filter,
        resolveUpdate_eq_filter config valid]

end Conditions

/-! ## Values that are written -/

/-- A value that an index key must not have. -/
def IsEmptyValue (value : Json) : Prop :=
  value = .null ∨ value = .string ""

/-- An empty value is only written if the entry carries it. -/
theorem Assigns.value?_eq_of_isEmptyValue
    {entry : Option EditEntry}
    {assignment : Assignment}
    (assigns : Assigns entry assignment)
    (isEmpty : IsEmptyValue assignment.value) :
    entry.bind EditEntry.value? = some assignment.value := by
  obtain ⟨edit, value, rfl, present, writes⟩ := assigns
  cases writes with
  | append _ => rcases isEmpty with isNull | isBlank <;> contradiction
  | replace _ _ => exact present
  | position _ _ _ => exact present
  | inlinePosition _ _ _ _ =>
      rcases isEmpty with isNull | isBlank <;> contradiction
  | set _ _ _ => exact present

/-- No empty value is bound for an index key that is written. -/
theorem WrittenSection.not_isEmptyValue
    {config : Config}
    {update : Option EditMap}
    {written : List (String × Assignment)}
    (writes : WrittenSection config update written)
    {field : String}
    (isIndexKey : field ∈ config.indexKeys)
    {value : Json}
    (bound : (SortedMap.ofList (written.flatMap fun entry =>
      entry.2.bindings entry.1)).get? (placeholderOf field) = some value) :
    ¬ IsEmptyValue value := by
  intro isEmpty
  have member := SortedMap.mem_of_mem_ofList
    ((SortedMap.get?_eq_some_iff _ _ _).1 bound)
  rcases (mem_bindings_iff _ _ _).1 member with
    ⟨⟨name, assignment⟩, present, same, rfl⟩ | ⟨_, rfl, _⟩
  · obtain rfl := (placeholderOf_inj _ _).1 same
    obtain ⟨⟨other, entry⟩, kept, rfl, assigns⟩ :=
      exists_mem_left_of_forall₂ writes.resolved present
    have carried := assigns.value?_eq_of_isEmptyValue isEmpty
    have notSuppressed := (of_decide_eq_true (List.mem_filter.1 kept).2).2
    refine notSuppressed ⟨isIndexKey, .inr ?_⟩
    rw [carried]
    exact isEmpty.imp (congrArg some) (congrArg some)
  · rcases isEmpty with isNull | isBlank <;> contradiction

/-! ## Updates -/

/-- If the names of its fields are valid, an update has the outcome that it has
without the suppressed entries and without index keys. No update binds an empty
value for an index key that it writes, and all fields are removed that are to be
removed, index keys or not. -/
theorem compile_withoutSuppressed
    {conditions : Conditions}
    {config : Config}
    (isUpdate : conditions.operation = some .update) :
    (ValidNames (sectionEntries conditions.update) →
      compile conditions config =
        compile (conditions.withoutSuppressed config) .default) ∧
    ∀ expression, compile conditions config = .ok expression →
      (∀ field ∈ config.indexKeys, ∀ value,
        expression.values.get? (placeholderOf field) = some value →
          ¬ IsEmptyValue value) ∧
      ∃ written removed,
        expression.update = some (updateText written removed) ∧
        List.Forall₂ RemovesField
          (removedEntries (sectionEntries conditions.remove)) removed ∧
        ∀ entry ∈ removedEntries (sectionEntries conditions.remove),
          expression.names.get? (aliasOf entry.1) = some entry.1 := by
  constructor
  · intro valid
    have stillUpdate :
        (conditions.withoutSuppressed config).operation = some .update :=
      isUpdate
    rw [compile_eq_of_update config isUpdate,
      compile_eq_of_update .default stillUpdate,
      Conditions.assignments_withoutSuppressed valid]
    rfl
  · intro expression compiled
    obtain ⟨target, primary, written, removed, _, _, _, resolvedWritten,
      resolvedRemoved, rfl⟩ :=
        ((compile_eq_ok_iff _ _ _).1 compiled).of_update isUpdate
    have removes := (removedSection resolvedRemoved).resolved
    refine ⟨fun field isIndexKey value bound =>
      (writtenSection resolvedWritten).1.not_isEmptyValue isIndexKey bound,
      written.getD [], removed.getD [], rfl, removes, ?_⟩
    intro entry member
    obtain ⟨result, present, same, _⟩ :=
      exists_mem_right_of_forall₂ removes member
    rw [same]
    exact get?_aliases (List.mem_append_right _ (List.mem_map_of_mem present))

/-- Index keys that are written without a value, with a blank one and with one,
and one that is removed. -/
def indexKeyUpdate : Conditions :=
  Conditions.start "Orders" .update
    |>.withCriterion "id" (.ofPrimary (.string "a"))
    |>.withUpdate "owner" .empty
    |>.withUpdate "status" (.setAt (-1) (.string ""))
    |>.withUpdate "kind" (.set (.string "b"))
    |>.withRemove "region" none

/-- The configuration with these index keys. -/
def indexKeyConfig : Config := ⟨["owner", "status", "kind", "region"]⟩

theorem compile_withoutSuppressed_indexKeyUpdate :
    indexKeyUpdate.withoutSuppressed indexKeyConfig ≠ indexKeyUpdate ∧
      compile indexKeyUpdate indexKeyConfig =
        compile (indexKeyUpdate.withoutSuppressed indexKeyConfig) .default ∧
      (compile indexKeyUpdate indexKeyConfig).toOption.bind
          Expression.update = some "SET #kind = :kind REMOVE #region" := by
  have valid : ValidNames (sectionEntries indexKeyUpdate.update) := by
    unfold ValidNames
    decide +kernel
  exact ⟨by decide +kernel, (compile_withoutSuppressed rfl).1 valid,
    by decide +kernel⟩

end TableQuery
