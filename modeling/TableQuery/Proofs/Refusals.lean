import TableQuery.Proofs.UpdateAcceptance

/-!
# Why updates are refused

Entries are resolved one by one, so an edit map is refused for the first of its
entries that is at fault: its name cannot be spliced, there is no value to write,
or the position that counts is negative. A position counts if the edit gives it,
or if the value carries it and the edit gives none; for an edit that appends none
counts at all.
-/

namespace TableQuery

/-! ## Single steps -/

theorem checkFieldName_eq_error_iff (name : String) (cause : CompileError) :
    checkFieldName name = .error cause ↔
      ¬ ValidName name ∧ cause = .invalidFieldName name := by
  rw [← isFieldName_iff, checkFieldName]
  split
  · next isName => simp [isName]
  · next noName => simp [noName, eq_comm]

theorem listIndex_eq_error_iff
    (field : String)
    (index : Int64)
    (cause : CompileError) :
    listIndex field index = .error cause ↔
      index.toInt < 0 ∧ cause = .invalidListIndex field index := by
  rw [listIndex]
  split
  · next nonnegative => simp [Int.not_lt.2 nonnegative]
  · next negative => simp [Int.not_le.1 negative, eq_comm]

theorem requireValue_eq_error_iff
    (field : String)
    (entry : Option EditEntry)
    (cause : CompileError) :
    requireValue field entry = .error cause ↔
      (∀ edit, entry = some (.described edit) → edit.value = none) ∧
        cause = .missingValue field := by
  match entry with
  | none => simp [requireValue, eq_comm]
  | some (.raw value) => simp [requireValue, EditEntry.edit?, eq_comm]
  | some (.described edit) =>
      cases given : edit.value <;>
        simp [requireValue, EditEntry.edit?, given, eq_comm]

/-- The position that counts for an edit that writes a value. -/
def Edit.Counts (edit : Edit) (value : Json) (index : Int64) : Prop :=
  edit.append = false ∧
    (edit.index = some index ∨ edit.index = none ∧ CarriesIndex value index)

theorem resolveAssignment_eq_error_iff
    (field : String)
    (edit : Edit)
    (value : Json)
    (cause : CompileError) :
    resolveAssignment field edit value = .error cause ↔
      ∃ index, edit.Counts value index ∧ index.toInt < 0 ∧
        cause = .invalidListIndex field index := by
  unfold resolveAssignment Edit.Counts
  split
  · next append =>
      refine iff_of_false ?_ (by simp [append])
      split <;> simp
  · next noAppend =>
      rw [Bool.not_eq_true] at noAppend
      split
      · next index given =>
          simp [bind_eq_error_iff, listIndex_eq_error_iff, noAppend, given]
      · next absent =>
          split
          · next index carried =>
              have carries := (inlineIndex_eq_some_iff _ _).1 carried
              simp only [bind_eq_error_iff, listIndex_eq_error_iff, noAppend,
                absent, reduceCtorEq, and_false, exists_false, or_false,
                true_and, false_or]
              constructor
              · rintro ⟨below, rfl⟩
                exact ⟨index, carries, below, rfl⟩
              · rintro ⟨other, carriesOther, below, rfl⟩
                obtain rfl := carries.unique carriesOther
                exact ⟨below, rfl⟩
          · next uncarried =>
              have none := (inlineIndex_eq_none_iff value).1 uncarried
              simp [absent, none]

theorem resolveRemoval_eq_error_iff
    (field : String)
    (entry : Option EditEntry)
    (cause : CompileError) :
    resolveRemoval field entry = .error cause ↔
      ∃ edit index, entry = some (.described edit) ∧
        edit.index = some index ∧ index.toInt < 0 ∧
          cause = .invalidListIndex field index := by
  match entry with
  | none => simp [resolveRemoval]
  | some (.raw value) => simp [resolveRemoval, EditEntry.edit?]
  | some (.described edit) =>
      cases given : edit.index <;>
        simp [resolveRemoval, EditEntry.edit?, given, bind_eq_error_iff,
          listIndex_eq_error_iff]

/-! ## Edit maps -/

/-- Why an entry cannot be written. -/
inductive WriteRefused (config : Config) (entry : String × Option EditEntry) :
    CompileError → Prop
  /-- The name cannot be spliced, whether the entry is suppressed or not. -/
  | invalidName (invalid : ¬ ValidName entry.1) :
      WriteRefused config entry (.invalidFieldName entry.1)
  /-- There is no value to write. -/
  | missingValue
      (valid : ValidName entry.1)
      (kept : ¬ Suppressed config entry)
      (absent : ∀ edit, entry.2 = some (.described edit) →
        edit.value = none) :
      WriteRefused config entry (.missingValue entry.1)
  /-- The position that counts is negative. -/
  | negative {edit : Edit} {value : Json} {index : Int64}
      (valid : ValidName entry.1)
      (kept : ¬ Suppressed config entry)
      (described : entry.2 = some (.described edit))
      (present : edit.value = some value)
      (counts : edit.Counts value index)
      (below : index.toInt < 0) :
      WriteRefused config entry (.invalidListIndex entry.1 index)

/-- Why an entry cannot be removed. -/
inductive RemoveRefused (entry : String × Option EditEntry) :
    CompileError → Prop
  /-- The name cannot be spliced. -/
  | invalidName (invalid : ¬ ValidName entry.1) :
      RemoveRefused entry (.invalidFieldName entry.1)
  /-- The position is negative. -/
  | negative {edit : Edit} {index : Int64}
      (valid : ValidName entry.1)
      (described : entry.2 = some (.described edit))
      (given : edit.index = some index)
      (below : index.toInt < 0) :
      RemoveRefused entry (.invalidListIndex entry.1 index)

/-- Resolve one entry that may write a field. -/
def resolveWrite (config : Config) (entry : String × Option EditEntry) :
    Except CompileError (Option (String × Assignment)) :=
  if entry.1 = reservedField then .ok none
  else do
    checkFieldName entry.1
    if isSuppressed config entry.1 entry.2 then .ok none
    else do
      let (edit, value) ← requireValue entry.1 entry.2
      let assignment ← resolveAssignment entry.1 edit value
      .ok (some (entry.1, assignment))

/-- Resolve one entry that may remove a field. -/
def resolveRemoved (entry : String × Option EditEntry) :
    Except CompileError (Option (String × Removal)) :=
  if entry.1 = reservedField then .ok none
  else do
    checkFieldName entry.1
    let removal ← resolveRemoval entry.1 entry.2
    .ok (some (entry.1, removal))

/-- Entries that write are resolved one by one. -/
theorem resolveUpdate_eq_mapM
    (config : Config)
    (entries : List (String × Option EditEntry)) :
    resolveUpdate config entries =
      (entries.mapM (resolveWrite config)).map (List.filterMap id) := by
  induction entries with
  | nil => rfl
  | cons entry entries hypothesis =>
      obtain ⟨field, entry⟩ := entry
      rw [resolveUpdate, List.mapM_cons, resolveWrite, hypothesis]
      by_cases reserved : field = reservedField
      · rw [if_pos reserved, if_pos reserved]
        cases entries.mapM (resolveWrite config) <;> rfl
      rw [if_neg reserved, if_neg reserved]
      cases checkFieldName field with
      | error cause => rfl
      | ok _ =>
          simp only [ok_bind]
          by_cases suppressed : isSuppressed config field entry = true
          · rw [if_pos suppressed, if_pos suppressed]
            cases entries.mapM (resolveWrite config) <;> rfl
          rw [if_neg suppressed, if_neg suppressed]
          cases requireValue field entry with
          | error cause => rfl
          | ok required =>
              obtain ⟨edit, value⟩ := required
              simp only [ok_bind]
              cases resolveAssignment field edit value with
              | error cause => rfl
              | ok assignment =>
                  cases entries.mapM (resolveWrite config) <;> rfl

/-- Entries that remove are resolved one by one. -/
theorem resolveRemove_eq_mapM (entries : List (String × Option EditEntry)) :
    resolveRemove entries =
      (entries.mapM resolveRemoved).map (List.filterMap id) := by
  induction entries with
  | nil => rfl
  | cons entry entries hypothesis =>
      obtain ⟨field, entry⟩ := entry
      rw [resolveRemove, List.mapM_cons, resolveRemoved, hypothesis]
      by_cases reserved : field = reservedField
      · rw [if_pos reserved, if_pos reserved]
        cases entries.mapM resolveRemoved <;> rfl
      rw [if_neg reserved, if_neg reserved]
      cases checkFieldName field with
      | error cause => rfl
      | ok _ =>
          cases resolveRemoval field entry with
          | error cause => rfl
          | ok removal => cases entries.mapM resolveRemoved <;> rfl

theorem resolveWrite_eq_error_iff
    (config : Config)
    (entry : String × Option EditEntry)
    (cause : CompileError) :
    resolveWrite config entry = .error cause ↔
      entry.1 ≠ reservedField ∧ WriteRefused config entry cause := by
  rw [resolveWrite]
  by_cases reserved : entry.1 = reservedField
  · simp [reserved]
  rw [if_neg reserved, check_bind_eq_error_iff, checkFieldName_eq_error_iff,
    checkFieldName_eq_ok]
  by_cases suppressed : isSuppressed config entry.1 entry.2 = true
  · rw [if_pos suppressed]
    rw [isSuppressed_iff] at suppressed
    constructor
    · rintro (⟨invalid, rfl⟩ | ⟨_, impossible⟩)
      · exact ⟨reserved, .invalidName invalid⟩
      · cases impossible
    · rintro ⟨_, refused⟩
      cases refused with
      | invalidName invalid => exact .inl ⟨invalid, rfl⟩
      | missingValue _ kept _ => exact absurd suppressed kept
      | negative _ kept _ _ _ _ => exact absurd suppressed kept
  · rw [if_neg suppressed]
    rw [isSuppressed_iff] at suppressed
    simp only [bind_eq_error_iff, requireValue_eq_error_iff,
      requireValue_eq_ok_iff, resolveAssignment_eq_error_iff, Prod.exists,
      reduceCtorEq, and_false, exists_false, or_false]
    constructor
    · rintro (⟨invalid, rfl⟩ | ⟨valid, ⟨absent, rfl⟩ |
        ⟨edit, value, ⟨described, present⟩, index, counts, below, rfl⟩⟩)
      · exact ⟨reserved, .invalidName invalid⟩
      · exact ⟨reserved, .missingValue valid suppressed absent⟩
      · exact ⟨reserved,
          .negative valid suppressed described present counts below⟩
    · rintro ⟨_, refused⟩
      cases refused with
      | invalidName invalid => exact .inl ⟨invalid, rfl⟩
      | missingValue valid _ absent => exact .inr ⟨valid, .inl ⟨absent, rfl⟩⟩
      | negative valid _ described present counts below =>
          exact .inr ⟨valid, .inr
            ⟨_, _, ⟨described, present⟩, _, counts, below, rfl⟩⟩

theorem resolveRemoved_eq_error_iff
    (entry : String × Option EditEntry)
    (cause : CompileError) :
    resolveRemoved entry = .error cause ↔
      entry.1 ≠ reservedField ∧ RemoveRefused entry cause := by
  rw [resolveRemoved]
  by_cases reserved : entry.1 = reservedField
  · simp [reserved]
  rw [if_neg reserved, check_bind_eq_error_iff, checkFieldName_eq_error_iff,
    checkFieldName_eq_ok]
  simp only [bind_eq_error_iff, resolveRemoval_eq_error_iff, reduceCtorEq,
    and_false, exists_false, or_false]
  constructor
  · rintro (⟨invalid, rfl⟩ | ⟨valid, edit, index, described, given, below, rfl⟩)
    · exact ⟨reserved, .invalidName invalid⟩
    · exact ⟨reserved, .negative valid described given below⟩
  · rintro ⟨_, refused⟩
    cases refused with
    | invalidName invalid => exact .inl ⟨invalid, rfl⟩
    | negative valid described given below =>
        exact .inr ⟨valid, _, _, described, given, below, rfl⟩

/-- Entries are refused for the first one that cannot be written. -/
theorem resolveUpdate_eq_error_iff
    (config : Config)
    (entries : List (String × Option EditEntry))
    (cause : CompileError) :
    resolveUpdate config entries = .error cause ↔
      ∃ before entry after, entries = before ++ entry :: after ∧
        (∃ found, resolveUpdate config before = .ok found) ∧
        entry.1 ≠ reservedField ∧ WriteRefused config entry cause := by
  simp only [resolveUpdate_eq_mapM, map_eq_error_iff, mapM_eq_error_iff,
    resolveWrite_eq_error_iff, exists_map_ok_iff]

/-- Entries are refused for the first one that cannot be removed. -/
theorem resolveRemove_eq_error_iff
    (entries : List (String × Option EditEntry))
    (cause : CompileError) :
    resolveRemove entries = .error cause ↔
      ∃ before entry after, entries = before ++ entry :: after ∧
        (∃ found, resolveRemove before = .ok found) ∧
        entry.1 ≠ reservedField ∧ RemoveRefused entry cause := by
  simp only [resolveRemove_eq_mapM, map_eq_error_iff, mapM_eq_error_iff,
    resolveRemoved_eq_error_iff, exists_map_ok_iff]

/-! ## Sections -/

/-- A section that writes is missing without the other one, or it is refused for
an entry, for having none, or for a field that claims the placeholder of the
empty list. -/
theorem assignments_eq_error_iff
    (config : Config)
    (conditions : Conditions)
    (cause : CompileError) :
    assignments config conditions = .error cause ↔
      (conditions.update = none ∧ conditions.remove = none ∧
        cause = .missingEdits) ∨
      ∃ update, conditions.update = some update ∧
        (resolveUpdate config update.entries = .error cause ∨
          ∃ found, resolveUpdate config update.entries = .ok found ∧
            (found = [] ∧ cause = .emptyUpdate ∨
              found ≠ [] ∧ checkPlaceholders found = .error cause)) := by
  rw [assignments]
  cases conditions.update with
  | none => cases conditions.remove <;> simp [eq_comm]
  | some update =>
      simp only [bind_eq_error_iff, reduceCtorEq, false_and, false_or,
        Option.some.injEq, exists_eq_left']
      refine or_congr_right (exists_congr fun found =>
        and_congr_right fun _ => ?_)
      by_cases nothing : found = []
      · simp [nothing, eq_comm]
      · simp [nothing, check_bind_eq_error_iff]

/-- A section that removes is refused for an entry or for having none. -/
theorem removals_eq_error_iff
    (conditions : Conditions)
    (cause : CompileError) :
    removals conditions = .error cause ↔
      ∃ remove, conditions.remove = some remove ∧
        (resolveRemove remove.entries = .error cause ∨
          resolveRemove remove.entries = .ok [] ∧ cause = .emptyRemove) := by
  rw [removals]
  cases conditions.remove with
  | none => simp
  | some remove =>
      simp only [bind_eq_error_iff, Option.some.injEq, exists_eq_left']
      refine or_congr_right ?_
      constructor
      · rintro ⟨found, resolved, refused⟩
        split at refused
        · next isEmpty =>
            cases refused
            rw [List.isEmpty_iff.1 isEmpty] at resolved
            exact ⟨resolved, rfl⟩
        · cases refused
      · rintro ⟨resolved, rfl⟩
        exact ⟨[], resolved, rfl⟩

/-! ## Updates -/

/-- An update is compiled step by step, and its stages add nothing to the cause
of a failure. -/
theorem compile_eq_of_update
    {conditions : Conditions}
    (config : Config)
    (isUpdate : conditions.operation = some .update) :
    compile conditions config = (do
      let target ← conditions.target
      let (primary, _) ← Selection.ofKeyedCriteria .update target.criteria
      let written ← assignments config conditions
      let removed ← removals conditions
      .ok (writeExpression target conditions.returnValues primary
        (written.getD []) (removed.getD [])
        (updateText (written.getD []) (removed.getD [])))) := by
  rw [compile_eq_mapError_assemble, assemble, mapError_bind,
    mapError_cause_run]
  cases found : conditions.target with
  | error cause => rfl
  | ok target =>
      have operation : target.operation = .update := by
        obtain ⟨_, _, _, given⟩ := (Conditions.target_eq_ok_iff _ _).1 found
        exact Option.some.inj (given.symm.trans isUpdate)
      simp only [ok_bind, operation, mapError_bind, mapError_cause_run,
        mapError_ok]

end TableQuery
