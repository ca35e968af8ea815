import TableQuery.Proofs.Refusals

/-!
# Names that updates are refused for

Compilation looks at more names than it splices into the text of an update. It
does not look at the name of the primary key, at the implied operator or at the
reserved field, but it does look at the other criteria and at the entries that
are suppressed, of which nothing gets into the text. An update is refused for the
first name that cannot be spliced, whether it would have been or not.
-/

namespace TableQuery

/-! ## Criteria -/

namespace Selection

/-- The names of criteria are looked at unless they are operators or marked as
the primary key. -/
theorem add_eq_invalidFieldName_iff
    (selection : Selection)
    (entry : String × Criterion)
    (name : String) :
    add .update selection entry = .error (.invalidFieldName name) ↔
      entry.1 ≠ impliedOperator ∧ entry.1 ≠ refusedOperator ∧
        entry.2.isPrimary = false ∧ ¬ ValidName entry.1 ∧ name = entry.1 := by
  obtain ⟨field, criterion⟩ := entry
  rw [add]
  by_cases implied : field = impliedOperator
  · simp [implied]
  by_cases refused : field = refusedOperator
  · have different : refusedOperator ≠ impliedOperator := by decide
    simp [refused, different]
  by_cases marked : criterion.isPrimary = true
  · simp only [if_neg implied, if_neg refused, marked]
    cases selection.primary <;> simp
  · simp [implied, refused, marked, check_bind_eq_error_iff,
      checkFieldName_eq_error_iff]

/-- Criteria that can be split so far: each of them is admissible, and at most
one is the primary key. -/
def Splits (entries : List (String × Criterion)) : Prop :=
  (∀ entry ∈ entries, Admissible .update entry) ∧
    (keys .update entries).length ≤ 1

theorem exists_foldlM_add_iff (entries : List (String × Criterion)) :
    (∃ selection, entries.foldlM (add .update) empty = .ok selection) ↔
      Splits entries := by
  simp only [foldlM_add_eq_ok_iff, exists_and_left]
  apply and_congr_right
  intro _
  constructor
  · rintro ⟨selection, primary, _⟩
    have atMostOne := selection.primary.length_toList_le
    rwa [primary] at atMostOne
  · intro short
    exact ⟨⟨(keys .update entries).head?, filtersOf .update entries⟩,
      toList_head? short, rfl⟩

/-- Splitting is refused for the first name that is looked at and cannot be
spliced. -/
theorem ofKeyedCriteria_eq_invalidFieldName_iff
    (criteria : FieldMap Criterion)
    (name : String) :
    ofKeyedCriteria .update criteria = .error (.invalidFieldName name) ↔
      ∃ before entry after, criteria.entries = before ++ entry :: after ∧
        Splits before ∧ entry.1 ≠ impliedOperator ∧
        entry.1 ≠ refusedOperator ∧ entry.2.isPrimary = false ∧
        ¬ ValidName entry.1 ∧ name = entry.1 := by
  have required : ∀ selection : Selection,
      (selection.requirePrimary >>= fun primary =>
        .ok (primary, selection.filters)) ≠ .error (.invalidFieldName name) := by
    intro selection
    unfold requirePrimary
    cases selection.primary <;> simp
  rw [ofKeyedCriteria, bind_eq_error_iff]
  simp only [required, and_false, exists_false, or_false]
  simp only [ofCriteria, foldlM_eq_error_iff, add_eq_invalidFieldName_iff,
    ← exists_foldlM_add_iff]
  constructor
  · rintro ⟨before, entry, after, selection, split, earlier, refused⟩
    exact ⟨before, entry, after, split, ⟨selection, earlier⟩, refused⟩
  · rintro ⟨before, entry, after, split, ⟨selection, earlier⟩, refused⟩
    exact ⟨before, entry, after, selection, split, earlier, refused⟩

theorem exists_ofKeyedCriteria_iff (criteria : FieldMap Criterion) :
    (∃ split, ofKeyedCriteria .update criteria = .ok split) ↔
      SingleOut criteria.entries := by
  rw [singleOut_iff]
  constructor
  · rintro ⟨⟨primary, filters⟩, split⟩
    obtain ⟨admissible, key, _⟩ := (ofKeyedCriteria_eq_ok_iff _ _ _ _).1 split
    exact ⟨admissible, primary, key⟩
  · rintro ⟨admissible, primary, key⟩
    exact ⟨_, (ofKeyedCriteria_eq_ok_iff _ _ _ _).2 ⟨admissible, key, rfl⟩⟩

end Selection

/-! ## Sections -/

theorem writeRefused_invalidFieldName_iff
    (config : Config)
    (entry : String × Option EditEntry)
    (name : String) :
    WriteRefused config entry (.invalidFieldName name) ↔
      ¬ ValidName entry.1 ∧ name = entry.1 := by
  constructor
  · rintro ⟨invalid⟩
    exact ⟨invalid, rfl⟩
  · rintro ⟨invalid, rfl⟩
    exact .invalidName invalid

theorem removeRefused_invalidFieldName_iff
    (entry : String × Option EditEntry)
    (name : String) :
    RemoveRefused entry (.invalidFieldName name) ↔
      ¬ ValidName entry.1 ∧ name = entry.1 := by
  constructor
  · rintro ⟨invalid⟩
    exact ⟨invalid, rfl⟩
  · rintro ⟨invalid, rfl⟩
    exact .invalidName invalid

theorem checkPlaceholders_ne_invalidFieldName
    (found : List (String × Assignment))
    (name : String) :
    checkPlaceholders found ≠ .error (.invalidFieldName name) := by
  unfold checkPlaceholders
  split
  · split <;> simp
  · simp

/-- A section that writes is refused for the first name of its entries that
cannot be spliced, suppressed or not. -/
theorem assignments_eq_invalidFieldName_iff
    (config : Config)
    (conditions : Conditions)
    (name : String) :
    assignments config conditions = .error (.invalidFieldName name) ↔
      ∃ before entry after,
        sectionEntries conditions.update = before ++ entry :: after ∧
        (∃ found, resolveUpdate config before = .ok found) ∧
        entry.1 ≠ reservedField ∧ ¬ ValidName entry.1 ∧ name = entry.1 := by
  simp only [assignments_eq_error_iff, checkPlaceholders_ne_invalidFieldName,
    reduceCtorEq, and_false, or_false, exists_false, false_or,
    resolveUpdate_eq_error_iff, writeRefused_invalidFieldName_iff]
  cases conditions.update <;> simp [sectionEntries]

/-- A section that removes is refused for the first name of its entries that
cannot be spliced. -/
theorem removals_eq_invalidFieldName_iff
    (conditions : Conditions)
    (name : String) :
    removals conditions = .error (.invalidFieldName name) ↔
      ∃ before entry after,
        sectionEntries conditions.remove = before ++ entry :: after ∧
        (∃ found, resolveRemove before = .ok found) ∧
        entry.1 ≠ reservedField ∧ ¬ ValidName entry.1 ∧ name = entry.1 := by
  simp only [removals_eq_error_iff, reduceCtorEq, and_false, or_false,
    resolveRemove_eq_error_iff, removeRefused_invalidFieldName_iff]
  cases conditions.remove <;> simp [sectionEntries]

/-! ## Updates -/

namespace Conditions

theorem target_ne_invalidFieldName (conditions : Conditions) (name : String) :
    conditions.target ≠ .error (.invalidFieldName name) := by
  unfold target
  cases conditions.tableName with
  | none => simp
  | some tableName =>
      cases conditions.criteria <;> cases conditions.operation <;>
        dsimp only <;> split <;> simp

/-- A name is the first one among those that compilation looks at which cannot be
spliced, and nothing else is at fault before. -/
inductive FirstInvalid (conditions : Conditions) (config : Config) :
    String → Prop
  /-- A criterion that is neither an operator nor the primary key. -/
  | criterion {target : Target} {entry : String × Criterion}
      {before after : List (String × Criterion)}
      (found : conditions.target = .ok target)
      (split : target.criteria.entries = before ++ entry :: after)
      (earlier : Selection.Splits before)
      (noOperator : entry.1 ≠ "and" ∧ entry.1 ≠ "or")
      (unmarked : entry.2.isPrimary = false)
      (invalid : ¬ ValidName entry.1) :
      FirstInvalid conditions config entry.1
  /-- An entry that writes or is suppressed. -/
  | update {target : Target} {entry : String × Option EditEntry}
      {before after : List (String × Option EditEntry)}
      (found : conditions.target = .ok target)
      (criteria : SingleOut target.criteria.entries)
      (split : sectionEntries conditions.update = before ++ entry :: after)
      (earlier : ∃ found, resolveUpdate config before = .ok found)
      (notReserved : entry.1 ≠ "type")
      (invalid : ¬ ValidName entry.1) :
      FirstInvalid conditions config entry.1
  /-- An entry that removes. -/
  | remove {target : Target} {entry : String × Option EditEntry}
      {before after : List (String × Option EditEntry)}
      (found : conditions.target = .ok target)
      (criteria : SingleOut target.criteria.entries)
      (update : ∃ written, assignments config conditions = .ok written)
      (split : sectionEntries conditions.remove = before ++ entry :: after)
      (earlier : ∃ found, resolveRemove before = .ok found)
      (notReserved : entry.1 ≠ "type")
      (invalid : ¬ ValidName entry.1) :
      FirstInvalid conditions config entry.1

theorem compile_eq_invalidFieldName_iff
    {conditions : Conditions}
    (config : Config)
    (isUpdate : conditions.operation = some .update)
    (name : String) :
    compile conditions config = .error (.invalidFieldName name) ↔
      conditions.FirstInvalid config name := by
  simp only [compile_eq_of_update config isUpdate, bind_eq_error_iff,
    target_ne_invalidFieldName, false_or, reduceCtorEq, and_false,
    exists_false, or_false, Selection.ofKeyedCriteria_eq_invalidFieldName_iff,
    assignments_eq_invalidFieldName_iff, removals_eq_invalidFieldName_iff]
  constructor
  · rintro ⟨target, found, inCriteria | ⟨parts, split, inSections⟩⟩
    · obtain ⟨before, entry, after, split, earlier, notImplied, notRefused,
        unmarked, invalid, rfl⟩ := inCriteria
      exact .criterion found split earlier ⟨notImplied, notRefused⟩ unmarked
        invalid
    have criteria :=
      (Selection.exists_ofKeyedCriteria_iff _).1 ⟨parts, split⟩
    rcases inSections with inUpdate | ⟨written, resolved, inRemove⟩
    · obtain ⟨before, entry, after, split, earlier, notReserved, invalid,
        rfl⟩ := inUpdate
      exact .update found criteria split earlier notReserved invalid
    · obtain ⟨before, entry, after, split, earlier, notReserved, invalid,
        rfl⟩ := inRemove
      exact .remove found criteria ⟨written, resolved⟩ split earlier
        notReserved invalid
  · intro first
    cases first with
    | criterion found split earlier noOperator unmarked invalid =>
        exact ⟨_, found, .inl ⟨_, _, _, split, earlier, noOperator.1,
          noOperator.2, unmarked, invalid, rfl⟩⟩
    | update found criteria split earlier notReserved invalid =>
        obtain ⟨parts, keyed⟩ :=
          (Selection.exists_ofKeyedCriteria_iff _).2 criteria
        exact ⟨_, found, .inr ⟨parts, keyed, .inl
          ⟨_, _, _, split, earlier, notReserved, invalid, rfl⟩⟩⟩
    | remove found criteria update split earlier notReserved invalid =>
        obtain ⟨parts, keyed⟩ :=
          (Selection.exists_ofKeyedCriteria_iff _).2 criteria
        obtain ⟨written, resolved⟩ := update
        exact ⟨_, found, .inr ⟨parts, keyed, .inr ⟨written, resolved,
          ⟨_, _, _, split, earlier, notReserved, invalid, rfl⟩⟩⟩⟩

/-- A name is spliced into the text of an update: it is that of an entry that
writes or of one that removes. -/
def Splices
    (conditions : Conditions)
    (config : Config)
    (name : String) : Prop :=
  name ∈ Members.names
      (writtenEntries config (sectionEntries conditions.update)) ∨
    name ∈ Members.names (removedEntries (sectionEntries conditions.remove))

/-- The names that compilation looks at in spite of splicing none of them are
valid. -/
structure IdleNamesValid
    (conditions : Conditions)
    (config : Config) : Prop where
  /-- Those of the criteria beside the primary key. -/
  criteria : ∀ criteria, conditions.criteria = some criteria →
    ∀ entry ∈ criteria.entries, entry.1 ≠ "and" →
      entry.2.isPrimary = false → ValidName entry.1
  /-- Those of the suppressed entries. -/
  suppressed : ∀ entry ∈ sectionEntries conditions.update,
    entry.1 ≠ "type" → Suppressed config entry → ValidName entry.1

/-- If no other name is invalid, the one that is refused is spliced. -/
theorem FirstInvalid.splices
    {conditions : Conditions}
    {config : Config}
    {name : String}
    (first : conditions.FirstInvalid config name)
    (idle : conditions.IdleNamesValid config) :
    ¬ ValidName name ∧ conditions.Splices config name := by
  cases first with
  | criterion found split _ noOperator unmarked invalid =>
      obtain ⟨_, _, given, _⟩ := (target_eq_ok_iff _ _).1 found
      exact absurd (idle.criteria _ given _ (by simp [split]) noOperator.1
        unmarked) invalid
  | @update _ entry _ _ _ _ split _ notReserved invalid =>
      have member : entry ∈ sectionEntries conditions.update := by simp [split]
      refine ⟨invalid, .inl (List.mem_map_of_mem (List.mem_filter.2
        ⟨member, decide_eq_true ⟨notReserved, fun suppressed => ?_⟩⟩))⟩
      exact invalid (idle.suppressed entry member notReserved suppressed)
  | @remove _ entry _ _ _ _ _ split _ notReserved invalid =>
      exact ⟨invalid, .inr (List.mem_map_of_mem
        ((mem_removedEntries_iff _ _).2 ⟨by simp [split], notReserved⟩))⟩

end Conditions

/-- An update is refused for a name exactly if it is the first invalid one among
those that compilation looks at. Names of criteria beside the primary key and of
suppressed entries are looked at although they are not spliced; if these are
valid, the refused name is one that would have been spliced. -/
theorem compile_invalidFieldName
    {conditions : Conditions}
    {config : Config}
    (isUpdate : conditions.operation = some .update)
    (name : String) :
    (compile conditions config = .error (.invalidFieldName name) ↔
      conditions.FirstInvalid config name) ∧
    (conditions.IdleNamesValid config →
      compile conditions config = .error (.invalidFieldName name) →
        ¬ ValidName name ∧ conditions.Splices config name) := by
  have refused := Conditions.compile_eq_invalidFieldName_iff config isUpdate
    name
  exact ⟨refused, fun idle failed => (refused.1 failed).splices idle⟩

/-- An update whose primary key has a name that cannot be spliced, with another
criterion, a field that is written without a value and one that is written. -/
def namedUpdate (criterion suppressed written : String) : Conditions :=
  Conditions.start "Orders" .update
    |>.withCriterion "user id" (.ofPrimary (.string "a"))
    |>.withCriterion criterion (.ofEqual (.string "b"))
    |>.withUpdate suppressed (.set (.string ""))
    |>.withUpdate written (.set (.string "x"))

/-- Updates are refused for names that get into no text. -/
theorem compile_invalidFieldName_unspliced :
    (compile (namedUpdate "first name" "status" "note") ⟨["status"]⟩ =
        .error (.invalidFieldName "first name") ∧
      ¬ (namedUpdate "first name" "status" "note").Splices ⟨["status"]⟩
        "first name") ∧
    (compile (namedUpdate "kind" "by name" "note") ⟨["by name"]⟩ =
        .error (.invalidFieldName "by name") ∧
      ¬ (namedUpdate "kind" "by name" "note").Splices ⟨["by name"]⟩
        "by name") := by
  unfold Conditions.Splices
  decide +kernel

theorem idleNamesValid_namedUpdate :
    (namedUpdate "kind" "status" "first name").IdleNamesValid ⟨["status"]⟩ where
  criteria := by
    rintro _ ⟨⟩
    decide +kernel
  suppressed := by decide +kernel

theorem compile_invalidFieldName_namedUpdate :
    compile (namedUpdate "kind" "status" "first name") ⟨["status"]⟩ =
        .error (.invalidFieldName "first name") ∧
      (namedUpdate "kind" "status" "first name").Splices ⟨["status"]⟩
        "first name" := by
  have refused : compile (namedUpdate "kind" "status" "first name")
      ⟨["status"]⟩ = .error (.invalidFieldName "first name") := by
    decide +kernel
  exact ⟨refused, ((compile_invalidFieldName rfl _).2
    idleNamesValid_namedUpdate refused).2⟩

end TableQuery
