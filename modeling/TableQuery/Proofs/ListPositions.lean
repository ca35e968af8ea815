import TableQuery.Proofs.Refusals

/-!
# Negative positions

The position that an edit gives has to be a position of a list, unless the edit
appends: an edit that appends is compiled as if it gave no position. Any other
edit with a negative position is refused, and so are the conditions, for this
edit or for another malformed one if nothing else is at fault.
-/

namespace TableQuery

/-! ## Edits that append -/

namespace Edit

/-- An edit without a position if it appends. -/
def withoutIdlePosition (edit : Edit) : Edit :=
  if edit.append then { edit with index := none } else edit

@[simp] theorem value_withoutIdlePosition (edit : Edit) :
    edit.withoutIdlePosition.value = edit.value := by
  unfold withoutIdlePosition
  split <;> rfl

theorem resolveAssignment_withoutIdlePosition
    (field : String)
    (edit : Edit)
    (value : Json) :
    resolveAssignment field edit.withoutIdlePosition value =
      resolveAssignment field edit value := by
  unfold withoutIdlePosition
  split
  · next append => simp only [resolveAssignment, append, if_true]
  · rfl

end Edit

namespace EditEntry

/-- An entry without a position if its edit appends. -/
def withoutIdlePosition : EditEntry → EditEntry
  | .described edit => .described edit.withoutIdlePosition
  | .raw value => .raw value

end EditEntry

/-- An entry that may write a field is resolved without an idle position to the
same assignment. -/
theorem resolveWrite_withoutIdlePosition
    (config : Config)
    (entry : String × Option EditEntry) :
    resolveWrite config
        (entry.1, entry.2.map EditEntry.withoutIdlePosition) =
      resolveWrite config entry := by
  obtain ⟨field, entry⟩ := entry
  match entry with
  | none => rfl
  | some (.raw value) => rfl
  | some (.described edit) =>
      have suppressed : isSuppressed config field
          (some (.described edit.withoutIdlePosition)) =
            isSuppressed config field (some (.described edit)) := by
        simp [isSuppressed, EditEntry.value?]
      simp only [resolveWrite, Option.map_some, EditEntry.withoutIdlePosition,
        suppressed]
      cases given : edit.value with
      | none => simp [requireValue, EditEntry.edit?, given]
      | some value =>
          simp [requireValue, EditEntry.edit?, given,
            Edit.resolveAssignment_withoutIdlePosition]

namespace Conditions

/-- Conditions without the positions of edits that append. -/
def withoutIdlePositions (conditions : Conditions) : Conditions :=
  { conditions with
    update := conditions.update.map fun update =>
      update.mapValues (Option.map EditEntry.withoutIdlePosition) }

theorem assignments_withoutIdlePositions
    (config : Config)
    (conditions : Conditions) :
    assignments config conditions.withoutIdlePositions =
      assignments config conditions := by
  rw [assignments, assignments, withoutIdlePositions]
  cases conditions.update with
  | none => rfl
  | some update =>
      have same : resolveUpdate config (update.mapValues
          (Option.map EditEntry.withoutIdlePosition)).entries =
            resolveUpdate config update.entries := by
        rw [resolveUpdate_eq_mapM, resolveUpdate_eq_mapM,
          FieldMap.entries_mapValues, List.mapM_map]
        simp only [Function.comp_def, resolveWrite_withoutIdlePosition]
      simp only [Option.map_some, same]

/-- The position of an edit that appends is ignored. -/
theorem compile_withoutIdlePositions
    (conditions : Conditions)
    (config : Config) :
    compile conditions.withoutIdlePositions config =
      compile conditions config := by
  rw [compile_eq_mapError_assemble, compile_eq_mapError_assemble, assemble,
    assemble, assignments_withoutIdlePositions]
  rfl

/-! ## Edits that do not append -/

/-- A field is written by an edit that gives a negative position and does not
append. -/
def WritesBelow (conditions : Conditions) (config : Config) : Prop :=
  ∃ entry ∈ writtenEntries config (sectionEntries conditions.update),
    ∃ edit index, entry.2 = some (.described edit) ∧ edit.append = false ∧
      edit.index = some index ∧ index.toInt < 0

/-- A field is removed by an edit that gives a negative position. -/
def RemovesBelow (conditions : Conditions) : Prop :=
  ∃ entry ∈ removedEntries (sectionEntries conditions.remove),
    ∃ edit index, entry.2 = some (.described edit) ∧
      edit.index = some index ∧ index.toInt < 0

theorem not_writesBelow_of_writtenSection
    {conditions : Conditions}
    {config : Config}
    {found : List (String × Assignment)}
    (writes : WrittenSection config conditions.update found) :
    ¬ conditions.WritesBelow config := by
  rintro ⟨entry, member, edit, index, described, noAppend, given, below⟩
  obtain ⟨result, _, _, edit', value, described', _, resolves⟩ :=
    exists_mem_right_of_forall₂ writes.resolved member
  rw [described] at described'
  cases described'
  rcases (exists_writes_iff edit value).1 ⟨result.2, resolves⟩ with
    append | ⟨index', given', nonnegative⟩ | ⟨absent, _⟩
  · rw [noAppend] at append
    cases append
  · rw [given] at given'
    cases given'
    exact absurd below (Int.not_lt.2 nonnegative)
  · rw [given] at absent
    cases absent

theorem not_removesBelow_of_removedSection
    {conditions : Conditions}
    {found : List (String × Removal)}
    (removes : RemovedSection conditions.remove found) :
    ¬ conditions.RemovesBelow := by
  rintro ⟨entry, member, edit, index, described, given, below⟩
  obtain ⟨result, _, _, resolves⟩ :=
    exists_mem_right_of_forall₂ removes.resolved member
  exact absurd below (Int.not_lt.2
    ((exists_removes_iff entry.2).1 ⟨result.2, resolves⟩ edit index described
      given))

end Conditions

/-! ## Refused updates -/

/-- Whether an error is about a malformed edit. -/
def CompileError.isMalformedEdit : CompileError → Bool
  | .missingValue _ => true
  | .invalidListIndex _ _ => true
  | _ => false

/-- The conditions of an update of which nothing is at fault but, possibly,
single edits. -/
structure Conditions.Framed
    (conditions : Conditions)
    (config : Config) : Prop where
  /-- The table is named. -/
  tableName : ∃ tableName, conditions.tableName = some tableName ∧
    tableName ≠ ""
  /-- The criteria single out an item. -/
  criteria : ∃ criteria, conditions.criteria = some criteria ∧
    SingleOut criteria.entries
  /-- A section is there. -/
  sections : conditions.update ≠ none ∨ conditions.remove ≠ none
  /-- The names of fields to write are valid. -/
  updateNames : ValidNames (sectionEntries conditions.update)
  /-- The names of fields to remove are valid. -/
  removeNames : ValidNames (sectionEntries conditions.remove)
  /-- A section that writes has something left to write. -/
  someWritten : conditions.update ≠ none →
    writtenEntries config (sectionEntries conditions.update) ≠ []
  /-- A section that removes has something left to remove. -/
  someRemoved : conditions.remove ≠ none →
    removedEntries (sectionEntries conditions.remove) ≠ []
  /-- If items are appended, no field claims the placeholder of the empty
  list. -/
  unclaimed : Appends (writtenEntries config (sectionEntries conditions.update)) →
    ∀ entry ∈ writtenEntries config (sectionEntries conditions.update),
      entry.1 ≠ "emptyList"

namespace Conditions.Framed

variable {conditions : Conditions} {config : Config} {cause : CompileError}

theorem isMalformedEdit_of_assignments
    (framed : conditions.Framed config)
    (failed : assignments config conditions = .error cause) :
    cause.isMalformedEdit = true := by
  obtain ⟨_, _, sections, validNames, _, nonempty, _, unclaimed⟩ := framed
  rcases (assignments_eq_error_iff _ _ _).1 failed with
    ⟨noUpdate, noRemove, _⟩ | ⟨update, isUpdate, refused⟩
  · exact absurd sections (by simp [noUpdate, noRemove])
  have entries : sectionEntries conditions.update = update.entries := by
    rw [isUpdate]
    rfl
  rw [entries] at validNames nonempty unclaimed
  rcases refused with refused | ⟨found, resolved, empty | placeholders⟩
  · obtain ⟨before, entry, after, split, _, notReserved, refusal⟩ :=
      (resolveUpdate_eq_error_iff _ _ _).1 refused
    have valid := validNames entry (by simp [split]) notReserved
    cases refusal with
    | invalidName invalid => exact absurd valid invalid
    | missingValue _ _ _ => rfl
    | negative _ _ _ _ _ _ => rfl
  · obtain ⟨_, related⟩ := (resolveUpdate_eq_ok_iff _ _ _).1 resolved
    rw [empty.1, List.forall₂_nil_right_iff] at related
    exact absurd related (nonempty (by simp [isUpdate]))
  · obtain ⟨_, related⟩ := (resolveUpdate_eq_ok_iff _ _ _).1 resolved
    have names := names_eq_of_forall₂ (fun _ _ writes => writes.1) related
    have passes := (checkPlaceholders_eq_ok_iff found).2
      fun entry member append => (forall_name_iff names (· ≠ "emptyList")).2
        (unclaimed ((appends_iff related).2 ⟨entry, member, append⟩))
    rw [passes] at placeholders
    cases placeholders.2

theorem isMalformedEdit_of_removals
    (framed : conditions.Framed config)
    (failed : removals conditions = .error cause) :
    cause.isMalformedEdit = true := by
  obtain ⟨_, _, _, _, validNames, _, nonempty, _⟩ := framed
  obtain ⟨remove, isRemove, refused⟩ := (removals_eq_error_iff _ _).1 failed
  have entries : sectionEntries conditions.remove = remove.entries := by
    rw [isRemove]
    rfl
  rw [entries] at validNames nonempty
  rcases refused with refused | ⟨resolved, _⟩
  · obtain ⟨before, entry, after, split, _, notReserved, refusal⟩ :=
      (resolveRemove_eq_error_iff _ _).1 refused
    have valid := validNames entry (by simp [split]) notReserved
    cases refusal with
    | invalidName invalid => exact absurd valid invalid
    | negative _ _ _ _ => rfl
  · obtain ⟨_, related⟩ := (resolveRemove_eq_ok_iff _ _).1 resolved
    rw [List.forall₂_nil_right_iff] at related
    exact absurd related (nonempty (by simp [isRemove]))

/-- If nothing but single edits may be at fault, one of them is when an update is
refused. -/
theorem isMalformedEdit_of_compile
    (framed : conditions.Framed config)
    (isUpdate : conditions.operation = some .update)
    (failed : compile conditions config = .error cause) :
    cause.isMalformedEdit = true := by
  obtain ⟨tableName, named, nonempty⟩ := framed.tableName
  obtain ⟨criteria, present, single⟩ := framed.criteria
  obtain ⟨admissible, primary, key⟩ := (singleOut_iff criteria).1 single
  have target : conditions.target = .ok ⟨tableName, criteria, .update⟩ :=
    (Conditions.target_eq_ok_iff _ _).2 ⟨named, nonempty, present, isUpdate⟩
  have keyed := (Selection.ofKeyedCriteria_eq_ok_iff .update criteria primary
    _).2 ⟨admissible, key, rfl⟩
  rw [compile_eq_of_update config isUpdate, target, ok_bind, keyed, ok_bind]
    at failed
  rcases bind_eq_error_iff.1 failed with inWritten | ⟨written, _, later⟩
  · exact framed.isMalformedEdit_of_assignments inWritten
  rcases bind_eq_error_iff.1 later with inRemoved | ⟨removed, _, last⟩
  · exact framed.isMalformedEdit_of_removals inRemoved
  · cases last

end Conditions.Framed

/-- No accepted update gives a negative position unless it appends. Where nothing
but single edits may be at fault, an update that does is refused for a malformed
edit. The position of an edit that appends is ignored. -/
theorem compile_negative_positions
    {conditions : Conditions}
    {config : Config}
    (isUpdate : conditions.operation = some .update) :
    (∀ expression, compile conditions config = .ok expression →
      ¬ conditions.WritesBelow config ∧ ¬ conditions.RemovesBelow) ∧
    (conditions.Framed config →
      conditions.WritesBelow config ∨ conditions.RemovesBelow →
        ∃ cause, compile conditions config = .error cause ∧
          cause.isMalformedEdit = true) ∧
    compile conditions.withoutIdlePositions config =
      compile conditions config := by
  have accepted : ∀ expression, compile conditions config = .ok expression →
      ¬ conditions.WritesBelow config ∧ ¬ conditions.RemovesBelow := by
    intro expression compiled
    obtain ⟨_, _, written, removed, _, _, _, resolvedWritten, resolvedRemoved,
      _⟩ := ((compile_eq_ok_iff _ _ _).1 compiled).of_update isUpdate
    exact ⟨Conditions.not_writesBelow_of_writtenSection
        (writtenSection resolvedWritten).1,
      Conditions.not_removesBelow_of_removedSection
        (removedSection resolvedRemoved)⟩
  refine ⟨accepted, ?_, conditions.compile_withoutIdlePositions config⟩
  intro framed below
  cases compiled : compile conditions config with
  | ok expression =>
      obtain ⟨notWritten, notRemoved⟩ := accepted expression compiled
      exact (below.elim notWritten notRemoved).elim
  | error cause =>
      exact ⟨cause, rfl, framed.isMalformedEdit_of_compile isUpdate compiled⟩

/-- An item to append, with a position that is ignored. -/
def appendedAt (position : Int64) : Conditions :=
  Conditions.start "Orders" .update
    |>.withCriterion "id" (.ofPrimary (.string "a"))
    |>.withUpdate "tags"
      { Edit.appending [.string "x"] with index := some position }

/-- The same with an item to remove. -/
def appendedWithRemoval (position : Int64) : Conditions :=
  (appendedAt position).withRemove "stops" (some (.position position))

/-- A negative position is not refused if the edit appends. -/
theorem compile_negative_positions_appended :
    (∃ edit, ("tags", some (.described edit)) ∈ writtenEntries .default
        (sectionEntries (appendedAt (-1)).update) ∧ edit.index = some (-1)) ∧
      (compile (appendedAt (-1)) .default).toOption.bind Expression.update =
        some ("SET #tags = list_append(if_not_exists(#tags, :emptyList), "
          ++ ":tags)") := by
  constructor
  · exact ⟨⟨some (.array [.string "x"]), some (-1), true⟩, by decide +kernel,
      rfl⟩
  · decide +kernel

theorem framed_appendedWithRemoval :
    (appendedWithRemoval (-1)).Framed .default where
  tableName := ⟨"Orders", rfl, by decide⟩
  criteria := by
    refine ⟨_, rfl, ?_, ⟨("id", .ofPrimary (.string "a")), ?_⟩, ?_⟩ <;>
      decide +kernel
  sections := by decide +kernel
  updateNames := by
    unfold ValidNames
    decide +kernel
  removeNames := by
    unfold ValidNames
    decide +kernel
  someWritten _ := by decide +kernel
  someRemoved _ := by decide +kernel
  unclaimed _ := by decide +kernel

theorem compile_negative_positions_appendedWithRemoval :
    ¬ (appendedAt (-1)).WritesBelow .default ∧
      ∃ cause, compile (appendedWithRemoval (-1)) .default = .error cause ∧
        cause.isMalformedEdit = true := by
  have accepts : ∃ expression,
      compile (appendedAt (-1)) .default = .ok expression := by
    rw [exists_ok_iff]
    decide +kernel
  obtain ⟨expression, compiled⟩ := accepts
  refine ⟨((compile_negative_positions rfl).1 expression compiled).1, ?_⟩
  refine (compile_negative_positions rfl).2.1 framed_appendedWithRemoval
    (.inr ?_)
  exact ⟨("stops", some (.described (.position (-1)))), by decide +kernel,
    .position (-1), -1, rfl, rfl, by decide⟩

end TableQuery
