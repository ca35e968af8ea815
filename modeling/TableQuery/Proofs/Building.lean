import TableQuery.Proofs.Assembly
import TableQuery.Proofs.NormalForm

/-!
# Conditions that were built

Conditions are built step by step without being written and read. What their
written form is compiled to is what they are compiled to themselves, with their
criteria classified: a value alone that looks like a keyed criterion is taken
for one. Null as the value of a field that is written stays outside of this
agreement.
-/

namespace TableQuery

open Json

namespace Conditions

/-- Conditions that are started and extended step by step. -/
inductive IsBuilt : Conditions → Prop
  | start (tableName : String) (operation : Operation) :
      IsBuilt (start tableName operation)
  | withCriterion {conditions : Conditions} (built : IsBuilt conditions)
      (field : String) (criterion : Criterion) :
      IsBuilt (conditions.withCriterion field criterion)
  | withUpdate {conditions : Conditions} (built : IsBuilt conditions)
      (field : String) (edit : Edit) :
      IsBuilt (conditions.withUpdate field edit)
  | withRemove {conditions : Conditions} (built : IsBuilt conditions)
      (field : String) (edit : Option Edit) :
      IsBuilt (conditions.withRemove field edit)
  | withFields {conditions : Conditions} (built : IsBuilt conditions)
      (fields : List String) :
      IsBuilt (conditions.withFields fields)
  | withReturnValues {conditions : Conditions} (built : IsBuilt conditions)
      (returnValues : ReturnValues) :
      IsBuilt (conditions.withReturnValues returnValues)
  | withLastEvaluatedKey {conditions : Conditions} (built : IsBuilt conditions)
      (key : FieldMap Json) :
      IsBuilt (conditions.withLastEvaluatedKey key)

end Conditions

theorem EditMap.isRegular_empty : EditMap.IsRegular .empty :=
  fun _ absent => nomatch absent

theorem EditMap.isRegular_insert
    {map : EditMap}
    (regular : map.IsRegular)
    (field : String)
    (edit : Option Edit) :
    EditMap.IsRegular (map.insert field (edit.map .described)) := by
  intro entry member
  rcases Members.mem_insert member with rfl | earlier
  · cases edit <;> trivial
  · exact regular entry earlier

namespace Conditions

/-- Every edit that is built in is a described one. -/
theorem IsBuilt.isRegular
    {conditions : Conditions}
    (built : conditions.IsBuilt) : conditions.IsRegular := by
  induction built with
  | start tableName operation => exact ⟨nofun, nofun⟩
  | @withUpdate conditions _ field edit hypothesis =>
      refine ⟨fun update written => ?_, hypothesis.remove⟩
      have before : EditMap.IsRegular (conditions.update.getD .empty) := by
        cases given : conditions.update with
        | none => exact EditMap.isRegular_empty
        | some update => exact hypothesis.update update given
      exact Option.some.inj written ▸
        EditMap.isRegular_insert before field (some edit)
  | @withRemove conditions _ field edit hypothesis =>
      refine ⟨hypothesis.update, fun remove removed => ?_⟩
      have before : EditMap.IsRegular (conditions.remove.getD .empty) := by
        cases given : conditions.remove with
        | none => exact EditMap.isRegular_empty
        | some remove => exact hypothesis.remove remove given
      exact Option.some.inj removed ▸ EditMap.isRegular_insert before field edit
  | withCriterion _ _ _ hypothesis => exact ⟨hypothesis.update, hypothesis.remove⟩
  | withFields _ _ hypothesis => exact ⟨hypothesis.update, hypothesis.remove⟩
  | withReturnValues _ _ hypothesis =>
      exact ⟨hypothesis.update, hypothesis.remove⟩
  | withLastEvaluatedKey _ _ hypothesis =>
      exact ⟨hypothesis.update, hypothesis.remove⟩

end Conditions

/-! ## Resolving what was read back -/

namespace EditEntry

theorem value?_reread (entry : Option EditEntry) :
    (reread entry).bind value? = (entry.bind value?).bind Json.present? := by
  match entry with
  | none => rfl
  | some (.described edit) => rfl
  | some (.raw value) => cases value <;> rfl

theorem edit?_reread (entry : Option EditEntry) :
    (reread entry).bind edit? = (entry.bind edit?).map Edit.reread := by
  match entry with
  | none => rfl
  | some (.described edit) => rfl
  | some (.raw value) => cases value <;> rfl

end EditEntry

theorem isSuppressed_reread
    (config : Config)
    (field : String)
    (entry : Option EditEntry) :
    isSuppressed config field (EditEntry.reread entry) =
      isSuppressed config field entry := by
  rw [isSuppressed, isSuppressed, EditEntry.value?_reread]
  cases entry.bind EditEntry.value? with
  | none => rfl
  | some value => cases value <;> rfl

/-- The entry is an edit that has null as its value. -/
def HoldsNull (entry : Option EditEntry) : Prop :=
  (entry.bind EditEntry.edit?).bind Edit.value = some .null

theorem requireValue_reread
    (field : String)
    {entry : Option EditEntry}
    (holds : ¬ HoldsNull entry) :
    requireValue field (EditEntry.reread entry) = requireValue field entry := by
  rw [requireValue, requireValue, EditEntry.edit?_reread]
  rw [HoldsNull] at holds
  cases found : entry.bind EditEntry.edit? with
  | none => rfl
  | some edit =>
      obtain ⟨value, index, append⟩ := edit
      rw [found] at holds
      cases value with
      | none => rfl
      | some value =>
          cases value with
          | null => exact absurd rfl holds
          | _ => rfl

theorem resolveRemoval_reread (field : String) (entry : Option EditEntry) :
    resolveRemoval field (EditEntry.reread entry) =
      resolveRemoval field entry := by
  rw [resolveRemoval, resolveRemoval, EditEntry.edit?_reread]
  cases entry.bind EditEntry.edit? <;> rfl

theorem resolveUpdate_reread
    {config : Config}
    {entries : List (String × Option EditEntry)}
    (holds : ∀ entry ∈ writtenEntries config entries, ¬ HoldsNull entry.2) :
    resolveUpdate config
        (entries.map fun entry => (entry.1, EditEntry.reread entry.2)) =
      resolveUpdate config entries := by
  induction entries with
  | nil => rfl
  | cons entry rest hypothesis =>
      obtain ⟨field, entry⟩ := entry
      simp only [writtenEntries, List.mem_filter, List.mem_cons] at holds
      have others := hypothesis fun other member =>
        holds other ((List.mem_filter.1 member).imp_left .inr)
      rw [List.map_cons, resolveUpdate, resolveUpdate, isSuppressed_reread,
        others]
      by_cases reserved : field = reservedField
      · rw [if_pos reserved, if_pos reserved]
      · rw [if_neg reserved, if_neg reserved]
        refine congrArg _ (funext fun _ => ?_)
        by_cases suppressed : isSuppressed config field entry = true
        · rw [if_pos suppressed, if_pos suppressed]
        · have kept : ¬ Suppressed config (field, entry) :=
            (isSuppressed_iff config (field, entry)).not.1 suppressed
          have written : ¬ HoldsNull entry :=
            holds (field, entry) ⟨.inl rfl, decide_eq_true ⟨reserved, kept⟩⟩
          rw [if_neg suppressed, if_neg suppressed,
            requireValue_reread field written]

theorem resolveRemove_reread (entries : List (String × Option EditEntry)) :
    resolveRemove
        (entries.map fun entry => (entry.1, EditEntry.reread entry.2)) =
      resolveRemove entries := by
  induction entries with
  | nil => rfl
  | cons entry rest hypothesis =>
      rw [List.map_cons, resolveRemove, resolveRemove, resolveRemoval_reread,
        hypothesis]

namespace Conditions

/-- An edit that writes a field holds null. -/
def WritesNull (conditions : Conditions) (config : Config) : Prop :=
  conditions.operation = some .update ∧
    ∃ update, conditions.update = some update ∧
      ∃ entry ∈ writtenEntries config update.entries, HoldsNull entry.2

/-- The conditions with their criteria as these are read back: a value alone
that looks like a keyed criterion is one. -/
def classified (conditions : Conditions) : Conditions :=
  { conditions with
    criteria := conditions.criteria.map fun criteria =>
      criteria.mapValues Criterion.reread }

theorem removals_reread (conditions : Conditions) :
    removals conditions.reread = removals conditions := by
  rw [removals, removals, reread]
  cases conditions.remove with
  | none => rfl
  | some remove =>
      simp only [Option.map_some]
      rw [EditMap.reread, FieldMap.entries_mapValues, resolveRemove_reread]

theorem assignments_reread
    {conditions : Conditions}
    {config : Config}
    (isUpdate : conditions.operation = some .update)
    (holds : ¬ conditions.WritesNull config) :
    assignments config conditions.reread = assignments config conditions := by
  rw [assignments, assignments, reread]
  cases given : conditions.update with
  | none => cases conditions.remove <;> rfl
  | some update =>
      simp only [Option.map_some]
      rw [EditMap.reread, FieldMap.entries_mapValues, resolveUpdate_reread]
      exact fun entry member null =>
        holds ⟨isUpdate, update, given, entry, member, null⟩

/-- Reading back changes nothing that is compiled but the criteria. -/
theorem compile_reread
    {conditions : Conditions}
    {config : Config}
    (holds : ¬ conditions.WritesNull config) :
    compile conditions.reread config = compile conditions.classified config := by
  have same : conditions.reread.target = conditions.classified.target := rfl
  rw [compile, compile, compileStaged, compileStaged, same]
  cases found : conditions.classified.target with
  | error cause => rfl
  | ok target =>
      simp only [Stage.run_ok, ok_bind]
      cases asked : target.operation with
      | scan => rfl
      | query => rfl
      | update =>
          have isUpdate : conditions.operation = some .update :=
            operation_of_target found asked
          simp only [compileUpdate, removals_reread,
            assignments_reread isUpdate holds]
          rfl

/-- A criterion is a value alone that looks keyed. -/
def HasLookalike (conditions : Conditions) : Prop :=
  ∃ criteria, conditions.criteria = some criteria ∧
    ∃ entry ∈ criteria.entries, entry.2.LooksKeyed

theorem classified_eq_self
    {conditions : Conditions}
    (none : ¬ conditions.HasLookalike) :
    conditions.classified = conditions := by
  have same : (conditions.criteria.map fun criteria =>
      criteria.mapValues Criterion.reread) = conditions.criteria :=
    FieldMap.option_mapValues_eq_self fun criteria given entry member =>
      entry.2.reread_eq_self_iff.2 fun looksKeyed =>
        none ⟨criteria, given, entry, member, looksKeyed⟩
  rw [classified, same]

end Conditions

/-! ## Compiling what was built -/

/-- Built conditions and their written form are compiled to the same outcome,
up to values alone that look keyed. These are compiled as the keyed criteria
that they look like. -/
theorem compileJson_toJson
    {conditions : Conditions}
    (built : conditions.IsBuilt)
    {config : Config}
    (holds : ¬ conditions.WritesNull config) :
    compileJson conditions.toJson config =
        compile conditions.classified config ∧
      (¬ conditions.HasLookalike →
        compileJson conditions.toJson config = compile conditions config) := by
  have classified : compileJson conditions.toJson config =
      compile conditions.classified config := by
    rw [compileJson_of_ofJson (Conditions.decoder_toJson built.isRegular),
      Conditions.compile_reread holds]
  refine ⟨classified, fun none => ?_⟩
  rw [classified, Conditions.classified_eq_self none]

/-- An update of an item by its primary key. It appends to one field, writes a
list item of another and removes a third, and an index key has no value. -/
def builtUpdate : Conditions :=
  Conditions.start "Orders" .update
    |>.withCriterion "id" (.ofPrimary (.string "a"))
    |>.withCriterion "kind" (.plain (.object [("value", .null), ("n", .null)]))
    |>.withUpdate "tags" (.appending [.null])
    |>.withUpdate "lines" (.setAt 2 (.bool true))
    |>.withUpdate "owner" (.set .null)
    |>.withRemove "note" none

theorem compileJson_toJson_builtUpdate :
    builtUpdate.IsBuilt ∧ ¬ builtUpdate.WritesNull ⟨["owner"]⟩ ∧
      ¬ builtUpdate.HasLookalike ∧
      compileJson builtUpdate.toJson ⟨["owner"]⟩ =
        compile builtUpdate ⟨["owner"]⟩ := by
  have built : builtUpdate.IsBuilt :=
    .withRemove (.withUpdate (.withUpdate (.withUpdate (.withCriterion
      (.withCriterion (.start _ _) _ _) _ _) _ _) _ _) _ _) _ _
  have holds : ¬ builtUpdate.WritesNull ⟨["owner"]⟩ := by
    rintro ⟨_, update, given, entry, member, null⟩
    cases given
    have written : entry ∈
        [("tags", some (.described (.appending [.null]))),
          ("lines", some (.described (.setAt 2 (.bool true))))] := member
    simp only [List.mem_cons, List.not_mem_nil, or_false] at written
    rcases written with rfl | rfl <;> cases null
  have none : ¬ builtUpdate.HasLookalike := by
    rintro ⟨criteria, given, entry, member, looksKeyed⟩
    cases given
    have written : entry ∈ [("id", .ofPrimary (.string "a")),
        ("kind", .plain (.object [("value", .null), ("n", .null)]))] := member
    simp only [List.mem_cons, List.not_mem_nil, or_false] at written
    rcases written with rfl | rfl
    · exact looksKeyed
    · exact (Criterion.reread_eq_self_iff _).1 rfl looksKeyed
  exact ⟨built, holds, none, (compileJson_toJson built holds).2 none⟩

/-- A scan for a value alone that looks like a keyed criterion. -/
def lookalikeScan : Conditions :=
  (Conditions.start "Orders" .scan).withCriterion "size"
    (.plain (.object [("value", .bool true)]))

/-- An update that writes null. -/
def nullUpdate : Conditions :=
  (Conditions.start "Orders" .update).withCriterion "id"
      (.ofPrimary (.string "a"))
    |>.withUpdate "note" (.set .null)

/-- The written form of the scan asks for the value in the object, and that of
the update lacks the value to write. -/
theorem compileJson_toJson_differs :
    (lookalikeScan.IsBuilt ∧
      compileJson lookalikeScan.toJson .default ≠
        compile lookalikeScan .default) ∧
    nullUpdate.IsBuilt ∧
      compileJson nullUpdate.toJson .default ≠ compile nullUpdate .default := by
  refine ⟨⟨.withCriterion (.start _ _) _ _, ?_⟩,
    .withUpdate (.withCriterion (.start _ _) _ _) _ _, ?_⟩ <;>
    decide +kernel

end TableQuery
