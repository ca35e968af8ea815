import TableQuery.Proofs.Assembly

/-!
# Which queries and scans compile

The conditions of a query or a scan compile exactly if the table is named, the
criteria and the projected fields have names that can be spliced, and a query
has one primary key. Scans do not look at the mark of primary keys. Nothing else
of the conditions matters, and neither does the configuration.
-/

namespace TableQuery

/-! ## Projected fields -/

/-- A field that can be projected: it is given by its name or by its alias. -/
def Projectable (field : String) : Prop :=
  ValidName field ∨ ∃ name, ValidName name ∧ field = "#" ++ name

theorem bareName_alias (name : String) : bareName ("#" ++ name) = name := by
  simp [bareName]

/-- A name that starts with the mark of aliases is not valid. -/
theorem not_validName_mark {field : String} {rest : List Char}
    (letters : field.toList = '#' :: rest) : ¬ ValidName field := by
  intro valid
  have mark : '#' ∈ field.toList := by simp [letters]
  exact absurd (valid.isNameChar mark) (by decide)

theorem projectable_iff (field : String) :
    Projectable field ↔ ValidName (bareName field) := by
  cases letters : field.toList with
  | nil =>
      have empty : field = "" := by simpa using letters
      subst empty
      simp [Projectable, bareName, ValidName]
  | cons first rest =>
      by_cases mark : first = '#'
      · subst mark
        have isAlias : field = "#" ++ String.ofList rest := by
          rw [← String.toList_inj]
          simp [letters]
        constructor
        · rintro (valid | ⟨name, valid, same⟩)
          · exact absurd valid (not_validName_mark letters)
          · rwa [same, bareName_alias]
        · intro valid
          refine .inr ⟨String.ofList rest, ?_, isAlias⟩
          rwa [isAlias, bareName_alias] at valid
      · have plain : bareName field = field := by
          simp [bareName, letters, mark]
        rw [plain]
        constructor
        · rintro (valid | ⟨name, _, same⟩)
          · exact valid
          · rw [same] at letters
            have starts : '#' = first := by
              simpa using congrArg List.head? letters
            exact absurd starts.symm mark
        · exact .inl

/-! ## Whole conditions -/

/-- The conditions of a query or a scan that can be compiled. -/
structure Conditions.Selectable (conditions : Conditions) : Prop where
  /-- The table is named. -/
  tableName : ∃ tableName, conditions.tableName = some tableName ∧
    tableName ≠ ""
  /-- The criteria are there. None is the refused operator, all others have
  valid names, and those of a query single out one primary key. -/
  criteria : ∃ criteria, conditions.criteria = some criteria ∧
    (∀ entry ∈ criteria.entries, entry.1 ≠ "or") ∧
    (∀ entry ∈ criteria.entries, entry.1 ≠ "and" → ValidName entry.1) ∧
    (conditions.operation = some .query →
      ∃ primary, Selection.OnlyKey criteria.entries primary)
  /-- The fields to return are given by name or by alias. -/
  fields : ∀ fields, conditions.fields = some fields →
    ∀ field ∈ fields, Projectable field

/-- Without updates, a criterion is admissible whether it is marked or not. -/
theorem Selection.admissible_iff
    {operation : Operation}
    (notUpdate : operation ≠ .update)
    (entries : List (String × Criterion)) :
    (∀ entry ∈ entries, Admissible operation entry) ↔
      (∀ entry ∈ entries, entry.1 ≠ "or") ∧
        ∀ entry ∈ entries, entry.1 ≠ "and" → ValidName entry.1 := by
  have each : ∀ entry : String × Criterion, Admissible operation entry ↔
      entry.1 ≠ "or" ∧ (entry.1 ≠ "and" → ValidName entry.1) := by
    intro entry
    have different : "and" ≠ "or" := by decide
    simp only [Admissible, impliedOperator, refusedOperator, notUpdate,
      false_and, or_false]
    constructor
    · rintro (implied | ⟨notRefused, valid⟩)
      · exact ⟨implied ▸ different, absurd implied⟩
      · exact ⟨notRefused, fun _ => valid⟩
    · rintro ⟨notRefused, valid⟩
      by_cases implied : entry.1 = "and"
      · exact .inl implied
      · exact .inr ⟨notRefused, valid implied⟩
  simp only [each, forall_and]

theorem forall_fields_iff (conditions : Conditions) :
    (∀ field ∈ conditions.fields.getD [], ValidName (bareName field)) ↔
      ∀ fields, conditions.fields = some fields →
        ∀ field ∈ fields, Projectable field := by
  simp only [projectable_iff]
  cases conditions.fields <;> simp

/-- Conditions that compile are selectable. -/
theorem Compiles.selectable
    {conditions : Conditions}
    {config : Config}
    {expression : Expression}
    (compiles : Compiles conditions config expression)
    (selects : conditions.operation = some .scan ∨
      conditions.operation = some .query) :
    conditions.Selectable := by
  cases compiles with
  | @scan target found operation admissible projectable =>
      obtain ⟨tableName, nonempty, criteria, _⟩ :=
        (Conditions.target_eq_ok_iff _ _).1 found
      obtain ⟨noRefused, valid⟩ :=
        (Selection.admissible_iff (by decide) _).1 admissible
      refine ⟨⟨_, tableName, nonempty⟩,
        ⟨_, criteria, noRefused, valid, fun isQuery => ?_⟩,
        (forall_fields_iff _).1 projectable⟩
      cases isQuery.symm.trans (Conditions.operation_of_target found operation)
  | @query target primary found operation admissible key projectable =>
      obtain ⟨tableName, nonempty, criteria, _⟩ :=
        (Conditions.target_eq_ok_iff _ _).1 found
      obtain ⟨noRefused, valid⟩ :=
        (Selection.admissible_iff (by decide) _).1 admissible
      exact ⟨⟨_, tableName, nonempty⟩,
        ⟨_, criteria, noRefused, valid, fun _ =>
          (Selection.exists_keys_iff (by decide) _).1 ⟨primary, key⟩⟩,
        (forall_fields_iff _).1 projectable⟩
  | update found operation _ _ _ _ =>
      rw [Conditions.operation_of_target found operation] at selects
      rcases selects with selects | selects <;> cases selects

/-- A query or a scan compiles exactly if its conditions are selectable. -/
theorem compile_select_iff
    {conditions : Conditions}
    (config : Config)
    (selects : conditions.operation = some .scan ∨
      conditions.operation = some .query) :
    (∃ expression, compile conditions config = .ok expression) ↔
      conditions.Selectable := by
  simp only [compile_eq_ok_iff]
  constructor
  · rintro ⟨_, compiles⟩
    exact compiles.selectable selects
  · rintro ⟨⟨tableName, named, nonempty⟩,
      ⟨criteria, present, noRefused, valid, onePrimary⟩, fields⟩
    have projectable := (forall_fields_iff conditions).2 fields
    rcases selects with isScan | isQuery
    · have found : conditions.target = .ok ⟨tableName, criteria, .scan⟩ :=
        (Conditions.target_eq_ok_iff _ _).2 ⟨named, nonempty, present, isScan⟩
      have admissible : ∀ entry ∈ criteria.entries,
          Selection.Admissible .scan entry :=
        (Selection.admissible_iff (by decide) _).2 ⟨noRefused, valid⟩
      exact ⟨_, .scan found rfl admissible projectable⟩
    · have found : conditions.target = .ok ⟨tableName, criteria, .query⟩ :=
        (Conditions.target_eq_ok_iff _ _).2 ⟨named, nonempty, present, isQuery⟩
      have admissible : ∀ entry ∈ criteria.entries,
          Selection.Admissible .query entry :=
        (Selection.admissible_iff (by decide) _).2 ⟨noRefused, valid⟩
      have single : ∃ key, Selection.keys .query criteria.entries = [key] :=
        (Selection.exists_keys_iff (by decide) _).2 (onePrimary isQuery)
      obtain ⟨primary, key⟩ := single
      exact ⟨_, .query found rfl admissible key projectable⟩

/-- Two criteria that are marked as the primary key, and a field to return. -/
def markedTwice (operation : Operation) (field : String) : Conditions :=
  Conditions.start "Orders" operation
    |>.withCriterion "id" (.ofPrimary (.string "a"))
    |>.withCriterion "and" (.plain .null)
    |>.withCriterion "line" (.ofPrimary (.string "b"))
    |>.withFields [field]

/-- The marks matter for a query only, and one mark of an alias is passed
over. -/
theorem compile_select_iff_markedTwice :
    (markedTwice .scan "#note").Selectable ∧
      ¬ (markedTwice .scan "##note").Selectable ∧
      ¬ (markedTwice .query "#note").Selectable := by
  refine ⟨?_, ?_, ?_⟩
  · apply (compile_select_iff .default (.inl rfl)).1
    rw [exists_ok_iff]
    decide +kernel
  · rw [← compile_select_iff .default (.inl rfl), exists_ok_iff]
    decide +kernel
  · rw [← compile_select_iff .default (.inr rfl), exists_ok_iff]
    decide +kernel

end TableQuery
