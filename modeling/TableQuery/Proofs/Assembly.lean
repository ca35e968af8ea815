import TableQuery.Proofs.Closure
import TableQuery.Proofs.Sections
import TableQuery.Proofs.Selection

/-!
# Compilation without its last checks

The last stages of compilation ask whether an update has a text and whether the
expression is closed. Both hold of everything that the stages before assemble,
so these checks never fail and can be left out.
-/

namespace TableQuery

/-- Compile without the checks at the end. -/
def assemble (conditions : Conditions) (config : Config) :
    Except Failure Expression := do
  let target ← Stage.validation.run conditions.target
  match target.operation with
  | .scan =>
      let selection ← Stage.criteria.run
        (Selection.ofCriteria .scan target.criteria)
      let projected ← Stage.projection.run
        (projectedFields (conditions.fields.getD []))
      .ok (readExpression target conditions.lastEvaluatedKey none
        selection.filters projected)
  | .query =>
      let (primary, filters) ← Stage.criteria.run
        (Selection.ofKeyedCriteria .query target.criteria)
      let projected ← Stage.projection.run
        (projectedFields (conditions.fields.getD []))
      .ok (readExpression target conditions.lastEvaluatedKey (some primary)
        filters projected)
  | .update =>
      let (primary, _) ← Stage.criteria.run
        (Selection.ofKeyedCriteria .update target.criteria)
      let written ← Stage.assignments.run (assignments config conditions)
      let removed ← Stage.removals.run (removals conditions)
      .ok (writeExpression target conditions.returnValues primary
        (written.getD []) (removed.getD [])
        (updateText (written.getD []) (removed.getD [])))

/-! ## What earlier stages promise -/

theorem Selection.validName_of_mem_filtersOf
    {operation : Operation}
    {entries : List (String × Criterion)}
    (admissible : ∀ entry ∈ entries, Admissible operation entry)
    {field : String}
    (member : field ∈ Members.names (filtersOf operation entries)) :
    ValidName field := by
  simp only [filtersOf, Members.names, List.map_map, List.mem_map,
    List.mem_filter, isFilter, decide_eq_true_eq] at member
  obtain ⟨entry, ⟨present, notImplied, unmarked⟩, rfl⟩ := member
  rcases admissible entry present with implied | ⟨_, valid | ⟨rfl, marked⟩⟩
  · exact absurd implied notImplied
  · exact valid
  · exact absurd ⟨by decide, marked⟩ unmarked

/-- Whatever queries and scans select by is spliced and has a valid name. -/
theorem Selection.validName_of_selected
    {operation : Operation}
    (notUpdate : operation ≠ .update)
    {entries : List (String × Criterion)}
    (admissible : ∀ entry ∈ entries, Admissible operation entry)
    {primary : Option (String × Json)}
    (key : keys operation entries = primary.toList) :
    ∀ field ∈ Members.names (primary.toList ++ filtersOf operation entries),
      ValidName field := by
  intro field member
  rw [← key, Members.names, List.map_append, List.mem_append] at member
  rcases member with inKeys | inFilters
  · simp only [keys, List.map_map, List.mem_map, List.mem_filter, isKey,
      decide_eq_true_eq] at inKeys
    obtain ⟨entry, ⟨present, notImplied, _⟩, rfl⟩ := inKeys
    rcases admissible entry present with implied | ⟨_, valid | ⟨isUpdate, _⟩⟩
    · exact absurd implied notImplied
    · exact valid
    · exact absurd isUpdate notUpdate
  · exact validName_of_mem_filtersOf admissible inFilters

theorem validName_of_mem_projected
    {fields names : List String}
    (project : projectedFields fields = .ok names)
    {name : String}
    (member : name ∈ names) : ValidName name := by
  obtain ⟨valid, rfl⟩ := (projectedFields_eq_ok_iff _ _).1 project
  obtain ⟨field, present, rfl⟩ := List.mem_map.1 (List.mem_eraseDups.1 member)
  exact valid field present

/-- Both sections of an update together have something in them. -/
theorem sections_nonempty
    {config : Config}
    {conditions : Conditions}
    {written : Option (List (String × Assignment))}
    {removed : Option (List (String × Removal))}
    (resolvedWritten : assignments config conditions = .ok written)
    (resolvedRemoved : removals conditions = .ok removed) :
    written.getD [] ≠ [] ∨ removed.getD [] ≠ [] := by
  obtain ⟨writes, isThere⟩ := writtenSection resolvedWritten
  have removes := removedSection resolvedRemoved
  rcases isThere with update | remove
  · exact .inl (writes.nonempty_iff.2 update)
  · exact .inr (removes.nonempty_iff.2 remove)

/-! ## The checks never fail -/

theorem compileScan_eq (target : Target) (conditions : Conditions) :
    compileScan target conditions = (do
      let selection ← Stage.criteria.run
        (Selection.ofCriteria .scan target.criteria)
      let projected ← Stage.projection.run
        (projectedFields (conditions.fields.getD []))
      .ok (readExpression target conditions.lastEvaluatedKey none
        selection.filters projected)) := by
  unfold compileScan
  cases split : Selection.ofCriteria .scan target.criteria with
  | error cause => simp only [Stage.run_error, error_bind]
  | ok selection =>
      cases project : projectedFields (conditions.fields.getD []) with
      | error cause => simp only [Stage.run_error, error_bind]
      | ok projected =>
          obtain ⟨admissible, _, filters⟩ :=
            (Selection.ofCriteria_eq_ok_iff _ _ _).1 split
          have key : Selection.keys .scan target.criteria.entries =
              (none : Option (String × Json)).toList := Selection.keys_scan _
          have valid :=
            Selection.validName_of_selected (by decide) admissible key
          rw [← filters] at valid
          have closed := closed_readExpression target
            conditions.lastEvaluatedKey valid
            fun name => validName_of_mem_projected project
          simp [(Expression.verify_eq_ok_iff _).2 closed]

theorem compileQuery_eq (target : Target) (conditions : Conditions) :
    compileQuery target conditions = (do
      let (primary, filters) ← Stage.criteria.run
        (Selection.ofKeyedCriteria .query target.criteria)
      let projected ← Stage.projection.run
        (projectedFields (conditions.fields.getD []))
      .ok (readExpression target conditions.lastEvaluatedKey (some primary)
        filters projected)) := by
  unfold compileQuery
  cases split : Selection.ofKeyedCriteria .query target.criteria with
  | error cause => simp only [Stage.run_error, error_bind]
  | ok parts =>
      obtain ⟨primary, filters⟩ := parts
      cases project : projectedFields (conditions.fields.getD []) with
      | error cause => simp only [Stage.run_error, error_bind]
      | ok projected =>
          obtain ⟨admissible, key, rest⟩ :=
            (Selection.ofKeyedCriteria_eq_ok_iff _ _ _ _).1 split
          have single : Selection.keys .query target.criteria.entries =
              (some primary).toList := key
          have valid :=
            Selection.validName_of_selected (by decide) admissible single
          rw [rest] at valid
          have closed := closed_readExpression target
            conditions.lastEvaluatedKey valid
            fun name => validName_of_mem_projected project
          simp [(Expression.verify_eq_ok_iff _).2 closed]

theorem compileUpdate_eq
    (config : Config)
    (target : Target)
    (conditions : Conditions) :
    compileUpdate config target conditions = (do
      let (primary, _) ← Stage.criteria.run
        (Selection.ofKeyedCriteria .update target.criteria)
      let written ← Stage.assignments.run (assignments config conditions)
      let removed ← Stage.removals.run (removals conditions)
      .ok (writeExpression target conditions.returnValues primary
        (written.getD []) (removed.getD [])
        (updateText (written.getD []) (removed.getD [])))) := by
  unfold compileUpdate
  cases Selection.ofKeyedCriteria .update target.criteria with
  | error cause => simp only [Stage.run_error, error_bind]
  | ok parts =>
      obtain ⟨primary, filters⟩ := parts
      cases resolvedWritten : assignments config conditions with
      | error cause => simp only [Stage.run_error, error_bind]
      | ok written =>
          cases resolvedRemoved : removals conditions with
          | error cause =>
              simp only [Stage.run_ok, ok_bind, Stage.run_error, error_bind]
          | ok removed =>
              have nonempty := sections_nonempty resolvedWritten resolvedRemoved
              have closed := closed_writeExpression target
                conditions.returnValues primary
                (writtenSection resolvedWritten).1.valid
                (removedSection resolvedRemoved).valid nonempty
              simp [updateFragment_eq nonempty,
                (Expression.verify_eq_ok_iff _).2 closed]

/-- Compilation is assembly: its last checks never fail. -/
theorem compileStaged_eq_assemble (conditions : Conditions) (config : Config) :
    compileStaged conditions config = assemble conditions config := by
  unfold compileStaged assemble
  cases conditions.target with
  | error cause => rfl
  | ok target =>
      simp only [Stage.run_ok, ok_bind]
      cases target.operation with
      | scan => exact compileScan_eq target conditions
      | query => exact compileQuery_eq target conditions
      | update => exact compileUpdate_eq config target conditions

/-! ## What compilation comes to -/

@[simp] theorem Stage.run_eq_ok_iff
    {α : Type}
    (stage : Stage)
    (result : Except CompileError α)
    (value : α) :
    stage.run result = .ok value ↔ result = .ok value := by
  cases result <;> simp

theorem Conditions.target_eq_ok_iff
    (conditions : Conditions)
    (target : Target) :
    conditions.target = .ok target ↔
      conditions.tableName = some target.tableName ∧ target.tableName ≠ "" ∧
        conditions.criteria = some target.criteria ∧
        conditions.operation = some target.operation := by
  obtain ⟨tableName, criteria, operation⟩ := target
  unfold Conditions.target
  cases conditions.tableName with
  | none => simp
  | some name =>
      by_cases empty : name.isEmpty = true
      · have isEmpty : name = "" := by simpa using empty
        simp only [if_pos empty, error_bind, reduceCtorEq, Option.some.injEq,
          false_iff]
        rintro ⟨rfl, nonempty, _⟩
        exact nonempty isEmpty
      · have nonempty : name ≠ "" := by simpa using empty
        simp only [if_neg empty, ok_bind]
        cases conditions.criteria with
        | none => simp
        | some given =>
            cases conditions.operation with
            | none => simp
            | some asked =>
                simp only [Except.ok.injEq, Target.mk.injEq, Option.some.injEq]
                constructor
                · rintro ⟨rfl, rfl, rfl⟩
                  exact ⟨rfl, nonempty, rfl, rfl⟩
                · rintro ⟨rfl, _, rfl, rfl⟩
                  exact ⟨rfl, rfl, rfl⟩

theorem Conditions.operation_of_target
    {conditions : Conditions}
    {target : Target}
    (found : conditions.target = .ok target)
    {operation : Operation}
    (isOperation : target.operation = operation) :
    conditions.operation = some operation := by
  obtain ⟨_, _, _, given⟩ := (target_eq_ok_iff _ _).1 found
  rw [given, isOperation]

/-- What conditions compile to, operation by operation. -/
inductive Compiles
    (conditions : Conditions)
    (config : Config) : Expression → Prop
  /-- All criteria of a scan are filters. -/
  | scan {target : Target}
      (found : conditions.target = .ok target)
      (operation : target.operation = .scan)
      (admissible : ∀ entry ∈ target.criteria.entries,
        Selection.Admissible .scan entry)
      (projectable : ∀ field ∈ conditions.fields.getD [],
        ValidName (bareName field)) :
      Compiles conditions config
        (readExpression target conditions.lastEvaluatedKey none
          (Selection.filtersOf .scan target.criteria.entries)
          ((conditions.fields.getD []).map bareName).eraseDups)
  /-- One of the criteria of a query is its primary key. -/
  | query {target : Target} {primary : String × Json}
      (found : conditions.target = .ok target)
      (operation : target.operation = .query)
      (admissible : ∀ entry ∈ target.criteria.entries,
        Selection.Admissible .query entry)
      (key : Selection.keys .query target.criteria.entries = [primary])
      (projectable : ∀ field ∈ conditions.fields.getD [],
        ValidName (bareName field)) :
      Compiles conditions config
        (readExpression target conditions.lastEvaluatedKey (some primary)
          (Selection.filtersOf .query target.criteria.entries)
          ((conditions.fields.getD []).map bareName).eraseDups)
  /-- An update edits the item with its primary key. -/
  | update {target : Target} {primary : String × Json}
      {written : Option (List (String × Assignment))}
      {removed : Option (List (String × Removal))}
      (found : conditions.target = .ok target)
      (operation : target.operation = .update)
      (admissible : ∀ entry ∈ target.criteria.entries,
        Selection.Admissible .update entry)
      (key : Selection.keys .update target.criteria.entries = [primary])
      (resolvedWritten : assignments config conditions = .ok written)
      (resolvedRemoved : removals conditions = .ok removed) :
      Compiles conditions config
        (writeExpression target conditions.returnValues primary
          (written.getD []) (removed.getD [])
          (updateText (written.getD []) (removed.getD [])))

theorem assemble_eq_ok_iff
    (conditions : Conditions)
    (config : Config)
    (expression : Expression) :
    assemble conditions config = .ok expression ↔
      Compiles conditions config expression := by
  unfold assemble
  rw [bind_eq_ok_iff]
  constructor
  · rintro ⟨target, found, rest⟩
    rw [Stage.run_eq_ok_iff] at found
    cases operation : target.operation with
    | scan =>
        simp only [operation, bind_eq_ok_iff, Stage.run_eq_ok_iff,
          Selection.ofCriteria_eq_ok_iff, projectedFields_eq_ok_iff,
          Except.ok.injEq] at rest
        obtain ⟨selection, ⟨admissible, _, filters⟩, _, ⟨projectable, rfl⟩,
          rfl⟩ := rest
        rw [filters]
        exact .scan found operation admissible projectable
    | query =>
        simp only [operation, bind_eq_ok_iff, Stage.run_eq_ok_iff,
          projectedFields_eq_ok_iff, Except.ok.injEq] at rest
        obtain ⟨⟨primary, filters⟩, split, _, ⟨projectable, rfl⟩, rfl⟩ := rest
        obtain ⟨admissible, key, rfl⟩ :=
          (Selection.ofKeyedCriteria_eq_ok_iff _ _ _ _).1 split
        exact .query found operation admissible key projectable
    | update =>
        simp only [operation, bind_eq_ok_iff, Stage.run_eq_ok_iff,
          Except.ok.injEq] at rest
        obtain ⟨⟨primary, filters⟩, split, written, resolvedWritten, removed,
          resolvedRemoved, rfl⟩ := rest
        obtain ⟨admissible, key, _⟩ :=
          (Selection.ofKeyedCriteria_eq_ok_iff _ _ _ _).1 split
        exact .update found operation admissible key resolvedWritten
          resolvedRemoved
  · intro compiles
    cases compiles with
    | scan found operation admissible projectable =>
        refine ⟨_, (Stage.run_eq_ok_iff _ _ _).2 found, ?_⟩
        simp only [operation, bind_eq_ok_iff, Stage.run_eq_ok_iff,
          Selection.ofCriteria_eq_ok_iff, projectedFields_eq_ok_iff]
        exact ⟨⟨none, _⟩, ⟨admissible, (Selection.keys_scan _).symm, rfl⟩, _,
          ⟨projectable, rfl⟩, rfl⟩
    | query found operation admissible key projectable =>
        refine ⟨_, (Stage.run_eq_ok_iff _ _ _).2 found, ?_⟩
        simp only [operation, bind_eq_ok_iff, Stage.run_eq_ok_iff,
          projectedFields_eq_ok_iff]
        have split := (Selection.ofKeyedCriteria_eq_ok_iff _ _ _ _).2
          ⟨admissible, key, rfl⟩
        exact ⟨_, split, _, ⟨projectable, rfl⟩, rfl⟩
    | update found operation admissible key resolvedWritten resolvedRemoved =>
        refine ⟨_, (Stage.run_eq_ok_iff _ _ _).2 found, ?_⟩
        simp only [operation, bind_eq_ok_iff, Stage.run_eq_ok_iff]
        have split := (Selection.ofKeyedCriteria_eq_ok_iff _ _ _ _).2
          ⟨admissible, key, rfl⟩
        exact ⟨_, split, _, resolvedWritten, _, resolvedRemoved, rfl⟩

theorem compile_eq_mapError_assemble
    (conditions : Conditions)
    (config : Config) :
    compile conditions config =
      (assemble conditions config).mapError Failure.cause := by
  rw [compile, compileStaged_eq_assemble]

/-- Conditions compile to at most one expression, and this is it. -/
theorem compile_eq_ok_iff
    (conditions : Conditions)
    (config : Config)
    (expression : Expression) :
    compile conditions config = .ok expression ↔
      Compiles conditions config expression := by
  rw [← assemble_eq_ok_iff, compile_eq_mapError_assemble]
  cases assemble conditions config <;> simp

/-- What is known of the parts of a compiled update. -/
theorem Compiles.of_update
    {conditions : Conditions}
    {config : Config}
    {expression : Expression}
    (compiles : Compiles conditions config expression)
    (isUpdate : conditions.operation = some .update) :
    ∃ target primary written removed,
      conditions.target = .ok target ∧
      (∀ entry ∈ target.criteria.entries,
        Selection.Admissible .update entry) ∧
      Selection.keys .update target.criteria.entries = [primary] ∧
      assignments config conditions = .ok written ∧
      removals conditions = .ok removed ∧
      expression = writeExpression target conditions.returnValues primary
        (written.getD []) (removed.getD [])
        (updateText (written.getD []) (removed.getD [])) := by
  cases compiles with
  | scan found operation _ _ =>
      cases isUpdate.symm.trans (Conditions.operation_of_target found operation)
  | query found operation _ _ _ =>
      cases isUpdate.symm.trans (Conditions.operation_of_target found operation)
  | update found _ admissible key resolvedWritten resolvedRemoved =>
      exact ⟨_, _, _, _, found, admissible, key, resolvedWritten,
        resolvedRemoved, rfl⟩

end TableQuery
