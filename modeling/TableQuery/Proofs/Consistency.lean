import TableQuery.Proofs.Assembly

/-!
# Compilation is consistent

Some errors blame the compiler and not the conditions: a token that stands for
nothing, a definition that nothing uses, an update without a text. No step
raises them except the last ones, and those find nothing to object to. So the
errors of compilation all blame the conditions, and what is compiled is closed.
-/

namespace TableQuery

variable {α β : Type}

/-- Whether an error blames the compiler. -/
def CompileError.isInternal : CompileError → Bool
  | .missingUpdateFragments => true
  | .unresolvedName _ => true
  | .unresolvedValue _ => true
  | .unusedName _ => true
  | .unusedValue _ => true
  | _ => false

/-- A step whose errors blame the conditions. -/
def BlamesConditions (step : Except CompileError α) : Prop :=
  ∀ cause, step = .error cause → cause.isInternal = false

namespace BlamesConditions

@[simp] theorem ok (value : α) :
    BlamesConditions (.ok value : Except CompileError α) := by
  intro cause failed
  cases failed

@[simp] theorem error_iff (cause : CompileError) :
    BlamesConditions (.error cause : Except CompileError α) ↔
      cause.isInternal = false := by
  constructor
  · intro blames
    exact blames cause rfl
  · intro external other failed
    cases failed
    exact external

theorem bind
    {first : Except CompileError α}
    {next : α → Except CompileError β}
    (head : BlamesConditions first)
    (tail : ∀ value, BlamesConditions (next value)) :
    BlamesConditions (first >>= next) := by
  intro cause failed
  rcases bind_eq_error_iff.1 failed with here | ⟨value, _, there⟩
  · exact head cause here
  · exact tail value cause there

theorem foldlM
    {step : β → α → Except CompileError β}
    (blames : ∀ state item, BlamesConditions (step state item))
    (items : List α)
    (state : β) :
    BlamesConditions (items.foldlM step state) := by
  induction items generalizing state with
  | nil => exact ok state
  | cons item items hypothesis =>
      rw [List.foldlM_cons]
      exact (blames state item).bind hypothesis

theorem mapM
    {step : α → Except CompileError β}
    (blames : ∀ item, BlamesConditions (step item))
    (items : List α) :
    BlamesConditions (items.mapM step) := by
  induction items with
  | nil => exact ok []
  | cons item items hypothesis =>
      rw [List.mapM_cons]
      exact (blames item).bind fun result =>
        hypothesis.bind fun results => ok (result :: results)

/-! ## The steps -/

theorem checkFieldName (name : String) :
    BlamesConditions (checkFieldName name) := by
  unfold TableQuery.checkFieldName
  split <;> simp [CompileError.isInternal]

theorem target (conditions : Conditions) :
    BlamesConditions conditions.target := by
  unfold Conditions.target
  cases conditions.tableName with
  | none => simp [CompileError.isInternal]
  | some tableName =>
      cases conditions.criteria <;> cases conditions.operation <;>
        dsimp only <;> split <;> simp [CompileError.isInternal]

theorem add
    (operation : Operation)
    (selection : Selection)
    (entry : String × Criterion) :
    BlamesConditions (selection.add operation entry) := by
  obtain ⟨field, criterion⟩ := entry
  unfold Selection.add
  dsimp only
  split
  · exact ok selection
  split
  · simp [CompileError.isInternal]
  split
  · split
    · simp [CompileError.isInternal]
    · split
      · exact (checkFieldName field).bind fun _ => ok _
      · exact ok _
  · exact (checkFieldName field).bind fun _ => ok _

theorem ofCriteria (operation : Operation) (criteria : FieldMap Criterion) :
    BlamesConditions (Selection.ofCriteria operation criteria) :=
  foldlM (add operation) criteria.entries Selection.empty

theorem ofKeyedCriteria
    (operation : Operation)
    (criteria : FieldMap Criterion) :
    BlamesConditions (Selection.ofKeyedCriteria operation criteria) := by
  unfold Selection.ofKeyedCriteria
  refine (ofCriteria operation criteria).bind fun selection =>
    bind ?_ fun primary => ok _
  unfold Selection.requirePrimary
  split <;> simp [CompileError.isInternal]

theorem projectedFields (fields : List String) :
    BlamesConditions (projectedFields fields) := by
  unfold TableQuery.projectedFields
  exact (mapM (fun field => (checkFieldName (bareName field)).bind
    fun _ => ok _) fields).bind fun names => ok _

theorem listIndex (field : String) (index : Int64) :
    BlamesConditions (listIndex field index) := by
  unfold TableQuery.listIndex
  split <;> simp [CompileError.isInternal]

theorem requireValue (field : String) (entry : Option EditEntry) :
    BlamesConditions (requireValue field entry) := by
  unfold TableQuery.requireValue
  split
  · split <;> simp [CompileError.isInternal]
  · simp [CompileError.isInternal]

theorem resolveAssignment (field : String) (edit : Edit) (value : Json) :
    BlamesConditions (resolveAssignment field edit value) := by
  unfold TableQuery.resolveAssignment
  split
  · split <;> exact ok _
  split
  · exact (listIndex field _).bind fun _ => ok _
  split
  · exact (listIndex field _).bind fun _ => ok _
  · exact ok _

theorem resolveUpdate
    (config : Config)
    (entries : List (String × Option EditEntry)) :
    BlamesConditions (resolveUpdate config entries) := by
  induction entries with
  | nil => exact ok []
  | cons entry entries hypothesis =>
      obtain ⟨field, entry⟩ := entry
      rw [TableQuery.resolveUpdate]
      split
      · exact hypothesis
      refine (checkFieldName field).bind fun _ => ?_
      split
      · exact hypothesis
      · exact (requireValue field entry).bind fun required =>
          (resolveAssignment field required.1 required.2).bind fun assignment =>
            hypothesis.bind fun others => ok _

theorem resolveRemoval (field : String) (entry : Option EditEntry) :
    BlamesConditions (resolveRemoval field entry) := by
  unfold TableQuery.resolveRemoval
  split
  · exact (listIndex field _).bind fun _ => ok _
  · exact ok _

theorem resolveRemove (entries : List (String × Option EditEntry)) :
    BlamesConditions (resolveRemove entries) := by
  induction entries with
  | nil => exact ok []
  | cons entry entries hypothesis =>
      obtain ⟨field, entry⟩ := entry
      rw [TableQuery.resolveRemove]
      split
      · exact hypothesis
      · exact (checkFieldName field).bind fun _ =>
          (resolveRemoval field entry).bind fun removal =>
            hypothesis.bind fun others => ok _

theorem checkPlaceholders (found : List (String × Assignment)) :
    BlamesConditions (checkPlaceholders found) := by
  unfold TableQuery.checkPlaceholders
  split
  · split <;> simp [CompileError.isInternal]
  · exact ok ()

theorem assignments (config : Config) (conditions : Conditions) :
    BlamesConditions (assignments config conditions) := by
  unfold TableQuery.assignments
  split
  · split <;> simp [CompileError.isInternal]
  · refine (resolveUpdate config _).bind fun found => ?_
    split
    · simp [CompileError.isInternal]
    · exact (checkPlaceholders found).bind fun _ => ok _

theorem removals (conditions : Conditions) :
    BlamesConditions (removals conditions) := by
  unfold TableQuery.removals
  split
  · exact ok none
  · refine (resolveRemove _).bind fun found => ?_
    split
    · simp [CompileError.isInternal]
    · exact ok _

theorem assemble (conditions : Conditions) (config : Config) :
    BlamesConditions
      ((assemble conditions config).mapError Failure.cause) := by
  unfold TableQuery.assemble
  rw [mapError_bind, mapError_cause_run]
  refine (target conditions).bind fun target => ?_
  cases target.operation with
  | scan =>
      simp only [mapError_bind, mapError_cause_run]
      exact (ofCriteria .scan _).bind fun selection =>
        (projectedFields _).bind fun projected => ok _
  | query =>
      simp only [mapError_bind, mapError_cause_run]
      exact (ofKeyedCriteria .query _).bind fun parts =>
        (projectedFields _).bind fun projected => ok _
  | update =>
      simp only [mapError_bind, mapError_cause_run]
      exact (ofKeyedCriteria .update _).bind fun parts =>
        (assignments config conditions).bind fun written =>
          (removals conditions).bind fun removed => ok _

end BlamesConditions

/-! ## Whole compilations -/

theorem stage_of_run_eq_error
    {stage : Stage}
    {step : Except CompileError α}
    {failure : Failure}
    (failed : stage.run step = .error failure) : failure.stage = stage := by
  cases step with
  | ok value => cases failed
  | error cause =>
      cases failed
      rfl

/-- Assembly fails while the conditions are read, not while fragments are put
together. -/
theorem stage_of_assemble_eq_error
    {conditions : Conditions}
    {config : Config}
    {failure : Failure}
    (failed : assemble conditions config = .error failure) :
    failure.stage ∈ [Stage.validation, .criteria, .assignments, .removals,
      .projection] := by
  unfold assemble at failed
  rw [bind_eq_error_iff] at failed
  rcases failed with first | ⟨target, _, rest⟩
  · simp [stage_of_run_eq_error first]
  cases operation : target.operation with
  | scan =>
      simp only [operation, bind_eq_error_iff, reduceCtorEq, and_false,
        exists_false, or_false] at rest
      rcases rest with second | ⟨_, _, third⟩
      · simp [stage_of_run_eq_error second]
      · simp [stage_of_run_eq_error third]
  | query =>
      simp only [operation, bind_eq_error_iff, reduceCtorEq, and_false,
        exists_false, or_false] at rest
      rcases rest with second | ⟨_, _, third⟩
      · simp [stage_of_run_eq_error second]
      · simp [stage_of_run_eq_error third]
  | update =>
      simp only [operation, bind_eq_error_iff, reduceCtorEq, and_false,
        exists_false, or_false] at rest
      rcases rest with second | ⟨_, _, third | ⟨_, _, fourth⟩⟩
      · simp [stage_of_run_eq_error second]
      · simp [stage_of_run_eq_error third]
      · simp [stage_of_run_eq_error fourth]

/-- What is compiled passes the check at the end. -/
theorem closed_of_compileStaged
    {conditions : Conditions}
    {config : Config}
    {expression : Expression}
    (compiled : compileStaged conditions config = .ok expression) :
    expression.Closed := by
  rw [← Expression.verify_eq_ok_iff]
  unfold compileStaged compileScan compileQuery compileUpdate at compiled
  obtain ⟨target, _, rest⟩ := bind_eq_ok_iff.1 compiled
  split at rest <;> simp only [bind_eq_ok_iff, Stage.run_eq_ok_iff] at rest
  · obtain ⟨_, _, _, _, _, verified, same⟩ := rest
    exact Except.ok.inj same ▸ verified
  · obtain ⟨_, _, _, _, _, verified, same⟩ := rest
    exact Except.ok.inj same ▸ verified
  · obtain ⟨_, _, _, _, _, _, _, _, _, verified, same⟩ := rest
    exact Except.ok.inj same ▸ verified

/-- Aliases are made of the names that they stand for. -/
theorem Compiles.eq_aliasOf
    {conditions : Conditions}
    {config : Config}
    {expression : Expression}
    (compiles : Compiles conditions config expression)
    {entry : String × String}
    (member : entry ∈ expression.names.entries) :
    entry.1 = aliasOf entry.2 := by
  cases compiles <;> exact eq_aliasOf_of_mem_aliases member

/-- No compilation ends with an error that blames the compiler, none fails at
the stages that combine or check fragments, and in everything that is compiled
tokens and definitions are the same. -/
theorem compile_consistent (conditions : Conditions) (config : Config) :
    (∀ cause, compile conditions config = .error cause →
      cause.isInternal = false) ∧
    (∀ failure, compileStaged conditions config = .error failure →
      failure.stage ≠ .update ∧ failure.stage ≠ .references) ∧
    ∀ expression, compile conditions config = .ok expression →
      expression.Closed ∧
        ∀ entry ∈ expression.names.entries, entry.1 = aliasOf entry.2 := by
  refine ⟨?_, ?_, ?_⟩
  · rw [compile_eq_mapError_assemble]
    exact BlamesConditions.assemble conditions config
  · intro failure failed
    rw [compileStaged_eq_assemble] at failed
    have stage := stage_of_assemble_eq_error failed
    constructor <;> intro same <;> rw [same] at stage <;>
      exact absurd stage (by decide)
  · intro expression compiled
    have compiles := (compile_eq_ok_iff _ _ _).1 compiled
    have staged : compileStaged conditions config = .ok expression := by
      rw [compileStaged_eq_assemble]
      exact (assemble_eq_ok_iff _ _ _).2 compiles
    exact ⟨closed_of_compileStaged staged, fun _ => compiles.eq_aliasOf⟩

/-- A query by a key and a filter. -/
def filteredQuery : Conditions :=
  Conditions.start "Orders" .query
    |>.withCriterion "id" (.ofPrimary (.string "a"))
    |>.withCriterion "open" (.ofEqual (.bool true))

theorem compile_consistent_filteredQuery :
    (∃ expression, compile filteredQuery .default = .ok expression ∧
      expression.Closed) ∧
    compile (Conditions.start "Orders" .query) .default =
      .error .missingPrimaryKey ∧
    CompileError.missingPrimaryKey.isInternal = false := by
  refine ⟨⟨_, rfl, ?_⟩, rfl, ?_⟩
  · exact ((compile_consistent filteredQuery .default).2.2 _ rfl).1
  · exact (compile_consistent (Conditions.start "Orders" .query) .default).1
      .missingPrimaryKey rfl

end TableQuery
