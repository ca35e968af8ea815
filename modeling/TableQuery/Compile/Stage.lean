import TableQuery.Expression.Error
import TableQuery.Operation

/-!
# Stages of compilation

Compilation goes through the stages of its operation in a fixed order and stops
at the first failure. A failure knows the stage at which it arises.
-/

namespace TableQuery

/-- A step of compilation. -/
inductive Stage
  | validation
  | table
  | startKey
  | criteria
  | assignments
  | removals
  | keyCondition
  | itemKey
  | filter
  | names
  | values
  | projection
  | setFragment
  | removeFragment
  | update
  | returnValues
  | references
  deriving DecidableEq

namespace Stage

/-- The name of a stage in traces. -/
def name : Stage → String
  | validation => "validate_conditions"
  | table => "add_table_name"
  | startKey => "add_pagination_key"
  | criteria => "classify_where"
  | assignments => "classify_update_edits"
  | removals => "classify_remove_edits"
  | keyCondition => "build_key_condition_expression"
  | itemKey => "build_update_key_expression"
  | filter => "build_filter_expression"
  | names => "build_attribute_names"
  | values => "build_attribute_values"
  | projection => "build_projection_expression"
  | setFragment => "build_set_expression"
  | removeFragment => "build_remove_expression"
  | update => "combine_update_expressions"
  | returnValues => "add_return_values"
  | references => "check_references"

/-- The stages of an operation in order. Without one, validation is all. -/
def sequence : Option Operation → List Stage
  | none => [validation]
  | some .scan =>
      [validation, table, startKey, criteria, filter, names, values,
        projection, references]
  | some .query =>
      [validation, table, startKey, criteria, keyCondition, filter, names,
        values, projection, references]
  | some .update =>
      [validation, table, criteria, assignments, removals, itemKey, names,
        values, setFragment, removeFragment, update, returnValues, references]

end Stage

/-- An error and the stage at which it arises. -/
structure Failure where
  /-- The stage. -/
  stage : Stage
  /-- The error. -/
  cause : CompileError
  deriving DecidableEq

/-- Do something as part of a stage. -/
def Stage.run {α : Type} (stage : Stage) :
    Except CompileError α → Except Failure α
  | .ok value => .ok value
  | .error cause => .error ⟨stage, cause⟩

@[simp] theorem Stage.run_ok {α : Type} (stage : Stage) (value : α) :
    stage.run (.ok value) = .ok value := rfl

@[simp] theorem Stage.run_error {α : Type}
    (stage : Stage)
    (cause : CompileError) :
    (stage.run (.error cause) : Except Failure α) = .error ⟨stage, cause⟩ := rfl

/-- The stages that were started: all of them, or those up to the failure. -/
def Stage.started {α : Type} (operation : Option Operation) :
    Except Failure α → List Stage
  | .ok _ => sequence operation
  | .error failure =>
      (sequence operation).takeWhile (· ≠ failure.stage) ++ [failure.stage]

end TableQuery
