import TableQuery.Compile.Edits
import TableQuery.Compile.Selection
import TableQuery.Compile.Stage
import TableQuery.Conditions.Format

/-!
# Compiling conditions

Conditions become the expression of their operation. A query and a scan select
and project; an update addresses one item by its primary key and edits its
fields. At last every compiled expression is checked for tokens that stand for
nothing and for definitions that nothing uses.
-/

namespace TableQuery

/-- What every compilation needs. -/
structure Target where
  /-- The table. -/
  tableName : String
  /-- The criteria. -/
  criteria : FieldMap Criterion
  /-- The operation. -/
  operation : Operation

/-- The parts of conditions that must not be missing. -/
def Conditions.target (conditions : Conditions) :
    Except CompileError Target := do
  let tableName ← match conditions.tableName with
    | none => .error .missingTableName
    | some tableName =>
        if tableName.isEmpty then .error .missingTableName else .ok tableName
  let criteria ← match conditions.criteria with
    | none => .error .missingCriteria
    | some criteria => .ok criteria
  let operation ← match conditions.operation with
    | none => .error .missingOperation
    | some operation => .ok operation
  .ok ⟨tableName, criteria, operation⟩

/-- The clauses joined by a separator, if there are any. -/
def joined (separator : String) (clauses : List String) : Option String :=
  if clauses.isEmpty then none else some (separator.intercalate clauses)

/-- The aliases of fields. -/
def aliases (fields : List String) : SortedMap String :=
  .ofList (fields.map fun field => (aliasOf field, field))

/-- The placeholders of the values of fields. -/
def placeholders (values : List (String × Json)) : SortedMap Json :=
  .ofList (values.map fun (field, value) => (placeholderOf field, value))

/-! ## Queries and scans -/

/-- The expression that selects by an optional primary key and by filters, and
returns the projected fields. -/
def readExpression
    (target : Target)
    (startKey : Option (FieldMap Json))
    (primary : Option (String × Json))
    (filters : List (String × Json))
    (projected : List String) : Expression :=
  let selected := primary.toList ++ filters
  { Expression.ofTable target.tableName with
    keyCondition := primary.map fun entry => equality entry.1
    filter := joined " and " (filters.map fun entry => equality entry.1)
    projection := joined ", " (projected.map aliasOf)
    names := aliases (Members.names selected ++ projected)
    values := placeholders selected
    startKey := .ofList ((startKey.map FieldMap.entries).getD []) }

/-- Compile for a scan. -/
def compileScan (target : Target) (conditions : Conditions) :
    Except Failure Expression := do
  let selection ← Stage.criteria.run
    (Selection.ofCriteria .scan target.criteria)
  let projected ← Stage.projection.run
    (projectedFields (conditions.fields.getD []))
  let expression := readExpression target conditions.lastEvaluatedKey none
    selection.filters projected
  Stage.references.run expression.verify
  .ok expression

/-- Compile for a query. -/
def compileQuery (target : Target) (conditions : Conditions) :
    Except Failure Expression := do
  let (primary, filters) ← Stage.criteria.run
    (Selection.ofKeyedCriteria .query target.criteria)
  let projected ← Stage.projection.run
    (projectedFields (conditions.fields.getD []))
  let expression := readExpression target conditions.lastEvaluatedKey
    (some primary) filters projected
  Stage.references.run expression.verify
  .ok expression

/-! ## Updates -/

/-- The part that writes fields. -/
def setFragment (assignments : List (String × Assignment)) : Option String :=
  (joined ", " (assignments.map fun (field, assignment) =>
    assignment.clause field)).map ("SET " ++ ·)

/-- The part that removes fields. -/
def removeFragment (removals : List (String × Removal)) : Option String :=
  (joined ", " (removals.map fun (field, removal) =>
    removal.clause field)).map ("REMOVE " ++ ·)

/-- Both parts of an update, of which one at least has to be there. -/
def updateFragment
    (assignments : List (String × Assignment))
    (removals : List (String × Removal)) : Except CompileError String :=
  match joined " " ((setFragment assignments).toList
      ++ (removeFragment removals).toList) with
  | some fragment => .ok fragment
  | none => .error .missingUpdateFragments

/-- The expression that edits the item with a key. -/
def writeExpression
    (target : Target)
    (returnValues : Option ReturnValues)
    (primary : String × Json)
    (assignments : List (String × Assignment))
    (removals : List (String × Removal))
    (fragment : String) : Expression :=
  { Expression.ofTable target.tableName with
    key := .ofList [primary]
    update := some fragment
    names := aliases (Members.names assignments ++ Members.names removals)
    values := .ofList (assignments.flatMap fun (field, assignment) =>
      assignment.bindings field)
    returnValues := returnValues }

/-- Compile for an update. -/
def compileUpdate
    (config : Config)
    (target : Target)
    (conditions : Conditions) : Except Failure Expression := do
  let (primary, _) ← Stage.criteria.run
    (Selection.ofKeyedCriteria .update target.criteria)
  let written ← Stage.assignments.run (assignments config conditions)
  let removed ← Stage.removals.run (removals conditions)
  let written := written.getD []
  let removed := removed.getD []
  let fragment ← Stage.update.run (updateFragment written removed)
  let expression := writeExpression target conditions.returnValues primary
    written removed fragment
  Stage.references.run expression.verify
  .ok expression

/-! ## All operations -/

/-- Compile conditions; a failure tells the stage at which it arises. -/
def compileStaged (conditions : Conditions) (config : Config) :
    Except Failure Expression := do
  let target ← Stage.validation.run conditions.target
  match target.operation with
  | .scan => compileScan target conditions
  | .query => compileQuery target conditions
  | .update => compileUpdate config target conditions

/-- Compile conditions. -/
def compile (conditions : Conditions) (config : Config) :
    Except CompileError Expression :=
  (compileStaged conditions config).mapError Failure.cause

/-- The stages that the compilation of conditions starts. -/
def stagesStarted (conditions : Conditions) (config : Config) : List Stage :=
  Stage.started conditions.operation (compileStaged conditions config)

namespace Conditions

/-- Read conditions from a value. Null means that there are none. -/
def ofJson (value : Json) : Except CompileError Conditions :=
  if value.isNull then .error .missingConditions
  else (decoder.ofJson value).mapError fun mismatch =>
    .invalidConditions (.mismatch mismatch)

/-- Read conditions from a text, which is read as a value first. A blank text
means that there are none. -/
def ofText (text : String) : Except CompileError Conditions :=
  if Text.isBlankText text then .error .missingConditions
  else
    match Json.parse text with
    | .ok value => ofJson value
    | .error defect => .error (.invalidConditions (.defect defect))

end Conditions

/-- Compile conditions in the form of a value. -/
def compileJson (value : Json) (config : Config) :
    Except CompileError Expression := do
  compile (← Conditions.ofJson value) config

/-- Compile conditions in the form of a text. -/
def compileText (text : String) (config : Config) :
    Except CompileError Expression := do
  compile (← Conditions.ofText text) config

end TableQuery
