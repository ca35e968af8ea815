import TableQuery.Compile.Clause
import TableQuery.Conditions

/-!
# Selections

Criteria are split into the primary key and the filters. Scans know no primary
key and treat every criterion as a filter; other operations need exactly one.

Two names are logical operators and no fields: one of them is implied and
skipped, the other one is refused.
-/

namespace TableQuery

/-- Criteria, split by their use. -/
structure Selection where
  /-- The primary key and its value. -/
  primary : Option (String × Json)
  /-- The other fields and their values in order. -/
  filters : List (String × Json)
  deriving DecidableEq, Inhabited

namespace Selection

/-- The operator that joins filters anyway. -/
def impliedOperator : String := "and"

/-- The operator that cannot be compiled. -/
def refusedOperator : String := "or"

/-- The selection without criteria. -/
def empty : Selection := ⟨none, []⟩

/-- Add one criterion. The primary key of an update never becomes part of a
clause and may have any name. -/
def add
    (operation : Operation)
    (selection : Selection)
    (entry : String × Criterion) : Except CompileError Selection :=
  let (field, criterion) := entry
  if field = impliedOperator then .ok selection
  else if field = refusedOperator then .error (.unsupportedOperator field)
  else if operation ≠ .scan ∧ criterion.isPrimary then
    match selection.primary with
    | some (first, _) => .error (.multiplePrimaryKeys first field)
    | none => do
        if operation = .query then checkFieldName field
        .ok { selection with primary := some (field, criterion.value) }
  else do
    checkFieldName field
    .ok { selection with
      filters := selection.filters ++ [(field, criterion.value)] }

/-- Split criteria. -/
def ofCriteria (operation : Operation) (criteria : FieldMap Criterion) :
    Except CompileError Selection :=
  criteria.entries.foldlM (add operation) empty

/-- The primary key, which has to be there. -/
def requirePrimary (selection : Selection) :
    Except CompileError (String × Json) :=
  match selection.primary with
  | some primary => .ok primary
  | none => .error .missingPrimaryKey

/-- Split criteria of which one is the primary key. -/
def ofKeyedCriteria (operation : Operation) (criteria : FieldMap Criterion) :
    Except CompileError ((String × Json) × List (String × Json)) := do
  let selection ← ofCriteria operation criteria
  let primary ← selection.requirePrimary
  .ok (primary, selection.filters)

end Selection

/-- The name of a projected field, which may be given by its alias. -/
def bareName (field : String) : String :=
  match field.toList with
  | '#' :: rest => String.ofList rest
  | _ => field

/-- The projected fields in order, each of them once. -/
def projectedFields (fields : List String) :
    Except CompileError (List String) := do
  let names ← fields.mapM fun field => do
    checkFieldName (bareName field)
    .ok (bareName field)
  .ok names.eraseDups

end TableQuery
