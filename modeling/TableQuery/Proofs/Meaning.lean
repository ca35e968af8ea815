import TableQuery.Proofs.Resolution

/-!
# What an expression means

An expression can be read back as a whole: which items it selects and what it
does with them. What is read back from a compiled expression is what its
conditions ask for.
-/

namespace TableQuery

/-- What an expression asks for. -/
inductive Meaning
  /-- Return fields of the items that have a primary key, if one is given, and
  pass the filters. -/
  | read
      (tableName : String)
      (primary : Option (String × Json))
      (filters : List (String × Json))
      (projected : List String)
      (startKey : SortedMap Json)
  /-- Edit the item with a key. -/
  | write
      (tableName : String)
      (key : SortedMap Json)
      (written : List (String × Assignment))
      (removed : List (String × Removal))
      (returnValues : Option ReturnValues)

namespace Expression

/-- Read a key condition. -/
def readKey (expression : Expression) :
    Option String → Option (Option (String × Json))
  | none => some none
  | some condition => do
      let primary ← Reader.whole expression.readEquality condition.toList
      some (some primary)

/-- Read an expression. -/
def meaning (expression : Expression) : Option Meaning :=
  match expression.update with
  | some text => do
      let (written, removed) ← expression.readUpdate text.toList
      some (.write expression.tableName expression.key written removed
        expression.returnValues)
  | none => do
      let primary ← expression.readKey expression.keyCondition
      let filters ←
        readJoined " and " expression.readEquality expression.filter
      let projected ←
        readJoined ", " expression.readField expression.projection
      some (.read expression.tableName primary filters projected
        expression.startKey)

variable {expression : Expression}

theorem meaning_eq_write
    {written : List (String × Assignment)}
    {removed : List (String × Removal)}
    (update : expression.update = some (updateText written removed))
    (binds : ∀ entry ∈ written, expression.Binds entry.1 entry.2.value ∧
      expression.BindsStart entry.2)
    (names : ∀ entry ∈ removed, expression.Names entry.1)
    (nonempty : written ≠ [] ∨ removed ≠ []) :
    expression.meaning = some (.write expression.tableName expression.key
      written removed expression.returnValues) := by
  have updateRead := readUpdate_updateText binds names nonempty
  simp only [meaning, update, updateRead, Option.bind_eq_bind, Option.bind_some]

end Expression

/-! ## Compiled expressions -/

theorem meaning_writeExpression
    {config : Config}
    {update remove : Option EditMap}
    {target : Target}
    {returnValues : Option ReturnValues}
    {key : String × Json}
    {written : List (String × Assignment)}
    {removed : List (String × Removal)}
    (writes : WrittenSection config update written)
    (removes : RemovedSection remove removed)
    (nonempty : written ≠ [] ∨ removed ≠ []) :
    (writeExpression target returnValues key written removed
        (updateText written removed)).meaning =
      some (.write target.tableName (.ofList [key]) written removed
        returnValues) :=
  Expression.meaning_eq_write rfl
    (fun _ member => binds_writeExpression _ _ _ _ _ writes.valid
      writes.distinct writes.unclaimed member)
    (fun _ member => names_writeExpression _ _ _ _ _ removes.valid member)
    nonempty

/-! ## Conditions -/

namespace Conditions

/-- The primary keys among the criteria. -/
def primaryKeys (conditions : Conditions) : List (String × Json) :=
  match conditions.operation, conditions.criteria with
  | some operation, some criteria => Selection.keys operation criteria.entries
  | _, _ => []

/-- The filters among the criteria. -/
def filters (conditions : Conditions) : List (String × Json) :=
  match conditions.operation, conditions.criteria with
  | some operation, some criteria =>
      Selection.filtersOf operation criteria.entries
  | _, _ => []

/-- The fields to return by their bare names, each of them once. -/
def projection (conditions : Conditions) : List String :=
  ((conditions.fields.getD []).map bareName).eraseDups

/-- The value of a field in the key behind which to go on. -/
def startValue? (conditions : Conditions) (field : String) : Option Json :=
  conditions.lastEvaluatedKey.bind fun key => key.get? field

/-- Conditions ask for items to be returned. -/
structure Reads
    (conditions : Conditions)
    (tableName : String)
    (primary : Option (String × Json))
    (filters : List (String × Json))
    (projected : List String)
    (startKey : SortedMap Json) : Prop where
  /-- The operation tells whether there is a primary key. -/
  operation : conditions.operation =
    some (if primary.isSome then .query else .scan)
  /-- The table. -/
  tableName : conditions.tableName = some tableName
  /-- The primary key, if there is one. -/
  primary : conditions.primaryKeys = primary.toList
  /-- The filters in order. -/
  filters : conditions.filters = filters
  /-- The projected fields in order. -/
  projected : conditions.projection = projected
  /-- The key behind which to go on. -/
  startKey : ∀ field, conditions.startValue? field = startKey.get? field

end Conditions

variable {conditions : Conditions} {config : Config} {target : Target}

end TableQuery
