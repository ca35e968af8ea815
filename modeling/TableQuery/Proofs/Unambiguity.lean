import TableQuery.Proofs.Meaning

/-!
# Compilation is unambiguous

An expression has one meaning, and its conditions ask for that. Conditions that
compile to the same expression therefore ask for the same, whatever else they
hold and whatever configurations they are compiled with.
-/

namespace TableQuery

/-- Conditions that are the same as far as their operation looks at them. -/
structure Conditions.Agrees
    (left : Conditions)
    (leftConfig : Config)
    (right : Conditions)
    (rightConfig : Config) : Prop where
  /-- The operation. -/
  operation : left.operation = right.operation
  /-- The table. -/
  tableName : left.tableName = right.tableName
  /-- The primary key and its value. -/
  primary : left.operation ≠ some .scan →
    ∃ primary, left.primaryKeys = [primary] ∧ right.primaryKeys = [primary]
  /-- The filters and their values in order. -/
  filters : left.operation ≠ some .update → left.filters = right.filters
  /-- The projected fields in order. -/
  projected : left.operation ≠ some .update →
    left.projection = right.projection
  /-- The key behind which to go on. -/
  startKey : left.operation ≠ some .update →
    ∀ field, left.startValue? field = right.startValue? field
  /-- What is written, in order. -/
  written : left.operation = some .update →
    ∃ written, assignments leftConfig left = .ok written ∧
      assignments rightConfig right = .ok written
  /-- What is removed, in order. -/
  removed : left.operation = some .update →
    ∃ removed, removals left = .ok removed ∧ removals right = .ok removed
  /-- The attributes that a write returns. -/
  returnValues : left.operation = some .update →
    left.returnValues = right.returnValues

end TableQuery
