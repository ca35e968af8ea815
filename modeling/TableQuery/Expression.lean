import TableQuery.Operation
import TableQuery.SortedMap

/-!
# Compiled expressions

An expression holds the fragments of one request in the grammar of the table
service. Fragments name fields by aliases such as `#id` and values by
placeholders such as `:id`; two maps say what these stand for.
-/

namespace TableQuery

/-- The fragments of one request and what their tokens stand for. -/
structure Expression where
  /-- The table. -/
  tableName : String
  /-- The condition on the primary key of a query. -/
  keyCondition : Option String
  /-- The equalities that items have to satisfy. -/
  filter : Option String
  /-- The fields to return. -/
  projection : Option String
  /-- The key of the item to change. -/
  key : SortedMap Json
  /-- The changes of an item. -/
  update : Option String
  /-- The field behind each alias. -/
  names : SortedMap String
  /-- The value behind each placeholder. -/
  values : SortedMap Json
  /-- The attributes that a write returns. -/
  returnValues : Option ReturnValues
  /-- The key behind which to go on. -/
  startKey : SortedMap Json
  deriving DecidableEq, Inhabited

namespace Expression

/-- The expression without fragments for a table. -/
def ofTable (tableName : String) : Expression :=
  ⟨tableName, none, none, none, .empty, none, .empty, .empty, none, .empty⟩

/-- The fragments that are there. -/
def fragments (expression : Expression) : List String :=
  [expression.keyCondition, expression.filter, expression.projection,
    expression.update].filterMap id

end Expression

end TableQuery
