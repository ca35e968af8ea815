import TableQuery.Operation

/-!
# Conditions

Conditions say which items of a table are meant and what to do with them,
independently of any schema and of the expression grammar of the table service.
All parts are optional here; the compiler reports which one is missing.
-/

namespace TableQuery

/-- One equality that an item has to satisfy. -/
inductive Criterion
  /-- A value alone. -/
  | plain (value : Json)
  /-- A value with a mark that tells whether the field is the primary key. -/
  | keyed (primary : Bool) (value : Json)
  deriving DecidableEq

namespace Criterion

/-- The criterion of a primary key. -/
def ofPrimary (value : Json) : Criterion := .keyed true value

/-- The criterion of another field. -/
def ofEqual (value : Json) : Criterion := .keyed false value

/-- Whether the field is marked as the primary key. -/
def isPrimary : Criterion → Bool
  | .keyed true _ => true
  | _ => false

/-- The value that the field has to equal. -/
def value : Criterion → Json
  | .plain value => value
  | .keyed _ value => value

@[simp] theorem value_plain (value : Json) : (plain value).value = value := rfl

@[simp] theorem value_keyed (primary : Bool) (value : Json) :
    (keyed primary value).value = value := rfl

/-- The names of the members of a keyed criterion. -/
def isKeyedName (name : String) : Bool := name == "value" || name == "primary"

/-- Classify a document: an object that has a value, possibly a boolean mark,
and nothing else is keyed; everything else is a value alone. -/
def ofDocument : Json → Criterion
  | .object members =>
      if members.all fun member => isKeyedName member.1 then
        match members.lookup "value", members.lookup "primary" with
        | some value, none => .keyed false value
        | some value, some (.bool primary) => .keyed primary value
        | _, _ => .plain (.object members)
      else .plain (.object members)
  | value => .plain value

/-- The written form. The mark is written only if it is set. -/
def toJson : Criterion → Json
  | .plain value => value
  | .keyed true value => .object [("primary", .bool true), ("value", value)]
  | .keyed false value => .object [("value", value)]

end Criterion

/-- How to change one field. -/
structure Edit where
  /-- The value to write. -/
  value : Option Json
  /-- The position of a list item to write or remove. -/
  index : Option Int64
  /-- Whether to append the value to a list. -/
  append : Bool
  deriving DecidableEq, Inhabited

namespace Edit

/-- The edit that says nothing. -/
def empty : Edit := ⟨none, none, false⟩

/-- Write a value. -/
def set (value : Json) : Edit := { empty with value := some value }

/-- Append items to a list. -/
def appending (items : List Json) : Edit :=
  { empty with value := some (.array items), append := true }

/-- Write a value to a position of a list. -/
def setAt (index : Int64) (value : Json) : Edit :=
  { empty with value := some value, index := some index }

/-- Mean one position of a list. -/
def position (index : Int64) : Edit := { empty with index := some index }

end Edit

/-- An edit as written: a described one or a value alone. -/
inductive EditEntry
  | described (edit : Edit)
  | raw (value : Json)
  deriving DecidableEq

namespace EditEntry

/-- The value that the entry carries, if any. -/
def value? : EditEntry → Option Json
  | .described edit => edit.value
  | .raw value => some value

/-- The described edit, if it is one. -/
def edit? : EditEntry → Option Edit
  | .described edit => some edit
  | .raw _ => none

end EditEntry

/-- Edits by field; without an entry the whole field is meant. -/
abbrev EditMap := FieldMap (Option EditEntry)

/-- What to read or change. -/
structure Conditions where
  /-- The table. -/
  tableName : Option String
  /-- The equalities that an item has to satisfy. -/
  criteria : Option (FieldMap Criterion)
  /-- The fields to write. -/
  update : Option EditMap
  /-- The fields to remove. -/
  remove : Option EditMap
  /-- The fields to return. -/
  fields : Option (List String)
  /-- The operation to compile for. -/
  operation : Option Operation
  /-- The attributes that a write returns. -/
  returnValues : Option ReturnValues
  /-- The key behind which to go on. -/
  lastEvaluatedKey : Option (FieldMap Json)
  deriving DecidableEq, Inhabited

namespace Conditions

/-- The conditions that say nothing. -/
def empty : Conditions := ⟨none, none, none, none, none, none, none, none⟩

/-- Conditions for an operation on a table, without any criterion. -/
def start (tableName : String) (operation : Operation) : Conditions :=
  { empty with
    tableName := some tableName
    criteria := some .empty
    operation := some operation }

/-- Add a criterion. -/
def withCriterion
    (conditions : Conditions)
    (field : String)
    (criterion : Criterion) : Conditions :=
  let criteria := conditions.criteria.getD .empty
  { conditions with criteria := some (criteria.insert field criterion) }

/-- Add a field to write. -/
def withUpdate
    (conditions : Conditions)
    (field : String)
    (edit : Edit) : Conditions :=
  let update := conditions.update.getD .empty
  { conditions with
    update := some (update.insert field (some (.described edit))) }

/-- Add a field to remove, as a whole if there is no edit. -/
def withRemove
    (conditions : Conditions)
    (field : String)
    (edit : Option Edit) : Conditions :=
  let remove := conditions.remove.getD .empty
  { conditions with
    remove := some (remove.insert field (edit.map .described)) }

/-- Set the fields to return. -/
def withFields (conditions : Conditions) (fields : List String) : Conditions :=
  { conditions with fields := some fields }

/-- Set the attributes that a write returns. -/
def withReturnValues
    (conditions : Conditions)
    (returnValues : ReturnValues) : Conditions :=
  { conditions with returnValues := some returnValues }

/-- Go on behind a key. -/
def withLastEvaluatedKey
    (conditions : Conditions)
    (key : FieldMap Json) : Conditions :=
  { conditions with lastEvaluatedKey := some key }

end Conditions

end TableQuery
