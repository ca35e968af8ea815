import TableQuery.Conditions
import TableQuery.Json.Record

/-!
# The written form of conditions

Conditions are written as an object, from which parts that are not there are
left out. Reading ignores members with other names; only edits refuse them.
-/

namespace TableQuery

open Json

namespace Criterion

/-- Criteria are read from values of any shape. -/
def decoder : Decoder Criterion := Decoder.json.map ofDocument

end Criterion

namespace Edit

/-- The fields of an edit. -/
def record : Record Edit where
  name := "EditDescriptor"
  blank := empty
  sealed := true
  fields := [
    .of "value" .defaulted Decoder.json.option
      fun value edit => { edit with value := value },
    .of "index" .defaulted Decoder.int64.option
      fun index edit => { edit with index := index },
    .of "append" .defaulted Decoder.bool
      fun append edit => { edit with append := append }]

/-- The decoder of edits. -/
def decoder : Decoder Edit := record.decoder

/-- The written form of an edit. -/
def toJson (edit : Edit) : Json :=
  .object <|
    optionalMember "value" edit.value
    ++ optionalMember "index"
      (edit.index.map fun index => .number (.ofInt64 index))
    ++ if edit.append then [("append", .bool true)] else []

end Edit

namespace EditEntry

/-- Objects are described edits, all other values stand for themselves. -/
def ofJson : Json → Except Mismatch EditEntry
  | .object members => do
      .ok (.described (← Edit.decoder.ofJson (.object members)))
  | value => .ok (.raw value)

/-- The decoder of entries. A text is read as a value first. -/
def decoder : Decoder EditEntry where
  ofJson := ofJson
  ofDraft depth draft := do
    let value ← Defect.raise (draft.toJson depth)
    Mismatch.raise (ofJson value)

/-- The written form of an entry. -/
def toJson : EditEntry → Json
  | .described edit => edit.toJson
  | .raw value => value

end EditEntry

/-- What messages say was expected of maps from field names. -/
def fieldMapExpectation : String := "an object keyed by field name"

namespace EditMap

/-- The decoder of edits by field. -/
def decoder : Decoder EditMap :=
  .fieldMap fieldMapExpectation EditEntry.decoder.option

/-- The written form of edits by field. -/
def toJson (map : EditMap) : Json :=
  .object <| map.entries.map fun (name, entry) =>
    (name, (entry.map EditEntry.toJson).getD .null)

end EditMap

namespace Conditions

/-- The fields of conditions. -/
def record : Record Conditions where
  name := "QueryConditions"
  blank := empty
  fields := [
    .of "tableName" .defaulted Decoder.string.option
      fun value conditions => { conditions with tableName := value },
    .of "where" .defaulted
      (Decoder.fieldMap fieldMapExpectation Criterion.decoder).option
      fun value conditions => { conditions with criteria := value },
    .of "update" .defaulted EditMap.decoder.option
      fun value conditions => { conditions with update := value },
    .of "remove" .defaulted EditMap.decoder.option
      fun value conditions => { conditions with remove := value },
    .of "fields" .defaulted Decoder.string.list.option
      fun value conditions => { conditions with fields := value },
    .of "operation" .defaulted Operation.decoder.option
      fun value conditions => { conditions with operation := value },
    .of "returnValues" .defaulted ReturnValues.decoder.option
      fun value conditions => { conditions with returnValues := value },
    .of "lastEvaluatedKey" .defaulted
      (Decoder.fieldMap "a map" Decoder.json).option
      fun value conditions => { conditions with lastEvaluatedKey := value }]

/-- The decoder of conditions. -/
def decoder : Decoder Conditions := record.decoder

/-- The written form of criteria. -/
def criteriaJson (criteria : FieldMap Criterion) : Json :=
  .object <| criteria.entries.map fun (name, criterion) =>
    (name, criterion.toJson)

/-- The written form of conditions. -/
def toJson (conditions : Conditions) : Json :=
  .object <|
    optionalMember "tableName" (conditions.tableName.map .string)
    ++ optionalMember "where" (conditions.criteria.map criteriaJson)
    ++ optionalMember "update" (conditions.update.map EditMap.toJson)
    ++ optionalMember "remove" (conditions.remove.map EditMap.toJson)
    ++ optionalMember "fields"
      (conditions.fields.map fun fields => .array (fields.map .string))
    ++ optionalMember "operation" (conditions.operation.map Operation.toJson)
    ++ optionalMember "returnValues"
      (conditions.returnValues.map ReturnValues.toJson)
    ++ optionalMember "lastEvaluatedKey"
      (conditions.lastEvaluatedKey.map Json.ofMap)

end Conditions

end TableQuery
