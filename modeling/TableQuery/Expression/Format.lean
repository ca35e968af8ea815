import TableQuery.Expression
import TableQuery.Json.Record

/-!
# The written form of expressions

An expression is written as an object. Fragments that are not there and empty
maps are left out.
-/

namespace TableQuery

open Json

/-- A member for a map that is written if the map is not empty. -/
def mapMember {α : Type} (name : String) (write : α → Json) (map : SortedMap α) :
    List (String × Json) :=
  if map.isEmpty then []
  else [(name, .object (map.mapValues write).entries)]

namespace Expression

/-- The fields of an expression. -/
def record : Record Expression where
  name := "QueryExpression"
  blank := ofTable ""
  fields := [
    .of "TableName" .required Decoder.string
      fun value expression => { expression with tableName := value },
    .of "KeyConditionExpression" .defaulted Decoder.string.option
      fun value expression => { expression with keyCondition := value },
    .of "FilterExpression" .defaulted Decoder.string.option
      fun value expression => { expression with filter := value },
    .of "ProjectionExpression" .defaulted Decoder.string.option
      fun value expression => { expression with projection := value },
    .of "Key" .defaulted Decoder.json.sortedMap
      fun value expression => { expression with key := value },
    .of "UpdateExpression" .defaulted Decoder.string.option
      fun value expression => { expression with update := value },
    .of "ExpressionAttributeNames" .defaulted Decoder.string.sortedMap
      fun value expression => { expression with names := value },
    .of "ExpressionAttributeValues" .defaulted Decoder.json.sortedMap
      fun value expression => { expression with values := value },
    .of "ReturnValues" .defaulted ReturnValues.decoder.option
      fun value expression => { expression with returnValues := value },
    .of "ExclusiveStartKey" .defaulted Decoder.json.sortedMap
      fun value expression => { expression with startKey := value }]

/-- The decoder of expressions. -/
def decoder : Decoder Expression := record.decoder

/-- The written form of an expression. -/
def toJson (expression : Expression) : Json :=
  .object <|
    [("TableName", .string expression.tableName)]
    ++ optionalMember "KeyConditionExpression"
      (expression.keyCondition.map .string)
    ++ optionalMember "FilterExpression" (expression.filter.map .string)
    ++ optionalMember "ProjectionExpression" (expression.projection.map .string)
    ++ mapMember "Key" id expression.key
    ++ optionalMember "UpdateExpression" (expression.update.map .string)
    ++ mapMember "ExpressionAttributeNames" .string expression.names
    ++ mapMember "ExpressionAttributeValues" id expression.values
    ++ optionalMember "ReturnValues"
      (expression.returnValues.map ReturnValues.toJson)
    ++ mapMember "ExclusiveStartKey" id expression.startKey

end Expression

end TableQuery
