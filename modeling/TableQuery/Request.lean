import TableQuery.Attribute
import TableQuery.Expression.Format

/-!
# Requests

A request is what the table service is sent for one operation: the parts of a
compiled expression that the operation knows, with documents turned into
attribute values.
-/

namespace TableQuery

open Json

/-- Named attribute values in code point order. -/
abbrev Item := SortedMap Attribute

namespace Item

/-- The item of a document's members. -/
def ofMembers (members : List (String × Json)) : Item :=
  .ofList (Attribute.ofNamedDocuments members)

/-- The item of values that are in code point order already. -/
def ofValues (values : SortedMap Json) : Item :=
  values.mapValues Attribute.ofDocument

/-- The documents of the values. -/
def toValues (item : Item) : SortedMap Json :=
  item.mapValues Attribute.toDocument

/-- The document of an item. -/
def toDocument (item : Item) : Json := .object item.toValues.entries

/-- The written form of an item. -/
def toJson (item : Item) : Json :=
  .object (item.mapValues Attribute.toJson).entries

/-- The decoder of items. -/
def decoder : Decoder Item := Attribute.decoder.sortedMap

end Item

/-- The request to put a whole item into a table. -/
structure PutRequest where
  /-- The table. -/
  tableName : String
  /-- The item. -/
  item : Item
  /-- The attributes to return. -/
  returnValues : Option ReturnValues
  deriving DecidableEq, Inhabited

namespace PutRequest

/-- The request for a document, which has to be an object. -/
def ofDocument? (tableName : String) : Json → Option PutRequest
  | .object members => some ⟨tableName, .ofMembers members, some .none⟩
  | _ => none

/-- The fields of the request. -/
def record : Record PutRequest where
  name := "PutItemInput"
  blank := ⟨"", .empty, none⟩
  fields := [
    .of "TableName" .required Decoder.string
      fun value request => { request with tableName := value },
    .of "Item" .required Item.decoder
      fun value request => { request with item := value },
    .of "ReturnValues" .omissible ReturnValues.decoder.option
      fun value request => { request with returnValues := value }]

/-- The written form. -/
def toJson (request : PutRequest) : Json :=
  .object <|
    [("TableName", .string request.tableName), ("Item", request.item.toJson)]
    ++ optionalMember "ReturnValues"
      (request.returnValues.map ReturnValues.toJson)

end PutRequest

/-- The request to change one item. -/
structure UpdateRequest where
  /-- The table. -/
  tableName : String
  /-- The key of the item. -/
  key : Item
  /-- The changes. -/
  update : Option String
  /-- The field behind each alias. -/
  names : SortedMap String
  /-- The value behind each placeholder. -/
  values : Item
  /-- The attributes to return. -/
  returnValues : Option ReturnValues
  deriving DecidableEq, Inhabited

namespace UpdateRequest

/-- The request for a compiled expression. -/
def ofExpression (expression : Expression) : UpdateRequest where
  tableName := expression.tableName
  key := .ofValues expression.key
  update := expression.update
  names := expression.names
  values := .ofValues expression.values
  returnValues := expression.returnValues

/-- The fields of the request. -/
def record : Record UpdateRequest where
  name := "UpdateItemInput"
  blank := ⟨"", .empty, none, .empty, .empty, none⟩
  fields := [
    .of "TableName" .required Decoder.string
      fun value request => { request with tableName := value },
    .of "Key" .required Item.decoder
      fun value request => { request with key := value },
    .of "UpdateExpression" .omissible Decoder.string.option
      fun value request => { request with update := value },
    .of "ExpressionAttributeNames" .defaulted Decoder.string.sortedMap
      fun value request => { request with names := value },
    .of "ExpressionAttributeValues" .defaulted Item.decoder
      fun value request => { request with values := value },
    .of "ReturnValues" .omissible ReturnValues.decoder.option
      fun value request => { request with returnValues := value }]

/-- The written form. -/
def toJson (request : UpdateRequest) : Json :=
  .object <|
    [("TableName", .string request.tableName), ("Key", request.key.toJson)]
    ++ optionalMember "UpdateExpression" (request.update.map .string)
    ++ mapMember "ExpressionAttributeNames" .string request.names
    ++ mapMember "ExpressionAttributeValues" Attribute.toJson request.values
    ++ optionalMember "ReturnValues"
      (request.returnValues.map ReturnValues.toJson)

end UpdateRequest

/-- The request to look up items by their primary key. -/
structure QueryRequest where
  /-- The table. -/
  tableName : String
  /-- The condition on the primary key. -/
  keyCondition : Option String
  /-- The equalities that items have to satisfy. -/
  filter : Option String
  /-- The fields to return. -/
  projection : Option String
  /-- The field behind each alias. -/
  names : SortedMap String
  /-- The value behind each placeholder. -/
  values : Item
  /-- The key behind which to go on. -/
  startKey : Item
  deriving DecidableEq, Inhabited

namespace QueryRequest

/-- The request for a compiled expression. -/
def ofExpression (expression : Expression) : QueryRequest where
  tableName := expression.tableName
  keyCondition := expression.keyCondition
  filter := expression.filter
  projection := expression.projection
  names := expression.names
  values := .ofValues expression.values
  startKey := .ofValues expression.startKey

/-- The fields of the request. -/
def record : Record QueryRequest where
  name := "QueryInput"
  blank := ⟨"", none, none, none, .empty, .empty, .empty⟩
  fields := [
    .of "TableName" .required Decoder.string
      fun value request => { request with tableName := value },
    .of "KeyConditionExpression" .omissible Decoder.string.option
      fun value request => { request with keyCondition := value },
    .of "FilterExpression" .omissible Decoder.string.option
      fun value request => { request with filter := value },
    .of "ProjectionExpression" .omissible Decoder.string.option
      fun value request => { request with projection := value },
    .of "ExpressionAttributeNames" .defaulted Decoder.string.sortedMap
      fun value request => { request with names := value },
    .of "ExpressionAttributeValues" .defaulted Item.decoder
      fun value request => { request with values := value },
    .of "ExclusiveStartKey" .defaulted Item.decoder
      fun value request => { request with startKey := value }]

/-- The written form. -/
def toJson (request : QueryRequest) : Json :=
  .object <|
    [("TableName", .string request.tableName)]
    ++ optionalMember "KeyConditionExpression"
      (request.keyCondition.map .string)
    ++ optionalMember "FilterExpression" (request.filter.map .string)
    ++ optionalMember "ProjectionExpression" (request.projection.map .string)
    ++ mapMember "ExpressionAttributeNames" .string request.names
    ++ mapMember "ExpressionAttributeValues" Attribute.toJson request.values
    ++ mapMember "ExclusiveStartKey" Attribute.toJson request.startKey

end QueryRequest

/-- The request to go through a table. -/
structure ScanRequest where
  /-- The table. -/
  tableName : String
  /-- The equalities that items have to satisfy. -/
  filter : Option String
  /-- The fields to return. -/
  projection : Option String
  /-- The field behind each alias. -/
  names : SortedMap String
  /-- The value behind each placeholder. -/
  values : Item
  /-- The key behind which to go on. -/
  startKey : Item
  deriving DecidableEq, Inhabited

namespace ScanRequest

/-- The request for a compiled expression. -/
def ofExpression (expression : Expression) : ScanRequest where
  tableName := expression.tableName
  filter := expression.filter
  projection := expression.projection
  names := expression.names
  values := .ofValues expression.values
  startKey := .ofValues expression.startKey

/-- The fields of the request. -/
def record : Record ScanRequest where
  name := "ScanInput"
  blank := ⟨"", none, none, .empty, .empty, .empty⟩
  fields := [
    .of "TableName" .required Decoder.string
      fun value request => { request with tableName := value },
    .of "FilterExpression" .omissible Decoder.string.option
      fun value request => { request with filter := value },
    .of "ProjectionExpression" .omissible Decoder.string.option
      fun value request => { request with projection := value },
    .of "ExpressionAttributeNames" .defaulted Decoder.string.sortedMap
      fun value request => { request with names := value },
    .of "ExpressionAttributeValues" .defaulted Item.decoder
      fun value request => { request with values := value },
    .of "ExclusiveStartKey" .defaulted Item.decoder
      fun value request => { request with startKey := value }]

/-- The written form. -/
def toJson (request : ScanRequest) : Json :=
  .object <|
    [("TableName", .string request.tableName)]
    ++ optionalMember "FilterExpression" (request.filter.map .string)
    ++ optionalMember "ProjectionExpression" (request.projection.map .string)
    ++ mapMember "ExpressionAttributeNames" .string request.names
    ++ mapMember "ExpressionAttributeValues" Attribute.toJson request.values
    ++ mapMember "ExclusiveStartKey" Attribute.toJson request.startKey

end ScanRequest

/-- A request of any kind. -/
inductive Request
  | query (body : QueryRequest)
  | scan (body : ScanRequest)
  | update (body : UpdateRequest)
  | put (body : PutRequest)
  deriving DecidableEq

namespace Request

/-- The request for an expression that was compiled for an operation. -/
def ofExpression (operation : Operation) (expression : Expression) : Request :=
  match operation with
  | .query => query (.ofExpression expression)
  | .scan => scan (.ofExpression expression)
  | .update => update (.ofExpression expression)

/-- The name of the table. -/
def tableName : Request → String
  | query body => body.tableName
  | scan body => body.tableName
  | update body => body.tableName
  | put body => body.tableName

/-- The name that the service gives to the request. -/
def apiName : Request → String
  | query _ => Operation.query.apiName
  | scan _ => Operation.scan.apiName
  | update _ => Operation.update.apiName
  | put _ => "PutItem"

/-- The written form. -/
def toJson : Request → Json
  | query body => body.toJson
  | scan body => body.toJson
  | update body => body.toJson
  | put body => body.toJson

end Request

end TableQuery
