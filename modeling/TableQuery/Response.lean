import TableQuery.Request

/-!
# Responses

Queries and scans are answered by a page of items, writes by the attributes that
they were asked to return. Both give their items as documents.
-/

namespace TableQuery

open Json

/-- A page of items. -/
structure Page where
  /-- The items. -/
  items : List Item
  /-- The number of items. -/
  count : Int32
  /-- The number of items before filtering. -/
  scannedCount : Int32
  /-- The key behind which the next page starts; empty on the last page. -/
  lastEvaluatedKey : Item
  deriving DecidableEq, Inhabited

namespace Page

/-- The page without items that is the last one. -/
def empty : Page := ⟨[], 0, 0, .empty⟩

/-- The items as documents. -/
def documents (page : Page) : List Json := page.items.map Item.toDocument

/-- The key behind which to go on, in the form that conditions take. -/
def nextKey? (page : Page) : Option (FieldMap Json) :=
  if page.lastEvaluatedKey.isEmpty then none
  else some (.ofList page.lastEvaluatedKey.toValues.entries)

/-- The fields of a page, which messages call by the given name. -/
def record (name : String) : Record Page where
  name := name
  blank := empty
  fields := [
    .of "Items" .defaulted Item.decoder.list
      fun value page => { page with items := value },
    .of "Count" .required Decoder.int32
      fun value page => { page with count := value },
    .of "ScannedCount" .required Decoder.int32
      fun value page => { page with scannedCount := value },
    .of "LastEvaluatedKey" .defaulted Item.decoder
      fun value page => { page with lastEvaluatedKey := value }]

/-- The fields of the answer to a query. -/
def queryRecord : Record Page := record "QueryOutput"

/-- The fields of the answer to a scan. -/
def scanRecord : Record Page := record "ScanOutput"

/-- The written form. -/
def toJson (page : Page) : Json :=
  .object <|
    (if page.items.isEmpty then []
      else [("Items", .array (page.items.map Item.toJson))])
    ++ [("Count", .number (.ofInt32 page.count)),
      ("ScannedCount", .number (.ofInt32 page.scannedCount))]
    ++ mapMember "LastEvaluatedKey" Attribute.toJson page.lastEvaluatedKey

end Page

/-- The attributes that a write returns. -/
structure Written where
  /-- The attributes, empty if none were asked for. -/
  attributes : Item
  deriving DecidableEq, Inhabited

namespace Written

/-- The answer that returns nothing. -/
def empty : Written := ⟨.empty⟩

/-- The attributes as a document, if there are any. -/
def document? (written : Written) : Option Json :=
  if written.attributes.isEmpty then none
  else some written.attributes.toDocument

/-- The fields of the answer, which messages call by the given name. -/
def record (name : String) : Record Written where
  name := name
  blank := empty
  fields := [
    .of "Attributes" .defaulted Item.decoder
      fun value written => { written with attributes := value }]

/-- The fields of the answer to an update. -/
def updateRecord : Record Written := record "UpdateItemOutput"

/-- The fields of the answer to a put. -/
def putRecord : Record Written := record "PutItemOutput"

/-- The written form. -/
def toJson (written : Written) : Json :=
  .object (mapMember "Attributes" Attribute.toJson written.attributes)

end Written

end TableQuery
