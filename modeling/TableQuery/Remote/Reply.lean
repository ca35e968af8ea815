import TableQuery.Remote.Value
import TableQuery.Response

/-!
# Replies

A reply counts if its status is that of a success and its body has the shape of
an answer; everything else is a failure of the service. What the body says of
the capacity that the request took has to have its shape too, although nobody
asks for it.
-/

namespace TableQuery

variable {α : Type}

/-- Named remote values. -/
abbrev RemoteItem := List (String × RemoteValue)

/-- A page as it is received. What is missing is empty or zero. -/
structure RemotePage where
  /-- The items. -/
  items : List RemoteItem
  /-- The number of items. -/
  count : Int32
  /-- The number of items before filtering. -/
  scannedCount : Int32
  /-- The key behind which the next page starts. -/
  lastEvaluatedKey : Option RemoteItem

/-- Attributes as they are received. -/
structure RemoteWritten where
  /-- The attributes, if any were asked for. -/
  attributes : Option RemoteItem

namespace Remote

/-! ## Items and counts -/

/-- The number of containers that may stand around one another within the
members of a body, which is a container itself. -/
def memberRoom : Nat := 127

/-- Read a map of values. -/
def itemWithin? (room : Nat) : Body → Option RemoteItem
  | .object members =>
      match room with
      | 0 => none
      | room + 1 => (RemoteValue.ofMembers? room members).map Members.merge
  | _ => none

/-- Read a map of values that is a member of a body. -/
def item? (body : Body) : Option RemoteItem := itemWithin? memberRoom body

/-- Read an array of maps that is a member of a body. -/
def items? : Body → Option (List RemoteItem)
  | .array items => items.mapM (itemWithin? (memberRoom - 1))
  | _ => none

/-- Read a 32-bit count. The binary64 number nearest to the literal has to be
whole. -/
def count? : Body → Option Int32
  | .number literal => do
      let value ← literal.nearest?
      let unit := 1 <<< Binary64.unitShift
      if value.magnitude % unit = 0 then
        let size : Int := value.magnitude / unit
        word? (if value.negative then -size else size)
      else none
  | _ => none
where
  /-- A 32-bit word, if it can hold the value. -/
  word? (value : Int) : Option Int32 :=
    if Int32.minValue.toInt ≤ value ∧ value ≤ Int32.maxValue.toInt then
      some (Int32.ofInt value)
    else none

/-! ## What the request took -/

/-- The field of a value that is checked but not kept. It may be null. -/
def checkedField
    (name : String)
    (check : Body → Bool) : String × (Body → α → Option α) :=
  (name, fun body read =>
    if body.isNull || check body then some read else none)

/-- Whether a value is an object with the given fields. -/
def isRecord (fields : Body.Fields Unit) (body : Body) : Bool :=
  (body.read? fields ()).isSome

/-- Whether a value is an object, each member of which passes a check. -/
def isMapOf (check : Body → Bool) : Body → Bool
  | .object members => members.all fun (key, value) =>
      (Body.unescape? key).isSome && check value
  | _ => false

/-- Whether a value is an array, each item of which passes a check. -/
def isArrayOf (check : Body → Bool) : Body → Bool
  | .array items => items.all check
  | _ => false

/-- The names of infinity and of what is no number, in small letters. -/
def nonFiniteNames : List String := ["inf", "infinity", "nan"]

/-- Whether a text is a number that is not finite: a name for one, in letters of
either case, or a literal beyond the binary64 range. A sign may stand before
it. -/
def isNonFinite (text : String) : Bool :=
  let unsigned := match text.toList with
    | '+' :: rest => rest
    | '-' :: rest => rest
    | characters => characters
  nonFiniteNames.contains (String.ofList (unsigned.map Char.toLower))
    || match Body.Scanner.number? true unsigned with
      | some (literal, []) => literal.nearest?.isNone
      | _ => false

/-- Whether a value is a measure: a literal in the binary64 range, or a text for a
number that is not finite. -/
def isMeasure : Body → Bool
  | .number literal => literal.nearest?.isSome
  | .string escaped => (Body.unescape? escaped).any isNonFinite
  | _ => false

/-- What is said of a capacity. -/
def capacityFields : Body.Fields α :=
  [checkedField "CapacityUnits" isMeasure,
    checkedField "ReadCapacityUnits" isMeasure,
    checkedField "WriteCapacityUnits" isMeasure]

/-- Whether a value is a capacity. -/
def isCapacity : Body → Bool := isRecord capacityFields

/-- What is said of the capacity that a request took: the whole, and the parts
of the table and its indexes. -/
def consumedFields : Body.Fields α :=
  capacityFields
  ++ [checkedField "TableName" fun body => body.text?.isSome,
    checkedField "Table" isCapacity,
    checkedField "LocalSecondaryIndexes" (isMapOf isCapacity),
    checkedField "GlobalSecondaryIndexes" (isMapOf isCapacity),
    checkedField "VectorIndexes" (isMapOf isCapacity)]

/-- The member for the capacity that a request took. -/
def consumedField : String × (Body → α → Option α) :=
  checkedField "ConsumedCapacity" (isRecord consumedFields)

/-- What is said of the collection that an item belongs to. -/
def collectionFields : Body.Fields α :=
  [checkedField "ItemCollectionKey" fun body => (item? body).isSome,
    checkedField "SizeEstimateRangeGB" (isArrayOf isMeasure)]

/-- The member for the collection that an item belongs to. -/
def collectionField : String × (Body → α → Option α) :=
  checkedField "ItemCollectionMetrics" (isRecord collectionFields)

/-! ## Answers -/

/-- The members of a page. -/
def pageFields : Body.Fields RemotePage :=
  [("Items", fun body page => do
      some { page with items := (← body.nullable? items?).getD [] }),
    ("Count", fun body page => do
      some { page with count := (← body.nullable? count?).getD 0 }),
    ("ScannedCount", fun body page => do
      some { page with scannedCount := (← body.nullable? count?).getD 0 }),
    ("LastEvaluatedKey", fun body page => do
      some { page with lastEvaluatedKey := ← body.nullable? item? }),
    consumedField]

/-- Read a page. -/
def page? (body : Body) : Option RemotePage :=
  body.read? pageFields ⟨[], 0, 0, none⟩

/-- The members of the answer to a write. -/
def writtenFields : Body.Fields RemoteWritten :=
  [("Attributes", fun body _ => do
      some ⟨← body.nullable? item?⟩),
    consumedField, collectionField]

/-- Read the attributes of a write. -/
def written? (body : Body) : Option RemoteWritten :=
  body.read? writtenFields ⟨none⟩

/-! ## Documents -/

/-- The item of remote values, unless one of them has no document. -/
def toItem (values : RemoteItem) : Except StoreError Item := do
  .ok (.ofList (← RemoteValue.toNamedAttributes values))

/-- The item of remote values, empty if there are none. -/
def toItem? (values : Option RemoteItem) : Except StoreError Item :=
  match values with
  | some values => toItem values
  | none => .ok .empty

/-- The page of a received one, unless one of its values has no document. -/
def toPage (page : RemotePage) : Except StoreError Page := do
  let items ← page.items.mapM toItem
  let lastEvaluatedKey ← toItem? page.lastEvaluatedKey
  .ok ⟨items, page.count, page.scannedCount, lastEvaluatedKey⟩

/-- The attributes of received ones, unless one of them has no document. -/
def toWritten (written : RemoteWritten) : Except StoreError Written := do
  .ok ⟨← toItem? written.attributes⟩

end Remote

/-- A reply as it is received. -/
structure HttpReply where
  /-- The status. -/
  status : Nat
  /-- The body. -/
  text : String
  deriving DecidableEq

namespace HttpReply

/-- The reply that says nothing but that all went well. -/
def empty : HttpReply := ⟨200, ""⟩

/-- Whether the status is that of a success. -/
def succeeds (reply : HttpReply) : Bool :=
  200 ≤ reply.status && reply.status < 300

/-- The body, unless it is no JSON text. Without any text, nothing is said. -/
def body? (reply : HttpReply) : Option Body :=
  if reply.text.isEmpty then some (.object []) else Body.ofText? reply.text

/-- The failure of a request. -/
def failure (apiName : String) : StoreError :=
  .backend (apiName ++ " failed")

/-- What a reply to a request says. -/
def receive
    (apiName : String)
    (read : Body → Option α)
    (reply : HttpReply) : Except StoreError α :=
  match if reply.succeeds then reply.body?.bind read else none with
  | some value => .ok value
  | none => .error (failure apiName)

end HttpReply

end TableQuery
