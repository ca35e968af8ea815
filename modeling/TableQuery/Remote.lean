import TableQuery.Remote.Reply

/-!
# The remote service as a store

A store can be put before whatever carries requests to the service and pages
back: it turns what comes back into documents. One such transport sends requests
as JSON bodies over HTTP, one member for each parameter that is set, and each of
them is answered by one reply.
-/

namespace TableQuery

open Json

variable {σ α : Type}

/-! ## Transports -/

/-- What carries requests to the service and its answers back. -/
structure Transport (σ : Type) where
  /-- Send a request that is answered by a page. -/
  page : Request → StoreM σ RemotePage
  /-- Send a request that is answered by attributes. -/
  written : Request → StoreM σ RemoteWritten

namespace Transport

/-- Send a request and convert the page that comes back. -/
def submitForPage (transport : Transport σ) (request : Request) :
    StoreM σ Page := do
  StoreM.ofExcept (Remote.toPage (← transport.page request))

/-- Send a request and convert the attributes that come back. -/
def submitForWritten (transport : Transport σ) (request : Request) :
    StoreM σ Written := do
  StoreM.ofExcept (Remote.toWritten (← transport.written request))

/-- The store behind a transport. -/
def store (transport : Transport σ) : Store σ where
  query body := transport.submitForPage (.query body)
  scan body := transport.submitForPage (.scan body)
  update body := transport.submitForWritten (.update body)
  put body := transport.submitForWritten (.put body)

end Transport

/-! ## Sending -/

/-- A parameter of a request. -/
inductive Parameter
  | text (value : String)
  | texts (values : SortedMap String)
  | item (values : RemoteItem)

namespace Parameter

/-- The wire form of a parameter. -/
def toJson : Parameter → Json
  | text value => .string value
  | texts values => .object (values.mapValues Json.string).entries
  | item values => .object (RemoteValue.toJsonMembers values)

/-- A text, if there is one. -/
def ofText? (name : String) (value : Option String) :
    List (String × Parameter) :=
  (value.map fun value => (name, text value)).toList

/-- Texts, unless there are none. -/
def ofTexts? (name : String) (values : SortedMap String) :
    List (String × Parameter) :=
  if values.isEmpty then [] else [(name, texts values)]

/-- The remote values of an item. -/
def ofItem (name : String) (values : Item) : String × Parameter :=
  (name, item (RemoteValue.ofNamedAttributes values.entries))

/-- The remote values of an item, unless it is empty. -/
def ofItem? (name : String) (values : Item) : List (String × Parameter) :=
  if values.isEmpty then [] else [ofItem name values]

/-- The attributes to return, if that is said. -/
def ofReturnValues? (value : Option ReturnValues) :
    List (String × Parameter) :=
  ofText? "ReturnValues" (value.map ReturnValues.name)

end Parameter

/-- The parameters that are set for a request. -/
def Request.parameters : Request → List (String × Parameter)
  | query body =>
      [("TableName", .text body.tableName)]
      ++ Parameter.ofText? "KeyConditionExpression" body.keyCondition
      ++ Parameter.ofText? "FilterExpression" body.filter
      ++ Parameter.ofText? "ProjectionExpression" body.projection
      ++ Parameter.ofTexts? "ExpressionAttributeNames" body.names
      ++ Parameter.ofItem? "ExpressionAttributeValues" body.values
      ++ Parameter.ofItem? "ExclusiveStartKey" body.startKey
  | scan body =>
      [("TableName", .text body.tableName)]
      ++ Parameter.ofText? "FilterExpression" body.filter
      ++ Parameter.ofText? "ProjectionExpression" body.projection
      ++ Parameter.ofTexts? "ExpressionAttributeNames" body.names
      ++ Parameter.ofItem? "ExpressionAttributeValues" body.values
      ++ Parameter.ofItem? "ExclusiveStartKey" body.startKey
  | update body =>
      [("TableName", .text body.tableName), Parameter.ofItem "Key" body.key]
      ++ Parameter.ofText? "UpdateExpression" body.update
      ++ Parameter.ofTexts? "ExpressionAttributeNames" body.names
      ++ Parameter.ofItem? "ExpressionAttributeValues" body.values
      ++ Parameter.ofReturnValues? body.returnValues
  | put body =>
      [("TableName", .text body.tableName), Parameter.ofItem "Item" body.item]
      ++ Parameter.ofReturnValues? body.returnValues

/-- A request as it is sent. -/
structure HttpRequest where
  /-- The header that names the service and the request. -/
  target : String
  /-- The body. -/
  body : Json
  deriving DecidableEq

/-- A request as it is sent. -/
def HttpRequest.ofRequest (request : Request) : HttpRequest where
  target := "DynamoDB_20120810." ++ request.apiName
  body := .object <| request.parameters.map fun (name, parameter) =>
    (name, parameter.toJson)

/-! ## Exchange -/

/-- The state of an exchange with the service. -/
structure Exchange where
  /-- The reply to the next request. -/
  reply : HttpReply
  /-- The requests so far, in order. -/
  sent : List HttpRequest
  deriving DecidableEq

namespace Exchange

/-- The state before any request. -/
def start : Exchange := ⟨.empty, []⟩

/-- Prepare the reply to the next request. -/
def withReply (exchange : Exchange) (reply : HttpReply) : Exchange :=
  { exchange with reply := reply }

/-- Send a request and read the reply to it. A request whose table has a blank
name has no address and fails before it is sent. -/
def submit
    (request : Request)
    (read : HttpReply → Except StoreError α) : StoreM Exchange α :=
  ExceptT.mk fun exchange =>
    if Text.isBlankText request.tableName then
      (.error (HttpReply.failure request.apiName), exchange)
    else
      (read exchange.reply,
        ⟨.empty, exchange.sent ++ [HttpRequest.ofRequest request]⟩)

/-- The transport over HTTP. -/
def transport : Transport Exchange where
  page request := submit request fun reply =>
    reply.receive request.apiName Remote.page?
  written request := submit request fun reply =>
    reply.receive request.apiName Remote.written?

/-- The store before the service. -/
def store : Store Exchange := transport.store

end Exchange

end TableQuery
