import TableQuery.Json.Decoder

/-!
# Operations and their options

Conditions are compiled for one of three operations, each of which is submitted
as one request of the table service. Writes may ask for attributes of the item
they change.
-/

namespace TableQuery

/-- What to do with the items that conditions describe. -/
inductive Operation
  /-- Look up items by their primary key. -/
  | query
  /-- Go through a whole table. -/
  | scan
  /-- Change one item. -/
  | update
  deriving DecidableEq, Inhabited

namespace Operation

/-- The name in conditions. -/
def name : Operation → String
  | query => "query"
  | scan => "scan"
  | update => "update"

/-- The name of the request. -/
def apiName : Operation → String
  | query => "Query"
  | scan => "Scan"
  | update => "UpdateItem"

/-- The operations by name. -/
def choices : List (String × Operation) :=
  [query, scan, update].map fun operation => (operation.name, operation)

/-- Operations are written by name. -/
def toJson (operation : Operation) : Json := .string operation.name

/-- Operations are read by name. -/
def decoder : Json.Decoder Operation := .choice choices

theorem decoder_toJson (operation : Operation) :
    decoder.ofJson operation.toJson = .ok operation := by
  cases operation <;> rfl

end Operation

/-- The attributes that a write returns. -/
inductive ReturnValues
  /-- No attributes. -/
  | none
  /-- All attributes before the write. -/
  | allOld
  /-- The written attributes before the write. -/
  | updatedOld
  /-- All attributes after the write. -/
  | allNew
  /-- The written attributes after the write. -/
  | updatedNew
  deriving DecidableEq, Inhabited

namespace ReturnValues

/-- The name in conditions and requests. -/
def name : ReturnValues → String
  | none => "NONE"
  | allOld => "ALL_OLD"
  | updatedOld => "UPDATED_OLD"
  | allNew => "ALL_NEW"
  | updatedNew => "UPDATED_NEW"

/-- The options by name. -/
def choices : List (String × ReturnValues) :=
  [none, allOld, updatedOld, allNew, updatedNew].map fun option =>
    (option.name, option)

/-- Whether nothing is asked for, as when the option is left out. -/
def isDefault (option : ReturnValues) : Bool := option == none

/-- Options are written by name. -/
def toJson (option : ReturnValues) : Json := .string option.name

/-- Options are read by name. -/
def decoder : Json.Decoder ReturnValues := .choice choices

theorem decoder_toJson (option : ReturnValues) :
    decoder.ofJson option.toJson = .ok option := by
  cases option <;> rfl

end ReturnValues

end TableQuery
