import TableQuery.Remote.Body
import TableQuery.Store

/-!
# Values of the remote service

The service knows more kinds of values than documents have. Sets of strings and
of numbers become lists; binary values and values of a kind that is not known
have no document.
-/

namespace TableQuery

open Json

/-- A value as the service sends and receives it. -/
inductive RemoteValue
  | string (value : String)
  | number (text : String)
  | bool (value : Bool)
  | null (flag : Bool)
  | list (items : List RemoteValue)
  | map (members : List (String × RemoteValue))
  | stringSet (values : List String)
  | numberSet (texts : List String)
  /-- Binary data by its base64 text. -/
  | binary (text : String)
  | binarySet (texts : List String)
  /-- A value with a tag that is not known. -/
  | unknown
  deriving Inhabited

namespace RemoteValue

mutual

/-- The remote value of an attribute value. -/
def ofAttribute : Attribute → RemoteValue
  | .string value => .string value
  | .number text => .number text
  | .bool value => .bool value
  | .null flag => .null flag
  | .list items => .list (ofAttributes items)
  | .map members => .map (ofNamedAttributes members)

/-- The remote values of attribute values. -/
def ofAttributes : List Attribute → List RemoteValue
  | [] => []
  | item :: rest => ofAttribute item :: ofAttributes rest

/-- The remote values of named attribute values. -/
def ofNamedAttributes :
    List (String × Attribute) → List (String × RemoteValue)
  | [] => []
  | (name, value) :: rest => (name, ofAttribute value) :: ofNamedAttributes rest

end

mutual

/-- The attribute value of a remote value, unless something in it has none. -/
def toAttribute : RemoteValue → Except StoreError Attribute
  | .string value => .ok (.string value)
  | .number text => .ok (.number text)
  | .bool value => .ok (.bool value)
  | .null flag => .ok (.null flag)
  | .list items => do
      .ok (.list (← toAttributes items))
  | .map members => do
      .ok (.map (← toNamedAttributes members))
  | .stringSet values => .ok (.list (values.map .string))
  | .numberSet texts => .ok (.list (texts.map .number))
  | .binary _ => .error (.unsupportedAttribute "B")
  | .binarySet _ => .error (.unsupportedAttribute "BS")
  | .unknown => .error (.unsupportedAttribute "Unknown")

/-- The attribute values of remote values. -/
def toAttributes : List RemoteValue → Except StoreError (List Attribute)
  | [] => .ok []
  | item :: rest => do
      let value ← toAttribute item
      let values ← toAttributes rest
      .ok (value :: values)

/-- The attribute values of named remote values. -/
def toNamedAttributes :
    List (String × RemoteValue) → Except StoreError (List (String × Attribute))
  | [] => .ok []
  | (name, item) :: rest => do
      let value ← toAttribute item
      let values ← toNamedAttributes rest
      .ok ((name, value) :: values)

end

/-! ## Wire form -/

/-- The wire form of texts. -/
def textsJson (texts : List String) : Json := .array (texts.map .string)

mutual

/-- The wire form of a remote value. -/
def toJson : RemoteValue → Json
  | .string value => .object [("S", .string value)]
  | .number text => .object [("N", .string text)]
  | .bool value => .object [("BOOL", .bool value)]
  | .null flag => .object [("NULL", .bool flag)]
  | .list items => .object [("L", .array (toJsonItems items))]
  | .map members => .object [("M", .object (toJsonMembers members))]
  | .stringSet values => .object [("SS", textsJson values)]
  | .numberSet texts => .object [("NS", textsJson texts)]
  | .binary text => .object [("B", .string text)]
  | .binarySet texts => .object [("BS", textsJson texts)]
  | .unknown => .object []

/-- The wire forms of remote values. -/
def toJsonItems : List RemoteValue → List Json
  | [] => []
  | item :: rest => toJson item :: toJsonItems rest

/-- The wire forms of named remote values. -/
def toJsonMembers : List (String × RemoteValue) → List (String × Json)
  | [] => []
  | (name, value) :: rest => (name, toJson value) :: toJsonMembers rest

end

/-- Whether a character is a digit of base64. -/
def isBase64Digit (character : Char) : Bool :=
  character.isAlphanum || character == '+' || character == '/'

/-- Whether characters are binary data in base64: groups of four digits, of which
the last one may be filled up. -/
def isBase64 : List Char → Bool
  | [] => true
  | [first, second, '=', '='] => isBase64Digit first && endsGroup 16 second
  | [first, second, third, '='] =>
      isBase64Digit first && isBase64Digit second && endsGroup 4 third
  | first :: second :: third :: fourth :: rest =>
      isBase64Digit first && isBase64Digit second && isBase64Digit third
        && isBase64Digit fourth && isBase64 rest
  | _ => false
where
  /-- Whether the last digit of a filled group has no bits but those used. -/
  endsGroup (unit : Nat) (digit : Char) : Bool :=
    isBase64Digit digit && base64Value digit % unit == 0
  /-- The value of a base64 digit. -/
  base64Value (digit : Char) : Nat :=
    if digit.isUpper then digit.toNat - 'A'.toNat
    else if digit.isLower then digit.toNat - 'a'.toNat + 26
    else if digit.isDigit then digit.toNat - '0'.toNat + 52
    else if digit == '+' then 62
    else 63

/-- The text of a string that is binary data in base64, which has no escapes. -/
def binaryText? : Body → Option String
  | .string escaped =>
      if isBase64 escaped then some (String.ofList escaped) else none
  | _ => none

/-- The texts that an array holds, if it may be entered. -/
def texts? (room : Nat) (read : Body → Option String) :
    Body → Option (List String)
  | .array items => if room = 0 then none else items.mapM read
  | _ => none

/-- The tags that are known. -/
def knownTags : List String :=
  ["S", "N", "BOOL", "NULL", "L", "M", "SS", "NS", "B", "BS"]

/-- The value of a tag whose payload holds no values itself. -/
def ofFlat? (room : Nat) (tag : String) (payload : Body) : Option RemoteValue :=
  if tag = "S" then payload.text?.map .string
  else if tag = "N" then payload.text?.map .number
  else if tag = "BOOL" then
    match payload with
    | .bool value => some (.bool value)
    | _ => none
  else if tag = "NULL" then
    match payload with
    | .bool flag => some (.null flag)
    | _ => none
  else if tag = "SS" then (texts? room Body.text? payload).map .stringSet
  else if tag = "NS" then (texts? room Body.text? payload).map .numberSet
  else if tag = "B" then (binaryText? payload).map .binary
  else if tag = "BS" then (texts? room binaryText? payload).map .binarySet
  else if tag ∈ knownTags then none
  else if payload.isSkippable then some .unknown
  else none

/-- The member of an object that names its type and is no tag. -/
def typeMember : String := "__type"

mutual

/-- Read a value from its wire form: an object with one tag, beside which members
that are null do not count. The number given here and below says how many
containers may still be entered. -/
def ofBody? (room : Nat) : Body → Option RemoteValue
  | .object members =>
      match room with
      | 0 => none
      | room + 1 => ofTagged? room none members
  | _ => none

/-- Read the members of a value, of which one may be read already. -/
def ofTagged? (room : Nat) (found : Option RemoteValue) :
    List (List Char × Body) → Option RemoteValue
  | [] => found
  | (key, payload) :: rest =>
      if payload.isNull then ofTagged? room found rest
      else do
        let tag ← Body.unescape? key
        if tag = typeMember then
          if payload.isSkippable then ofTagged? room found rest else none
        else
          match found, ofPayload? room tag payload with
          | none, some value => ofTagged? room (some value) rest
          | _, _ => none

/-- Read what stands behind a tag. -/
def ofPayload? (room : Nat) (tag : String) : Body → Option RemoteValue
  | .array items =>
      if tag = "L" then
        match room with
        | 0 => none
        | room + 1 => (ofItems? room items).map .list
      else ofFlat? room tag (.array items)
  | .object members =>
      if tag = "M" then
        match room with
        | 0 => none
        | room + 1 =>
            (ofMembers? room members).map fun values =>
              .map (Members.merge values)
      else ofFlat? room tag (.object members)
  | payload => ofFlat? room tag payload

/-- Read the items of a list, none of which may be null. -/
def ofItems? (room : Nat) : List Body → Option (List RemoteValue)
  | [] => some []
  | item :: rest => do
      let value ← ofBody? room item
      let values ← ofItems? room rest
      some (value :: values)

/-- Read the members of a map, none of which may be null. -/
def ofMembers? (room : Nat) :
    List (List Char × Body) → Option (List (String × RemoteValue))
  | [] => some []
  | (key, item) :: rest => do
      let name ← Body.unescape? key
      let value ← ofBody? room item
      let values ← ofMembers? room rest
      some ((name, value) :: values)

end

end RemoteValue

end TableQuery
