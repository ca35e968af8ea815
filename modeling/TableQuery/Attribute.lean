import TableQuery.Json.Decoder

/-!
# Attribute values

The table service holds typed attribute values. On the wire each is an object
with one member, whose name is the tag of its type; a number is written as a
text, so that no digit is lost.

A document becomes an attribute value before a request is sent, and the
attribute values of a response become documents again. Members of maps keep
their order both ways.
-/

namespace TableQuery

/-- A typed attribute value. -/
inductive Attribute
  | string (value : String)
  /-- A number by its text. -/
  | number (text : String)
  | bool (value : Bool)
  /-- Null; its flag carries no meaning. -/
  | null (flag : Bool)
  | list (items : List Attribute)
  | map (members : List (String × Attribute))
  deriving Inhabited

namespace Attribute

open Json

/-! ## Documents -/

mutual

/-- The attribute value of a document. -/
def ofDocument : Json → Attribute
  | .null => .null true
  | .bool value => .bool value
  | .number value => .number value.text
  | .string value => .string value
  | .array items => .list (ofDocuments items)
  | .object members => .map (ofNamedDocuments members)

/-- The attribute values of documents. -/
def ofDocuments : List Json → List Attribute
  | [] => []
  | item :: rest => ofDocument item :: ofDocuments rest

/-- The attribute values of named documents. -/
def ofNamedDocuments : List (String × Json) → List (String × Attribute)
  | [] => []
  | (name, value) :: rest => (name, ofDocument value) :: ofNamedDocuments rest

end

mutual

/-- The document of an attribute value. A number whose text is no JSON number
stays a text. -/
def toDocument : Attribute → Json
  | .string value => .string value
  | .number text =>
      match number? text with
      | some value => .number value
      | none => .string text
  | .bool value => .bool value
  | .null _ => .null
  | .list items => .array (toDocuments items)
  | .map members => .object (toNamedDocuments members)

/-- The documents of attribute values. -/
def toDocuments : List Attribute → List Json
  | [] => []
  | item :: rest => toDocument item :: toDocuments rest

/-- The documents of named attribute values. -/
def toNamedDocuments : List (String × Attribute) → List (String × Json)
  | [] => []
  | (name, value) :: rest => (name, toDocument value) :: toNamedDocuments rest

end

/-! ## Tagged form -/

mutual

/-- The tagged form of an attribute value. -/
def toJson : Attribute → Json
  | .string value => .object [("S", .string value)]
  | .number text => .object [("N", .string text)]
  | .bool value => .object [("BOOL", .bool value)]
  | .null flag => .object [("NULL", .bool flag)]
  | .list items => .object [("L", .array (toJsonItems items))]
  | .map members => .object [("M", .object (toJsonMembers members))]

/-- The tagged forms of attribute values. -/
def toJsonItems : List Attribute → List Json
  | [] => []
  | item :: rest => toJson item :: toJsonItems rest

/-- The tagged forms of named attribute values. -/
def toJsonMembers : List (String × Attribute) → List (String × Json)
  | [] => []
  | (name, value) :: rest => (name, toJson value) :: toJsonMembers rest

end

/-- The tags in the order in which messages list them. -/
def tags : List String := ["S", "N", "BOOL", "NULL", "L", "M"]

/-- What messages say was expected. -/
def expectation : String :=
  "a DynamoDB AttributeValue object with exactly one type key"

/-- Refuse a tag that is not known. -/
def checkTag (tag : String) : Except Mismatch Unit :=
  if tag ∈ tags then .ok () else .error (.unknownField tag tags)

/-- The attribute value of a tag and a scalar. -/
def ofScalar (tag : String) (found : Found) : Except Mismatch Attribute :=
  if tag = "S" then
    match found with
    | .string value => .ok (.string value)
    | _ => found.refuse "a string"
  else if tag = "N" then
    match found with
    | .string text => .ok (.number text)
    | _ => found.refuse "a string"
  else if tag = "BOOL" then
    match found with
    | .bool value => .ok (.bool value)
    | _ => found.refuse "a boolean"
  else if tag = "NULL" then
    match found with
    | .bool flag => .ok (.null flag)
    | _ => found.refuse "a boolean"
  else if tag = "L" then found.refuse "a sequence"
  else if tag = "M" then found.refuse "a map"
  else .error (.unknownField tag tags)

mutual

/-- Read an attribute value from its tagged form. The first member is read, and
there must be no other. -/
def ofJson : Json → Except Mismatch Attribute
  | .object [] => .error .noTypeKey
  | .object ((tag, payload) :: rest) => do
      let value ← ofTagged tag payload
      if rest.isEmpty then .ok value
      else .error (.wrongLength (rest.length + 1) "fewer elements in map")
  | value => (Found.ofJson value).refuse expectation

/-- Read what stands behind a tag. -/
def ofTagged (tag : String) : Json → Except Mismatch Attribute
  | .array items =>
      if tag = "L" then do
        .ok (.list (← ofItems items))
      else ofScalar tag .sequence
  | .object members =>
      if tag = "M" then do
        .ok (.map (← ofMembers members))
      else ofScalar tag .map
  | payload => ofScalar tag (Found.ofJson payload)

/-- Read attribute values. -/
def ofItems : List Json → Except Mismatch (List Attribute)
  | [] => .ok []
  | item :: rest => do
      let value ← ofJson item
      let values ← ofItems rest
      .ok (value :: values)

/-- Read named attribute values. -/
def ofMembers : List (String × Json) → Except Mismatch (List (String × Attribute))
  | [] => .ok []
  | (name, item) :: rest => do
      let value ← ofJson item
      let values ← ofMembers rest
      .ok ((name, value) :: values)

end

mutual

/-- Read an attribute value from a draft. -/
def ofDraft : Nat → Draft → Except ReadError Attribute
  | 0, .object _ _ => .error (.defect .malformed)
  | _ + 1, .object [] ending => do
      Defect.raise ending.next
      .error (.mismatch .noTypeKey)
  | depth + 1, .object ((key, payload) :: rest) ending => do
      let tag ← Defect.raise key.text
      Mismatch.raise (checkTag tag)
      let value ← ofTaggedDraft depth tag payload
      if rest.isEmpty then
        Defect.raise ending.close
        .ok value
      else .error (.defect .malformed)
  | _, draft => draft.refuse expectation

/-- Read what stands behind a tag. -/
def ofTaggedDraft (depth : Nat) (tag : String) :
    Draft → Except ReadError Attribute
  | .array items ending =>
      if tag = "L" then
        match depth with
        | 0 => .error (.defect .malformed)
        | depth + 1 => do
            let values ← ofDraftItems depth items
            Defect.raise ending.next
            .ok (.list values)
      else Mismatch.raise (ofScalar tag .sequence)
  | .object members ending =>
      if tag = "M" then
        match depth with
        | 0 => .error (.defect .malformed)
        | depth + 1 => do
            let values ← ofDraftMembers depth members
            Defect.raise ending.next
            .ok (.map (Members.merge values))
      else Mismatch.raise (ofScalar tag .map)
  | payload => do
      let found ← Defect.raise (Found.ofDraft payload)
      Mismatch.raise (ofScalar tag found)

/-- Read attribute values. -/
def ofDraftItems (depth : Nat) :
    List Draft → Except ReadError (List Attribute)
  | [] => .ok []
  | item :: rest => do
      let value ← ofDraft depth item
      let values ← ofDraftItems depth rest
      .ok (value :: values)

/-- Read named attribute values. -/
def ofDraftMembers (depth : Nat) :
    List (StringDraft × Draft) → Except ReadError (List (String × Attribute))
  | [] => .ok []
  | (key, item) :: rest => do
      let name ← Defect.raise key.text
      let value ← ofDraft depth item
      let values ← ofDraftMembers depth rest
      .ok ((name, value) :: values)

end

/-- The decoder of tagged attribute values. -/
def decoder : Decoder Attribute := ⟨ofJson, ofDraft⟩

mutual

/-- The tagged form reads back. -/
theorem ofJson_toJson (value : Attribute) : ofJson value.toJson = .ok value := by
  cases value with
  | string value => rfl
  | number text => rfl
  | bool value => rfl
  | null flag => rfl
  | list items =>
      simp [toJson, ofJson, ofTagged, ofItems_toJsonItems items, bind, Except.bind]
  | map members =>
      simp [toJson, ofJson, ofTagged, ofMembers_toJsonMembers members, bind,
        Except.bind]

theorem ofItems_toJsonItems (items : List Attribute) :
    ofItems (toJsonItems items) = .ok items := by
  match items with
  | [] => rfl
  | item :: rest =>
      simp [toJsonItems, ofItems, ofJson_toJson item, ofItems_toJsonItems rest,
        bind, Except.bind]

theorem ofMembers_toJsonMembers (members : List (String × Attribute)) :
    ofMembers (toJsonMembers members) = .ok members := by
  match members with
  | [] => rfl
  | (name, value) :: rest =>
      simp [toJsonMembers, ofMembers, ofJson_toJson value,
        ofMembers_toJsonMembers rest, bind, Except.bind]

end

/-- Different attribute values have different tagged forms. -/
theorem toJson_inj {left right : Attribute} :
    left.toJson = right.toJson ↔ left = right := by
  constructor
  · intro equal
    have read := ofJson_toJson left
    rw [equal, ofJson_toJson right] at read
    exact (Except.ok.inj read).symm
  · intro equal
    rw [equal]

instance : DecidableEq Attribute := fun _ _ =>
  decidable_of_iff _ toJson_inj

end Attribute

end TableQuery
