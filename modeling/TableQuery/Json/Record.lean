import TableQuery.Json.Decoder

/-!
# Records

A record is data with named fields of different types. It is written as an
object, and read from an object or from an array of its fields in the order of
their declaration.

Reading starts from a blank record and puts in one field after the other in the
order written, so the first problem in that order is the one reported. Fields
that are missing are reported last.
-/

namespace TableQuery
namespace Json

variable {α ρ : Type}

/-- Whether a field may be left out. -/
inductive Presence
  /-- It has to be there. -/
  | required
  /-- It may be left out of an object, but not of an array. -/
  | omissible
  /-- It may be left out of an object, and of an array at the end. -/
  | defaulted
  deriving DecidableEq

/-- How one field of a record is read. -/
structure Field (ρ : Type) where
  /-- The name of the field. -/
  name : String
  /-- Whether it may be left out. -/
  presence : Presence
  /-- Read the field from a value and put it into the record. -/
  ofJson : Json → ρ → Except Mismatch ρ
  /-- Read the field from a draft and put it into the record. -/
  ofDraft : Nat → Draft → ρ → Except ReadError ρ

/-- The field that a decoder reads and a function puts into the record. -/
def Field.of
    (name : String)
    (presence : Presence)
    (decoder : Decoder α)
    (put : α → ρ → ρ) : Field ρ where
  name := name
  presence := presence
  ofJson value record := do
    .ok (put (← decoder.ofJson value) record)
  ofDraft depth draft record := do
    .ok (put (← decoder.ofDraft depth draft) record)

/-- How a record is read. -/
structure Record (ρ : Type) where
  /-- The name that messages give to the record. -/
  name : String
  /-- The record before any field is read. -/
  blank : ρ
  /-- The fields in the order of their declaration. -/
  fields : List (Field ρ)
  /-- Whether members of other names are refused. They are ignored otherwise. -/
  sealed : Bool := false

namespace Record

/-- The field with the given name. -/
def field? (record : Record ρ) (name : String) : Option (Field ρ) :=
  record.fields.find? fun field => field.name == name

/-- The names of the fields. -/
def names (record : Record ρ) : List String :=
  record.fields.map Field.name

/-- What messages say was expected. -/
def expectation (record : Record ρ) : String := "struct " ++ record.name

/-- What messages say was expected of an array. -/
def sizeExpectation (record : Record ρ) : String :=
  let count := record.fields.length
  record.expectation ++ " with " ++ Number.intText count
    ++ (if count = 1 then " element" else " elements")

/-- An array has no item for a field, behind which the given fields follow. -/
def itemMissing (record : Record ρ) (following : List (Field ρ)) : Mismatch :=
  .wrongLength (record.fields.length - (following.length + 1))
    record.sizeExpectation

/-- Check that every required field is among the given names. -/
def checkPresence (record : Record ρ) (given : List String) :
    Except Mismatch Unit :=
  match record.fields.find? fun field =>
      field.presence = .required ∧ field.name ∉ given with
  | some field => .error (.missingField field.name)
  | none => .ok ()

/-! ## Reading values -/

/-- Put the members of an object into a record. -/
def putMembers (record : Record ρ) :
    List (String × Json) → ρ → Except Mismatch ρ
  | [], read => .ok read
  | (name, value) :: rest, read =>
      match record.field? name with
      | some field => do
          putMembers record rest (← field.ofJson value read)
      | none =>
          if record.sealed then .error (.unknownField name record.names)
          else putMembers record rest read

/-- Put the items of an array into a record, field by field. The fields given
are those still to be read, the length is that of the whole array. -/
def putItems (record : Record ρ) (length : Nat) :
    List (Field ρ) → List Json → ρ → Except Mismatch ρ
  | [], [], read => .ok read
  | [], _ :: _, _ => .error (.wrongLength length "fewer elements in array")
  | field :: fields, [], read =>
      if field.presence = .defaulted then putItems record length fields [] read
      else .error (record.itemMissing fields)
  | field :: fields, value :: rest, read => do
      putItems record length fields rest (← field.ofJson value read)

/-- Read a record from a value. -/
def ofJson (record : Record ρ) : Json → Except Mismatch ρ
  | .object members => do
      let read ← record.putMembers members record.blank
      record.checkPresence (Members.names members)
      .ok read
  | .array items => record.putItems items.length record.fields items record.blank
  | value => (Found.ofJson value).refuse record.expectation

/-! ## Reading drafts -/

/-- Put the members of a drafted object into a record, of which the fields with
the given names are already there. The names of all fields read come back. -/
def putDraftMembers (record : Record ρ) (depth : Nat) :
    List (StringDraft × Draft) → List String → ρ →
      Except ReadError (List String × ρ)
  | [], given, read => .ok (given, read)
  | (key, draft) :: rest, given, read => do
      let name ← Defect.raise key.text
      match record.field? name with
      | some field =>
          if name ∈ given then .error (.mismatch (.duplicateField name))
          else do
            let read ← field.ofDraft depth draft read
            putDraftMembers record depth rest (name :: given) read
      | none =>
          if record.sealed then
            .error (.mismatch (.unknownField name record.names))
          else do
            Defect.raise draft.skip
            putDraftMembers record depth rest given read

/-- Put the items of a drafted array into a record, field by field. -/
def putDraftItems (record : Record ρ) (depth : Nat) (ending : Ending) :
    List (Field ρ) → List Draft → ρ → Except ReadError ρ
  | [], [], read => do
      Defect.raise ending.close
      .ok read
  | [], _ :: _, _ => .error (.defect .malformed)
  | field :: fields, [], read => do
      Defect.raise ending.next
      if field.presence = .defaulted then
        putDraftItems record depth ending fields [] read
      else .error (.mismatch (record.itemMissing fields))
  | field :: fields, draft :: rest, read => do
      let read ← field.ofDraft depth draft read
      putDraftItems record depth ending fields rest read

/-- Read a record from a draft. -/
def ofDraft (record : Record ρ) (depth : Nat) : Draft → Except ReadError ρ
  | .object members ending =>
      match depth with
      | 0 => .error (.defect .malformed)
      | depth + 1 => do
          let (given, read) ←
            record.putDraftMembers depth members [] record.blank
          Defect.raise ending.next
          Mismatch.raise (record.checkPresence given)
          .ok read
  | .array items ending =>
      match depth with
      | 0 => .error (.defect .malformed)
      | depth + 1 =>
          record.putDraftItems depth ending record.fields items record.blank
  | draft => draft.refuse record.expectation

/-- The decoder of a record. -/
def decoder (record : Record ρ) : Decoder ρ := ⟨record.ofJson, record.ofDraft⟩

end Record

/-! ## Writing records -/

/-- A member that is written if there is a value for it. -/
def optionalMember (name : String) (value : Option Json) :
    List (String × Json) :=
  match value with
  | some value => [(name, value)]
  | none => []

@[simp] theorem optionalMember_none (name : String) :
    optionalMember name none = [] := rfl

@[simp] theorem optionalMember_some (name : String) (value : Json) :
    optionalMember name (some value) = [(name, value)] := rfl

end Json
end TableQuery
