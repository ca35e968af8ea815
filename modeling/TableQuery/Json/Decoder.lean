import TableQuery.Json.Mismatch
import TableQuery.Json.Scanner
import TableQuery.SortedMap

/-!
# Decoders

A decoder reads data of one type in two ways: from a value, and from the draft
of a text. The second way meets the problems of form and of shape in the order
of the text; otherwise both agree.

Decoders of containers take the decoders of their parts. The number that the
second way is given says how many containers may still be entered.
-/

namespace TableQuery
namespace Json

variable {α β : Type}

/-- A way to read data from values and from texts. -/
structure Decoder (α : Type) where
  /-- Read a value. -/
  ofJson : Json → Except Mismatch α
  /-- Read a draft with a bound on the depth of its containers. -/
  ofDraft : Nat → Draft → Except ReadError α

/-- A defect stops a reader. -/
def Defect.raise : Except Defect α → Except ReadError α
  | .ok value => .ok value
  | .error defect => .error (.defect defect)

/-- A mismatch stops a reader. -/
def Mismatch.raise : Except Mismatch α → Except ReadError α
  | .ok value => .ok value
  | .error mismatch => .error (.mismatch mismatch)

@[simp] theorem Defect.raise_ok (value : α) :
    Defect.raise (.ok value) = .ok value := rfl

@[simp] theorem Defect.raise_error (defect : Defect) :
    Defect.raise (.error defect : Except Defect α) =
      .error (.defect defect) := rfl

@[simp] theorem Mismatch.raise_ok (value : α) :
    Mismatch.raise (.ok value) = .ok value := rfl

@[simp] theorem Mismatch.raise_error (mismatch : Mismatch) :
    Mismatch.raise (.error mismatch : Except Mismatch α) =
      .error (.mismatch mismatch) := rfl

/-- Refuse a value because of its kind. -/
def Found.refuse (found : Found) (expected : String) : Except Mismatch α :=
  .error (.wrongType found expected)

/-- Refuse a draft because of its kind, if it can be told. -/
def Draft.refuse (draft : Draft) (expected : String) : Except ReadError α := do
  let found ← Defect.raise (Found.ofDraft draft)
  Mismatch.raise (found.refuse expected)

namespace Decoder

/-- Change what was read. -/
def map (change : α → β) (decoder : Decoder α) : Decoder β where
  ofJson value := (decoder.ofJson value).map change
  ofDraft depth draft := (decoder.ofDraft depth draft).map change

/-- Read a whole text. -/
def ofDocument (decoder : Decoder α) (document : Document) :
    Except ReadError α := do
  let value ← decoder.ofDraft depthLimit document.root
  Defect.raise document.finish
  .ok value

/-- Read a whole text. -/
def ofText (decoder : Decoder α) (text : String) : Except ReadError α :=
  decoder.ofDocument (Document.ofText text)

/-! ## Scalars -/

/-- Data that the kind and content of a scalar determine. -/
def scalar (read : Found → Except Mismatch α) : Decoder α where
  ofJson value := read (Found.ofJson value)
  ofDraft _ draft := do
    let found ← Defect.raise (Found.ofDraft draft)
    Mismatch.raise (read found)

/-- A string. -/
def string : Decoder String := scalar fun
  | .string value => .ok value
  | found => found.refuse "a string"

/-- A boolean. -/
def bool : Decoder Bool := scalar fun
  | .bool value => .ok value
  | found => found.refuse "a boolean"

/-- An integer between two bounds. -/
def intBetween (lowest highest : Int) (expected : String) : Decoder Int :=
  scalar fun
  | .number (.int value held) =>
      if lowest ≤ value ∧ value ≤ highest then .ok value
      else .error (.wrongValue (.number (.int value held)) expected)
  | found => found.refuse expected

/-- A signed 64-bit word. -/
def int64 : Decoder Int64 :=
  (intBetween Int64.minValue.toInt Int64.maxValue.toInt "i64").map Int64.ofInt

/-- A signed 32-bit word. -/
def int32 : Decoder Int32 :=
  (intBetween Int32.minValue.toInt Int32.maxValue.toInt "i32").map Int32.ofInt

/-! ## Values of any shape, and absent ones -/

/-- A value of any shape. -/
def json : Decoder Json where
  ofJson value := .ok value
  ofDraft depth draft := Defect.raise (draft.toJson depth)

/-- Data or null. -/
def option (decoder : Decoder α) : Decoder (Option α) where
  ofJson
    | .null => .ok none
    | value => (decoder.ofJson value).map some
  ofDraft depth
    | .null => .ok none
    | .broken true defect _ => .error (.defect defect)
    | draft => (decoder.ofDraft depth draft).map some

/-! ## Containers -/

/-- A list. -/
def list (decoder : Decoder α) : Decoder (List α) where
  ofJson
    | .array items => items.mapM decoder.ofJson
    | value => (Found.ofJson value).refuse "a sequence"
  ofDraft depth
    | .array items ending =>
        match depth with
        | 0 => .error (.defect .malformed)
        | depth + 1 => do
            let values ← items.mapM (decoder.ofDraft depth)
            Defect.raise ending.next
            .ok values
    | draft => draft.refuse "a sequence"

/-- Named data in the order written. -/
def members (expected : String) (decoder : Decoder α) :
    Decoder (List (String × α)) where
  ofJson
    | .object members => members.mapM fun (name, value) => do
        .ok (name, ← decoder.ofJson value)
    | value => (Found.ofJson value).refuse expected
  ofDraft depth
    | .object members ending =>
        match depth with
        | 0 => .error (.defect .malformed)
        | depth + 1 => do
            let values ← members.mapM fun (key, draft) => do
              let name ← Defect.raise key.text
              .ok (name, ← decoder.ofDraft depth draft)
            Defect.raise ending.next
            .ok values
    | draft => draft.refuse expected

/-- An insertion-ordered map. -/
def fieldMap (expected : String) (decoder : Decoder α) : Decoder (FieldMap α) :=
  (members expected decoder).map FieldMap.ofList

/-- A map in code point order. -/
def sortedMap (decoder : Decoder α) : Decoder (SortedMap α) :=
  (members "a map" decoder).map SortedMap.ofList

/-! ## Choices -/

/-- The choice with the given name. -/
def pick (choices : List (String × α)) (name : String) : Except Mismatch α :=
  match choices.lookup name with
  | some choice => .ok choice
  | none => .error (.unknownVariant name (Members.names choices))

/-- What stands beside the name of a choice has to be null. -/
def expectUnit : Found → Except Mismatch Unit
  | .null => .ok ()
  | found => found.refuse "unit"

/-- One of several named choices, written as its name or as an object whose one
member has that name and the value null. -/
def choice (choices : List (String × α)) : Decoder α where
  ofJson
    | .string name => pick choices name
    | .object [(name, value)] => do
        let choice ← pick choices name
        expectUnit (Found.ofJson value)
        .ok choice
    | .object _ => .error (.wrongValue .map "map with a single key")
    | value => (Found.ofJson value).refuse "string or map"
  ofDraft depth
    | .string draft => do
        let name ← Defect.raise draft.text
        Mismatch.raise (pick choices name)
    | .object members ending =>
        match depth, members with
        | 0, _ => .error (.defect .malformed)
        | _ + 1, [] => do
            Defect.raise ending.next
            .error (.defect .malformed)
        | _ + 1, (key, value) :: rest => do
            let name ← Defect.raise key.text
            let choice ← Mismatch.raise (pick choices name)
            let found ← Defect.raise (Found.ofDraft value)
            Mismatch.raise (expectUnit found)
            if rest.isEmpty then
              Defect.raise ending.close
              .ok choice
            else .error (.defect .malformed)
    | .absent => .error (.defect .truncated)
    | _ => .error (.defect .malformed)

end Decoder

end Json
end TableQuery
