import TableQuery.Json.Draft
import TableQuery.Text.Quoted

/-!
# Mismatches

A mismatch is a well-formed JSON value whose shape is not that of the data to be
read. Its message names what was found and what was expected.
-/

namespace TableQuery
namespace Json

/-- The kind of a value, with its content if that is a scalar. -/
inductive Found
  | null
  | bool (value : Bool)
  | number (value : Number)
  | string (value : String)
  | sequence
  | map
  deriving DecidableEq

namespace Found

/-- The kind of a value. -/
def ofJson : Json → Found
  | .null => null
  | .bool value => bool value
  | .number value => number value
  | .string value => string value
  | .array _ => sequence
  | .object _ => map

/-- The kind of a drafted value. Scalars have to be readable. -/
def ofDraft : Draft → Except Defect Found
  | .null => .ok null
  | .bool value => .ok (bool value)
  | .number none => .error .malformed
  | .number (some value) => .ok (number value)
  | .string draft => draft.text.map string
  | .array _ _ => .ok sequence
  | .object _ _ => .ok map
  | .absent => .error .truncated
  | .broken _ defect _ => .error defect

/-- A text between the marks that messages put around names and scalars. -/
def marked (text : String) : String := "`" ++ text ++ "`"

/-- How a message names what was found. -/
def message : Found → String
  | null => "null"
  | bool value => "boolean " ++ marked (if value then "true" else "false")
  | number (.int value _) => "integer " ++ marked (Number.intText value)
  | number (.float value) => "floating point " ++ marked (Number.floatText value)
  | string value => "string " ++ Text.quoted value
  | sequence => "sequence"
  | map => "map"

end Found

/-- Why a value does not have the expected shape. -/
inductive Mismatch
  /-- A value of another kind was expected. -/
  | wrongType (found : Found) (expected : String)
  /-- The value is of the right kind but not one of those expected. -/
  | wrongValue (found : Found) (expected : String)
  /-- The number of items or members is not the expected one. -/
  | wrongLength (length : Nat) (expected : String)
  /-- A member that has to be there is not. -/
  | missingField (name : String)
  /-- A member is there twice. -/
  | duplicateField (name : String)
  /-- A member has a name that is not known. -/
  | unknownField (name : String) (known : List String)
  /-- A choice has a name that is not known. -/
  | unknownVariant (name : String) (known : List String)
  /-- An attribute value has no member at all. -/
  | noTypeKey
  deriving DecidableEq

namespace Mismatch

/-- A list of names, each between marks. -/
def markedNames (names : List String) : String :=
  ", ".intercalate (names.map Found.marked)

/-- The message of a mismatch. -/
def message : Mismatch → String
  | wrongType found expected =>
      "invalid type: " ++ found.message ++ ", expected " ++ expected
  | wrongValue found expected =>
      "invalid value: " ++ found.message ++ ", expected " ++ expected
  | wrongLength length expected =>
      "invalid length " ++ Number.intText length ++ ", expected " ++ expected
  | missingField name => "missing field " ++ Found.marked name
  | duplicateField name => "duplicate field " ++ Found.marked name
  | unknownField name known =>
      "unknown field " ++ Found.marked name ++ ", expected one of "
        ++ markedNames known
  | unknownVariant name known =>
      "unknown variant " ++ Found.marked name ++ ", expected one of "
        ++ markedNames known
  | noTypeKey => "AttributeValue must have exactly one key"

end Mismatch

/-- Why data cannot be read from a text. -/
inductive ReadError
  /-- The text is not well formed. -/
  | defect (defect : Defect)
  /-- The text is well formed up to a value of the wrong shape. -/
  | mismatch (mismatch : Mismatch)
  deriving DecidableEq

end Json
end TableQuery
