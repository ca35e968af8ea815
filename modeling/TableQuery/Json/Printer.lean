import TableQuery.Json.Value

/-!
# Writing JSON values

A value has a compact text on one line and a text for readers, which puts
every item and member on a line of its own, two spaces deeper than its
container. Only quotes, backslashes and control characters are escaped.
-/

namespace TableQuery
namespace Json

/-- A hexadecimal number in four digits. -/
def fourHexDigits (code : Nat) : List Char :=
  let digits := Nat.toDigits 16 code
  List.replicate (4 - digits.length) '0' ++ digits

/-- How a character is written in a string literal. -/
def literalChar (character : Char) : List Char :=
  if character = '"' then ['\\', '"']
  else if character = '\\' then ['\\', '\\']
  else if character = '\n' then ['\\', 'n']
  else if character = '\r' then ['\\', 'r']
  else if character = '\t' then ['\\', 't']
  else if character = '\x08' then ['\\', 'b']
  else if character = '\x0c' then ['\\', 'f']
  else if character.toNat < 0x20 then
    '\\' :: 'u' :: fourHexDigits character.toNat
  else [character]

/-- A string literal. -/
def literal (text : String) : String :=
  "\"" ++ String.ofList (text.toList.flatMap literalChar) ++ "\""

/-- The opening mark of an object. -/
def objectOpen : String := "\x7b"

/-- The closing mark of an object. -/
def objectClose : String := "\x7d"

mutual

/-- The text of a value without any blanks. -/
def compact : Json → String
  | .null => "null"
  | .bool true => "true"
  | .bool false => "false"
  | .number value => value.text
  | .string value => literal value
  | .array items => "[" ++ ",".intercalate (compactItems items) ++ "]"
  | .object members =>
      objectOpen ++ ",".intercalate (compactMembers members) ++ objectClose

/-- The compact texts of the items of an array. -/
def compactItems : List Json → List String
  | [] => []
  | item :: rest => compact item :: compactItems rest

/-- The compact texts of the members of an object. -/
def compactMembers : List (String × Json) → List String
  | [] => []
  | (name, value) :: rest =>
      (literal name ++ ":" ++ compact value) :: compactMembers rest

end

/-- A new line that is indented to the given depth. -/
def lineBreak (depth : Nat) : String :=
  "\n" ++ String.ofList (List.replicate (2 * depth) ' ')

mutual

/-- The text of a value at the given depth, on several lines. -/
def indented (depth : Nat) : Json → String
  | .null => "null"
  | .bool true => "true"
  | .bool false => "false"
  | .number value => value.text
  | .string value => literal value
  | .array [] => "[]"
  | .array (item :: rest) =>
      let lines := indented (depth + 1) item :: indentedItems (depth + 1) rest
      let separator := "," ++ lineBreak (depth + 1)
      "[" ++ lineBreak (depth + 1) ++ separator.intercalate lines
        ++ lineBreak depth ++ "]"
  | .object [] => objectOpen ++ objectClose
  | .object ((name, value) :: rest) =>
      let line := literal name ++ ": " ++ indented (depth + 1) value
      let lines := line :: indentedMembers (depth + 1) rest
      let separator := "," ++ lineBreak (depth + 1)
      objectOpen ++ lineBreak (depth + 1) ++ separator.intercalate lines
        ++ lineBreak depth ++ objectClose

/-- The indented texts of the items of an array. -/
def indentedItems (depth : Nat) : List Json → List String
  | [] => []
  | item :: rest => indented depth item :: indentedItems depth rest

/-- The indented texts of the members of an object. -/
def indentedMembers (depth : Nat) : List (String × Json) → List String
  | [] => []
  | (name, value) :: rest =>
      (literal name ++ ": " ++ indented depth value)
        :: indentedMembers depth rest

end

/-- The text of a value for readers. -/
def pretty (value : Json) : String := indented 0 value

end Json
end TableQuery
