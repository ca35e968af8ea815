import TableQuery.Text.Glyphless

/-!
# Quoted texts in messages

A message shows a text in double quotes. Quotes and backslashes get a
backslash, four control characters have letters, and every other character
without a glyph of its own is shown by its code point.
-/

namespace TableQuery
namespace Text

/-- How a character is written between the quotes. -/
def quotedChar (character : Char) : List Char :=
  if character = '"' then ['\\', '"']
  else if character = '\\' then ['\\', '\\']
  else if character = '\n' then ['\\', 'n']
  else if character = '\r' then ['\\', 'r']
  else if character = '\t' then ['\\', 't']
  else if character = '\x00' then ['\\', '0']
  else if isGlyphless character then
    ['\\', 'u', '\x7b'] ++ Nat.toDigits 16 character.toNat ++ ['\x7d']
  else [character]

/-- A text in double quotes, with everything escaped that would not show. -/
def quoted (text : String) : String :=
  "\"" ++ String.ofList (text.toList.flatMap quotedChar) ++ "\""

end Text
end TableQuery
