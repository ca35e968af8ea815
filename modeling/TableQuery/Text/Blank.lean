/-!
# Blank characters and blank-trimmed text

The blank characters are those of the Unicode property White_Space. Trimming
removes them at both ends, and a list of names is written with commas between
its entries and any blanks around them.
-/

namespace TableQuery
namespace Text

/-- Whether a character is white space in Unicode. -/
def isBlank (character : Char) : Bool :=
  let code := character.toNat
  (9 ≤ code && code ≤ 13) || code == 0x20 || code == 0x85 || code == 0xa0
    || code == 0x1680 || (0x2000 ≤ code && code ≤ 0x200a)
    || code == 0x2028 || code == 0x2029 || code == 0x202f
    || code == 0x205f || code == 0x3000

/-- Remove the blanks at both ends of a run of characters. -/
def trimChars (characters : List Char) : List Char :=
  ((characters.dropWhile isBlank).reverse.dropWhile isBlank).reverse

/-- Remove the blanks at both ends of a text. -/
def trim (text : String) : String :=
  String.ofList (trimChars text.toList)

/-- Whether a text has no other than blank characters. -/
def isBlankText (text : String) : Bool :=
  text.toList.all isBlank

/-- The names of a comma-separated list: its entries without the blanks around
them, as far as anything is left. -/
def commaSeparated (text : String) : List String :=
  (((text.toList.splitOn ',').map trimChars).filter fun entry =>
    !entry.isEmpty).map String.ofList

end Text
end TableQuery
