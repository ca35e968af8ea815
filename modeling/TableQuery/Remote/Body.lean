import TableQuery.Json.Scanner

/-!
# Bodies of replies

The body of a reply is a JSON text, of which a reader may need little. It is
taken apart loosely: strings keep their escapes, numbers stay literals, and
objects keep all their members in the order written. Whether a part makes sense
is decided where it is used, so what nobody uses need not make sense.

The grammar is that of JSON with two liberties. A number may start with zeros,
and digits may be missing on one side of its point, but not before the point
if there is no sign. In a string a backslash may stand before anything.
-/

namespace TableQuery

open Json

variable {α : Type}

/-- A value in the body of a reply. -/
inductive Body
  | null
  | bool (value : Bool)
  | number (literal : Number.Literal)
  /-- A string by the characters between its quotes. -/
  | string (escaped : List Char)
  | array (items : List Body)
  /-- An object by its members, whose keys are strings. -/
  | object (members : List (List Char × Body))
  deriving Inhabited

namespace Body

/-! ## Scanning -/

namespace Scanner

/-- The characters of a string behind its opening quote, and the text behind its
closing quote. -/
def string? : List Char → Option (List Char × List Char)
  | [] => none
  | '"' :: rest => some ([], rest)
  | '\\' :: letter :: rest => do
      let (escaped, rest) ← string? rest
      some ('\\' :: letter :: escaped, rest)
  | character :: rest =>
      if character = '\\' ∨ character.toNat < 0x20 then none
      else do
        let (escaped, rest) ← string? rest
        some (character :: escaped, rest)

/-- The sign and the digits of an exponent, if the text starts with one. -/
def exponent? (text : List Char) :
    Option (Option (Bool × List Char) × List Char) :=
  match text with
  | mark :: rest =>
      if mark = 'e' ∨ mark = 'E' then
        let (negative, rest) := match rest with
          | '-' :: rest => (true, rest)
          | '+' :: rest => (false, rest)
          | _ => (false, rest)
        let digits := rest.takeWhile Json.Scanner.isDigit
        if digits.isEmpty then none
        else
          some (some (negative, digits), rest.dropWhile Json.Scanner.isDigit)
      else some (none, text)
  | [] => some (none, [])

/-- A number behind its sign. -/
def number? (negative : Bool) (text : List Char) :
    Option (Number.Literal × List Char) := do
  let whole := text.takeWhile Json.Scanner.isDigit
  let rest := text.dropWhile Json.Scanner.isDigit
  let (fraction, rest) := match rest with
    | '.' :: rest =>
        (some (rest.takeWhile Json.Scanner.isDigit),
          rest.dropWhile Json.Scanner.isDigit)
    | _ => (none, rest)
  if whole.isEmpty && (!negative || (fraction.getD []).isEmpty) then none
  else
    let (exponent, rest) ← exponent? rest
    some (⟨negative, whole, fraction, exponent⟩, rest)

mutual

/-- A value at the start of a text, and the text behind it. -/
def value? : Nat → List Char → Option (Body × List Char)
  | 0, _ => none
  | fuel + 1, text =>
      match skipSpace text with
      | '"' :: rest => do
          let (escaped, rest) ← string? rest
          some (.string escaped, rest)
      | '[' :: rest =>
          match skipSpace rest with
          | ']' :: rest => some (.array [], rest)
          | rest => do
              let (items, rest) ← items? fuel rest
              some (.array items, rest)
      | '\x7b' :: rest =>
          match skipSpace rest with
          | '\x7d' :: rest => some (.object [], rest)
          | rest => do
              let (members, rest) ← members? fuel rest
              some (.object members, rest)
      | 'n' :: 'u' :: 'l' :: 'l' :: rest => some (.null, rest)
      | 't' :: 'r' :: 'u' :: 'e' :: rest => some (.bool true, rest)
      | 'f' :: 'a' :: 'l' :: 's' :: 'e' :: rest => some (.bool false, rest)
      | '-' :: rest => do
          let (literal, rest) ← number? true rest
          some (.number literal, rest)
      | text => do
          let (literal, rest) ← number? false text
          some (.number literal, rest)

/-- The items of an array from one that has to be there, and the text behind the
array. -/
def items? : Nat → List Char → Option (List Body × List Char)
  | 0, _ => none
  | fuel + 1, text => do
      let (item, rest) ← value? fuel text
      match skipSpace rest with
      | ']' :: rest => some ([item], rest)
      | ',' :: rest =>
          let (items, rest) ← items? fuel rest
          some (item :: items, rest)
      | _ => none

/-- The members of an object from one that has to be there, and the text behind
the object. -/
def members? : Nat → List Char → Option (List (List Char × Body) × List Char)
  | 0, _ => none
  | fuel + 1, text =>
      match skipSpace text with
      | '"' :: rest => do
          let (key, rest) ← string? rest
          match skipSpace rest with
          | ':' :: rest =>
              let (value, rest) ← value? fuel rest
              match skipSpace rest with
              | '\x7d' :: rest => some ([(key, value)], rest)
              | ',' :: rest =>
                  let (members, rest) ← members? fuel rest
                  some ((key, value) :: members, rest)
              | _ => none
          | _ => none
      | _ => none

end

end Scanner

/-- The body that a text is. The scanner takes a character at least in every
second step, which bounds their number. -/
def ofText? (text : String) : Option Body :=
  let characters := text.toList
  match Scanner.value? (2 * characters.length + 2) characters with
  | some (body, rest) => if (skipSpace rest).isEmpty then some body else none
  | none => none

/-! ## Using -/

/-- Whether the value is null. -/
def isNull : Body → Bool
  | .null => true
  | _ => false

/-- The text that the characters between two quotes stand for, unless an escape
among them makes no sense. -/
def unescape? (escaped : List Char) : Option String :=
  match Json.Scanner.pieces (escaped ++ ['"']) with
  | (pieces, .ok _) =>
      (Json.Scanner.characters none pieces).toOption.map String.ofList
  | (_, .error _) => none

/-- The text of a string. -/
def text? : Body → Option String
  | .string escaped => unescape? escaped
  | _ => none

/-- Read a value that may be null. -/
def nullable? (read : Body → Option α) : Body → Option (Option α)
  | .null => some none
  | body => (read body).map some

/-! ## Skipping -/

mutual

/-- The number of containers that stand around one another. -/
def depth : Body → Nat
  | .array items => itemsDepth items + 1
  | .object members => membersDepth members + 1
  | _ => 0

/-- The depth of the deepest item. -/
def itemsDepth : List Body → Nat
  | [] => 0
  | item :: rest => max (depth item) (itemsDepth rest)

/-- The depth of the deepest member. -/
def membersDepth : List (List Char × Body) → Nat
  | [] => 0
  | (_, value) :: rest => max (depth value) (membersDepth rest)

end

/-- The greatest depth of a value that is skipped. -/
def skipLimit : Nat := 512

/-- Whether nobody minds that the value is there. -/
def isSkippable (body : Body) : Bool := body.depth ≤ skipLimit

/-! ## Objects -/

/-- How members of known names change what was read. -/
abbrev Fields (α : Type) := List (String × (Body → α → Option α))

/-- Read the members of an object one after the other. A known name says how the
value changes what was read, so of two members with one name both are read.
Values of other names are skipped. -/
def readMembers? (fields : Fields α) :
    List (List Char × Body) → α → Option α
  | [], read => some read
  | (key, value) :: rest, read => do
      let name ← unescape? key
      match fields.lookup name with
      | some put => readMembers? fields rest (← put value read)
      | none =>
          if value.isSkippable then readMembers? fields rest read else none

/-- Read an object. -/
def read? (fields : Fields α) (blank : α) : Body → Option α
  | .object members => readMembers? fields members blank
  | _ => none

end Body

end TableQuery
