import TableQuery.Json.Draft

/-!
# Scanning JSON texts

The scanner turns every text into a draft. It never fails; a defect ends the
draft where it stands. Each function returns what it read and the text behind
it, or no text if a defect was met.

The grammar is that of JSON: blanks are the space, the tab, the line feed and
the carriage return, and nothing but blanks may follow the value.
-/

namespace TableQuery
namespace Json

/-- Whether a character is blank between the tokens of a JSON text. -/
def isSpace (character : Char) : Bool :=
  character = ' ' || character = '\n' || character = '\t' || character = '\r'

/-- The text from its first token on. -/
def skipSpace (text : List Char) : List Char := text.dropWhile isSpace

namespace Scanner

/-! ## String literals -/

/-- The value of a hexadecimal digit. -/
def hexValue? (digit : Char) : Option Nat :=
  if '0' ≤ digit ∧ digit ≤ '9' then some (digit.toNat - '0'.toNat)
  else if 'a' ≤ digit ∧ digit ≤ 'f' then some (digit.toNat - 'a'.toNat + 10)
  else if 'A' ≤ digit ∧ digit ≤ 'F' then some (digit.toNat - 'A'.toNat + 10)
  else none

/-- The value of four hexadecimal digits. -/
def codeUnit? (first second third fourth : Char) : Option Nat := do
  let first ← hexValue? first
  let second ← hexValue? second
  let third ← hexValue? third
  let fourth ← hexValue? fourth
  some (((first * 16 + second) * 16 + third) * 16 + fourth)

/-- The character that a backslash and a letter stand for. -/
def escaped? (letter : Char) : Option Char :=
  if letter = '"' then some '"'
  else if letter = '\\' then some '\\'
  else if letter = '/' then some '/'
  else if letter = 'b' then some '\x08'
  else if letter = 'f' then some '\x0c'
  else if letter = 'n' then some '\n'
  else if letter = 'r' then some '\r'
  else if letter = 't' then some '\t'
  else none

/-- One element of a string literal. -/
inductive Piece
  /-- A character, plain or escaped by a letter. -/
  | char (value : Char)
  /-- A UTF-16 code unit in four hexadecimal digits. -/
  | unit (code : Nat)
  deriving DecidableEq

/-- The number of bytes of a text in UTF-8. -/
def byteCount (text : List Char) : Nat :=
  (String.ofList text).utf8ByteSize

/-- The elements of a string literal behind its opening quote, and the text
behind its closing quote. -/
def pieces : List Char → List Piece × Except Defect (List Char)
  | [] => ([], .error .truncated)
  | '"' :: rest => ([], .ok rest)
  | '\\' :: 'u' :: first :: second :: third :: fourth :: rest =>
      match codeUnit? first second third fourth with
      | some code =>
          let (found, after) := pieces rest
          (.unit code :: found, after)
      | none => ([], .error .malformed)
  | '\\' :: 'u' :: short =>
      ([], .error (if byteCount short < 4 then .truncated else .malformed))
  | '\\' :: letter :: rest =>
      match escaped? letter with
      | some character =>
          let (found, after) := pieces rest
          (.char character :: found, after)
      | none => ([], .error .malformed)
  | ['\\'] => ([], .error .truncated)
  | character :: rest =>
      if character.toNat < 0x20 then ([], .error .malformed)
      else
        let (found, after) := pieces rest
        (.char character :: found, after)

/-- Whether a code unit is the first half of a surrogate pair. -/
def isHighSurrogate (code : Nat) : Bool := 0xd800 ≤ code && code < 0xdc00

/-- Whether a code unit is the second half of a surrogate pair. -/
def isLowSurrogate (code : Nat) : Bool := 0xdc00 ≤ code && code < 0xe000

/-- The character of a surrogate pair. -/
def pairedChar (high low : Nat) : Char :=
  Char.ofNat (0x10000 + (high - 0xd800) * 0x400 + (low - 0xdc00))

/-- The characters of a literal that ends as stated. Halves of surrogate pairs
stand together or not at all. -/
def characters (ending : Option Defect) :
    List Piece → Except Defect (List Char)
  | [] => match ending with
      | none => .ok []
      | some defect => .error defect
  | .char value :: rest => do
      let found ← characters ending rest
      .ok (value :: found)
  | .unit code :: rest =>
      if isLowSurrogate code then .error .malformed
      else if isHighSurrogate code then
        match rest with
        | .unit other :: rest =>
            if isLowSurrogate other then do
              let found ← characters ending rest
              .ok (pairedChar code other :: found)
            else .error .malformed
        | .char _ :: _ => .error .malformed
        | [] => .error (ending.getD .malformed)
      else do
        let found ← characters ending rest
        .ok (Char.ofNat code :: found)

/-- A string literal behind its opening quote. -/
def stringDraft (text : List Char) : StringDraft × Option (List Char) :=
  match pieces text with
  | (found, .ok rest) =>
      (⟨(characters none found).map String.ofList, none⟩, some rest)
  | (found, .error defect) =>
      (⟨(characters (some defect) found).map String.ofList, some defect⟩, none)

/-! ## Numbers and words -/

/-- Whether a character is a decimal digit. -/
def isDigit (character : Char) : Bool := '0' ≤ character && character ≤ '9'

/-- What a number is without the digit that has to stand at the start of the
given text: the end of the text is a defect of its own only for readers. -/
def missingDigit (text : List Char) : Draft :=
  match text with
  | [] => .broken false .truncated .malformed
  | _ => .broken false .malformed .malformed

/-- The exponent of a number, whose other parts are known. -/
def exponentDraft
    (negative : Bool)
    (whole : List Char)
    (fraction : Option (List Char))
    (text : List Char) : Draft × Option (List Char) :=
  let finish (exponent : Option (Bool × List Char)) (rest : List Char) :=
    (Draft.number (Number.ofLiteral? ⟨negative, whole, fraction, exponent⟩),
      some rest)
  match text with
  | mark :: rest =>
      if mark = 'e' ∨ mark = 'E' then
        let (sign, rest) := match rest with
          | '-' :: rest => (true, rest)
          | '+' :: rest => (false, rest)
          | _ => (false, rest)
        let digits := rest.takeWhile isDigit
        if digits.isEmpty then (missingDigit rest, none)
        else finish (some (sign, digits)) (rest.dropWhile isDigit)
      else finish none text
  | [] => finish none []

/-- The fraction and the exponent of a number, whose whole part is known. -/
def fractionDraft
    (negative : Bool)
    (whole : List Char)
    (text : List Char) : Draft × Option (List Char) :=
  match text with
  | '.' :: rest =>
      let digits := rest.takeWhile isDigit
      if digits.isEmpty then (missingDigit rest, none)
      else exponentDraft negative whole (some digits) (rest.dropWhile isDigit)
  | _ => exponentDraft negative whole none text

/-- A number behind its sign. Its whole part starts with a zero only if it is
zero. -/
def numberDraft (negative : Bool) (text : List Char) :
    Draft × Option (List Char) :=
  let digits := text.takeWhile isDigit
  match digits with
  | [] => (missingDigit text, none)
  | '0' :: _ :: _ => (.broken false .malformed .malformed, none)
  | _ => fractionDraft negative digits (text.dropWhile isDigit)

/-- The remaining letters of a word that stands for a value. -/
def wordDraft (value : Draft) (likeNull : Bool) : List Char → List Char →
    Draft × Option (List Char)
  | [], text => (value, some text)
  | _ :: _, [] => (.broken likeNull .truncated .truncated, none)
  | letter :: letters, character :: rest =>
      if letter = character then wordDraft value likeNull letters rest
      else (.broken likeNull .malformed .malformed, none)

/-! ## Values -/

/-- What was read of the parts of a container, and the text behind it. -/
structure Parts (α : Type) where
  /-- The parts. -/
  found : List α
  /-- How they end. -/
  ending : Ending
  /-- The text behind the container. -/
  rest : Option (List Char)

/-- Parts behind a defect, which nobody reads. -/
def Parts.unread {α : Type} (found : List α) : Parts α :=
  ⟨found, .cut .malformed .malformed, none⟩

mutual

/-- A value at the start of a text. -/
def value : Nat → List Char → Draft × Option (List Char)
  | 0, _ => (.absent, none)
  | fuel + 1, text =>
      match skipSpace text with
      | [] => (.absent, none)
      | '"' :: rest =>
          let (draft, rest) := stringDraft rest
          (.string draft, rest)
      | '[' :: rest =>
          let parts := firstItem fuel rest
          (.array parts.found parts.ending, parts.rest)
      | '\x7b' :: rest =>
          let parts := firstMember fuel rest
          (.object parts.found parts.ending, parts.rest)
      | 'n' :: rest => wordDraft .null true ['u', 'l', 'l'] rest
      | 't' :: rest => wordDraft (.bool true) false ['r', 'u', 'e'] rest
      | 'f' :: rest => wordDraft (.bool false) false ['a', 'l', 's', 'e'] rest
      | '-' :: rest => numberDraft true rest
      | other :: rest =>
          if isDigit other then numberDraft false (other :: rest)
          else (.broken false .malformed .malformed, none)

/-- The items of an array behind its opening mark. -/
def firstItem : Nat → List Char → Parts Draft
  | 0, _ => .unread []
  | fuel + 1, text =>
      match skipSpace text with
      | [] => ⟨[], .cut .truncated .truncated, none⟩
      | ']' :: rest => ⟨[], .closed, some rest⟩
      | text => items fuel text

/-- The items of an array from one that has to be there. -/
def items : Nat → List Char → Parts Draft
  | 0, _ => .unread []
  | fuel + 1, text =>
      match value fuel text with
      | (item, none) => .unread [item]
      | (item, some rest) =>
          match skipSpace rest with
          | [] => ⟨[item], .cut .truncated .truncated, none⟩
          | ']' :: rest => ⟨[item], .closed, some rest⟩
          | ',' :: rest =>
              match skipSpace rest with
              | [] => ⟨[item], .cut .truncated .malformed, none⟩
              | ']' :: _ => ⟨[item], .cut .malformed .malformed, none⟩
              | text =>
                  let parts := items fuel text
                  { parts with found := item :: parts.found }
          | _ => ⟨[item], .cut .malformed .malformed, none⟩

/-- The members of an object behind its opening mark. -/
def firstMember : Nat → List Char → Parts (StringDraft × Draft)
  | 0, _ => .unread []
  | fuel + 1, text =>
      match skipSpace text with
      | [] => ⟨[], .cut .truncated .truncated, none⟩
      | '\x7d' :: rest => ⟨[], .closed, some rest⟩
      | '"' :: rest => members fuel rest
      | _ => ⟨[], .cut .malformed .malformed, none⟩

/-- The members of an object behind the opening quote of a key. -/
def members : Nat → List Char → Parts (StringDraft × Draft)
  | 0, _ => .unread []
  | fuel + 1, text =>
      match stringDraft text with
      | (key, none) => .unread [(key, .absent)]
      | (key, some rest) =>
          match skipSpace rest with
          | [] => .unread [(key, .absent)]
          | ':' :: rest =>
              match value fuel rest with
              | (image, none) => .unread [(key, image)]
              | (image, some rest) =>
                  match skipSpace rest with
                  | [] => ⟨[(key, image)], .cut .truncated .truncated, none⟩
                  | '\x7d' :: rest => ⟨[(key, image)], .closed, some rest⟩
                  | ',' :: rest =>
                      match skipSpace rest with
                      | [] => ⟨[(key, image)], .cut .truncated .malformed, none⟩
                      | '"' :: rest =>
                          let parts := members fuel rest
                          { parts with found := (key, image) :: parts.found }
                      | _ => ⟨[(key, image)], .cut .malformed .malformed, none⟩
                  | _ => ⟨[(key, image)], .cut .malformed .malformed, none⟩
          | _ => .unread [(key, .broken false .malformed .malformed)]

end

end Scanner

/-- The document that a text is, as far as it can be read. The scanner takes a
character at least in every third step, which bounds their number. -/
def Document.ofText (text : String) : Document :=
  let characters := text.toList
  let (root, rest) := Scanner.value (3 * characters.length + 3) characters
  ⟨root, match rest with
    | some rest => !(skipSpace rest).isEmpty
    | none => true⟩

/-- The number that a text is, without anything before or behind it. -/
def number? (text : String) : Option Number :=
  let draft := match text.toList with
    | '-' :: rest => Scanner.numberDraft true rest
    | characters => Scanner.numberDraft false characters
  match draft with
  | (.number value, some []) => value
  | _ => none

/-- Read a text as one value. -/
def parse (text : String) : Except Defect Json :=
  (Document.ofText text).toJson

end Json
end TableQuery
