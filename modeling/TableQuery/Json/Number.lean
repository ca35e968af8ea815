import TableQuery.Binary64.Shortest

/-!
# JSON numbers

A JSON number is a 64-bit integer, signed or unsigned, or a finite binary64
number. The literal decides: one without fraction and exponent that fits is an
integer, every other one is a binary64 number, and so is minus zero.
-/

namespace TableQuery

/-- The integers that are held exactly: those of a signed or an unsigned 64-bit
word. -/
abbrev Number.Held (value : Int) : Prop :=
  -0x8000000000000000 ≤ value ∧ value < 0x10000000000000000

/-- A JSON number. -/
inductive Number
  /-- An integer of at most 64 bits. -/
  | int (value : Int) (held : Number.Held value)
  /-- Any other number. -/
  | float (value : Binary64)
  deriving DecidableEq

namespace Number

/-- A number literal, taken apart. -/
structure Literal where
  /-- Whether it starts with a minus sign. -/
  negative : Bool
  /-- The digits before the point. -/
  whole : List Char
  /-- The digits after the point, if there is one. -/
  fraction : Option (List Char)
  /-- The sign and the digits of the exponent, if there is one. -/
  exponent : Option (Bool × List Char)
  deriving DecidableEq

/-- The value of a decimal digit. -/
def digitValue (digit : Char) : Nat := digit.toNat - '0'.toNat

/-- The number that decimal digits denote. -/
def ofDigits (digits : List Char) : Nat :=
  digits.foldl (fun value digit => 10 * value + digitValue digit) 0

/-- The power of ten that a literal is scaled by. -/
def Literal.written (literal : Literal) : Int :=
  match literal.exponent with
  | none => 0
  | some (negative, digits) =>
      if negative then -(ofDigits digits : Int) else ofDigits digits

/-- Take digits into an unsigned 64-bit word as long as it can hold them. The
second result is the number of digits left over. -/
def gather (word : Nat) : List Char → Nat × Nat
  | [] => (word, 0)
  | digit :: rest =>
      let next := 10 * word + digitValue digit
      if next < UInt64.size then gather next rest
      else (word, rest.length + 1)

/-- The binary64 number of a literal: the leading digits that fit a 64-bit word,
scaled by the exponent that is left. Digits left over before the point count
in the exponent, those left over after it do not. -/
def Literal.toBinary64? (literal : Literal) : Option Binary64 :=
  let (word, dropped) := gather 0 literal.whole
  let digits := literal.fraction.getD []
  let (word, ignored) := gather word digits
  Binary64.ofDecimal literal.negative word
    (dropped - (digits.length - ignored : Nat) + literal.written)

/-- The binary64 number nearest to a literal; `none` if it is out of range. -/
def Literal.nearest? (literal : Literal) : Option Binary64 :=
  let fraction := literal.fraction.getD []
  Binary64.nearest literal.negative (ofDigits (literal.whole ++ fraction))
    (literal.written - fraction.length)

/-- The number of a literal; `none` if it is out of the binary64 range. -/
def ofLiteral? (literal : Literal) : Option Number :=
  let size : Int := ofDigits literal.whole
  let value := if literal.negative then -size else size
  if literal.fraction.isSome || literal.exponent.isSome
      || (literal.negative && size == 0) then
    literal.toBinary64?.map .float
  else if held : Held value then some (.int value held)
  else literal.toBinary64?.map .float

/-- The texts of a binary64 number: positional with a point from `10 ^ (-5)` up
to `10 ^ 16`, and else with an exponent that always has a sign. -/
def floatText (value : Binary64) : String :=
  let sign := if value.negative then "-" else ""
  if value.isZero then sign ++ "0.0"
  else
    let decimal := value.shortest
    let digits := Nat.toDigits 10 decimal.digits
    let lead : Int := digits.length - 1 + decimal.exponent
    let zeros (count : Int) : List Char := List.replicate count.toNat '0'
    let body :=
      if lead < -5 ∨ 16 ≤ lead then
        let mark := if lead < 0 then "e-" else "e+"
        let exponent := String.ofList (Nat.toDigits 10 lead.natAbs)
        let fraction := if digits.length = 1 then [] else '.' :: digits.drop 1
        String.ofList (digits.take 1 ++ fraction) ++ mark ++ exponent
      else if 0 ≤ decimal.exponent then
        String.ofList (digits ++ zeros decimal.exponent) ++ ".0"
      else if 0 ≤ lead then
        let split := lead.toNat + 1
        String.ofList (digits.take split ++ '.' :: digits.drop split)
      else
        "0." ++ String.ofList (zeros (-lead - 1) ++ digits)
    sign ++ body

/-- The text of an integer. -/
def intText (value : Int) : String :=
  let digits := String.ofList (Nat.toDigits 10 value.natAbs)
  if value < 0 then "-" ++ digits else digits

/-- The one text that a number is written as. -/
def text : Number → String
  | int value _ => intText value
  | float value => floatText value

@[simp] theorem text_int (value : Int) (held : Held value) :
    (int value held).text = intText value := rfl

@[simp] theorem text_float (value : Binary64) :
    (float value).text = floatText value := rfl

/-- Whether the number is zero, of either kind and sign. -/
def isZero : Number → Bool
  | int value _ => value == 0
  | float value => value.isZero

/-- The value of an integer that fits a signed 64-bit word. -/
def toInt64? : Number → Option Int64
  | int value _ =>
      if value ≤ Int64.maxValue.toInt then some (Int64.ofInt value) else none
  | float _ => none

/-- A signed 64-bit word as a number. -/
def ofInt64 (value : Int64) : Number :=
  int value.toInt (by
    have low := value.le_toInt
    have high := value.toInt_lt
    constructor <;> omega)

/-- A signed 32-bit word as a number. -/
def ofInt32 (value : Int32) : Number :=
  int value.toInt (by
    have low := value.le_toInt
    have high := value.toInt_lt
    constructor <;> omega)

end Number

end TableQuery
