import TableQuery.Binary64

/-!
# Shortest decimals

Every positive binary64 number is the nearest one to all decimals of an
interval around it. Its shortest decimal has the fewest digits among them; of
two with equally few it is the nearer one, and of two equally near the one with
the even last digit.

Lengths are counted in units of `2 ^ (-1076)`, a quarter of the smallest
magnitude, in which the ends of the interval are whole.
-/

namespace TableQuery
namespace Binary64

/-- A positive decimal `digits * 10 ^ exponent`. -/
structure Decimal where
  /-- The digits, read as one number. -/
  digits : Nat
  /-- The power of ten that multiplies them. -/
  exponent : Int
  deriving DecidableEq, Inhabited

/-- The decimals that round to a given magnitude. -/
structure Interval where
  /-- The lower end. -/
  lower : Nat
  /-- The upper end. -/
  upper : Nat
  /-- Whether the ends belong to it. -/
  closed : Bool

/-- The decimals nearest to a number: up to half the way to its neighbours,
of which the lower one is closer under a power of two. -/
def interval (value : Binary64) : Interval :=
  let step := 1 <<< value.scale
  let centre := 4 * value.magnitude
  let below :=
    if value.significand = fullLength ∧ 0 < value.scale then step else 2 * step
  ⟨centre - below, centre + 2 * step, value.significand % 2 == 0⟩

/-- Whether a fraction lies in the interval. -/
def Interval.contains (range : Interval) (numerator denominator : Nat) : Bool :=
  if range.closed then
    range.lower * denominator ≤ numerator ∧ numerator ≤ range.upper * denominator
  else
    range.lower * denominator < numerator ∧ numerator < range.upper * denominator

/-- A power of ten as a fraction. -/
def tenPower (exponent : Int) : Nat × Nat :=
  if 0 ≤ exponent then (tenTo exponent.natAbs, 1) else (1, tenTo exponent.natAbs)

/-- The number of decimal digits; zero has one. -/
def digitCount (value : Nat) : Nat := (Nat.toDigits 10 value).length

/-- The exponent of the leading decimal digit of a positive number. -/
def leadingExponent (value : Binary64) : Int :=
  (digitCount ((value.magnitude * tenTo 400) >>> unitShift) : Int) - 401

/-- The decimal with the given exponent that stands for the number, if one of
the two nearest on that grid does. -/
def onGrid? (value : Binary64) (exponent : Int) : Option Decimal :=
  let (up, down) := tenPower exponent
  let unit := up <<< (unitShift + 2)
  let centre := 4 * value.magnitude * down
  let floor := centre / unit
  let range := value.interval
  let low := range.contains (floor * unit) down
  let high := range.contains ((floor + 1) * unit) down
  let twice := 2 * (centre % unit)
  match low, high with
  | false, false => none
  | true, false => some ⟨floor, exponent⟩
  | false, true => some ⟨floor + 1, exponent⟩
  | true, true =>
      if twice < unit then some ⟨floor, exponent⟩
      else if unit < twice then some ⟨floor + 1, exponent⟩
      else if floor % 2 = 0 then some ⟨floor, exponent⟩
      else some ⟨floor + 1, exponent⟩

/-- Drop zeros at the end of the digits. -/
def Decimal.trim : Nat → Decimal → Decimal
  | 0, decimal => decimal
  | steps + 1, decimal =>
      if decimal.digits % 10 = 0 then
        trim steps ⟨decimal.digits / 10, decimal.exponent + 1⟩
      else decimal

/-- The shortest decimal of a positive number. Seventeen digits always
suffice. -/
def shortest (value : Binary64) : Decimal :=
  let lead := value.leadingExponent
  let found := (List.range 17).findSome? fun (count : Nat) =>
    value.onGrid? (lead - count)
  (found.getD default).trim 17

end Binary64

end TableQuery
