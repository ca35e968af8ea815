/-!
# Finite binary64 numbers

A finite binary64 number is a sign and a magnitude `significand * 2 ^ scale`
counted in units of `2 ^ (-1074)`, the smallest positive magnitude. The form is
normalized, so equal fields mean equal numbers; the two zeros stay apart.

Every operation computes its exact rational result and rounds it once, to
nearest with ties to the even significand.
-/

namespace TableQuery

/-- The least significand of full length, `2 ^ 52`. -/
abbrev Binary64.fullLength : Nat := 0x10000000000000

/-- The unit of magnitudes is `2 ^ (-unitShift)`. -/
abbrev Binary64.unitShift : Nat := 1074

/-- The fields are those of a finite binary64 number in normal form. -/
abbrev Binary64.Normal (significand scale : Nat) : Prop :=
  significand < 2 * fullLength ∧ scale ≤ 2045 ∧
    (fullLength ≤ significand ∨ scale = 0)

/-- A finite binary64 number. -/
structure Binary64 where
  /-- Whether the number carries a minus sign. -/
  negative : Bool
  /-- The leading bits of the magnitude. -/
  significand : Nat
  /-- The power of two that multiplies the significand. -/
  scale : Nat
  /-- The magnitude is written in its one normal form. -/
  normal : Binary64.Normal significand scale
  deriving DecidableEq

namespace Binary64

/-- A zero of the given sign. -/
def zero (negative : Bool) : Binary64 := ⟨negative, 0, 0, by decide⟩

/-- Whether the magnitude is zero. -/
def isZero (value : Binary64) : Bool := value.significand == 0

/-- The magnitude in units of `2 ^ (-1074)`. -/
def magnitude (value : Binary64) : Nat := value.significand <<< value.scale

/-- The quotient rounded to the nearest integer, ties to the even one. -/
def roundDiv (numerator denominator : Nat) : Nat :=
  let quotient := numerator / denominator
  let twice := 2 * (numerator % denominator)
  if twice < denominator then quotient
  else if denominator < twice then quotient + 1
  else if quotient % 2 = 0 then quotient
  else quotient + 1

/-- Number with the given fields, unless its magnitude is out of range. -/
def ofFields? (negative : Bool) (significand scale : Nat) : Option Binary64 :=
  if normal : Normal significand scale then
    some ⟨negative, significand, scale, normal⟩
  else none

/-- The number nearest to a quotient; `none` if that lies beyond the largest
finite magnitude. -/
def ofRatio (negative : Bool) (numerator denominator : Nat) : Option Binary64 :=
  let units := numerator <<< unitShift
  let scale := Nat.log2 (units / denominator) - 52
  let significand := roundDiv units (denominator <<< scale)
  if significand < 2 * fullLength then ofFields? negative significand scale
  else ofFields? negative fullLength (scale + 1)

/-- The number nearest to a natural number. -/
def ofNat (value : Nat) : Option Binary64 := ofRatio false value 1

/-- The product, rounded; `none` on overflow. -/
def mul (left right : Binary64) : Option Binary64 :=
  ofRatio (left.negative != right.negative)
    (left.magnitude * right.magnitude) (1 <<< (2 * unitShift))

/-- The quotient by a nonzero number, rounded; `none` on overflow. -/
def div (left right : Binary64) : Option Binary64 :=
  ofRatio (left.negative != right.negative) left.magnitude right.magnitude

/-- A power of ten. -/
def tenTo (exponent : Nat) : Nat := Nat.pow 10 exponent

/-- The number nearest to a power of ten. -/
def powerOfTen (exponent : Nat) : Option Binary64 :=
  ofRatio false (tenTo exponent) 1

/-- The largest power of ten below the largest finite magnitude. -/
def largestPower : Nat := 308

/-- Divide by the largest power of ten again and again, as long as something
is left. -/
def shrink : Nat → Binary64 → Option Binary64
  | 0, value => some value
  | steps + 1, value =>
      if value.isZero then some value
      else do
        let power ← powerOfTen largestPower
        shrink steps (← value.div power)

/-- Scale by a power of ten in as few rounded steps as the range of the
powers allows: one multiplication, or divisions by the largest power followed
by one division. -/
def scaleByTen (value : Binary64) (exponent : Int) : Option Binary64 :=
  let size := exponent.natAbs
  if 0 ≤ exponent then
    if size ≤ largestPower then do
      value.mul (← powerOfTen size)
    else if value.isZero then some value
    else none
  else do
    let steps := (size - 1) / largestPower
    let shrunk ← shrink steps value
    if shrunk.isZero then some shrunk
    else shrunk.div (← powerOfTen (size - steps * largestPower))

/-- The number nearest to `digits * 10 ^ exponent`; `none` if that lies beyond
the largest finite magnitude. Exponents far out of range decide on their own,
which keeps the powers small. -/
def nearest (negative : Bool) (digits : Nat) (exponent : Int) :
    Option Binary64 :=
  if digits = 0 ∨ Nat.log2 digits + exponent < -400 then some (zero negative)
  else if 400 < exponent then none
  else if 0 ≤ exponent then
    ofRatio negative (digits * tenTo exponent.toNat) 1
  else ofRatio negative digits (tenTo exponent.natAbs)

/-- The number for `digits * 10 ^ exponent`: the digits are rounded first and
scaled afterwards, so the result may differ from the nearest number in its last
bits. `none` if it is out of range. -/
def ofDecimal (negative : Bool) (digits : Nat) (exponent : Int) :
    Option Binary64 := do
  let value ← (← ofNat digits).scaleByTen exponent
  some { value with negative := negative }

end Binary64

end TableQuery
