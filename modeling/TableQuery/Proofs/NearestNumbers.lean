import Mathlib.Algebra.Order.Field.Power
import Mathlib.Data.Rat.Cast.Order
import Mathlib.Tactic.Linarith
import Mathlib.Tactic.NormNum
import Mathlib.Tactic.Positivity
import Mathlib.Tactic.Ring
import TableQuery.Binary64.Shortest

/-!
# Nearest numbers

A number is the nearest one to all sizes of an interval around it, which reaches
half the way to the next number above and half the way to the one below. The
latter is closer under a power of two. No other number is closer to any of these
sizes.
-/

namespace TableQuery
namespace Binary64

/-! ## Sizes -/

theorem magnitude_eq (value : Binary64) :
    value.magnitude = value.significand * 2 ^ value.scale :=
  Nat.shiftLeft_eq _ _

theorem isZero_iff {value : Binary64} :
    value.isZero = true ↔ value.magnitude = 0 := by
  simp [isZero, magnitude_eq]

/-- The exact magnitude. -/
def size (value : Binary64) : ℚ := value.magnitude / 2 ^ unitShift

theorem size_eq
    {value : Binary64}
    {number : Nat}
    (exact : value.magnitude = number * 2 ^ unitShift) :
    value.size = number := by
  have unit : (2 : ℚ) ^ unitShift ≠ 0 := pow_ne_zero _ (by decide)
  rw [size, exact, Nat.cast_mul, Nat.cast_pow, Nat.cast_two,
    mul_div_cancel_right₀ _ unit]

theorem size_eq_zero_iff {value : Binary64} :
    value.size = 0 ↔ value.isZero = true := by
  have unit : (2 : ℚ) ^ unitShift ≠ 0 := pow_ne_zero _ (by decide)
  rw [isZero_iff, size, div_eq_zero_iff, or_iff_left unit, Nat.cast_eq_zero]

theorem size_pos {value : Binary64} (nonzero : value.isZero = false) :
    0 < value.size := by
  have nonnegative : 0 ≤ value.size :=
    div_nonneg (Nat.cast_nonneg _) (pow_nonneg (by decide) _)
  refine lt_of_le_of_ne nonnegative fun zero => ?_
  exact Bool.false_ne_true (nonzero.symm.trans (size_eq_zero_iff.1 zero.symm))

/-- The distance to the next larger number. -/
def spacing (value : Binary64) : ℚ := 2 ^ value.scale / 2 ^ unitShift

/-- How far below a number the sizes reach that it is nearest to. -/
def reach (value : Binary64) : ℚ :=
  if value.significand = fullLength ∧ 0 < value.scale then value.spacing / 4
  else value.spacing / 2

theorem spacing_pos (value : Binary64) : 0 < value.spacing :=
  div_pos (pow_pos (by decide) _) (pow_pos (by decide) _)

theorem size_eq_spacing (value : Binary64) :
    value.size = value.significand * value.spacing := by
  rw [size, spacing, magnitude_eq, Nat.cast_mul, Nat.cast_pow, Nat.cast_two,
    mul_div_assoc]

/-! ## Intervals of sizes -/

/-- A position lies in the interval. -/
def Interval.Holds (range : Interval) (position : ℚ) : Prop :=
  if range.closed then range.lower ≤ position ∧ position ≤ range.upper
  else range.lower < position ∧ position < range.upper

/-- The number stands for a size: it is the nearest one to it, and of two that
are equally near the one with the even significand. -/
def IsNearest (value : Binary64) (size : ℚ) : Prop :=
  value.interval.Holds (size * 2 ^ (unitShift + 2))

theorem Interval.contains_iff
    {range : Interval}
    {numerator denominator : Nat}
    (positive : 0 < denominator) :
    range.contains numerator denominator = true ↔
      range.Holds (numerator / denominator) := by
  have positiveRat : (0 : ℚ) < denominator := by exact_mod_cast positive
  unfold contains Holds
  split
  · rw [decide_eq_true_iff, le_div_iff₀ positiveRat, div_le_iff₀ positiveRat]
    norm_cast
  · rw [decide_eq_true_iff, lt_div_iff₀ positiveRat, div_lt_iff₀ positiveRat]
    norm_cast

/-- The positions of an interval have no gaps. -/
theorem Interval.Holds.between
    {range : Interval}
    {lower position upper : ℚ}
    (holdsLower : range.Holds lower)
    (holdsUpper : range.Holds upper)
    (above : lower ≤ position)
    (below : position ≤ upper) : range.Holds position := by
  unfold Holds at *
  split at holdsLower
  · next closed =>
      rw [if_pos closed] at *
      exact ⟨holdsLower.1.trans above, below.trans holdsUpper.2⟩
  · next notClosed =>
      rw [if_neg notClosed] at *
      exact ⟨holdsLower.1.trans_le above, below.trans_lt holdsUpper.2⟩

theorem IsNearest.between
    {value : Binary64}
    {lower size upper : ℚ}
    (nearLower : value.IsNearest lower)
    (nearUpper : value.IsNearest upper)
    (above : lower ≤ size)
    (below : size ≤ upper) : value.IsNearest size := by
  have unit : (0 : ℚ) ≤ 2 ^ (unitShift + 2) := pow_nonneg (by decide) _
  exact Interval.Holds.between nearLower nearUpper
    (mul_le_mul_of_nonneg_right above unit)
    (mul_le_mul_of_nonneg_right below unit)

theorem spacing_mul_unit (value : Binary64) :
    value.spacing * 2 ^ (unitShift + 2) = 4 * 2 ^ value.scale := by
  have unit : (2 : ℚ) ^ unitShift ≠ 0 := pow_ne_zero _ (by decide)
  rw [spacing, pow_add, ← mul_assoc, div_mul_cancel₀ _ unit, mul_comm]
  norm_num

theorem significand_pos {value : Binary64} (nonzero : value.isZero = false) :
    0 < value.significand := by
  simpa [isZero, Nat.pos_iff_ne_zero] using nonzero

theorem lower_interval {value : Binary64} (nonzero : value.isZero = false) :
    (value.interval.lower : ℚ) =
      (value.size - value.reach) * 2 ^ (unitShift + 2) := by
  have positive := significand_pos nonzero
  have step : 2 ^ value.scale ≤ value.significand * 2 ^ value.scale :=
    Nat.le_mul_of_pos_left _ positive
  rw [sub_mul, size_eq_spacing, mul_assoc, spacing_mul_unit]
  simp only [interval, magnitude_eq, reach, Nat.shiftLeft_eq, Nat.one_mul]
  split
  · rw [Nat.cast_sub (by omega), div_mul_eq_mul_div, spacing_mul_unit]
    push_cast
    ring
  · rw [Nat.cast_sub (by omega), div_mul_eq_mul_div, spacing_mul_unit]
    push_cast
    ring

theorem upper_interval (value : Binary64) :
    (value.interval.upper : ℚ) =
      (value.size + value.spacing / 2) * 2 ^ (unitShift + 2) := by
  rw [add_mul, size_eq_spacing, mul_assoc, div_mul_eq_mul_div, spacing_mul_unit]
  simp only [interval, magnitude_eq, Nat.shiftLeft_eq, Nat.one_mul]
  push_cast
  ring

/-- A number is the nearest one to the sizes within its reach below and half the
way to the next number above. -/
theorem isNearest_iff
    {value : Binary64}
    {size : ℚ}
    (nonzero : value.isZero = false) :
    value.IsNearest size ↔
      if value.significand % 2 = 0 then
        value.size - value.reach ≤ size ∧
          size ≤ value.size + value.spacing / 2
      else
        value.size - value.reach < size ∧
          size < value.size + value.spacing / 2 := by
  have unit : (0 : ℚ) < 2 ^ (unitShift + 2) := pow_pos (by decide) _
  have closed : value.interval.closed = (value.significand % 2 == 0) := rfl
  simp only [IsNearest, Interval.Holds, lower_interval nonzero, upper_interval,
    closed, beq_iff_eq, mul_le_mul_iff_left₀ unit, mul_lt_mul_iff_left₀ unit]

/-- Sizes properly within the reach of a number are nearest to it. -/
theorem isNearest_of_lt
    {value : Binary64}
    {size : ℚ}
    (nonzero : value.isZero = false)
    (above : value.size - value.reach < size)
    (below : size < value.size + value.spacing / 2) :
    value.IsNearest size := by
  rw [isNearest_iff nonzero]
  split
  · exact ⟨above.le, below.le⟩
  · exact ⟨above, below⟩

/-- Sizes that a number is nearest to are at most half the way to the next
number above. -/
theorem IsNearest.le_add
    {value : Binary64}
    {size : ℚ}
    (nearest : value.IsNearest size) :
    size ≤ value.size + value.spacing / 2 := by
  have unit : (0 : ℚ) < 2 ^ (unitShift + 2) := pow_pos (by decide) _
  rw [← mul_le_mul_iff_left₀ unit, ← upper_interval]
  unfold IsNearest Interval.Holds at nearest
  split at nearest
  · exact nearest.2
  · exact nearest.2.le

/-- Sizes that a number is nearest to are within its reach. -/
theorem IsNearest.sub_le
    {value : Binary64}
    {size : ℚ}
    (nearest : value.IsNearest size)
    (nonzero : value.isZero = false) :
    value.size - value.reach ≤ size := by
  rw [isNearest_iff nonzero] at nearest
  split at nearest
  · exact nearest.1
  · exact nearest.1.le

theorem reach_pos (value : Binary64) : 0 < value.reach := by
  have spacing := value.spacing_pos
  unfold reach
  split <;> linarith

theorem reach_le (value : Binary64) : value.reach ≤ value.spacing / 2 := by
  have spacing := value.spacing_pos
  unfold reach
  split <;> linarith

theorem isNearest_size {value : Binary64} (nonzero : value.isZero = false) :
    value.IsNearest value.size :=
  isNearest_of_lt nonzero (by linarith [value.reach_pos])
    (by linarith [value.spacing_pos])

/-! ## Gaps between numbers -/

/-- A multiple of a power of two that is greater than another one is greater by
that power. -/
theorem add_two_pow_le
    {left right shift : Nat}
    (divides : 2 ^ shift ∣ right)
    (less : left * 2 ^ shift < right) : left * 2 ^ shift + 2 ^ shift ≤ right := by
  obtain ⟨factor, rfl⟩ := divides
  rw [Nat.mul_comm (2 ^ shift)] at less ⊢
  rw [← Nat.succ_mul]
  exact Nat.mul_le_mul_right _ (Nat.lt_of_mul_lt_mul_right less)

/-- A number of full length is greater than every one of a lower scale, by at
least twice its reach. -/
theorem gap_of_scale_lt
    {bits otherBits scale otherScale : Nat}
    (fits : bits < 2 * fullLength)
    (full : fullLength ≤ otherBits)
    (lower : scale < otherScale) :
    2 * (bits * 2 ^ scale) +
        (if otherBits = fullLength ∧ 0 < otherScale
          then 2 ^ otherScale else 2 * 2 ^ otherScale) ≤
      2 * (otherBits * 2 ^ otherScale) := by
  -- All digits of the lower number are at least one place behind.
  obtain ⟨rest, rfl⟩ := Nat.exists_eq_add_of_lt lower
  have atMost : bits * 2 ^ scale ≤
      (2 * fullLength - 1) * 2 ^ (scale + rest) :=
    Nat.mul_le_mul (by omega) (Nat.pow_le_pow_right (by decide) (by omega))
  have top : otherBits * 2 ^ (scale + rest + 1) =
      2 * (otherBits * 2 ^ (scale + rest)) := by
    rw [Nat.pow_succ]
    ring
  rw [top, Nat.pow_succ]
  by_cases least : otherBits = fullLength
  · rw [if_pos ⟨least, Nat.succ_pos _⟩, least]
    revert atMost
    simp only [fullLength]
    omega
  · have atLeast := Nat.mul_le_mul_right (2 ^ (scale + rest))
      (show fullLength + 1 ≤ otherBits by omega)
    rw [if_neg fun both => least both.1]
    revert atMost atLeast
    generalize otherBits * 2 ^ (scale + rest) = product
    simp only [fullLength]
    omega

/-- Between a number and the next one there are both the spacing of the lower and
twice the reach of the greater. -/
theorem magnitude_gap
    {value other : Binary64}
    (less : value.magnitude < other.magnitude) :
    value.magnitude + 2 ^ value.scale ≤ other.magnitude ∧
      2 * value.magnitude +
          (if other.significand = fullLength ∧ 0 < other.scale
            then 2 ^ other.scale else 2 * 2 ^ other.scale) ≤
        2 * other.magnitude := by
  obtain ⟨fits, _, short⟩ := value.normal
  obtain ⟨otherFits, _, otherShort⟩ := other.normal
  rw [magnitude_eq, magnitude_eq] at less ⊢
  obtain lower | same | higher := lt_trichotomy value.scale other.scale
  · have full := otherShort.resolve_right (Nat.ne_zero_of_lt lower)
    exact ⟨add_two_pow_le
        (Nat.dvd_mul_left_of_dvd (Nat.pow_dvd_pow 2 lower.le) _) less,
      gap_of_scale_lt fits full lower⟩
  · rw [same] at less ⊢
    have next := add_two_pow_le (Nat.dvd_mul_left _ _) less
    refine ⟨next, ?_⟩
    split <;> omega
  · have full := short.resolve_right (Nat.ne_zero_of_lt higher)
    have greater := gap_of_scale_lt otherFits full higher
    omega

theorem size_gap
    {value other : Binary64}
    (less : value.size < other.size) :
    value.size + value.spacing ≤ other.size ∧
      value.size + 2 * other.reach ≤ other.size := by
  have unit : (0 : ℚ) < 2 ^ unitShift := pow_pos (by decide) _
  unfold size at less
  rw [div_lt_div_iff_of_pos_right unit, Nat.cast_lt] at less
  obtain ⟨above, below⟩ := magnitude_gap less
  have isReach : 2 * other.reach =
      (if other.significand = fullLength ∧ 0 < other.scale
        then 2 ^ other.scale else 2 * 2 ^ other.scale) / (2 * 2 ^ unitShift) := by
    unfold reach spacing
    generalize (2 : ℚ) ^ unitShift = shift
    split <;> ring
  constructor
  · rw [size, spacing, size, ← add_div, div_le_div_iff_of_pos_right unit]
    exact_mod_cast above
  · rw [isReach, size, size, ← mul_div_mul_left _ _ (two_ne_zero' ℚ),
      ← mul_div_mul_left (other.magnitude : ℚ) _ (two_ne_zero' ℚ), ← add_div,
      div_le_div_iff_of_pos_right (mul_pos two_pos unit)]
    exact_mod_cast below

/-- No number is closer to a size than the one nearest to it. -/
theorem IsNearest.closest
    {value : Binary64}
    {size : ℚ}
    (nearest : value.IsNearest size)
    (other : Binary64) : |size - value.size| ≤ |size - other.size| := by
  have within := nearest.le_add
  obtain less | same | greater := lt_trichotomy value.size other.size
  · have gap := (size_gap less).1
    have far := neg_le_abs (size - other.size)
    exact abs_le.2 ⟨by linarith, by linarith⟩
  · rw [same]
  · have gap := (size_gap greater).2
    have far := le_abs_self (size - other.size)
    have nonnegative : 0 ≤ other.size :=
      div_nonneg (Nat.cast_nonneg _) (pow_nonneg (by decide) _)
    have nonzero : value.isZero = false := by
      rw [← Bool.not_eq_true, ← size_eq_zero_iff]
      exact (nonnegative.trans_lt greater).ne'
    have reach := nearest.sub_le nonzero
    exact abs_le.2 ⟨by linarith, by linarith⟩

/-- The sizes that a number is nearest to reach over more than a part in
`10 ^ 16` of it. -/
theorem size_lt_width {value : Binary64} :
    value.size < (value.reach + value.spacing / 2) * 10 ^ 16 := by
  have spacing := value.spacing_pos
  rw [size_eq_spacing, reach]
  split
  · next least =>
      rw [least.1]
      norm_num
      linarith
  · have fits : (value.significand : ℚ) + 1 ≤ 2 * fullLength := by
      exact_mod_cast value.normal.1
    norm_num at fits ⊢
    nlinarith

theorem isZero_of_full
    {value : Binary64}
    (full : fullLength ≤ value.significand) : value.isZero = false := by
  have positive : value.significand ≠ 0 :=
    (Nat.lt_of_lt_of_le (by decide) full).ne'
  simpa [isZero] using positive

/-- Numbers of full length are close to each other. -/
theorem spacing_le
    {value : Binary64}
    (full : fullLength ≤ value.significand) :
    fullLength * value.spacing ≤ value.size := by
  rw [size_eq_spacing]
  exact mul_le_mul_of_nonneg_right (by exact_mod_cast full) value.spacing_pos.le

/-- The least number of full length. -/
def leastFull : Binary64 := ⟨false, fullLength, 0, by decide⟩

theorem size_leastFull : leastFull.size = fullLength / 2 ^ unitShift := rfl

/-- All numbers are of full length but the tiny ones: the least number of full
length is closer to a greater size than every shorter one. -/
theorem IsNearest.full
    {value : Binary64}
    {size : ℚ}
    (nearest : value.IsNearest size)
    (notTiny : fullLength / 2 ^ unitShift ≤ size) :
    fullLength ≤ value.significand := by
  by_contra short
  have noScale : value.scale = 0 := value.normal.2.2.resolve_left short
  have unit : (0 : ℚ) < 2 ^ unitShift := pow_pos (by decide) _
  have less : value.size < leastFull.size := by
    rw [size_leastFull, Binary64.size, magnitude_eq, noScale, pow_zero, mul_one,
      div_lt_div_iff_of_pos_right unit, Nat.cast_lt]
    exact Nat.not_le.1 short
  rw [← size_leastFull] at notTiny
  have closest := nearest.closest leastFull
  rw [abs_of_nonneg (sub_nonneg.2 notTiny),
    abs_of_nonneg (sub_nonneg.2 (less.le.trans notTiny))] at closest
  linarith

end Binary64
end TableQuery
