import Mathlib.Algebra.Order.Floor.Semifield
import Mathlib.Data.Rat.Floor
import Mathlib.Tactic.NormNum
import TableQuery.Proofs.Rounding

/-!
# Shortest decimals

The decimal that a number is written as is one that it is the nearest number to.
It has at most seventeen digits. A decimal of at most fifteen digits is the only
one of that many that its nearest number stands for, so it is found again.
-/

namespace TableQuery
namespace Binary64

/-! ## Leading digits -/

/-- A power of ten in terms of a lower one. -/
theorem ten_zpow
    {exponent lower : Int}
    (count : Nat)
    (sum : lower + count = exponent) :
    (10 : ℚ) ^ exponent = 10 ^ lower * 10 ^ count := by
  rw [← sum, zpow_add₀ (by decide), zpow_natCast]

theorem cast_tenTo (exponent : Nat) : (tenTo exponent : ℚ) = 10 ^ exponent := by
  rw [tenTo, Nat.pow_eq, Nat.cast_pow, Nat.cast_ofNat]

/-- A number is written with as many digits as the power of ten above it has
zeros. -/
theorem pow_digitCount {number : Nat} (positive : 0 < number) :
    10 ^ (digitCount number - 1) ≤ number ∧ number < 10 ^ digitCount number := by
  have count : 0 < digitCount number := Nat.length_toDigits_pos
  constructor
  · by_cases single : digitCount number = 1
    · rw [single]
      exact positive
    · by_contra less
      have shorter := (Nat.length_toDigits_le_iff (by decide)
        (show 0 < digitCount number - 1 by omega)).2 (Nat.not_le.1 less)
      change digitCount number ≤ digitCount number - 1 at shorter
      omega
  · exact (Nat.length_toDigits_le_iff (by decide) count).1 le_rfl

theorem two_pow_le_tenTo (exponent : Nat) :
    2 ^ (3 * exponent) ≤ tenTo exponent := by
  rw [Nat.pow_mul]
  exact Nat.pow_le_pow_left (by decide) exponent

/-- The leading exponent is that of the greatest power of ten that is not above
the number. -/
theorem leadingExponent_spec
    {value : Binary64}
    (nonzero : value.isZero = false) :
    (10 : ℚ) ^ value.leadingExponent ≤ value.size ∧
      value.size < 10 ^ (value.leadingExponent + 1) := by
  have nonempty : 0 < value.magnitude := Nat.pos_of_ne_zero fun zero =>
    Bool.false_ne_true (nonzero.symm.trans (isZero_iff.2 zero))
  -- The numbers shrink to `2 ^ (-1074)`, so the leading digit is not cut off.
  have visible : 2 ^ unitShift ≤ value.magnitude * tenTo 400 :=
    calc 2 ^ unitShift ≤ 2 ^ (3 * 400) :=
          Nat.pow_le_pow_right (by decide) (by decide)
      _ ≤ tenTo 400 := two_pow_le_tenTo 400
      _ ≤ value.magnitude * tenTo 400 := Nat.le_mul_of_pos_left _ nonempty
  generalize isShown :
    (value.magnitude * tenTo 400) >>> unitShift = shown at *
  have isFloor : ⌊value.size * 10 ^ 400⌋₊ = shown := by
    rw [← isShown, Nat.shiftRight_eq_div_pow, ← Nat.floor_div_eq_div (K := ℚ),
      Nat.cast_mul, cast_tenTo, Nat.cast_pow, Nat.cast_two, size,
      mul_div_right_comm]
  have positive : 0 < shown := by
    rw [← isShown, Nat.shiftRight_eq_div_pow]
    exact Nat.div_pos visible (Nat.two_pow_pos _)
  have count : 0 < digitCount shown := Nat.length_toDigits_pos
  have isLead : value.leadingExponent = (digitCount shown - 1 : Nat) - 400 := by
    rw [leadingExponent, isShown]
    omega
  obtain ⟨low, high⟩ := pow_digitCount positive
  have unit : (0 : ℚ) < 10 ^ 400 := pow_pos (by decide) _
  have nonnegative : 0 ≤ value.size * 10 ^ 400 :=
    mul_nonneg (size_pos nonzero).le unit.le
  have scaled (power : Nat) :
      (10 : ℚ) ^ ((power : Int) - 400) = 10 ^ power / 10 ^ 400 := by
    rw [zpow_sub₀ (by decide), zpow_natCast]
    rfl
  have next : ((digitCount shown - 1 : Nat) - 400 : Int) + 1 =
      (digitCount shown : Nat) - 400 := by
    omega
  rw [isLead, next, scaled, scaled, div_le_iff₀ unit, lt_div_iff₀ unit]
  constructor
  · calc (10 : ℚ) ^ (digitCount shown - 1) ≤ shown := by exact_mod_cast low
      _ ≤ value.size * 10 ^ 400 := isFloor ▸ Nat.floor_le nonnegative
  · calc value.size * 10 ^ 400 < shown + 1 :=
          isFloor ▸ Nat.lt_floor_add_one _
      _ ≤ 10 ^ digitCount shown := by exact_mod_cast high

/-! ## Grids of decimals -/

/-- The value of a decimal. -/
def Decimal.value (decimal : Decimal) : ℚ :=
  decimal.digits * 10 ^ decimal.exponent

theorem tenPower_spec (exponent : Int) :
    0 < (tenPower exponent).1 ∧ 0 < (tenPower exponent).2 ∧
      ((tenPower exponent).1 : ℚ) / (tenPower exponent).2 = 10 ^ exponent := by
  have positive : 0 < tenTo exponent.natAbs := Nat.pow_pos (by decide)
  unfold tenPower
  split
  · next nonnegative =>
      refine ⟨positive, Nat.one_pos, ?_⟩
      rw [Nat.cast_one, div_one, cast_tenTo, ← zpow_natCast,
        Int.natAbs_of_nonneg nonnegative]
  · refine ⟨Nat.one_pos, positive, ?_⟩
    rw [Nat.cast_one, one_div, cast_tenTo, ← zpow_natCast, ← zpow_neg]
    congr 1
    omega

/-- One of the two decimals of a grid next to the number is chosen if the number
is nearest to it. -/
theorem onGrid?_cases (value : Binary64) (exponent : Int) :
    let floor := ⌊value.size / 10 ^ exponent⌋₊
    (∃ digits : Nat, value.onGrid? exponent = some ⟨digits, exponent⟩ ∧
      digits ≤ floor + 1 ∧ value.IsNearest (digits * 10 ^ exponent)) ∨
    value.onGrid? exponent = none ∧
      ¬ value.IsNearest (floor * 10 ^ exponent) ∧
      ¬ value.IsNearest ((floor + 1 : Nat) * 10 ^ exponent) := by
  intro floor
  obtain ⟨upPos, downPos, isPower⟩ := tenPower_spec exponent
  unfold onGrid?
  revert upPos downPos isPower
  generalize tenPower exponent = power
  obtain ⟨up, down⟩ := power
  intro upPos downPos isPower
  simp only at upPos downPos isPower ⊢
  have unit : (2 : ℚ) ^ unitShift ≠ 0 := pow_ne_zero _ (by decide)
  have upNonzero : (up : ℚ) ≠ 0 := by exact_mod_cast upPos.ne'
  have downNonzero : (down : ℚ) ≠ 0 := by exact_mod_cast downPos.ne'
  have isFloor :
      4 * value.magnitude * down / up <<< (unitShift + 2) = floor := by
    rw [Nat.shiftLeft_eq, ← Nat.floor_div_eq_div (K := ℚ)]
    simp only [floor, size, ← isPower]
    congr 1
    push_cast [pow_add]
    revert unit
    generalize (2 : ℚ) ^ unitShift = unit
    intro unit
    field_simp
  have isContained (digits : Nat) :
      value.interval.contains (digits * up <<< (unitShift + 2)) down = true ↔
        value.IsNearest (digits * 10 ^ exponent) := by
    rw [Interval.contains_iff downPos, IsNearest, ← isPower, Nat.shiftLeft_eq]
    push_cast
    rw [← mul_assoc, mul_div_assoc', div_mul_eq_mul_div]
  rw [isFloor]
  split
  · next low high =>
      refine .inr ⟨rfl, fun nearest => ?_, fun nearest => ?_⟩
      · exact Bool.false_ne_true (low.symm.trans ((isContained _).2 nearest))
      · exact Bool.false_ne_true (high.symm.trans ((isContained _).2 nearest))
  · next low _ => exact .inl ⟨floor, rfl, by omega, (isContained _).1 low⟩
  · next _ high => exact .inl ⟨floor + 1, rfl, le_rfl, (isContained _).1 high⟩
  · next low high =>
      left
      split_ifs
      · exact ⟨floor, rfl, by omega, (isContained _).1 low⟩
      · exact ⟨floor + 1, rfl, le_rfl, (isContained _).1 high⟩
      · exact ⟨floor, rfl, by omega, (isContained _).1 low⟩
      · exact ⟨floor + 1, rfl, le_rfl, (isContained _).1 high⟩

/-- A decimal is found on every grid that has one which the number is nearest
to. -/
theorem exists_onGrid?_of_isNearest
    {value : Binary64}
    {exponent : Int}
    {digits : Nat}
    (nonzero : value.isZero = false)
    (nearest : value.IsNearest (digits * 10 ^ exponent)) :
    ∃ found, value.onGrid? exponent = some found := by
  obtain ⟨_, found, _⟩ | ⟨_, notLow, notHigh⟩ := value.onGrid?_cases exponent
  · exact ⟨_, found⟩
  · have power : (0 : ℚ) < 10 ^ exponent := zpow_pos (by decide) _
    have self := isNearest_size nonzero
    have quotient : 0 ≤ value.size / 10 ^ exponent :=
      div_nonneg (size_pos nonzero).le power.le
    obtain below | above := le_or_gt ((digits : ℚ) * 10 ^ exponent) value.size
    · refine absurd (nearest.between self ?_ ?_) notLow
      · have least := Nat.le_floor ((le_div_iff₀ power).2 below)
        exact mul_le_mul_of_nonneg_right (by exact_mod_cast least) power.le
      · exact (le_div_iff₀ power).1 (Nat.floor_le quotient)
    · refine absurd (self.between nearest ?_ ?_) notHigh
      · have next := Nat.lt_floor_add_one (value.size / 10 ^ exponent)
        exact ((div_lt_iff₀ power).1 (by exact_mod_cast next)).le
      · have greater := (Nat.floor_lt quotient).2 ((div_lt_iff₀ power).2 above)
        exact mul_le_mul_of_nonneg_right (by exact_mod_cast greater) power.le

/-- Below the leading digit a number has as many digits before the point of a
grid as the grid is finer. -/
theorem floor_onGrid_lt
    {value : Binary64}
    (nonzero : value.isZero = false)
    (count : Nat) :
    ⌊value.size / 10 ^ (value.leadingExponent - count)⌋₊ < 10 ^ (count + 1) := by
  obtain ⟨_, less⟩ := leadingExponent_spec nonzero
  have power : (0 : ℚ) < 10 ^ (value.leadingExponent - count) :=
    zpow_pos (by decide) _
  have leading : (10 : ℚ) ^ (value.leadingExponent + 1) =
      10 ^ (value.leadingExponent - count) * 10 ^ (count + 1) :=
    ten_zpow (count + 1) (by omega)
  rw [Nat.floor_lt (div_nonneg (size_pos nonzero).le power.le),
    div_lt_iff₀ power, Nat.cast_pow, Nat.cast_ofNat, mul_comm, ← leading]
  exact less

/-- Seventeen digits always suffice. -/
theorem exists_isNearest_seventeen
    {value : Binary64}
    (nonzero : value.isZero = false) :
    ∃ digits : Nat,
      value.IsNearest (digits * 10 ^ (value.leadingExponent - 16)) := by
  obtain ⟨least, _⟩ := leadingExponent_spec nonzero
  have positive : (0 : ℚ) < 10 ^ (value.leadingExponent - 16) :=
    zpow_pos (by decide) _
  have leading : (10 : ℚ) ^ value.leadingExponent =
      10 ^ (value.leadingExponent - 16) * 10 ^ 16 := ten_zpow 16 (by omega)
  have width := value.size_lt_width
  have reach := value.reach_pos
  have spacing := value.spacing_pos
  rw [leading] at least
  revert positive least
  generalize (10 : ℚ) ^ (value.leadingExponent - 16) = power
  intro least positive
  have quotient : 0 ≤ value.size / power :=
    div_nonneg (size_pos nonzero).le positive.le
  have low := (le_div_iff₀ positive).1 (Nat.floor_le quotient)
  have high := (div_lt_iff₀ positive).1
    (Nat.lt_floor_add_one (value.size / power))
  obtain near | far := lt_or_ge (value.size - value.reach)
    (⌊value.size / power⌋₊ * power)
  · exact ⟨_, isNearest_of_lt nonzero near (by linarith)⟩
  · refine ⟨⌊value.size / power⌋₊ + 1, isNearest_of_lt nonzero ?_ ?_⟩
    · push_cast
      linarith
    · push_cast
      linarith

/-! ## The shortest decimal -/

theorem Decimal.value_trim (steps : Nat) (decimal : Decimal) :
    (decimal.trim steps).value = decimal.value := by
  induction steps generalizing decimal with
  | zero => rfl
  | succ steps hypothesis =>
      unfold trim
      split
      · next divisible =>
          rw [hypothesis, value, value, zpow_add_one₀ (by decide),
            mul_comm _ 10, ← mul_assoc]
          have digits : decimal.digits / 10 * 10 = decimal.digits := by omega
          exact congrArg (· * _) (by exact_mod_cast digits)
      · rfl

/-- What is found first at the numbers from zero on is found at none before. -/
theorem findSome?_range_spec
    {α : Type}
    {length index : Nat}
    {search : Nat → Option α}
    (within : index < length)
    (found : (search index).isSome = true) :
    ∃ first < length, ∃ result,
      (List.range length).findSome? search = some result ∧
      search first = some result ∧ ∀ before < first, search before = none := by
  have some : (List.range length).findSome? search ≠ none := by
    intro none
    rw [List.findSome?_eq_none_iff] at none
    rw [none index (List.mem_range.2 within)] at found
    cases found
  obtain ⟨result, isResult⟩ := Option.ne_none_iff_exists'.1 some
  obtain ⟨passed, first, rest, isRange, isFirst, before⟩ :=
    List.findSome?_eq_some_iff.1 isResult
  have firstWithin : first < length := by
    rw [← List.mem_range, isRange]
    exact List.mem_append_right _ List.mem_cons_self
  refine ⟨first, firstWithin, result, isResult, isFirst, fun earlier less => ?_⟩
  have ordered := isRange ▸ List.pairwise_lt_range (n := length)
  have following : ∀ later ∈ rest, first < later :=
    (List.pairwise_cons.1 (List.pairwise_append.1 ordered).2.1).1
  have present : earlier ∈ passed ++ first :: rest := by
    rw [← isRange, List.mem_range]
    exact less.trans firstWithin
  rw [List.mem_append, List.mem_cons] at present
  obtain isPassed | rfl | isLater := present
  · exact before earlier isPassed
  · exact absurd less (lt_irrefl _)
  · exact absurd less (following earlier isLater).asymm

/-- The shortest decimal has at most seventeen digits and stands for the number,
and no decimal on a coarser grid does. -/
theorem shortest_spec {value : Binary64} (nonzero : value.isZero = false) :
    ∃ count digits : Nat, digits ≤ 10 ^ 17 ∧
      value.shortest.value = digits * 10 ^ (value.leadingExponent - count) ∧
      value.IsNearest value.shortest.value ∧
      ∀ fewer < count, ∀ digits : Nat,
        ¬ value.IsNearest (digits * 10 ^ (value.leadingExponent - fewer)) := by
  obtain ⟨_, seventeen⟩ := exists_isNearest_seventeen nonzero
  obtain ⟨_, last⟩ := exists_onGrid?_of_isNearest nonzero seventeen
  let search (count : Nat) : Option Decimal :=
    value.onGrid? (value.leadingExponent - count)
  have within : (search 16).isSome = true := Option.isSome_of_eq_some last
  obtain ⟨count, isCount, result, found, isResult, before⟩ :=
    findSome?_range_spec (show 16 < 17 by decide) within
  have shortest : value.shortest.value = result.value := by
    rw [shortest, Decimal.value_trim]
    exact congrArg (fun found => (Option.getD found default).value) found
  obtain ⟨digits, chosen, least, nearest⟩ | ⟨none, _⟩ :=
    value.onGrid?_cases (value.leadingExponent - count)
  · obtain rfl := Option.some.inj (isResult.symm.trans chosen)
    refine ⟨count, digits, ?_, shortest, shortest ▸ nearest, ?_⟩
    · calc digits ≤ _ := least
        _ ≤ 10 ^ (count + 1) := floor_onGrid_lt nonzero count
        _ ≤ 10 ^ 17 := Nat.pow_le_pow_right (by decide) (by omega)
    · intro fewer less other isNearest
      obtain ⟨_, onGrid⟩ := exists_onGrid?_of_isNearest nonzero isNearest
      have notFound := before fewer less
      exact Option.some_ne_none _ (onGrid.symm.trans notFound)
  · exact absurd (isResult.symm.trans none) (Option.some_ne_none _)

theorem digits_shortest_pos
    {value : Binary64}
    (nonzero : value.isZero = false) : 0 < value.shortest.digits := by
  obtain ⟨_, _, _, _, nearest, _⟩ := shortest_spec nonzero
  refine Nat.pos_of_ne_zero fun zero => ?_
  rw [Decimal.value, zero, Nat.cast_zero, zero_mul] at nearest
  -- Zero itself is closer to zero than any other number.
  have isZero : (Binary64.zero false).size = 0 := size_eq_zero_iff.2 rfl
  have closest := nearest.closest (Binary64.zero false)
  rw [isZero, zero_sub, abs_neg, sub_zero, abs_zero,
    abs_of_pos (size_pos nonzero)] at closest
  exact absurd closest (size_pos nonzero).not_ge

/-! ## Decimals of fifteen digits -/

/-- Every decimal is on the finer grids too. -/
theorem decimal_onFiner
    {coarse fine : Int}
    (digits : Nat)
    (finer : fine ≤ coarse) :
    (digits * 10 ^ coarse : ℚ) =
      (digits * 10 ^ (coarse - fine).toNat : Nat) * 10 ^ fine := by
  have power : (10 : ℚ) ^ coarse = 10 ^ fine * 10 ^ (coarse - fine).toNat :=
    ten_zpow (coarse - fine).toNat (by omega)
  rw [power, Nat.cast_mul, Nat.cast_pow, Nat.cast_ofNat]
  ring

/-- Decimals of more than seventeen digits that do not end in zero are not ones
of seventeen digits. -/
theorem decimal_ne_of_long
    {long short : Nat}
    {unit exponent : Int}
    (isLong : 10 ^ 17 ≤ long)
    (noZero : ¬ 10 ∣ long)
    (isShort : short ≤ 10 ^ 17) :
    (short * 10 ^ exponent : ℚ) ≠ long * 10 ^ unit := by
  intro same
  obtain finer | coarser := le_or_gt unit exponent
  · rw [decimal_onFiner short finer] at same
    have digits := mul_right_cancel₀ (zpow_ne_zero unit (by decide)) same
    rw [Nat.cast_inj] at digits
    apply noZero
    cases shift : (exponent - unit).toNat with
    | zero =>
        rw [shift, Nat.pow_zero, Nat.mul_one] at digits
        have least : long = 10 ^ 17 := by omega
        rw [least]
        decide
    | succ less =>
        rw [← digits, shift, Nat.pow_succ]
        exact Nat.dvd_mul_left_of_dvd (Nat.dvd_mul_left 10 _) short
  · rw [decimal_onFiner long coarser.le] at same
    have digits := mul_right_cancel₀ (zpow_ne_zero exponent (by decide)) same
    rw [Nat.cast_inj] at digits
    have power : 10 ≤ 10 ^ (unit - exponent).toNat :=
      Nat.le_self_pow (by omega) 10
    have longer : 10 ^ 17 * 10 ≤ short :=
      digits ▸ Nat.mul_le_mul isLong power
    omega

/-- On a grid of fifteen digits there is only one decimal that a full number is
nearest to. -/
theorem IsNearest.unique_fifteen
    {value : Binary64}
    {left right : Nat}
    (full : fullLength ≤ value.significand)
    (nearLeft : value.IsNearest (left * 10 ^ (value.leadingExponent - 14)))
    (nearRight : value.IsNearest (right * 10 ^ (value.leadingExponent - 14))) :
    left = right := by
  have nonzero := isZero_of_full full
  obtain ⟨_, less⟩ := leadingExponent_spec nonzero
  have leading : (10 : ℚ) ^ (value.leadingExponent + 1) =
      10 ^ (value.leadingExponent - 14) * 10 ^ 15 := ten_zpow 15 (by omega)
  rw [leading] at less
  have spacing := spacing_le full
  have leftAbove := nearLeft.sub_le nonzero
  have leftBelow := nearLeft.le_add
  have rightAbove := nearRight.sub_le nonzero
  have rightBelow := nearRight.le_add
  have reach := value.reach_le
  revert less leftAbove leftBelow rightAbove rightBelow
  generalize (10 : ℚ) ^ (value.leadingExponent - 14) = power
  intro less leftAbove leftBelow rightAbove rightBelow
  norm_num at spacing
  have narrow : value.spacing < power := by linarith
  have positive : 0 < power := value.spacing_pos.trans narrow
  have close : ∀ {first second : Nat},
      (first * power : ℚ) - second * power < power → first ≤ second := by
    intro first second difference
    have scaled : (first : ℚ) * power < (second + 1 : Nat) * power := by
      push_cast
      linarith
    have below := lt_of_mul_lt_mul_right scaled positive.le
    exact Nat.le_of_lt_succ (by exact_mod_cast below)
  exact Nat.le_antisymm (close (by linarith)) (close (by linarith))

/-- A decimal of fifteen digits that a full number is nearest to has no digits
behind those of the number. -/
theorem IsNearest.leading_le
    {value : Binary64}
    {digits : Nat}
    {exponent : Int}
    (full : fullLength ≤ value.significand)
    (few : digits < 10 ^ 15)
    (nearest : value.IsNearest (digits * 10 ^ exponent)) :
    value.leadingExponent - 14 ≤ exponent := by
  by_contra finer
  have nonzero := isZero_of_full full
  obtain ⟨least, _⟩ := leadingExponent_spec nonzero
  have leading : (10 : ℚ) ^ value.leadingExponent =
      10 ^ (value.leadingExponent - 15) * 10 ^ 15 := ten_zpow 15 (by omega)
  have power : (10 : ℚ) ^ exponent ≤ 10 ^ (value.leadingExponent - 15) :=
    zpow_le_zpow_right₀ (by norm_num) (by omega)
  have positive : (0 : ℚ) < 10 ^ (value.leadingExponent - 15) :=
    zpow_pos (by decide) _
  have fewer : (digits : ℚ) ≤ 10 ^ 15 - 1 := by
    have less : (digits : ℚ) + 1 ≤ 10 ^ 15 := by exact_mod_cast few
    linarith
  have bound : (digits : ℚ) * 10 ^ exponent ≤
      (10 ^ 15 - 1) * 10 ^ (value.leadingExponent - 15) :=
    mul_le_mul fewer power (zpow_pos (by decide) _).le (by norm_num)
  have within := nearest.sub_le nonzero
  have spacing := spacing_le full
  have reach := value.reach_le
  rw [leading] at least
  revert least positive bound
  generalize (10 : ℚ) ^ (value.leadingExponent - 15) = power
  intro least positive bound
  norm_num at spacing bound least
  linarith

/-- A decimal of at most fifteen digits is what a full number that is nearest to
it is written as. -/
theorem value_shortest
    {value : Binary64}
    {digits : Nat}
    {exponent : Int}
    (full : fullLength ≤ value.significand)
    (few : digits < 10 ^ 15)
    (nearest : value.IsNearest (digits * 10 ^ exponent)) :
    value.shortest.value = digits * 10 ^ exponent := by
  have onGrid := decimal_onFiner digits (nearest.leading_le full few)
  rw [onGrid] at nearest ⊢
  obtain ⟨count, found, _, isShortest, nearShortest, coarser⟩ :=
    shortest_spec (isZero_of_full full)
  have enough : count ≤ 14 := Nat.not_lt.1 fun more =>
    coarser 14 more _ nearest
  have shortestOnGrid := decimal_onFiner found
    (show value.leadingExponent - 14 ≤ value.leadingExponent - count by omega)
  rw [isShortest, shortestOnGrid] at nearShortest ⊢
  rw [nearShortest.unique_fifteen full nearest]

/-- A decimal of at most fifteen digits and with a small exponent is read as a
number that is written as it again. -/
theorem value_shortest_of_ofDecimal
    {negative : Bool}
    {digits : Nat}
    {exponent : Int}
    {value : Binary64}
    (found : ofDecimal negative digits exponent = some value)
    (nonzero : digits ≠ 0)
    (few : digits < 10 ^ 15)
    (small : exponent.natAbs ≤ 22) :
    value.isZero = false ∧
      value.shortest.value = digits * 10 ^ exponent := by
  have nearest := ofDecimal_isNearest found nonzero
    (few.trans (by decide)) small
  have bits : fullLength * 10 ^ 22 ≤ 2 ^ unitShift :=
    calc fullLength * 10 ^ 22 ≤ 2 ^ 200 := by decide
      _ ≤ 2 ^ unitShift := Nat.pow_le_pow_right (by decide) (by decide)
  have bitsRat : (fullLength : ℚ) * 10 ^ 22 ≤ 2 ^ unitShift := by
    exact_mod_cast bits
  have notTiny : (fullLength / 2 ^ unitShift : ℚ) ≤ digits * 10 ^ exponent :=
    calc (fullLength / 2 ^ unitShift : ℚ) ≤ (10 ^ 22)⁻¹ := by
          rw [div_le_iff₀ (pow_pos (by decide) _), inv_mul_eq_div,
            le_div_iff₀ (pow_pos (by decide) _)]
          exact bitsRat
      _ = 10 ^ (-22 : Int) := by rw [zpow_neg]; rfl
      _ ≤ 10 ^ exponent := zpow_le_zpow_right₀ (by norm_num) (by omega)
      _ ≤ digits * 10 ^ exponent :=
          le_mul_of_one_le_left (zpow_pos (by decide) _).le
            (by exact_mod_cast Nat.pos_of_ne_zero nonzero)
  have full := nearest.full notTiny
  exact ⟨isZero_of_full full, value_shortest full few nearest⟩

end Binary64
end TableQuery
