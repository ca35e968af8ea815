import TableQuery.Proofs.NearestNumbers

/-!
# Rounding to binary64 numbers

Every operation gives the number that is nearest to its exact result, and the
result itself if that is a number. Decimals of few digits and with a small
exponent take one operation on two exact numbers, so they are read as the
numbers nearest to them.
-/

namespace TableQuery
namespace Binary64

/-! ## Rounded quotients -/

/-- A rounded quotient is off by one half at most, and even if it is off by just
that. -/
theorem roundDiv_near
    (numerator : Nat)
    {denominator : Nat}
    (positive : 0 < denominator) :
    let product := denominator * roundDiv numerator denominator
    2 * product ≤ 2 * numerator + denominator ∧
      2 * numerator ≤ 2 * product + denominator ∧
      (roundDiv numerator denominator % 2 = 1 →
        2 * product < 2 * numerator + denominator ∧
          2 * numerator < 2 * product + denominator) := by
  have parts := Nat.div_add_mod numerator denominator
  have small := Nat.mod_lt numerator positive
  have next : denominator * (numerator / denominator + 1) =
      denominator * (numerator / denominator) + denominator := Nat.mul_succ _ _
  unfold roundDiv
  dsimp only
  split
  · omega
  · split
    · rw [next]; omega
    · split
      · omega
      · rw [next]; omega

/-- A quotient without remainder is not rounded. -/
theorem roundDiv_mul (factor : Nat) {denominator : Nat}
    (positive : 0 < denominator) :
    roundDiv (denominator * factor) denominator = factor := by
  simp only [roundDiv, Nat.mul_div_cancel_left _ positive,
    Nat.mul_mod_right, Nat.mul_zero, if_pos positive]

theorem ofFields?_eq_some
    {negative : Bool}
    {significand scale : Nat}
    {value : Binary64}
    (found : ofFields? negative significand scale = some value) :
    value.negative = negative ∧ value.significand = significand ∧
      value.scale = scale := by
  unfold ofFields? at found
  split at found
  · cases found
    exact ⟨rfl, rfl, rfl⟩
  · cases found

/-- The scale at which a quotient is rounded leaves it 53 bits before the point,
or fewer if the scale is zero. -/
theorem scale_bounds
    (units : Nat)
    {denominator : Nat}
    (positive : 0 < denominator) :
    let scale := Nat.log2 (units / denominator) - 52
    units < 2 * fullLength * (denominator * 2 ^ scale) ∧
      (0 < scale → fullLength * (denominator * 2 ^ scale) ≤ units) := by
  intro scale
  have bits : fullLength = 2 ^ 52 := rfl
  constructor
  · have leading : units / denominator < 2 ^ (scale + 53) :=
      Nat.lt_of_lt_of_le Nat.lt_log2_self
        (Nat.pow_le_pow_right (by decide) (by omega))
    rw [Nat.div_lt_iff_lt_mul positive, Nat.pow_add] at leading
    calc units < 2 ^ scale * 2 ^ 53 * denominator := leading
      _ = 2 * fullLength * (denominator * 2 ^ scale) := by rw [bits]; ring
  · intro raised
    have nonzero : units / denominator ≠ 0 := by
      intro none
      simp [scale, none] at raised
    have leading : 2 ^ (scale + 52) ≤ units / denominator := by
      have exact : scale + 52 = Nat.log2 (units / denominator) := by omega
      rw [exact]
      exact Nat.log2_self_le nonzero
    rw [Nat.le_div_iff_mul_le positive, Nat.pow_add] at leading
    calc fullLength * (denominator * 2 ^ scale)
        = 2 ^ scale * 2 ^ 52 * denominator := by rw [bits]; ring
      _ ≤ units := leading

/-- A quotient is rounded at its scale, and if that takes one bit more than
fits, the scale is raised. -/
theorem ofRatio_eq_some
    {negative : Bool}
    {numerator denominator : Nat}
    {value : Binary64}
    (found : ofRatio negative numerator denominator = some value) :
    let units := numerator * 2 ^ unitShift
    let scale := Nat.log2 (units / denominator) - 52
    let rounded := roundDiv units (denominator * 2 ^ scale)
    value.negative = negative ∧
      (value.significand = rounded ∧ value.scale = scale ∨
        2 * fullLength ≤ rounded ∧ value.significand = fullLength ∧
          value.scale = scale + 1) := by
  unfold ofRatio at found
  simp only [Nat.shiftLeft_eq] at found
  split at found
  · obtain ⟨sign, significand, scale⟩ := ofFields?_eq_some found
    exact ⟨sign, .inl ⟨significand, scale⟩⟩
  · next long =>
      obtain ⟨sign, significand, scale⟩ := ofFields?_eq_some found
      exact ⟨sign, .inr ⟨Nat.le_of_not_lt long, significand, scale⟩⟩

/-- The interval of a number, in parts of a quotient. -/
theorem interval_contains_iff
    {value : Binary64}
    {units denominator : Nat} :
    let divisor := denominator * 2 ^ value.scale
    let product := divisor * value.significand
    let below :=
      if value.significand = fullLength ∧ 0 < value.scale then divisor
      else 2 * divisor
    value.interval.contains (4 * units) denominator = true ↔
      if value.significand % 2 = 0 then
        4 * product - below ≤ 4 * units ∧
          4 * units ≤ 4 * product + 2 * divisor
      else
        4 * product - below < 4 * units ∧
          4 * units < 4 * product + 2 * divisor := by
  intro divisor product below
  have step : 2 ^ value.scale * denominator = divisor := Nat.mul_comm _ _
  have centre : 4 * (value.significand * 2 ^ value.scale) * denominator =
      4 * product := by
    simp only [product, divisor]
    ring
  have lower : value.interval.lower * denominator = 4 * product - below := by
    simp only [interval, magnitude, Nat.shiftLeft_eq, Nat.one_mul,
      Nat.sub_mul, centre, below]
    split
    · rw [step]
    · rw [Nat.mul_assoc, step]
  have upper : value.interval.upper * denominator =
      4 * product + 2 * divisor := by
    simp only [interval, magnitude, Nat.shiftLeft_eq, Nat.one_mul,
      Nat.add_mul, centre, Nat.mul_assoc 2, step]
  have closed : value.interval.closed = (value.significand % 2 == 0) := rfl
  simp only [Interval.contains, lower, upper, closed, beq_iff_eq]
  split <;> simp

section

variable
  {value : Binary64}
  {units denominator : Nat}

/-- A quotient lies in the interval of the number that it is rounded to. -/
theorem contains_of_rounded
    (positive : 0 < denominator)
    (rounded : value.significand =
      roundDiv units (denominator * 2 ^ value.scale))
    (long : 0 < value.scale →
      fullLength * (denominator * 2 ^ value.scale) ≤ units) :
    value.interval.contains (4 * units) denominator = true := by
  refine interval_contains_iff.2 ?_
  have divisorPositive : 0 < denominator * 2 ^ value.scale :=
    Nat.mul_pos positive (Nat.two_pow_pos _)
  have near := roundDiv_near units divisorPositive
  rw [← rounded] at near
  have divisorLe : value.significand ≠ 0 → denominator * 2 ^ value.scale ≤
      denominator * 2 ^ value.scale * value.significand :=
    fun nonzero => Nat.le_mul_of_pos_right _ (Nat.pos_of_ne_zero nonzero)
  revert long near divisorLe
  generalize denominator * 2 ^ value.scale = divisor
  generalize value.significand = significand
  intro long near divisorLe
  by_cases least : significand = fullLength ∧ 0 < value.scale
  · -- The lower neighbour is closer, but the quotient is not below.
    obtain ⟨rfl, raised⟩ := least
    have above := long raised
    simp only [fullLength] at above near ⊢
    simp only [raised, and_self, if_true]
    omega
  · rw [if_neg least]
    revert near divisorLe
    generalize divisor * significand = product
    intro near divisorLe
    split <;> omega

/-- A quotient that is rounded up to the next power of two lies in the interval
of that. -/
theorem contains_of_raised
    {scale : Nat}
    (positive : 0 < denominator)
    (full : value.significand = fullLength)
    (raised : value.scale = scale + 1)
    (short : units < 2 * fullLength * (denominator * 2 ^ scale))
    (more : 2 * fullLength ≤ roundDiv units (denominator * 2 ^ scale)) :
    value.interval.contains (4 * units) denominator = true := by
  refine interval_contains_iff.2 ?_
  have double : denominator * 2 ^ (scale + 1) =
      2 * (denominator * 2 ^ scale) := by
    rw [Nat.pow_succ]
    ring
  rw [full, raised, if_pos (by decide), double,
    if_pos ⟨rfl, Nat.succ_pos scale⟩]
  have near := roundDiv_near units
    (Nat.mul_pos positive (Nat.two_pow_pos scale))
  have products := Nat.mul_le_mul_left (denominator * 2 ^ scale) more
  revert short near products
  generalize denominator * 2 ^ scale = divisor
  generalize divisor * roundDiv units divisor = product
  simp only [fullLength]
  omega

end

/-- A rounded quotient is the number nearest to the exact one. -/
theorem ofRatio_isNearest
    {negative : Bool}
    {numerator denominator : Nat}
    {value : Binary64}
    (positive : 0 < denominator)
    (found : ofRatio negative numerator denominator = some value) :
    value.IsNearest (numerator / denominator) := by
  have position : (numerator / denominator : ℚ) * 2 ^ (unitShift + 2) =
      (4 * (numerator * 2 ^ unitShift) : Nat) / denominator := by
    push_cast [pow_add]
    generalize (2 : ℚ) ^ unitShift = unit
    ring
  rw [IsNearest, position, ← Interval.contains_iff positive]
  obtain ⟨short, long⟩ := scale_bounds (numerator * 2 ^ unitShift) positive
  obtain ⟨_, ⟨rounded, scale⟩ | ⟨more, full, raised⟩⟩ := ofRatio_eq_some found
  · rw [← scale] at rounded long
    exact contains_of_rounded positive rounded long
  · exact contains_of_raised positive full raised short more

/-! ## Exact results -/

/-- A quotient that is a number is given as it is. -/
theorem ofRatio_exact
    {negative : Bool}
    {numerator denominator : Nat}
    {value : Binary64}
    {bits shift : Nat}
    (positive : 0 < denominator)
    (found : ofRatio negative numerator denominator = some value)
    (fits : bits < 2 * fullLength)
    (exact : numerator * 2 ^ unitShift = denominator * (bits * 2 ^ shift)) :
    value.magnitude = bits * 2 ^ shift := by
  obtain ⟨short, _⟩ := scale_bounds (numerator * 2 ^ unitShift) positive
  obtain ⟨_, fields⟩ := ofRatio_eq_some found
  revert short fields
  rw [exact, Nat.mul_div_cancel_left _ positive]
  have divides : 2 ^ (Nat.log2 (bits * 2 ^ shift) - 52) ∣ bits * 2 ^ shift := by
    by_cases zero : bits * 2 ^ shift = 0
    · exact zero ▸ Nat.dvd_zero _
    · have length : Nat.log2 (bits * 2 ^ shift) < 53 + shift := by
        rw [Nat.log2_lt zero, Nat.pow_add]
        exact Nat.mul_lt_mul_of_pos_right fits (Nat.two_pow_pos shift)
      exact Nat.dvd_mul_left_of_dvd (Nat.pow_dvd_pow 2 (by omega)) bits
  revert divides
  generalize Nat.log2 (bits * 2 ^ shift) - 52 = scale
  rintro ⟨rest, isRest⟩ short fields
  rw [isRest, ← Nat.mul_assoc] at short fields
  have divisor : 0 < denominator * 2 ^ scale :=
    Nat.mul_pos positive (Nat.two_pow_pos scale)
  have restFits : rest < 2 * fullLength := by
    rw [Nat.mul_comm] at short
    exact Nat.lt_of_mul_lt_mul_right short
  rw [roundDiv_mul rest divisor] at fields
  obtain ⟨significand, isScale⟩ | ⟨more, _⟩ := fields
  · rw [magnitude_eq, significand, isScale, isRest, Nat.mul_comm]
  · exact absurd more (Nat.not_le_of_lt restFits)

/-- Short integers are numbers. -/
theorem size_ofNat
    {number : Nat}
    {value : Binary64}
    (found : ofNat number = some value)
    (fits : number < 2 * fullLength) : value.size = number :=
  size_eq (ofRatio_exact Nat.one_pos found fits (Nat.one_mul _).symm)

/-- Small powers of ten are numbers. -/
theorem size_powerOfTen
    {exponent : Nat}
    {value : Binary64}
    (found : powerOfTen exponent = some value)
    (small : exponent ≤ 22) : value.size = (10 ^ exponent : Nat) := by
  have fits : 5 ^ exponent < 2 * fullLength :=
    Nat.lt_of_le_of_lt (Nat.pow_le_pow_right (by decide) small) (by decide)
  have split : 10 ^ exponent * 2 ^ unitShift =
      5 ^ exponent * 2 ^ (exponent + unitShift) := by
    rw [Nat.pow_add, ← Nat.mul_assoc, ← Nat.mul_pow]
  apply size_eq
  rw [split]
  exact ofRatio_exact Nat.one_pos found fits
    (by rw [Nat.one_mul, ← split]; rfl)

/-! ## Operations -/

variable {left right value : Binary64}

theorem mul_isNearest (found : left.mul right = some value) :
    value.IsNearest (left.size * right.size) := by
  rw [mul, Nat.one_shiftLeft] at found
  have nearest := ofRatio_isNearest (Nat.two_pow_pos _) found
  rwa [Nat.cast_mul, Nat.cast_pow, Nat.cast_two, two_mul, pow_add,
    ← div_mul_div_comm] at nearest

theorem div_isNearest
    (found : left.div right = some value)
    (nonzero : right.size ≠ 0) :
    value.IsNearest (left.size / right.size) := by
  have positive : 0 < right.magnitude :=
    Nat.pos_of_ne_zero fun zero =>
      nonzero (size_eq_zero_iff.2 (isZero_iff.2 zero))
  have unit : (2 : ℚ) ^ unitShift ≠ 0 := pow_ne_zero _ (by decide)
  rw [size, size, div_div_div_cancel_right₀ unit]
  exact ofRatio_isNearest positive found

theorem mul_isZero
    (found : left.mul right = some value)
    (zero : left.isZero = true) : value.isZero = true := by
  rw [mul, isZero_iff.1 zero, Nat.zero_mul, Nat.one_shiftLeft] at found
  have exact : value.magnitude = 0 * 2 ^ 0 :=
    ofRatio_exact (Nat.two_pow_pos _) found (by decide) (by simp)
  exact isZero_iff.2 (exact.trans (Nat.zero_mul _))

theorem shrink_of_isZero
    (steps : Nat)
    (zero : value.isZero = true) : shrink steps value = some value := by
  cases steps with
  | zero => rfl
  | succ steps => rw [shrink, if_pos zero]

/-- Zero stays zero, whatever it is scaled by. -/
theorem scaleByTen_isZero
    {exponent : Int}
    (found : left.scaleByTen exponent = some value)
    (zero : left.isZero = true) : value.isZero = true := by
  unfold scaleByTen at found
  dsimp only at found
  split at found
  · split at found
    · rw [Option.bind_eq_bind, Option.bind_eq_some_iff] at found
      obtain ⟨power, _, product⟩ := found
      exact mul_isZero product zero
    · exact Option.some.inj found ▸ zero
  · rw [shrink_of_isZero _ zero, Option.bind_eq_bind, Option.bind_some,
      if_pos zero] at found
    exact Option.some.inj found ▸ zero

/-- Scaling by a small power of ten is one operation. -/
theorem scaleByTen_isNearest
    {exponent : Int}
    (found : left.scaleByTen exponent = some value)
    (nonzero : left.isZero = false)
    (small : exponent.natAbs ≤ 22) :
    value.IsNearest (left.size * 10 ^ exponent) := by
  unfold scaleByTen at found
  dsimp only at found
  split at found
  · next positive =>
      rw [if_pos (Nat.le_trans small (by decide)), Option.bind_eq_bind,
        Option.bind_eq_some_iff] at found
      obtain ⟨power, isPower, product⟩ := found
      have nearest := mul_isNearest product
      rw [size_powerOfTen isPower small] at nearest
      have power : ((10 ^ exponent.natAbs : Nat) : ℚ) = 10 ^ exponent := by
        rw [Nat.cast_pow, ← zpow_natCast, Int.natAbs_of_nonneg positive]
        rfl
      rwa [power] at nearest
  · next negative =>
      have steps : (exponent.natAbs - 1) / largestPower = 0 :=
        Nat.div_eq_of_lt (by simp only [largestPower]; omega)
      rw [steps, shrink, Option.bind_eq_bind, Option.bind_some, nonzero,
        if_neg Bool.false_ne_true, Nat.zero_mul, Nat.sub_zero,
        Option.bind_eq_some_iff] at found
      obtain ⟨power, isPower, quotient⟩ := found
      have size := size_powerOfTen isPower small
      have nonzero : power.size ≠ 0 := by
        rw [size]
        exact_mod_cast (Nat.pow_pos (by decide)).ne'
      have nearest := div_isNearest quotient nonzero
      rw [size] at nearest
      have power : ((10 ^ exponent.natAbs : Nat) : ℚ) = (10 ^ exponent)⁻¹ := by
        rw [Nat.cast_pow, ← zpow_natCast, ← zpow_neg]
        congr 1
        omega
      rwa [power, div_inv_eq_mul] at nearest

/-! ## Decimals -/

section

variable
  {negative : Bool}
  {digits : Nat}
  {exponent : Int}

theorem ofDecimal_eq_some_iff :
    ofDecimal negative digits exponent = some value ↔
      ∃ whole scaled, ofNat digits = some whole ∧
        whole.scaleByTen exponent = some scaled ∧
        { scaled with negative := negative } = value := by
  simp only [ofDecimal, Option.bind_eq_bind, Option.bind_eq_some_iff,
    Option.some.injEq]
  constructor
  · rintro ⟨whole, isWhole, scaled, isScaled, same⟩
    exact ⟨whole, scaled, isWhole, isScaled, same⟩
  · rintro ⟨whole, scaled, isWhole, isScaled, same⟩
    exact ⟨whole, isWhole, scaled, isScaled, same⟩

theorem negative_of_ofDecimal
    (found : ofDecimal negative digits exponent = some value) :
    value.negative = negative := by
  obtain ⟨_, _, _, _, rfl⟩ := ofDecimal_eq_some_iff.1 found
  rfl

/-- A decimal of few digits and with a small exponent is read as the number
nearest to it. -/
theorem ofDecimal_isNearest
    (found : ofDecimal negative digits exponent = some value)
    (nonzero : digits ≠ 0)
    (fits : digits < 2 * fullLength)
    (small : exponent.natAbs ≤ 22) :
    value.IsNearest (digits * 10 ^ exponent) := by
  obtain ⟨whole, scaled, isWhole, isScaled, rfl⟩ :=
    ofDecimal_eq_some_iff.1 found
  have size := size_ofNat isWhole fits
  have wholeNonzero : whole.isZero = false := by
    rw [← Bool.not_eq_true, ← size_eq_zero_iff, size, Nat.cast_eq_zero]
    exact nonzero
  have nearest := scaleByTen_isNearest isScaled wholeNonzero small
  rwa [size] at nearest

/-- Zero is read as zero, whatever its exponent is. -/
theorem isZero_of_ofDecimal
    (found : ofDecimal negative 0 exponent = some value) :
    value.isZero = true := by
  obtain ⟨whole, scaled, isWhole, isScaled, rfl⟩ :=
    ofDecimal_eq_some_iff.1 found
  have size : whole.size = 0 := by
    rw [size_ofNat isWhole (by decide), Nat.cast_zero]
  have zero := scaleByTen_isZero isScaled (size_eq_zero_iff.1 size)
  exact zero

end

end Binary64
end TableQuery
