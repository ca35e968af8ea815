import TableQuery.Proofs.Marshalling
import TableQuery.Proofs.NumberLiterals
import TableQuery.Proofs.ShortestDecimals

/-!
# Texts of numbers

A number is written as a JSON number again, in one of four layouts. What the
text denotes is the integer itself, or the shortest decimal of a binary64 number.
-/

namespace TableQuery
namespace Number

/-! ## Digits -/

theorem ofDigits_toDigits (number : Nat) :
    ofDigits (Nat.toDigits 10 number) = number :=
  Nat.ofDigitChars_ten_toDigits

theorem ofDigits_append (left right : List Char) :
    ofDigits (left ++ right) =
      10 ^ right.length * ofDigits left + ofDigits right := by
  change Nat.ofDigitChars 10 (left ++ right) 0 = _
  rw [Nat.ofDigitChars_append, Nat.ofDigitChars_eq_ofDigitChars_zero]
  rfl

theorem ofDigits_replicate (count : Nat) :
    ofDigits (List.replicate count '0') = 0 := by
  change Nat.ofDigitChars 10 _ 0 = 0
  rw [Nat.ofDigitChars_replicate_zero, Nat.mul_zero]

theorem areDigits_toDigits (number : Nat) :
    AreDigits (Nat.toDigits 10 number) where
  nonempty := Nat.toDigits_ne_nil
  digits _ := Json.isDigit_of_mem_toDigits

theorem isDigit_of_mem_zeros
    {count : Nat}
    {character : Char}
    (member : character ∈ List.replicate count '0') :
    Json.Scanner.isDigit character = true := by
  rw [(List.mem_replicate.1 member).2]
  decide

/-- Zeros behind the digits of a number. -/
theorem areDigits_append_zeros (number count : Nat) :
    AreDigits (Nat.toDigits 10 number ++ List.replicate count '0') where
  nonempty := List.append_ne_nil_of_left_ne_nil Nat.toDigits_ne_nil _
  digits := List.forall_mem_append.2
    ⟨(areDigits_toDigits number).digits, fun _ => isDigit_of_mem_zeros⟩

/-- Zeros before the digits of a number. -/
theorem areDigits_zeros_append (count number : Nat) :
    AreDigits (List.replicate count '0' ++ Nat.toDigits 10 number) where
  nonempty := List.append_ne_nil_of_right_ne_nil _ Nat.toDigits_ne_nil
  digits := List.forall_mem_append.2
    ⟨fun _ => isDigit_of_mem_zeros, (areDigits_toDigits number).digits⟩

/-- A positive number is not written with a zero first. -/
theorem toDigits_ne_zero_cons
    {number : Nat}
    (positive : 0 < number)
    (rest : List Char) : Nat.toDigits 10 number ≠ '0' :: rest := by
  intro starts
  have zero := ofDigits_toDigits number
  rw [starts, toDigits_head starts] at zero
  exact positive.ne' zero.symm

theorem AreDigits.areWhole
    {text : List Char}
    (areDigits : AreDigits text)
    (noZero : ∀ rest, text ≠ '0' :: rest) : AreWhole text :=
  ⟨areDigits, fun rest starts => absurd starts (noZero rest)⟩

theorem areWhole_singleton
    {digit : Char}
    (isDigit : Json.Scanner.isDigit digit = true) : AreWhole [digit] :=
  ⟨⟨List.cons_ne_nil _ _, by simpa using isDigit⟩,
    fun _ starts => (List.cons.inj starts).2.symm⟩

theorem areWhole_zero : AreWhole ['0'] := by decide

/-! ## Layouts -/

/-- The text spells a size, without a sign. -/
def Writes (text : List Char) (size : ℚ) : Prop :=
  ∃ whole fraction exponent,
    Literal.SpellsSize whole fraction exponent text ∧
    Literal.size ⟨false, whole, fraction, exponent⟩ = size

theorem Writes.denotes
    {text : String}
    {size : ℚ}
    (writes : Writes text.toList size)
    (negative : Bool) :
    Denotes ((if negative then "-" else "") ++ text)
      (signed negative size) := by
  obtain ⟨whole, fraction, exponent, spells, rfl⟩ := writes
  refine ⟨⟨negative, whole, fraction, exponent⟩, ?_, rfl⟩
  cases negative with
  | false => simpa using Literal.Spells.unsigned spells
  | true => simpa using Literal.Spells.minus spells

/-- Digits on both sides of a point. -/
theorem writes_positional
    {whole fraction : List Char}
    (areWhole : AreWhole whole)
    (areDigits : AreDigits fraction) :
    Writes (whole ++ '.' :: fraction)
      (ofDigits (whole ++ fraction) * 10 ^ (-fraction.length : Int)) := by
  have tail := Literal.SpellsTail.fractional areDigits .absent
  rw [List.append_nil] at tail
  refine ⟨whole, some fraction, none, .intro areWhole tail, ?_⟩
  rw [Literal.size, Literal.written, zero_sub]
  rfl

/-- An exponent with its sign. -/
theorem spellsExponent_lead (lead : Int) :
    Literal.SpellsExponent
      (some (decide (lead < 0), Nat.toDigits 10 lead.natAbs))
      ((if lead < 0 then "e-" else "e+").toList ++
        Nat.toDigits 10 lead.natAbs) := by
  by_cases negative : lead < 0
  · rw [if_pos negative, decide_eq_true negative]
    exact .minus (.inl rfl) (areDigits_toDigits _)
  · rw [if_neg negative, decide_eq_false negative]
    exact .plus (.inl rfl) (areDigits_toDigits _)

theorem written_lead
    (lead : Int)
    (whole : List Char)
    (fraction : Option (List Char)) :
    Literal.written ⟨false, whole, fraction,
      some (decide (lead < 0), Nat.toDigits 10 lead.natAbs)⟩ = lead := by
  simp only [Literal.written, ofDigits_toDigits, decide_eq_true_eq]
  split <;> omega

/-- A digit before a point, and an exponent. -/
theorem writes_scientific
    {digits : List Char}
    (areDigits : AreDigits digits)
    (exponent : Int) :
    let lead : Int := digits.length - 1 + exponent
    Writes (digits.take 1 ++
        (if digits.length = 1 then [] else '.' :: digits.drop 1) ++
        (if lead < 0 then "e-" else "e+").toList ++ Nat.toDigits 10 lead.natAbs)
      (ofDigits digits * 10 ^ exponent) := by
  intro lead
  obtain ⟨first, others, rfl⟩ := List.exists_cons_of_ne_nil areDigits.nonempty
  obtain ⟨isDigit, areOthers⟩ := List.forall_mem_cons.1 areDigits.digits
  have areWhole := areWhole_singleton isDigit
  have spells := spellsExponent_lead lead
  let exponentParts := some (decide (lead < 0), Nat.toDigits 10 lead.natAbs)
  cases others with
  | nil =>
      refine ⟨[first], none, exponentParts, ?_, ?_⟩
      · simpa using Literal.SpellsSize.intro areWhole (.integral spells)
      · rw [Literal.size, written_lead]
        simp [lead]
  | cons next others =>
      have areFraction : AreDigits (next :: others) :=
        ⟨List.cons_ne_nil _ _, areOthers⟩
      refine ⟨[first], some (next :: others), exponentParts, ?_, ?_⟩
      · simpa using
          Literal.SpellsSize.intro areWhole (.fractional areFraction spells)
      · rw [Literal.size, written_lead]
        simp [lead]

section

variable {decimal : Binary64.Decimal}

/-- Digits and zeros before a point. -/
theorem writes_integral
    (positive : 0 < decimal.digits)
    (integral : 0 ≤ decimal.exponent) :
    Writes (Nat.toDigits 10 decimal.digits ++
        List.replicate decimal.exponent.toNat '0' ++ ['.', '0'])
      decimal.value := by
  have areWhole := (areDigits_append_zeros decimal.digits
    decimal.exponent.toNat).areWhole
      (append_ne_cons Nat.toDigits_ne_nil (toDigits_ne_zero_cons positive) _)
  have writes := writes_positional areWhole areWhole_zero.toAreDigits
  have digits : ofDigits (Nat.toDigits 10 decimal.digits ++
      List.replicate decimal.exponent.toNat '0' ++ ['0']) =
        10 * (10 ^ decimal.exponent.toNat * decimal.digits) := by
    rw [ofDigits_append, ofDigits_append, ofDigits_replicate,
      ofDigits_toDigits, List.length_replicate]
    rfl
  have power : (10 : ℚ) ^ decimal.exponent.toNat = 10 ^ decimal.exponent := by
    rw [← zpow_natCast, Int.toNat_of_nonneg integral]
  have isValue : decimal.value =
      (10 * (10 ^ decimal.exponent.toNat * decimal.digits) : Nat) *
        10 ^ (-(1 : Nat) : Int) := by
    rw [Binary64.Decimal.value, ← power, zpow_neg, zpow_natCast]
    push_cast
    ring
  rw [isValue, ← digits]
  exact writes

/-- Digits before and behind a point. -/
theorem writes_split
    {split : Nat}
    (positive : 0 < decimal.digits)
    (some : 0 < split)
    (isSplit : (split : Int) =
      (Nat.toDigits 10 decimal.digits).length + decimal.exponent)
    (fractional : decimal.exponent < 0) :
    Writes ((Nat.toDigits 10 decimal.digits).take split ++
        '.' :: (Nat.toDigits 10 decimal.digits).drop split)
      decimal.value := by
  have isValue : decimal.value = ofDigits (Nat.toDigits 10 decimal.digits) *
      10 ^ decimal.exponent := by
    rw [ofDigits_toDigits, Binary64.Decimal.value]
  have areAll := areDigits_toDigits decimal.digits
  have noZero := toDigits_ne_zero_cons positive
  rw [isValue]
  revert isSplit areAll noZero
  generalize Nat.toDigits 10 decimal.digits = digits
  intro isSplit areAll noZero
  have areWhole : AreWhole (digits.take split) := by
    refine AreDigits.areWhole ⟨?_, fun _ member =>
      areAll.digits _ (List.mem_of_mem_take member)⟩ fun rest starts => ?_
    · rw [Ne, List.take_eq_nil_iff, not_or]
      exact ⟨some.ne', areAll.nonempty⟩
    · apply noZero (rest ++ digits.drop split)
      rw [← List.cons_append, ← starts, List.take_append_drop]
  have areFraction : AreDigits (digits.drop split) := by
    refine ⟨?_, fun _ member =>
      areAll.digits _ (List.mem_of_mem_drop member)⟩
    rw [Ne, List.drop_eq_nil_iff]
    omega
  have writes := writes_positional areWhole areFraction
  rw [List.take_append_drop, List.length_drop] at writes
  have exponent : (-(digits.length - split : Nat) : Int) = decimal.exponent := by
    omega
  rwa [exponent] at writes

/-- Zeros before the digits behind a point. -/
theorem writes_small
    {count : Nat}
    (isCount : (count : Int) =
      -((Nat.toDigits 10 decimal.digits).length + decimal.exponent)) :
    Writes ('0' :: '.' :: (List.replicate count '0' ++
        Nat.toDigits 10 decimal.digits))
      decimal.value := by
  have writes := writes_positional areWhole_zero
    (areDigits_zeros_append count decimal.digits)
  have digits : ofDigits (['0'] ++ (List.replicate count '0' ++
      Nat.toDigits 10 decimal.digits)) = decimal.digits := by
    rw [ofDigits_append, ofDigits_append, ofDigits_replicate,
      ofDigits_toDigits, Nat.mul_zero, Nat.zero_add]
    exact Nat.zero_add _
  have exponent : (-(List.replicate count '0' ++
      Nat.toDigits 10 decimal.digits).length : Int) = decimal.exponent := by
    rw [List.length_append, List.length_replicate]
    omega
  rwa [digits, exponent] at writes

end

/-! ## Numbers -/

/-- The value that a number is written as. -/
def shown : Number → ℚ
  | int value _ => value
  | float value =>
      signed value.negative (if value.isZero then 0 else value.shortest.value)

theorem denotes_intText (value : Int) : Denotes (intText value) value := by
  have areWhole : AreWhole (Nat.toDigits 10 value.natAbs) :=
    ⟨areDigits_toDigits _, fun _ => toDigits_head⟩
  have spells := Literal.SpellsSize.intro areWhole (.integral .absent)
  rw [List.append_nil] at spells
  have size : Literal.size ⟨false, Nat.toDigits 10 value.natAbs, none, none⟩ =
      value.natAbs := by
    simp [Literal.size, Literal.written, ofDigits_toDigits]
  have writes : Writes
      (String.ofList (Nat.toDigits 10 value.natAbs)).toList value.natAbs := by
    rw [String.toList_ofList]
    exact ⟨_, none, none, spells, size⟩
  have denotes := writes.denotes (decide (value < 0))
  have isValue : signed (decide (value < 0)) value.natAbs = value := by
    rw [← Int.cast_natCast, signed, Int.natCast_natAbs]
    by_cases negative : value < 0
    · rw [decide_eq_true negative, if_pos rfl, abs_of_neg negative,
        Int.cast_neg, neg_neg]
    · rw [decide_eq_false negative, if_neg Bool.false_ne_true,
        abs_of_nonneg (not_lt.1 negative)]
  have isText : (if decide (value < 0) then "-" else "") ++
      String.ofList (Nat.toDigits 10 value.natAbs) = intText value := by
    by_cases negative : value < 0
    · simp [intText, negative]
    · simp [intText, negative]
  rwa [isValue, isText] at denotes

/-- The text of a binary64 number spells its shortest decimal. -/
theorem denotes_floatText (value : Binary64) :
    Denotes (floatText value) (shown (float value)) := by
  unfold floatText shown
  dsimp only
  by_cases zero : value.isZero = true
  · rw [if_pos zero, if_pos zero]
    have writes := writes_positional areWhole_zero areWhole_zero.toAreDigits
    rw [show ofDigits (['0'] ++ ['0']) = 0 from rfl, Nat.cast_zero,
      zero_mul] at writes
    exact Writes.denotes (show Writes "0.0".toList 0 from writes) _
  · rw [if_neg zero, if_neg zero]
    have positive := Binary64.digits_shortest_pos (Bool.eq_false_iff.2 zero)
    revert positive
    generalize value.shortest = decimal
    intro positive
    have count : 0 < (Nat.toDigits 10 decimal.digits).length :=
      Nat.length_toDigits_pos
    refine Writes.denotes ?_ _
    split
    · simp only [String.toList_append, String.toList_ofList]
      have isValue : decimal.value =
          ofDigits (Nat.toDigits 10 decimal.digits) * 10 ^ decimal.exponent := by
        rw [ofDigits_toDigits, Binary64.Decimal.value]
      rw [isValue]
      have areDigits := areDigits_toDigits decimal.digits
      exact writes_scientific areDigits decimal.exponent
    · split
      · next integral =>
          simpa using writes_integral positive integral
      · split
        · next fractional lead =>
            rw [String.toList_ofList]
            exact writes_split positive (Nat.succ_pos _) (by omega) (by omega)
        · next fractional below =>
            simp only [String.toList_append, String.toList_ofList]
            exact writes_small (by omega)

/-- What a number is written as denotes its value. -/
theorem denotes_text (number : Number) : Denotes number.text number.shown := by
  cases number with
  | int value _ => exact denotes_intText value
  | float value => exact denotes_floatText value

end Number
end TableQuery
