import TableQuery.Proofs.NumberTexts

/-!
# Numbers that survive unmarshalling

The attribute value of a number holds its digits as a text, and its document has
to say the same number. It does if the text is no JSON number or one out of
range, because it is kept as a text then. A 64-bit integer is kept as an integer.
Any other text is read as a binary64 number. That says the same number if the
text has at most fifteen digits and a small exponent, but with more digits or a
large exponent it may say another one, and with more than seventeen it does.
-/

namespace TableQuery

namespace Number

/-! ## Literals that are read exactly -/

/-- All digits of a literal as one number. -/
def Literal.digits (literal : Literal) : Nat :=
  ofDigits (literal.whole ++ literal.fraction.getD [])

/-- The power of ten that the last digit of a literal counts. -/
def Literal.unit (literal : Literal) : Int :=
  literal.written - (literal.fraction.getD []).length

theorem Literal.size_eq (literal : Literal) :
    literal.size = literal.digits * 10 ^ literal.unit := rfl

/-- The literal denotes a 64-bit integer and is written like one. -/
structure Literal.IsWord (literal : Literal) : Prop where
  /-- There is no fraction. -/
  noFraction : literal.fraction = none
  /-- There is no exponent. -/
  noExponent : literal.exponent = none
  /-- It fits. -/
  held : Held (if literal.negative then -(ofDigits literal.whole : Int)
    else ofDigits literal.whole)

/-- The literal has at most fifteen digits, and its power of ten is small unless
all of them are zero. -/
def Literal.IsShort (literal : Literal) : Prop :=
  literal.digits < 10 ^ 15 ∧
    (literal.digits = 0 ∨ literal.unit.natAbs ≤ 22)

theorem ofDigits_cons (digit : Char) (digits : List Char) :
    ofDigits (digit :: digits) =
      10 ^ digits.length * digitValue digit + ofDigits digits := by
  have single : ofDigits [digit] = digitValue digit := Nat.zero_add _
  rw [← List.singleton_append, ofDigits_append, single]

/-- Digits that fit are all gathered. -/
theorem gather_eq
    {word : Nat}
    {digits : List Char}
    (fits : 10 ^ digits.length * word + ofDigits digits < UInt64.size) :
    gather word digits = (10 ^ digits.length * word + ofDigits digits, 0) := by
  induction digits generalizing word with
  | nil => simp [gather, ofDigits]
  | cons digit digits hypothesis =>
      have step : 10 ^ (digits.length + 1) * word + ofDigits (digit :: digits) =
          10 ^ digits.length * (10 * word + digitValue digit) +
            ofDigits digits := by
        rw [ofDigits_cons, Nat.pow_succ]
        ring
      rw [List.length_cons, step] at fits ⊢
      have next : 10 * word + digitValue digit < UInt64.size :=
        Nat.lt_of_le_of_lt (Nat.le_trans
          (Nat.le_mul_of_pos_left _ (Nat.pow_pos (by decide)))
          (Nat.le_add_right _ _)) fits
      simp only [gather, if_pos next]
      exact hypothesis fits

/-- A literal whose digits fit a word is scaled as a whole. -/
theorem toBinary64?_eq
    {literal : Literal}
    (short : literal.digits < UInt64.size) :
    literal.toBinary64? =
      Binary64.ofDecimal literal.negative literal.digits literal.unit := by
  have parts : literal.digits =
      10 ^ (literal.fraction.getD []).length * ofDigits literal.whole +
        ofDigits (literal.fraction.getD []) := ofDigits_append _ _
  have wholeFits : ofDigits literal.whole < UInt64.size := by
    refine Nat.lt_of_le_of_lt ?_ short
    rw [parts]
    exact Nat.le_trans (Nat.le_mul_of_pos_left _ (Nat.pow_pos (by decide)))
      (Nat.le_add_right _ _)
  have whole : gather 0 literal.whole = (ofDigits literal.whole, 0) := by
    have fits : 10 ^ literal.whole.length * 0 + ofDigits literal.whole <
        UInt64.size := by
      rwa [Nat.mul_zero, Nat.zero_add]
    rw [gather_eq fits, Nat.mul_zero, Nat.zero_add]
  have fraction : gather (ofDigits literal.whole) (literal.fraction.getD []) =
      (literal.digits, 0) := by
    rw [parts] at short ⊢
    exact gather_eq short
  have exponent : ((0 : Nat) - ((literal.fraction.getD []).length - 0 : Nat) +
      literal.written : Int) = literal.unit := by
    rw [Literal.unit]
    omega
  simp only [Literal.toBinary64?, whole, fraction, exponent]

/-- A short literal is read as a number that is written with its value. -/
theorem shown_of_isShort
    {literal : Literal}
    {value : Binary64}
    (short : literal.IsShort)
    (read : literal.toBinary64? = some value) :
    (float value).shown = literal.value := by
  obtain ⟨few, small⟩ := short
  rw [toBinary64?_eq (few.trans (by decide))] at read
  rw [shown, Literal.value, Binary64.negative_of_ofDecimal read,
    Literal.size_eq]
  by_cases zero : literal.digits = 0
  · rw [zero] at read ⊢
    rw [if_pos (Binary64.isZero_of_ofDecimal read), Nat.cast_zero, zero_mul]
  · obtain ⟨nonzero, shortest⟩ := Binary64.value_shortest_of_ofDecimal read
      zero few (small.resolve_left zero)
    rw [nonzero, if_neg Bool.false_ne_true, shortest]

/-- A literal is read as an integer if it is a word and not minus zero. -/
theorem ofLiteral?_cases
    {literal : Literal}
    {number : Number}
    (read : ofLiteral? literal = some number) :
    (∃ value, literal.toBinary64? = some value ∧ number = float value ∧
      (literal.IsWord → literal.digits = 0)) ∨
    ∃ word : literal.IsWord, number = int _ word.held := by
  unfold ofLiteral? at read
  dsimp only at read
  split at read
  · next written =>
      obtain ⟨value, isValue, rfl⟩ := Option.map_eq_some_iff.1 read
      refine .inl ⟨value, isValue, rfl, fun word => ?_⟩
      simp only [word.noFraction, word.noExponent, Option.isSome_none,
        Bool.false_or, Bool.and_eq_true, beq_iff_eq, Nat.cast_eq_zero] at written
      rw [Literal.digits, word.noFraction, Option.getD_none, List.append_nil]
      exact written.2
  · next integral =>
      by_cases held : Held (if literal.negative
          then -(ofDigits literal.whole : Int) else ofDigits literal.whole)
      · rw [dif_pos held] at read
        simp only [Bool.or_eq_true, not_or, Bool.not_eq_true,
          Option.isSome_eq_false_iff, Option.isNone_iff_eq_none] at integral
        exact .inr ⟨⟨integral.1.1, integral.1.2, held⟩,
          (Option.some.inj read).symm⟩
      · rw [dif_neg held] at read
        obtain ⟨value, isValue, rfl⟩ := Option.map_eq_some_iff.1 read
        exact .inl ⟨value, isValue, rfl, fun word => absurd word.held held⟩

/-- Words and short literals are read as numbers that are written with their
value. -/
theorem shown_of_exact
    {literal : Literal}
    {number : Number}
    (exact : literal.IsWord ∨ literal.IsShort)
    (read : ofLiteral? literal = some number) :
    number.shown = literal.value := by
  obtain ⟨value, isValue, rfl, zero⟩ | ⟨word, rfl⟩ := ofLiteral?_cases read
  · refine shown_of_isShort (exact.elim (fun word => ?_) id) isValue
    exact ⟨zero word ▸ by decide, .inl (zero word)⟩
  · have size : literal.size = ofDigits literal.whole := by
      simp [Literal.size, Literal.written, word.noFraction, word.noExponent]
    rw [shown, Literal.value, size, signed]
    push_cast
    rfl

/-- The literal has more than seventeen digits, and the last one is not zero. -/
def Literal.IsLong (literal : Literal) : Prop :=
  10 ^ 17 ≤ literal.digits ∧ ¬ 10 ∣ literal.digits

theorem abs_signed
    (negative : Bool)
    {size : ℚ}
    (nonnegative : 0 ≤ size) : |signed negative size| = size := by
  cases negative with
  | false => exact abs_of_nonneg nonnegative
  | true => exact (abs_neg size).trans (abs_of_nonneg nonnegative)

/-- No binary64 number is written with the value of a long literal. -/
theorem shown_ne_of_isLong
    {literal : Literal}
    (isLong : literal.IsLong)
    (value : Binary64) : (float value).shown ≠ literal.value := by
  obtain ⟨long, noZero⟩ := isLong
  intro same
  have size : 0 ≤ literal.size := by
    rw [Literal.size_eq]
    positivity
  have sizes := congrArg abs same
  rw [Literal.value, abs_signed _ size, Literal.size_eq, shown] at sizes
  by_cases zero : value.isZero = true
  · rw [if_pos zero, abs_signed _ le_rfl] at sizes
    have digits : (0 : ℚ) < literal.digits := by
      exact_mod_cast Nat.lt_of_lt_of_le (by decide) long
    exact (mul_pos digits (zpow_pos (by decide) _)).ne sizes
  · obtain ⟨count, digits, short, shortest, _⟩ :=
      Binary64.shortest_spec (Bool.eq_false_iff.2 zero)
    rw [if_neg zero, shortest, abs_signed _ (by positivity)] at sizes
    exact Binary64.decimal_ne_of_long long noZero short sizes

end Number

namespace Attribute

/-- The document of a number says the number that the text denotes: it keeps the
text, or it is a number that is marshalled to a text of the same value. -/
def KeepsNumber (text : String) : Prop :=
  toDocument (.number text) = .string text ∨
    ∃ again value, ofDocument (toDocument (.number text)) = .number again ∧
      Number.Denotes text value ∧ Number.Denotes again value

/-- A text is kept exactly if the number that it is read as is written with the
value of the text. -/
theorem keepsNumber_iff {text : String} :
    KeepsNumber text ↔
      ∀ (literal : Number.Literal) (number : Number),
        literal.Spells text.toList → Number.ofLiteral? literal = some number →
          number.shown = literal.value := by
  constructor
  · intro keeps literal number spells read
    have document : toDocument (.number text) = .number number := by
      rw [toDocument, Number.number?_eq_some_iff.2 ⟨literal, spells, read⟩]
    obtain text | ⟨again, value, marshalled, denotes, denotesAgain⟩ := keeps
    · rw [document] at text
      cases text
    · rw [document, ofDocument, Attribute.number.injEq] at marshalled
      subst marshalled
      have isValue := denotes.unique ⟨literal, spells, rfl⟩
      rw [← isValue]
      exact (Number.denotes_text number).unique denotesAgain
  · intro same
    cases read : Json.number? text with
    | none => exact .inl (by rw [toDocument, read])
    | some number =>
        obtain ⟨literal, spells, isNumber⟩ := Number.number?_eq_some_iff.1 read
        refine .inr ⟨number.text, literal.value, ?_, ⟨literal, spells, rfl⟩, ?_⟩
        · rw [toDocument, read, ofDocument]
        · exact same literal number spells isNumber ▸ number.denotes_text

theorem not_keepsNumber
    {text : String}
    {literal : Number.Literal}
    (value : ℚ)
    (spells : literal.Spells text.toList)
    (read : (Number.ofLiteral? literal).map Number.shown = some value)
    (different : value ≠ literal.value) : ¬ KeepsNumber text := by
  intro keeps
  obtain ⟨number, isNumber, rfl⟩ := Option.map_eq_some_iff.1 read
  exact different (keepsNumber_iff.1 keeps literal number spells isNumber)

end Attribute

/-- Unmarshalling keeps a number exactly if the number that its text is read as
is written with the value of the text. Texts of 64-bit integers and of at most
fifteen digits with a small exponent are kept, and so are those that are no JSON
number or out of range. Of the others, those of more than seventeen digits are
not. -/
theorem keepsNumber_by_digits {text : String} :
    (Attribute.KeepsNumber text ↔
      ∀ (literal : Number.Literal) (number : Number),
        literal.Spells text.toList → Number.ofLiteral? literal = some number →
          number.shown = literal.value) ∧
    ((∀ literal : Number.Literal, literal.Spells text.toList →
        literal.IsWord ∨ literal.IsShort ∨ Number.ofLiteral? literal = none) →
      Attribute.KeepsNumber text) ∧
    ∀ literal : Number.Literal, literal.Spells text.toList →
      ¬ literal.IsWord → Number.ofLiteral? literal ≠ none → literal.IsLong →
        ¬ Attribute.KeepsNumber text := by
  refine ⟨Attribute.keepsNumber_iff, fun exact => ?_, ?_⟩
  · rw [Attribute.keepsNumber_iff]
    intro literal number spells read
    obtain word | short | none := exact literal spells
    · exact Number.shown_of_exact (.inl word) read
    · exact Number.shown_of_exact (.inr short) read
    · exact absurd (read.symm.trans none) (Option.some_ne_none number)
  · intro literal spells noWord inRange long keeps
    obtain ⟨number, read⟩ := Option.ne_none_iff_exists'.1 inRange
    have same := Attribute.keepsNumber_iff.1 keeps literal number spells read
    obtain ⟨value, _, rfl, _⟩ | ⟨word, _⟩ := Number.ofLiteral?_cases read
    · exact Number.shown_ne_of_isLong long value same
    · exact noWord word

/-- An integer of twenty-three digits and a fraction of nineteen are rounded, and
a tiny number becomes zero. -/
theorem keepsNumber_by_digits_rounded :
    ¬ Attribute.KeepsNumber "12345678901234567890123" ∧
      ¬ Attribute.KeepsNumber "0.1234567890123456789" ∧
      ¬ Attribute.KeepsNumber "1e-400" := by
  have integer : Number.Literal.Spells
      ⟨false, "12345678901234567890123".toList, none, none⟩
      "12345678901234567890123".toList :=
    .unsigned (.intro (by decide) (.integral .absent))
  have fraction : Number.Literal.Spells
      ⟨false, ['0'], some "1234567890123456789".toList, none⟩
      "0.1234567890123456789".toList :=
    .unsigned (.intro (by decide) (.fractional (by decide) .absent))
  have tiny : Number.Literal.Spells
      ⟨false, ['1'], none, some (true, "400".toList)⟩ "1e-400".toList :=
    .unsigned (.intro (by decide) (.integral (.minus (.inl rfl) (by decide))))
  exact ⟨Attribute.not_keepsNumber 12345678901234568000000 integer
      (by decide +kernel) (by decide +kernel),
    Attribute.not_keepsNumber (12345678901234568 / 10 ^ 17) fraction
      (by decide +kernel) (by decide +kernel),
    Attribute.not_keepsNumber 0 tiny (by decide +kernel) (by decide +kernel)⟩

/-- A price, the greatest word and a number out of range are kept, but not a
fraction of eighteen digits. -/
theorem keepsNumber_by_digits_price :
    Attribute.KeepsNumber "-12.50" ∧
      Attribute.KeepsNumber "18446744073709551615" ∧
      Attribute.KeepsNumber "1e400" ∧
      ¬ Attribute.KeepsNumber "0.123456789012345678" := by
  have price : Number.Literal.Spells
      ⟨true, ['1', '2'], some ['5', '0'], none⟩ "-12.50".toList :=
    .minus (.intro (by decide) (.fractional (by decide) .absent))
  have greatest : Number.Literal.Spells
      ⟨false, "18446744073709551615".toList, none, none⟩
      "18446744073709551615".toList :=
    .unsigned (.intro (by decide) (.integral .absent))
  have huge : Number.Literal.Spells
      ⟨false, ['1'], none, some (false, "400".toList)⟩ "1e400".toList :=
    .unsigned (.intro (by decide)
      (.integral (.unsigned (.inl rfl) (by decide))))
  have fraction : Number.Literal.Spells
      ⟨false, ['0'], some "123456789012345678".toList, none⟩
      "0.123456789012345678".toList :=
    .unsigned (.intro (by decide) (.fractional (by decide) .absent))
  refine ⟨keepsNumber_by_digits.2.1 fun literal spells => ?_,
    keepsNumber_by_digits.2.1 fun literal spells => ?_,
    keepsNumber_by_digits.2.1 fun literal spells => ?_, ?_⟩
  · obtain rfl := spells.unique price
    exact .inr (.inl ⟨by decide, .inr (by decide)⟩)
  · obtain rfl := spells.unique greatest
    exact .inl ⟨rfl, rfl, by decide⟩
  · obtain rfl := spells.unique huge
    exact .inr (.inr (by decide +kernel))
  · refine keepsNumber_by_digits.2.2 _ fraction (fun word => ?_)
      (by decide +kernel) ⟨by decide, by decide⟩
    cases word.noFraction

end TableQuery
