import Mathlib.Data.List.TakeWhile
import Mathlib.Data.Rat.Cast.Order
import TableQuery.Proofs.FieldName
import TableQuery.Json.Scanner

/-!
# Number literals

The grammar of JSON numbers, apart from the scanner that reads them. A text is
read as the number of the one literal that it spells, and texts that spell none
are not read. A literal has an exact value, whatever number it is read as, so
that texts denote values.
-/

namespace TableQuery

/-- A run of characters of a class ends where the class ends. -/
theorem Stops.run_inj
    {inside : Char → Bool}
    {run other rest otherRest : List Char}
    (stops : Stops inside rest)
    (otherStops : Stops inside otherRest)
    (all : ∀ character ∈ run, inside character = true)
    (otherAll : ∀ character ∈ other, inside character = true)
    (same : run ++ rest = other ++ otherRest) :
    run = other ∧ rest = otherRest := by
  have runs : run = other := by
    rw [← stops.takeWhile_run all, same, otherStops.takeWhile_run otherAll]
  subst runs
  exact ⟨rfl, List.append_cancel_left same⟩

namespace Number

open Json.Scanner

variable {text : List Char}

/-! ## Digits -/

/-- One or more decimal digits. -/
structure AreDigits (text : List Char) : Prop where
  /-- There is a digit. -/
  nonempty : text ≠ []
  /-- There is nothing but digits. -/
  digits : ∀ character ∈ text, isDigit character = true

/-- Digits before a point. They start with a zero only if that is all. -/
structure AreWhole (text : List Char) : Prop extends AreDigits text where
  /-- A zero leads no other digits. -/
  noLeadingZero : ∀ rest, text = '0' :: rest → rest = []

theorem areDigits_iff :
    AreDigits text ↔ (!text.isEmpty && text.all isDigit) = true := by
  rw [Bool.and_eq_true, Bool.not_eq_true', List.all_eq_true,
    List.isEmpty_eq_false_iff]
  exact ⟨fun areDigits => ⟨areDigits.nonempty, areDigits.digits⟩,
    fun ⟨nonempty, digits⟩ => ⟨nonempty, digits⟩⟩

theorem areWhole_iff :
    AreWhole text ↔
      AreDigits text ∧ (text.head? != some '0' || text.tail.isEmpty) = true := by
  rw [Bool.or_eq_true, bne_iff_ne, List.isEmpty_iff]
  constructor
  · intro areWhole
    refine ⟨areWhole.toAreDigits, Decidable.not_or_of_imp fun leading => ?_⟩
    obtain ⟨rest, rfl⟩ := List.head?_eq_some_iff.1 leading
    exact areWhole.noLeadingZero rest rfl
  · rintro ⟨areDigits, single⟩
    refine ⟨areDigits, fun rest starts => ?_⟩
    subst starts
    exact single.resolve_left fun other => other rfl

instance (text : List Char) : Decidable (AreDigits text) :=
  decidable_of_iff _ areDigits_iff.symm

instance (text : List Char) : Decidable (AreWhole text) :=
  decidable_of_iff _ areWhole_iff.symm

theorem AreDigits.ne_cons
    {character : Char}
    (areDigits : AreDigits text)
    (noDigit : isDigit character = false)
    (rest : List Char) : text ≠ character :: rest := by
  rintro rfl
  have digit := areDigits.digits _ List.mem_cons_self
  exact Bool.false_ne_true (noDigit.symm.trans digit)

theorem append_ne_cons
    {character : Char}
    (nonempty : text ≠ [])
    (other : ∀ rest, text ≠ character :: rest)
    (behind rest : List Char) : text ++ behind ≠ character :: rest := by
  obtain ⟨first, following, rfl⟩ := List.exists_cons_of_ne_nil nonempty
  intro same
  obtain ⟨rfl, _⟩ := List.cons.inj same
  exact other following rfl

theorem AreDigits.takeWhile (areDigits : AreDigits text) :
    text.takeWhile isDigit = text :=
  List.takeWhile_eq_self_iff.2 areDigits.digits

theorem areDigits_takeWhile
    (text : List Char)
    (found : ¬ (text.takeWhile isDigit).isEmpty = true) :
    AreDigits (text.takeWhile isDigit) where
  nonempty := by simpa using found
  digits _ := List.mem_takeWhile_imp

/-- A text that is scanned as digits only is one of digits only. -/
theorem scanDigits_eq_iff
    (read : List Char → Option Number)
    {number : Option Number} :
    (if (text.takeWhile isDigit).isEmpty then (missingDigit text, none)
      else (Json.Draft.number (read (text.takeWhile isDigit)),
        some (text.dropWhile isDigit))) = (.number number, some []) ↔
      AreDigits text ∧ read text = number := by
  constructor
  · intro scanned
    split at scanned
    · cases (Prod.mk.inj scanned).2
    · next found =>
        simp only [Prod.mk.injEq, Json.Draft.number.injEq, Option.some.injEq,
          List.dropWhile_eq_nil_iff] at scanned
        obtain ⟨value, digits⟩ := scanned
        rw [List.takeWhile_eq_self_iff.2 digits] at value found
        exact ⟨⟨by simpa using found, digits⟩, value⟩
  · rintro ⟨areDigits, rfl⟩
    rw [areDigits.takeWhile, List.dropWhile_eq_nil_iff.2 areDigits.digits,
      if_neg (by simpa using areDigits.nonempty)]

/-! ## The grammar -/

namespace Literal

/-- How an exponent may be written. -/
inductive SpellsExponent : Option (Bool × List Char) → List Char → Prop
  | absent : SpellsExponent none []
  | unsigned {mark : Char} {digits : List Char}
      (isMark : mark = 'e' ∨ mark = 'E')
      (areDigits : AreDigits digits) :
      SpellsExponent (some (false, digits)) (mark :: digits)
  | plus {mark : Char} {digits : List Char}
      (isMark : mark = 'e' ∨ mark = 'E')
      (areDigits : AreDigits digits) :
      SpellsExponent (some (false, digits)) (mark :: '+' :: digits)
  | minus {mark : Char} {digits : List Char}
      (isMark : mark = 'e' ∨ mark = 'E')
      (areDigits : AreDigits digits) :
      SpellsExponent (some (true, digits)) (mark :: '-' :: digits)

/-- How a fraction and an exponent may be written. -/
inductive SpellsTail :
    Option (List Char) → Option (Bool × List Char) → List Char → Prop
  | integral {exponent : Option (Bool × List Char)} {text : List Char}
      (spells : SpellsExponent exponent text) :
      SpellsTail none exponent text
  | fractional {exponent : Option (Bool × List Char)} {digits text : List Char}
      (areDigits : AreDigits digits)
      (spells : SpellsExponent exponent text) :
      SpellsTail (some digits) exponent ('.' :: (digits ++ text))

/-- How a literal may be written but for its sign. -/
inductive SpellsSize :
    List Char → Option (List Char) → Option (Bool × List Char) →
      List Char → Prop
  | intro {whole text : List Char} {fraction : Option (List Char)}
      {exponent : Option (Bool × List Char)}
      (areWhole : AreWhole whole)
      (tail : SpellsTail fraction exponent text) :
      SpellsSize whole fraction exponent (whole ++ text)

/-- How a literal may be written. -/
inductive Spells : Literal → List Char → Prop
  | unsigned {whole text : List Char} {fraction : Option (List Char)}
      {exponent : Option (Bool × List Char)}
      (size : SpellsSize whole fraction exponent text) :
      Spells ⟨false, whole, fraction, exponent⟩ text
  | minus {whole text : List Char} {fraction : Option (List Char)}
      {exponent : Option (Bool × List Char)}
      (size : SpellsSize whole fraction exponent text) :
      Spells ⟨true, whole, fraction, exponent⟩ ('-' :: text)

section

variable
  {whole otherWhole : List Char}
  {fraction otherFraction : Option (List Char)}
  {exponent otherExponent : Option (Bool × List Char)}

theorem SpellsExponent.eq_nil_or_cons (spells : SpellsExponent exponent text) :
    text = [] ∨
      ∃ mark rest, (mark = 'e' ∨ mark = 'E') ∧ text = mark :: rest := by
  cases spells with
  | absent => exact .inl rfl
  | unsigned isMark _ => exact .inr ⟨_, _, isMark, rfl⟩
  | plus isMark _ => exact .inr ⟨_, _, isMark, rfl⟩
  | minus isMark _ => exact .inr ⟨_, _, isMark, rfl⟩

theorem SpellsExponent.stops (spells : SpellsExponent exponent text) :
    Stops isDigit text := by
  obtain rfl | ⟨mark, rest, rfl | rfl, rfl⟩ := spells.eq_nil_or_cons
  · exact stops_nil isDigit
  · exact (stops_cons _ _ _).2 (by decide)
  · exact (stops_cons _ _ _).2 (by decide)

theorem SpellsExponent.ne_point
    (spells : SpellsExponent exponent text)
    (rest : List Char) : text ≠ '.' :: rest := by
  obtain rfl | ⟨mark, rest, rfl | rfl, rfl⟩ := spells.eq_nil_or_cons
  all_goals simp

theorem SpellsTail.stops (spells : SpellsTail fraction exponent text) :
    Stops isDigit text := by
  cases spells with
  | integral spells => exact spells.stops
  | fractional _ _ => exact (stops_cons _ _ _).2 (by decide)

/-! ## Texts spell one literal -/

theorem SpellsExponent.unique
    (spells : SpellsExponent exponent text)
    (other : SpellsExponent otherExponent text) : exponent = otherExponent := by
  cases spells with
  | absent => cases other; rfl
  | unsigned _ areDigits =>
      cases other with
      | unsigned => rfl
      | plus => exact absurd rfl (areDigits.ne_cons (by decide) _)
      | minus => exact absurd rfl (areDigits.ne_cons (by decide) _)
  | plus =>
      cases other with
      | unsigned _ areDigits =>
          exact absurd rfl (areDigits.ne_cons (by decide) _)
      | plus => rfl
  | minus =>
      cases other with
      | unsigned _ areDigits =>
          exact absurd rfl (areDigits.ne_cons (by decide) _)
      | minus => rfl

theorem SpellsTail.unique
    (spells : SpellsTail fraction exponent text)
    (other : SpellsTail otherFraction otherExponent text) :
    fraction = otherFraction ∧ exponent = otherExponent := by
  cases spells with
  | integral spells =>
      cases other with
      | integral other => exact ⟨rfl, spells.unique other⟩
      | fractional _ _ => exact absurd rfl (spells.ne_point _)
  | fractional areDigits spells =>
      generalize same : '.' :: (_ ++ _) = text at other
      cases other with
      | integral other => exact absurd same.symm (other.ne_point _)
      | fractional otherDigits other =>
          obtain ⟨rfl, rfl⟩ := spells.stops.run_inj other.stops
            areDigits.digits otherDigits.digits (List.cons.inj same).2
          exact ⟨rfl, spells.unique other⟩

theorem SpellsSize.ne_minus
    (spells : SpellsSize whole fraction exponent text)
    (rest : List Char) : text ≠ '-' :: rest := by
  obtain ⟨areWhole, _⟩ := spells
  exact append_ne_cons areWhole.nonempty (areWhole.ne_cons (by decide)) _ rest

theorem SpellsSize.unique
    (spells : SpellsSize whole fraction exponent text)
    (other : SpellsSize otherWhole otherFraction otherExponent text) :
    whole = otherWhole ∧ fraction = otherFraction ∧
      exponent = otherExponent := by
  obtain ⟨areWhole, tail⟩ := spells
  generalize same : whole ++ _ = text at other
  obtain ⟨otherAreWhole, otherTail⟩ := other
  obtain ⟨rfl, rfl⟩ := tail.stops.run_inj otherTail.stops areWhole.digits
    otherAreWhole.digits same
  exact ⟨rfl, tail.unique otherTail⟩

/-- A text spells at most one literal. -/
theorem Spells.unique
    {literal other : Literal}
    (spells : literal.Spells text)
    (otherSpells : other.Spells text) : literal = other := by
  cases spells with
  | unsigned size =>
      cases otherSpells with
      | unsigned otherSize =>
          obtain ⟨rfl, rfl, rfl⟩ := size.unique otherSize
          rfl
      | minus => exact absurd rfl (size.ne_minus _)
  | minus size =>
      cases otherSpells with
      | unsigned otherSize => exact absurd rfl (otherSize.ne_minus _)
      | minus otherSize =>
          obtain ⟨rfl, rfl, rfl⟩ := size.unique otherSize
          rfl

end

/-! ## The scanner reads the grammar -/

section

variable
  {negative : Bool}
  {whole : List Char}
  {fraction : Option (List Char)}
  {number : Option Number}

theorem exponentDraft_eq_iff :
    exponentDraft negative whole fraction text = (.number number, some []) ↔
      ∃ exponent, SpellsExponent exponent text ∧
        ofLiteral? ⟨negative, whole, fraction, exponent⟩ = number := by
  let reads (sign : Bool) (digits : List Char) : Option Number :=
    ofLiteral? ⟨negative, whole, fraction, some (sign, digits)⟩
  constructor
  · intro scanned
    unfold exponentDraft at scanned
    split at scanned
    · next mark rest =>
        split at scanned
        · next isMark =>
            dsimp only at scanned
            split at scanned
            · obtain ⟨areDigits, value⟩ :=
                (scanDigits_eq_iff (reads true)).1 scanned
              exact ⟨_, .minus isMark areDigits, value⟩
            · obtain ⟨areDigits, value⟩ :=
                (scanDigits_eq_iff (reads false)).1 scanned
              exact ⟨_, .plus isMark areDigits, value⟩
            · obtain ⟨areDigits, value⟩ :=
                (scanDigits_eq_iff (reads false)).1 scanned
              exact ⟨_, .unsigned isMark areDigits, value⟩
        · cases (Prod.mk.inj scanned).2
    · exact ⟨none, .absent, (Json.Draft.number.inj (Prod.mk.inj scanned).1)⟩
  · rintro ⟨exponent, spells, rfl⟩
    cases spells with
    | absent => rfl
    | unsigned isMark areDigits =>
        simp only [exponentDraft, if_pos isMark]
        split
        · exact absurd rfl (areDigits.ne_cons (by decide) _)
        · exact absurd rfl (areDigits.ne_cons (by decide) _)
        · exact (scanDigits_eq_iff (reads false)).2 ⟨areDigits, rfl⟩
    | plus isMark areDigits =>
        simp only [exponentDraft, if_pos isMark]
        exact (scanDigits_eq_iff (reads false)).2 ⟨areDigits, rfl⟩
    | minus isMark areDigits =>
        simp only [exponentDraft, if_pos isMark]
        exact (scanDigits_eq_iff (reads true)).2 ⟨areDigits, rfl⟩

theorem fractionDraft_eq_iff :
    fractionDraft negative whole text = (.number number, some []) ↔
      ∃ fraction exponent, SpellsTail fraction exponent text ∧
        ofLiteral? ⟨negative, whole, fraction, exponent⟩ = number := by
  constructor
  · intro scanned
    unfold fractionDraft at scanned
    split at scanned
    · next rest =>
        dsimp only at scanned
        split at scanned
        · cases (Prod.mk.inj scanned).2
        · next found =>
            obtain ⟨exponent, spells, value⟩ := exponentDraft_eq_iff.1 scanned
            have tail := SpellsTail.fractional
              (areDigits_takeWhile rest found) spells
            rw [List.takeWhile_append_dropWhile] at tail
            exact ⟨_, exponent, tail, value⟩
    · obtain ⟨exponent, spells, value⟩ := exponentDraft_eq_iff.1 scanned
      exact ⟨none, exponent, .integral spells, value⟩
  · rintro ⟨fraction, exponent, tail, value⟩
    cases tail with
    | integral spells =>
        unfold fractionDraft
        split
        · exact absurd rfl (spells.ne_point _)
        · exact exponentDraft_eq_iff.2 ⟨exponent, spells, value⟩
    | fractional areDigits spells =>
        have stops := spells.stops
        simp only [fractionDraft, stops.takeWhile_run areDigits.digits,
          stops.dropWhile_run areDigits.digits]
        rw [if_neg (by simpa using areDigits.nonempty)]
        exact exponentDraft_eq_iff.2 ⟨exponent, spells, value⟩

theorem numberDraft_eq_iff :
    numberDraft negative text = (.number number, some []) ↔
      ∃ whole fraction exponent, SpellsSize whole fraction exponent text ∧
        ofLiteral? ⟨negative, whole, fraction, exponent⟩ = number := by
  constructor
  · intro scanned
    unfold numberDraft at scanned
    dsimp only at scanned
    split at scanned
    · cases (Prod.mk.inj scanned).2
    · cases (Prod.mk.inj scanned).2
    · next nonempty noLeadingZero =>
        obtain ⟨fraction, exponent, tail, value⟩ :=
          fractionDraft_eq_iff.1 scanned
        have areWhole : AreWhole (text.takeWhile isDigit) := by
          refine ⟨areDigits_takeWhile text (by simpa using nonempty), ?_⟩
          intro rest starts
          cases rest with
          | nil => rfl
          | cons next rest => exact absurd starts (noLeadingZero next rest)
        have size := SpellsSize.intro areWhole tail
        rw [List.takeWhile_append_dropWhile] at size
        exact ⟨_, fraction, exponent, size, value⟩
  · rintro ⟨whole, fraction, exponent, ⟨areWhole, tail⟩, value⟩
    have stops := tail.stops
    simp only [numberDraft, stops.takeWhile_run areWhole.digits,
      stops.dropWhile_run areWhole.digits]
    split
    · exact absurd rfl areWhole.nonempty
    · cases areWhole.noLeadingZero _ rfl
    · exact fractionDraft_eq_iff.2 ⟨fraction, exponent, tail, value⟩

end

end Literal

/-- A text is read as the number of the literal that it spells. -/
theorem number?_eq_some_iff
    {text : String}
    {number : Number} :
    Json.number? text = some number ↔
      ∃ literal : Literal, literal.Spells text.toList ∧
        ofLiteral? literal = some number := by
  have scanned : ∀ (negative : Bool) (size : List Char),
      numberDraft negative size = (.number (some number), some []) ↔
        ∃ whole fraction exponent,
          Literal.SpellsSize whole fraction exponent size ∧
          ofLiteral? ⟨negative, whole, fraction, exponent⟩ = some number :=
    fun _ _ => Literal.numberDraft_eq_iff
  unfold Json.number?
  constructor
  · intro read
    dsimp only at read
    split at read
    · next value drafted =>
        subst read
        split at drafted
        · next rest starts =>
            obtain ⟨whole, fraction, exponent, size, value⟩ :=
              (scanned _ _).1 drafted
            rw [starts]
            exact ⟨_, .minus size, value⟩
        · obtain ⟨whole, fraction, exponent, size, value⟩ :=
            (scanned _ _).1 drafted
          exact ⟨_, .unsigned size, value⟩
    · cases read
  · rintro ⟨literal, spells, value⟩
    generalize text.toList = characters at spells
    cases spells with
    | unsigned size =>
        have read := (scanned false _).2 ⟨_, _, _, size, value⟩
        dsimp only
        split
        · next drafted =>
            split at drafted
            · exact absurd rfl (size.ne_minus _)
            · exact Json.Draft.number.inj
                (Prod.mk.inj (drafted.symm.trans read)).1
        · next notRead =>
            refine (notRead (some number) ?_).elim
            split
            · exact absurd rfl (size.ne_minus _)
            · exact read
    | minus size =>
        have read := (scanned true _).2 ⟨_, _, _, size, value⟩
        simp only [read]

/-! ## Values -/

/-- A size with a sign. -/
def signed (negative : Bool) (size : ℚ) : ℚ := if negative then -size else size

/-- The exact value of a literal but for its sign. -/
def Literal.size (literal : Literal) : ℚ :=
  let fraction := literal.fraction.getD []
  ofDigits (literal.whole ++ fraction) *
    10 ^ (literal.written - fraction.length)

/-- The exact value of a literal. -/
def Literal.value (literal : Literal) : ℚ :=
  signed literal.negative literal.size

/-- The text is a JSON number of the given value. -/
def Denotes (text : String) (value : ℚ) : Prop :=
  ∃ literal : Literal, literal.Spells text.toList ∧ literal.value = value

/-- A text denotes at most one value. -/
theorem Denotes.unique
    {text : String}
    {value other : ℚ}
    (denotes : Denotes text value)
    (otherDenotes : Denotes text other) : value = other := by
  obtain ⟨literal, spells, rfl⟩ := denotes
  obtain ⟨otherLiteral, otherSpells, rfl⟩ := otherDenotes
  rw [spells.unique otherSpells]

end Number
end TableQuery
