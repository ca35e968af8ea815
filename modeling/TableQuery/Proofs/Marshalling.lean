import Mathlib.Data.List.TakeWhile
import TableQuery.Proofs.Bindings
import TableQuery.Request

/-!
# Documents survive marshalling

The attribute value of a document is read back as the document itself. Integers
are read back from their texts; of other numbers this has to be known, because a
text is read with less precision than it is written with.
-/

namespace TableQuery

/-! ## Texts of integers -/

/-- The text of a natural number starts with a zero only if it is that zero. -/
theorem toDigits_head {number : Nat} {rest : List Char}
    (starts : Nat.toDigits 10 number = '0' :: rest) : rest = [] := by
  induction number using Nat.strongRecOn generalizing rest with
  | ind number hypothesis =>
    by_cases small : number < 10
    · rw [Nat.toDigits_of_lt_base small] at starts
      exact (List.cons.inj starts).2.symm
    · have shorter := Nat.toDigits_of_base_le (by decide) (Nat.not_lt.1 small)
      cases leading : Nat.toDigits 10 (number / 10) with
      | nil => exact absurd leading Nat.toDigits_ne_nil
      | cons first others =>
          rw [shorter, leading, List.cons_append] at starts
          obtain ⟨rfl, _⟩ := List.cons.inj starts
          -- The digits before the last one denote a number that is not zero.
          have onlyZero := hypothesis (number / 10) (by omega) leading
          have value : Nat.ofDigitChars 10 ('0' :: others) 0 = number / 10 := by
            rw [← leading, Nat.ofDigitChars_ten_toDigits]
          rw [onlyZero] at value
          change 0 = number / 10 at value
          omega

namespace Json

variable {number : Nat}

theorem isDigit_of_mem_toDigits
    {character : Char}
    (member : character ∈ Nat.toDigits 10 number) :
    Scanner.isDigit character = true :=
  Nat.isDigit_of_mem_toDigits (by decide) (by decide) member

/-- Digits are scanned up to their end. -/
theorem numberDraft_toDigits (negative : Bool) (number : Nat) :
    Scanner.numberDraft negative (Nat.toDigits 10 number) =
      (.number (Number.ofLiteral?
        ⟨negative, Nat.toDigits 10 number, none, none⟩), some []) := by
  have digits : ∀ character ∈ Nat.toDigits 10 number,
      Scanner.isDigit character = true := fun _ => isDigit_of_mem_toDigits
  have all := List.takeWhile_eq_self_iff.2 digits
  have noRest := List.dropWhile_eq_nil_iff.2 digits
  simp only [Scanner.numberDraft, all, noRest]
  split
  · next empty => exact absurd empty Nat.toDigits_ne_nil
  · next starts => cases toDigits_head starts
  · rfl

/-- Digits denote an integer if it is held. -/
theorem ofLiteral?_toDigits
    {negative : Bool}
    {value : Int}
    (isValue : value = if negative then -(number : Int) else number)
    (notMinusZero : negative = true → number ≠ 0)
    (held : Number.Held value) :
    Number.ofLiteral? ⟨negative, Nat.toDigits 10 number, none, none⟩ =
      some (.int value held) := by
  have size : Number.ofDigits (Nat.toDigits 10 number) = number :=
    Nat.ofDigitChars_ten_toDigits
  subst isValue
  have integral : (negative && (number : Int) == 0) = false := by
    cases negative with
    | false => rfl
    | true => simpa using notMinusZero rfl
  simp only [Number.ofLiteral?, size, integral, Option.isSome_none,
    Bool.or_false, Bool.false_eq_true, if_false]
  rw [dif_pos held]

/-- The text of an integer is read back. -/
theorem number?_intText (value : Int) (held : Number.Held value) :
    number? (Number.intText value) = some (.int value held) := by
  by_cases negative : value < 0
  · have text : (Number.intText value).toList =
        '-' :: Nat.toDigits 10 value.natAbs := by
      simp [Number.intText, negative]
    have isValue : value = if true then -(value.natAbs : Int)
        else value.natAbs := by
      rw [if_pos rfl]
      omega
    have literal := ofLiteral?_toDigits isValue (by omega) held
    simp only [number?, text, numberDraft_toDigits, literal]
  · have text : (Number.intText value).toList =
        Nat.toDigits 10 value.natAbs := by
      simp [Number.intText, negative]
    have isValue : value = if false then -(value.natAbs : Int)
        else value.natAbs := by
      rw [if_neg (by decide)]
      omega
    have literal := ofLiteral?_toDigits isValue (by simp) held
    have noSign : ∀ rest, Nat.toDigits 10 value.natAbs ≠ '-' :: rest := by
      intro rest starts
      have digit := isDigit_of_mem_toDigits (starts ▸ List.mem_cons_self)
      exact absurd digit (by decide)
    unfold number?
    rw [text]
    split
    · next starts => exact absurd starts (noSign _)
    · simp only [numberDraft_toDigits, literal]

/-! ## Numbers in documents -/

mutual

/-- The binary64 numbers in a document, at all depths. -/
def floats : Json → List Binary64
  | .number (.float value) => [value]
  | .array items => floatsOfItems items
  | .object members => floatsOfMembers members
  | _ => []

/-- The binary64 numbers in documents. -/
def floatsOfItems : List Json → List Binary64
  | [] => []
  | item :: rest => floats item ++ floatsOfItems rest

/-- The binary64 numbers in named documents. -/
def floatsOfMembers : List (String × Json) → List Binary64
  | [] => []
  | (_, value) :: rest => floats value ++ floatsOfMembers rest

end

end Json

/-- Numbers are read back from their own texts. -/
def ReadBack (values : List Binary64) : Prop :=
  ∀ value ∈ values, Json.number? (Number.floatText value) = some (.float value)

theorem readBack_append (left right : List Binary64) :
    ReadBack (left ++ right) ↔ ReadBack left ∧ ReadBack right :=
  List.forall_mem_append

namespace Attribute

theorem toDocument_number
    {number : Number}
    (readBack : ReadBack (Json.number number).floats) :
    toDocument (.number number.text) = .number number := by
  cases number with
  | int value held =>
      rw [toDocument, Number.text_int, Json.number?_intText value held]
  | float value =>
      have read := readBack value (by simp [Json.floats])
      rw [toDocument, Number.text_float, read]

mutual

/-- A document is read back from its attribute value. -/
theorem toDocument_ofDocument
    (value : Json)
    (readBack : ReadBack value.floats) :
    toDocument (ofDocument value) = value := by
  cases value with
  | null => rfl
  | bool value => rfl
  | number number => exact toDocument_number readBack
  | string value => rfl
  | array items =>
      rw [ofDocument, toDocument, toDocuments_ofDocuments items readBack]
  | object members =>
      rw [ofDocument, toDocument,
        toNamedDocuments_ofNamedDocuments members readBack]

theorem toDocuments_ofDocuments
    (items : List Json)
    (readBack : ReadBack (Json.floatsOfItems items)) :
    toDocuments (ofDocuments items) = items := by
  match items with
  | [] => rfl
  | item :: rest =>
      obtain ⟨first, others⟩ := (readBack_append _ _).1 readBack
      rw [ofDocuments, toDocuments, toDocument_ofDocument item first,
        toDocuments_ofDocuments rest others]

theorem toNamedDocuments_ofNamedDocuments
    (members : List (String × Json))
    (readBack : ReadBack (Json.floatsOfMembers members)) :
    toNamedDocuments (ofNamedDocuments members) = members := by
  match members with
  | [] => rfl
  | (name, value) :: rest =>
      obtain ⟨first, others⟩ := (readBack_append _ _).1 readBack
      rw [ofNamedDocuments, toNamedDocuments, toDocument_ofDocument value first,
        toNamedDocuments_ofNamedDocuments rest others]

end

theorem ofNamedDocuments_eq_map (members : List (String × Json)) :
    ofNamedDocuments members =
      members.map fun member => (member.1, ofDocument member.2) := by
  induction members with
  | nil => rfl
  | cons member rest hypothesis =>
      rw [ofNamedDocuments, hypothesis, List.map_cons]

theorem toNamedDocuments_eq_map (members : List (String × Attribute)) :
    toNamedDocuments members =
      members.map fun member => (member.1, toDocument member.2) := by
  induction members with
  | nil => rfl
  | cons member rest hypothesis =>
      rw [toNamedDocuments, hypothesis, List.map_cons]

end Attribute

/-- Values are read back from the item that is made of them. -/
theorem Item.toValues_ofValues
    (values : SortedMap Json)
    (readBack : ReadBack (Json.floatsOfMembers values.entries)) :
    (ofValues values).toValues = values := by
  apply SortedMap.ext
  have entries :=
    Attribute.toNamedDocuments_ofNamedDocuments values.entries readBack
  rw [Attribute.ofNamedDocuments_eq_map,
    Attribute.toNamedDocuments_eq_map] at entries
  exact entries

/-- The item of an object binds every name to the attribute value of the member of
that name, the last one if there are several. -/
theorem Item.get?_ofMembers
    (members : List (String × Json))
    (name : String) :
    (ofMembers members).get? name =
      (members.reverse.lookup name).map Attribute.ofDocument := by
  rw [ofMembers, Attribute.ofNamedDocuments_eq_map, SortedMap.ofList_map,
    SortedMap.get?_mapValues, SortedMap.get?_ofList]

end TableQuery
