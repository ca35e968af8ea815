import Mathlib.Data.List.TakeWhile
import TableQuery.Compile.Clause

/-!
# Field names

A field name is spliced into aliases and placeholders, and a reader has to find
its end again. It does, because a name consists of name characters only and
whatever follows it in a fragment starts with another character. The class of
name characters is given here once, and the test for it decides it.
-/

namespace TableQuery

/-- The characters that names are made of: ASCII letters, digits and the
underscore. -/
def NameCharacter (character : Char) : Prop :=
  ('A' ≤ character ∧ character ≤ 'Z') ∨ ('a' ≤ character ∧ character ≤ 'z') ∨
    ('0' ≤ character ∧ character ≤ '9') ∨ character = '_'

theorem isNameChar_iff (character : Char) :
    isNameChar character = true ↔ NameCharacter character := by
  have upper : character.isUpper = true ↔
      'A' ≤ character ∧ character ≤ 'Z' := decide_eq_true_iff
  have lower : character.isLower = true ↔
      'a' ≤ character ∧ character ≤ 'z' :=
    Bool.and_eq_true_iff.trans (and_congr decide_eq_true_iff decide_eq_true_iff)
  have digit : character.isDigit = true ↔
      '0' ≤ character ∧ character ≤ '9' :=
    Bool.and_eq_true_iff.trans (and_congr decide_eq_true_iff decide_eq_true_iff)
  have classes : isNameChar character =
      (character.isUpper || character.isLower || character.isDigit
        || character == '_') := rfl
  rw [classes, NameCharacter, ← upper, ← lower, ← digit]
  simp only [Bool.or_eq_true, beq_iff_eq, or_assoc]

/-- A name that can be spliced: name characters, at least one of them. -/
def ValidName (name : String) : Prop :=
  name ≠ "" ∧ ∀ character ∈ name.toList, NameCharacter character

theorem isFieldName_iff (name : String) :
    isFieldName name = true ↔ ValidName name := by
  simp [isFieldName, ValidName, isNameChar_iff]

instance : DecidablePred ValidName := fun name =>
  decidable_of_iff _ (isFieldName_iff name)

theorem checkFieldName_eq_ok (name : String) :
    checkFieldName name = .ok () ↔ ValidName name := by
  rw [checkFieldName_eq_ok_iff, isFieldName_iff]

theorem ValidName.toList_ne_nil
    {name : String}
    (valid : ValidName name) : name.toList ≠ [] := by
  simpa using valid.1

theorem ValidName.isNameChar
    {name : String}
    (valid : ValidName name)
    {character : Char}
    (member : character ∈ name.toList) : isNameChar character = true :=
  (isNameChar_iff character).2 (valid.2 character member)

/-! ## The end of a run of characters -/

/-- A text that does not go on with characters of a class. -/
def Stops (inside : Char → Bool) (rest : List Char) : Prop :=
  ∀ character ∈ rest.head?, inside character = false

@[simp] theorem stops_nil (inside : Char → Bool) : Stops inside [] := by
  simp [Stops]

@[simp] theorem stops_cons
    (inside : Char → Bool)
    (character : Char)
    (rest : List Char) :
    Stops inside (character :: rest) ↔ inside character = false := by
  simp [Stops]

instance (inside : Char → Bool) (rest : List Char) :
    Decidable (Stops inside rest) :=
  match rest with
  | [] => isTrue (stops_nil inside)
  | character :: rest =>
      decidable_of_iff _ (stops_cons inside character rest).symm

theorem Stops.append
    {inside : Char → Bool}
    {left right : List Char}
    (leftStops : Stops inside left)
    (rightStops : Stops inside right) : Stops inside (left ++ right) := by
  cases left with
  | nil => exact rightStops
  | cons character left => simpa using leftStops

theorem Stops.flatten
    {inside : Char → Bool}
    {parts : List (List Char)}
    (partStops : ∀ part ∈ parts, Stops inside part) :
    Stops inside parts.flatten := by
  induction parts with
  | nil => exact stops_nil inside
  | cons part parts hypothesis =>
      obtain ⟨head, tail⟩ := List.forall_mem_cons.1 partStops
      exact head.append (hypothesis tail)

theorem Stops.intercalate
    {inside : Char → Bool}
    {separator : List Char}
    (separates : Stops inside separator)
    {parts : List (List Char)}
    (partStops : ∀ part ∈ parts, Stops inside part) :
    Stops inside (separator.intercalate parts) := by
  induction parts with
  | nil => exact stops_nil inside
  | cons part parts hypothesis =>
      obtain ⟨head, tail⟩ := List.forall_mem_cons.1 partStops
      cases parts with
      | nil => simpa using head
      | cons next parts =>
          rw [List.intercalate_cons_cons]
          exact (head.append separates).append (hypothesis tail)

theorem Stops.takeWhile
    {inside : Char → Bool}
    {rest : List Char}
    (stops : Stops inside rest) : rest.takeWhile inside = [] := by
  cases rest with
  | nil => rfl
  | cons character rest => simp [(stops_cons _ _ _).1 stops]

theorem Stops.dropWhile
    {inside : Char → Bool}
    {rest : List Char}
    (stops : Stops inside rest) : rest.dropWhile inside = rest := by
  cases rest with
  | nil => rfl
  | cons character rest => simp [(stops_cons _ _ _).1 stops]

theorem stops_dropWhile (inside : Char → Bool) (text : List Char) :
    Stops inside (text.dropWhile inside) := by
  induction text with
  | nil => exact stops_nil inside
  | cons character text hypothesis =>
      rw [List.dropWhile_cons]
      split
      · exact hypothesis
      · next outside => simpa using outside

theorem Stops.takeWhile_append
    {inside : Char → Bool}
    {rest : List Char}
    (stops : Stops inside rest)
    (text : List Char) :
    (text ++ rest).takeWhile inside = text.takeWhile inside := by
  rw [List.takeWhile_append, stops.takeWhile, List.append_nil]
  split
  · next whole =>
      exact ((List.takeWhile_prefix inside).eq_of_length whole).symm
  · rfl

/-- A run of characters of a class is read back up to its end. -/
theorem Stops.takeWhile_run
    {inside : Char → Bool}
    {rest : List Char}
    (stops : Stops inside rest)
    {run : List Char}
    (all : ∀ character ∈ run, inside character = true) :
    (run ++ rest).takeWhile inside = run := by
  rw [List.takeWhile_append_of_pos all, stops.takeWhile, List.append_nil]

theorem Stops.dropWhile_run
    {inside : Char → Bool}
    {rest : List Char}
    (stops : Stops inside rest)
    {run : List Char}
    (all : ∀ character ∈ run, inside character = true) :
    (run ++ rest).dropWhile inside = rest := by
  rw [List.dropWhile_append_of_pos all, stops.dropWhile]

/-! ## The end of a name -/

/-- A name does not go on with a text. -/
def EndsName (rest : List Char) : Prop :=
  ∀ character ∈ rest.head?, ¬ NameCharacter character

theorem endsName_iff (rest : List Char) :
    EndsName rest ↔ Stops isNameChar rest := by
  simp only [EndsName, Stops, ← isNameChar_iff, Bool.not_eq_true]

theorem nameCharacter_of_mem_takeWhile
    {text : List Char}
    {character : Char}
    (member : character ∈ text.takeWhile isNameChar) :
    NameCharacter character :=
  (isNameChar_iff character).1 (List.mem_takeWhile_imp member)

theorem endsName_dropWhile (text : List Char) :
    EndsName (text.dropWhile isNameChar) :=
  (endsName_iff _).2 (stops_dropWhile isNameChar text)

/-- A name is read back up to its end. -/
theorem takeWhile_name
    {name rest : List Char}
    (nameChars : ∀ character ∈ name, NameCharacter character)
    (ends : EndsName rest) : (name ++ rest).takeWhile isNameChar = name :=
  ((endsName_iff rest).1 ends).takeWhile_run fun character member =>
    (isNameChar_iff character).2 (nameChars character member)

/-! ## Texts of aliases, placeholders and positions -/

@[simp] theorem toList_aliasOf (field : String) :
    (aliasOf field).toList = aliasMark :: field.toList := by
  simp [aliasOf, aliasMark]

@[simp] theorem toList_placeholderOf (field : String) :
    (placeholderOf field).toList = placeholderMark :: field.toList := by
  simp [placeholderOf, placeholderMark]

@[simp] theorem aliasOf_inj (left right : String) :
    aliasOf left = aliasOf right ↔ left = right := by
  simp [aliasOf]

@[simp] theorem placeholderOf_inj (left right : String) :
    placeholderOf left = placeholderOf right ↔ left = right := by
  simp [placeholderOf]

theorem ofList_aliasMark (field : String) :
    String.ofList (aliasMark :: field.toList) = aliasOf field := by
  rw [← toList_aliasOf, String.ofList_toList]

theorem ofList_placeholderMark (field : String) :
    String.ofList (placeholderMark :: field.toList) = placeholderOf field := by
  rw [← toList_placeholderOf, String.ofList_toList]

theorem toList_intText (index : Nat) :
    (Number.intText index).toList = Nat.toDigits 10 index := by
  have notNegative : ¬ (index : Int) < 0 := by omega
  simp [Number.intText, notNegative]

theorem isDigit_of_mem_intText
    {index : Nat}
    {character : Char}
    (member : character ∈ (Number.intText index).toList) :
    character.isDigit = true := by
  rw [toList_intText] at member
  exact Nat.isDigit_of_mem_toDigits (by decide) (by decide) member

end TableQuery
