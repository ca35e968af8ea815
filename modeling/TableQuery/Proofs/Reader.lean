import Mathlib.Data.List.Basic
import TableQuery.Proofs.FieldName

/-!
# Reading fragments

A fragment is read from left to right. A reader finds one item in front of a
text and hands on what follows; each kind of item is read back from the text
that it is written as, provided that the text behind it does not go on with the
item. Separated items are read until no separator follows.
-/

namespace TableQuery

/-- Finds an item in front of a text and hands on the rest. -/
abbrev Reader (α : Type) := List Char → Option (α × List Char)

variable {α : Type}

theorem Stops.mono
    {inside wider : Char → Bool}
    {rest : List Char}
    (stops : Stops wider rest)
    (includes : ∀ character, inside character = true →
      wider character = true) : Stops inside rest := by
  intro character first
  have outside := stops character first
  cases held : inside character with
  | false => rfl
  | true => rw [includes character held] at outside; exact outside

theorem Stops.append_of_ne_nil
    {inside : Char → Bool}
    {left : List Char}
    (leftStops : Stops inside left)
    (nonempty : left ≠ [])
    (right : List Char) : Stops inside (left ++ right) := by
  cases left with
  | nil => exact absurd rfl nonempty
  | cons character left => simpa using leftStops

namespace Reader

/-- Go on behind a fixed word. -/
def skip (word : String) (text : List Char) : Option (List Char) :=
  word.toList.isPrefixOf? text

@[simp] theorem skip_append (word : String) (rest : List Char) :
    skip word (word.toList ++ rest) = some rest :=
  List.isPrefixOf?_eq_some_iff_append_eq.2 rfl

@[simp] theorem skip_nil {word : String} (nonempty : word ≠ "") :
    skip word [] = none := by
  cases letters : word.toList with
  | nil => exact absurd (by simpa using letters) nonempty
  | cons character letters => rw [skip, letters]; rfl

/-- Read a mark and the name behind it. -/
def token (mark : Char) : Reader String
  | [] => none
  | character :: rest =>
      if character = mark ∧ rest.takeWhile isNameChar ≠ [] then
        some (String.ofList (mark :: rest.takeWhile isNameChar),
          rest.dropWhile isNameChar)
      else none

/-- A token ends where no name goes on. -/
theorem token_mark
    (mark : Char)
    {field : String}
    (valid : ValidName field)
    {rest : List Char}
    (stops : Stops isNameChar rest) :
    token mark (mark :: (field.toList ++ rest)) =
      some (String.ofList (mark :: field.toList), rest) := by
  have name := stops.takeWhile_run fun _ => valid.isNameChar
  have behind := stops.dropWhile_run fun _ => valid.isNameChar
  rw [token, name, behind, if_pos ⟨rfl, valid.toList_ne_nil⟩]

theorem token_aliasOf
    {field : String}
    (valid : ValidName field)
    {rest : List Char}
    (stops : Stops isNameChar rest) :
    token aliasMark ((aliasOf field).toList ++ rest) =
      some (aliasOf field, rest) := by
  rw [toList_aliasOf, List.cons_append, token_mark _ valid stops,
    ofList_aliasMark]

theorem token_placeholderOf
    {field : String}
    (valid : ValidName field)
    {rest : List Char}
    (stops : Stops isNameChar rest) :
    token placeholderMark ((placeholderOf field).toList ++ rest) =
      some (placeholderOf field, rest) := by
  rw [toList_placeholderOf, List.cons_append, token_mark _ valid stops,
    ofList_placeholderMark]

/-- Read a position of a list in brackets. -/
def position : Reader Nat
  | '[' :: rest =>
      match rest.dropWhile Char.isDigit with
      | ']' :: behind =>
          some (Nat.ofDigitChars 10 (rest.takeWhile Char.isDigit) 0, behind)
      | _ => none
  | _ => none

theorem position_intText (index : Nat) (rest : List Char) :
    position ("[".toList ++
        ((Number.intText index).toList ++ ("]".toList ++ rest))) =
      some (index, rest) := by
  have stops : Stops Char.isDigit ("]".toList ++ rest) :=
    (stops_cons _ ']' rest).2 (by decide)
  have digits : ∀ character ∈ (Number.intText index).toList,
      character.isDigit = true := fun _ => isDigit_of_mem_intText
  change position ('[' :: ((Number.intText index).toList ++ _)) = _
  rw [position, stops.takeWhile_run digits, stops.dropWhile_run digits,
    toList_intText, Nat.ofDigitChars_toDigits (by decide) (by decide)]
  rfl

/-- Without a bracket there is no position. -/
theorem position_eq_none
    {rest : List Char}
    (stops : Stops (· == '[') rest) : position rest = none := by
  cases rest with
  | nil => rfl
  | cons character rest =>
      have different : character ≠ '[' := by simpa using stops
      unfold position
      split
      · next same => exact absurd (List.cons.inj same).1 different
      · rfl

/-- Read items with a separator between them, as many as fuel allows. -/
def separated (separator : String) (item : Reader α) : Nat → Reader (List α)
  | 0, _ => none
  | fuel + 1, text => do
      let (first, rest) ← item text
      match skip separator rest with
      | none => some ([first], rest)
      | some behind => do
          let (others, rest) ← separated separator item fuel behind
          some (first :: others, rest)

/-- Read items with a separator between them, at least one. -/
def items (separator : String) (item : Reader α) : Reader (List α) :=
  fun text => separated separator item (text.length + 1) text

theorem separated_intercalate
    {separator : String}
    {item : Reader α}
    {print : α → String}
    {goesOn : Char → Bool}
    (separates : Stops goesOn separator.toList)
    (visible : separator.toList ≠ [])
    {results : List α}
    (nonempty : results ≠ [])
    (reads : ∀ result ∈ results, ∀ rest, Stops goesOn rest →
      item ((print result).toList ++ rest) = some (result, rest))
    {rest : List Char}
    (stops : Stops goesOn rest)
    (ends : skip separator rest = none)
    {fuel : Nat}
    (enough : results.length ≤ fuel) :
    separated separator item fuel
        ((separator.intercalate (results.map print)).toList ++ rest) =
      some (results, rest) := by
  induction results generalizing fuel with
  | nil => exact absurd rfl nonempty
  | cons result results hypothesis =>
      obtain ⟨fuel, rfl⟩ := Nat.exists_eq_add_of_le' (Nat.zero_lt_of_lt enough)
      obtain ⟨head, tail⟩ := List.forall_mem_cons.1 reads
      cases results with
      | nil =>
          have first := head rest stops
          simp [separated, first, ends]
      | cons next results =>
          have others := hypothesis (List.cons_ne_nil _ _) tail
            (Nat.le_of_succ_le_succ enough)
          -- What follows the first item starts with the separator.
          have first := head _ (separates.append_of_ne_nil visible
            ((separator.intercalate ((next :: results).map print)).toList
              ++ rest))
          rw [List.map_cons, List.map_cons, String.intercalate_cons_cons,
            ← List.map_cons, String.toList_append, String.toList_append,
            List.append_assoc, List.append_assoc, separated, first]
          simp only [Option.bind_eq_bind, Option.bind_some, skip_append,
            others]

theorem length_le_intercalate
    {separator : List Char}
    (visible : separator ≠ [])
    (texts : List (List Char)) :
    texts.length ≤ (separator.intercalate texts).length + 1 := by
  induction texts with
  | nil => simp
  | cons text texts hypothesis =>
      cases texts with
      | nil => simp
      | cons next texts =>
          have positive := List.length_pos_iff.2 visible
          rw [List.intercalate_cons_cons]
          simp only [List.length_cons, List.length_append] at hypothesis ⊢
          omega

/-- Items are read back from the text that has separators between them. -/
theorem items_intercalate
    {separator : String}
    {item : Reader α}
    {print : α → String}
    {goesOn : Char → Bool}
    (separates : Stops goesOn separator.toList)
    (visible : separator.toList ≠ [])
    {results : List α}
    (nonempty : results ≠ [])
    (reads : ∀ result ∈ results, ∀ rest, Stops goesOn rest →
      item ((print result).toList ++ rest) = some (result, rest))
    {rest : List Char}
    (stops : Stops goesOn rest)
    (ends : skip separator rest = none) :
    items separator item
        ((separator.intercalate (results.map print)).toList ++ rest) =
      some (results, rest) := by
  apply separated_intercalate separates visible nonempty reads stops ends
  have short := length_le_intercalate visible
    ((results.map print).map String.toList)
  rw [List.length_map, List.length_map] at short
  rw [List.length_append, String.toList_intercalate]
  omega

/-- Read a text up to its end. -/
def whole (item : Reader α) (text : List Char) : Option α :=
  match item text with
  | some (result, []) => some result
  | _ => none

theorem whole_eq_some
    {item : Reader α}
    {text : List Char}
    {result : α}
    (found : item (text ++ []) = some (result, [])) :
    whole item text = some result := by
  rw [List.append_nil] at found
  rw [whole, found]

end Reader

end TableQuery
