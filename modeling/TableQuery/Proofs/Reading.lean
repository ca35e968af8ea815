import TableQuery.Proofs.Closure
import TableQuery.Proofs.Reader

/-!
# What fragments say

A clause says something about a field and a value, once its tokens are looked up
in the maps of the expression that it belongs to. Readers that look tokens up
give back what a fragment was written for, so fragments of different clauses are
different texts.
-/

namespace TableQuery

open Reader

namespace Expression

/-! ## Clauses -/

/-- Read an alias and look up the field behind it. -/
def readField (expression : Expression) : Reader String := fun text => do
  let (token, rest) ← Reader.token aliasMark text
  let field ← expression.names.get? token
  some (field, rest)

/-- Read a placeholder and look up the value behind it. -/
def readValue (expression : Expression) : Reader Json := fun text => do
  let (token, rest) ← Reader.token placeholderMark text
  let value ← expression.values.get? token
  some (value, rest)

/-- Read a field or a position of the list that it holds. -/
def readPath (expression : Expression) : Reader (String × Option Nat) :=
  fun text => do
    let (field, rest) ← expression.readField text
    match position rest with
    | some (index, rest) => some ((field, some index), rest)
    | none => some ((field, none), rest)

/-- Read that a field equals a value. -/
def readEquality (expression : Expression) : Reader (String × Json) :=
  fun text => do
    let (field, rest) ← expression.readField text
    let rest ← skip " = " rest
    let (value, rest) ← expression.readValue rest
    some ((field, value), rest)

/-- Read which items are appended to the list that a field holds, or to the
empty list if it holds none. -/
def readAppended (expression : Expression) (field : String) :
    Reader Assignment := fun text => do
  let (again, rest) ← expression.readField text
  let rest ← skip ", " rest
  let (start, rest) ← expression.readValue rest
  let rest ← skip "), " rest
  let (value, rest) ← expression.readValue rest
  let rest ← skip ")" rest
  match value with
  | .array items =>
      if again = field ∧ start = .array [] then some (.append items, rest)
      else none
  | _ => none

/-- Read what a field becomes. -/
def readWritten (expression : Expression) (field : String) :
    Reader Assignment := fun text =>
  match skip "list_append(if_not_exists(" text with
  | some rest => expression.readAppended field rest
  | none => do
      let (value, rest) ← expression.readValue text
      some (.set value, rest)

/-- Read a clause that writes a field. -/
def readAssignment (expression : Expression) :
    Reader (String × Assignment) := fun text => do
  let ((field, place), rest) ← expression.readPath text
  let rest ← skip " = " rest
  match place with
  | some index => do
      let (value, rest) ← expression.readValue rest
      some ((field, .setAt index value), rest)
  | none => do
      let (assignment, rest) ← expression.readWritten field rest
      some ((field, assignment), rest)

/-- Read a clause that removes from a field. -/
def readRemoval (expression : Expression) : Reader (String × Removal) :=
  fun text => do
    let ((field, place), rest) ← expression.readPath text
    match place with
    | some index => some ((field, .item index), rest)
    | none => some ((field, .field), rest)

/-- The alias of a field stands for it. -/
structure Names (expression : Expression) (field : String) : Prop where
  /-- The field can be spliced. -/
  valid : ValidName field
  /-- The alias is defined. -/
  named : expression.names.get? (aliasOf field) = some field

/-- The alias of a field stands for it, and its placeholder for a value. -/
structure Binds (expression : Expression) (field : String) (value : Json) : Prop
    extends expression.Names field where
  /-- The placeholder is defined. -/
  bound : expression.values.get? (placeholderOf field) = some value

variable {expression : Expression} {field : String} {rest : List Char}

theorem readField_aliasOf
    (names : expression.Names field)
    (stops : Stops isNameChar rest) :
    expression.readField ((aliasOf field).toList ++ rest) =
      some (field, rest) := by
  simp only [readField, token_aliasOf names.valid stops, names.named,
    Option.bind_eq_bind, Option.bind_some]

theorem readValue_placeholderOf
    {value : Json}
    (valid : ValidName field)
    (bound : expression.values.get? (placeholderOf field) = some value)
    (stops : Stops isNameChar rest) :
    expression.readValue ((placeholderOf field).toList ++ rest) =
      some (value, rest) := by
  simp only [readValue, token_placeholderOf valid stops, bound,
    Option.bind_eq_bind, Option.bind_some]

/-- A word behind an alias ends it. -/
theorem readField_word
    (names : expression.Names field)
    {word : String}
    (stops : Stops isNameChar word.toList)
    (visible : word.toList ≠ []) :
    expression.readField
        ((aliasOf field).toList ++ (word.toList ++ rest)) =
      some (field, word.toList ++ rest) :=
  readField_aliasOf names (stops.append_of_ne_nil visible rest)

theorem readValue_word
    {value : Json}
    (valid : ValidName field)
    (bound : expression.values.get? (placeholderOf field) = some value)
    {word : String}
    (stops : Stops isNameChar word.toList)
    (visible : word.toList ≠ []) :
    expression.readValue
        ((placeholderOf field).toList ++ (word.toList ++ rest)) =
      some (value, word.toList ++ rest) :=
  readValue_placeholderOf valid bound (stops.append_of_ne_nil visible rest)

/-- Whether a character behind an alias goes on with the path. -/
def goesOn (character : Char) : Bool :=
  isNameChar character || character == '['

/-- What ends a path ends a name. -/
theorem stops_isNameChar
    (stops : Stops goesOn rest) : Stops isNameChar rest := by
  apply stops.mono
  intro character held
  simp [goesOn, held]

theorem readPath_aliasOf
    (names : expression.Names field)
    (stops : Stops goesOn rest) :
    expression.readPath ((aliasOf field).toList ++ rest) =
      some ((field, none), rest) := by
  have endsName := stops_isNameChar stops
  have noPosition : position rest = none :=
    position_eq_none (stops.mono (by simp [goesOn]))
  simp only [readPath, readField_aliasOf names endsName, noPosition,
    Option.bind_eq_bind, Option.bind_some]

theorem readPath_itemPath
    (names : expression.Names field)
    (index : Nat) :
    expression.readPath ((itemPath field index).toList ++ rest) =
      some ((field, some index), rest) := by
  simp only [itemPath, String.toList_append, List.append_assoc]
  unfold readPath
  rw [readField_word names (by decide) (by decide)]
  simp only [position_intText, Option.bind_eq_bind, Option.bind_some]

/-- Appending starts with the empty list where a field holds no list. -/
def BindsStart (expression : Expression) (assignment : Assignment) : Prop :=
  assignment.isAppend = true →
    expression.values.get? emptyListPlaceholder = some (.array [])

theorem readAppended_clause
    {items : List Json}
    (binds : expression.Binds field (.array items))
    (start : expression.values.get? emptyListPlaceholder = some (.array [])) :
    expression.readAppended field
        ((aliasOf field).toList ++ (", ".toList ++
          (emptyListPlaceholder.toList ++ ("), ".toList ++
            ((placeholderOf field).toList ++ (")".toList ++ rest)))))) =
      some (.append items, rest) := by
  have validStart : ValidName "emptyList" := (isFieldName_iff _).1 (by decide)
  have isPlaceholder : emptyListPlaceholder = placeholderOf "emptyList" := rfl
  rw [isPlaceholder] at start ⊢
  unfold readAppended
  rw [readField_word binds.toNames (by decide) (by decide)]
  simp only [Option.bind_eq_bind, Option.bind_some, skip_append]
  rw [readValue_word validStart start (by decide) (by decide)]
  simp only [Option.bind_some, skip_append]
  rw [readValue_word binds.valid binds.bound (by decide) (by decide)]
  simp only [Option.bind_some, skip_append, and_self, if_true]

/-- A clause that writes is read back as the assignment that it was made of. -/
theorem readAssignment_clause
    {assignment : Assignment}
    (binds : expression.Binds field assignment.value)
    (start : expression.BindsStart assignment)
    (stops : Stops isNameChar rest) :
    expression.readAssignment ((assignment.clause field).toList ++ rest) =
      some ((field, assignment), rest) := by
  have valueRead := readValue_placeholderOf binds.valid binds.bound stops
  have equals : ∀ rest, Stops goesOn (" = ".toList ++ rest) := fun rest =>
    (stops_cons goesOn ' ' _).2 (by decide)
  cases assignment with
  | set value =>
      have noAppend : skip "list_append(if_not_exists("
          ((placeholderOf field).toList ++ rest) = none := by
        rw [toList_placeholderOf]
        rfl
      simp only [Assignment.clause, equality, String.toList_append,
        List.append_assoc]
      simp only [readAssignment, readPath_aliasOf binds.toNames (equals _),
        skip_append, readWritten, noAppend, valueRead, Option.bind_eq_bind,
        Option.bind_some]
      rfl
  | append items =>
      have words : " = list_append(if_not_exists(".toList =
          " = ".toList ++ "list_append(if_not_exists(".toList := rfl
      simp only [Assignment.clause, String.toList_append, List.append_assoc,
        words]
      simp only [readAssignment, readPath_aliasOf binds.toNames (equals _),
        skip_append, readWritten, readAppended_clause binds (start rfl),
        Option.bind_eq_bind, Option.bind_some]
  | setAt index value =>
      simp only [Assignment.clause, String.toList_append, List.append_assoc]
      simp only [readAssignment, readPath_itemPath binds.toNames, skip_append,
        valueRead, Option.bind_eq_bind, Option.bind_some]
      rfl

/-- A clause that removes is read back if no position follows it. -/
theorem readRemoval_clause
    (names : expression.Names field)
    (removal : Removal)
    (stops : Stops goesOn rest) :
    expression.readRemoval ((removal.clause field).toList ++ rest) =
      some ((field, removal), rest) := by
  cases removal with
  | field =>
      simp only [Removal.clause, readRemoval, readPath_aliasOf names stops,
        Option.bind_eq_bind, Option.bind_some]
  | item index =>
      simp only [Removal.clause, readRemoval, readPath_itemPath names,
        Option.bind_eq_bind, Option.bind_some]

/-! ## Fragments -/

/-- Read a fragment in which separators stand between clauses, or none if the
fragment is missing. -/
def readJoined {α : Type} (separator : String) (clause : Reader α) :
    Option String → Option (List α)
  | none => some []
  | some fragment => whole (items separator clause) fragment.toList

/-- Read an update: the part that writes, the part that removes, or both. -/
def readUpdate (expression : Expression) (text : List Char) :
    Option (List (String × Assignment) × List (String × Removal)) :=
  match skip "SET " text with
  | some rest => do
      let (written, rest) ← items ", " expression.readAssignment rest
      match skip " REMOVE " rest with
      | some rest => do
          let removed ← whole (items ", " expression.readRemoval) rest
          some (written, removed)
      | none => if rest = [] then some (written, []) else none
  | none => do
      let rest ← skip "REMOVE " text
      let removed ← whole (items ", " expression.readRemoval) rest
      some ([], removed)

/-- The clauses that write are read back one after the other. -/
theorem items_readAssignment
    {written : List (String × Assignment)}
    (binds : ∀ entry ∈ written, expression.Binds entry.1 entry.2.value ∧
      expression.BindsStart entry.2)
    (nonempty : written ≠ [])
    (stops : Stops goesOn rest)
    (ends : skip ", " rest = none) :
    items ", " expression.readAssignment
        ((", ".intercalate (written.map fun entry =>
          entry.2.clause entry.1)).toList ++ rest) = some (written, rest) := by
  refine items_intercalate (by decide) (by decide) nonempty ?_ stops ends
  intro entry member rest stops
  obtain ⟨bound, start⟩ := binds entry member
  exact readAssignment_clause bound start (stops_isNameChar stops)

theorem whole_readRemoval
    {removed : List (String × Removal)}
    (names : ∀ entry ∈ removed, expression.Names entry.1)
    (nonempty : removed ≠ []) :
    whole (items ", " expression.readRemoval)
        (", ".intercalate (removed.map fun entry =>
          entry.2.clause entry.1)).toList = some removed := by
  apply whole_eq_some
  refine items_intercalate (by decide) (by decide) nonempty ?_
    (stops_nil goesOn) (skip_nil (by decide))
  intro entry member rest stops
  exact readRemoval_clause (names entry member) entry.2 stops

/-- What an update writes and removes is read back from its text. -/
theorem readUpdate_updateText
    {written : List (String × Assignment)}
    {removed : List (String × Removal)}
    (binds : ∀ entry ∈ written, expression.Binds entry.1 entry.2.value ∧
      expression.BindsStart entry.2)
    (names : ∀ entry ∈ removed, expression.Names entry.1)
    (nonempty : written ≠ [] ∨ removed ≠ []) :
    expression.readUpdate (updateText written removed).toList =
      some (written, removed) := by
  by_cases noneRemoved : removed = []
  · subst noneRemoved
    have someWritten : written ≠ [] := by simpa using nonempty
    have writtenRead := items_readAssignment binds someWritten
      (stops_nil goesOn) (skip_nil (by decide))
    rw [List.append_nil] at writtenRead
    rw [updateText_written someWritten, String.toList_append]
    simp only [readUpdate, skip_append, writtenRead, Option.bind_eq_bind,
      Option.bind_some]
    rfl
  have removedRead := whole_readRemoval names noneRemoved
  by_cases noneWritten : written = []
  · subst noneWritten
    have noSet : ∀ rest, skip "SET " ("REMOVE ".toList ++ rest) = none :=
      fun _ => rfl
    rw [updateText_removed noneRemoved, String.toList_append]
    simp only [readUpdate, noSet, skip_append, removedRead,
      Option.bind_eq_bind, Option.bind_some]
  · have stops : ∀ rest, Stops goesOn (" REMOVE ".toList ++ rest) :=
      Stops.append_of_ne_nil (by decide) (by decide)
    have noComma : ∀ rest, skip ", " (" REMOVE ".toList ++ rest) = none :=
      fun _ => rfl
    rw [updateText_both noneWritten noneRemoved]
    simp only [String.toList_append, readUpdate, skip_append,
      items_readAssignment binds noneWritten (stops _) (noComma _),
      removedRead,
      Option.bind_eq_bind, Option.bind_some]

end Expression

end TableQuery
