import TableQuery.Compile.Clause
import TableQuery.Conditions
import TableQuery.Config
import TableQuery.Trim

/-!
# Resolved edits

Edits as written are resolved into assignments and removals, field by field in
the order written. One name is reserved and never edited; index keys without a
value are left out before anything is asked of them.
-/

namespace TableQuery

/-- The field that is never edited. -/
def reservedField : String := "type"

/-- The member of a value that stands for the position of a list item. -/
def inlineIndexName : String := "index"

/-- A position of a list, which must not be negative. -/
def listIndex (field : String) (index : Int64) : Except CompileError Nat :=
  if 0 ≤ index.toInt then .ok index.toInt.toNat
  else .error (.invalidListIndex field index)

/-- The position that a value carries among its members. -/
def inlineIndex (value : Json) : Option Int64 :=
  match value.member? inlineIndexName with
  | some (.number number) => number.toInt64?
  | _ => none

/-- Whether a field would be written without a value although it is an index
key. -/
def isSuppressed
    (config : Config)
    (field : String)
    (entry : Option EditEntry) : Bool :=
  config.isIndexKey field &&
    match entry.bind EditEntry.value? with
    | none => true
    | some .null => true
    | some (.string value) => value.isEmpty
    | some _ => false

/-- Resolve an edit that writes a field. Appending comes before a position, and
a position given by the edit before one among the members of the value. -/
def resolveAssignment (field : String) (edit : Edit) (value : Json) :
    Except CompileError Assignment :=
  if edit.append then
    match value with
    | .array items => .ok (.append items)
    | _ => .ok (.set value)
  else
    match edit.index with
    | some index => do
        .ok (.setAt (← listIndex field index) value)
    | none =>
        match inlineIndex value with
        | some index => do
            .ok (.setAt (← listIndex field index)
              (value.without [inlineIndexName]))
        | none => .ok (.set value)

/-- The edit and the value of an entry that writes a field. -/
def requireValue (field : String) (entry : Option EditEntry) :
    Except CompileError (Edit × Json) :=
  match entry.bind EditEntry.edit? with
  | some edit =>
      match edit.value with
      | some value => .ok (edit, value)
      | none => .error (.missingValue field)
  | none => .error (.missingValue field)

/-- Resolve the entries that write fields. -/
def resolveUpdate (config : Config) :
    List (String × Option EditEntry) →
      Except CompileError (List (String × Assignment))
  | [] => .ok []
  | (field, entry) :: rest =>
      if field = reservedField then resolveUpdate config rest
      else do
        checkFieldName field
        if isSuppressed config field entry then resolveUpdate config rest
        else do
          let (edit, value) ← requireValue field entry
          let assignment ← resolveAssignment field edit value
          let others ← resolveUpdate config rest
          .ok ((field, assignment) :: others)

/-- Resolve an entry that removes a field or an item of it. -/
def resolveRemoval (field : String) (entry : Option EditEntry) :
    Except CompileError Removal :=
  match (entry.bind EditEntry.edit?).bind Edit.index with
  | some index => do
      .ok (.item (← listIndex field index))
  | none => .ok .field

/-- Resolve the entries that remove fields. -/
def resolveRemove :
    List (String × Option EditEntry) →
      Except CompileError (List (String × Removal))
  | [] => .ok []
  | (field, entry) :: rest =>
      if field = reservedField then resolveRemove rest
      else do
        checkFieldName field
        let removal ← resolveRemoval field entry
        let others ← resolveRemove rest
        .ok ((field, removal) :: others)

/-- Appending binds the placeholder of the empty list, which no written field
may claim then. -/
def checkPlaceholders (assignments : List (String × Assignment)) :
    Except CompileError Unit :=
  if assignments.any fun entry => entry.2.isAppend then
    match assignments.find? fun entry =>
        placeholderOf entry.1 == emptyListPlaceholder with
    | some (field, _) =>
        .error (.reservedPlaceholder field emptyListPlaceholder)
    | none => .ok ()
  else .ok ()

/-- The assignments of conditions, if these write fields. -/
def assignments (config : Config) (conditions : Conditions) :
    Except CompileError (Option (List (String × Assignment))) :=
  match conditions.update with
  | none =>
      match conditions.remove with
      | none => .error .missingEdits
      | some _ => .ok none
  | some update => do
      let found ← resolveUpdate config update.entries
      if found.isEmpty then .error .emptyUpdate
      else do
        checkPlaceholders found
        .ok (some found)

/-- The removals of conditions, if these remove fields. -/
def removals (conditions : Conditions) :
    Except CompileError (Option (List (String × Removal))) :=
  match conditions.remove with
  | none => .ok none
  | some remove => do
      let found ← resolveRemove remove.entries
      if found.isEmpty then .error .emptyRemove
      else .ok (some found)

end TableQuery
