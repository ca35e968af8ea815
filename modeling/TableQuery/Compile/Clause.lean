import TableQuery.Expression.Reference

/-!
# Clauses

A fragment is a list of clauses, each about one field. A clause names its field
by the alias of that name and its value by the placeholder of that name, so
field names are restricted to the characters of tokens.
-/

namespace TableQuery

/-- Whether a name can be part of an alias or a placeholder. -/
def isFieldName (name : String) : Bool :=
  !name.toList.isEmpty && name.toList.all isNameChar

/-- Refuse a name that cannot be part of an alias or a placeholder. -/
def checkFieldName (name : String) : Except CompileError Unit :=
  if isFieldName name then .ok () else .error (.invalidFieldName name)

theorem checkFieldName_eq_ok_iff (name : String) :
    checkFieldName name = .ok () ↔ isFieldName name = true := by
  unfold checkFieldName
  split <;> simp_all

/-- The alias of a field. -/
def aliasOf (field : String) : String := "#" ++ field

/-- The placeholder of the value of a field. -/
def placeholderOf (field : String) : String := ":" ++ field

/-- The clause that a field equals its value. -/
def equality (field : String) : String :=
  aliasOf field ++ " = " ++ placeholderOf field

/-- A field at a position of the list that it holds. -/
def itemPath (field : String) (index : Nat) : String :=
  aliasOf field ++ "[" ++ Number.intText index ++ "]"

/-- The placeholder of the empty list, to which items are appended if a field
holds no list yet. -/
def emptyListPlaceholder : String := ":emptyList"

/-- How a field is written. -/
inductive Assignment
  /-- Its value is replaced. -/
  | set (value : Json)
  /-- Items are appended to the list that it holds. -/
  | append (items : List Json)
  /-- An item of the list that it holds is replaced. -/
  | setAt (index : Nat) (value : Json)
  deriving DecidableEq

namespace Assignment

/-- The clause of an assignment to a field. -/
def clause (field : String) : Assignment → String
  | set _ => equality field
  | append _ =>
      aliasOf field ++ " = list_append(if_not_exists(" ++ aliasOf field ++ ", "
        ++ emptyListPlaceholder ++ "), " ++ placeholderOf field ++ ")"
  | setAt index _ => itemPath field index ++ " = " ++ placeholderOf field

/-- The value that the placeholder of the field stands for. -/
def value : Assignment → Json
  | set value => value
  | append items => .array items
  | setAt _ value => value

/-- Whether items are appended. -/
def isAppend : Assignment → Bool
  | append _ => true
  | _ => false

/-- What the placeholders of the clause stand for. -/
def bindings (field : String) (assignment : Assignment) :
    List (String × Json) :=
  (placeholderOf field, assignment.value) ::
    if assignment.isAppend then [(emptyListPlaceholder, .array [])] else []

end Assignment

/-- How a field is removed. -/
inductive Removal
  /-- As a whole. -/
  | field
  /-- One item of the list that it holds. -/
  | item (index : Nat)
  deriving DecidableEq

namespace Removal

/-- The clause of a removal from a field. -/
def clause (field : String) : Removal → String
  | .field => aliasOf field
  | .item index => itemPath field index

end Removal

end TableQuery
