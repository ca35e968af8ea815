import TableQuery.FieldMap
import TableQuery.Json.Number

/-!
# JSON values

A document is a JSON value whose objects list their members in the order of
first appearance. Readers keep one member for each name, so the members of an
object that was read have distinct names.
-/

namespace TableQuery

/-- A JSON value. -/
inductive Json
  | null
  | bool (value : Bool)
  | number (value : Number)
  | string (value : String)
  | array (items : List Json)
  | object (members : List (String × Json))
  deriving Inhabited

namespace Json

mutual

/-- Whether two values are the same, member order included. -/
def same : Json → Json → Bool
  | .null, .null => true
  | .bool left, .bool right => left == right
  | .number left, .number right => decide (left = right)
  | .string left, .string right => decide (left = right)
  | .array left, .array right => sameItems left right
  | .object left, .object right => sameMembers left right
  | _, _ => false

/-- Whether two lists hold the same values. -/
def sameItems : List Json → List Json → Bool
  | [], [] => true
  | left :: lefts, right :: rights => same left right && sameItems lefts rights
  | _, _ => false

/-- Whether two lists hold the same named values. -/
def sameMembers : List (String × Json) → List (String × Json) → Bool
  | [], [] => true
  | (name, left) :: lefts, (other, right) :: rights =>
      decide (name = other) && same left right && sameMembers lefts rights
  | _, _ => false

end

mutual

theorem same_iff (left right : Json) : same left right = true ↔ left = right := by
  cases left <;> cases right <;>
    simp [same, sameItems_iff, sameMembers_iff]

theorem sameItems_iff (left right : List Json) :
    sameItems left right = true ↔ left = right := by
  cases left <;> cases right <;> simp [sameItems, same_iff, sameItems_iff]

theorem sameMembers_iff (left right : List (String × Json)) :
    sameMembers left right = true ↔ left = right := by
  match left, right with
  | [], [] => simp [sameMembers]
  | [], _ :: _ => simp [sameMembers]
  | _ :: _, [] => simp [sameMembers]
  | (name, value) :: lefts, (other, image) :: rights =>
      simp [sameMembers, same_iff value image, sameMembers_iff lefts rights]

end

instance : DecidableEq Json := fun left right =>
  decidable_of_iff _ (same_iff left right)

/-- Whether the value is null. -/
def isNull : Json → Bool
  | .null => true
  | _ => false

/-- The member of an object with the given name. -/
def member? (name : String) : Json → Option Json
  | .object members => members.lookup name
  | _ => none

/-- The object with the members of a map. -/
def ofMap (map : FieldMap Json) : Json := .object map.entries

end Json

end TableQuery
