import TableQuery.Json.Value

/-!
# Trimming documents

Lists of names and documents are trimmed: by names to leave out, or by dropping
members that carry nothing.
-/

namespace TableQuery

/-- The names that are not excluded. -/
def withoutNames (excluded names : List String) : List String :=
  names.filter fun name => !excluded.contains name

namespace Json

/-- An object without the given members. Other values stay as they are, and so
do members of members. -/
def without (names : List String) : Json → Json
  | .object members =>
      .object (members.filter fun member => !names.contains member.1)
  | value => value

/-- Whether a value carries nothing: null, false, the empty text or zero. -/
def isBare : Json → Bool
  | .null => true
  | .bool value => !value
  | .string value => value.isEmpty
  | .number value => value.isZero
  | .array _ => false
  | .object _ => false

mutual

/-- Drop the members that carry nothing, also from members of members. Objects
that become empty stay, and arrays are kept with all they hold. -/
def dropBare : Json → Json
  | .object members => .object (dropBareMembers members)
  | value => value

/-- The members that carry something, without the parts that do not. -/
def dropBareMembers : List (String × Json) → List (String × Json)
  | [] => []
  | (name, value) :: rest =>
      if value.isBare then dropBareMembers rest
      else (name, dropBare value) :: dropBareMembers rest

end

end Json

end TableQuery
