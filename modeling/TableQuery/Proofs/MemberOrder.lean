import TableQuery.Proofs.Marshalling

/-!
# Members in any order

A map of attribute values does not have to keep the order of its members. Values
are alike if they are the same once the members of all their maps and objects
are in code point order. Alike attribute values have alike documents.
-/

namespace TableQuery

/-! ## Documents -/

namespace Json

mutual

/-- A document with the members of all objects in code point order. -/
def sorted : Json → Json
  | .array items => .array (sortedItems items)
  | .object members => .object (SortedMap.ofList (sortedMembers members)).entries
  | value => value

/-- Documents with the members of all objects in code point order. -/
def sortedItems : List Json → List Json
  | [] => []
  | item :: rest => sorted item :: sortedItems rest

/-- Named documents with the members of all objects in code point order. -/
def sortedMembers : List (String × Json) → List (String × Json)
  | [] => []
  | (name, value) :: rest => (name, sorted value) :: sortedMembers rest

end

/-- Documents are the same up to the order of the members of objects. -/
def Alike (left right : Json) : Prop := left.sorted = right.sorted

end Json

/-! ## Attribute values -/

namespace Attribute

mutual

/-- An attribute value with the members of all maps in code point order. -/
def sorted : Attribute → Attribute
  | .list items => .list (sortedItems items)
  | .map members => .map (SortedMap.ofList (sortedMembers members)).entries
  | value => value

/-- Attribute values with the members of all maps in code point order. -/
def sortedItems : List Attribute → List Attribute
  | [] => []
  | item :: rest => sorted item :: sortedItems rest

/-- Named attribute values with the members of all maps in code point order. -/
def sortedMembers : List (String × Attribute) → List (String × Attribute)
  | [] => []
  | (name, value) :: rest => (name, sorted value) :: sortedMembers rest

end

/-- Attribute values are the same up to the order of the members of maps. -/
def Alike (left right : Attribute) : Prop := left.sorted = right.sorted

mutual

/-- Members may be ordered before or after a value is turned into a
document. -/
theorem toDocument_sorted (value : Attribute) :
    toDocument (sorted value) = (toDocument value).sorted := by
  cases value with
  | string text => rfl
  | number text =>
      simp only [sorted, toDocument]
      split <;> rfl
  | bool value => rfl
  | null flag => rfl
  | list items =>
      rw [sorted, toDocument, toDocument, Json.sorted,
        toDocuments_sortedItems items]
  | map members =>
      rw [sorted, toDocument, toDocument, Json.sorted,
        ← toNamedDocuments_sortedMembers members, toNamedDocuments_eq_map,
        toNamedDocuments_eq_map, SortedMap.ofList_map]
      rfl

theorem toDocuments_sortedItems (items : List Attribute) :
    toDocuments (sortedItems items) =
      Json.sortedItems (toDocuments items) := by
  match items with
  | [] => rfl
  | item :: rest =>
      rw [sortedItems, toDocuments, toDocuments, Json.sortedItems,
        toDocument_sorted item, toDocuments_sortedItems rest]

theorem toNamedDocuments_sortedMembers
    (members : List (String × Attribute)) :
    toNamedDocuments (sortedMembers members) =
      Json.sortedMembers (toNamedDocuments members) := by
  match members with
  | [] => rfl
  | (name, value) :: rest =>
      rw [sortedMembers, toNamedDocuments, toNamedDocuments,
        Json.sortedMembers, toDocument_sorted value,
        toNamedDocuments_sortedMembers rest]

end

/-- Alike attribute values have alike documents. -/
theorem Alike.toDocument
    {left right : Attribute}
    (alike : left.Alike right) :
    (toDocument left).Alike (toDocument right) := by
  rw [Json.Alike, ← toDocument_sorted, ← toDocument_sorted, alike]

end Attribute

end TableQuery
