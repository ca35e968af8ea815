import TableQuery.Proofs.MemberOrder

/-!
# Unmarshalling undoes marshalling

A document can be told from its attribute value: attribute values are the same
up to the order of members exactly if the documents that they are made of are.
So no two kinds of documents share an attribute value: a text of digits does not
become a number, null does not become a boolean, and the empty list does not
become the empty map.
-/

namespace TableQuery

namespace Attribute

mutual

/-- Members may be ordered before or after a document is turned into an
attribute value. -/
theorem ofDocument_sorted (value : Json) :
    ofDocument value.sorted = (ofDocument value).sorted := by
  cases value with
  | null => rfl
  | bool value => rfl
  | number value => rfl
  | string value => rfl
  | array items =>
      rw [Json.sorted, ofDocument, ofDocument, sorted,
        ofDocuments_sortedItems items]
  | object members =>
      rw [Json.sorted, ofDocument, ofDocument, sorted,
        ← ofNamedDocuments_sortedMembers members, ofNamedDocuments_eq_map,
        ofNamedDocuments_eq_map, SortedMap.ofList_map]
      rfl

theorem ofDocuments_sortedItems (items : List Json) :
    ofDocuments (Json.sortedItems items) =
      sortedItems (ofDocuments items) := by
  match items with
  | [] => rfl
  | item :: rest =>
      rw [Json.sortedItems, ofDocuments, ofDocuments, sortedItems,
        ofDocument_sorted item, ofDocuments_sortedItems rest]

theorem ofNamedDocuments_sortedMembers (members : List (String × Json)) :
    ofNamedDocuments (Json.sortedMembers members) =
      sortedMembers (ofNamedDocuments members) := by
  match members with
  | [] => rfl
  | (name, value) :: rest =>
      rw [Json.sortedMembers, ofNamedDocuments, ofNamedDocuments,
        sortedMembers, ofDocument_sorted value,
        ofNamedDocuments_sortedMembers rest]

end

/-- Alike documents have alike attribute values. -/
theorem ofDocument_alike
    {left right : Json}
    (alike : left.Alike right) :
    (ofDocument left).Alike (ofDocument right) := by
  rw [Alike, ← ofDocument_sorted, ← ofDocument_sorted, alike]

end Attribute

open Attribute

/-- If the numbers of a document are read back from their own texts, so is the
document from its attribute value, up to the order of members whatever order a
map of attribute values lists them in. Among such documents, those with alike
attribute values are those that are alike. -/
theorem toDocument_alike_of_marshalled
    {value : Json}
    (readBack : ReadBack value.floats) :
    toDocument (ofDocument value) = value ∧
      (∀ marshalled : Attribute, marshalled.Alike (ofDocument value) →
        (toDocument marshalled).Alike value) ∧
      ∀ other : Json, ReadBack other.floats →
        ((ofDocument other).Alike (ofDocument value) ↔ other.Alike value) := by
  have back := toDocument_ofDocument value readBack
  have upToOrder (marshalled : Attribute)
      (alike : marshalled.Alike (ofDocument value)) :
      (toDocument marshalled).Alike value := by
    have documents := alike.toDocument
    rwa [back] at documents
  refine ⟨back, upToOrder, fun other otherBack => ⟨?_, ofDocument_alike⟩⟩
  intro alike
  have document := upToOrder (ofDocument other) alike
  rwa [toDocument_ofDocument other otherBack] at document

/-- Members with a negative and the greatest integer, a fraction, digits that are
a text, null, and containers without anything in them. -/
def mixedMembers : List (String × Json) :=
  let negative : Json := .number (.int (-15) (by decide))
  let greatest : Json := .number (.int 0xffffffffffffffff (by decide))
  let quarter : Json :=
    .number (.float ⟨false, 0x10000000000000, 1020, by decide⟩)
  let empty : Json := .object [("items", .array []), ("more", .object [])]
  [("range", .array [negative, greatest]), ("quarter", quarter),
    ("digits", .string "15"), ("none", .null), ("inner", empty)]

theorem toDocument_alike_of_marshalled_mixedMembers :
    ReadBack (Json.object mixedMembers).floats ∧
      toDocument (ofDocument (.object mixedMembers)) = .object mixedMembers ∧
      (toDocument (ofDocument (.object mixedMembers.reverse))).Alike
        (.object mixedMembers) ∧
      ¬ (ofDocument (.string "15")).Alike
        (ofDocument (.number (.int 15 (by decide)))) := by
  have readBack : ReadBack (Json.object mixedMembers).floats := by
    unfold ReadBack
    decide +kernel
  have reversed : (ofDocument (.object mixedMembers.reverse)).Alike
      (ofDocument (.object mixedMembers)) := by
    unfold Alike
    decide +kernel
  have whole : ReadBack (Json.number (.int 15 (by decide))).floats := by
    unfold ReadBack
    decide +kernel
  have text : ReadBack (Json.string "15").floats := by
    unfold ReadBack
    decide +kernel
  obtain ⟨back, upToOrder, _⟩ := toDocument_alike_of_marshalled readBack
  refine ⟨readBack, back, upToOrder _ reversed, fun alike => ?_⟩
  have same := ((toDocument_alike_of_marshalled whole).2.2 _ text).1 alike
  cases same

end TableQuery
