import Mathlib.Data.Set.List
import TableQuery.Proofs.Unordered

/-!
# Attribute values are read from tagged forms only

The reader of attribute values takes the first member of an object and asks
afterwards whether there are others. What it accepts are the tagged forms of
attribute values, and it reads the attribute value that was written. The members
of maps may be listed in any order: the attribute value read then lists them in
this order.
-/

namespace TableQuery
namespace Attribute

open Json

/-! ## Documents that are read -/

/-- What is read from a scalar is written as that scalar behind its tag. -/
theorem toJson_of_ofScalar
    {tag : String}
    (payload : Json)
    {content : Attribute}
    (read : ofScalar tag (Found.ofJson payload) = .ok content) :
    content.toJson = .object [(tag, payload)] := by
  unfold ofScalar at read
  split_ifs at read with isString isNumber isBool isNull isList isMap
  all_goals
    subst tag
    cases payload <;> cases read <;> rfl

mutual

/-- What is read from a document is written as that document. -/
theorem toJson_of_ofJson
    (value : Json)
    {content : Attribute}
    (read : ofJson value = .ok content) : content.toJson = value := by
  match value with
  | .object [] => cases read
  | .object [(tag, payload)] =>
      obtain ⟨found, tagged, same⟩ := bind_eq_ok_iff.1 read
      cases same
      exact toJson_of_ofTagged tag payload tagged
  | .object ((tag, payload) :: _ :: _) =>
      obtain ⟨_, _, refused⟩ := bind_eq_ok_iff.1 read
      cases refused
  | .null | .bool _ | .number _ | .string _ | .array _ => cases read

/-- What is read from what stands behind a tag is written behind that tag. -/
theorem toJson_of_ofTagged
    (tag : String)
    (payload : Json)
    {content : Attribute}
    (read : ofTagged tag payload = .ok content) :
    content.toJson = .object [(tag, payload)] := by
  match payload with
  | .array items =>
      rw [ofTagged] at read
      split at read
      · next isList =>
          obtain ⟨found, each, same⟩ := bind_eq_ok_iff.1 read
          cases same
          rw [toJson, toJsonItems_of_ofItems items each, isList]
      · exact toJson_of_ofScalar (.array items) read
  | .object members =>
      rw [ofTagged] at read
      split at read
      · next isMap =>
          obtain ⟨found, each, same⟩ := bind_eq_ok_iff.1 read
          cases same
          rw [toJson, toJsonMembers_of_ofMembers members each, isMap]
      · exact toJson_of_ofScalar (.object members) read
  | .null | .bool _ | .number _ | .string _ =>
      exact toJson_of_ofScalar _ read

theorem toJsonItems_of_ofItems
    (items : List Json)
    {attributes : List Attribute}
    (read : ofItems items = .ok attributes) :
    toJsonItems attributes = items := by
  match items with
  | [] =>
      cases read
      rfl
  | item :: rest =>
      obtain ⟨first, readFirst, others⟩ := bind_eq_ok_iff.1 read
      obtain ⟨found, readRest, same⟩ := bind_eq_ok_iff.1 others
      cases same
      rw [toJsonItems, toJson_of_ofJson item readFirst,
        toJsonItems_of_ofItems rest readRest]

theorem toJsonMembers_of_ofMembers
    (members : List (String × Json))
    {attributes : List (String × Attribute)}
    (read : ofMembers members = .ok attributes) :
    toJsonMembers attributes = members := by
  match members with
  | [] =>
      cases read
      rfl
  | (name, value) :: rest =>
      obtain ⟨first, readFirst, others⟩ := bind_eq_ok_iff.1 read
      obtain ⟨found, readRest, same⟩ := bind_eq_ok_iff.1 others
      cases same
      rw [toJsonMembers, toJson_of_ofJson value readFirst,
        toJsonMembers_of_ofMembers rest readRest]

end

/-- An attribute value is read from its tagged form and from nothing else. -/
theorem ofJson_eq_ok_iff {value : Json} {content : Attribute} :
    ofJson value = .ok content ↔ value = content.toJson := by
  constructor
  · intro read
    exact (toJson_of_ofJson value read).symm
  · rintro rfl
    exact ofJson_toJson content

/-! ## Tagged documents -/

/-- A document that is an object with exactly one member at every depth, whose
name is a tag and whose value is what belongs behind this tag. -/
inductive Tagged : Json → Prop
  | string (value : String) : Tagged (.object [("S", .string value)])
  | number (text : String) : Tagged (.object [("N", .string text)])
  | bool (value : Bool) : Tagged (.object [("BOOL", .bool value)])
  | null (flag : Bool) : Tagged (.object [("NULL", .bool flag)])
  | list
      (items : List Json)
      (each : ∀ item ∈ items, Tagged item) :
      Tagged (.object [("L", .array items)])
  | map
      (members : List (String × Json))
      (each : ∀ member ∈ members, Tagged member.2) :
      Tagged (.object [("M", .object members)])

mutual

theorem tagged_toJson (content : Attribute) : Tagged content.toJson := by
  cases content with
  | string value => exact .string value
  | number text => exact .number text
  | bool value => exact .bool value
  | null flag => exact .null flag
  | list items => exact .list _ (tagged_toJsonItems items)
  | map members => exact .map _ (tagged_toJsonMembers members)

theorem tagged_toJsonItems (items : List Attribute) :
    ∀ item ∈ toJsonItems items, Tagged item := by
  match items with
  | [] => exact List.forall_mem_nil _
  | item :: rest =>
      exact List.forall_mem_cons.2
        ⟨tagged_toJson item, tagged_toJsonItems rest⟩

theorem tagged_toJsonMembers (members : List (String × Attribute)) :
    ∀ member ∈ toJsonMembers members, Tagged member.2 := by
  match members with
  | [] => exact List.forall_mem_nil _
  | (name, value) :: rest =>
      exact List.forall_mem_cons.2
        ⟨tagged_toJson value, tagged_toJsonMembers rest⟩

end

theorem toJsonItems_eq_map (items : List Attribute) :
    toJsonItems items = items.map toJson := by
  induction items with
  | nil => rfl
  | cons item rest hypothesis => rw [toJsonItems, hypothesis, List.map_cons]

theorem toJsonMembers_eq_map (members : List (String × Attribute)) :
    toJsonMembers members =
      members.map fun member => (member.1, toJson member.2) := by
  induction members with
  | nil => rfl
  | cons member rest hypothesis =>
      rw [toJsonMembers, hypothesis, List.map_cons]

/-- Every tagged document is the tagged form of an attribute value. -/
theorem Tagged.exists_toJson {value : Json} (tagged : Tagged value) :
    ∃ content : Attribute, content.toJson = value := by
  induction tagged with
  | string value => exact ⟨.string value, rfl⟩
  | number text => exact ⟨.number text, rfl⟩
  | bool value => exact ⟨.bool value, rfl⟩
  | null flag => exact ⟨.null flag, rfl⟩
  | list items _ hypothesis =>
      have written : items ∈ Set.range (List.map toJson) := by
        rw [Set.range_list_map]
        exact hypothesis
      obtain ⟨attributes, rfl⟩ := written
      exact ⟨.list attributes, by rw [toJson, toJsonItems_eq_map]⟩
  | map members _ hypothesis =>
      have written : members ∈ Set.range (List.map
          fun member : String × Attribute => (member.1, toJson member.2)) := by
        rw [Set.range_list_map]
        intro member present
        obtain ⟨content, same⟩ := hypothesis member present
        exact ⟨(member.1, content), Prod.ext rfl same⟩
      obtain ⟨attributes, rfl⟩ := written
      exact ⟨.map attributes, by rw [toJson, toJsonMembers_eq_map]⟩

/-- Tagged documents are read, and no others. -/
theorem exists_ofJson_iff_tagged (value : Json) :
    (∃ content, ofJson value = .ok content) ↔ Tagged value := by
  constructor
  · rintro ⟨content, read⟩
    exact toJson_of_ofJson value read ▸ tagged_toJson content
  · intro tagged
    obtain ⟨content, rfl⟩ := tagged.exists_toJson
    exact ⟨content, ofJson_toJson content⟩

/-! ## Members in any order -/

mutual

/-- Members may be ordered before or after an attribute value is written. -/
theorem toJson_sorted (content : Attribute) :
    content.sorted.toJson = content.toJson.sorted := by
  cases content with
  | string value => rfl
  | number text => rfl
  | bool value => rfl
  | null flag => rfl
  | list items =>
      change Json.object [("L", .array (toJsonItems (sortedItems items)))] =
        .object [("L", .array (Json.sortedItems (toJsonItems items)))]
      rw [toJsonItems_sortedItems items]
  | map members =>
      have sortedForm : toJsonMembers
          (SortedMap.ofList (sortedMembers members)).entries =
            (SortedMap.ofList
              (Json.sortedMembers (toJsonMembers members))).entries := by
        rw [← toJsonMembers_sortedMembers members, toJsonMembers_eq_map,
          toJsonMembers_eq_map, SortedMap.ofList_map]
        rfl
      change Json.object [("M", .object (toJsonMembers
          (SortedMap.ofList (sortedMembers members)).entries))] =
        .object [("M", .object (SortedMap.ofList
          (Json.sortedMembers (toJsonMembers members))).entries)]
      rw [sortedForm]

theorem toJsonItems_sortedItems (items : List Attribute) :
    toJsonItems (sortedItems items) = Json.sortedItems (toJsonItems items) := by
  match items with
  | [] => rfl
  | item :: rest =>
      rw [sortedItems, toJsonItems, toJsonItems, Json.sortedItems,
        toJson_sorted item, toJsonItems_sortedItems rest]

theorem toJsonMembers_sortedMembers (members : List (String × Attribute)) :
    toJsonMembers (sortedMembers members) =
      Json.sortedMembers (toJsonMembers members) := by
  match members with
  | [] => rfl
  | (name, value) :: rest =>
      rw [sortedMembers, toJsonMembers, toJsonMembers, Json.sortedMembers,
        toJson_sorted value, toJsonMembers_sortedMembers rest]

end

/-- A document whose sorted form has one member has one member. -/
theorem exists_payload_of_sorted
    {value payload : Json}
    {tag : String}
    (distinct : value.Distinct)
    (image : value.sorted = .object [(tag, payload)]) :
    ∃ part, value = .object [(tag, part)] ∧ part.Distinct ∧
      part.sorted = payload := by
  cases value with
  | object members =>
      obtain ⟨distinctNames, each⟩ := (distinct_object_iff members).1 distinct
      obtain ⟨part, rfl, same⟩ := (sorted_eq_singleton_iff distinctNames tag
        payload).1 (Json.object.inj image)
      exact ⟨part, rfl, each _ List.mem_cons_self, same⟩
  | _ => cases image

/-- A document is tagged if it is once its members are sorted. -/
theorem Tagged.of_sorted
    {value image : Json}
    (tagged : Tagged image)
    (distinct : value.Distinct)
    (isImage : value.sorted = image) : Tagged value := by
  induction tagged generalizing value with
  | string text =>
      obtain ⟨part, rfl, _, same⟩ := exists_payload_of_sorted distinct isImage
      cases part <;> cases same
      exact .string text
  | number text =>
      obtain ⟨part, rfl, _, same⟩ := exists_payload_of_sorted distinct isImage
      cases part <;> cases same
      exact .number text
  | bool content =>
      obtain ⟨part, rfl, _, same⟩ := exists_payload_of_sorted distinct isImage
      cases part <;> cases same
      exact .bool content
  | null flag =>
      obtain ⟨part, rfl, _, same⟩ := exists_payload_of_sorted distinct isImage
      cases part <;> cases same
      exact .null flag
  | list items _ hypothesis =>
      obtain ⟨part, rfl, distinctPart, same⟩ :=
        exists_payload_of_sorted distinct isImage
      cases part with
      | array parts =>
          rw [Json.sorted, sortedItems_eq_map, Json.array.injEq] at same
          rw [distinct_array_iff] at distinctPart
          refine .list parts fun item member => ?_
          exact hypothesis item.sorted (same ▸ List.mem_map_of_mem member)
            (distinctPart item member) rfl
      | _ => cases same
  | map members _ hypothesis =>
      obtain ⟨part, rfl, distinctPart, same⟩ :=
        exists_payload_of_sorted distinct isImage
      cases part with
      | object parts =>
          obtain ⟨distinctNames, each⟩ :=
            (distinct_object_iff parts).1 distinctPart
          have perm := perm_sorted distinctNames
          rw [Json.object.inj same, Json.sortedMembers_eq_map] at perm
          refine .map parts fun member present => ?_
          exact hypothesis (member.1, member.2.sorted)
            (perm.mem_iff.2 (List.mem_map_of_mem present))
            (each member present) rfl
      | _ => cases same

/-- Attribute values are read with the members of maps in any order. -/
theorem decoder_unordered : decoder.Unordered Attribute.sorted := by
  intro value distinct result
  change ofJson value.sorted = _ ↔ ∃ read, ofJson value = _ ∧ _
  simp only [ofJson_eq_ok_iff]
  constructor
  · intro image
    have tagged : Tagged value :=
      (image ▸ tagged_toJson result).of_sorted distinct rfl
    obtain ⟨content, rfl⟩ := tagged.exists_toJson
    rw [← toJson_sorted, toJson_inj] at image
    exact ⟨content, rfl, image⟩
  · rintro ⟨content, rfl, rfl⟩
    exact (toJson_sorted content).symm

/-- A document is read as an attribute value exactly if it is the tagged form of
that value. With the members of its maps in another order it is read as the same
attribute value in that order. The documents that are read are those with exactly
one tag at every depth. -/
theorem reads_exactly_tagged :
    (∀ (value : Json) (content : Attribute),
      decoder.ofJson value = .ok content ↔ value = content.toJson) ∧
    ∀ value : Json, value.Distinct →
      ((∃ read, decoder.ofJson value = .ok read) ↔ Tagged value) ∧
      ((∃ read, decoder.ofJson value = .ok read) ↔
        ∃ content : Attribute, value.Alike content.toJson) ∧
      ∀ content : Attribute,
        (∃ read, decoder.ofJson value = .ok read ∧ read.Alike content) ↔
          value.Alike content.toJson := by
  refine ⟨fun value content => ofJson_eq_ok_iff, ?_⟩
  intro value distinct
  have upToOrder (content : Attribute) :
      (∃ read, decoder.ofJson value = .ok read ∧ read.Alike content) ↔
        value.Alike content.toJson := by
    rw [Json.Alike, ← toJson_sorted, ← ofJson_eq_ok_iff]
    exact (decoder_unordered value distinct content.sorted).symm
  refine ⟨exists_ofJson_iff_tagged value, ?_, upToOrder⟩
  constructor
  · rintro ⟨read, isRead⟩
    exact ⟨read, (upToOrder read).1 ⟨read, isRead, rfl⟩⟩
  · rintro ⟨content, alike⟩
    obtain ⟨read, isRead, _⟩ := (upToOrder content).2 alike
    exact ⟨read, isRead⟩

/-- A map with a null whose flag is not set and a number that is none. -/
def nestedMap : Attribute :=
  .map [
    ("tags", .list [.number "many", .map [], .bool true]),
    ("void", .null false)]

/-- The tagged form of the same map with its members the other way round. -/
def nestedDocument : Json :=
  .object [("M", .object [
    ("void", .object [("NULL", .bool false)]),
    ("tags", .object [("L", .array [
      .object [("N", .string "many")],
      .object [("M", .object [])],
      .object [("BOOL", .bool true)]])])])]

theorem reads_exactly_tagged_nestedMap :
    decoder.ofJson nestedMap.toJson = .ok nestedMap ∧
      nestedDocument.Distinct ∧ nestedDocument ≠ nestedMap.toJson ∧
      Tagged nestedDocument ∧
      ∃ read, decoder.ofJson nestedDocument = .ok read ∧
        read.Alike nestedMap := by
  have distinct : nestedDocument.Distinct := by decide +kernel
  have alike : nestedDocument.Alike nestedMap.toJson := by
    unfold Json.Alike
    decide +kernel
  obtain ⟨tagged, _, upToOrder⟩ :=
    reads_exactly_tagged.2 nestedDocument distinct
  obtain ⟨read, isRead, isAlike⟩ := (upToOrder nestedMap).2 alike
  exact ⟨(reads_exactly_tagged.1 _ _).2 rfl, distinct, by decide +kernel,
    tagged.1 ⟨read, isRead⟩, read, isRead, isAlike⟩

end Attribute
end TableQuery
