import TableQuery.Proofs.Pairing
import TableQuery.Remote.Value

/-!
# Remote values and attribute values

Attribute values come back unchanged from the remote values that they are sent
as. A remote value has an attribute value exactly if nothing binary and nothing
of an unknown kind occurs in it, at whatever depth; sent again, that attribute
value is the remote value with its sets as lists.
-/

namespace TableQuery

namespace RemoteValue

/-! ## Occurrences -/

/-- A value is another one or stands in it, at any depth. -/
inductive Occurs (part : RemoteValue) : RemoteValue → Prop
  | whole : Occurs part part
  | item {items : List RemoteValue} {item : RemoteValue}
      (member : item ∈ items)
      (inside : Occurs part item) : Occurs part (.list items)
  | named {members : List (String × RemoteValue)}
      {entry : String × RemoteValue}
      (member : entry ∈ members)
      (inside : Occurs part entry.2) : Occurs part (.map members)

/-- The kind of a value that has no document, whatever stands in it. -/
def foreignKind? : RemoteValue → Option String
  | .binary _ => some "B"
  | .binarySet _ => some "BS"
  | .unknown => some "Unknown"
  | _ => none

/-- Everything that occurs in a value is of a kind that documents have. -/
def Supported (value : RemoteValue) : Prop :=
  ∀ part, Occurs part value → part.foreignKind? = none

/-- A value is refused for the kind of something that occurs in it. -/
def Refuses (value : RemoteValue) (error : StoreError) : Prop :=
  ∃ part kind, Occurs part value ∧ part.foreignKind? = some kind ∧
    error = .unsupportedAttribute kind

theorem Refuses.not_supported
    {value : RemoteValue}
    {error : StoreError}
    (refuses : value.Refuses error) : ¬ value.Supported := by
  obtain ⟨part, kind, occurs, foreign, _⟩ := refuses
  intro supported
  rw [supported part occurs] at foreign
  cases foreign

/-- A list is refused for what occurs in one of its items. -/
theorem Refuses.list
    {items : List RemoteValue}
    {item : RemoteValue}
    {error : StoreError}
    (member : item ∈ items)
    (refuses : item.Refuses error) : (RemoteValue.list items).Refuses error := by
  obtain ⟨part, kind, occurs, foreign⟩ := refuses
  exact ⟨part, kind, .item member occurs, foreign⟩

/-- A map is refused for what occurs in one of its members. -/
theorem Refuses.map
    {members : List (String × RemoteValue)}
    {entry : String × RemoteValue}
    {error : StoreError}
    (member : entry ∈ members)
    (refuses : entry.2.Refuses error) :
    (RemoteValue.map members).Refuses error := by
  obtain ⟨part, kind, occurs, foreign⟩ := refuses
  exact ⟨part, kind, .named member occurs, foreign⟩

/-! ## Sets as lists -/

mutual

/-- A value in which every set is the list of its elements. -/
def listed : RemoteValue → RemoteValue
  | .list items => .list (listedItems items)
  | .map members => .map (listedMembers members)
  | .stringSet values => .list (values.map .string)
  | .numberSet texts => .list (texts.map .number)
  | value => value

/-- Values in which every set is the list of its elements. -/
def listedItems : List RemoteValue → List RemoteValue
  | [] => []
  | item :: rest => listed item :: listedItems rest

/-- Named values in which every set is the list of its elements. -/
def listedMembers :
    List (String × RemoteValue) → List (String × RemoteValue)
  | [] => []
  | (name, value) :: rest => (name, listed value) :: listedMembers rest

end

/-! ## There and back -/

theorem ofAttributes_eq_map (items : List Attribute) :
    ofAttributes items = items.map ofAttribute := by
  induction items with
  | nil => rfl
  | cons item rest hypothesis => rw [ofAttributes, hypothesis, List.map_cons]

theorem ofNamedAttributes_eq_map (members : List (String × Attribute)) :
    ofNamedAttributes members =
      members.map fun member => (member.1, ofAttribute member.2) := by
  induction members with
  | nil => rfl
  | cons member rest hypothesis =>
      rw [ofNamedAttributes, hypothesis, List.map_cons]

mutual

/-- What is sent comes back. -/
theorem toAttribute_ofAttribute (value : Attribute) :
    toAttribute (ofAttribute value) = .ok value := by
  cases value with
  | string value => rfl
  | number text => rfl
  | bool value => rfl
  | null flag => rfl
  | list items =>
      rw [ofAttribute, toAttribute, toAttributes_ofAttributes items, ok_bind]
  | map members =>
      rw [ofAttribute, toAttribute,
        toNamedAttributes_ofNamedAttributes members, ok_bind]

theorem toAttributes_ofAttributes (items : List Attribute) :
    toAttributes (ofAttributes items) = .ok items := by
  match items with
  | [] => rfl
  | item :: rest =>
      rw [ofAttributes, toAttributes, toAttribute_ofAttribute item,
        toAttributes_ofAttributes rest, ok_bind, ok_bind]

theorem toNamedAttributes_ofNamedAttributes
    (members : List (String × Attribute)) :
    toNamedAttributes (ofNamedAttributes members) = .ok members := by
  match members with
  | [] => rfl
  | (name, value) :: rest =>
      rw [ofNamedAttributes, toNamedAttributes, toAttribute_ofAttribute value,
        toNamedAttributes_ofNamedAttributes rest, ok_bind, ok_bind]

end

mutual

/-- Sent again, what came back is what was received, with sets as lists. -/
theorem ofAttribute_of_toAttribute
    {value : RemoteValue}
    {result : Attribute}
    (converted : toAttribute value = .ok result) :
    ofAttribute result = value.listed := by
  cases value with
  | string value | number value | bool value | null value =>
      cases converted
      rfl
  | list items =>
      obtain ⟨values, inner, same⟩ := bind_eq_ok_iff.1 converted
      cases same
      rw [ofAttribute, listed, ofAttributes_of_toAttributes inner]
  | map members =>
      obtain ⟨values, inner, same⟩ := bind_eq_ok_iff.1 converted
      cases same
      rw [ofAttribute, listed, ofNamedAttributes_of_toNamedAttributes inner]
  | stringSet values | numberSet values =>
      cases converted
      rw [ofAttribute, listed, ofAttributes_eq_map, List.map_map]
      rfl
  | binary value | binarySet values | unknown => cases converted

theorem ofAttributes_of_toAttributes
    {items : List RemoteValue}
    {values : List Attribute}
    (converted : toAttributes items = .ok values) :
    ofAttributes values = listedItems items := by
  match items with
  | [] =>
      cases converted
      rfl
  | item :: rest =>
      obtain ⟨value, first, next⟩ := bind_eq_ok_iff.1 converted
      obtain ⟨others, later, same⟩ := bind_eq_ok_iff.1 next
      cases same
      rw [ofAttributes, listedItems, ofAttribute_of_toAttribute first,
        ofAttributes_of_toAttributes later]

theorem ofNamedAttributes_of_toNamedAttributes
    {members : List (String × RemoteValue)}
    {values : List (String × Attribute)}
    (converted : toNamedAttributes members = .ok values) :
    ofNamedAttributes values = listedMembers members := by
  match members with
  | [] =>
      cases converted
      rfl
  | (name, item) :: rest =>
      obtain ⟨value, first, next⟩ := bind_eq_ok_iff.1 converted
      obtain ⟨others, later, same⟩ := bind_eq_ok_iff.1 next
      cases same
      rw [ofNamedAttributes, listedMembers, ofAttribute_of_toAttribute first,
        ofNamedAttributes_of_toNamedAttributes later]

end

/-! ## Refusals -/

mutual

/-- A value fails only for something that occurs in it. -/
theorem refuses_of_toAttribute
    {value : RemoteValue}
    {error : StoreError}
    (failed : toAttribute value = .error error) : value.Refuses error := by
  cases value with
  | string value | number value | bool value | null value =>
      cases failed
  | stringSet values | numberSet values => cases failed
  | list items =>
      rcases bind_eq_error_iff.1 failed with inner | ⟨_, _, impossible⟩
      · obtain ⟨item, member, refuses⟩ := refuses_of_toAttributes inner
        exact refuses.list member
      · cases impossible
  | map members =>
      rcases bind_eq_error_iff.1 failed with inner | ⟨_, _, impossible⟩
      · obtain ⟨entry, member, refuses⟩ := refuses_of_toNamedAttributes inner
        exact refuses.map member
      · cases impossible
  | binary value | binarySet values | unknown =>
      cases failed
      exact ⟨_, _, .whole, rfl, rfl⟩

theorem refuses_of_toAttributes
    {items : List RemoteValue}
    {error : StoreError}
    (failed : toAttributes items = .error error) :
    ∃ item ∈ items, item.Refuses error := by
  match items with
  | [] => cases failed
  | item :: rest =>
      rcases bind_eq_error_iff.1 failed with first | ⟨value, _, next⟩
      · exact ⟨item, List.mem_cons_self, refuses_of_toAttribute first⟩
      · rcases bind_eq_error_iff.1 next with later | ⟨_, _, impossible⟩
        · obtain ⟨other, member, refuses⟩ := refuses_of_toAttributes later
          exact ⟨other, List.mem_cons_of_mem _ member, refuses⟩
        · cases impossible

theorem refuses_of_toNamedAttributes
    {members : List (String × RemoteValue)}
    {error : StoreError}
    (failed : toNamedAttributes members = .error error) :
    ∃ entry ∈ members, entry.2.Refuses error := by
  match members with
  | [] => cases failed
  | (name, item) :: rest =>
      rcases bind_eq_error_iff.1 failed with first | ⟨value, _, next⟩
      · exact ⟨(name, item), List.mem_cons_self, refuses_of_toAttribute first⟩
      · rcases bind_eq_error_iff.1 next with later | ⟨_, _, impossible⟩
        · obtain ⟨other, member, refuses⟩ := refuses_of_toNamedAttributes later
          exact ⟨other, List.mem_cons_of_mem _ member, refuses⟩
        · cases impossible

end

theorem toAttributes_eq_mapM (items : List RemoteValue) :
    toAttributes items = items.mapM toAttribute := by
  induction items with
  | nil => rfl
  | cons item rest hypothesis =>
      rw [toAttributes, List.mapM_cons, hypothesis]
      rfl

theorem toNamedAttributes_eq_ok_iff
    {members : List (String × RemoteValue)}
    {values : List (String × Attribute)} :
    toNamedAttributes members = .ok values ↔
      List.Forall₂ (SameName fun item value => toAttribute item = .ok value)
        members values := by
  induction members generalizing values with
  | nil =>
      rw [toNamedAttributes, List.forall₂_nil_left_iff, Except.ok.injEq,
        eq_comm]
  | cons member rest hypothesis =>
      obtain ⟨name, item⟩ := member
      rw [toNamedAttributes, List.forall₂_cons_left_iff]
      simp only [bind_eq_ok_iff, hypothesis, Except.ok.injEq]
      constructor
      · rintro ⟨value, first, others, later, rfl⟩
        exact ⟨(name, value), others, ⟨rfl, first⟩, later, rfl⟩
      · rintro ⟨⟨_, value⟩, others, ⟨rfl, first⟩, later, rfl⟩
        exact ⟨value, first, others, later, rfl⟩

/-- With a value, everything that occurs in it is converted. -/
theorem Occurs.exists_toAttribute
    {part value : RemoteValue}
    (occurs : Occurs part value)
    {result : Attribute}
    (converted : toAttribute value = .ok result) :
    ∃ inner, toAttribute part = .ok inner := by
  induction occurs generalizing result with
  | whole => exact ⟨result, converted⟩
  | item member _ hypothesis =>
      obtain ⟨values, inner, _⟩ := bind_eq_ok_iff.1 converted
      rw [toAttributes_eq_mapM, mapM_eq_ok_iff] at inner
      obtain ⟨value, _, found⟩ := exists_mem_right_of_forall₂ inner member
      exact hypothesis found
  | named member _ hypothesis =>
      obtain ⟨values, inner, _⟩ := bind_eq_ok_iff.1 converted
      rw [toNamedAttributes_eq_ok_iff] at inner
      obtain ⟨entry, _, _, found⟩ := exists_mem_right_of_forall₂ inner member
      exact hypothesis found

theorem foreignKind?_of_toAttribute
    {value : RemoteValue}
    {result : Attribute}
    (converted : toAttribute value = .ok result) :
    value.foreignKind? = none := by
  cases value with
  | binary value | binarySet values | unknown => cases converted
  | _ => rfl

/-- Exactly the supported values are converted. -/
theorem exists_toAttribute_iff (value : RemoteValue) :
    (∃ result, toAttribute value = .ok result) ↔ value.Supported := by
  constructor
  · rintro ⟨result, converted⟩ part occurs
    obtain ⟨inner, found⟩ := occurs.exists_toAttribute converted
    exact foreignKind?_of_toAttribute found
  · intro supported
    cases converted : toAttribute value with
    | ok result => exact ⟨result, rfl⟩
    | error error =>
        exact absurd supported (refuses_of_toAttribute converted).not_supported

end RemoteValue

end TableQuery
