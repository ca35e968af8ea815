import TableQuery.Proofs.WrittenForm

/-!
# Conditions that were read

What was read is settled: no value alone looks like a keyed criterion, no edit
holds null as its value, and no object stands for itself among the edits.
Settled conditions are read back from their written form as they are, so they
are a normal form of every document that they are read from.
-/

namespace TableQuery

open Json

/-- A map that may be absent and of which no value changes. -/
theorem FieldMap.option_mapValues_eq_self
    {α : Type}
    {change : α → α}
    {map : Option (FieldMap α)}
    (same : ∀ present, map = some present →
      ∀ entry ∈ present.entries, change entry.2 = entry.2) :
    (map.map fun present => present.mapValues change) = map := by
  cases map with
  | none => rfl
  | some present =>
      exact congrArg some (mapValues_eq_self (same present rfl))

/-! ## Edits -/

/-- What is there is found again. -/
theorem Json.present?_bind (value : Json) :
    value.present?.bind Json.present? = value.present? := by
  cases value <;> rfl

/-- An edit that was read holds no null. -/
theorem Edit.reread_of_ofJson
    {value : Json}
    {edit : Edit}
    (read : decoder.ofJson value = .ok edit) : edit.reread = edit := by
  have settled : edit.value.bind Json.present? = edit.value := by
    refine record.keeps_of_ofJson
      (fun edit => edit.value.bind Json.present? = edit.value) ?_ rfl read
    intro field declared value before after settled put
    simp only [record, List.mem_cons, List.not_mem_nil, or_false] at declared
    rcases declared with rfl | rfl | rfl
    · obtain ⟨content, found, rfl⟩ := Field.ofJson_of_eq_ok_iff.1 put
      rw [Json.option_ofJson, Except.ok.injEq] at found
      exact found ▸ value.present?_bind
    · obtain ⟨index, _, rfl⟩ := Field.ofJson_of_eq_ok_iff.1 put
      exact settled
    · obtain ⟨append, _, rfl⟩ := Field.ofJson_of_eq_ok_iff.1 put
      exact settled
  rw [reread, settled]

namespace EditEntry

/-- An entry that is read back as it is. -/
structure IsSettled (entry : Option EditEntry) : Prop where
  regular : IsRegular entry
  same : reread entry = entry

/-- Entries that were read are settled. -/
theorem isSettled_of_ofJson
    {value : Json}
    {entry : Option EditEntry}
    (read : decoder.option.ofJson value = .ok entry) : IsSettled entry := by
  cases value with
  | null => exact Except.ok.inj read ▸ ⟨trivial, rfl⟩
  | object members =>
      obtain ⟨content, found, rfl⟩ := map_eq_ok_iff.1 read
      obtain ⟨edit, described, same⟩ := bind_eq_ok_iff.1 found
      cases same
      exact ⟨trivial, by rw [reread, Edit.reread_of_ofJson described]⟩
  | _ =>
      cases read
      exact ⟨trivial, rfl⟩

end EditEntry

theorem EditMap.isSettled_of_ofJson
    {value : Json}
    {map : EditMap}
    (read : decoder.ofJson value = .ok map) :
    ∀ entry ∈ map.entries, EditEntry.IsSettled entry.2 := by
  intro entry member
  obtain ⟨part, found⟩ := Decoder.exists_ofJson_of_fieldMap read member
  exact EditEntry.isSettled_of_ofJson found

/-! ## Conditions -/

namespace Conditions

/-- Conditions of which every part is read back as it is. -/
structure IsSettled (conditions : Conditions) : Prop where
  criteria : ∀ criteria, conditions.criteria = some criteria →
    ∀ entry ∈ criteria.entries, entry.2.reread = entry.2
  update : ∀ update, conditions.update = some update →
    ∀ entry ∈ update.entries, EditEntry.IsSettled entry.2
  remove : ∀ remove, conditions.remove = some remove →
    ∀ entry ∈ remove.entries, EditEntry.IsSettled entry.2

namespace IsSettled

variable {conditions : Conditions}

theorem isRegular (settled : conditions.IsSettled) : conditions.IsRegular where
  update update written entry member :=
    (settled.update update written entry member).regular
  remove remove removed entry member :=
    (settled.remove remove removed entry member).regular

theorem reread (settled : conditions.IsSettled) :
    conditions.reread = conditions := by
  have criteria := FieldMap.option_mapValues_eq_self settled.criteria
  have update : conditions.update.map EditMap.reread = conditions.update :=
    FieldMap.option_mapValues_eq_self fun update written entry member =>
      (settled.update update written entry member).same
  have remove : conditions.remove.map EditMap.reread = conditions.remove :=
    FieldMap.option_mapValues_eq_self fun remove removed entry member =>
      (settled.remove remove removed entry member).same
  rw [Conditions.reread, criteria, update, remove]

end IsSettled

/-- Conditions that were read are settled. -/
theorem isSettled_of_ofJson
    {value : Json}
    {conditions : Conditions}
    (read : decoder.ofJson value = .ok conditions) : conditions.IsSettled := by
  have blank : empty.IsSettled :=
    ⟨nofun, nofun, nofun⟩
  refine record.keeps_of_ofJson IsSettled ?_ blank read
  intro field declared value before after settled put
  obtain ⟨criteria, update, remove⟩ := settled
  simp only [record, List.mem_cons, List.not_mem_nil, or_false] at declared
  rcases declared with rfl | rfl | rfl | rfl | rfl | rfl | rfl | rfl <;>
    obtain ⟨part, found, rfl⟩ := Field.ofJson_of_eq_ok_iff.1 put
  case inr.inl =>
    refine ⟨fun _ given entry member => ?_, update, remove⟩
    subst given
    obtain ⟨document, same⟩ := Decoder.exists_ofJson_of_fieldMap
      (Decoder.ofJson_of_option found) member
    rw [← Except.ok.inj same, Criterion.reread_ofDocument]
  case inr.inr.inl =>
    refine ⟨criteria, fun _ written => ?_, remove⟩
    subst written
    exact EditMap.isSettled_of_ofJson (Decoder.ofJson_of_option found)
  case inr.inr.inr.inl =>
    refine ⟨criteria, update, fun _ removed => ?_⟩
    subst removed
    exact EditMap.isSettled_of_ofJson (Decoder.ofJson_of_option found)
  all_goals exact ⟨criteria, update, remove⟩

end Conditions

/-! ## Compiling what was read -/

theorem Conditions.ofJson_eq_ok_iff
    {value : Json}
    {conditions : Conditions} :
    ofJson value = .ok conditions ↔ decoder.ofJson value = .ok conditions := by
  cases value with
  | null => exact iff_of_false nofun nofun
  | _ => simp only [ofJson, Json.isNull, Bool.false_eq_true, if_false,
      mapError_eq_ok_iff]

/-- Conditions that can be read from a value are compiled from it. -/
theorem compileJson_of_ofJson
    {value : Json}
    {conditions : Conditions}
    (read : Conditions.decoder.ofJson value = .ok conditions)
    (config : Config) :
    compileJson value config = compile conditions config := by
  rw [compileJson, Conditions.ofJson_eq_ok_iff.2 read, ok_bind]

/-- The written form of conditions that were read is a normal form of what they
were read from: it is read as the same conditions, entry by entry, and compiled
to the same outcome. -/
theorem normalForm_of_ofJson
    {value : Json}
    {conditions : Conditions}
    (read : Conditions.decoder.ofJson value = .ok conditions) :
    Conditions.decoder.ofJson conditions.toJson = .ok conditions ∧
      ∀ config, compileJson conditions.toJson config =
        compileJson value config := by
  have settled := Conditions.isSettled_of_ofJson read
  have again : Conditions.decoder.ofJson conditions.toJson =
      .ok conditions := by
    rw [Conditions.decoder_toJson settled.isRegular, settled.reread]
  refine ⟨again, fun config => ?_⟩
  rw [compileJson_of_ofJson again, compileJson_of_ofJson read]

/-- An object that looks like a keyed criterion but for its mark. -/
def lookalike : Json := .object [("value", .bool true), ("primary", .null)]

/-- Conditions in the form of an array of their fields. One value to write is
null, and one entry is no edit but a list. -/
def positionalDocument : Json :=
  let marked : Json := .object [("value", .string "a"), ("primary", .bool true)]
  let unset : Json := .object [("value", .null), ("append", .bool false)]
  .array [.string "Orders", .object [("id", marked), ("kind", lookalike)],
    .object [("state", unset), ("tags", .array [.null]), ("note", .null)],
    .null, .array [], .object [("update", .null)]]

/-- The conditions that these fields are read as. -/
def positionalConditions : Conditions :=
  { Conditions.start "Orders" .update with
    criteria := some (.ofList
      [("id", .ofPrimary (.string "a")), ("kind", .plain lookalike)])
    update := some (.ofList
      [("state", some (.described .empty)),
        ("tags", some (.raw (.array [.null]))), ("note", none)])
    fields := some [] }

theorem normalForm_of_ofJson_positionalDocument :
    Conditions.decoder.ofJson positionalDocument = .ok positionalConditions ∧
      Conditions.decoder.ofJson positionalConditions.toJson =
        .ok positionalConditions ∧
      ∀ config, compileJson positionalConditions.toJson config =
        compileJson positionalDocument config := by
  have read : Conditions.decoder.ofJson positionalDocument =
      .ok positionalConditions := by decide +kernel
  exact ⟨read, normalForm_of_ofJson read⟩

end TableQuery
