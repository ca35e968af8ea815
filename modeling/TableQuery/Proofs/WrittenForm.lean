import TableQuery.Proofs.Bindings
import TableQuery.Proofs.Decoding

/-!
# Conditions and their written form

The written form of conditions says a little less than the conditions
themselves: an object that looks like a keyed criterion is read as one, and a
null that is to be written is read as no value. Everything else is read back as
it was. Conditions that were read hold neither, so reading their written form
gives them back.
-/

namespace TableQuery

open Json

/-! ## Criteria -/

namespace Criterion

/-- A criterion as it is read back. -/
def reread : Criterion → Criterion
  | .plain value => ofDocument value
  | .keyed primary value => .keyed primary value

theorem ofDocument_toJson (criterion : Criterion) :
    ofDocument criterion.toJson = criterion.reread := by
  cases criterion with
  | plain value => rfl
  | keyed primary value => cases primary <;> rfl

/-- A value that is read as a criterion alone is that criterion. -/
theorem eq_of_ofDocument_eq_plain
    {value other : Json}
    (read : ofDocument value = .plain other) : value = other := by
  unfold ofDocument at read
  split at read
  · split at read
    · split at read <;> cases read
      rfl
    · cases read
      rfl
  · cases read
    rfl

theorem reread_ofDocument (value : Json) :
    (ofDocument value).reread = ofDocument value := by
  cases read : ofDocument value with
  | plain other =>
      rw [reread, ← eq_of_ofDocument_eq_plain read, read,
        eq_of_ofDocument_eq_plain read]
  | keyed primary other => rfl

/-- An object that is read as a keyed criterion: it has a value, possibly a
boolean mark, and no other member. -/
def IsKeyedRecord (value : Json) : Prop :=
  ∃ members content, value = .object members ∧
    (∀ member ∈ members, member.1 = "value" ∨ member.1 = "primary") ∧
    members.lookup "value" = some content ∧
    ∀ mark, members.lookup "primary" = some mark →
      ∃ primary, mark = .bool primary

theorem ofDocument_eq_plain_iff (value : Json) :
    ofDocument value = .plain value ↔ ¬ IsKeyedRecord value := by
  constructor
  · rintro read ⟨members, content, rfl, named, found, marked⟩
    have all : (members.all fun member => isKeyedName member.1) = true := by
      simpa [isKeyedName] using named
    rw [ofDocument, if_pos all, found] at read
    cases mark : members.lookup "primary" with
    | none =>
        rw [mark] at read
        cases read
    | some mark' =>
        obtain ⟨primary, rfl⟩ := marked mark' mark
        rw [mark] at read
        cases read
  · intro notKeyed
    unfold ofDocument
    split
    · next members =>
        split
        · next all =>
            have named : ∀ member ∈ members,
                member.1 = "value" ∨ member.1 = "primary" := by
              simpa [isKeyedName] using all
            split
            · next content found absent =>
                refine absurd ⟨members, content, rfl, named, found, ?_⟩ notKeyed
                intro mark present
                rw [absent] at present
                cases present
            · next content primary found marked =>
                refine absurd ⟨members, content, rfl, named, found, ?_⟩ notKeyed
                intro mark present
                rw [marked] at present
                exact ⟨primary, (Option.some.inj present).symm⟩
            · rfl
        · rfl
    · rfl

/-- A value alone that is read as a keyed criterion. -/
def LooksKeyed : Criterion → Prop
  | .plain value => IsKeyedRecord value
  | .keyed _ _ => False

theorem reread_eq_self_iff (criterion : Criterion) :
    criterion.reread = criterion ↔ ¬ criterion.LooksKeyed := by
  cases criterion with
  | plain value => exact ofDocument_eq_plain_iff value
  | keyed primary value => exact ⟨fun _ keyed => keyed, fun _ => rfl⟩

end Criterion

/-! ## Edits -/

/-- A value as it is read where null means that there is none. -/
def Json.present? : Json → Option Json
  | .null => none
  | value => some value

theorem Json.option_ofJson (value : Json) :
    Decoder.json.option.ofJson value = .ok value.present? := by
  cases value <;> rfl

namespace Edit

/-- An edit as it is read back. -/
def reread (edit : Edit) : Edit :=
  { edit with value := edit.value.bind Json.present? }

theorem int64_ofJson (index : Int64) :
    Decoder.int64.option.ofJson (.number (.ofInt64 index)) =
      .ok (some index) := by
  have least : Int64.minValue.toInt = -0x8000000000000000 := by decide
  have largest : Int64.maxValue.toInt = 0x7fffffffffffffff := by decide
  have below := index.toInt_lt
  have above := index.le_toInt
  refine Decoder.option_ofJson Json.noConfusion (map_eq_ok_iff.2
    ⟨index.toInt, ?_, Int64.ofInt_toInt index⟩)
  exact Decoder.intBetween_ofJson _ (by omega) (by omega)

theorem defaulted :
    ∀ field ∈ record.fields, field.presence = .defaulted := by
  simp [record, Field.of]

/-- An edit is read back from its written form. -/
theorem decoder_toJson (edit : Edit) :
    decoder.ofJson edit.toJson = .ok edit.reread := by
  obtain ⟨value, index, append⟩ := edit
  have valueRead : record.putMembers (optionalMember "value" value) empty =
      .ok { empty with value := value.bind Json.present? } := by
    cases value with
    | none => rfl
    | some content => cases content <;> rfl
  have indexRead := record.putMembers_optionalMember "index" .int64
    (fun index edit => { edit with index := index }) rfl
    (fun position (_ : index = some position) => int64_ofJson position)
    { empty with value := value.bind Json.present? } rfl
  have appendRead : record.putMembers
      (if append then [("append", .bool true)] else [])
      ⟨value.bind Json.present?, index, false⟩ =
        .ok ⟨value.bind Json.present?, index, append⟩ := by
    cases append <;> rfl
  rw [Option.map_id'] at indexRead
  refine (record.ofJson_object defaulted _).trans ?_
  exact Record.putMembers_append_eq_ok
    (Record.putMembers_append_eq_ok valueRead indexRead) appendRead

end Edit

/-! ## Entries of edit maps -/

namespace EditEntry

/-- An entry as it is read back: null alone is no entry. -/
def reread : Option EditEntry → Option EditEntry
  | none => none
  | some (.described edit) => some (.described edit.reread)
  | some (.raw value) => value.present?.map .raw

/-- Objects do not stand for themselves. -/
def IsRegular : Option EditEntry → Prop
  | some (.raw (.object _)) => False
  | _ => True

/-- An entry is read back from its written form. -/
theorem decoder_toJson
    {entry : Option EditEntry}
    (regular : IsRegular entry) :
    decoder.option.ofJson ((entry.map toJson).getD .null) =
      .ok (reread entry) := by
  match entry, regular with
  | none, _ => rfl
  | some (.described edit), _ =>
      have read : decoder.ofJson edit.toJson = .ok (.described edit.reread) := by
        change (Edit.decoder.ofJson edit.toJson >>= fun edit =>
          .ok (described edit)) = _
        rw [Edit.decoder_toJson, ok_bind]
      exact Decoder.option_ofJson Json.noConfusion read
  | some (.raw value), regular =>
      cases value with
      | object members => exact regular.elim
      | _ => rfl

end EditEntry

namespace EditMap

/-- Edits as they are read back. -/
def reread (map : EditMap) : EditMap := map.mapValues EditEntry.reread

/-- Every entry is regular. -/
def IsRegular (map : EditMap) : Prop :=
  ∀ entry ∈ map.entries, EditEntry.IsRegular entry.2

theorem decoder_toJson
    {map : EditMap}
    (regular : map.IsRegular) :
    decoder.ofJson map.toJson = .ok map.reread := by
  rw [decoder, toJson, reread]
  exact Decoder.fieldMap_ofJson
    (fun entry => (entry.map EditEntry.toJson).getD .null) EditEntry.reread map
    fun entry member => EditEntry.decoder_toJson (regular entry member)

end EditMap

/-! ## Conditions -/

namespace Conditions

/-- Conditions as they are read back. -/
def reread (conditions : Conditions) : Conditions :=
  { conditions with
    criteria := conditions.criteria.map fun criteria =>
      criteria.mapValues Criterion.reread
    update := conditions.update.map EditMap.reread
    remove := conditions.remove.map EditMap.reread }

/-- All edits are regular. -/
structure IsRegular (conditions : Conditions) : Prop where
  update : ∀ update, conditions.update = some update → update.IsRegular
  remove : ∀ remove, conditions.remove = some remove → remove.IsRegular

theorem defaulted :
    ∀ field ∈ record.fields, field.presence = .defaulted := by
  simp [record, Field.of]

theorem string_ofJson (text : String) :
    Decoder.string.option.ofJson (.string text) = .ok (some text) := rfl

theorem criteria_ofJson (criteria : FieldMap Criterion) :
    (Decoder.fieldMap fieldMapExpectation Criterion.decoder).option.ofJson
        (criteriaJson criteria) =
      .ok (some (criteria.mapValues Criterion.reread)) := by
  refine Decoder.option_ofJson Json.noConfusion ?_
  exact Decoder.fieldMap_ofJson Criterion.toJson Criterion.reread criteria
    fun entry _ => congrArg Except.ok (Criterion.ofDocument_toJson entry.2)

theorem fields_ofJson (fields : List String) :
    Decoder.string.list.option.ofJson (.array (fields.map .string)) =
      .ok (some fields) := by
  have read := mapM_map_eq_ok (fun field (_ : field ∈ fields) =>
    (rfl : Decoder.string.ofJson (.string field) = .ok field))
  rw [List.map_id'] at read
  exact Decoder.option_ofJson Json.noConfusion read

theorem key_ofJson (key : FieldMap Json) :
    (Decoder.fieldMap "a map" Decoder.json).option.ofJson (.ofMap key) =
      .ok (some key) := by
  have read : (Decoder.fieldMap "a map" Decoder.json).ofJson
      (.object (key.entries.map fun entry => (entry.1, id entry.2))) =
        .ok (key.mapValues id) :=
    Decoder.fieldMap_ofJson id id key fun _ _ => rfl
  simp only [id_eq, List.map_id'] at read
  rw [FieldMap.mapValues_eq_self fun _ _ => rfl] at read
  exact Decoder.option_ofJson Json.noConfusion read

/-- Conditions are read back from their written form. -/
theorem decoder_toJson
    {conditions : Conditions}
    (regular : conditions.IsRegular) :
    decoder.ofJson conditions.toJson = .ok conditions.reread := by
  have tableName := record.putMembers_optionalMember "tableName" .string
    (fun value conditions => { conditions with tableName := value }) rfl
    (fun name (_ : conditions.tableName = some name) =>
      string_ofJson name) empty rfl
  have criteria := Record.putMembers_append_eq_ok tableName
    (record.putMembers_optionalMember "where" _
      (fun value conditions => { conditions with criteria := value }) rfl
      (fun criteria (_ : conditions.criteria = some criteria) =>
        criteria_ofJson criteria) _ rfl)
  have update := Record.putMembers_append_eq_ok criteria
    (record.putMembers_optionalMember "update" _
      (fun value conditions => { conditions with update := value }) rfl
      (fun update written => Decoder.option_ofJson Json.noConfusion
        (EditMap.decoder_toJson (regular.update update written))) _ rfl)
  have remove := Record.putMembers_append_eq_ok update
    (record.putMembers_optionalMember "remove" _
      (fun value conditions => { conditions with remove := value }) rfl
      (fun remove removed => Decoder.option_ofJson Json.noConfusion
        (EditMap.decoder_toJson (regular.remove remove removed))) _ rfl)
  have fields := Record.putMembers_append_eq_ok remove
    (record.putMembers_optionalMember "fields" _
      (fun value conditions => { conditions with fields := value }) rfl
      (fun fields (_ : conditions.fields = some fields) =>
        fields_ofJson fields) _ rfl)
  have operation := Record.putMembers_append_eq_ok fields
    (record.putMembers_optionalMember "operation" _
      (fun value conditions => { conditions with operation := value }) rfl
      (fun operation (_ : conditions.operation = some operation) =>
        Decoder.option_ofJson Json.noConfusion operation.decoder_toJson) _ rfl)
  have returnValues := Record.putMembers_append_eq_ok operation
    (record.putMembers_optionalMember "returnValues" _
      (fun value conditions => { conditions with returnValues := value }) rfl
      (fun option (_ : conditions.returnValues = some option) =>
        Decoder.option_ofJson Json.noConfusion option.decoder_toJson) _ rfl)
  have lastKey := Record.putMembers_append_eq_ok returnValues
    (record.putMembers_optionalMember "lastEvaluatedKey" _
      (fun value conditions => { conditions with lastEvaluatedKey := value })
      rfl
      (fun key (_ : conditions.lastEvaluatedKey = some key) =>
        key_ofJson key) _ rfl)
  simp only [Option.map_id'] at lastKey
  exact (record.ofJson_object defaulted _).trans lastKey

end Conditions

end TableQuery
