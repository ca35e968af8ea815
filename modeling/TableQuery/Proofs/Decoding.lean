import TableQuery.Json.Record
import TableQuery.Proofs.Bindings
import TableQuery.Proofs.Pairing

/-!
# Reading what was written

Decoders read the parts of a container one by one, so a container is read
exactly if all of its parts are. A record that was written member by member is
read back member by member: a member that was written puts back what it holds,
and one that was left out leaves the blank in its place. What reading every
field keeps, reading a record keeps.
-/

namespace TableQuery

variable {α β ε ρ : Type}

namespace Json

namespace Decoder

/-- What is there is read the same where it may be absent. -/
theorem option_ofJson
    {decoder : Decoder α}
    {value : Json}
    {result : α}
    (present : value ≠ .null)
    (read : decoder.ofJson value = .ok result) :
    decoder.option.ofJson value = .ok (some result) := by
  cases value with
  | null => exact absurd rfl present
  | _ => exact congrArg (Except.map some) read

theorem ofJson_of_option
    {decoder : Decoder α}
    {value : Json}
    {result : α}
    (read : decoder.option.ofJson value = .ok (some result)) :
    decoder.ofJson value = .ok result := by
  cases value with
  | null => cases read
  | _ =>
      obtain ⟨content, found, same⟩ := map_eq_ok_iff.1 read
      exact Option.some.inj same ▸ found

/-- An integer between the bounds is read. -/
theorem intBetween_ofJson
    {lowest highest value : Int}
    {expected : String}
    (held : Number.Held value)
    (lower : lowest ≤ value)
    (upper : value ≤ highest) :
    (Decoder.intBetween lowest highest expected).ofJson
        (.number (.int value held)) = .ok value := by
  simp only [Decoder.intBetween, Decoder.scalar, Found.ofJson,
    if_pos (And.intro lower upper)]

/-! ## Decoders of maps -/

/-- Members are read one by one and keep their names. -/
theorem members_ofJson_eq_ok_iff
    {expected : String}
    {decoder : Decoder α}
    {members : List (String × Json)}
    {named : List (String × α)} :
    (Decoder.members expected decoder).ofJson (.object members) = .ok named ↔
      List.Forall₂ (SameName fun part content =>
        decoder.ofJson part = .ok content) members named := by
  have step (member : String × Json) (entry : String × α) :
      (do .ok (member.1, ← decoder.ofJson member.2)) =
          (.ok entry : Except Mismatch (String × α)) ↔
        SameName (fun part content => decoder.ofJson part = .ok content) member
          entry := by
    rw [bind_eq_ok_iff]
    constructor
    · rintro ⟨value, read, same⟩
      cases same
      exact ⟨rfl, read⟩
    · rintro ⟨same, read⟩
      exact ⟨entry.2, read, by rw [same]⟩
  exact mapM_eq_ok_iff.trans
    ⟨.imp fun member entry => (step member entry).1,
      .imp fun member entry => (step member entry).2⟩

/-- What is collected is collected from the members of an object. -/
theorem collected_ofJson_eq_ok_iff
    {expected : String}
    {decoder : Decoder α}
    {collect : List (String × α) → β}
    {value : Json}
    {result : β} :
    ((Decoder.members expected decoder).map collect).ofJson value =
        .ok result ↔
      ∃ members named, value = .object members ∧
        List.Forall₂ (SameName fun part content =>
          decoder.ofJson part = .ok content) members named ∧
        collect named = result := by
  constructor
  · intro read
    obtain ⟨named, parts, same⟩ := map_eq_ok_iff.1 read
    cases value with
    | object members =>
        exact ⟨members, named, rfl, members_ofJson_eq_ok_iff.1 parts, same⟩
    | _ => cases parts
  · rintro ⟨members, named, rfl, each, same⟩
    exact map_eq_ok_iff.2 ⟨named, members_ofJson_eq_ok_iff.2 each, same⟩

/-- A map is collected from the members of an object. -/
theorem fieldMap_ofJson_eq_ok_iff
    {expected : String}
    {decoder : Decoder α}
    {value : Json}
    {map : FieldMap α} :
    (Decoder.fieldMap expected decoder).ofJson value = .ok map ↔
      ∃ members named, value = .object members ∧
        List.Forall₂ (SameName fun part content =>
          decoder.ofJson part = .ok content) members named ∧
        FieldMap.ofList named = map :=
  collected_ofJson_eq_ok_iff

/-- A map in code point order is collected from the members of an object. -/
theorem sortedMap_ofJson_eq_ok_iff
    {decoder : Decoder α}
    {value : Json}
    {map : SortedMap α} :
    decoder.sortedMap.ofJson value = .ok map ↔
      ∃ members named, value = .object members ∧
        List.Forall₂ (SameName fun part content =>
          decoder.ofJson part = .ok content) members named ∧
        SortedMap.ofList named = map :=
  collected_ofJson_eq_ok_iff

/-- A map is read from its written form if its values are. -/
theorem fieldMap_ofJson
    {expected : String}
    {decoder : Decoder β}
    (write : α → Json)
    (reread : α → β)
    (map : FieldMap α)
    (each : ∀ entry ∈ map.entries,
      decoder.ofJson (write entry.2) = .ok (reread entry.2)) :
    (Decoder.fieldMap expected decoder).ofJson
        (.object (map.entries.map fun entry => (entry.1, write entry.2))) =
      .ok (map.mapValues reread) := by
  rw [fieldMap_ofJson_eq_ok_iff]
  refine ⟨_, (map.mapValues reread).entries, rfl, ?_, FieldMap.ofList_entries _⟩
  rw [FieldMap.entries_mapValues, List.forall₂_map_left_iff,
    List.forall₂_map_right_iff, List.forall₂_same]
  exact fun entry member => ⟨rfl, each entry member⟩

/-- A map in code point order is read from its written form if its values
are. -/
theorem sortedMap_ofJson
    {decoder : Decoder α}
    (write : α → Json)
    (map : SortedMap α)
    (each : ∀ value, decoder.ofJson (write value) = .ok value) :
    decoder.sortedMap.ofJson (.object (map.mapValues write).entries) =
      .ok map := by
  refine sortedMap_ofJson_eq_ok_iff.2
    ⟨_, map.entries, rfl, ?_, SortedMap.ofList_entries map⟩
  rw [SortedMap.entries_mapValues, List.forall₂_map_left_iff,
    List.forall₂_same]
  exact fun entry _ => ⟨rfl, each entry.2⟩

/-- The values of a map that was read were read. -/
theorem exists_ofJson_of_fieldMap
    {expected : String}
    {decoder : Decoder α}
    {value : Json}
    {map : FieldMap α}
    (read : (Decoder.fieldMap expected decoder).ofJson value = .ok map)
    {entry : String × α}
    (member : entry ∈ map.entries) :
    ∃ part, decoder.ofJson part = .ok entry.2 := by
  obtain ⟨members, named, _, each, rfl⟩ := fieldMap_ofJson_eq_ok_iff.1 read
  obtain ⟨part, _, _, found⟩ :=
    exists_mem_left_of_forall₂ each (Members.mem_merge member)
  exact ⟨part.2, found⟩

/-! ## Decoders of choices -/

theorem expectUnit_eq_ok_iff {found : Found} :
    expectUnit found = .ok () ↔ found = .null := by
  cases found <;> simp [expectUnit, Found.refuse]

theorem choice_ofJson_object_iff
    {choices : List (String × α)}
    {members : List (String × Json)}
    {result : α} :
    (Decoder.choice choices).ofJson (.object members) = .ok result ↔
      ∃ name, members = [(name, .null)] ∧ pick choices name = .ok result := by
  match members with
  | [] => simp [Decoder.choice]
  | [(name, value)] =>
      constructor
      · intro read
        obtain ⟨choice, picked, rest⟩ := bind_eq_ok_iff.1 read
        obtain ⟨isUnit, same⟩ := check_bind_eq_ok_iff.1 rest
        rw [expectUnit_eq_ok_iff] at isUnit
        cases value <;> cases isUnit
        exact ⟨name, rfl, same ▸ picked⟩
      · rintro ⟨_, same, picked⟩
        cases same
        exact bind_eq_ok_iff.2 ⟨result, picked, rfl⟩
  | _ :: _ :: _ => simp [Decoder.choice]

end Decoder

/-! ## Records -/

/-- What a field reads is put into the record. -/
theorem Field.ofJson_of_eq_ok_iff
    {name : String}
    {presence : Presence}
    {decoder : Decoder α}
    {put : α → ρ → ρ}
    {value : Json}
    {read result : ρ} :
    (Field.of name presence decoder put).ofJson value read = .ok result ↔
      ∃ part, decoder.ofJson value = .ok part ∧ put part read = result := by
  rw [Field.of, bind_eq_ok_iff]
  simp only [Except.ok.injEq]

namespace Record

variable {record : Record ρ}

theorem field?_eq_some
    {name : String}
    {field : Field ρ}
    (found : record.field? name = some field) :
    field ∈ record.fields ∧ field.name = name :=
  ⟨List.mem_of_find?_eq_some found, by simpa using List.find?_some found⟩

theorem putMembers_append
    (left right : List (String × Json))
    (read : ρ) :
    record.putMembers (left ++ right) read =
      record.putMembers left read >>= record.putMembers right := by
  induction left generalizing read with
  | nil => rfl
  | cons member left hypothesis =>
      obtain ⟨name, value⟩ := member
      rw [List.cons_append, putMembers, putMembers]
      cases record.field? name with
      | none =>
          cases record.sealed
          · exact hypothesis read
          · rfl
      | some field =>
          cases put : field.ofJson value read with
          | error mismatch => simp only [put, error_bind]
          | ok next => simp only [put, ok_bind, hypothesis]

theorem putMembers_append_eq_ok
    {left right : List (String × Json)}
    {read next result : ρ}
    (first : record.putMembers left read = .ok next)
    (second : record.putMembers right next = .ok result) :
    record.putMembers (left ++ right) read = .ok result := by
  rw [putMembers_append, first, ok_bind, second]

/-- A member of a field is put in if its value is read. -/
theorem putMembers_member
    (record : Record ρ)
    (name : String)
    (decoder : Decoder α)
    (put : α → ρ → ρ)
    {presence : Presence}
    (isField : record.field? name = some (.of name presence decoder put))
    {value : Json}
    {part : α}
    (isPart : decoder.ofJson value = .ok part)
    (read : ρ) :
    record.putMembers [(name, value)] read = .ok (put part read) := by
  simp only [putMembers, isField, Field.of, isPart, ok_bind]

/-- No field is missing if every required one is given. -/
theorem checkPresence_eq_ok_iff {given : List String} :
    record.checkPresence given = .ok () ↔
      ∀ field ∈ record.fields, field.presence = .required →
        field.name ∈ given := by
  rw [checkPresence]
  split
  · next field found =>
      have missing : field.presence = .required ∧ field.name ∉ given := by
        simpa using List.find?_some found
      refine iff_of_false nofun fun complete => missing.2 ?_
      exact complete field (List.mem_of_find?_eq_some found) missing.1
  · next absent =>
      refine iff_of_true rfl fun field declared isRequired => ?_
      by_contra missing
      exact List.find?_eq_none.1 absent field declared
        (decide_eq_true ⟨isRequired, missing⟩)

theorem checkPresence_of_defaulted
    (defaulted : ∀ field ∈ record.fields, field.presence = .defaulted)
    (given : List String) : record.checkPresence given = .ok () := by
  refine checkPresence_eq_ok_iff.2 fun field declared isRequired => ?_
  rw [defaulted field declared] at isRequired
  cases isRequired

/-- An object is read if its members are put in and no required one is
missing. -/
theorem ofJson_object_eq_ok_iff
    {members : List (String × Json)}
    {result : ρ} :
    record.ofJson (.object members) = .ok result ↔
      record.putMembers members record.blank = .ok result ∧
        record.checkPresence (Members.names members) = .ok () := by
  rw [ofJson, bind_eq_ok_iff]
  simp only [check_bind_eq_ok_iff, Except.ok.injEq]
  constructor
  · rintro ⟨_, put, complete, rfl⟩
    exact ⟨put, complete⟩
  · rintro ⟨put, complete⟩
    exact ⟨result, put, complete, rfl⟩

/-- An object is put into the blank record where no member has to be there. -/
theorem ofJson_object
    (defaulted : ∀ field ∈ record.fields, field.presence = .defaulted)
    (members : List (String × Json)) :
    record.ofJson (.object members) =
      record.putMembers members record.blank := by
  rw [ofJson]
  cases record.putMembers members record.blank with
  | error mismatch => rfl
  | ok read => rw [ok_bind, checkPresence_of_defaulted defaulted, ok_bind]

/-- A member that is written if there is a value for it is read back. -/
theorem putMembers_optionalMember
    (record : Record ρ)
    (name : String)
    (decoder : Decoder β)
    (put : Option β → ρ → ρ)
    {presence : Presence}
    (isField : record.field? name =
      some (.of name presence decoder.option put))
    {write : α → Json}
    {reread : α → β}
    {value : Option α}
    (back : ∀ content, value = some content →
      decoder.option.ofJson (write content) = .ok (some (reread content)))
    (read : ρ)
    (blank : put none read = read) :
    record.putMembers (optionalMember name (value.map write)) read =
      .ok (put (value.map reread) read) := by
  cases value with
  | none => exact congrArg Except.ok blank.symm
  | some content =>
      simp only [Option.map_some, optionalMember_some, putMembers, isField,
        Field.of, back content rfl, ok_bind]

section Keeps

variable (Keeps : ρ → Prop)
  (step : ∀ field ∈ record.fields, ∀ value read result, Keeps read →
    field.ofJson value read = .ok result → Keeps result)

include step

theorem keeps_of_putMembers
    {members : List (String × Json)}
    {read result : ρ}
    (before : Keeps read)
    (put : record.putMembers members read = .ok result) : Keeps result := by
  induction members generalizing read with
  | nil => exact Except.ok.inj put ▸ before
  | cons member members hypothesis =>
      obtain ⟨name, value⟩ := member
      rw [putMembers] at put
      cases found : record.field? name with
      | none =>
          simp only [found] at put
          split at put
          · cases put
          · exact hypothesis before put
      | some field =>
          simp only [found] at put
          obtain ⟨next, first, rest⟩ := bind_eq_ok_iff.1 put
          have declared : field ∈ record.fields := List.mem_of_find?_eq_some found
          exact hypothesis (step field declared value read next before first)
            rest

theorem keeps_of_putItems
    {length : Nat}
    {fields : List (Field ρ)}
    (declared : ∀ field ∈ fields, field ∈ record.fields)
    {items : List Json}
    {read result : ρ}
    (before : Keeps read)
    (put : record.putItems length fields items read = .ok result) :
    Keeps result := by
  induction fields generalizing items read with
  | nil =>
      cases items with
      | nil => exact Except.ok.inj put ▸ before
      | cons item items => cases put
  | cons field fields hypothesis =>
      have others : ∀ other ∈ fields, other ∈ record.fields :=
        fun other member => declared other (List.mem_cons_of_mem _ member)
      cases items with
      | nil =>
          rw [putItems] at put
          split at put
          · exact hypothesis others before put
          · cases put
      | cons item items =>
          obtain ⟨next, first, rest⟩ := bind_eq_ok_iff.1 put
          exact hypothesis others (step field (declared field List.mem_cons_self)
            item read next before first) rest

/-- What reading each field keeps, reading a record keeps. -/
theorem keeps_of_ofJson
    (blank : Keeps record.blank)
    {value : Json}
    {result : ρ}
    (read : record.ofJson value = .ok result) : Keeps result := by
  cases value with
  | object members =>
      exact keeps_of_putMembers Keeps step blank
        (ofJson_object_eq_ok_iff.1 read).1
  | array items =>
      exact keeps_of_putItems Keeps step (fun _ member => member) blank read
  | _ => cases read

end Keeps

end Record

end Json

end TableQuery
