import TableQuery.Conditions.Format
import TableQuery.Proofs.DirectReading

/-!
# Maps and choices read directly

A direct reader of a map reads the value of every member, also of one that a
later member of its name replaces. A direct reader of a choice refuses an object
with more than one member before it could merge any. Where this leaves nothing
out, both read drafts as they read their values.
-/

namespace TableQuery
namespace Json

variable {α : Type}

/-! ## Maps -/

namespace Decoder

variable {decoder : Decoder α} {Plain : Nat → Draft → Prop}

/-- Every member of an object is read, also one that a later one of its name
replaces. -/
def ReadsMembers (decoder : Decoder α) : Nat → Draft → Prop
  | depth + 1, .object members _ => ∀ member ∈ members,
      ∃ result, decoder.ofDraft depth member.2 = .ok result
  | _, _ => True

theorem readsMembers_null (depth : Nat) : decoder.ReadsMembers depth .null := by
  cases depth <;> trivial

theorem members_ofDraft_eq_ok_iff
    {expected : String}
    {depth : Nat}
    {members : List (StringDraft × Draft)}
    {ending : Ending}
    {entries : List (String × α)} :
    (Decoder.members expected decoder).ofDraft (depth + 1)
        (.object members ending) = .ok entries ↔
      ending = .closed ∧
        List.Forall₂ (Draft.ReadsAs fun draft content =>
          decoder.ofDraft depth draft = .ok content) members entries := by
  have step (member : StringDraft × Draft) (entry : String × α) :
      (do
        let name ← Defect.raise member.1.text
        .ok (name, ← decoder.ofDraft depth member.2)) =
          (.ok entry : Except ReadError (String × α)) ↔
        Draft.ReadsAs (fun draft content =>
          decoder.ofDraft depth draft = .ok content) member entry := by
    simp only [bind_eq_ok_iff, Defect.raise_eq_ok_iff, Except.ok.injEq]
    constructor
    · rintro ⟨name, text, content, read, rfl⟩
      exact ⟨text, read⟩
    · rintro ⟨text, read⟩
      exact ⟨entry.1, text, entry.2, read, rfl⟩
  constructor
  · intro read
    obtain ⟨found, parts, rest⟩ := bind_eq_ok_iff.1 read
    obtain ⟨closed, same⟩ := check_bind_eq_ok_iff.1 rest
    cases same
    refine ⟨Ending.next_eq_ok_iff.1 (Defect.raise_eq_ok_iff.1 closed), ?_⟩
    exact (mapM_eq_ok_iff.1 parts).imp fun member entry =>
      (step member entry).1
  · rintro ⟨rfl, each⟩
    refine bind_eq_ok_iff.2 ⟨entries, mapM_eq_ok_iff.2 ?_, rfl⟩
    exact each.imp fun member entry => (step member entry).2

/-- A map is collected from the members of a drafted object. -/
theorem fieldMap_ofDraft_eq_ok_iff
    {expected : String}
    {depth : Nat}
    {draft : Draft}
    {map : FieldMap α} :
    (Decoder.fieldMap expected decoder).ofDraft depth draft = .ok map ↔
      ∃ inner members entries, depth = inner + 1 ∧
        draft = .object members .closed ∧
        List.Forall₂ (Draft.ReadsAs fun draft content =>
          decoder.ofDraft inner draft = .ok content) members entries ∧
        FieldMap.ofList entries = map := by
  constructor
  · intro read
    obtain ⟨entries, parts, same⟩ := map_eq_ok_iff.1 read
    match depth, draft with
    | inner + 1, .object members ending =>
        obtain ⟨rfl, each⟩ := members_ofDraft_eq_ok_iff.1 parts
        exact ⟨inner, members, entries, rfl, rfl, each, same⟩
    | 0, .object members ending => cases parts
    | _, .null | _, .bool _ | _, .number _ | _, .string _ | _, .array _ _
    | _, .absent | _, .broken _ _ _ =>
        exact absurd parts (Draft.refuse_ne_ok _ _ _)
  · rintro ⟨inner, members, entries, rfl, rfl, each, same⟩
    exact map_eq_ok_iff.2
      ⟨entries, members_ofDraft_eq_ok_iff.2 ⟨rfl, each⟩, same⟩

/-- What a direct reader collects is what the merged members hold. -/
theorem fieldMap_ofJson_merge
    {expected : String}
    (agrees : decoder.Agrees Anything)
    {depth : Nat}
    {members : List (StringDraft × Draft)}
    {named : List (String × Json)}
    (written : Draft.toMembers depth members = .ok named)
    {entries : List (String × α)}
    (each : List.Forall₂ (Draft.ReadsAs fun draft content =>
      decoder.ofDraft depth draft = .ok content) members entries) :
    (Decoder.fieldMap expected decoder).ofJson
        (.object (Members.merge named)) = .ok (FieldMap.ofList entries) := by
  have paired : List.Forall₂ (SameName fun value content =>
      decoder.ofJson value = .ok content) named entries := by
    refine forall₂_of_forall₂ ?_ (Draft.toMembers_eq_ok_iff.1 written) each
    rintro member value entry ⟨text, read⟩ ⟨text', direct⟩
    exact ⟨Except.ok.inj (text.symm.trans text'),
      ((agrees.agrees read entry.2).1 direct).1⟩
  have again : FieldMap.ofList (Members.merge entries) = .ofList entries :=
    FieldMap.ofList_entries (.ofList entries)
  exact fieldMap_ofJson_eq_ok_iff.2 ⟨_, _, rfl, forall₂_merge paired, again⟩

theorem Agrees.fieldMap
    (agrees : decoder.Agrees Anything)
    (expected : String) :
    (Decoder.fieldMap expected decoder).Agrees decoder.ReadsMembers where
  readable := by
    intro depth draft map read
    obtain ⟨inner, members, entries, rfl, rfl, each, _⟩ :=
      fieldMap_ofDraft_eq_ok_iff.1 read
    obtain ⟨named, written⟩ := Draft.exists_readsAs
      (fun draft value => draft.toJson inner = .ok value) each
      fun member present =>
        have ⟨_, direct⟩ := Draft.exists_of_readsAs each member present
        agrees.readable direct
    exact ⟨_, Draft.toJson_object_eq_ok_iff.2 ⟨inner, named, rfl,
      Draft.toMembers_eq_ok_iff.2 written, rfl, rfl⟩⟩
  agrees := by
    intro depth draft value written map
    rw [fieldMap_ofDraft_eq_ok_iff]
    constructor
    · rintro ⟨inner, members, entries, rfl, rfl, each, rfl⟩
      obtain ⟨_, named, same, parts, _, rfl⟩ :=
        Draft.toJson_object_eq_ok_iff.1 written
      cases same
      exact ⟨fieldMap_ofJson_merge agrees parts each,
        Draft.exists_of_readsAs each⟩
    · rintro ⟨read, plain⟩
      cases value with
      | object merged =>
          cases Draft.isOfKind_of_toJson written with
          | map members ending =>
              obtain ⟨inner, named, rfl, parts, rfl, same⟩ :=
                Draft.toJson_object_eq_ok_iff.1 written
              cases same
              obtain ⟨entries, each⟩ := Draft.exists_readsAs
                (fun draft content =>
                  decoder.ofDraft inner draft = .ok content)
                (Draft.toMembers_eq_ok_iff.1 parts) plain
              rw [fieldMap_ofJson_merge agrees parts each,
                Except.ok.injEq] at read
              exact ⟨inner, members, entries, rfl, rfl, each, read⟩
      | _ => cases read

/-- Where every value is read, so is every member. -/
theorem Agrees.fieldMap_of_total
    (agrees : decoder.Agrees Anything)
    (total : ∀ value, ∃ result, decoder.ofJson value = .ok result)
    (expected : String) :
    (Decoder.fieldMap expected decoder).Agrees Anything where
  readable := (agrees.fieldMap expected).readable
  agrees := by
    intro depth draft value written map
    rw [(agrees.fieldMap expected).agrees written map]
    refine and_congr_right fun _ => iff_of_true ?_ trivial
    match depth, draft with
    | inner + 1, .object members ending =>
        obtain ⟨_, named, same, parts, _⟩ :=
          Draft.toJson_object_eq_ok_iff.1 written
        cases same
        intro member present
        obtain ⟨content, read⟩ := Draft.exists_of_readsAs
          (Draft.toMembers_eq_ok_iff.1 parts) member present
        obtain ⟨result, found⟩ := total content
        exact ⟨result, (agrees.agrees read result).2 ⟨found, trivial⟩⟩
    | 0, _ => trivial
    | _ + 1, .null | _ + 1, .bool _ | _ + 1, .number _ | _ + 1, .string _
    | _ + 1, .array _ _ | _ + 1, .absent | _ + 1, .broken _ _ _ => trivial

/-! ## Choices -/

/-- An object has no more than one member. -/
def SingleMember (_ : Nat) : Draft → Prop
  | .object members _ => members.length ≤ 1
  | _ => True

theorem choice_ofDraft_object_iff
    {choices : List (String × α)}
    {depth : Nat}
    {members : List (StringDraft × Draft)}
    {ending : Ending}
    {result : α} :
    (Decoder.choice choices).ofDraft depth (.object members ending) =
        .ok result ↔
      ∃ inner key name, depth = inner + 1 ∧ ending = .closed ∧
        members = [(key, .null)] ∧ key.text = .ok name ∧
        pick choices name = .ok result := by
  constructor
  · intro read
    match depth, members with
    | 0, _ => cases read
    | inner + 1, [] =>
        obtain ⟨_, refused⟩ := check_bind_eq_ok_iff.1 read
        cases refused
    | inner + 1, (key, content) :: rest =>
        obtain ⟨name, text, afterName⟩ := bind_eq_ok_iff.1 read
        obtain ⟨choice, picked, afterPick⟩ := bind_eq_ok_iff.1 afterName
        obtain ⟨found, kind, afterKind⟩ := bind_eq_ok_iff.1 afterPick
        obtain ⟨isUnit, last⟩ := check_bind_eq_ok_iff.1 afterKind
        rw [Mismatch.raise_eq_ok_iff, expectUnit_eq_ok_iff] at isUnit
        subst isUnit
        cases Draft.isOfKind_of_ofDraft (Defect.raise_eq_ok_iff.1 kind)
        cases rest with
        | cons other rest => cases last
        | nil =>
            obtain ⟨closed, same⟩ := check_bind_eq_ok_iff.1 last
            cases same
            exact ⟨inner, key, name, rfl,
              Ending.close_eq_ok_iff.1 (Defect.raise_eq_ok_iff.1 closed), rfl,
              Defect.raise_eq_ok_iff.1 text, Mismatch.raise_eq_ok_iff.1 picked⟩
  · rintro ⟨inner, key, name, rfl, rfl, rfl, text, picked⟩
    simp [Decoder.choice, text, picked, Found.ofDraft, expectUnit]

/-- A draft of an object is a single null by name where its value is. -/
theorem toMembers_eq_null_iff
    {depth : Nat}
    {members : List (StringDraft × Draft)}
    {name : String} :
    Draft.toMembers depth members = .ok [(name, .null)] ↔
      ∃ key, members = [(key, .null)] ∧ key.text = .ok name := by
  rw [Draft.toMembers_eq_ok_iff, List.forall₂_cons_right_iff]
  simp only [List.forall₂_nil_right_iff]
  constructor
  · rintro ⟨⟨key, draft⟩, _, ⟨text, isNull⟩, rfl, rfl⟩
    cases Draft.isOfKind_of_toJson isNull
    exact ⟨key, rfl, text⟩
  · rintro ⟨key, rfl, text⟩
    exact ⟨(key, .null), [], ⟨text, rfl⟩, rfl, rfl⟩

theorem merge_of_length_le_one
    {members : List (String × α)}
    (single : members.length ≤ 1) : Members.merge members = members := by
  match members, single with
  | [], _ => rfl
  | [_], _ => rfl

theorem Agrees.choice (choices : List (String × α)) :
    (Decoder.choice choices).Agrees SingleMember where
  readable := by
    intro depth draft result read
    cases draft with
    | object members ending =>
        obtain ⟨inner, key, name, rfl, rfl, rfl, text, _⟩ :=
          choice_ofDraft_object_iff.1 read
        exact ⟨.object [(name, .null)], Draft.toJson_object_eq_ok_iff.2
          ⟨inner, [(name, .null)], rfl, toMembers_eq_null_iff.2
            ⟨key, rfl, text⟩, rfl, rfl⟩⟩
    | string literal =>
        obtain ⟨name, text, _⟩ := bind_eq_ok_iff.1 read
        exact ⟨.string name, map_eq_ok_iff.2
          ⟨name, Defect.raise_eq_ok_iff.1 text, rfl⟩⟩
    | _ => cases read
  agrees := by
    intro depth draft value written result
    cases value with
    | object merged =>
        cases Draft.isOfKind_of_toJson written with
        | map members ending =>
            obtain ⟨inner, named, rfl, parts, rfl, same⟩ :=
              Draft.toJson_object_eq_ok_iff.1 written
            cases same
            rw [choice_ofDraft_object_iff, choice_ofJson_object_iff]
            constructor
            · rintro ⟨_, key, name, same, _, rfl, text, picked⟩
              cases same
              cases parts.symm.trans
                (toMembers_eq_null_iff.2 ⟨key, rfl, text⟩)
              exact ⟨⟨name, rfl, picked⟩, Nat.le_refl 1⟩
            · rintro ⟨⟨name, same, picked⟩, single⟩
              have length := (Draft.toMembers_eq_ok_iff.1 parts).length_eq
              rw [merge_of_length_le_one (length ▸ single)] at same
              subst same
              obtain ⟨key, rfl, text⟩ := toMembers_eq_null_iff.1 parts
              exact ⟨inner, key, name, rfl, rfl, rfl, text, picked⟩
    | string name =>
        cases Draft.isOfKind_of_toJson written with
        | string content =>
            simp [Decoder.choice, content, SingleMember]
    | _ =>
        cases Draft.isOfKind_of_toJson written
        constructor
        · intro read
          cases read
        · rintro ⟨read, _⟩
          cases read

end Decoder

end Json

/-! ## Entries of edit maps -/

open Json

/-- Entries are read from values in any case. -/
theorem EditEntry.agrees : EditEntry.decoder.Agrees Anything where
  readable := by
    intro depth draft result read
    obtain ⟨value, written, _⟩ := bind_eq_ok_iff.1 read
    exact ⟨value, Defect.raise_eq_ok_iff.1 written⟩
  agrees := by
    intro depth draft value written result
    simp [decoder, written, Anything]

end TableQuery
