import TableQuery.Proofs.Bindings
import TableQuery.Proofs.DirectReading

/-!
# Records read directly

A direct reader of a record refuses a field that is written twice and only skips
the members that are no fields. On the way to a value the fields written twice
are merged, and the other members are read. Apart from this, a record is read
directly as it is read from its value.
-/

namespace TableQuery
namespace Json

variable {α ρ : Type}

/-! ## Fields -/

/-- A field reads drafts as it reads their values where they are plain. -/
structure Field.Agrees
    (field : Field ρ)
    (Plain : Nat → Draft → Prop) : Prop where
  /-- What is read directly is readable as a value. -/
  readable : ∀ {depth : Nat} {draft : Draft} {read result : ρ},
    field.ofDraft depth draft read = .ok result →
      ∃ value, draft.toJson depth = .ok value
  /-- A readable draft is read as its value if it is plain. -/
  agrees : ∀ {depth : Nat} {draft : Draft} {value : Json},
    draft.toJson depth = .ok value → ∀ read result : ρ,
      field.ofDraft depth draft read = .ok result ↔
        field.ofJson value read = .ok result ∧ Plain depth draft

theorem Decoder.Agrees.field
    {decoder : Decoder α}
    {Plain : Nat → Draft → Prop}
    (agrees : decoder.Agrees Plain)
    (name : String)
    (presence : Presence)
    (put : α → ρ → ρ) :
    (Field.of name presence decoder put).Agrees Plain where
  readable := by
    intro depth draft read result put
    obtain ⟨part, found, _⟩ := bind_eq_ok_iff.1 put
    exact agrees.readable found
  agrees := by
    intro depth draft value written read result
    simp only [Field.of, bind_eq_ok_iff, agrees.agrees written,
      Except.ok.injEq]
    constructor
    · rintro ⟨part, ⟨found, plain⟩, same⟩
      exact ⟨⟨part, found, same⟩, plain⟩
    · rintro ⟨⟨part, found, same⟩, plain⟩
      exact ⟨part, ⟨found, plain⟩, same⟩

namespace Record

variable {record : Record ρ} {Plain : String → Nat → Draft → Prop}

/-! ## Members -/

/-- Those of the given names that are names of fields. -/
def fieldNames (record : Record ρ) (names : List String) : List String :=
  names.filter fun name => (record.field? name).isSome

/-- Every member that is a field is plain. -/
def PlainMembers
    (record : Record ρ)
    (Plain : String → Nat → Draft → Prop)
    (depth : Nat)
    (members : List (StringDraft × Draft)) : Prop :=
  ∀ member ∈ members, ∀ name, member.1.text = .ok name →
    (record.field? name).isSome = true → Plain name depth member.2

theorem plainMembers_cons_iff
    {key : StringDraft}
    {draft : Draft}
    {name : String}
    (text : key.text = .ok name)
    (depth : Nat)
    (members : List (StringDraft × Draft)) :
    record.PlainMembers Plain depth ((key, draft) :: members) ↔
      ((record.field? name).isSome = true → Plain name depth draft) ∧
        record.PlainMembers Plain depth members := by
  rw [PlainMembers, List.forall_mem_cons]
  refine and_congr_left fun _ => ⟨fun plain => plain name text, ?_⟩
  intro plain other same
  exact Except.ok.inj (text.symm.trans same) ▸ plain

/-- Every member that is no field is readable. -/
def IgnoredMembersReadable
    (record : Record ρ)
    (depth : Nat)
    (members : List (StringDraft × Draft)) : Prop :=
  ∀ member ∈ members, ∀ name, member.1.text = .ok name →
    record.field? name = none → ∃ value, member.2.toJson depth = .ok value

/-- A member is put into the field of its name, provided that this is not there
yet. Without such a field it is only skipped. -/
theorem putDraftMembers_cons_eq_ok_iff
    {depth : Nat}
    {key : StringDraft}
    {draft : Draft}
    {members : List (StringDraft × Draft)}
    {given : List String}
    {read : ρ}
    {outcome : List String × ρ} :
    record.putDraftMembers depth ((key, draft) :: members) given read =
        .ok outcome ↔
      ∃ name, key.text = .ok name ∧
        ((∃ field, record.field? name = some field ∧ name ∉ given ∧
            ∃ next, field.ofDraft depth draft read = .ok next ∧
              record.putDraftMembers depth members (name :: given) next =
                .ok outcome) ∨
          (record.field? name = none ∧ record.sealed = false ∧
            draft.skip = .ok () ∧
            record.putDraftMembers depth members given read = .ok outcome)) := by
  rw [putDraftMembers, bind_eq_ok_iff]
  refine exists_congr fun name => and_congr Defect.raise_eq_ok_iff ?_
  cases found : record.field? name with
  | none =>
      by_cases isSealed : record.sealed = true
      · simp [isSealed]
      · simp [isSealed, check_bind_eq_ok_iff, Defect.raise_eq_ok_iff]
  | some field =>
      by_cases taken : name ∈ given
      · simp [taken]
      · simp [taken, bind_eq_ok_iff]

section Agrees

variable (unsealed : record.sealed = false)
  (agrees : ∀ field ∈ record.fields, field.Agrees (Plain field.name))

include unsealed agrees

/-- A direct reader puts in the members as they are, but none of them twice. -/
theorem putDraftMembers_eq_ok_iff
    {depth : Nat}
    {members : List (StringDraft × Draft)}
    {named : List (String × Json)}
    (written : Draft.toMembers depth members = .ok named)
    (skipped : ∀ member ∈ members, member.2.skip = .ok ())
    (given : List String)
    (read result : ρ) :
    (∃ names, record.putDraftMembers depth members given read =
        .ok (names, result)) ↔
      record.putMembers named read = .ok result ∧
        (record.fieldNames (Members.names named)).Nodup ∧
        (record.fieldNames (Members.names named)).Disjoint given ∧
        record.PlainMembers Plain depth members := by
  have pairs := Draft.toMembers_eq_ok_iff.1 written
  clear written
  induction pairs generalizing given read with
  | nil => simp [putDraftMembers, putMembers, fieldNames, PlainMembers]
  | @cons member entry members named first rest hypothesis =>
      obtain ⟨key, draft⟩ := member
      obtain ⟨name, value⟩ := entry
      have text : key.text = .ok name := first.1
      have written : draft.toJson depth = .ok value := first.2
      obtain ⟨skippedFirst, skippedRest⟩ := List.forall_mem_cons.1 skipped
      specialize hypothesis skippedRest
      rw [putMembers, plainMembers_cons_iff text]
      simp only [putDraftMembers_cons_eq_ok_iff, text, Except.ok.injEq,
        exists_eq_left']
      cases found : record.field? name with
      | none =>
          have names : record.fieldNames (Members.names ((name, value) :: named))
              = record.fieldNames (Members.names named) := by
            simp [fieldNames, found]
          have passed : draft.skip = .ok () := skippedFirst
          rw [names]
          simp [unsealed, passed, hypothesis given read]
      | some field =>
          obtain ⟨declared, rfl⟩ := field?_eq_some found
          have names : record.fieldNames
              (Members.names ((field.name, value) :: named)) =
                field.name :: record.fieldNames (Members.names named) := by
            simp [fieldNames, found]
          have direct := (agrees field declared).agrees written read
          rw [names, List.nodup_cons, List.disjoint_cons_left]
          simp only [Option.some.injEq, exists_eq_left', reduceCtorEq,
            false_and, or_false, bind_eq_ok_iff, Option.isSome_some,
            true_implies]
          constructor
          · rintro ⟨_, taken, next, put, rest⟩
            obtain ⟨putRest, distinct, apart, plain⟩ :=
              (hypothesis (field.name :: given) next).1 ⟨_, rest⟩
            obtain ⟨putFirst, plainFirst⟩ := (direct next).1 put
            rw [List.disjoint_cons_right] at apart
            exact ⟨⟨next, putFirst, putRest⟩, ⟨apart.1, distinct⟩,
              ⟨taken, apart.2⟩, plainFirst, plain⟩
          · rintro ⟨⟨next, putFirst, putRest⟩, ⟨apart, distinct⟩,
              ⟨taken, others⟩, plainFirst, plain⟩
            obtain ⟨names, rest⟩ := (hypothesis (field.name :: given) next).2
              ⟨putRest, distinct, List.disjoint_cons_right.2 ⟨apart, others⟩,
                plain⟩
            exact ⟨names, taken, next, (direct next).2 ⟨putFirst, plainFirst⟩,
              rest⟩

end Agrees

/-- Merging changes nothing for a record of which no field is written twice. -/
theorem putMembers_merge
    (unsealed : record.sealed = false)
    {members : List (String × Json)}
    (distinct : (record.fieldNames (Members.names members)).Nodup)
    (read : ρ) :
    record.putMembers (Members.merge members) read =
      record.putMembers members read := by
  have putFields (members : List (String × Json)) (read : ρ) :
      record.putMembers members read = record.putMembers
        (members.filter fun member => (record.field? member.1).isSome) read := by
    induction members generalizing read with
    | nil => rfl
    | cons member members hypothesis =>
        obtain ⟨name, value⟩ := member
        cases found : record.field? name with
        | none => simp [putMembers, found, unsealed, hypothesis]
        | some field => simp [putMembers, found, hypothesis]
  rw [putFields, putFields members,
    Members.filter_merge fun name => (record.field? name).isSome,
    Members.merge_of_nodup]
  rwa [fieldNames, Members.names, List.filter_map] at distinct

theorem exists_toMembers_of_putDraftMembers
    (agrees : ∀ field ∈ record.fields, field.Agrees (Plain field.name))
    {depth : Nat}
    {members : List (StringDraft × Draft)}
    {given names : List String}
    {read result : ρ}
    (put : record.putDraftMembers depth members given read =
      .ok (names, result))
    (ignored : record.IgnoredMembersReadable depth members) :
    ∃ named, Draft.toMembers depth members = .ok named := by
  induction members generalizing given read with
  | nil => exact ⟨[], rfl⟩
  | cons member members hypothesis =>
      obtain ⟨key, draft⟩ := member
      obtain ⟨first, others⟩ := List.forall_mem_cons.1 ignored
      obtain ⟨name, text, ⟨field, found, _, next, direct, rest⟩ |
        ⟨found, _, _, rest⟩⟩ := putDraftMembers_cons_eq_ok_iff.1 put
      · obtain ⟨value, written⟩ :=
          (agrees field (field?_eq_some found).1).readable direct
        obtain ⟨named, parts⟩ := hypothesis rest others
        exact ⟨(name, value) :: named, Draft.toMembers_eq_ok_iff.2
          (.cons ⟨text, written⟩ (Draft.toMembers_eq_ok_iff.1 parts))⟩
      · obtain ⟨value, written⟩ := first name text found
        obtain ⟨named, parts⟩ := hypothesis rest others
        exact ⟨(name, value) :: named, Draft.toMembers_eq_ok_iff.2
          (.cons ⟨text, written⟩ (Draft.toMembers_eq_ok_iff.1 parts))⟩

/-! ## Items -/

/-- The items of an array are put in as their values, if all are plain. -/
theorem putDraftItems_eq_ok_iff
    {fields : List (Field ρ)}
    (agrees : ∀ field ∈ fields, field.Agrees (Plain field.name))
    {depth : Nat}
    {items : List Draft}
    {values : List Json}
    (written : Draft.toItems depth items = .ok values)
    (length : Nat)
    (read result : ρ) :
    record.putDraftItems depth .closed fields items read = .ok result ↔
      record.putItems length fields values read = .ok result ∧
        ∀ part ∈ fields.zip items, Plain part.1.name depth part.2 := by
  have pairs := Draft.toItems_eq_ok_iff.1 written
  clear written
  induction fields generalizing items values read with
  | nil =>
      cases pairs with
      | nil => simp [putDraftItems, putItems]
      | cons _ _ => simp [putDraftItems, putItems]
  | cons field fields hypothesis =>
      obtain ⟨agreesFirst, agreesRest⟩ := List.forall_mem_cons.1 agrees
      cases pairs with
      | nil =>
          rw [putDraftItems, putItems, Ending.next_closed, Defect.raise_ok,
            ok_bind]
          by_cases omitted : field.presence = .defaulted
          · rw [if_pos omitted, if_pos omitted]
            refine (hypothesis agreesRest read .nil).trans ?_
            simp
          · simp [if_neg omitted]
      | @cons item value items values first rest =>
          rw [putDraftItems, putItems, List.zip_cons_cons,
            List.forall_mem_cons]
          have others (next : ρ) := hypothesis agreesRest next rest
          simp only [bind_eq_ok_iff, agreesFirst.agrees first, others]
          constructor
          · rintro ⟨next, ⟨put, plain⟩, putRest, plainRest⟩
            exact ⟨⟨next, put, putRest⟩, plain, plainRest⟩
          · rintro ⟨⟨next, put, putRest⟩, plain, plainRest⟩
            exact ⟨next, ⟨put, plain⟩, putRest, plainRest⟩

theorem exists_toItems_of_putDraftItems
    {fields : List (Field ρ)}
    (agrees : ∀ field ∈ fields, field.Agrees (Plain field.name))
    {depth : Nat}
    {ending : Ending}
    {items : List Draft}
    {read result : ρ}
    (put : record.putDraftItems depth ending fields items read = .ok result) :
    ending = .closed ∧ ∃ values, Draft.toItems depth items = .ok values := by
  induction fields generalizing items read with
  | nil =>
      cases items with
      | nil =>
          obtain ⟨closed, _⟩ := check_bind_eq_ok_iff.1 put
          exact ⟨Ending.close_eq_ok_iff.1 (Defect.raise_eq_ok_iff.1 closed),
            [], rfl⟩
      | cons item items => cases put
  | cons field fields hypothesis =>
      obtain ⟨agreesFirst, agreesRest⟩ := List.forall_mem_cons.1 agrees
      cases items with
      | nil =>
          obtain ⟨closed, _⟩ := check_bind_eq_ok_iff.1 put
          exact ⟨Ending.next_eq_ok_iff.1 (Defect.raise_eq_ok_iff.1 closed),
            [], rfl⟩
      | cons item items =>
          obtain ⟨next, direct, rest⟩ := bind_eq_ok_iff.1 put
          obtain ⟨value, first⟩ := agreesFirst.readable direct
          obtain ⟨closed, values, others⟩ := hypothesis agreesRest rest
          refine ⟨closed, value :: values, ?_⟩
          rw [Draft.toItems, first, others]
          rfl

/-! ## Records -/

/-- Nothing that a direct reader sees is merged away on the way to a value: no
field is written twice, and all fields are plain. -/
def WrittenOnce
    (record : Record ρ)
    (Plain : String → Nat → Draft → Prop) : Nat → Draft → Prop
  | depth + 1, .object members _ =>
      (record.fieldNames
        (members.filterMap fun member => member.1.text.toOption)).Nodup ∧
      record.PlainMembers Plain depth members
  | depth + 1, .array items _ =>
      ∀ part ∈ record.fields.zip items, Plain part.1.name depth part.2
  | _, _ => True

/-- The members that a direct reader only skips are readable. -/
def IgnoredReadable (record : Record ρ) : Nat → Draft → Prop
  | depth + 1, .object members _ => record.IgnoredMembersReadable depth members
  | _, _ => True

theorem texts_eq_names
    {relation : Draft → α → Prop}
    {members : List (StringDraft × Draft)}
    {named : List (String × α)}
    (pairs : List.Forall₂ (Draft.ReadsAs relation) members named) :
    members.filterMap (fun member => member.1.text.toOption) =
      Members.names named := by
  induction pairs with
  | nil => rfl
  | @cons member entry members named first _ hypothesis =>
      rw [List.filterMap_cons_some (b := entry.1), hypothesis]
      · rfl
      · rw [first.1]
        rfl

theorem ofDraft_object_eq_ok_iff
    (defaulted : ∀ field ∈ record.fields, field.presence = .defaulted)
    {depth : Nat}
    {members : List (StringDraft × Draft)}
    {ending : Ending}
    {result : ρ} :
    record.ofDraft (depth + 1) (.object members ending) = .ok result ↔
      ending = .closed ∧ ∃ names,
        record.putDraftMembers depth members [] record.blank =
          .ok (names, result) := by
  constructor
  · intro read
    obtain ⟨⟨names, found⟩, put, rest⟩ := bind_eq_ok_iff.1 read
    obtain ⟨closed, last⟩ := check_bind_eq_ok_iff.1 rest
    obtain ⟨_, same⟩ := check_bind_eq_ok_iff.1 last
    cases same
    exact ⟨Ending.next_eq_ok_iff.1 (Defect.raise_eq_ok_iff.1 closed), names, put⟩
  · rintro ⟨rfl, names, put⟩
    refine bind_eq_ok_iff.2 ⟨(names, result), put, ?_⟩
    dsimp only
    rw [Ending.next_closed, checkPresence_of_defaulted defaulted]
    rfl

section Agrees

variable (unsealed : record.sealed = false)
  (defaulted : ∀ field ∈ record.fields, field.presence = .defaulted)
  (agrees : ∀ field ∈ record.fields, field.Agrees (Plain field.name))

include defaulted agrees

include unsealed in
/-- A readable draft of a record is read as its value if nothing that a direct
reader sees is merged away. -/
theorem ofDraft_eq_ok_iff
    {depth : Nat}
    {draft : Draft}
    {value : Json}
    (written : draft.toJson depth = .ok value)
    (skipped : draft.skip = .ok ())
    (result : ρ) :
    record.ofDraft depth draft = .ok result ↔
      record.ofJson value = .ok result ∧
        record.WrittenOnce Plain depth draft := by
  cases value with
  | object merged =>
      cases Draft.isOfKind_of_toJson written with
      | map members ending =>
          obtain ⟨inner, named, rfl, parts, rfl, same⟩ :=
            Draft.toJson_object_eq_ok_iff.1 written
          cases same
          rw [Draft.skip, check_bind_eq_ok_iff,
            Draft.skipMembers_eq_ok_iff] at skipped
          have direct := putDraftMembers_eq_ok_iff unsealed agrees parts
            (fun member present => (skipped.1 member present).2) []
            record.blank result
          rw [ofDraft_object_eq_ok_iff defaulted, direct, ofJson_object defaulted,
            WrittenOnce, texts_eq_names (Draft.toMembers_eq_ok_iff.1 parts)]
          constructor
          · rintro ⟨_, put, distinct, _, plain⟩
            rw [putMembers_merge unsealed distinct]
            exact ⟨put, distinct, plain⟩
          · rintro ⟨put, distinct, plain⟩
            rw [putMembers_merge unsealed distinct] at put
            exact ⟨rfl, put, distinct, List.disjoint_nil_right _, plain⟩
  | array values =>
      cases Draft.isOfKind_of_toJson written with
      | sequence items ending =>
          obtain ⟨inner, _, rfl, parts, rfl, same⟩ :=
            Draft.toJson_array_eq_ok_iff.1 written
          cases same
          exact putDraftItems_eq_ok_iff agrees parts _ _ _
  | _ =>
      cases Draft.isOfKind_of_toJson written
      refine iff_of_false (Draft.refuse_ne_ok _ _ _) ?_
      rintro ⟨read, _⟩
      cases read

/-- What a direct reader reads is readable as a value if what it skips is. -/
theorem exists_toJson_iff
    {depth : Nat}
    {draft : Draft}
    {result : ρ}
    (read : record.ofDraft depth draft = .ok result) :
    (∃ value, draft.toJson depth = .ok value) ↔
      record.IgnoredReadable depth draft := by
  match depth, draft with
  | inner + 1, .object members ending =>
      obtain ⟨rfl, names, put⟩ := (ofDraft_object_eq_ok_iff defaulted).1 read
      constructor
      · rintro ⟨value, written⟩ member present name text _
        obtain ⟨_, named, same, parts, _⟩ :=
          Draft.toJson_object_eq_ok_iff.1 written
        cases same
        exact Draft.exists_of_readsAs (Draft.toMembers_eq_ok_iff.1 parts)
          member present
      · intro ignored
        obtain ⟨named, parts⟩ :=
          exists_toMembers_of_putDraftMembers agrees put ignored
        exact ⟨_, Draft.toJson_object_eq_ok_iff.2
          ⟨inner, named, rfl, parts, rfl, rfl⟩⟩
  | inner + 1, .array items ending =>
      obtain ⟨rfl, values, parts⟩ := exists_toItems_of_putDraftItems agrees read
      exact iff_of_true ⟨_, Draft.toJson_array_eq_ok_iff.2
        ⟨inner, values, rfl, parts, rfl, rfl⟩⟩ trivial
  | 0, .object members ending => cases read
  | 0, .array items ending => cases read
  | _, .null | _, .bool _ | _, .number _ | _, .string _ | _, .absent
  | _, .broken _ _ _ => exact absurd read (Draft.refuse_ne_ok _ _ _)

end Agrees

end Record

end Json
end TableQuery
