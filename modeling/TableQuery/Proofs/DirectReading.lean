import TableQuery.Proofs.Decoding
import TableQuery.Proofs.Skipping

/-!
# Reading drafts and reading their values

A text can be read directly or by way of the value that it is. A decoder agrees
with itself on plain drafts if it reads no draft that is not readable as a value
and reads a readable one as its value, as long as the draft is plain. What has
to be plain differs from decoder to decoder: on the way to a value members of
one name are merged, so only a direct reader sees the ones that are replaced.
-/

namespace TableQuery
namespace Json

variable {α β : Type}

/-! ## Agreement -/

/-- A decoder reads drafts as it reads their values where they are plain. -/
structure Decoder.Agrees
    (decoder : Decoder α)
    (Plain : Nat → Draft → Prop) : Prop where
  /-- What is read directly is readable as a value. -/
  readable : ∀ {depth : Nat} {draft : Draft} {result : α},
    decoder.ofDraft depth draft = .ok result →
      ∃ value, draft.toJson depth = .ok value
  /-- A readable draft is read as its value if it is plain. -/
  agrees : ∀ {depth : Nat} {draft : Draft} {value : Json},
    draft.toJson depth = .ok value → ∀ result : α,
      decoder.ofDraft depth draft = .ok result ↔
        decoder.ofJson value = .ok result ∧ Plain depth draft

/-- Nothing has to be plain. -/
def Anything (_ : Nat) (_ : Draft) : Prop := True

@[simp] theorem Defect.raise_eq_ok_iff
    {outcome : Except Defect α}
    {value : α} :
    Defect.raise outcome = .ok value ↔ outcome = .ok value := by
  cases outcome <;> simp

@[simp] theorem Mismatch.raise_eq_ok_iff
    {outcome : Except Mismatch α}
    {value : α} :
    Mismatch.raise outcome = .ok value ↔ outcome = .ok value := by
  cases outcome <;> simp

theorem Draft.refuse_ne_ok
    (draft : Draft)
    (expected : String)
    (result : α) : draft.refuse expected ≠ .ok result := by
  intro read
  obtain ⟨found, _, refused⟩ := bind_eq_ok_iff.1 read
  cases refused

/-- A text is read if what it starts with is and nothing follows. -/
theorem Decoder.ofText_eq_ok_iff
    {decoder : Decoder α}
    {text : String}
    {value : α} :
    decoder.ofText text = .ok value ↔
      decoder.ofDraft depthLimit (Document.ofText text).root = .ok value ∧
        (Document.ofText text).finish = .ok () := by
  constructor
  · intro read
    obtain ⟨found, direct, rest⟩ := bind_eq_ok_iff.1 read
    obtain ⟨finished, same⟩ := check_bind_eq_ok_iff.1 rest
    cases same
    exact ⟨direct, Defect.raise_eq_ok_iff.1 finished⟩
  · rintro ⟨direct, finished⟩
    refine bind_eq_ok_iff.2 ⟨value, direct, ?_⟩
    rw [finished]
    rfl

/-- The kind of a readable draft is that of its value. -/
theorem Found.ofDraft_of_toJson
    {depth : Nat}
    {draft : Draft}
    {value : Json}
    (read : draft.toJson depth = .ok value) :
    Found.ofDraft draft = .ok (Found.ofJson value) := by
  cases draft with
  | array items ending =>
      obtain ⟨_, _, _, _, _, rfl⟩ := Draft.toJson_array_eq_ok_iff.1 read
      rfl
  | object members ending =>
      obtain ⟨_, _, _, _, _, rfl⟩ := Draft.toJson_object_eq_ok_iff.1 read
      rfl
  | string literal =>
      rw [Draft.toJson, map_eq_ok_iff] at read
      obtain ⟨text, found, rfl⟩ := read
      rw [ofDraft, found]
      rfl
  | number literal =>
      cases literal <;> cases read
      rfl
  | absent => cases read
  | broken likeNull defect skipped =>
      rw [Draft.toJson] at read
      cases read
  | _ =>
      cases read
      rfl

/-- Drafts of which the kind can be told. -/
inductive Draft.IsOfKind : Found → Draft → Prop
  | null : IsOfKind .null .null
  | bool (value : Bool) : IsOfKind (.bool value) (.bool value)
  | number (value : Number) : IsOfKind (.number value) (.number (some value))
  | string {literal : StringDraft} {text : String}
      (content : literal.text = .ok text) :
      IsOfKind (.string text) (.string literal)
  | sequence (items : List Draft) (ending : Ending) :
      IsOfKind .sequence (.array items ending)
  | map (members : List (StringDraft × Draft)) (ending : Ending) :
      IsOfKind .map (.object members ending)

theorem Draft.isOfKind_of_ofDraft
    {draft : Draft}
    {found : Found}
    (kind : Found.ofDraft draft = .ok found) : IsOfKind found draft := by
  cases draft with
  | string literal =>
      rw [Found.ofDraft, map_eq_ok_iff] at kind
      obtain ⟨text, content, rfl⟩ := kind
      exact .string content
  | number literal =>
      cases literal <;> cases kind
      exact .number _
  | absent => cases kind
  | broken likeNull defect skipped => cases kind
  | _ =>
      cases kind
      constructor

/-- A readable draft is of the kind of its value. -/
theorem Draft.isOfKind_of_toJson
    {depth : Nat}
    {draft : Draft}
    {value : Json}
    (read : draft.toJson depth = .ok value) :
    IsOfKind (Found.ofJson value) draft :=
  isOfKind_of_ofDraft (Found.ofDraft_of_toJson read)

namespace Decoder.Agrees

variable {decoder : Decoder α} {Plain : Nat → Draft → Prop}

theorem string : Decoder.string.Agrees Anything where
  readable := by
    intro depth draft result read
    obtain ⟨found, kind, isString⟩ := bind_eq_ok_iff.1 read
    rw [Defect.raise_eq_ok_iff] at kind
    cases Draft.isOfKind_of_ofDraft kind with
    | string content =>
        exact ⟨.string _, map_eq_ok_iff.2 ⟨_, content, rfl⟩⟩
    | _ => cases isString
  agrees := by
    intro depth draft value written result
    simp [Decoder.string, scalar, Found.ofDraft_of_toJson written, Anything]

theorem json : Decoder.json.Agrees Anything where
  readable read := ⟨_, Defect.raise_eq_ok_iff.1 read⟩
  agrees := by
    intro depth draft value written result
    simp [Decoder.json, written, Anything]

theorem map
    (agrees : decoder.Agrees Plain)
    (change : α → β) : (decoder.map change).Agrees Plain where
  readable := by
    intro depth draft result read
    obtain ⟨content, found, _⟩ := map_eq_ok_iff.1 read
    exact agrees.readable found
  agrees := by
    intro depth draft value written result
    simp only [Decoder.map, map_eq_ok_iff, agrees.agrees written]
    constructor
    · rintro ⟨content, ⟨found, plain⟩, same⟩
      exact ⟨⟨content, found, same⟩, plain⟩
    · rintro ⟨⟨content, found, same⟩, plain⟩
      exact ⟨content, ⟨found, plain⟩, same⟩

theorem option
    (agrees : decoder.Agrees Plain)
    (null : ∀ depth, Plain depth .null) : decoder.option.Agrees Plain where
  readable := by
    intro depth draft result read
    cases draft with
    | null => exact ⟨.null, rfl⟩
    | broken likeNull defect skipped =>
        cases likeNull with
        | true => cases read
        | false =>
            obtain ⟨content, found, _⟩ := map_eq_ok_iff.1 read
            exact agrees.readable found
    | _ =>
        obtain ⟨content, found, _⟩ := map_eq_ok_iff.1 read
        exact agrees.readable found
  agrees := by
    intro depth draft value written result
    by_cases absent : draft = .null
    · subst absent
      cases written
      simp [Decoder.option, null depth]
    · have present : value ≠ .null := by
        rintro rfl
        cases Draft.isOfKind_of_toJson written
        exact absent rfl
      have direct : decoder.option.ofDraft depth draft =
          (decoder.ofDraft depth draft).map some := by
        cases draft with
        | null => exact absurd rfl absent
        | broken likeNull defect skipped =>
            rw [Draft.toJson] at written
            cases written
        | _ => rfl
      have indirect : decoder.option.ofJson value =
          (decoder.ofJson value).map some := by
        cases value with
        | null => exact absurd rfl present
        | _ => rfl
      rw [direct, indirect]
      exact (agrees.map some).agrees written result

theorem list
    (agrees : decoder.Agrees Anything) : decoder.list.Agrees Anything where
  readable := by
    intro depth draft results read
    match depth, draft with
    | inner + 1, .array items ending =>
        obtain ⟨found, parts, rest⟩ := bind_eq_ok_iff.1 read
        obtain ⟨closed, _⟩ := check_bind_eq_ok_iff.1 rest
        have each : ∀ item ∈ items, ∃ value, item.toJson inner = .ok value := by
          intro item member
          obtain ⟨result, _, direct⟩ := exists_mem_right_of_forall₂
            (mapM_eq_ok_iff.1 parts) member
          exact agrees.readable direct
        obtain ⟨values, readable⟩ := (exists_forall₂_iff _ _).2 each
        exact ⟨.array values, Draft.toJson_array_eq_ok_iff.2
          ⟨inner, values, rfl, Draft.toItems_eq_ok_iff.2 readable,
            Ending.next_eq_ok_iff.1 (Defect.raise_eq_ok_iff.1 closed), rfl⟩⟩
    | 0, .array items ending => cases read
    | _, .null | _, .bool _ | _, .number _ | _, .string _ | _, .object _ _
    | _, .absent | _, .broken _ _ _ =>
        exact absurd read (Draft.refuse_ne_ok _ _ _)
  agrees := by
    intro depth draft value written results
    cases value with
    | array values =>
        cases Draft.isOfKind_of_toJson written with
        | sequence items ending =>
            obtain ⟨inner, _, rfl, parts, rfl, same⟩ :=
              Draft.toJson_array_eq_ok_iff.1 written
            cases same
            have pairs := Draft.toItems_eq_ok_iff.1 parts
            have direct : decoder.list.ofDraft (inner + 1)
                (.array items .closed) = items.mapM (decoder.ofDraft inner) := by
              change (items.mapM (decoder.ofDraft inner) >>= Except.ok) = _
              cases items.mapM (decoder.ofDraft inner) <;> rfl
            rw [direct, mapM_eq_ok_iff]
            have indirect : decoder.list.ofJson (.array values) = .ok results ↔
                List.Forall₂ (fun value result =>
                  decoder.ofJson value = .ok result) values results :=
              mapM_eq_ok_iff
            rw [indirect, Anything, and_true]
            constructor
            · refine fun each => forall₂_of_forall₂ ?_ pairs each
              intro item value result written read
              exact ((agrees.agrees written result).1 read).1
            · refine fun each => forall₂_of_forall₂ ?_ pairs.flip each
              intro value item result written read
              exact (agrees.agrees written result).2 ⟨read, trivial⟩
    | _ =>
        cases Draft.isOfKind_of_toJson written
        exact iff_of_false (Draft.refuse_ne_ok _ _ _) fun both => nomatch both.1

end Decoder.Agrees

end Json
end TableQuery
