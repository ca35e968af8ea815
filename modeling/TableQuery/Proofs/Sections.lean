import TableQuery.Proofs.Edits
import TableQuery.Proofs.Pairing

/-!
# Sections of an update

The entries that write and those that remove form two sections, of which one at
least is there. A section that is there resolves to something, and what the
first one resolves to leaves the placeholder of the empty list alone if that is
needed.
-/

namespace TableQuery

theorem checkPlaceholders_eq_ok_iff
    (found : List (String × Assignment)) :
    checkPlaceholders found = .ok () ↔
      ∀ entry ∈ found, entry.2.isAppend = true →
        ∀ other ∈ found, other.1 ≠ "emptyList" := by
  have emptyList : emptyListPlaceholder = placeholderOf "emptyList" := rfl
  unfold checkPlaceholders
  split
  · next appends =>
      obtain ⟨entry, member, isAppend⟩ := List.any_eq_true.1 appends
      split
      · next field _ claimed =>
          have claims := List.find?_some claimed
          simp only [emptyList, beq_iff_eq, placeholderOf_inj] at claims
          have claimer := List.mem_of_find?_eq_some claimed
          simp only [reduceCtorEq, false_iff]
          intro unclaimed
          exact unclaimed entry member isAppend _ claimer claims
      · next unclaimed =>
          rw [List.find?_eq_none] at unclaimed
          simp only [true_iff]
          intro _ _ _ other otherMember claims
          apply unclaimed other otherMember
          simp [emptyList, claims]
  · next noAppend =>
      simp only [true_iff]
      intro entry member isAppend
      exact absurd (List.any_eq_true.2 ⟨entry, member, isAppend⟩) noAppend

/-- What the section that writes resolves to. -/
structure ResolvedUpdate
    (config : Config)
    (entries : List (String × Option EditEntry))
    (found : List (String × Assignment)) : Prop where
  /-- The names can be spliced. -/
  valid : ValidNames entries
  /-- Each entry that writes has its assignment. -/
  resolved : List.Forall₂ WritesField (writtenEntries config entries) found
  /-- Something is written. -/
  nonempty : found ≠ []
  /-- No field claims the placeholder of the empty list if that is needed. -/
  unclaimed : ∀ entry ∈ found, entry.2.isAppend = true →
    ∀ other ∈ found, other.1 ≠ "emptyList"

/-- What the section that removes resolves to. -/
structure ResolvedRemove
    (entries : List (String × Option EditEntry))
    (found : List (String × Removal)) : Prop where
  /-- The names can be spliced. -/
  valid : ValidNames entries
  /-- Each entry that removes has its removal. -/
  resolved : List.Forall₂ RemovesField (removedEntries entries) found
  /-- Something is removed. -/
  nonempty : found ≠ []

/-- Assignments are those of the entries that write, field by field. -/
theorem ResolvedUpdate.names
    {config : Config}
    {entries : List (String × Option EditEntry)}
    {found : List (String × Assignment)}
    (resolved : ResolvedUpdate config entries found) :
    Members.names found = Members.names (writtenEntries config entries) :=
  names_eq_of_forall₂ (fun _ _ writes => writes.1) resolved.resolved

theorem ResolvedRemove.names
    {entries : List (String × Option EditEntry)}
    {found : List (String × Removal)}
    (resolved : ResolvedRemove entries found) :
    Members.names found = Members.names (removedEntries entries) :=
  names_eq_of_forall₂ (fun _ _ removes => removes.1) resolved.resolved

theorem ResolvedUpdate.validName
    {config : Config}
    {entries : List (String × Option EditEntry)}
    {found : List (String × Assignment)}
    (resolved : ResolvedUpdate config entries found)
    {field : String}
    (member : field ∈ Members.names found) : ValidName field := by
  rw [resolved.names] at member
  obtain ⟨entry, kept, rfl⟩ := List.mem_map.1 member
  obtain ⟨present, writes⟩ := List.mem_filter.1 kept
  exact resolved.valid entry present (of_decide_eq_true writes).1

theorem ResolvedRemove.validName
    {entries : List (String × Option EditEntry)}
    {found : List (String × Removal)}
    (resolved : ResolvedRemove entries found)
    {field : String}
    (member : field ∈ Members.names found) : ValidName field := by
  rw [resolved.names] at member
  obtain ⟨entry, kept, rfl⟩ := List.mem_map.1 member
  obtain ⟨present, removes⟩ := List.mem_filter.1 kept
  exact resolved.valid entry present (of_decide_eq_true removes)

/-- No field is written twice. -/
theorem ResolvedUpdate.distinct
    {config : Config}
    {update : EditMap}
    {found : List (String × Assignment)}
    (resolved : ResolvedUpdate config update.entries found) :
    (Members.names found).Nodup := by
  rw [resolved.names]
  exact update.distinct.sublist (List.filter_sublist.map Prod.fst)

/-- The entries of a section, of which there are none if it is missing. -/
def sectionEntries (editMap : Option EditMap) :
    List (String × Option EditEntry) :=
  (editMap.map FieldMap.entries).getD []

theorem assignments_eq_ok_iff
    (config : Config)
    (conditions : Conditions)
    (result : Option (List (String × Assignment))) :
    assignments config conditions = .ok result ↔
      (conditions.update = none ∧ conditions.remove ≠ none ∧ result = none) ∨
        ∃ update found, conditions.update = some update ∧
          result = some found ∧ ResolvedUpdate config update.entries found := by
  unfold assignments
  cases present : conditions.update with
  | none => cases conditions.remove <;> simp [eq_comm]
  | some update =>
      simp only [reduceCtorEq, false_and, false_or, Option.some.injEq,
        exists_and_left, exists_eq_left', bind_eq_ok_iff,
        resolveUpdate_eq_ok_iff]
      constructor
      · rintro ⟨found, ⟨valid, resolved⟩, rest⟩
        split at rest
        · cases rest
        · next nonempty =>
            rw [check_bind_eq_ok_iff, checkPlaceholders_eq_ok_iff] at rest
            obtain ⟨unclaimed, same⟩ := rest
            cases same
            exact ⟨found, rfl, valid, resolved, by simpa using nonempty,
              unclaimed⟩
      · rintro ⟨found, rfl, written⟩
        refine ⟨found, ⟨written.valid, written.resolved⟩, ?_⟩
        rw [if_neg (by simpa using written.nonempty), check_bind_eq_ok_iff,
          checkPlaceholders_eq_ok_iff]
        exact ⟨written.unclaimed, rfl⟩

theorem removals_eq_ok_iff
    (conditions : Conditions)
    (result : Option (List (String × Removal))) :
    removals conditions = .ok result ↔
      (conditions.remove = none ∧ result = none) ∨
        ∃ remove found, conditions.remove = some remove ∧
          result = some found ∧ ResolvedRemove remove.entries found := by
  unfold removals
  cases present : conditions.remove with
  | none => simp [eq_comm]
  | some remove =>
      simp only [reduceCtorEq, false_and, false_or, Option.some.injEq,
        exists_and_left, exists_eq_left', bind_eq_ok_iff,
        resolveRemove_eq_ok_iff]
      constructor
      · rintro ⟨found, ⟨valid, resolved⟩, rest⟩
        split at rest
        · cases rest
        · next nonempty =>
            cases rest
            exact ⟨found, rfl, valid, resolved, by simpa using nonempty⟩
      · rintro ⟨found, rfl, removed⟩
        refine ⟨found, ⟨removed.valid, removed.resolved⟩, ?_⟩
        rw [if_neg (by simpa using removed.nonempty)]

/-- Something is appended by an entry. -/
def Appends (entries : List (String × Option EditEntry)) : Prop :=
  ∃ entry ∈ entries, ∃ items, Assigns entry.2 (.append items)

/-- Entries append exactly if what they resolve to does. -/
theorem appends_iff
    {entries : List (String × Option EditEntry)}
    {found : List (String × Assignment)}
    (related : List.Forall₂ WritesField entries found) :
    Appends entries ↔
      ∃ result ∈ found, result.2.isAppend = true := by
  induction related with
  | nil => simp [Appends]
  | @cons entry result entries found writes _ hypothesis =>
      rw [Appends, List.exists_mem_cons_iff,
        List.exists_mem_cons_iff, ← Appends, hypothesis]
      apply or_congr_left
      constructor
      · rintro ⟨items, assigns⟩
        rw [writes.2.unique assigns]
        rfl
      · intro append
        cases same : result.2 with
        | append items => exact ⟨items, same ▸ writes.2⟩
        | set value => simp [same, Assignment.isAppend] at append
        | setAt index value => simp [same, Assignment.isAppend] at append

/-- What a section that writes comes to, whether it is there or not. -/
structure WrittenSection
    (config : Config)
    (update : Option EditMap)
    (found : List (String × Assignment)) : Prop where
  /-- The names can be spliced. -/
  valid : ∀ field ∈ Members.names found, ValidName field
  /-- No field is written twice. -/
  distinct : (Members.names found).Nodup
  /-- No field claims the placeholder of the empty list if that is needed. -/
  unclaimed : ∀ entry ∈ found, entry.2.isAppend = true →
    ∀ other ∈ found, other.1 ≠ "emptyList"
  /-- Each entry that writes has its assignment. -/
  resolved : List.Forall₂ WritesField
    (writtenEntries config (sectionEntries update)) found
  /-- Something is written exactly if the section is there. -/
  nonempty_iff : found ≠ [] ↔ update ≠ none

/-- What a section that removes comes to, whether it is there or not. -/
structure RemovedSection
    (remove : Option EditMap)
    (found : List (String × Removal)) : Prop where
  /-- The names can be spliced. -/
  valid : ∀ field ∈ Members.names found, ValidName field
  /-- Each entry that removes has its removal. -/
  resolved : List.Forall₂ RemovesField
    (removedEntries (sectionEntries remove)) found
  /-- Something is removed exactly if the section is there. -/
  nonempty_iff : found ≠ [] ↔ remove ≠ none

theorem writtenSection
    {config : Config}
    {conditions : Conditions}
    {written : Option (List (String × Assignment))}
    (resolved : assignments config conditions = .ok written) :
    WrittenSection config conditions.update (written.getD []) ∧
      (conditions.update ≠ none ∨ conditions.remove ≠ none) := by
  rcases (assignments_eq_ok_iff _ _ _).1 resolved with
    ⟨absent, present, rfl⟩ | ⟨update, found, isUpdate, rfl, resolves⟩
  · refine ⟨?_, .inr present⟩
    rw [absent]
    constructor <;> simp [writtenEntries, sectionEntries]
  · refine ⟨?_, .inl (by simp [isUpdate])⟩
    rw [isUpdate]
    exact {
      valid := fun _ => resolves.validName
      distinct := resolves.distinct
      unclaimed := resolves.unclaimed
      resolved := resolves.resolved
      nonempty_iff := by simp [resolves.nonempty] }

theorem removedSection
    {conditions : Conditions}
    {removed : Option (List (String × Removal))}
    (resolved : removals conditions = .ok removed) :
    RemovedSection conditions.remove (removed.getD []) := by
  rcases (removals_eq_ok_iff _ _).1 resolved with
    ⟨absent, rfl⟩ | ⟨remove, found, isRemove, rfl, resolves⟩
  · rw [absent]
    constructor <;> simp [removedEntries, sectionEntries]
  · rw [isRemove]
    exact {
      valid := fun _ => resolves.validName
      resolved := resolves.resolved
      nonempty_iff := by simp [resolves.nonempty] }

end TableQuery
