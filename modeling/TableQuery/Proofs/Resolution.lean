import TableQuery.Proofs.Assembly
import TableQuery.Proofs.Reading

/-!
# Tokens resolve to what they were made of

The maps of an expression are collected from lists in which a token may occur
more than once. No binding gets lost: occurrences of an alias agree because they
are made of the same name, and those of a placeholder because fields are
distinct and the placeholder of the empty list is not claimed by any of them.
-/

namespace TableQuery

theorem mem_aliasEntries
    (fields : List String)
    (token field : String) :
    (token, field) ∈ fields.map (fun field => (aliasOf field, field)) ↔
      field ∈ fields ∧ token = aliasOf field := by
  simp only [List.mem_map, Prod.mk.injEq]
  constructor
  · rintro ⟨_, member, rfl, rfl⟩
    exact ⟨member, rfl⟩
  · rintro ⟨member, rfl⟩
    exact ⟨field, member, rfl, rfl⟩

/-- An alias stands for one field. -/
theorem agree_aliasEntries
    {fields : List String}
    (token field other : String)
    (member : (token, field) ∈ fields.map fun field => (aliasOf field, field))
    (otherMember : (token, other) ∈
      fields.map fun field => (aliasOf field, field)) :
    other = field := by
  obtain ⟨_, rfl⟩ := (mem_aliasEntries _ _ _).1 member
  obtain ⟨_, same⟩ := (mem_aliasEntries _ _ _).1 otherMember
  exact ((aliasOf_inj _ _).1 same).symm

/-- The aliases are those of the fields, and each stands for its field. -/
theorem get?_aliases_eq_some_iff
    (fields : List String)
    (token field : String) :
    (aliases fields).get? token = some field ↔
      field ∈ fields ∧ token = aliasOf field := by
  rw [SortedMap.get?_eq_some_iff, aliases,
    SortedMap.mem_ofList_iff_of_agree agree_aliasEntries, mem_aliasEntries]

theorem get?_aliases
    {fields : List String}
    {field : String}
    (member : field ∈ fields) :
    (aliases fields).get? (aliasOf field) = some field :=
  (get?_aliases_eq_some_iff _ _ _).2 ⟨member, rfl⟩

/-- The aliases are those of the same fields. -/
theorem aliases_eq_of_mem_iff
    {left right : List String}
    (same : ∀ field, field ∈ left ↔ field ∈ right) :
    aliases left = aliases right := by
  apply SortedMap.ofList_eq_of_mem_iff agree_aliasEntries
  rintro ⟨token, field⟩
  rw [mem_aliasEntries, mem_aliasEntries, same]

theorem mem_placeholderEntries
    (values : List (String × Json))
    (field : String)
    (value : Json) :
    (placeholderOf field, value) ∈
        values.map (fun (field, value) => (placeholderOf field, value)) ↔
      (field, value) ∈ values := by
  simp

/-- The placeholders are those of the same values. -/
theorem placeholders_eq_of_perm
    {left right : List (String × Json)}
    (agree : ∀ field value other, (field, value) ∈ left →
      (field, other) ∈ left → other = value)
    (perm : left.Perm right) :
    placeholders left = placeholders right := by
  apply SortedMap.ofList_eq_of_mem_iff
  · intro token value other first second
    obtain ⟨⟨field, _⟩, member, equal⟩ := List.mem_map.1 first
    obtain ⟨rfl, rfl⟩ := Prod.mk.inj equal
    exact agree _ _ _ member ((mem_placeholderEntries _ _ _).1 second)
  · exact fun _ => (perm.map _).mem_iff

/-! ## Selected fields -/

/-- A selected field has one value. -/
theorem Selection.agree
    {operation : Operation}
    {criteria : FieldMap Criterion}
    {field : String}
    {value other : Json}
    (member : (field, value) ∈
      keys operation criteria.entries ++ filtersOf operation criteria.entries)
    (otherMember : (field, other) ∈
      keys operation criteria.entries ++
        filtersOf operation criteria.entries) :
    other = value := by
  have source : ∀ {result}, (field, result) ∈
      keys operation criteria.entries ++ filtersOf operation criteria.entries →
        ∃ criterion, (field, criterion) ∈ criteria.entries ∧
          criterion.value = result := by
    intro result selected
    rw [keys, filtersOf, ← List.map_append, List.mem_map] at selected
    obtain ⟨⟨name, criterion⟩, present, equal⟩ := selected
    obtain ⟨rfl, rfl⟩ := Prod.mk.inj equal
    refine ⟨criterion, ?_, rfl⟩
    rcases List.mem_append.1 present with isKey | isFilter
    · exact List.mem_of_mem_filter isKey
    · exact List.mem_of_mem_filter isFilter
  obtain ⟨criterion, held, rfl⟩ := source member
  obtain ⟨again, heldAgain, rfl⟩ := source otherMember
  rw [Members.agree_of_nodup criteria.distinct _ _ _ held heldAgain]

variable {target : Target} {startKey : Option (FieldMap Json)}
  {primary : Option (String × Json)} {filters : List (String × Json)}
  {projected : List String}

section Edited

variable {written : List (String × Assignment)}
  {removed : List (String × Removal)}

/-- The bindings of a field that is written and of the empty list. -/
theorem mem_bindings_iff
    (written : List (String × Assignment))
    (token : String)
    (value : Json) :
    (token, value) ∈ written.flatMap (fun entry => entry.2.bindings entry.1) ↔
      (∃ entry ∈ written, placeholderOf entry.1 = token ∧
          entry.2.value = value) ∨
        (token = emptyListPlaceholder ∧ value = .array [] ∧
          ∃ entry ∈ written, entry.2.isAppend = true) := by
  have one : ∀ entry : String × Assignment,
      (token, value) ∈ entry.2.bindings entry.1 ↔
        (placeholderOf entry.1 = token ∧ entry.2.value = value) ∨
          (token = emptyListPlaceholder ∧ value = .array [] ∧
            entry.2.isAppend = true) := by
    intro entry
    unfold Assignment.bindings
    split
    · next append => simp [append, eq_comm]
    · next noAppend => simp [noAppend, eq_comm]
  simp only [List.mem_flatMap, one]
  constructor
  · rintro ⟨entry, member, own | ⟨isStart, isEmpty, append⟩⟩
    · exact .inl ⟨entry, member, own⟩
    · exact .inr ⟨isStart, isEmpty, entry, member, append⟩
  · rintro (⟨entry, member, own⟩ | ⟨isStart, isEmpty, entry, member, append⟩)
    · exact ⟨entry, member, .inl own⟩
    · exact ⟨entry, member, .inr ⟨isStart, isEmpty, append⟩⟩

/-- The placeholder of a written field stands for the value that is written. -/
theorem get?_bindings
    (distinct : (Members.names written).Nodup)
    (unclaimed : ∀ entry ∈ written, entry.2.isAppend = true →
      ∀ other ∈ written, other.1 ≠ "emptyList")
    {entry : String × Assignment}
    (member : entry ∈ written) :
    (SortedMap.ofList (written.flatMap fun entry =>
        entry.2.bindings entry.1)).get? (placeholderOf entry.1) =
      some entry.2.value := by
  apply SortedMap.get?_ofList_of_mem
  · exact (mem_bindings_iff _ _ _).2 (.inl ⟨entry, member, rfl, rfl⟩)
  · intro value otherMember
    rcases (mem_bindings_iff _ _ _).1 otherMember with
      ⟨other, otherIn, same, rfl⟩ | ⟨isStart, _, appended, appendedIn, append⟩
    · obtain ⟨field, assignment⟩ := entry
      obtain ⟨otherField, otherAssignment⟩ := other
      obtain rfl := (placeholderOf_inj _ _).1 same
      rw [Members.agree_of_nodup distinct _ _ _ member otherIn]
    · -- The other binding would be the one of the empty list.
      have claimed : entry.1 = "emptyList" := (placeholderOf_inj _ _).1 isStart
      exact absurd claimed (unclaimed appended appendedIn append entry member)

/-- The placeholder of the empty list stands for it if something is
appended. -/
theorem get?_emptyListPlaceholder
    (unclaimed : ∀ entry ∈ written, entry.2.isAppend = true →
      ∀ other ∈ written, other.1 ≠ "emptyList")
    {entry : String × Assignment}
    (member : entry ∈ written)
    (append : entry.2.isAppend = true) :
    (SortedMap.ofList (written.flatMap fun entry =>
        entry.2.bindings entry.1)).get? emptyListPlaceholder =
      some (.array []) := by
  apply SortedMap.get?_ofList_of_mem
  · exact (mem_bindings_iff _ _ _).2 (.inr ⟨rfl, rfl, entry, member, append⟩)
  · intro value otherMember
    rcases (mem_bindings_iff _ _ _).1 otherMember with
      ⟨other, otherIn, same, _⟩ | ⟨_, isEmpty, _⟩
    · have claimed : other.1 = "emptyList" := (placeholderOf_inj _ _).1 same
      exact absurd claimed (unclaimed entry member append other otherIn)
    · exact isEmpty

theorem binds_writeExpression
    (target : Target)
    (returnValues : Option ReturnValues)
    (key : String × Json)
    (removed : List (String × Removal))
    (text : String)
    (valid : ∀ field ∈ Members.names written, ValidName field)
    (distinct : (Members.names written).Nodup)
    (unclaimed : ∀ entry ∈ written, entry.2.isAppend = true →
      ∀ other ∈ written, other.1 ≠ "emptyList")
    {entry : String × Assignment}
    (member : entry ∈ written) :
    (writeExpression target returnValues key written removed text).Binds
        entry.1 entry.2.value ∧
      (writeExpression target returnValues key written removed text).BindsStart
        entry.2 := by
  refine ⟨⟨⟨?_, ?_⟩, ?_⟩, ?_⟩
  · exact valid entry.1 (List.mem_map_of_mem member)
  · exact get?_aliases (List.mem_append_left _ (List.mem_map_of_mem member))
  · exact get?_bindings distinct unclaimed member
  · exact get?_emptyListPlaceholder unclaimed member

theorem names_writeExpression
    (target : Target)
    (returnValues : Option ReturnValues)
    (key : String × Json)
    (written : List (String × Assignment))
    (text : String)
    (valid : ∀ field ∈ Members.names removed, ValidName field)
    {entry : String × Removal}
    (member : entry ∈ removed) :
    (writeExpression target returnValues key written removed text).Names
      entry.1 where
  valid := valid entry.1 (List.mem_map_of_mem member)
  named := get?_aliases (List.mem_append_right _ (List.mem_map_of_mem member))

end Edited

end TableQuery
