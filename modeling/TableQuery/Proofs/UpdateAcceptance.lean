import TableQuery.Proofs.Assembly

/-!
# Which updates compile

The conditions of an update compile exactly if the criteria single out one item,
at least one section is there, and each section that is there can be resolved.
All of this is said entry by entry here, without the order in which compilation
looks at the entries.
-/

namespace TableQuery

/-! ## Criteria -/

/-- Criteria single out an item by one primary key; the other criteria have
names that could be spliced. -/
structure SingleOut (entries : List (String × Criterion)) : Prop where
  /-- No criterion is the refused operator. -/
  noRefused : ∀ entry ∈ entries, entry.1 ≠ "or"
  /-- Exactly one criterion is marked as the primary key. -/
  onePrimary : ∃ primary ∈ entries,
    primary.1 ≠ "and" ∧ primary.2.isPrimary = true ∧
      ∀ other ∈ entries, other.1 ≠ "and" → other.2.isPrimary = true →
        other = primary
  /-- The other criteria have valid names. -/
  validOthers : ∀ entry ∈ entries, entry.1 ≠ "and" →
    entry.2.isPrimary = false → ValidName entry.1

theorem singleOut_iff (criteria : FieldMap Criterion) :
    SingleOut criteria.entries ↔
      (∀ entry ∈ criteria.entries, Selection.Admissible .update entry) ∧
        ∃ primary, Selection.keys .update criteria.entries = [primary] := by
  rw [Selection.exists_keys_iff (by decide)]
  constructor
  · rintro ⟨noRefused, onePrimary, validOthers⟩
    refine ⟨fun entry member => ?_, onePrimary⟩
    -- The one primary key may have any name, as it is never spliced.
    by_cases implied : entry.1 = "and"
    · exact .inl implied
    · refine .inr ⟨noRefused entry member, ?_⟩
      cases marked : entry.2.isPrimary with
      | true => exact .inr ⟨rfl, rfl⟩
      | false => exact .inl (validOthers entry member implied marked)
  · rintro ⟨admissible, onePrimary⟩
    refine ⟨fun entry member refused => ?_, onePrimary, ?_⟩
    · rcases admissible entry member with implied | ⟨notRefused, _⟩
      · rw [refused] at implied
        exact absurd implied (by decide)
      · exact notRefused refused
    · intro entry member named notPrimary
      rcases admissible entry member with implied | ⟨_, valid | ⟨_, marked⟩⟩
      · exact absurd implied named
      · exact valid
      · rw [notPrimary] at marked
        cases marked

/-! ## Sections -/

/-- A section that writes can be resolved. -/
structure Writable
    (config : Config)
    (entries : List (String × Option EditEntry)) : Prop where
  /-- The names are valid, except for the reserved one. -/
  valid : ∀ entry ∈ entries, entry.1 ≠ "type" → ValidName entry.1
  /-- Something is left to write. -/
  nonempty : writtenEntries config entries ≠ []
  /-- What is left has a value, and no position that it is written to is
  negative. -/
  resolvable : ∀ entry ∈ writtenEntries config entries, ∃ edit value,
    entry.2 = some (.described edit) ∧ edit.value = some value ∧
      (edit.append = true ∨
        (∃ index, edit.index = some index ∧ 0 ≤ index.toInt) ∨
        (edit.index = none ∧
          ∀ index, CarriesIndex value index → 0 ≤ index.toInt))
  /-- If items are appended, no field claims the placeholder of the empty
  list. -/
  unclaimed : ∀ entry ∈ writtenEntries config entries, ∀ edit items,
    entry.2 = some (.described edit) → edit.append = true →
      edit.value = some (.array items) →
        ∀ other ∈ writtenEntries config entries, other.1 ≠ "emptyList"

/-- A section that removes can be resolved. -/
structure Removable (entries : List (String × Option EditEntry)) : Prop where
  /-- The names are valid, except for the reserved one. -/
  valid : ∀ entry ∈ entries, entry.1 ≠ "type" → ValidName entry.1
  /-- Something is left to remove. -/
  nonempty : ∃ entry ∈ entries, entry.1 ≠ "type"
  /-- No position is negative. -/
  nonnegative : ∀ entry ∈ entries, entry.1 ≠ "type" → ∀ edit index,
    entry.2 = some (.described edit) → edit.index = some index →
      0 ≤ index.toInt

theorem exists_position_iff (index : Int64) :
    (∃ position : Nat, (position : Int) = index.toInt) ↔ 0 ≤ index.toInt := by
  constructor
  · rintro ⟨position, same⟩
    omega
  · intro nonnegative
    exact ⟨index.toInt.toNat, Int.toNat_of_nonneg nonnegative⟩

theorem CarriesIndex.unique
    {value : Json}
    {left right : Int64}
    (leftCarries : CarriesIndex value left)
    (rightCarries : CarriesIndex value right) : left = right := by
  rw [← inlineIndex_eq_some_iff] at leftCarries rightCarries
  exact Option.some.inj (leftCarries.symm.trans rightCarries)

/-- An edit writes a value unless the position that counts is negative. -/
theorem exists_writes_iff (edit : Edit) (value : Json) :
    (∃ assignment, edit.Writes value assignment) ↔
      edit.append = true ∨
        (∃ index, edit.index = some index ∧ 0 ≤ index.toInt) ∨
        (edit.index = none ∧
          ∀ index, CarriesIndex value index → 0 ≤ index.toInt) := by
  constructor
  · rintro ⟨assignment, writes⟩
    cases writes with
    | append append => exact .inl append
    | replace append _ => exact .inl append
    | @position _ index position _ given same =>
        exact .inr (.inl ⟨index, given,
          (exists_position_iff index).1 ⟨position, same⟩⟩)
    | @inlinePosition members index position _ absent carried same =>
        refine .inr (.inr ⟨absent, fun other carries => ?_⟩)
        rw [carries.unique carried]
        exact (exists_position_iff index).1 ⟨position, same⟩
    | set _ absent uncarried =>
        exact .inr (.inr ⟨absent, fun index carries =>
          absurd carries (uncarried index)⟩)
  · intro allowed
    cases append : edit.append with
    | true =>
        by_cases isList : ∃ items, value = .array items
        · obtain ⟨items, rfl⟩ := isList
          exact ⟨_, .append append⟩
        · exact ⟨_, .replace append (not_exists.1 isList)⟩
    | false =>
        rw [append] at allowed
        rcases allowed with isAppend | ⟨index, given, nonnegative⟩ |
          ⟨absent, carriedOnes⟩
        · cases isAppend
        · obtain ⟨position, same⟩ := (exists_position_iff index).2 nonnegative
          exact ⟨_, .position append given same⟩
        · by_cases carried : ∃ index, CarriesIndex value index
          · obtain ⟨index, carries⟩ := carried
            obtain ⟨position, same⟩ :=
              (exists_position_iff index).2 (carriedOnes index carries)
            obtain ⟨members, _, rfl, _⟩ := id carries
            exact ⟨_, .inlinePosition append absent carries same⟩
          · exact ⟨_, .set append absent (not_exists.1 carried)⟩

theorem exists_assigns_iff (entry : Option EditEntry) :
    (∃ assignment, Assigns entry assignment) ↔
      ∃ edit value, entry = some (.described edit) ∧
        edit.value = some value ∧
        (edit.append = true ∨
          (∃ index, edit.index = some index ∧ 0 ≤ index.toInt) ∨
          (edit.index = none ∧
            ∀ index, CarriesIndex value index → 0 ≤ index.toInt)) := by
  constructor
  · rintro ⟨assignment, edit, value, described, present, writes⟩
    exact ⟨edit, value, described, present,
      (exists_writes_iff edit value).1 ⟨assignment, writes⟩⟩
  · rintro ⟨edit, value, described, present, allowed⟩
    obtain ⟨assignment, writes⟩ := (exists_writes_iff edit value).2 allowed
    exact ⟨assignment, edit, value, described, present, writes⟩

theorem assigns_append_iff (entry : Option EditEntry) (items : List Json) :
    Assigns entry (.append items) ↔
      ∃ edit, entry = some (.described edit) ∧ edit.append = true ∧
        edit.value = some (.array items) := by
  constructor
  · rintro ⟨edit, value, described, present, writes⟩
    cases writes with
    | append append => exact ⟨edit, described, append, present⟩
  · rintro ⟨edit, described, append, present⟩
    exact ⟨edit, _, described, present, .append append⟩

theorem exists_removes_iff (entry : Option EditEntry) :
    (∃ removal, Removes entry removal) ↔
      ∀ edit index, entry = some (.described edit) →
        edit.index = some index → 0 ≤ index.toInt := by
  constructor
  · rintro ⟨removal, removes⟩ edit index rfl given
    cases removes with
    | @item _ other position otherGiven same =>
        obtain rfl := Option.some.inj (given.symm.trans otherGiven)
        exact (exists_position_iff index).1 ⟨position, same⟩
    | field absent =>
        rw [absent edit rfl] at given
        cases given
  · intro nonnegative
    by_cases given : ∃ edit index, entry = some (.described edit) ∧
        edit.index = some index
    · obtain ⟨edit, index, rfl, given⟩ := given
      obtain ⟨position, same⟩ := (exists_position_iff index).2
        (nonnegative edit index rfl given)
      exact ⟨_, .item given same⟩
    · refine ⟨_, .field fun edit described => ?_⟩
      cases index : edit.index with
      | none => rfl
      | some index' => exact absurd ⟨edit, index', described, index⟩ given

/-- What holds of the names of results holds of the names of their entries. -/
theorem forall_name_iff
    {α β : Type}
    {left : List (String × α)}
    {right : List (String × β)}
    (same : Members.names left = Members.names right)
    (property : String → Prop) :
    (∀ entry ∈ left, property entry.1) ↔ ∀ entry ∈ right, property entry.1 := by
  have named : (∀ name ∈ Members.names left, property name) ↔
      ∀ name ∈ Members.names right, property name := by rw [same]
  simpa only [Members.names, List.forall_mem_map] using named

theorem exists_resolvedUpdate_iff
    (config : Config)
    (entries : List (String × Option EditEntry)) :
    (∃ found, ResolvedUpdate config entries found) ↔
      Writable config entries := by
  constructor
  · rintro ⟨found, resolves⟩
    have related := resolves.resolved
    refine ⟨resolves.valid, ?_, ?_, ?_⟩
    · intro nothing
      rw [nothing, List.forall₂_nil_left_iff] at related
      exact resolves.nonempty related
    · intro entry member
      obtain ⟨result, _, assigns⟩ :=
        (exists_forall₂_iff WritesField _).1 ⟨found, related⟩ entry member
      exact (exists_assigns_iff entry.2).1 ⟨result.2, assigns⟩
    · intro entry member edit items described append present
      obtain ⟨result, resultIn, isAppend⟩ := (appends_iff related).1
        ⟨entry, member, items, (assigns_append_iff _ _).2
          ⟨edit, described, append, present⟩⟩
      exact (forall_name_iff resolves.names (· ≠ "emptyList")).1
        (resolves.unclaimed result resultIn isAppend)
  · intro writable
    obtain ⟨found, related⟩ := (exists_forall₂_iff WritesField _).2
      fun entry member => by
        obtain ⟨assignment, assigns⟩ := (exists_assigns_iff entry.2).2
          (writable.resolvable entry member)
        exact ⟨(entry.1, assignment), rfl, assigns⟩
    have names := names_eq_of_forall₂ (fun _ _ writes => writes.1) related
    refine ⟨found, writable.valid, related, ?_, ?_⟩
    · rintro rfl
      exact writable.nonempty (List.forall₂_nil_right_iff.1 related)
    · intro result resultIn isAppend
      obtain ⟨entry, member, items, assigns⟩ :=
        (appends_iff related).2 ⟨result, resultIn, isAppend⟩
      obtain ⟨edit, described, append, present⟩ :=
        (assigns_append_iff _ _).1 assigns
      exact (forall_name_iff names (· ≠ "emptyList")).2
        (writable.unclaimed entry member edit items described append present)

theorem mem_removedEntries_iff
    (entries : List (String × Option EditEntry))
    (entry : String × Option EditEntry) :
    entry ∈ removedEntries entries ↔ entry ∈ entries ∧ entry.1 ≠ "type" := by
  rw [removedEntries, List.mem_filter, decide_eq_true_iff]
  rfl

theorem exists_resolvedRemove_iff
    (entries : List (String × Option EditEntry)) :
    (∃ found, ResolvedRemove entries found) ↔ Removable entries := by
  constructor
  · rintro ⟨found, resolves⟩
    have related := resolves.resolved
    refine ⟨resolves.valid, ?_, ?_⟩
    · have something : removedEntries entries ≠ [] := by
        intro nothing
        rw [nothing, List.forall₂_nil_left_iff] at related
        exact resolves.nonempty related
      obtain ⟨entry, member⟩ := List.exists_mem_of_ne_nil _ something
      exact ⟨entry, (mem_removedEntries_iff _ _).1 member⟩
    · intro entry member named
      have kept := (mem_removedEntries_iff _ _).2 ⟨member, named⟩
      obtain ⟨result, _, removes⟩ :=
        (exists_forall₂_iff RemovesField _).1 ⟨found, related⟩ entry kept
      exact (exists_removes_iff entry.2).1 ⟨result.2, removes⟩
  · intro removable
    obtain ⟨found, related⟩ := (exists_forall₂_iff RemovesField _).2
      fun entry member => by
        obtain ⟨present, named⟩ := (mem_removedEntries_iff _ _).1 member
        obtain ⟨removal, removes⟩ := (exists_removes_iff entry.2).2
          (removable.nonnegative entry present named)
        exact ⟨(entry.1, removal), rfl, removes⟩
    refine ⟨found, removable.valid, related, ?_⟩
    rintro rfl
    obtain ⟨entry, member⟩ := removable.nonempty
    have kept := (mem_removedEntries_iff _ _).2 member
    rw [List.forall₂_nil_right_iff.1 related] at kept
    cases kept

/-! ## Whole conditions -/

/-- The conditions of an update that can be compiled. -/
structure Conditions.Acceptable
    (conditions : Conditions)
    (config : Config) : Prop where
  /-- The table is named. -/
  tableName : ∃ tableName, conditions.tableName = some tableName ∧
    tableName ≠ ""
  /-- The criteria single out an item. -/
  criteria : ∃ criteria, conditions.criteria = some criteria ∧
    SingleOut criteria.entries
  /-- A section is there. -/
  sections : conditions.update ≠ none ∨ conditions.remove ≠ none
  /-- The section that writes can be resolved. -/
  update : ∀ update, conditions.update = some update →
    Writable config update.entries
  /-- The section that removes can be resolved. -/
  remove : ∀ remove, conditions.remove = some remove →
    Removable remove.entries

theorem exists_assignments_iff (conditions : Conditions) (config : Config) :
    (∃ written, assignments config conditions = .ok written) ↔
      (conditions.update ≠ none ∨ conditions.remove ≠ none) ∧
        ∀ update, conditions.update = some update →
          Writable config update.entries := by
  simp only [assignments_eq_ok_iff, ← exists_resolvedUpdate_iff]
  cases conditions.update with
  | none => simp
  | some update =>
      simp only [reduceCtorEq, false_and, false_or, Option.some.injEq, ne_eq,
        not_false_eq_true, true_or, true_and, forall_eq']
      constructor
      · rintro ⟨_, _, found, rfl, _, resolves⟩
        exact ⟨found, resolves⟩
      · rintro ⟨found, resolves⟩
        exact ⟨_, _, found, rfl, rfl, resolves⟩

theorem exists_removals_iff (conditions : Conditions) :
    (∃ removed, removals conditions = .ok removed) ↔
      ∀ remove, conditions.remove = some remove → Removable remove.entries := by
  simp only [removals_eq_ok_iff, ← exists_resolvedRemove_iff]
  cases conditions.remove with
  | none => simp
  | some remove =>
      simp only [reduceCtorEq, false_and, false_or, Option.some.injEq,
        forall_eq']
      constructor
      · rintro ⟨_, _, found, rfl, _, resolves⟩
        exact ⟨found, resolves⟩
      · rintro ⟨found, resolves⟩
        exact ⟨_, _, found, rfl, rfl, resolves⟩

/-- An update compiles exactly if its conditions are acceptable. -/
theorem compile_update_iff
    {conditions : Conditions}
    (config : Config)
    (isUpdate : conditions.operation = some .update) :
    (∃ expression, compile conditions config = .ok expression) ↔
      conditions.Acceptable config := by
  simp only [compile_eq_ok_iff]
  constructor
  · rintro ⟨_, compiles⟩
    obtain ⟨target, primary, written, removed, found, admissible, key,
      resolvedWritten, resolvedRemoved, _⟩ := compiles.of_update isUpdate
    obtain ⟨tableName, nonempty, criteria, _⟩ :=
      (Conditions.target_eq_ok_iff _ _).1 found
    obtain ⟨sections, update⟩ :=
      (exists_assignments_iff _ config).1 ⟨written, resolvedWritten⟩
    exact {
      tableName := ⟨target.tableName, tableName, nonempty⟩
      criteria := ⟨target.criteria, criteria,
        (singleOut_iff _).2 ⟨admissible, primary, key⟩⟩
      sections := sections
      update := update
      remove := (exists_removals_iff _).1 ⟨removed, resolvedRemoved⟩ }
  · intro acceptable
    obtain ⟨tableName, named, nonempty⟩ := acceptable.tableName
    obtain ⟨criteria, present, single⟩ := acceptable.criteria
    obtain ⟨admissible, primary, key⟩ := (singleOut_iff criteria).1 single
    obtain ⟨written, resolvedWritten⟩ := (exists_assignments_iff _ config).2
      ⟨acceptable.sections, acceptable.update⟩
    obtain ⟨removed, resolvedRemoved⟩ :=
      (exists_removals_iff _).2 acceptable.remove
    have found : conditions.target = .ok ⟨tableName, criteria, .update⟩ :=
      (Conditions.target_eq_ok_iff _ _).2 ⟨named, nonempty, present, isUpdate⟩
    exact ⟨_, .update found rfl admissible key resolvedWritten
      resolvedRemoved⟩

/-- A field to remove and an item to remove from a list. -/
def removalAt (position : Int64) : Conditions :=
  Conditions.start "Orders" .update
    |>.withCriterion "id" (.ofPrimary (.string "a"))
    |>.withRemove "note" none
    |>.withRemove "stops" (some (.position position))

/-- Positions of items count from zero. -/
theorem compile_update_iff_removalAt :
    (removalAt 2).Acceptable .default ∧ ¬ (removalAt (-1)).Acceptable .default := by
  constructor
  · have compiled : (compile (removalAt 2) .default).toOption.isSome = true := by
      decide +kernel
    apply (compile_update_iff .default rfl).1
    cases result : compile (removalAt 2) .default with
    | error cause => rw [result] at compiled; cases compiled
    | ok expression => exact ⟨expression, rfl⟩
  · have failed : (compile (removalAt (-1)) .default).toOption = none := by
      decide +kernel
    intro acceptable
    obtain ⟨expression, compiled⟩ :=
      (compile_update_iff .default rfl).2 acceptable
    rw [compiled] at failed
    cases failed

end TableQuery
