import TableQuery.Proofs.Clauses
import TableQuery.Proofs.Resolution

/-!
# The order of entries

Conditions list criteria and edits in an order that compilation keeps: it is that
of the clauses. It shows nowhere else. Conditions that differ by the order of
their entries are compiled or refused together, and what they compile to differs
by the order of the clauses, which follows that of the entries.
-/

namespace TableQuery

variable {α : Type}

/-! ## Maps that list the same entries -/

/-- Optional maps have the same entries in possibly different orders. -/
def SameEntries (left right : Option (FieldMap α)) : Prop :=
  Option.Rel (fun first second => first.entries.Perm second.entries) left right

theorem SameEntries.symm
    {left right : Option (FieldMap α)}
    (same : SameEntries left right) : SameEntries right left := by
  cases same with
  | some perm => exact .some perm.symm
  | none => exact .none

theorem SameEntries.perm
    {left right : Option (FieldMap α)}
    (same : SameEntries left right) :
    ((left.map FieldMap.entries).getD []).Perm
      ((right.map FieldMap.entries).getD []) := by
  cases same with
  | some perm => exact perm
  | none => exact .nil

theorem SameEntries.eq_none_iff
    {left right : Option (FieldMap α)}
    (same : SameEntries left right) : left = none ↔ right = none := by
  cases same <;> simp

theorem SameEntries.exists_of_some
    {left : FieldMap α}
    {right : Option (FieldMap α)}
    (same : SameEntries (some left) right) :
    ∃ other, right = some other ∧ left.entries.Perm other.entries := by
  cases same with
  | some perm => exact ⟨_, rfl, perm⟩

/-! ## Rearranged conditions -/

/-- The same clauses in a possibly different order. -/
structure Clauses.Perm (left right : Clauses) : Prop where
  /-- Those that filter. -/
  filtering : left.filtering.Perm right.filtering
  /-- Those that write. -/
  writing : left.writing.Perm right.writing
  /-- Those that remove. -/
  removing : left.removing.Perm right.removing

namespace Conditions

/-- Two conditions differ in nothing but the order of criteria and edits. -/
structure Rearranges (left right : Conditions) : Prop where
  /-- The tables are the same. -/
  tableName : left.tableName = right.tableName
  /-- The criteria are the same but for their order. -/
  criteria : SameEntries left.criteria right.criteria
  /-- The entries that write are the same but for their order. -/
  update : SameEntries left.update right.update
  /-- The entries that remove are the same but for their order. -/
  remove : SameEntries left.remove right.remove
  /-- The projected fields are the same. -/
  fields : left.fields = right.fields
  /-- The operations are the same. -/
  operation : left.operation = right.operation
  /-- The options of a write are the same. -/
  returnValues : left.returnValues = right.returnValues
  /-- The keys behind which to go on are the same. -/
  lastEvaluatedKey : left.lastEvaluatedKey = right.lastEvaluatedKey

theorem Rearranges.symm
    {left right : Conditions}
    (rearranges : left.Rearranges right) : right.Rearranges left where
  tableName := rearranges.tableName.symm
  criteria := rearranges.criteria.symm
  update := rearranges.update.symm
  remove := rearranges.remove.symm
  fields := rearranges.fields.symm
  operation := rearranges.operation.symm
  returnValues := rearranges.returnValues.symm
  lastEvaluatedKey := rearranges.lastEvaluatedKey.symm

/-- The clauses are rearranged as the entries are. -/
theorem Rearranges.clauses
    {left right : Conditions}
    (rearranges : left.Rearranges right)
    (config : Config) :
    (left.clauses config).Perm (right.clauses config) := by
  have criteria := rearranges.criteria.perm
  have update := rearranges.update.perm
  have remove := rearranges.remove.perm
  unfold Conditions.clauses
  rw [rearranges.operation]
  split
  · exact ⟨.nil, .nil, .nil⟩
  · exact ⟨.nil, (update.filter _).map _, (remove.filter _).map _⟩
  · exact ⟨(criteria.filter _).map _, .nil, .nil⟩

/-- What shows in the text is listed in the same order: the criteria that the
operation takes for filters, the entries that write and those that remove. -/
structure SameOrder (left right : Conditions) : Prop where
  /-- The filters are in the same order. -/
  criteria : ∀ operation, left.operation = some operation →
    left.criteriaEntries.filter (Selection.isFilter operation) =
      right.criteriaEntries.filter (Selection.isFilter operation)
  /-- The entries that write are in the same order. -/
  update : sectionEntries left.update = sectionEntries right.update
  /-- The entries that remove are in the same order. -/
  remove : sectionEntries left.remove = sectionEntries right.remove

theorem Rearranges.clauses_eq
    {left right : Conditions}
    (rearranges : left.Rearranges right)
    (sameOrder : left.SameOrder right)
    (config : Config) : left.clauses config = right.clauses config := by
  unfold Conditions.clauses
  rw [← rearranges.operation, sameOrder.update, sameOrder.remove]
  split
  · rfl
  · rfl
  · next operation _ isOperation => rw [sameOrder.criteria operation isOperation]

theorem Rearranges.target
    {left right : Conditions}
    (rearranges : left.Rearranges right)
    {target : Target}
    (found : left.target = .ok target) :
    ∃ criteria, right.target = .ok { target with criteria := criteria } ∧
      target.criteria.entries.Perm criteria.entries := by
  obtain ⟨tableName, nonempty, given, operation⟩ :=
    (target_eq_ok_iff _ _).1 found
  have same := rearranges.criteria
  rw [given] at same
  obtain ⟨criteria, otherGiven, perm⟩ := same.exists_of_some
  refine ⟨criteria, (target_eq_ok_iff _ _).2 ⟨?_, nonempty, otherGiven, ?_⟩,
    perm⟩
  · rw [← rearranges.tableName, tableName]
  · rw [← rearranges.operation, operation]

end Conditions

/-! ## Selecting expressions -/

namespace Selection

variable {operation : Operation} {left right : FieldMap Criterion}
  (perm : left.entries.Perm right.entries)

include perm

theorem admissible_of_perm
    (admissible : ∀ entry ∈ left.entries, Admissible operation entry) :
    ∀ entry ∈ right.entries, Admissible operation entry :=
  fun entry member => admissible entry (perm.mem_iff.2 member)

theorem filtersOf_perm :
    (filtersOf operation left.entries).Perm
      (filtersOf operation right.entries) :=
  (perm.filter _).map _

/-- The one primary key stays the one primary key. -/
theorem keys_eq_of_perm
    {primary : String × Json}
    (key : keys operation left.entries = [primary]) :
    keys operation right.entries = [primary] := by
  have same : (keys operation left.entries).Perm
      (keys operation right.entries) :=
    (perm.filter _).map _
  rw [key] at same
  exact List.perm_singleton.1 same.symm

omit perm in
/-- A field that is selected has one value. -/
theorem agree_selected
    (primary : Option (String × Json))
    (key : keys operation left.entries = primary.toList)
    (field : String)
    (value other : Json)
    (member : (field, value) ∈
      primary.toList ++ filtersOf operation left.entries)
    (otherMember : (field, other) ∈
      primary.toList ++ filtersOf operation left.entries) :
    other = value := by
  rw [← key] at member otherMember
  exact agree member otherMember

end Selection

/-- The order of filters only shows in the text of the filter. -/
theorem readExpression_eq_of_perm
    {target other : Target}
    (tableName : target.tableName = other.tableName)
    (startKey : Option (FieldMap Json))
    {primary : Option (String × Json)}
    {filters others : List (String × Json)}
    (agree : ∀ field value other, (field, value) ∈ primary.toList ++ filters →
      (field, other) ∈ primary.toList ++ filters → other = value)
    (perm : filters.Perm others)
    (projected : List String) :
    { readExpression other startKey primary others projected with
      filter := (readExpression target startKey primary filters
        projected).filter } =
      readExpression target startKey primary filters projected := by
  have selected : (primary.toList ++ filters).Perm
      (primary.toList ++ others) := perm.append_left _
  have names : aliases (Members.names (primary.toList ++ others) ++ projected) =
      aliases (Members.names (primary.toList ++ filters) ++ projected) := by
    refine aliases_eq_of_mem_iff fun field => ?_
    simp only [List.mem_append, Members.names, List.mem_map, perm.mem_iff]
  have values := placeholders_eq_of_perm agree selected
  simp only [readExpression, names, values, tableName]

/-! ## Editing expressions -/

/-- Entries are resolved in any order, with their results in this order. -/
theorem ResolvedUpdate.exists_of_perm
    {config : Config}
    {entries others : List (String × Option EditEntry)}
    {found : List (String × Assignment)}
    (resolves : ResolvedUpdate config entries found)
    (perm : entries.Perm others) :
    ∃ written, ResolvedUpdate config others written ∧ found.Perm written := by
  obtain ⟨written, related, permuted⟩ :=
    exists_forall₂_of_perm resolves.resolved (perm.filter _)
  refine ⟨written, ⟨?_, related, ?_, ?_⟩, permuted⟩
  · exact fun entry member => resolves.valid entry (perm.mem_iff.2 member)
  · rintro rfl
    exact resolves.nonempty permuted.eq_nil
  · -- Whether the placeholder of the empty list is claimed is asked of all pairs.
    intro entry member append other otherMember
    exact resolves.unclaimed entry (permuted.mem_iff.2 member) append other
      (permuted.mem_iff.2 otherMember)

theorem ResolvedRemove.exists_of_perm
    {entries others : List (String × Option EditEntry)}
    {found : List (String × Removal)}
    (resolves : ResolvedRemove entries found)
    (perm : entries.Perm others) :
    ∃ removed, ResolvedRemove others removed ∧ found.Perm removed := by
  obtain ⟨removed, related, permuted⟩ :=
    exists_forall₂_of_perm resolves.resolved (perm.filter _)
  refine ⟨removed, ⟨?_, related, ?_⟩, permuted⟩
  · exact fun entry member => resolves.valid entry (perm.mem_iff.2 member)
  · rintro rfl
    exact resolves.nonempty permuted.eq_nil

namespace Conditions.Rearranges

variable {left right : Conditions} {config : Config}
  (rearranges : left.Rearranges right)

include rearranges

theorem assignments
    {written : Option (List (String × Assignment))}
    (resolved : TableQuery.assignments config left = .ok written) :
    ∃ others, TableQuery.assignments config right = .ok others ∧
      (written.getD []).Perm (others.getD []) := by
  have update := rearranges.update
  rcases (assignments_eq_ok_iff _ _ _).1 resolved with
    ⟨absent, present, rfl⟩ | ⟨entries, found, given, rfl, resolves⟩
  · refine ⟨none, (assignments_eq_ok_iff _ _ _).2 (.inl ⟨?_, ?_, rfl⟩), .nil⟩
    · exact update.eq_none_iff.1 absent
    · exact fun noRemove => present (rearranges.remove.eq_none_iff.2 noRemove)
  · rw [given] at update
    obtain ⟨others, otherGiven, perm⟩ := update.exists_of_some
    obtain ⟨rearranged, resolvesOthers, permuted⟩ :=
      resolves.exists_of_perm perm
    exact ⟨some rearranged, (assignments_eq_ok_iff _ _ _).2
      (.inr ⟨others, rearranged, otherGiven, rfl, resolvesOthers⟩), permuted⟩

theorem removals
    {removed : Option (List (String × Removal))}
    (resolved : TableQuery.removals left = .ok removed) :
    ∃ others, TableQuery.removals right = .ok others ∧
      (removed.getD []).Perm (others.getD []) := by
  have remove := rearranges.remove
  rcases (removals_eq_ok_iff _ _).1 resolved with
    ⟨absent, rfl⟩ | ⟨entries, found, given, rfl, resolves⟩
  · exact ⟨none, (removals_eq_ok_iff _ _).2
      (.inl ⟨remove.eq_none_iff.1 absent, rfl⟩), .nil⟩
  · rw [given] at remove
    obtain ⟨others, otherGiven, perm⟩ := remove.exists_of_some
    obtain ⟨rearranged, resolvesOthers, permuted⟩ :=
      resolves.exists_of_perm perm
    exact ⟨some rearranged, (removals_eq_ok_iff _ _).2
      (.inr ⟨others, rearranged, otherGiven, rfl, resolvesOthers⟩), permuted⟩

end Conditions.Rearranges

/-- No placeholder of an update stands for two values. -/
theorem WrittenSection.agree
    {config : Config}
    {update : Option EditMap}
    {written : List (String × Assignment)}
    (writes : WrittenSection config update written)
    (token : String)
    (value other : Json)
    (member : (token, value) ∈ written.flatMap fun entry =>
      entry.2.bindings entry.1)
    (otherMember : (token, other) ∈ written.flatMap fun entry =>
      entry.2.bindings entry.1) :
    other = value := by
  -- Whatever is bound is found in the collected map, which has one value.
  have found : ∀ {value : Json}, (token, value) ∈ written.flatMap
        (fun entry => entry.2.bindings entry.1) →
      (SortedMap.ofList (written.flatMap fun entry =>
        entry.2.bindings entry.1)).get? token = some value := by
    intro value member
    rcases (mem_bindings_iff _ _ _).1 member with
      ⟨entry, present, rfl, rfl⟩ | ⟨rfl, rfl, entry, present, append⟩
    · exact get?_bindings writes.distinct writes.unclaimed present
    · exact get?_emptyListPlaceholder writes.unclaimed present append
  exact Option.some.inj ((found otherMember).symm.trans (found member))

/-- The order of edits only shows in the text of the update. -/
theorem writeExpression_eq_of_perm
    {target other : Target}
    (tableName : target.tableName = other.tableName)
    (returnValues : Option ReturnValues)
    (key : String × Json)
    {config : Config}
    {update : Option EditMap}
    {written others : List (String × Assignment)}
    (writes : WrittenSection config update written)
    (perm : written.Perm others)
    {removed otherRemoved : List (String × Removal)}
    (permRemoved : removed.Perm otherRemoved)
    (text otherText : String) :
    { writeExpression other returnValues key others otherRemoved otherText with
      update := (writeExpression target returnValues key written removed
        text).update } =
      writeExpression target returnValues key written removed text := by
  have names : aliases (Members.names others ++ Members.names otherRemoved) =
      aliases (Members.names written ++ Members.names removed) := by
    refine aliases_eq_of_mem_iff fun field => ?_
    simp only [List.mem_append, Members.names, List.mem_map, perm.mem_iff,
      permRemoved.mem_iff]
  have values := SortedMap.ofList_eq_of_mem_iff writes.agree
    fun member => (perm.flatMap_right fun entry =>
      entry.2.bindings entry.1).mem_iff
  simp only [writeExpression, names, values, tableName]

/-! ## Compiled expressions -/

/-- Rearranged conditions compile as well, to an expression that only differs by
its texts. -/
theorem Compiles.rearranged
    {left right : Conditions}
    (rearranges : left.Rearranges right)
    {config : Config}
    {expression : Expression}
    (compiles : Compiles left config expression) :
    ∃ other, Compiles right config other ∧
      { other with
        filter := expression.filter
        update := expression.update } = expression := by
  cases compiles with
  | scan found operation admissible projectable =>
      obtain ⟨criteria, otherFound, perm⟩ := rearranges.target found
      rw [rearranges.fields] at projectable
      rw [rearranges.fields, rearranges.lastEvaluatedKey]
      exact ⟨_, .scan otherFound operation
          (Selection.admissible_of_perm perm admissible) projectable,
        readExpression_eq_of_perm rfl _
          (Selection.agree_selected none (Selection.keys_scan _))
          (Selection.filtersOf_perm perm) _⟩
  | @query target primary found operation admissible key projectable =>
      obtain ⟨criteria, otherFound, perm⟩ := rearranges.target found
      rw [rearranges.fields] at projectable
      rw [rearranges.fields, rearranges.lastEvaluatedKey]
      exact ⟨_, .query otherFound operation
          (Selection.admissible_of_perm perm admissible)
          (Selection.keys_eq_of_perm perm key) projectable,
        readExpression_eq_of_perm rfl _
          (Selection.agree_selected (some primary) key)
          (Selection.filtersOf_perm perm) _⟩
  | update found operation admissible key resolvedWritten resolvedRemoved =>
      obtain ⟨criteria, otherFound, perm⟩ := rearranges.target found
      obtain ⟨written, otherWritten, permWritten⟩ :=
        rearranges.assignments resolvedWritten
      obtain ⟨removed, otherRemoved, permRemoved⟩ :=
        rearranges.removals resolvedRemoved
      rw [rearranges.returnValues]
      exact ⟨_, .update otherFound operation
          (Selection.admissible_of_perm perm admissible)
          (Selection.keys_eq_of_perm perm key) otherWritten otherRemoved,
        writeExpression_eq_of_perm rfl _ _
          (writtenSection resolvedWritten).1 permWritten permRemoved _ _⟩

/-- Conditions that list the same entries in different orders are compiled or
refused together. What they compile to differs by the order of the clauses, which
is that of the entries, and not at all if whatever has a clause is listed in the
same order. -/
theorem compile_rearranged
    {left right : Conditions}
    (rearranges : left.Rearranges right)
    (config : Config) :
    ((∃ expression, compile left config = .ok expression) ↔
      ∃ expression, compile right config = .ok expression) ∧
    ∀ expression other, compile left config = .ok expression →
      compile right config = .ok other →
        expression.Spells (left.clauses config) ∧
        other.Spells (right.clauses config) ∧
        (left.clauses config).Perm (right.clauses config) ∧
        { other with
          filter := expression.filter
          update := expression.update } = expression ∧
        (left.SameOrder right → other = expression) := by
  simp only [compile_eq_ok_iff]
  constructor
  · constructor
    · rintro ⟨_, compiles⟩
      obtain ⟨other, rearranged, _⟩ := compiles.rearranged rearranges
      exact ⟨other, rearranged⟩
    · rintro ⟨_, compiles⟩
      obtain ⟨other, rearranged, _⟩ := compiles.rearranged rearranges.symm
      exact ⟨other, rearranged⟩
  · intro expression other compiles otherCompiles
    obtain ⟨again, rearranged, same⟩ := compiles.rearranged rearranges
    obtain rfl : other = again :=
      Except.ok.inj (((compile_eq_ok_iff _ _ _).2 otherCompiles).symm.trans
        ((compile_eq_ok_iff _ _ _).2 rearranged))
    have spells := compiles.spells
    have otherSpells := otherCompiles.spells
    refine ⟨spells, otherSpells, rearranges.clauses config, same, ?_⟩
    intro sameOrder
    rw [rearranges.clauses_eq sameOrder] at spells
    obtain ⟨filter, update⟩ := spells.unique otherSpells
    rw [filter, update] at same
    exact same

/-- Conditions with two criteria, one of them marked as the primary key. -/
def markedFirst (operation : Operation) : Conditions :=
  Conditions.start "Orders" operation
    |>.withCriterion "id" (.ofPrimary (.string "a"))
    |>.withCriterion "kind" (.ofEqual (.string "b"))

/-- The same with the marked criterion behind the other one. -/
def markedLast (operation : Operation) : Conditions :=
  Conditions.start "Orders" operation
    |>.withCriterion "kind" (.ofEqual (.string "b"))
    |>.withCriterion "id" (.ofPrimary (.string "a"))

theorem rearranges_marked (operation : Operation) :
    (markedFirst operation).Rearranges (markedLast operation) where
  tableName := rfl
  criteria := .some (.swap _ _ _)
  update := .none
  remove := .none
  fields := rfl
  operation := rfl
  returnValues := rfl
  lastEvaluatedKey := rfl

/-- The marked criterion of a query may be moved. -/
theorem compile_rearranged_marked :
    ∃ expression, compile (markedFirst .query) .default = .ok expression ∧
      compile (markedLast .query) .default = .ok expression := by
  have accepts : ∃ expression,
      compile (markedFirst .query) .default = .ok expression := by
    rw [exists_ok_iff]
    decide +kernel
  have sameOrder : (markedFirst .query).SameOrder (markedLast .query) := by
    refine ⟨?_, rfl, rfl⟩
    rintro _ ⟨⟩
    decide +kernel
  obtain ⟨together, outputs⟩ :=
    compile_rearranged (rearranges_marked .query) .default
  obtain ⟨expression, compiled⟩ := accepts
  obtain ⟨other, otherCompiled⟩ := together.1 ⟨expression, compiled⟩
  obtain ⟨_, _, _, _, identical⟩ :=
    outputs expression other compiled otherCompiled
  exact ⟨expression, compiled, identical sameOrder ▸ otherCompiled⟩

/-- That of a scan may not, as it filters like the other one. -/
theorem compile_rearranged_scan :
    (markedFirst .scan).Rearranges (markedLast .scan) ∧
      ((markedFirst .scan).criteriaEntries.filter fun entry =>
          ¬ entry.2.isPrimary) =
        ((markedLast .scan).criteriaEntries.filter fun entry =>
          ¬ entry.2.isPrimary) ∧
      (compile (markedFirst .scan) .default).toOption.bind Expression.filter =
        some "#id = :id and #kind = :kind" ∧
      (compile (markedLast .scan) .default).toOption.bind Expression.filter =
        some "#kind = :kind and #id = :id" := by
  refine ⟨rearranges_marked .scan, ?_, ?_, ?_⟩ <;> decide +kernel

end TableQuery
