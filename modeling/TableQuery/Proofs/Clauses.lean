import TableQuery.Proofs.Assembly

/-!
# Clauses of conditions

Every criterion that filters and every edit has a clause that depends on nothing
else, neither on the entries around it nor on where it stands. The texts of a
compiled expression are these clauses, joined in the order of the entries.
-/

namespace TableQuery

/-- The clause of an entry that writes. -/
def writingClause (entry : String × Option EditEntry) : String :=
  match requireValue entry.1 entry.2 >>= fun required =>
      resolveAssignment entry.1 required.1 required.2 with
  | .ok assignment => assignment.clause entry.1
  | .error _ => ""

/-- The clause of an entry that removes. -/
def removingClause (entry : String × Option EditEntry) : String :=
  match resolveRemoval entry.1 entry.2 with
  | .ok removal => removal.clause entry.1
  | .error _ => ""

theorem WritesField.clause
    {entry : String × Option EditEntry}
    {result : String × Assignment}
    (writes : WritesField entry result) :
    result.2.clause result.1 = writingClause entry := by
  obtain ⟨sameName, assigns⟩ := writes
  obtain ⟨required, present, resolved⟩ := (assigns_iff entry.1 _ _).1 assigns
  rw [writingClause, present, ok_bind, resolved, sameName]

theorem RemovesField.clause
    {entry : String × Option EditEntry}
    {result : String × Removal}
    (removes : RemovesField entry result) :
    result.2.clause result.1 = removingClause entry := by
  obtain ⟨sameName, removesEntry⟩ := removes
  rw [removingClause, (resolveRemoval_eq_ok_iff _ _ _).2 removesEntry, sameName]

/-- Clauses, in the order in which they are joined. -/
structure Clauses where
  /-- Those that filter. -/
  filtering : List String
  /-- Those that write. -/
  writing : List String
  /-- Those that remove. -/
  removing : List String

/-- The texts of an expression are the given clauses, joined. -/
structure Expression.Spells
    (expression : Expression)
    (clauses : Clauses) : Prop where
  /-- The filter is made of the clauses that filter. -/
  filter : expression.filter = joined " and " clauses.filtering
  /-- The update is made of the clauses that write and those that remove. -/
  update : expression.update = joined " "
    (((joined ", " clauses.writing).map ("SET " ++ ·)).toList ++
      ((joined ", " clauses.removing).map ("REMOVE " ++ ·)).toList)

/-- The same clauses are joined to the same texts. -/
theorem Expression.Spells.unique
    {left right : Expression}
    {clauses : Clauses}
    (leftSpells : left.Spells clauses)
    (rightSpells : right.Spells clauses) :
    left.filter = right.filter ∧ left.update = right.update :=
  ⟨leftSpells.filter.trans rightSpells.filter.symm,
    leftSpells.update.trans rightSpells.update.symm⟩

namespace Conditions

/-- The criteria of conditions, of which there are none if they are missing. -/
def criteriaEntries (conditions : Conditions) : List (String × Criterion) :=
  (conditions.criteria.map FieldMap.entries).getD []

/-- The clauses of conditions: one for each criterion that filters or for each
entry that writes or removes, in the order of the entries. -/
def clauses (conditions : Conditions) (config : Config) : Clauses :=
  match conditions.operation with
  | none => ⟨[], [], []⟩
  | some .update =>
      ⟨[], (writtenEntries config (sectionEntries conditions.update)).map
          writingClause,
        (removedEntries (sectionEntries conditions.remove)).map
          removingClause⟩
  | some operation =>
      ⟨(conditions.criteriaEntries.filter (Selection.isFilter operation)).map
        fun entry => equality entry.1, [], []⟩

end Conditions

/-! ## Compiled expressions -/

theorem criteriaEntries_of_target
    {conditions : Conditions}
    {target : Target}
    (found : conditions.target = .ok target) :
    conditions.criteriaEntries = target.criteria.entries := by
  obtain ⟨_, _, given, _⟩ := (Conditions.target_eq_ok_iff _ _).1 found
  rw [Conditions.criteriaEntries, given]
  rfl

theorem spells_readExpression
    {conditions : Conditions}
    {target : Target}
    {operation : Operation}
    (found : conditions.target = .ok target)
    (isOperation : target.operation = operation)
    (selects : operation ≠ .update)
    (config : Config)
    (startKey : Option (FieldMap Json))
    (primary : Option (String × Json))
    (projected : List String) :
    (readExpression target startKey primary
      (Selection.filtersOf operation target.criteria.entries)
      projected).Spells (conditions.clauses config) := by
  have filtering : conditions.clauses config =
      ⟨(conditions.criteriaEntries.filter (Selection.isFilter operation)).map
        fun entry => equality entry.1, [], []⟩ := by
    rw [Conditions.clauses, Conditions.operation_of_target found isOperation]
    cases operation with
    | update => exact absurd rfl selects
    | query => rfl
    | scan => rfl
  rw [filtering, criteriaEntries_of_target found]
  refine ⟨?_, rfl⟩
  simp [readExpression, Selection.filtersOf, Selection.valued,
    Function.comp_def]

theorem spells_writeExpression
    {conditions : Conditions}
    (isUpdate : conditions.operation = some .update)
    {config : Config}
    {written : Option (List (String × Assignment))}
    {removed : Option (List (String × Removal))}
    (resolvedWritten : assignments config conditions = .ok written)
    (resolvedRemoved : removals conditions = .ok removed)
    (target : Target)
    (key : String × Json) :
    (writeExpression target conditions.returnValues key (written.getD [])
      (removed.getD []) (updateText (written.getD [])
        (removed.getD []))).Spells (conditions.clauses config) := by
  have writing : (written.getD []).map (fun entry =>
      entry.2.clause entry.1) = _ :=
    map_eq_of_forall₂ (fun _ _ writes => writes.clause)
      (writtenSection resolvedWritten).1.resolved
  have removing : (removed.getD []).map (fun entry =>
      entry.2.clause entry.1) = _ :=
    map_eq_of_forall₂ (fun _ _ removes => removes.clause)
      (removedSection resolvedRemoved).resolved
  rw [Conditions.clauses, isUpdate]
  refine ⟨rfl, ?_⟩
  rw [← writing, ← removing]
  exact (joined_fragments
    (sections_nonempty resolvedWritten resolvedRemoved)).symm

/-- The texts of a compiled expression are made of the clauses of its
conditions. -/
theorem Compiles.spells
    {conditions : Conditions}
    {config : Config}
    {expression : Expression}
    (compiles : Compiles conditions config expression) :
    expression.Spells (conditions.clauses config) := by
  cases compiles with
  | scan found operation _ _ =>
      exact spells_readExpression found operation (by decide) config _ _ _
  | query found operation _ _ _ =>
      exact spells_readExpression found operation (by decide) config _ _ _
  | update found operation _ _ resolvedWritten resolvedRemoved =>
      exact spells_writeExpression
        (Conditions.operation_of_target found operation) resolvedWritten
        resolvedRemoved _ _

end TableQuery
