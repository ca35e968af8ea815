import TableQuery.Proofs.Refusals

/-!
# Parts that an operation does not use

Conditions may say more than their operation asks for. A scan or a query comes to
the same, failures included, whatever the conditions say about edits and
whatever is configured. An update comes to the same whatever they say about
projected fields and about where to go on, and whatever criteria stand beside
the primary key, provided that these would be no reason to refuse it.
-/

namespace TableQuery

namespace Selection

/-- A criterion that an update passes over: the implied operator, or one that is
neither marked nor refused and has a name that could be spliced. -/
def Idle (entry : String × Criterion) : Prop :=
  entry.1 = "and" ∨
    entry.2.isPrimary = false ∧ entry.1 ≠ "or" ∧ ValidName entry.1

instance : DecidablePred Idle := fun entry =>
  inferInstanceAs (Decidable (entry.1 = "and" ∨
    entry.2.isPrimary = false ∧ entry.1 ≠ "or" ∧ ValidName entry.1))

/-- The criteria that decide what becomes of an update. -/
def usedCriteria (criteria : FieldMap Criterion) : List (String × Criterion) :=
  criteria.entries.filter fun entry => ¬ Idle entry

/-! ## The primary key of an update -/

/-- The primary key behind one more criterion. -/
def takeKey (primary : Option (String × Json)) (entry : String × Criterion) :
    Except CompileError (Option (String × Json)) :=
  (add .update ⟨primary, []⟩ entry).map Selection.primary

/-- The filters before a criterion do not matter for the primary key. -/
theorem map_primary_add
    (selection : Selection)
    (entry : String × Criterion) :
    (add .update selection entry).map Selection.primary =
      takeKey selection.primary entry := by
  obtain ⟨primary, filters⟩ := selection
  obtain ⟨field, criterion⟩ := entry
  unfold takeKey add
  by_cases implied : field = impliedOperator
  · simp only [if_pos implied]
    rfl
  by_cases refused : field = refusedOperator
  · simp only [if_neg implied, if_pos refused, Except.map]
  by_cases marked : Operation.update ≠ .scan ∧ criterion.isPrimary = true
  · simp only [if_neg implied, if_neg refused, if_pos marked]
    cases primary <;> rfl
  · simp only [if_neg implied, if_neg refused, if_neg marked]
    cases checkFieldName field <;> rfl

theorem takeKey_of_idle
    (primary : Option (String × Json))
    {entry : String × Criterion}
    (idle : Idle entry) : takeKey primary entry = .ok primary := by
  obtain ⟨field, criterion⟩ := entry
  unfold takeKey add
  by_cases implied : field = impliedOperator
  · simp only [if_pos implied]
    rfl
  obtain ⟨unmarked, notRefused, valid⟩ := idle.resolve_left implied
  have notKey : ¬ (Operation.update ≠ .scan ∧ criterion.isPrimary = true) := by
    rw [unmarked]
    exact fun marked => Bool.false_ne_true marked.2
  have notOr : field ≠ refusedOperator := notRefused
  simp only [if_neg implied, if_neg notOr, if_neg notKey,
    (checkFieldName_eq_ok field).2 valid]
  rfl

/-- The primary key is found step by step. -/
theorem map_primary_foldlM
    (entries : List (String × Criterion))
    (selection : Selection) :
    (entries.foldlM (add .update) selection).map Selection.primary =
      entries.foldlM takeKey selection.primary := by
  induction entries generalizing selection with
  | nil => rfl
  | cons entry entries hypothesis =>
      rw [List.foldlM_cons, List.foldlM_cons, ← map_primary_add]
      cases add .update selection entry with
      | error cause => rfl
      | ok next => exact hypothesis next

/-- Criteria that are passed over may be left out. -/
theorem foldlM_takeKey_filter
    (entries : List (String × Criterion))
    (primary : Option (String × Json)) :
    (entries.filter fun entry => ¬ Idle entry).foldlM takeKey primary =
      entries.foldlM takeKey primary := by
  induction entries generalizing primary with
  | nil => rfl
  | cons entry entries hypothesis =>
      by_cases idle : Idle entry
      · rw [List.filter_cons_of_neg (by simpa using idle), List.foldlM_cons,
          takeKey_of_idle primary idle, ok_bind, hypothesis]
      · rw [List.filter_cons_of_pos (by simpa using idle), List.foldlM_cons,
          List.foldlM_cons]
        exact bind_congr fun next => hypothesis next

/-- The primary key of an update depends on the used criteria only. -/
theorem map_fst_ofKeyedCriteria (criteria : FieldMap Criterion) :
    (ofKeyedCriteria .update criteria).map Prod.fst =
      (do
        let primary ← (usedCriteria criteria).foldlM takeKey none
        requirePrimary ⟨primary, []⟩) := by
  have step := map_primary_foldlM criteria.entries Selection.empty
  rw [usedCriteria, foldlM_takeKey_filter]
  change _ = criteria.entries.foldlM takeKey none at step
  rw [← step, ofKeyedCriteria, ofCriteria]
  cases criteria.entries.foldlM (add .update) Selection.empty with
  | error cause => rfl
  | ok selection =>
      obtain ⟨primary, filters⟩ := selection
      cases primary <;> rfl

end Selection

/-! ## Conditions that differ in idle parts -/

namespace Conditions

/-- Conditions that select alike: they differ at most in what they say about
edits. -/
structure SelectAlike (left right : Conditions) : Prop where
  /-- The tables are the same. -/
  tableName : left.tableName = right.tableName
  /-- The criteria are the same. -/
  criteria : left.criteria = right.criteria
  /-- The projected fields are the same. -/
  fields : left.fields = right.fields
  /-- The operations are the same. -/
  operation : left.operation = right.operation
  /-- The keys behind which to go on are the same. -/
  lastEvaluatedKey : left.lastEvaluatedKey = right.lastEvaluatedKey

/-- Conditions that edit alike: they differ at most in the projected fields, in
where to go on and in criteria that an update passes over. -/
structure EditAlike (left right : Conditions) : Prop where
  /-- The tables are the same. -/
  tableName : left.tableName = right.tableName
  /-- The criteria that an update uses are the same, in the same order. -/
  criteria : left.criteria.map Selection.usedCriteria =
    right.criteria.map Selection.usedCriteria
  /-- The fields to write are the same. -/
  update : left.update = right.update
  /-- The fields to remove are the same. -/
  remove : left.remove = right.remove
  /-- The operations are the same. -/
  operation : left.operation = right.operation
  /-- The attributes to return are the same. -/
  returnValues : left.returnValues = right.returnValues

variable {left right : Conditions}

/-- Whatever is no update is compiled without a look at edits and settings. -/
theorem SelectAlike.compileStaged_eq
    (alike : left.SelectAlike right)
    (selects : left.operation ≠ some .update)
    (config other : Config) :
    compileStaged left config = compileStaged right other := by
  have targets : left.target = right.target := by
    simp only [target, alike.tableName, alike.criteria, alike.operation]
  unfold compileStaged
  rw [targets]
  cases found : right.target with
  | error cause => rfl
  | ok target =>
      simp only [Stage.run_ok, ok_bind]
      cases operation : target.operation with
      | scan => simp only [compileScan, alike.fields, alike.lastEvaluatedKey]
      | query => simp only [compileQuery, alike.fields, alike.lastEvaluatedKey]
      | update =>
          have isUpdate := operation_of_target (targets.trans found) operation
          exact absurd isUpdate selects

/-- The targets of two updates that edit alike are equal up to criteria that are
passed over. -/
theorem EditAlike.target
    (alike : left.EditAlike right)
    (isUpdate : left.operation = some .update) :
    (∃ cause, left.target = .error cause ∧ right.target = .error cause) ∨
      ∃ tableName criteria others,
        left.target = .ok ⟨tableName, criteria, .update⟩ ∧
          right.target = .ok ⟨tableName, others, .update⟩ ∧
          Selection.usedCriteria criteria = Selection.usedCriteria others := by
  have isUpdateToo : right.operation = some .update :=
    alike.operation.symm.trans isUpdate
  have used := alike.criteria
  simp only [Conditions.target, alike.tableName, isUpdate, isUpdateToo]
  cases right.tableName with
  | none => exact .inl ⟨_, rfl, rfl⟩
  | some tableName =>
      by_cases empty : tableName.isEmpty = true
      · simp only [if_pos empty]
        exact .inl ⟨_, rfl, rfl⟩
      simp only [if_neg empty]
      cases given : left.criteria <;> cases givenToo : right.criteria <;>
        rw [given, givenToo] at used
      case none.none => exact .inl ⟨_, rfl, rfl⟩
      case none.some => cases used
      case some.none => cases used
      case some.some criteria others =>
        exact .inr ⟨tableName, criteria, others, rfl, rfl,
          Option.some.inj used⟩

/-- An update is compiled without a look at anything but its edits and the
criteria that it uses. -/
theorem EditAlike.compile_eq
    (alike : left.EditAlike right)
    (isUpdate : left.operation = some .update)
    (config : Config) :
    compile left config = compile right config := by
  have isUpdateToo : right.operation = some .update :=
    alike.operation.symm.trans isUpdate
  have written : assignments config left = assignments config right := by
    simp only [assignments, alike.update, alike.remove]
  have removed : removals left = removals right := by
    simp only [removals, alike.remove]
  rw [compile_eq_of_update config isUpdate,
    compile_eq_of_update config isUpdateToo, written, removed,
    alike.returnValues]
  rcases alike.target isUpdate with ⟨cause, failed, failedToo⟩ |
    ⟨tableName, criteria, others, found, foundToo, used⟩
  · rw [failed, failedToo]
  have keys : (Selection.ofKeyedCriteria .update criteria).map Prod.fst =
      (Selection.ofKeyedCriteria .update others).map Prod.fst := by
    rw [Selection.map_fst_ofKeyedCriteria, used,
      ← Selection.map_fst_ofKeyedCriteria]
  rw [found, foundToo, ok_bind, ok_bind]
  cases split : Selection.ofKeyedCriteria .update criteria <;>
    cases splitToo : Selection.ofKeyedCriteria .update others <;>
    rw [split, splitToo] at keys
  case error.error => cases keys; rfl
  case error.ok => cases keys
  case ok.error => cases keys
  case ok.ok parts partsToo =>
    obtain ⟨primary, filters⟩ := parts
    obtain ⟨primaryToo, filtersToo⟩ := partsToo
    cases keys
    rfl

end Conditions

/-- Parts that an operation does not use have no influence on what it is compiled
to or refused for: those about edits and the configuration on whatever is no
update, and those about projection, paging and other criteria than the primary
key on an update. -/
theorem compile_idle_parts
    {left right : Conditions} :
    (left.operation ≠ some .update → left.SelectAlike right →
      ∀ config other, compile left config = compile right other) ∧
    (left.operation = some .update → left.EditAlike right →
      ∀ config, compile left config = compile right config) := by
  constructor
  · intro selects alike config other
    rw [compile, compile, alike.compileStaged_eq selects config other]
  · intro isUpdate alike config
    exact alike.compile_eq isUpdate config

/-- A request for one field of an order, with edits that only an update makes. -/
def queriedOrder (edits : Option EditMap) : Conditions :=
  { Conditions.start "Orders" .query with
    update := edits
    remove := edits
    returnValues := edits.map fun _ => .allNew }
  |>.withCriterion "id" (.ofPrimary (.string "a"))
  |>.withFields ["note"]

/-- A change of an order, with a criterion beside the primary key and a field
that cannot be projected. -/
def changedOrder (field : String) (criterion : Criterion) : Conditions :=
  Conditions.start "Orders" .update
    |>.withCriterion field criterion
    |>.withCriterion "id" (.ofPrimary (.string "a"))
    |>.withUpdate "note" (.set (.string "x"))
    |>.withFields [field ++ " by name"]

theorem compile_idle_parts_order :
    (compile (queriedOrder none) .default =
        compile (queriedOrder (some (.ofList [("a b", none)]))) ⟨["note"]⟩ ∧
      (compile (queriedOrder none) .default).isOk = true) ∧
    (compile (changedOrder "kind" (.ofEqual .null)) .default =
        compile (changedOrder "and" (.plain (.string "b"))) .default ∧
      (compile (changedOrder "kind" (.ofEqual .null)) .default).toOption.bind
        Expression.update = some "SET #note = :note") := by
  have selectAlike : (queriedOrder none).SelectAlike
      (queriedOrder (some (.ofList [("a b", none)]))) :=
    ⟨rfl, rfl, rfl, rfl, rfl⟩
  have editAlike : (changedOrder "kind" (.ofEqual .null)).EditAlike
      (changedOrder "and" (.plain (.string "b"))) :=
    ⟨rfl, by decide +kernel, rfl, rfl, rfl, rfl⟩
  exact ⟨⟨compile_idle_parts.1 (by decide) selectAlike .default ⟨["note"]⟩,
      by decide +kernel⟩,
    compile_idle_parts.2 rfl editAlike .default, by decide +kernel⟩

end TableQuery
