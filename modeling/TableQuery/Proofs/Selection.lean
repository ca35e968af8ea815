import Mathlib.Data.List.Nodup
import TableQuery.Proofs.FieldName
import TableQuery.Proofs.Outcome

/-!
# Which criteria can be split

Splitting goes through the criteria once and stops at the first problem. All in
all it succeeds exactly if every criterion is admissible by itself and no second
one is marked as the primary key, and then it yields the marked criterion and
the others in their order.
-/

namespace TableQuery

namespace Selection

/-- A criterion that does not stand in the way of splitting: the implied
operator, or a field whose name can be spliced. The primary key of an update is
not spliced. -/
def Admissible (operation : Operation) (entry : String × Criterion) : Prop :=
  entry.1 = impliedOperator ∨
    entry.1 ≠ refusedOperator ∧
      (ValidName entry.1 ∨ operation = .update ∧ entry.2.isPrimary = true)

/-- Whether a criterion is taken for the primary key. -/
def isKey (operation : Operation) (entry : String × Criterion) : Bool :=
  entry.1 ≠ impliedOperator ∧ operation ≠ .scan ∧ entry.2.isPrimary = true

/-- Whether a criterion is taken for a filter. -/
def isFilter (operation : Operation) (entry : String × Criterion) : Bool :=
  entry.1 ≠ impliedOperator ∧ ¬ (operation ≠ .scan ∧ entry.2.isPrimary = true)

/-- A field and the value that it has to equal. -/
def valued (entry : String × Criterion) : String × Json :=
  (entry.1, entry.2.value)

/-- The primary keys among criteria. -/
def keys (operation : Operation) (entries : List (String × Criterion)) :
    List (String × Json) :=
  (entries.filter (isKey operation)).map valued

/-- The filters among criteria. -/
def filtersOf (operation : Operation) (entries : List (String × Criterion)) :
    List (String × Json) :=
  (entries.filter (isFilter operation)).map valued

theorem keys_cons
    (operation : Operation)
    (entry : String × Criterion)
    (entries : List (String × Criterion)) :
    keys operation (entry :: entries) =
      keys operation [entry] ++ keys operation entries := by
  rw [keys, ← List.singleton_append, List.filter_append, List.map_append]
  rfl

theorem filtersOf_cons
    (operation : Operation)
    (entry : String × Criterion)
    (entries : List (String × Criterion)) :
    filtersOf operation (entry :: entries) =
      filtersOf operation [entry] ++ filtersOf operation entries := by
  rw [filtersOf, ← List.singleton_append, List.filter_append, List.map_append]
  rfl

theorem keys_singleton (operation : Operation) (entry : String × Criterion) :
    keys operation [entry] =
      if isKey operation entry then [valued entry] else [] := by
  rw [keys, List.filter_cons]
  split <;> rfl

theorem filtersOf_singleton
    (operation : Operation)
    (entry : String × Criterion) :
    filtersOf operation [entry] =
      if isFilter operation entry then [valued entry] else [] := by
  rw [filtersOf, List.filter_cons]
  split <;> rfl

/-- What a selection holds once keys and filters are added. -/
structure Extends
    (selection result : Selection)
    (added filters : List (String × Json)) : Prop where
  /-- The primary key is the old one or an added one. -/
  primary : result.primary.toList = selection.primary.toList ++ added
  /-- The filters are the old ones and behind them the added ones. -/
  filters : result.filters = selection.filters ++ filters

theorem eq_of_toList_eq
    {left right : Option (String × Json)}
    (same : left.toList = right.toList) : left = right := by
  cases left <;> cases right <;> simp_all

theorem extends_nil_iff (selection result : Selection) :
    Extends selection result [] [] ↔ selection = result := by
  constructor
  · rintro ⟨primary, filters⟩
    rw [List.append_nil] at primary filters
    cases selection
    cases result
    cases eq_of_toList_eq primary
    cases filters
    rfl
  · rintro rfl
    exact ⟨by simp, by simp⟩

theorem extends_filter_iff
    (selection result : Selection)
    (entry : String × Json) :
    Extends selection result [] [entry] ↔
      { selection with filters := selection.filters ++ [entry] } = result := by
  rw [← extends_nil_iff]
  constructor
  · rintro ⟨primary, filters⟩
    exact ⟨primary, by rw [filters, List.append_nil]⟩
  · rintro ⟨primary, filters⟩
    exact ⟨primary, by rw [filters, List.append_nil]⟩

theorem extends_key_iff
    {selection : Selection}
    (unset : selection.primary = none)
    (result : Selection)
    (entry : String × Json) :
    Extends selection result [entry] [] ↔
      { selection with primary := some entry } = result := by
  rw [← extends_nil_iff]
  constructor
  · rintro ⟨primary, filters⟩
    exact ⟨by simpa [unset] using primary, filters⟩
  · rintro ⟨primary, filters⟩
    exact ⟨by simpa [unset] using primary, filters⟩

/-- There is room for one primary key only. -/
theorem not_extends_key
    {selection : Selection}
    {first : String × Json}
    (set : selection.primary = some first)
    (result : Selection)
    (entry : String × Json)
    (filters : List (String × Json)) :
    ¬ Extends selection result [entry] filters := by
  rintro ⟨primary, _⟩
  have atMostOne := result.primary.length_toList_le
  rw [primary, set] at atMostOne
  simp at atMostOne

/-- Adding one criterion. -/
theorem add_eq_ok_iff
    (operation : Operation)
    (selection result : Selection)
    (entry : String × Criterion) :
    add operation selection entry = .ok result ↔
      Admissible operation entry ∧
        Extends selection result (keys operation [entry])
          (filtersOf operation [entry]) := by
  obtain ⟨field, criterion⟩ := entry
  rw [add, keys_singleton, filtersOf_singleton]
  by_cases implied : field = impliedOperator
  · simp [isKey, isFilter, Admissible, implied, extends_nil_iff]
  by_cases refused : field = refusedOperator
  · have different : refusedOperator ≠ impliedOperator := by decide
    simp [Admissible, refused, different]
  by_cases marked : operation ≠ .scan ∧ criterion.isPrimary = true
  · have key : isKey operation (field, criterion) = true := by
      simp [isKey, implied, marked]
    have noFilter : isFilter operation (field, criterion) = false := by
      simp [isFilter, marked]
    simp only [if_neg implied, if_neg refused, if_pos marked, key, noFilter]
    cases set : selection.primary with
    | some first => simp [not_extends_key set]
    | none =>
        simp only [↓reduceIte, Bool.false_eq_true, extends_key_iff set]
        cases operation with
        | scan => exact absurd rfl marked.1
        | query =>
            simp [check_bind_eq_ok_iff, checkFieldName_eq_ok, Admissible,
              valued, implied, refused]
        | update => simp [Admissible, valued, marked.2, refused]
  · have noKey : isKey operation (field, criterion) = false := by
      simp only [isKey, decide_eq_false_iff_not]
      exact fun key => marked key.2
    have filter : isFilter operation (field, criterion) = true := by
      simp only [isFilter, decide_eq_true_eq]
      exact ⟨implied, marked⟩
    have noUpdateKey :
        ¬ (operation = .update ∧ criterion.isPrimary = true) := by
      rintro ⟨rfl, isPrimary⟩
      exact marked ⟨by decide, isPrimary⟩
    simp only [if_neg implied, if_neg refused, if_neg marked, noKey, filter,
      ↓reduceIte, Bool.false_eq_true, extends_filter_iff]
    simp [check_bind_eq_ok_iff, checkFieldName_eq_ok, Admissible, valued,
      implied, refused, noUpdateKey]

theorem Extends.trans
    {first second third : Selection}
    {added filters moreAdded moreFilters : List (String × Json)}
    (left : Extends first second added filters)
    (right : Extends second third moreAdded moreFilters) :
    Extends first third (added ++ moreAdded) (filters ++ moreFilters) := by
  constructor
  · rw [right.primary, left.primary, List.append_assoc]
  · rw [right.filters, left.filters, List.append_assoc]

theorem toList_head?
    {entries : List (String × Json)}
    (atMostOne : entries.length ≤ 1) : entries.head?.toList = entries := by
  match entries with
  | [] => rfl
  | [_] => rfl
  | _ :: _ :: _ => simp at atMostOne

/-- An extension by two parts goes through the extension by the first one. -/
theorem Extends.split
    {first third : Selection}
    {added filters moreAdded moreFilters : List (String × Json)}
    (whole : Extends first third (added ++ moreAdded)
      (filters ++ moreFilters)) :
    ∃ second, Extends first second added filters ∧
      Extends second third moreAdded moreFilters := by
  -- There is a middle selection because the keys of the whole are at most one.
  have short : (first.primary.toList ++ added).length ≤ 1 := by
    have atMostOne := third.primary.length_toList_le
    rw [whole.primary] at atMostOne
    simp only [List.length_append] at atMostOne ⊢
    omega
  refine ⟨⟨(first.primary.toList ++ added).head?, first.filters ++ filters⟩,
    ⟨toList_head? short, rfl⟩, ?_, ?_⟩
  · rw [whole.primary, toList_head? short, List.append_assoc]
  · rw [whole.filters, List.append_assoc]

/-- Adding criteria one after the other. -/
theorem foldlM_add_eq_ok_iff
    (operation : Operation)
    (selection result : Selection)
    (entries : List (String × Criterion)) :
    entries.foldlM (add operation) selection = .ok result ↔
      (∀ entry ∈ entries, Admissible operation entry) ∧
        Extends selection result (keys operation entries)
          (filtersOf operation entries) := by
  induction entries generalizing selection with
  | nil =>
      rw [List.foldlM_nil]
      change Except.ok selection = Except.ok result ↔ _
      simp [keys, filtersOf, extends_nil_iff]
  | cons entry entries hypothesis =>
      rw [List.foldlM_cons, bind_eq_ok_iff, keys_cons, filtersOf_cons,
        List.forall_mem_cons]
      constructor
      · rintro ⟨middle, added, others⟩
        obtain ⟨admissible, first⟩ := (add_eq_ok_iff _ _ _ _).1 added
        obtain ⟨admissibles, rest⟩ := (hypothesis middle).1 others
        exact ⟨⟨admissible, admissibles⟩, first.trans rest⟩
      · rintro ⟨⟨admissible, admissibles⟩, whole⟩
        obtain ⟨middle, first, rest⟩ := whole.split
        exact ⟨middle, (add_eq_ok_iff _ _ _ _).2 ⟨admissible, first⟩,
          (hypothesis middle).2 ⟨admissibles, rest⟩⟩

theorem ofCriteria_eq_ok_iff
    (operation : Operation)
    (criteria : FieldMap Criterion)
    (result : Selection) :
    ofCriteria operation criteria = .ok result ↔
      (∀ entry ∈ criteria.entries, Admissible operation entry) ∧
        result.primary.toList = keys operation criteria.entries ∧
        result.filters = filtersOf operation criteria.entries := by
  rw [ofCriteria, foldlM_add_eq_ok_iff]
  apply and_congr_right
  intro _
  constructor
  · rintro ⟨primary, filters⟩
    exact ⟨primary, filters⟩
  · rintro ⟨primary, filters⟩
    exact ⟨primary, filters⟩

/-- Splitting succeeds if all criteria are admissible and one of them is the
primary key. -/
theorem ofKeyedCriteria_eq_ok_iff
    (operation : Operation)
    (criteria : FieldMap Criterion)
    (primary : String × Json)
    (filters : List (String × Json)) :
    ofKeyedCriteria operation criteria = .ok (primary, filters) ↔
      (∀ entry ∈ criteria.entries, Admissible operation entry) ∧
        keys operation criteria.entries = [primary] ∧
        filtersOf operation criteria.entries = filters := by
  rw [ofKeyedCriteria, bind_eq_ok_iff]
  constructor
  · rintro ⟨selection, split, required⟩
    obtain ⟨admissible, key, rest⟩ := (ofCriteria_eq_ok_iff _ _ _).1 split
    cases set : selection.primary with
    | none => simp [requirePrimary, set] at required
    | some first =>
        simp only [requirePrimary, set, ok_bind, Except.ok.injEq,
          Prod.mk.injEq] at required
        rw [set, required.1] at key
        exact ⟨admissible, key.symm, rest.symm.trans required.2⟩
  · rintro ⟨admissible, key, rest⟩
    refine ⟨⟨some primary, filters⟩, ?_, rfl⟩
    exact (ofCriteria_eq_ok_iff _ _ _).2 ⟨admissible, key.symm, rest.symm⟩

/-- A scan has no primary key. -/
theorem keys_scan (entries : List (String × Criterion)) :
    keys .scan entries = [] := by
  simp [keys, isKey]

/-! ## The primary key -/

/-- A criterion is the one that is marked as the primary key. -/
def OnlyKey
    (entries : List (String × Criterion))
    (primary : String × Criterion) : Prop :=
  primary ∈ entries ∧ primary.1 ≠ "and" ∧ primary.2.isPrimary = true ∧
    ∀ other ∈ entries, other.1 ≠ "and" → other.2.isPrimary = true →
      other = primary

theorem eq_singleton_iff
    {α : Type}
    {items : List α}
    (distinct : items.Nodup)
    (item : α) :
    items = [item] ↔ item ∈ items ∧ ∀ other ∈ items, other = item := by
  constructor
  · rintro rfl
    simp
  · rintro ⟨member, only⟩
    match items with
    | [] => simp at member
    | [first] => rw [only first (by simp)]
    | first :: second :: rest =>
        have same : first = second :=
          (only first (by simp)).trans (only second (by simp)).symm
        exact absurd (same ▸ List.mem_cons_self) (List.nodup_cons.1 distinct).1

theorem keys_eq_singleton_iff
    {operation : Operation}
    (keyed : operation ≠ .scan)
    (criteria : FieldMap Criterion)
    (key : String × Json) :
    keys operation criteria.entries = [key] ↔
      ∃ primary, OnlyKey criteria.entries primary ∧ valued primary = key := by
  have member : ∀ entry, entry ∈ criteria.entries.filter (isKey operation) ↔
      entry ∈ criteria.entries ∧ entry.1 ≠ "and" ∧
        entry.2.isPrimary = true := by
    intro entry
    simp [isKey, impliedOperator, keyed]
  have distinct : (criteria.entries.filter (isKey operation)).Nodup :=
    (List.Nodup.of_map _ criteria.distinct).filter _
  rw [keys, List.map_eq_singleton_iff]
  apply exists_congr
  intro primary
  rw [eq_singleton_iff distinct]
  simp only [member, OnlyKey, and_imp, and_assoc]

theorem exists_keys_iff
    {operation : Operation}
    (keyed : operation ≠ .scan)
    (criteria : FieldMap Criterion) :
    (∃ key, keys operation criteria.entries = [key]) ↔
      ∃ primary, OnlyKey criteria.entries primary := by
  simp only [keys_eq_singleton_iff keyed]
  constructor
  · rintro ⟨_, primary, only, _⟩
    exact ⟨primary, only⟩
  · rintro ⟨primary, only⟩
    exact ⟨valued primary, primary, only, rfl⟩

end Selection

/-! ## Projected fields -/

theorem mapM_bareName_eq_ok_iff (fields names : List String) :
    (fields.mapM fun field => do
        checkFieldName (bareName field)
        .ok (bareName field)) = .ok names ↔
      (∀ field ∈ fields, ValidName (bareName field)) ∧
        fields.map bareName = names := by
  induction fields generalizing names with
  | nil =>
      rw [List.mapM_nil]
      change Except.ok [] = Except.ok names ↔ _
      simp
  | cons field fields hypothesis =>
      have step : ∀ name : String,
          (do
            checkFieldName (bareName field)
            .ok (bareName field)) = .ok name ↔
          ValidName (bareName field) ∧ bareName field = name := by
        intro name
        rw [check_bind_eq_ok_iff, checkFieldName_eq_ok, Except.ok.injEq]
      rw [List.mapM_cons, bind_eq_ok_iff, List.forall_mem_cons]
      simp only [step, bind_eq_ok_iff, hypothesis]
      constructor
      · rintro ⟨_, ⟨valid, rfl⟩, others, ⟨valids, rfl⟩, same⟩
        exact ⟨⟨valid, valids⟩, Except.ok.inj same⟩
      · rintro ⟨⟨valid, valids⟩, rfl⟩
        exact ⟨_, ⟨valid, rfl⟩, _, ⟨valids, rfl⟩, rfl⟩

/-- Fields can be projected if their bare names are valid. Each of them is
projected once. -/
theorem projectedFields_eq_ok_iff (fields names : List String) :
    projectedFields fields = .ok names ↔
      (∀ field ∈ fields, ValidName (bareName field)) ∧
        (fields.map bareName).eraseDups = names := by
  rw [projectedFields, bind_eq_ok_iff]
  simp only [mapM_bareName_eq_ok_iff, Except.ok.injEq]
  constructor
  · rintro ⟨_, ⟨valid, rfl⟩, rfl⟩
    exact ⟨valid, rfl⟩
  · rintro ⟨valid, rfl⟩
    exact ⟨_, ⟨valid, rfl⟩, rfl⟩

end TableQuery
