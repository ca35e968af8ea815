import TableQuery.Proofs.Meaning

/-!
# Paths of edits

The table service refuses an update of which two clauses address the same field,
unless they address different items of the list that it holds. Clauses of one
section never do that, since no field is written twice and none is removed
twice. Nothing compares the sections with each other: a field that conditions
both write and remove gets a clause in each, and it is up to them to mean
different items.
-/

namespace TableQuery

/-- A field or an item of the list that it holds. -/
structure FieldPath where
  /-- The field. -/
  field : String
  /-- The position of the item. -/
  position : Option Nat
  deriving DecidableEq

/-- Paths are apart if neither leads to a part of what the other one leads to:
if they share the field, they lead to different items. -/
def FieldPath.Apart (left right : FieldPath) : Prop :=
  left.field = right.field →
    ∃ position other, left.position = some position ∧
      right.position = some other ∧ position ≠ other

/-- The path that an assignment addresses. -/
def Assignment.path (field : String) : Assignment → FieldPath
  | set _ => ⟨field, none⟩
  | append _ => ⟨field, none⟩
  | setAt index _ => ⟨field, some index⟩

/-- The path that a removal addresses. -/
def Removal.path (field : String) : Removal → FieldPath
  | .field => ⟨field, none⟩
  | .item index => ⟨field, some index⟩

@[simp] theorem Assignment.field_path
    (field : String)
    (assignment : Assignment) : (assignment.path field).field = field := by
  cases assignment <;> rfl

@[simp] theorem Removal.field_path (field : String) (removal : Removal) :
    (removal.path field).field = field := by
  cases removal <;> rfl

theorem Assignment.position_path_iff
    (field : String)
    (assignment : Assignment)
    (position : Nat) :
    (assignment.path field).position = some position ↔
      ∃ value, assignment = .setAt position value := by
  cases assignment <;> simp [path]

theorem Removal.position_path_iff
    (field : String)
    (removal : Removal)
    (position : Nat) :
    (removal.path field).position = some position ↔
      removal = .item position := by
  cases removal <;> simp [path]

/-- The paths that the clauses of an update address: those that are written and
those that are removed, in the order of the clauses. -/
def Expression.paths (expression : Expression) :
    Option (List FieldPath × List FieldPath) :=
  match expression.meaning with
  | some (.write _ _ written removed _) =>
      some (written.map fun entry => entry.2.path entry.1,
        removed.map fun entry => entry.2.path entry.1)
  | _ => none

/-- Edits of different fields, or of different items of one list. -/
def Conditions.EditsApart (conditions : Conditions) (config : Config) : Prop :=
  ∀ entry ∈ writtenEntries config (sectionEntries conditions.update),
    ∀ other ∈ removedEntries (sectionEntries conditions.remove),
      entry.1 = other.1 → ∃ position value index,
        Assigns entry.2 (.setAt position value) ∧
          Removes other.2 (.item index) ∧ position ≠ index

/-! ## One section -/

/-- An entry is removed in one way. -/
theorem Removes.unique
    {entry : Option EditEntry}
    {left right : Removal}
    (leftRemoves : Removes entry left)
    (rightRemoves : Removes entry right) : left = right := by
  have resolved := (resolveRemoval_eq_ok_iff "" _ _).2 leftRemoves
  rw [(resolveRemoval_eq_ok_iff "" _ _).2 rightRemoves] at resolved
  exact (Except.ok.inj resolved).symm

/-- No field is removed twice. -/
theorem RemovedSection.distinct
    {remove : Option EditMap}
    {found : List (String × Removal)}
    (removes : RemovedSection remove found) :
    (Members.names found).Nodup := by
  rw [names_eq_of_forall₂ (fun _ _ removes => removes.1) removes.resolved]
  cases remove with
  | none => exact .nil
  | some remove =>
      exact remove.distinct.sublist (List.filter_sublist.map Prod.fst)

/-- Paths to different fields are apart. -/
theorem pairwise_apart
    {α : Type}
    {entries : List (String × α)}
    (distinct : (Members.names entries).Nodup)
    {path : String × α → FieldPath}
    (field : ∀ entry, (path entry).field = entry.1) :
    (entries.map path).Pairwise FieldPath.Apart := by
  rw [List.pairwise_map]
  refine (List.pairwise_map.1 distinct).imp ?_
  intro left right different same
  rw [field, field] at same
  exact absurd same different

/-! ## Both sections -/

/-- Clauses of both sections address paths that are apart exactly if the entries
that they are made of ask for that. -/
theorem forall_apart_iff
    {conditions : Conditions}
    {config : Config}
    {written : List (String × Assignment)}
    {removed : List (String × Removal)}
    (writes : WrittenSection config conditions.update written)
    (removes : RemovedSection conditions.remove removed) :
    (∀ result ∈ written, ∀ other ∈ removed,
        (result.2.path result.1).Apart (other.2.path other.1)) ↔
      conditions.EditsApart config := by
  constructor
  · intro apart entry member other otherMember same
    obtain ⟨result, present, sameName, assigns⟩ :=
      exists_mem_right_of_forall₂ writes.resolved member
    obtain ⟨removal, otherPresent, otherName, removesEntry⟩ :=
      exists_mem_right_of_forall₂ removes.resolved otherMember
    obtain ⟨position, index, left, right, different⟩ :=
      apart result present removal otherPresent
        (by simp [← sameName, ← otherName, same])
    obtain ⟨value, isSetAt⟩ := (Assignment.position_path_iff _ _ _).1 left
    have isItem := (Removal.position_path_iff _ _ _).1 right
    exact ⟨position, value, index, isSetAt ▸ assigns, isItem ▸ removesEntry,
      different⟩
  · intro apart result present removal otherPresent same
    obtain ⟨entry, member, sameName, assigns⟩ :=
      exists_mem_left_of_forall₂ writes.resolved present
    obtain ⟨other, otherMember, otherName, removesEntry⟩ :=
      exists_mem_left_of_forall₂ removes.resolved otherPresent
    obtain ⟨position, value, index, assignsItem, removesItem, different⟩ :=
      apart entry member other otherMember
        (by simpa [← sameName, ← otherName] using same)
    refine ⟨position, index, ?_, ?_, different⟩
    · rw [assigns.unique assignsItem]
      rfl
    · rw [removesEntry.unique removesItem]
      rfl

/-- The clauses of a compiled update that write address paths that are apart, and
so do those that remove. All of them together do exactly if the conditions do
not write and remove the same field or the same item. -/
theorem compile_overlapping_paths
    {conditions : Conditions}
    {config : Config}
    {expression : Expression}
    (isUpdate : conditions.operation = some .update)
    (compiled : compile conditions config = .ok expression) :
    ∃ writing removing, expression.paths = some (writing, removing) ∧
      writing.Pairwise FieldPath.Apart ∧ removing.Pairwise FieldPath.Apart ∧
      ((writing ++ removing).Pairwise FieldPath.Apart ↔
        conditions.EditsApart config) := by
  obtain ⟨target, primary, written, removed, _, _, _, resolvedWritten,
    resolvedRemoved, rfl⟩ :=
      ((compile_eq_ok_iff _ _ _).1 compiled).of_update isUpdate
  have writes := (writtenSection resolvedWritten).1
  have removes := removedSection resolvedRemoved
  have meaning : (writeExpression target conditions.returnValues primary
      (written.getD []) (removed.getD []) _).meaning = some (.write _ _ _ _ _) :=
    meaning_writeExpression writes removes
      (sections_nonempty resolvedWritten resolvedRemoved)
  have writing := pairwise_apart writes.distinct
    (fun entry => entry.2.field_path entry.1)
  have removing := pairwise_apart removes.distinct
    (fun entry => entry.2.field_path entry.1)
  refine ⟨_, _, by rw [Expression.paths, meaning], writing, removing, ?_⟩
  rw [List.pairwise_append, ← forall_apart_iff writes removes]
  simp only [writing, removing, true_and, List.forall_mem_map]

/-- An update that writes a field and removes it or an item of it. -/
def writtenAndRemoved (edit : Edit) (removal : Option Edit) : Conditions :=
  Conditions.start "Orders" .update
    |>.withCriterion "id" (.ofPrimary (.string "a"))
    |>.withUpdate "stops" edit
    |>.withRemove "stops" removal

/-- Updates are accepted that write and remove the same field, or the same item
of a list. -/
theorem compile_overlapping_paths_accepted :
    ((compile (writtenAndRemoved (.set (.string "x")) none) .default).toOption.map
          fun expression => (expression.update, expression.paths)) =
        some (some "SET #stops = :stops REMOVE #stops",
          some ([⟨"stops", none⟩], [⟨"stops", none⟩])) ∧
      ¬ FieldPath.Apart ⟨"stops", none⟩ ⟨"stops", none⟩ ∧
    ((compile (writtenAndRemoved (.setAt 2 (.string "x"))
          (some (.position 2))) .default).toOption.map
          fun expression => (expression.update, expression.paths)) =
        some (some "SET #stops[2] = :stops REMOVE #stops[2]",
          some ([⟨"stops", some 2⟩], [⟨"stops", some 2⟩])) ∧
      ¬ FieldPath.Apart ⟨"stops", some 2⟩ ⟨"stops", some 2⟩ := by
  refine ⟨by decide +kernel, ?_, by decide +kernel, ?_⟩
  · intro apart
    obtain ⟨_, _, absent, _⟩ := apart rfl
    cases absent
  · intro apart
    obtain ⟨_, _, ⟨⟩, ⟨⟩, different⟩ := apart rfl
    exact different rfl

/-- Different items of one list are written and removed. -/
theorem compile_overlapping_paths_items :
    ∃ expression writing removing,
      compile (writtenAndRemoved (.setAt 1 (.string "x"))
          (some (.position 2))) .default = .ok expression ∧
        expression.paths = some (writing, removing) ∧
        (writing ++ removing).Pairwise FieldPath.Apart := by
  have accepts : ∃ expression, compile (writtenAndRemoved
      (.setAt 1 (.string "x")) (some (.position 2))) .default =
        .ok expression := by
    rw [exists_ok_iff]
    decide +kernel
  have apart : (writtenAndRemoved (.setAt 1 (.string "x"))
      (some (.position 2))).EditsApart .default := by
    intro entry member other otherMember _
    obtain rfl := List.mem_singleton.1 member
    obtain rfl := List.mem_singleton.1 otherMember
    exact ⟨1, .string "x", 2, ⟨_, _, rfl, rfl, .position rfl rfl rfl⟩,
      .item rfl rfl, by decide⟩
  obtain ⟨expression, compiled⟩ := accepts
  obtain ⟨writing, removing, paths, _, _, all⟩ :=
    compile_overlapping_paths rfl compiled
  exact ⟨expression, writing, removing, compiled, paths, all.2 apart⟩

end TableQuery
