import Mathlib.Data.List.Forall2
import Mathlib.Data.List.Perm.Basic
import TableQuery.Proofs.Outcome

/-!
# Lists item by item

What is done to the items of a list one by one relates the list to that of the
results: the lists have the same length, and each item is related to the result
in its place. Named items keep their names, and merging two such lists by name
keeps them related.
-/

namespace TableQuery

variable {α β γ ε : Type}

/-- A list is read exactly if all of its items are. -/
theorem mapM_eq_ok_iff
    {read : α → Except ε β}
    {items : List α}
    {results : List β} :
    items.mapM read = .ok results ↔
      List.Forall₂ (fun item result => read item = .ok result) items
        results := by
  induction items generalizing results with
  | nil =>
      rw [List.mapM_nil, List.forall₂_nil_left_iff]
      change Except.ok [] = Except.ok results ↔ _
      rw [Except.ok.injEq, eq_comm]
  | cons item items hypothesis =>
      rw [List.mapM_cons, List.forall₂_cons_left_iff]
      simp only [bind_eq_ok_iff, hypothesis]
      constructor
      · rintro ⟨result, first, others, rest, same⟩
        exact ⟨result, others, first, rest, (Except.ok.inj same).symm⟩
      · rintro ⟨result, others, first, rest, rfl⟩
        exact ⟨result, first, others, rest, rfl⟩

/-- A list is refused for the first of its items that is. -/
theorem mapM_eq_error_iff
    {read : α → Except ε β}
    {items : List α}
    {cause : ε} :
    items.mapM read = .error cause ↔
      ∃ before item after, items = before ++ item :: after ∧
        (∃ results, before.mapM read = .ok results) ∧
        read item = .error cause := by
  induction items with
  | nil => exact iff_of_false nofun (by simp)
  | cons item items hypothesis =>
      rw [List.mapM_cons, bind_eq_error_iff]
      simp only [bind_eq_error_iff, hypothesis]
      constructor
      · rintro (here | ⟨result, first, later | ⟨_, _, impossible⟩⟩)
        · exact ⟨[], item, items, rfl, ⟨[], rfl⟩, here⟩
        · obtain ⟨before, other, after, rfl, ⟨results, rest⟩, refused⟩ := later
          refine ⟨item :: before, other, after, rfl, ?_, refused⟩
          exact ⟨result :: results, by rw [List.mapM_cons, first, rest]; rfl⟩
        · cases impossible
      · rintro ⟨before, other, after, same, ⟨results, read⟩, refused⟩
        cases before with
        | nil =>
            cases same
            exact .inl refused
        | cons first before =>
            cases same
            rw [List.mapM_cons] at read
            obtain ⟨result, head, others⟩ := bind_eq_ok_iff.1 read
            obtain ⟨rest, tail, _⟩ := bind_eq_ok_iff.1 others
            exact .inr ⟨result, head,
              .inl ⟨before, other, after, rfl, ⟨rest, tail⟩, refused⟩⟩

/-- A fold is refused for the first item whose step is. -/
theorem foldlM_eq_error_iff
    {step : β → α → Except ε β}
    {items : List α}
    {state : β}
    {cause : ε} :
    items.foldlM step state = .error cause ↔
      ∃ before item after middle, items = before ++ item :: after ∧
        before.foldlM step state = .ok middle ∧
        step middle item = .error cause := by
  induction items generalizing state with
  | nil => exact iff_of_false nofun (by simp)
  | cons item items hypothesis =>
      rw [List.foldlM_cons, bind_eq_error_iff]
      constructor
      · rintro (here | ⟨next, first, later⟩)
        · exact ⟨[], item, items, state, rfl, rfl, here⟩
        · obtain ⟨before, other, after, middle, rfl, rest, refused⟩ :=
            hypothesis.1 later
          refine ⟨item :: before, other, after, middle, rfl, ?_, refused⟩
          rw [List.foldlM_cons, first, ok_bind, rest]
      · rintro ⟨before, other, after, middle, same, rest, refused⟩
        cases before with
        | nil =>
            cases same
            cases rest
            exact .inl refused
        | cons first before =>
            cases same
            rw [List.foldlM_cons] at rest
            obtain ⟨next, head, tail⟩ := bind_eq_ok_iff.1 rest
            exact .inr ⟨next, head,
              hypothesis.2 ⟨before, other, after, middle, rfl, tail, refused⟩⟩

theorem mapM_map_eq_ok
    {read : β → Except ε γ}
    {write : α → β}
    {reread : α → γ}
    {items : List α}
    (each : ∀ item ∈ items, read (write item) = .ok (reread item)) :
    (items.map write).mapM read = .ok (items.map reread) := by
  rw [mapM_eq_ok_iff, List.forall₂_map_left_iff, List.forall₂_map_right_iff,
    List.forall₂_same]
  exact each

/-- Every related item on the right has one on the left. -/
theorem exists_mem_left_of_forall₂
    {relation : α → β → Prop}
    {lefts : List α}
    {rights : List β}
    (related : List.Forall₂ relation lefts rights)
    {right : β}
    (member : right ∈ rights) :
    ∃ left ∈ lefts, relation left right := by
  induction related with
  | nil => simp at member
  | cons first _ hypothesis =>
      rcases List.mem_cons.1 member with rfl | later
      · exact ⟨_, List.mem_cons_self, first⟩
      · obtain ⟨left, present, found⟩ := hypothesis later
        exact ⟨left, List.mem_cons_of_mem _ present, found⟩

/-- Every related item on the left has one on the right. -/
theorem exists_mem_right_of_forall₂
    {relation : α → β → Prop}
    {lefts : List α}
    {rights : List β}
    (related : List.Forall₂ relation lefts rights)
    {left : α}
    (member : left ∈ lefts) :
    ∃ right ∈ rights, relation left right :=
  exists_mem_left_of_forall₂ (List.Forall₂.flip related) member

theorem exists_forall₂_iff
    (relation : α → β → Prop)
    (entries : List α) :
    (∃ found, List.Forall₂ relation entries found) ↔
      ∀ entry ∈ entries, ∃ result, relation entry result := by
  induction entries with
  | nil => simp
  | cons entry entries hypothesis =>
      rw [List.forall_mem_cons, ← hypothesis]
      constructor
      · rintro ⟨_, _ | ⟨head, tail⟩⟩
        exact ⟨⟨_, head⟩, _, tail⟩
      · rintro ⟨⟨_, head⟩, _, tail⟩
        exact ⟨_, .cons head tail⟩

/-- What is computed of results is computed of the items that they belong to. -/
theorem map_eq_of_forall₂
    {relation : α → β → Prop}
    {onItem : α → γ}
    {onResult : β → γ}
    (each : ∀ item result, relation item result →
      onResult result = onItem item)
    {items : List α}
    {results : List β}
    (related : List.Forall₂ relation items results) :
    results.map onResult = items.map onItem := by
  induction related with
  | nil => rfl
  | cons first _ hypothesis =>
      rw [List.map_cons, List.map_cons, each _ _ first, hypothesis]

/-- Items in a different order have their results in this order. -/
theorem exists_forall₂_of_perm
    {relation : α → β → Prop}
    {items others : List α}
    {results : List β}
    (related : List.Forall₂ relation items results)
    (perm : items.Perm others) :
    ∃ found, List.Forall₂ relation others found ∧ results.Perm found := by
  obtain ⟨found, forall₂, permuted⟩ :=
    List.perm_comp_forall₂ perm.symm related
  exact ⟨found, forall₂, permuted.symm⟩

/-- Lists that are related to one list are related to each other. -/
theorem forall₂_of_forall₂
    {first : α → β → Prop}
    {second : α → γ → Prop}
    {goal : β → γ → Prop}
    (both : ∀ item left right, first item left → second item right →
      goal left right)
    {items : List α}
    {lefts : List β}
    {rights : List γ}
    (left : List.Forall₂ first items lefts)
    (right : List.Forall₂ second items rights) :
    List.Forall₂ goal lefts rights := by
  induction left generalizing rights with
  | nil =>
      cases right
      exact .nil
  | cons head _ hypothesis =>
      cases right with
      | cons other rest => exact .cons (both _ _ _ head other) (hypothesis rest)

/-! ## Named items -/

/-- Items of one name with related values. -/
def SameName
    (relation : α → β → Prop)
    (left : String × α)
    (right : String × β) : Prop :=
  left.1 = right.1 ∧ relation left.2 right.2

theorem names_eq_of_forall₂
    {relation : String × α → String × β → Prop}
    (sameName : ∀ left right, relation left right → left.1 = right.1)
    {lefts : List (String × α)}
    {rights : List (String × β)}
    (related : List.Forall₂ relation lefts rights) :
    Members.names rights = Members.names lefts :=
  map_eq_of_forall₂ (fun left right same => (sameName left right same).symm)
    related

section SameName

variable {relation : α → β → Prop}
  {lefts : List (String × α)}
  {rights : List (String × β)}
  (related : List.Forall₂ (SameName relation) lefts rights)

include related

theorem forall₂_insert
    (name : String)
    {left : α}
    {right : β}
    (new : relation left right) :
    List.Forall₂ (SameName relation)
        (Members.insert name left lefts) (Members.insert name right rights) := by
  induction related with
  | nil => exact .cons ⟨rfl, new⟩ .nil
  | @cons head other lefts rights first rest hypothesis =>
      obtain ⟨key, old⟩ := head
      obtain ⟨key', held⟩ := other
      obtain ⟨rfl, pair⟩ := first
      rw [Members.insert_cons, Members.insert_cons]
      by_cases same : key = name
      · rw [if_pos same, if_pos same]
        exact .cons ⟨rfl, new⟩ rest
      · rw [if_neg same, if_neg same]
        exact .cons ⟨rfl, pair⟩ hypothesis

/-- Merging by name keeps the last values of a name together. -/
theorem forall₂_merge :
    List.Forall₂ (SameName relation) (Members.merge lefts)
      (Members.merge rights) := by
  have kept : ∀ {earlier : List (String × α)} {earlier' : List (String × β)},
      List.Forall₂ (SameName relation) earlier earlier' →
        List.Forall₂ (SameName relation) (Members.insertAll earlier lefts)
          (Members.insertAll earlier' rights) := by
    induction related with
    | nil => exact fun before => before
    | @cons head other lefts rights first rest hypothesis =>
        intro earlier earlier' before
        obtain ⟨key, value⟩ := head
        obtain ⟨key', held⟩ := other
        obtain ⟨rfl, pair⟩ := first
        exact hypothesis (forall₂_insert before key pair)
  exact kept .nil

end SameName

end TableQuery
