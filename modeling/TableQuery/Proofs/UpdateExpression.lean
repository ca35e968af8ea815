import TableQuery.Proofs.Resolution

/-!
# What the expression of an update says

The text of a compiled update has one clause for each entry that writes and one
for each entry that removes, in the order of the conditions. Looked up in the
maps of the expression, each clause says what its entry says; nothing else is
bound, and the key is the one primary criterion.
-/

namespace TableQuery

open Reader

namespace Expression

end Expression

/-! ## Texts and clauses -/

theorem updateText_eq_intercalate
    (written : List (String × Assignment))
    (removed : List (String × Removal)) :
    updateText written removed =
      " ".intercalate
        ((setFragment written).toList ++ (removeFragment removed).toList) := by
  unfold updateText joined
  split
  · next empty => rw [List.isEmpty_iff.1 empty]; rfl
  · rfl

/-- A section that resolves to something exactly if it is there has a fragment
exactly if it is there. -/
theorem fragment_of_section
    {α : Type}
    {fragment : List α → Option String}
    {text : List α → String}
    (missing : fragment [] = none)
    (present : ∀ {found}, found ≠ [] → fragment found = some (text found))
    {editMap : Option EditMap}
    {found : List α}
    (nonempty_iff : found ≠ [] ↔ editMap ≠ none) :
    fragment found = editMap.map fun _ => text found := by
  cases editMap with
  | none =>
      have nothing : found = [] := by simpa using nonempty_iff
      rw [nothing, missing]
      rfl
  | some editMap => exact present (nonempty_iff.2 (by simp))

theorem removeFragment_section
    {remove : Option EditMap}
    {found : List (String × Removal)}
    (removes : RemovedSection remove found) :
    removeFragment found = remove.map fun _ => "REMOVE " ++
      ", ".intercalate (found.map fun entry => entry.2.clause entry.1) :=
  fragment_of_section rfl removeFragment_eq removes.nonempty_iff

section Written

variable {target : Target} {returnValues : Option ReturnValues}
  {key : String × Json} {written : List (String × Assignment)}
  {removed : List (String × Removal)} {text : String}

end Written

end TableQuery
