import Mathlib.Data.List.Basic
import TableQuery.Proofs.References

/-!
# Assembled expressions are closed

The clauses of a fragment and the definitions behind their tokens are made from
the same fields. Selecting and editing expressions are therefore closed as soon
as these fields have valid names.
-/

namespace TableQuery

open Expression

/-! ## Selecting expressions -/

/-- The tokens of the clause that a field equals its value. -/
abbrev equalityTokens (field : String) : List (Char × List Char) :=
  [aliasToken field, placeholderToken field]

theorem flatMap_tokens_equality
    {values : List (String × Json)}
    (valid : ∀ field ∈ Members.names values, ValidName field) :
    (values.map fun entry => equality entry.1).flatMap
        (fun clause => tokens clause.toList) =
      (Members.names values).flatMap equalityTokens := by
  rw [List.flatMap_map, Members.names, List.flatMap_map]
  apply List.flatMap_congr
  intro entry member
  exact tokens_equality (valid entry.1 (List.mem_map_of_mem member))

theorem stops_equality (field : String) :
    Stops isNameChar (equality field).toList := by
  rw [equality, String.toList_append, String.toList_append, List.append_assoc]
  exact (stops_aliasOf field).append
    (Stops.append (by decide) (stops_placeholderOf field))

theorem allTokens_readExpression
    (target : Target)
    (startKey : Option (FieldMap Json))
    {primary : Option (String × Json)}
    {filters : List (String × Json)}
    {projected : List String}
    (validSelected : ∀ field ∈ Members.names (primary.toList ++ filters),
      ValidName field)
    (validProjected : ∀ field ∈ projected, ValidName field) :
    (readExpression target startKey primary filters projected).allTokens =
      (Members.names (primary.toList ++ filters)).flatMap equalityTokens ++
        projected.map aliasToken := by
  have names : Members.names (primary.toList ++ filters) =
      Members.names primary.toList ++ Members.names filters :=
    List.map_append
  rw [names, List.forall_mem_append] at validSelected
  have keyCondition :
      fragmentTokens (primary.map fun entry => equality entry.1) =
      (Members.names primary.toList).flatMap equalityTokens := by
    rw [← flatMap_tokens_equality validSelected.1]
    cases primary <;> rfl
  have filter : fragmentTokens
        (joined " and " (filters.map fun entry => equality entry.1)) =
      (Members.names filters).flatMap equalityTokens := by
    rw [fragmentTokens_joined (by rfl) (by decide),
      flatMap_tokens_equality validSelected.2]
    exact List.forall_mem_map.2 fun entry _ => stops_equality entry.1
  have projection : fragmentTokens (joined ", " (projected.map aliasOf)) =
      projected.map aliasToken := by
    rw [fragmentTokens_joined (by rfl) (by decide), List.flatMap_map,
      List.map_eq_flatMap]
    · exact List.flatMap_congr fun field member =>
        tokens_aliasOf (validProjected field member)
    · exact List.forall_mem_map.2 fun field _ => stops_aliasOf field
  rw [allTokens_eq, names, List.flatMap_append, ← keyCondition, ← filter,
    ← projection]
  simp [readExpression, Expression.ofTable, fragmentTokens]

theorem closed_readExpression
    (target : Target)
    (startKey : Option (FieldMap Json))
    {primary : Option (String × Json)}
    {filters : List (String × Json)}
    {projected : List String}
    (validSelected : ∀ field ∈ Members.names (primary.toList ++ filters),
      ValidName field)
    (validProjected : ∀ field ∈ projected, ValidName field) :
    (readExpression target startKey primary filters projected).Closed := by
  have all := allTokens_readExpression target startKey validSelected
    validProjected
  have differ := aliasToken_ne_placeholderToken
  constructor
  · intro token
    have names :
        (readExpression target startKey primary filters projected).names =
          aliases (Members.names (primary.toList ++ filters)
            ++ projected) := rfl
    rw [mem_references_names, all, names, mem_keys_aliases]
    simp only [equalityTokens, List.mem_append, List.mem_flatMap,
      List.mem_cons, List.mem_map, List.not_mem_nil, or_false, aliasToken_inj,
      differ, exists_eq_right', exists_eq_right]
  · intro token
    have values : (readExpression target startKey primary filters
        projected).values = placeholders (primary.toList ++ filters) := rfl
    rw [mem_references_values, all, values, mem_keys_placeholders]
    simp only [equalityTokens, List.mem_append, List.mem_flatMap,
      List.mem_cons, List.mem_map, List.not_mem_nil, or_false, false_or,
      placeholderToken_inj, differ, (differ _ _).symm, and_false, exists_false,
      exists_eq_right']

/-! ## Editing expressions -/

/-- The text of an update: the part that writes, the part that removes, and a
space between them if both are there. -/
def updateText
    (assignments : List (String × Assignment))
    (removals : List (String × Removal)) : String :=
  (joined " " ((setFragment assignments).toList
    ++ (removeFragment removals).toList)).getD ""

theorem joined_of_ne_nil
    (separator : String)
    {clauses : List String}
    (nonempty : clauses ≠ []) :
    joined separator clauses = some (separator.intercalate clauses) := by
  rw [joined, if_neg (by simpa using nonempty)]

/-- An update that writes or removes something has a text. -/
theorem joined_fragments
    {assignments : List (String × Assignment)}
    {removals : List (String × Removal)}
    (nonempty : assignments ≠ [] ∨ removals ≠ []) :
    joined " " ((setFragment assignments).toList
        ++ (removeFragment removals).toList) =
      some (updateText assignments removals) := by
  have some : (setFragment assignments).toList
      ++ (removeFragment removals).toList ≠ [] := by
    rcases nonempty with written | removed
    · simp [setFragment, joined_of_ne_nil, written]
    · simp [removeFragment, joined_of_ne_nil, removed]
  rw [updateText, joined_of_ne_nil _ some, Option.getD_some]

theorem updateFragment_eq
    {assignments : List (String × Assignment)}
    {removals : List (String × Removal)}
    (nonempty : assignments ≠ [] ∨ removals ≠ []) :
    updateFragment assignments removals =
      .ok (updateText assignments removals) := by
  rw [updateFragment, joined_fragments nonempty]

/-- The text of the part that writes. -/
theorem setFragment_eq
    {assignments : List (String × Assignment)}
    (nonempty : assignments ≠ []) :
    setFragment assignments = some ("SET " ++
      ", ".intercalate (assignments.map fun entry =>
        entry.2.clause entry.1)) := by
  rw [setFragment, joined_of_ne_nil _ (by simpa using nonempty),
    Option.map_some]

theorem removeFragment_eq
    {removals : List (String × Removal)}
    (nonempty : removals ≠ []) :
    removeFragment removals = some ("REMOVE " ++
      ", ".intercalate (removals.map fun entry =>
        entry.2.clause entry.1)) := by
  rw [removeFragment, joined_of_ne_nil _ (by simpa using nonempty),
    Option.map_some]

theorem updateText_written
    {written : List (String × Assignment)}
    (nonempty : written ≠ []) :
    updateText written [] = "SET " ++
      ", ".intercalate (written.map fun entry => entry.2.clause entry.1) := by
  rw [updateText, setFragment_eq nonempty]
  rfl

theorem updateText_removed
    {removed : List (String × Removal)}
    (nonempty : removed ≠ []) :
    updateText [] removed = "REMOVE " ++
      ", ".intercalate (removed.map fun entry => entry.2.clause entry.1) := by
  rw [updateText, removeFragment_eq nonempty]
  rfl

theorem updateText_both
    {written : List (String × Assignment)}
    {removed : List (String × Removal)}
    (someWritten : written ≠ [])
    (someRemoved : removed ≠ []) :
    updateText written removed = "SET " ++
      (", ".intercalate (written.map fun entry => entry.2.clause entry.1) ++
        (" REMOVE " ++
          ", ".intercalate (removed.map fun entry =>
            entry.2.clause entry.1))) := by
  rw [updateText, setFragment_eq someWritten, removeFragment_eq someRemoved,
    ← String.toList_inj]
  simp [joined]

theorem stops_clause (field : String) (assignment : Assignment) :
    Stops isNameChar (assignment.clause field).toList := by
  cases assignment <;>
    simp [Assignment.clause, equality, itemPath] <;> decide

theorem stops_removal (field : String) (removal : Removal) :
    Stops isNameChar (removal.clause field).toList := by
  cases removal <;> simp [Removal.clause, itemPath] <;> decide

theorem tokens_removal
    {field : String}
    (valid : ValidName field)
    (removal : Removal) :
    tokens (removal.clause field).toList = [aliasToken field] := by
  cases removal with
  | field => exact tokens_aliasOf valid
  | item index => exact tokens_itemPath valid index

theorem fragmentTokens_setFragment
    {assignments : List (String × Assignment)}
    (valid : ∀ field ∈ Members.names assignments, ValidName field) :
    fragmentTokens (setFragment assignments) =
      assignments.flatMap fun entry => entry.2.clauseTokens entry.1 := by
  rw [setFragment, fragmentTokens_headed (by rfl) (by rfl) (by decide),
    List.flatMap_map]
  · exact List.flatMap_congr fun entry member =>
      tokens_clause (valid entry.1 (List.mem_map_of_mem member)) entry.2
  · exact List.forall_mem_map.2 fun entry _ => stops_clause entry.1 entry.2

theorem fragmentTokens_removeFragment
    {removals : List (String × Removal)}
    (valid : ∀ field ∈ Members.names removals, ValidName field) :
    fragmentTokens (removeFragment removals) =
      (Members.names removals).map aliasToken := by
  rw [removeFragment, fragmentTokens_headed (by rfl) (by rfl) (by decide),
    List.flatMap_map, List.map_map, List.map_eq_flatMap]
  · exact List.flatMap_congr fun entry member =>
      tokens_removal (valid entry.1 (List.mem_map_of_mem member)) entry.2
  · exact List.forall_mem_map.2 fun entry _ => stops_removal entry.1 entry.2

theorem allTokens_writeExpression
    (target : Target)
    (returnValues : Option ReturnValues)
    (primary : String × Json)
    {assignments : List (String × Assignment)}
    {removals : List (String × Removal)}
    (validWritten : ∀ field ∈ Members.names assignments, ValidName field)
    (validRemoved : ∀ field ∈ Members.names removals, ValidName field)
    (nonempty : assignments ≠ [] ∨ removals ≠ []) :
    (writeExpression target returnValues primary assignments removals
        (updateText assignments removals)).allTokens =
      (assignments.flatMap fun entry => entry.2.clauseTokens entry.1) ++
        (Members.names removals).map aliasToken := by
  rw [allTokens_eq, ← fragmentTokens_setFragment validWritten,
    ← fragmentTokens_removeFragment validRemoved,
    ← fragmentTokens_spaced (setFragment assignments) (removeFragment removals),
    joined_fragments nonempty]
  rfl

theorem aliasToken_mem_clauseTokens
    (other field : String)
    (assignment : Assignment) :
    aliasToken other ∈ assignment.clauseTokens field ↔ other = field := by
  unfold Assignment.clauseTokens
  split <;>
    simp only [List.mem_cons, List.not_mem_nil, aliasToken_inj,
      aliasToken_ne_placeholderToken, or_false, or_self]

theorem placeholderToken_mem_clauseTokens
    (other field : String)
    (assignment : Assignment) :
    placeholderToken other ∈ assignment.clauseTokens field ↔
      placeholderOf other ∈ Members.names (assignment.bindings field) := by
  have emptyList : emptyListPlaceholder = placeholderOf "emptyList" := rfl
  have differ := fun left right =>
    (aliasToken_ne_placeholderToken left right).symm
  unfold Assignment.clauseTokens Assignment.bindings
  split <;>
    simp only [Members.names, List.map_cons, List.map_nil, List.mem_cons,
      List.not_mem_nil, placeholderToken_inj, differ, emptyList,
      placeholderOf_inj, false_or, or_comm]

/-- Every placeholder that a clause binds is that of some field. -/
theorem exists_placeholderOf_of_mem_bindings
    {token field : String}
    {assignment : Assignment}
    (member : token ∈ Members.names (assignment.bindings field)) :
    ∃ other, placeholderOf other = token := by
  unfold Assignment.bindings at member
  split at member
  · simp only [Members.names, List.map_cons, List.map_nil, List.mem_cons,
      List.not_mem_nil, or_false] at member
    rcases member with rfl | rfl
    · exact ⟨field, rfl⟩
    · exact ⟨"emptyList", rfl⟩
  · exact ⟨field, (List.mem_singleton.1 member).symm⟩

theorem closed_writeExpression
    (target : Target)
    (returnValues : Option ReturnValues)
    (primary : String × Json)
    {assignments : List (String × Assignment)}
    {removals : List (String × Removal)}
    (validWritten : ∀ field ∈ Members.names assignments, ValidName field)
    (validRemoved : ∀ field ∈ Members.names removals, ValidName field)
    (nonempty : assignments ≠ [] ∨ removals ≠ []) :
    (writeExpression target returnValues primary assignments removals
        (updateText assignments removals)).Closed := by
  have all := allTokens_writeExpression target returnValues primary
    validWritten validRemoved nonempty
  constructor
  · intro token
    have names : (writeExpression target returnValues primary assignments
        removals (updateText assignments removals)).names =
          aliases (Members.names assignments ++ Members.names removals) := rfl
    rw [mem_references_names, all, names, mem_keys_aliases]
    simp only [List.mem_append, List.mem_flatMap, List.mem_map,
      aliasToken_mem_clauseTokens, aliasToken_inj, exists_eq_right]
    simp
  · intro token
    rw [mem_references_values, all, SortedMap.mem_keys_iff]
    have values : (writeExpression target returnValues primary assignments
        removals (updateText assignments removals)).values =
          .ofList (assignments.flatMap fun entry =>
            entry.2.bindings entry.1) := rfl
    rw [values, SortedMap.contains_ofList, Members.mem_names_flatMap]
    simp only [List.mem_append, List.mem_flatMap, List.mem_map,
      placeholderToken_mem_clauseTokens, aliasToken_ne_placeholderToken,
      and_false, exists_false, or_false]
    constructor
    · rintro ⟨field, ⟨entry, member, bound⟩, rfl⟩
      exact ⟨entry, member, bound⟩
    · rintro ⟨entry, member, bound⟩
      obtain ⟨other, rfl⟩ :=
        exists_placeholderOf_of_mem_bindings (List.mem_map.2 bound)
      exact ⟨other, ⟨entry, member, bound⟩, rfl⟩

end TableQuery
