import Mathlib.Data.List.Induction
import Mathlib.Data.List.Nodup
import Mathlib.Data.List.Perm.Basic

/-!
# First mentions

Names may be mentioned more than once. They are listed once each, in the order
in which they are first mentioned; a name that is mentioned again changes
nothing, and a new name goes to the end.
-/

namespace TableQuery

/-- Names are listed in the order in which they are first mentioned. -/
structure FirstMentions (mentioned listed : List String) : Prop where
  /-- The names that are listed are those that are mentioned. -/
  mem_iff : ∀ name, name ∈ listed ↔ name ∈ mentioned
  /-- None of them is listed twice. -/
  distinct : listed.Nodup
  /-- What is listed earlier is mentioned before what is listed later. -/
  ordered : listed.Pairwise fun earlier later =>
    mentioned.idxOf earlier < mentioned.idxOf later

namespace FirstMentions

variable {mentioned listed : List String}

theorem nil : FirstMentions [] [] := ⟨fun _ => Iff.rfl, .nil, .nil⟩

/-- What is mentioned further on does not change which mention is the first. -/
theorem ordered_concat
    (first : FirstMentions mentioned listed)
    (name : String) :
    listed.Pairwise fun earlier later =>
      (mentioned ++ [name]).idxOf earlier <
        (mentioned ++ [name]).idxOf later := by
  refine first.ordered.imp_of_mem ?_
  intro earlier later earlierMember laterMember below
  rwa [List.idxOf_append_of_mem ((first.mem_iff _).1 earlierMember),
    List.idxOf_append_of_mem ((first.mem_iff _).1 laterMember)]

/-- A name that is mentioned again is not listed again. -/
theorem again
    (first : FirstMentions mentioned listed)
    {name : String}
    (member : name ∈ mentioned) :
    FirstMentions (mentioned ++ [name]) listed where
  mem_iff := by
    intro other
    rw [first.mem_iff, List.mem_append, List.mem_singleton]
    refine (or_iff_left_of_imp ?_).symm
    rintro rfl
    exact member
  distinct := first.distinct
  ordered := first.ordered_concat name

/-- A new name is listed last. -/
theorem concat
    (first : FirstMentions mentioned listed)
    {name : String}
    (new : name ∉ mentioned) :
    FirstMentions (mentioned ++ [name]) (listed ++ [name]) where
  mem_iff := by
    intro other
    rw [List.mem_append, List.mem_append, first.mem_iff]
  distinct := by
    rw [← List.concat_eq_append, List.nodup_concat, first.mem_iff]
    exact ⟨new, first.distinct⟩
  ordered := by
    rw [List.pairwise_append]
    refine ⟨first.ordered_concat name, List.pairwise_singleton _ _, ?_⟩
    intro earlier member last isLast
    obtain rfl := List.mem_singleton.1 isLast
    have mention := (first.mem_iff earlier).1 member
    rw [List.idxOf_append_of_mem mention, List.idxOf_append_of_notMem new]
    have below := List.idxOf_lt_length_of_mem mention
    omega

/-- There is one way to list what is mentioned. -/
theorem unique
    {other : List String}
    (first : FirstMentions mentioned listed)
    (again : FirstMentions mentioned other) : listed = other := by
  have perm : listed.Perm other :=
    (List.perm_ext_iff_of_nodup first.distinct again.distinct).2 fun name =>
      (first.mem_iff name).trans (again.mem_iff name).symm
  refine perm.eq_of_pairwise ?_ first.ordered again.ordered
  intro left right _ _ below above
  exact absurd above (Nat.lt_asymm below)

end FirstMentions

/-- A name that is mentioned already is not listed again. -/
theorem eraseDups_append_cons_of_mem
    {name : String}
    {before : List String}
    (member : name ∈ before)
    (after : List String) :
    (before ++ name :: after).eraseDups = (before ++ after).eraseDups := by
  rw [List.eraseDups_append, List.eraseDups_append, List.cons_removeAll,
    if_neg (by simpa using member)]

theorem eraseDups_concat_of_not_mem
    {name : String}
    {before : List String}
    (new : name ∉ before) :
    (before ++ [name]).eraseDups = before.eraseDups ++ [name] := by
  rw [List.eraseDups_append, List.cons_removeAll, if_pos (by simpa using new)]
  rfl

theorem firstMentions_eraseDups (mentioned : List String) :
    FirstMentions mentioned mentioned.eraseDups := by
  -- Names are listed as they are mentioned, so the induction is on the last one.
  induction mentioned using List.reverseRecOn with
  | nil => exact .nil
  | append_singleton mentioned name hypothesis =>
      by_cases again : name ∈ mentioned
      · rw [eraseDups_append_cons_of_mem again, List.append_nil]
        exact hypothesis.again again
      · rw [eraseDups_concat_of_not_mem again]
        exact hypothesis.concat again

end TableQuery
