import TableQuery.Proofs.Bindings
import TableQuery.Proofs.Outcome
import TableQuery.Proofs.Scanning

/-!
# Closed expressions

An expression is closed if its fragments use exactly the aliases and the
placeholders that its maps define. The last check of compilation accepts the
closed expressions and no others. Whatever is assembled from valid field names
is closed, because every clause brings its own definitions with it.
-/

namespace TableQuery

namespace Expression

/-- Every token stands for something and everything that is defined is used. -/
structure Closed (expression : Expression) : Prop where
  /-- The aliases that are used are those that are defined. -/
  names : ∀ token,
    token ∈ expression.references.names ↔ token ∈ expression.names.keys
  /-- The placeholders that are used are those that are defined. -/
  values : ∀ token,
    token ∈ expression.references.values ↔ token ∈ expression.values.keys

theorem noneLeft_eq_ok_iff
    (leftover : List String)
    (error : String → CompileError) :
    noneLeft leftover error = .ok () ↔ leftover = [] := by
  cases leftover <;> simp [noneLeft]

/-- The check accepts the closed expressions. -/
theorem verify_eq_ok_iff (expression : Expression) :
    expression.verify = .ok () ↔ expression.Closed := by
  have checks : expression.verify = .ok () ↔
      (∀ token ∈ expression.references.names,
          expression.names.contains token = true) ∧
        (∀ token ∈ expression.references.values,
          expression.values.contains token = true) ∧
        (∀ token ∈ expression.names.keys,
          token ∈ expression.references.names) ∧
        ∀ token ∈ expression.values.keys,
          token ∈ expression.references.values := by
    simp only [verify, check_bind_eq_ok_iff, noneLeft_eq_ok_iff,
      List.filter_eq_nil_iff]
    simp
  rw [checks]
  constructor
  · rintro ⟨resolvedNames, resolvedValues, usedNames, usedValues⟩
    constructor
    · intro token
      exact ⟨fun used => (SortedMap.mem_keys_iff _ _).2
        (resolvedNames token used), usedNames token⟩
    · intro token
      exact ⟨fun used => (SortedMap.mem_keys_iff _ _).2
        (resolvedValues token used), usedValues token⟩
  · intro closed
    refine ⟨fun token used => ?_, fun token used => ?_,
      fun token => (closed.names token).2, fun token => (closed.values token).2⟩
    · exact (SortedMap.mem_keys_iff _ _).1 ((closed.names token).1 used)
    · exact (SortedMap.mem_keys_iff _ _).1 ((closed.values token).1 used)

/-! ## Assembled expressions -/

/-- The tokens of all fragments in order. -/
def allTokens (expression : Expression) : List (Char × List Char) :=
  expression.fragments.flatMap fun fragment => tokens fragment.toList

/-- A token of a fragment is among all of them. -/
theorem exists_tokenOf_iff
    (expression : Expression)
    (mark : Char)
    (token : String) :
    (∃ fragment ∈ expression.fragments,
      References.TokenOf fragment mark token) ↔
        ∃ field : String, (mark, field.toList) ∈ expression.allTokens ∧
          String.ofList (mark :: field.toList) = token := by
  simp only [References.TokenOf, ← mem_tokens_iff, allTokens, List.mem_flatMap]
  constructor
  · rintro ⟨fragment, present, name, member, rfl⟩
    exact ⟨String.ofList name, ⟨fragment, present, by simpa using member⟩,
      by simp⟩
  · rintro ⟨field, ⟨fragment, present, member⟩, rfl⟩
    exact ⟨fragment, present, field.toList, member, rfl⟩

theorem mem_references_names (expression : Expression) (token : String) :
    token ∈ expression.references.names ↔
      ∃ field, aliasToken field ∈ expression.allTokens ∧
        aliasOf field = token := by
  simp only [mem_names_iff, exists_tokenOf_iff, ofList_aliasMark]

theorem mem_references_values (expression : Expression) (token : String) :
    token ∈ expression.references.values ↔
      ∃ field, placeholderToken field ∈ expression.allTokens ∧
        placeholderOf field = token := by
  simp only [mem_values_iff, exists_tokenOf_iff, ofList_placeholderMark]

/-- The tokens of a fragment that may be missing. -/
def fragmentTokens (fragment : Option String) : List (Char × List Char) :=
  fragment.toList.flatMap fun text => tokens text.toList

theorem allTokens_eq (expression : Expression) :
    expression.allTokens =
      fragmentTokens expression.keyCondition ++
        fragmentTokens expression.filter ++
        fragmentTokens expression.projection ++
        fragmentTokens expression.update := by
  unfold allTokens fragments fragmentTokens
  cases expression.keyCondition <;> cases expression.filter <;>
    cases expression.projection <;> cases expression.update <;> simp

end Expression

open Expression

theorem tokens_intercalate_toList
    {separator : String}
    (silent : tokens separator.toList = [])
    (separates : Stops isNameChar separator.toList)
    {clauses : List String}
    (clauseStops : ∀ clause ∈ clauses, Stops isNameChar clause.toList) :
    tokens (separator.intercalate clauses).toList =
      clauses.flatMap fun clause => tokens clause.toList := by
  have textStops : ∀ text ∈ clauses.map String.toList,
      Stops isNameChar text := by
    simpa using clauseStops
  rw [String.toList_intercalate,
    tokens_intercalate silent separates textStops, List.flatMap_map]

theorem fragmentTokens_joined
    {separator : String}
    (silent : tokens separator.toList = [])
    (separates : Stops isNameChar separator.toList)
    {clauses : List String}
    (clauseStops : ∀ clause ∈ clauses, Stops isNameChar clause.toList) :
    fragmentTokens (joined separator clauses) =
      clauses.flatMap fun clause => tokens clause.toList := by
  rw [← tokens_intercalate_toList silent separates clauseStops]
  cases clauses with
  | nil => rfl
  | cons clause clauses => simp [joined, fragmentTokens]

/-- A word in front of clauses adds no token. -/
theorem fragmentTokens_headed
    {word separator : String}
    (silentWord : tokens word.toList = [])
    (silent : tokens separator.toList = [])
    (separates : Stops isNameChar separator.toList)
    {clauses : List String}
    (clauseStops : ∀ clause ∈ clauses, Stops isNameChar clause.toList) :
    fragmentTokens ((joined separator clauses).map (word ++ ·)) =
      clauses.flatMap fun clause => tokens clause.toList := by
  rw [← tokens_intercalate_toList silent separates clauseStops]
  have stops : Stops isNameChar (separator.intercalate clauses).toList := by
    rw [String.toList_intercalate]
    exact separates.intercalate (by simpa using clauseStops)
  cases clauses with
  | nil => rfl
  | cons clause clauses =>
      simp only [joined, List.isEmpty_cons, Bool.false_eq_true, if_false,
        Option.map_some, fragmentTokens, Option.toList_some,
        List.flatMap_singleton, String.toList_append]
      rw [tokens_append _ stops, silentWord, List.nil_append]

/-- Two fragments with a space between them have the tokens of both. -/
theorem fragmentTokens_spaced (left right : Option String) :
    fragmentTokens (joined " " (left.toList ++ right.toList)) =
      fragmentTokens left ++ fragmentTokens right := by
  cases left with
  | none => cases right <;> simp [joined, fragmentTokens]
  | some left =>
      cases right with
      | none => simp [joined, fragmentTokens]
      | some right =>
          have spaced : tokens (' ' :: right.toList) = tokens right.toList := by
            rw [tokens, if_neg (by decide)]
          have stops : Stops isNameChar (' ' :: right.toList) := by
            rw [stops_cons]
            decide
          simp only [joined, fragmentTokens, Option.toList_some,
            List.cons_append, List.nil_append, List.isEmpty_cons,
            Bool.false_eq_true, if_false, List.flatMap_singleton,
            String.intercalate_cons_cons, String.intercalate_singleton,
            String.toList_append, List.append_assoc]
          rw [← spaced, ← tokens_append _ stops]
          rfl

/-! ### What the maps define -/

theorem mem_keys_aliases (fields : List String) (token : String) :
    token ∈ (aliases fields).keys ↔
      ∃ field ∈ fields, aliasOf field = token := by
  rw [SortedMap.mem_keys_iff, aliases, SortedMap.contains_ofList]
  simp

/-- An alias stands for the field that it is made of. -/
theorem eq_aliasOf_of_mem_aliases
    {fields : List String}
    {entry : String × String}
    (member : entry ∈ (aliases fields).entries) :
    entry.1 = aliasOf entry.2 := by
  obtain ⟨field, _, rfl⟩ := List.mem_map.1 (SortedMap.mem_of_mem_ofList member)
  rfl

theorem mem_keys_placeholders
    (values : List (String × Json))
    (token : String) :
    token ∈ (placeholders values).keys ↔
      ∃ field ∈ Members.names values, placeholderOf field = token := by
  rw [SortedMap.mem_keys_iff, placeholders, SortedMap.contains_ofList]
  simp

end TableQuery
