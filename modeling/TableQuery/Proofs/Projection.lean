import Mathlib.Logic.Relation
import TableQuery.Proofs.FirstMentions
import TableQuery.Proofs.Resolution
import TableQuery.Proofs.SelectionAcceptance

/-!
# Projections

Asking for fields adds to what a query or a scan is compiled to and changes
nothing of it. The aliases of the fields are listed, each of them once and in the
order in which the fields are first mentioned, and they are defined beside those
that are there anyway. It does not matter whether a field is mentioned by its
name or by its alias, nor how often it is mentioned again.
-/

namespace TableQuery

/-! ## Fields that are mentioned in other ways -/

theorem bareName_of_unmarked
    {field : String}
    (unmarked : field.toList.head? ≠ some '#') : bareName field = field := by
  unfold bareName
  split
  · next rest letters =>
      rw [letters] at unmarked
      exact absurd rfl unmarked
  · rfl

theorem ValidName.bareName_eq
    {name : String}
    (valid : ValidName name) : bareName name = name := by
  apply bareName_of_unmarked
  intro marked
  obtain ⟨rest, letters⟩ := List.head?_eq_some_iff.1 marked
  exact not_validName_mark letters valid

/-- One step from a list of fields to another one that asks for the same. -/
inductive Respells : List String → List String → Prop
  /-- A field without the mark is given with it. -/
  | mark {field : String}
      (unmarked : field.toList.head? ≠ some '#')
      (before after : List String) :
      Respells (before ++ field :: after) (before ++ ("#" ++ field) :: after)
  /-- A field with the mark is given without it. -/
  | unmark
      (field : String)
      (before after : List String) :
      Respells (before ++ ("#" ++ field) :: after) (before ++ field :: after)
  /-- A field is repeated with or without the mark. -/
  | again {field repeated : String} {before : List String}
      (listed : field ∈ before)
      (same : repeated = bareName field ∨ repeated = "#" ++ bareName field)
      (after : List String) :
      Respells (before ++ after) (before ++ repeated :: after)

theorem projectedFields_eq_ok_iff_map (fields names : List String) :
    projectedFields fields = .ok names ↔
      (∀ name ∈ fields.map bareName, ValidName name) ∧
        (fields.map bareName).eraseDups = names := by
  rw [projectedFields_eq_ok_iff, List.forall_mem_map]

theorem Respells.projectedFields
    {fields others names : List String}
    (respells : Respells fields others)
    (accepted : TableQuery.projectedFields fields = .ok names) :
    TableQuery.projectedFields others = .ok names := by
  rw [projectedFields_eq_ok_iff_map] at accepted ⊢
  obtain ⟨valid, rfl⟩ := accepted
  cases respells with
  | mark unmarked before after =>
      simp only [List.map_append, List.map_cons, bareName_alias,
        bareName_of_unmarked unmarked, and_true] at valid ⊢
      exact valid
  | unmark field before after =>
      have validField : ValidName field := by
        rw [← bareName_alias field]
        exact valid _ (List.mem_map_of_mem (by simp))
      simp only [List.map_append, List.map_cons, bareName_alias,
        validField.bareName_eq, and_true] at valid ⊢
      exact valid
  | @again field repeated before listed same after =>
      have member : bareName field ∈ before.map bareName :=
        List.mem_map_of_mem listed
      have validField : ValidName (bareName field) :=
        valid _ (List.mem_map_of_mem (List.mem_append_left _ listed))
      have bare : bareName repeated = bareName field := by
        rcases same with rfl | rfl
        · exact validField.bareName_eq
        · exact bareName_alias _
      rw [List.map_append] at valid ⊢
      rw [List.map_append, List.map_cons, bare]
      rw [List.forall_mem_append] at valid
      rw [List.forall_mem_append, List.forall_mem_cons]
      exact ⟨⟨valid.1, validField, valid.2⟩,
        eraseDups_append_cons_of_mem member _⟩

/-- Fields may be respelled any number of times. -/
theorem projectedFields_of_respells
    {fields others names : List String}
    (respells : Relation.ReflTransGen Respells fields others)
    (accepted : projectedFields fields = .ok names) :
    projectedFields others = .ok names := by
  induction respells with
  | refl => exact accepted
  | tail _ step hypothesis => exact step.projectedFields hypothesis

/-! ## Expressions with and without fields -/

/-- An expression is another one to which fields are added. -/
structure Expression.Projects
    (expression plain : Expression)
    (fields : List String) : Prop where
  /-- Without projection and aliases the expressions are the same, and the other
  one has no projection. -/
  rest : { expression with projection := none, names := plain.names } = plain
  /-- The aliases are those of the other one and those of the fields. -/
  names : ∀ token name, expression.names.get? token = some name ↔
    plain.names.get? token = some name ∨
      ∃ field ∈ fields, bareName field = name ∧ token = "#" ++ name
  /-- The aliases of the fields are listed in the order of their first
  mention. -/
  projection : ∃ listed, FirstMentions (fields.map bareName) listed ∧
    expression.projection =
      some (", ".intercalate (listed.map fun name => "#" ++ name))

theorem projects_readExpression
    (target : Target)
    (startKey : Option (FieldMap Json))
    (primary : Option (String × Json))
    (filters : List (String × Json))
    {fields : List String}
    (nonempty : fields ≠ []) :
    (readExpression target startKey primary filters
        (fields.map bareName).eraseDups).Projects
      (readExpression target startKey primary filters []) fields where
  rest := rfl
  names := by
    intro token name
    have mentioned : name ∈ (fields.map bareName).eraseDups ↔
        ∃ field ∈ fields, bareName field = name := by
      rw [List.mem_eraseDups, List.mem_map]
    simp only [readExpression, get?_aliases_eq_some_iff, List.append_nil,
      List.mem_append, or_and_right, mentioned]
    apply or_congr_right
    constructor
    · rintro ⟨⟨field, member, bare⟩, isAlias⟩
      exact ⟨field, member, bare, isAlias⟩
    · rintro ⟨field, member, bare, isAlias⟩
      exact ⟨⟨field, member, bare⟩, isAlias⟩
  projection := by
    have first := firstMentions_eraseDups (fields.map bareName)
    refine ⟨_, first, ?_⟩
    have some : (fields.map bareName).eraseDups ≠ [] := by
      obtain ⟨field, member⟩ := List.exists_mem_of_ne_nil _ nonempty
      exact List.ne_nil_of_mem
        ((first.mem_iff _).2 (List.mem_map_of_mem (f := bareName) member))
    simp only [readExpression, joined, List.isEmpty_iff, List.map_eq_nil_iff,
      some, if_false]
    rfl

/-- A query or a scan selects the same whatever fields it returns. -/
theorem Compiles.exists_readExpression
    {conditions : Conditions}
    {config : Config}
    {expression : Expression}
    (compiles : Compiles conditions config expression)
    (selects : conditions.operation = some .scan ∨
      conditions.operation = some .query) :
    ∃ target primary filters names,
      projectedFields (conditions.fields.getD []) = .ok names ∧
      expression = readExpression target conditions.lastEvaluatedKey primary
        filters names ∧
      ∀ fields others, projectedFields (fields.getD []) = .ok others →
        Compiles { conditions with fields := fields } config
          (readExpression target conditions.lastEvaluatedKey primary filters
            others) := by
  cases compiles with
  | scan found operation admissible projectable =>
      refine ⟨_, _, _, _,
        (projectedFields_eq_ok_iff _ _).2 ⟨projectable, rfl⟩, rfl, ?_⟩
      intro fields others accepted
      obtain ⟨valid, rfl⟩ := (projectedFields_eq_ok_iff _ _).1 accepted
      exact .scan found operation admissible valid
  | query found operation admissible key projectable =>
      refine ⟨_, _, _, _,
        (projectedFields_eq_ok_iff _ _).2 ⟨projectable, rfl⟩, rfl, ?_⟩
      intro fields others accepted
      obtain ⟨valid, rfl⟩ := (projectedFields_eq_ok_iff _ _).1 accepted
      exact .query found operation admissible key valid
  | update found operation _ _ _ _ =>
      rw [Conditions.operation_of_target found operation] at selects
      rcases selects with selects | selects <;> cases selects

/-- Conditions that ask for fields compile without them to the same expression
but for its projection and aliases, and to the same expression if they ask in
another way. -/
theorem compile_projected
    {conditions : Conditions}
    {config : Config}
    {expression : Expression}
    {fields : List String}
    (selects : conditions.operation = some .scan ∨
      conditions.operation = some .query)
    (given : conditions.fields = some fields)
    (nonempty : fields ≠ [])
    (compiled : compile conditions config = .ok expression) :
    (∃ plain, compile { conditions with fields := none } config = .ok plain ∧
      expression.Projects plain fields) ∧
    ∀ others, Relation.ReflTransGen Respells fields others →
      compile { conditions with fields := some others } config =
        .ok expression := by
  simp only [compile_eq_ok_iff] at compiled ⊢
  obtain ⟨target, primary, filters, names, accepted, rfl, again⟩ :=
    compiled.exists_readExpression selects
  rw [given] at accepted
  constructor
  · refine ⟨_, again none [] rfl, ?_⟩
    obtain ⟨_, rfl⟩ := (projectedFields_eq_ok_iff _ _).1 accepted
    exact projects_readExpression _ _ _ _ nonempty
  · intro others respells
    exact again (some others) names
      (projectedFields_of_respells respells accepted)

/-- A scan that filters by one field and returns others. -/
def scanned (fields : List String) : Conditions :=
  Conditions.start "Orders" .scan
    |>.withCriterion "id" (.ofEqual (.string "a"))
    |>.withFields fields

/-- One of the fields is filtered by already, and all ways to respell them are
used. -/
theorem compile_projected_scanned :
    ∃ expression plain,
      compile (scanned ["note", "#id"]) .default = .ok expression ∧
      compile { scanned ["note", "#id"] with fields := none } .default =
        .ok plain ∧
      expression.Projects plain ["note", "#id"] ∧
      compile (scanned ["#note", "id", "note"]) .default = .ok expression := by
  have accepts : ∃ expression,
      compile (scanned ["note", "#id"]) .default = .ok expression := by
    rw [exists_ok_iff]
    decide +kernel
  obtain ⟨expression, compiled⟩ := accepts
  obtain ⟨⟨plain, compiledPlain, projects⟩, respelled⟩ :=
    compile_projected (.inl rfl) rfl (by decide) compiled
  refine ⟨expression, plain, compiled, compiledPlain, projects, ?_⟩
  apply respelled ["#note", "id", "note"]
  have marked : Respells ["note", "#id"] ["#note", "#id"] :=
    .mark (by decide) [] ["#id"]
  have unmarked : Respells ["#note", "#id"] ["#note", "id"] :=
    .unmark "id" ["#note"] []
  have listed : "#note" ∈ ["#note", "id"] := by simp
  have repeated : Respells ["#note", "id"] ["#note", "id", "note"] :=
    .again listed (.inl (by decide)) []
  exact ((Relation.ReflTransGen.single marked).tail unmarked).tail repeated

/-- A field that is given by its alias cannot be marked again. -/
theorem compile_projected_markedAgain :
    (∃ expression, compile (scanned ["#note"]) .default = .ok expression) ∧
      compile (scanned ["##note"]) .default =
        .error (.invalidFieldName "#note") := by
  rw [exists_ok_iff]
  refine ⟨?_, ?_⟩ <;> decide +kernel

end TableQuery
