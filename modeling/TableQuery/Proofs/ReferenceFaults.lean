import Mathlib.Data.String.Basic
import Mathlib.Order.Bounds.Basic
import TableQuery.Proofs.References

/-!
# Faults of references

An expression, compiled or not, is accepted exactly if the tokens that stand in
its fragments are those that its maps define. There are four kinds of faults:
aliases and placeholders that stand for nothing, and aliases and placeholders
that nothing uses. A refusal names the least token, in code point order, of the
first kind of which there are any.
-/

namespace TableQuery

variable {α : Type}

namespace SortedMap

/-- The names that a map binds. -/
def keySet (map : SortedMap α) : Set String := {name | name ∈ map.keys}

theorem pairwise_keys (map : SortedMap α) : map.keys.Pairwise (· < ·) :=
  List.pairwise_map.2 map.increasing

end SortedMap

/-- The first of increasing names is the least one. -/
theorem head?_eq_some_iff_isLeast
    {names : List String}
    (increasing : names.Pairwise (· < ·))
    (name : String) :
    names.head? = some name ↔ IsLeast {other | other ∈ names} name := by
  cases names with
  | nil => exact iff_of_false nofun fun least => List.not_mem_nil least.1
  | cons first rest =>
      have least : IsLeast {other | other ∈ first :: rest} first := by
        refine ⟨List.mem_cons_self, fun other member => ?_⟩
        rcases List.mem_cons.1 member with rfl | later
        · exact le_refl _
        · exact le_of_lt ((List.pairwise_cons.1 increasing).1 other later)
      rw [List.head?_cons, Option.some.injEq]
      constructor
      · rintro rfl
        exact least
      · exact least.unique

namespace Expression

/-! ## Tokens that are used -/

/-- A text is one of the four fragments that an expression may have. -/
def IsFragment (expression : Expression) (text : String) : Prop :=
  expression.keyCondition = some text ∨ expression.filter = some text ∨
    expression.projection = some text ∨ expression.update = some text

theorem mem_fragments_iff (expression : Expression) (text : String) :
    text ∈ expression.fragments ↔ expression.IsFragment text := by
  simp [fragments, IsFragment, eq_comm]

/-- The tokens with the given mark that stand in the fragments. -/
def used (expression : Expression) (mark : Char) : Set String :=
  {token | ∃ text, expression.IsFragment text ∧
    References.TokenOf text mark token}

theorem mem_used_iff (expression : Expression) (mark : Char) (token : String) :
    token ∈ expression.used mark ↔
      ∃ fragment ∈ expression.fragments,
        References.TokenOf fragment mark token := by
  simp only [mem_fragments_iff]
  rfl

/-! ## Kinds of faults -/

/-- The aliases that are used and stand for nothing. -/
def unresolvedNames (expression : Expression) : Set String :=
  expression.used aliasMark \ expression.names.keySet

/-- The placeholders that are used and stand for nothing. -/
def unresolvedValues (expression : Expression) : Set String :=
  expression.used placeholderMark \ expression.values.keySet

/-- The aliases that are defined and not used. -/
def unusedNames (expression : Expression) : Set String :=
  expression.names.keySet \ expression.used aliasMark

/-- The placeholders that are defined and not used. -/
def unusedValues (expression : Expression) : Set String :=
  expression.values.keySet \ expression.used placeholderMark

/-- Why an expression is refused: for the least token of the first kind of faults
that it has. -/
inductive RefusedFor (expression : Expression) : CompileError → Prop
  | unresolvedName {token : String}
      (least : IsLeast expression.unresolvedNames token) :
      RefusedFor expression (.unresolvedName token)
  | unresolvedValue {token : String}
      (names : expression.unresolvedNames = ∅)
      (least : IsLeast expression.unresolvedValues token) :
      RefusedFor expression (.unresolvedValue token)
  | unusedName {token : String}
      (names : expression.unresolvedNames = ∅)
      (values : expression.unresolvedValues = ∅)
      (least : IsLeast expression.unusedNames token) :
      RefusedFor expression (.unusedName token)
  | unusedValue {token : String}
      (names : expression.unresolvedNames = ∅)
      (values : expression.unresolvedValues = ∅)
      (otherNames : expression.unusedNames = ∅)
      (least : IsLeast expression.unusedValues token) :
      RefusedFor expression (.unusedValue token)

/-! ## The check -/

/-- A list of names in code point order holds the tokens of a kind. -/
structure Lists (leftover : List String) (tokens : Set String) : Prop where
  /-- The names are in order. -/
  increasing : leftover.Pairwise (· < ·)
  /-- They are those of the kind. -/
  mem_iff : ∀ token, token ∈ leftover ↔ token ∈ tokens

namespace Lists

variable {leftover : List String} {tokens : Set String}

theorem noneLeft_eq_ok_iff
    (lists : Lists leftover tokens)
    (error : String → CompileError) :
    noneLeft leftover error = .ok () ↔ tokens = ∅ := by
  rw [Expression.noneLeft_eq_ok_iff, List.eq_nil_iff_forall_not_mem,
    Set.eq_empty_iff_forall_notMem]
  simp only [lists.mem_iff]

theorem noneLeft_eq_error_iff
    (lists : Lists leftover tokens)
    (error : String → CompileError)
    (cause : CompileError) :
    noneLeft leftover error = .error cause ↔
      ∃ token, IsLeast tokens token ∧ error token = cause := by
  have same : {token | token ∈ leftover} = tokens := Set.ext lists.mem_iff
  simp only [← same, ← head?_eq_some_iff_isLeast lists.increasing]
  cases leftover <;> simp [noneLeft]

end Lists

/-- Each of the four lists that are checked holds the faults of one kind. -/
theorem lists_unresolved
    {used : List String}
    {tokens : Set String}
    (lists : Lists used tokens)
    (map : SortedMap α) :
    Lists (used.filter fun name => !map.contains name)
      (tokens \ map.keySet) where
  increasing := lists.increasing.filter _
  mem_iff := by
    intro token
    have unbound : (!map.contains token) = true ↔ token ∉ map.keys := by
      rw [SortedMap.mem_keys_iff, Bool.not_eq_true', Bool.not_eq_true]
    rw [List.mem_filter, lists.mem_iff, unbound]
    rfl

theorem lists_unused
    {used : List String}
    {tokens : Set String}
    (lists : Lists used tokens)
    (map : SortedMap α) :
    Lists (map.keys.filter fun name => name ∉ used)
      (map.keySet \ tokens) where
  increasing := map.pairwise_keys.filter _
  mem_iff := by
    intro token
    rw [List.mem_filter, decide_eq_true_eq, lists.mem_iff]
    rfl

theorem lists_references_names (expression : Expression) :
    Lists expression.references.names (expression.used aliasMark) where
  increasing := SortedMap.pairwise_keys _
  mem_iff token := by rw [mem_names_iff, mem_used_iff]

theorem lists_references_values (expression : Expression) :
    Lists expression.references.values (expression.used placeholderMark) where
  increasing := SortedMap.pairwise_keys _
  mem_iff token := by rw [mem_values_iff, mem_used_iff]

/-- The check looks for the four kinds of faults one after the other. -/
theorem verify_eq_error_iff (expression : Expression) (cause : CompileError) :
    expression.verify = .error cause ↔ expression.RefusedFor cause := by
  have names := expression.lists_references_names
  have values := expression.lists_references_values
  have unresolvedNames := lists_unresolved names expression.names
  have unresolvedValues := lists_unresolved values expression.values
  have unusedNames := lists_unused names expression.names
  have unusedValues := lists_unused values expression.values
  simp only [verify, check_bind_eq_error_iff,
    unresolvedNames.noneLeft_eq_ok_iff, unresolvedNames.noneLeft_eq_error_iff,
    unresolvedValues.noneLeft_eq_ok_iff,
    unresolvedValues.noneLeft_eq_error_iff,
    unusedNames.noneLeft_eq_ok_iff, unusedNames.noneLeft_eq_error_iff,
    unusedValues.noneLeft_eq_error_iff]
  constructor
  · rintro (⟨token, least, rfl⟩ | ⟨noName, ⟨token, least, rfl⟩ |
      ⟨noValue, ⟨token, least, rfl⟩ | ⟨noOther, token, least, rfl⟩⟩⟩)
    · exact .unresolvedName least
    · exact .unresolvedValue noName least
    · exact .unusedName noName noValue least
    · exact .unusedValue noName noValue noOther least
  · rintro (⟨least⟩ | ⟨noName, least⟩ | ⟨noName, noValue, least⟩ |
      ⟨noName, noValue, noOther, least⟩)
    · exact .inl ⟨_, least, rfl⟩
    · exact .inr ⟨noName, .inl ⟨_, least, rfl⟩⟩
    · exact .inr ⟨noName, .inr ⟨noValue, .inl ⟨_, least, rfl⟩⟩⟩
    · exact .inr ⟨noName, .inr ⟨noValue, .inr ⟨noOther, _, least, rfl⟩⟩⟩

/-- An expression is accepted exactly if the tokens of its fragments are those
that its maps define, and otherwise refused for the least token of the first kind
of faults that it has. -/
theorem verify_by_tokens (expression : Expression) :
    (expression.verify = .ok () ↔
      expression.used aliasMark = expression.names.keySet ∧
        expression.used placeholderMark = expression.values.keySet) ∧
    ∀ cause, expression.verify = .error cause ↔
      expression.RefusedFor cause := by
  refine ⟨?_, expression.verify_eq_error_iff⟩
  have names := expression.lists_references_names.mem_iff
  have values := expression.lists_references_values.mem_iff
  rw [verify_eq_ok_iff, Set.ext_iff, Set.ext_iff]
  constructor
  · intro closed
    exact ⟨fun token => (names token).symm.trans (closed.names token),
      fun token => (values token).symm.trans (closed.values token)⟩
  · rintro ⟨usedNames, usedValues⟩
    exact ⟨fun token => (names token).trans (usedNames token),
      fun token => (values token).trans (usedValues token)⟩

/-- Tokens may stand side by side, a mark without a name is none, and what is
defined need not look like a token. -/
example :
    verify { ofTable "Orders" with
      filter := some "#b#a: :",
      names := .ofList [("#a", "a"), ("#b", "b")],
      values := .ofList [("sum", .null), (":", .null), ("\u00e9", .null)] } =
      .error (.unusedValue ":") := by
  decide +kernel

end Expression

end TableQuery
