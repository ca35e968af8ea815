import Mathlib.Algebra.Group.Nat.Defs
import TableQuery.Proofs.UpdateExpression

/-!
# Positions among the members of a value

A value may carry the position of the list item that it replaces. It is written
in place then, without the member that carries the position. Only positions that
fit a signed 64-bit word are looked for: an object that carries a greater one
replaces the whole field, this member included.
-/

namespace TableQuery

namespace Expression

/-- The text of an expression has the given clauses that write and, if there are
any, the given ones that remove. -/
def HasClauses
    (expression : Expression)
    (writing : List String)
    (removing : Option (List String)) : Prop :=
  expression.update = some (" ".intercalate
    (("SET " ++ ", ".intercalate writing) ::
      (removing.map fun clauses =>
        "REMOVE " ++ ", ".intercalate clauses).toList))

end Expression

/-- The clauses that write. -/
def writingClauses (written : List (String × Assignment)) : List String :=
  written.map fun entry => entry.2.clause entry.1

/-- No field has two clauses: of all ways to write the same value to a field,
only its own one is among the clauses. -/
theorem Expression.eq_of_clause_mem
    {expression : Expression}
    {written : List (String × Assignment)}
    (distinct : (Members.names written).Nodup)
    (binds : ∀ entry ∈ written, expression.Binds entry.1 entry.2.value ∧
      expression.BindsStart entry.2)
    {result : String × Assignment}
    (member : result ∈ written)
    {other : Assignment}
    (noAppend : other.isAppend = false)
    (sameValue : other.value = result.2.value)
    (clause : other.clause result.1 ∈ writingClauses written) :
    other = result.2 := by
  obtain ⟨entry, present, same⟩ := List.mem_map.1 clause
  obtain ⟨bound, start⟩ := binds entry present
  have readEntry := readAssignment_clause bound start (stops_nil _)
  have readOther := readAssignment_clause
    (sameValue ▸ (binds result member).1)
    (fun append => absurd append (by simp [noAppend])) (stops_nil _)
  -- Both clauses are the same text, which is read in one way only.
  rw [same] at readEntry
  obtain rfl : entry = (result.1, other) :=
    (Prod.mk.inj (Option.some.inj (readEntry.symm.trans readOther))).1
  exact Members.agree_of_nodup distinct _ _ _ member present

/-! ## Positions that fit a word -/

/-- The position that an object carries. -/
def CarriesPosition (members : List (String × Json)) (position : Nat) : Prop :=
  ∃ held, members.lookup inlineIndexName =
    some (.number (.int (position : Int) held))

section Carries

variable {members : List (String × Json)} {position : Nat}
  (carries : CarriesPosition members position)

include carries

theorem CarriesPosition.carriesIndex
    (fits : position < 2 ^ 63) :
    ∃ index, CarriesIndex (.object members) index ∧
      index.toInt = position := by
  obtain ⟨held, carried⟩ := carries
  have exact : (Int64.ofInt position).toInt = position :=
    Int64.toInt_ofInt_of_le (by omega) (by omega)
  refine ⟨Int64.ofInt position, ⟨members, by rwa [exact], rfl, ?_⟩, exact⟩
  simp only [exact, carried]

theorem CarriesPosition.not_carriesIndex
    (tooGreat : 2 ^ 63 ≤ position)
    (index : Int64) :
    ¬ CarriesIndex (.object members) index := by
  obtain ⟨held, carried⟩ := carries
  rintro ⟨_, _, same, found⟩
  cases same
  rw [carried] at found
  have below := index.toInt_lt
  have equal : (position : Int) = index.toInt := by simpa using found
  omega

/-- How an edit writes an object that carries a position. -/
theorem CarriesPosition.writes
    {edit : Edit}
    (noAppend : edit.append = false)
    (absent : edit.index = none) :
    edit.Writes (.object members)
      (if position < 2 ^ 63 then
        .setAt position
          (.object (members.filter fun member => member.1 ≠ inlineIndexName))
      else .set (.object members)) := by
  split
  · next fits =>
      obtain ⟨index, carried, same⟩ := carries.carriesIndex fits
      exact .inlinePosition noAppend absent carried same.symm
  · next tooGreat =>
      exact .set noAppend absent
        (carries.not_carriesIndex (Nat.not_lt.1 tooGreat))

end Carries

/-! ## Updates -/

/-- The text of an update whose sections write and remove. -/
theorem hasClauses_writeExpression
    (target : Target)
    (returnValues : Option ReturnValues)
    (key : String × Json)
    {conditions : Conditions}
    {written : List (String × Assignment)}
    {removed : List (String × Removal)}
    (removes : RemovedSection conditions.remove removed)
    (nonempty : written ≠ []) :
    (writeExpression target returnValues key written removed
      (updateText written removed)).HasClauses (writingClauses written)
        (conditions.remove.map fun _ =>
          removed.map fun entry => entry.2.clause entry.1) := by
  unfold Expression.HasClauses
  rw [Option.map_map]
  change some (updateText written removed) = _
  rw [updateText_eq_intercalate, setFragment_eq nonempty,
    removeFragment_section removes]
  rfl

/-- An object that carries a position is written in place and without it, and
its field is not overwritten, if the position fits a signed 64-bit word. The
field is overwritten by the whole object if the position is greater. The clauses
are those of the fields that are written, one for each. -/
theorem compile_inline_position
    {conditions : Conditions}
    {config : Config}
    {expression : Expression}
    (isUpdate : conditions.operation = some .update)
    (compiled : compile conditions config = .ok expression)
    {field : String}
    {edit : Edit}
    (entry : (field, some (.described edit)) ∈
      writtenEntries config (sectionEntries conditions.update))
    (noAppend : edit.append = false)
    (absent : edit.index = none)
    {members : List (String × Json)}
    (value : edit.value = some (.object members))
    {position : Nat}
    (carries : CarriesPosition members position) :
    ∃ written removing, WrittenSection config conditions.update written ∧
      expression.HasClauses (writingClauses written) removing ∧
      expression.names.get? (aliasOf field) = some field ∧
      (position < 2 ^ 63 →
        itemPath field position ++ " = " ++ placeholderOf field ∈
          writingClauses written ∧
        equality field ∉ writingClauses written ∧
        expression.values.get? (placeholderOf field) = some (.object
          (members.filter fun member => member.1 ≠ inlineIndexName))) ∧
      (2 ^ 63 ≤ position →
        equality field ∈ writingClauses written ∧
        itemPath field position ++ " = " ++ placeholderOf field ∉
          writingClauses written ∧
        expression.values.get? (placeholderOf field) =
          some (.object members)) := by
  obtain ⟨target, primary, written, removed, _, _, _, resolvedWritten,
    resolvedRemoved, rfl⟩ :=
      ((compile_eq_ok_iff _ _ _).1 compiled).of_update isUpdate
  have writes := (writtenSection resolvedWritten).1
  have removes := removedSection resolvedRemoved
  obtain ⟨⟨name, assignment⟩, member, sameName, assigns⟩ :=
    exists_mem_right_of_forall₂ writes.resolved entry
  cases sameName
  have resolved := assigns.unique
    ⟨edit, _, rfl, value, carries.writes noAppend absent⟩
  have binds (entry : String × Assignment) (present : entry ∈ written.getD []) :=
    binds_writeExpression target conditions.returnValues primary
      (removed.getD []) (updateText (written.getD []) (removed.getD []))
      writes.valid writes.distinct writes.unclaimed present
  have among : assignment.clause field ∈ writingClauses (written.getD []) :=
    List.mem_map.2 ⟨_, member, rfl⟩
  refine ⟨_, _, writes, hasClauses_writeExpression target _ primary removes
    (List.ne_nil_of_mem member), (binds _ member).1.named, ?_, ?_⟩
  · intro fits
    rw [if_pos fits] at resolved
    subst resolved
    refine ⟨among, fun overwritten => ?_, (binds _ member).1.bound⟩
    have other : Assignment.set _ = Assignment.setAt position _ :=
      Expression.eq_of_clause_mem writes.distinct binds member rfl rfl
        overwritten
    cases other
  · intro tooGreat
    rw [if_neg (Nat.not_lt.2 tooGreat)] at resolved
    subst resolved
    refine ⟨among, fun inPlace => ?_, (binds _ member).1.bound⟩
    have other : Assignment.setAt position _ = Assignment.set _ :=
      Expression.eq_of_clause_mem writes.distinct binds member rfl rfl inPlace
    cases other

/-- An edit that writes an object with a position. -/
def carrying (position : Nat) (held : Number.Held position) : Edit :=
  .set (.object [
    (inlineIndexName, .number (.int position held)),
    ("note", .string "a")])

/-- An update that writes this object to a field. -/
def carriedAt (position : Nat) (held : Number.Held position) : Conditions :=
  Conditions.start "Orders" .update
    |>.withCriterion "id" (.ofPrimary (.string "a"))
    |>.withUpdate "stops" (carrying position held)

/-- The greatest position that fits is written in place. -/
theorem compile_inline_position_carriedAt :
    ∃ expression written removing,
      compile (carriedAt (2 ^ 63 - 1) (by decide)) .default = .ok expression ∧
        expression.HasClauses (writingClauses written) removing ∧
        itemPath "stops" (2 ^ 63 - 1) ++ " = " ++ placeholderOf "stops" ∈
          writingClauses written ∧
        equality "stops" ∉ writingClauses written := by
  have accepts : ∃ expression, compile (carriedAt (2 ^ 63 - 1) (by decide))
      .default = .ok expression := by
    rw [exists_ok_iff]
    decide +kernel
  have entry : ("stops", some (.described (carrying (2 ^ 63 - 1)
      (by decide)))) ∈ writtenEntries .default (sectionEntries
        (carriedAt (2 ^ 63 - 1) (by decide)).update) := by
    decide +kernel
  obtain ⟨expression, compiled⟩ := accepts
  obtain ⟨written, removing, _, text, _, fits, _⟩ :=
    compile_inline_position rfl compiled entry rfl rfl rfl ⟨by decide, rfl⟩
  obtain ⟨inPlace, notOverwritten, _⟩ := fits (by decide)
  exact ⟨expression, written, removing, compiled, text, inPlace,
    notOverwritten⟩

/-- The next position does not fit, and the field is overwritten. -/
theorem compile_inline_position_overwrites :
    (compile (carriedAt (2 ^ 63) (by decide)) .default).toOption.bind
      Expression.update = some "SET #stops = :stops" := by
  decide +kernel

end TableQuery
