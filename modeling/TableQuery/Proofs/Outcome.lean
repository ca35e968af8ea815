import TableQuery.Compile

/-!
# Outcomes of steps

Compilation is a chain of steps each of which may fail. A chain succeeds if all
of its steps do; the stage at which it fails is bookkeeping beside the cause.
-/

namespace TableQuery

variable {ε α β : Type}

@[simp] theorem ok_bind (value : α) (next : α → Except ε β) :
    (.ok value >>= next) = next value := rfl

@[simp] theorem error_bind (cause : ε) (next : α → Except ε β) :
    (.error cause >>= next) = .error cause := rfl

theorem bind_eq_ok_iff
    {first : Except ε α}
    {next : α → Except ε β}
    {result : β} :
    (first >>= next) = .ok result ↔
      ∃ value, first = .ok value ∧ next value = .ok result := by
  cases first <;> simp

theorem map_eq_ok_iff
    {change : α → β}
    {first : Except ε α}
    {result : β} :
    first.map change = .ok result ↔
      ∃ value, first = .ok value ∧ change value = result := by
  cases first <;> simp [Except.map]

/-- Changing the result of a step does not make it succeed or fail. -/
theorem exists_map_ok_iff (change : α → β) (first : Except ε α) :
    (∃ result, first.map change = .ok result) ↔
      ∃ value, first = .ok value := by
  cases first <;> simp [Except.map]

/-- Whether a step succeeds can be evaluated. -/
theorem exists_ok_iff (result : Except ε α) :
    (∃ value, result = .ok value) ↔ result.toOption.isSome = true := by
  cases result <;> simp [Except.toOption]

/-- A check in front of other steps has to succeed. -/
theorem check_bind_eq_ok_iff
    {check : Except ε Unit}
    {next : Unit → Except ε β}
    {result : β} :
    (check >>= next) = .ok result ↔ check = .ok () ∧ next () = .ok result := by
  cases check <;> simp

theorem bind_eq_error_iff
    {first : Except ε α}
    {next : α → Except ε β}
    {cause : ε} :
    (first >>= next) = .error cause ↔
      first = .error cause ∨
        ∃ value, first = .ok value ∧ next value = .error cause := by
  cases first <;> simp

/-- A check fails by itself, or the steps behind it do. -/
theorem check_bind_eq_error_iff
    {check : Except ε Unit}
    {next : Unit → Except ε β}
    {cause : ε} :
    (check >>= next) = .error cause ↔
      check = .error cause ∨ check = .ok () ∧ next () = .error cause := by
  cases check <;> simp

theorem map_eq_error_iff
    {change : α → β}
    {first : Except ε α}
    {cause : ε} :
    first.map change = .error cause ↔ first = .error cause := by
  cases first <;> simp [Except.map]

@[simp] theorem mapError_ok {δ : Type} (change : ε → δ) (value : α) :
    (Except.ok value).mapError change = .ok value := rfl

@[simp] theorem mapError_error {δ : Type} (change : ε → δ) (cause : ε) :
    (Except.error cause : Except ε α).mapError change =
      .error (change cause) := rfl

theorem mapError_eq_ok_iff
    {δ : Type}
    {change : ε → δ}
    {first : Except ε α}
    {value : α} :
    first.mapError change = .ok value ↔ first = .ok value := by
  cases first <;> simp

/-- The causes of a chain are the causes of its steps. -/
theorem mapError_bind
    {δ : Type}
    (change : ε → δ)
    (first : Except ε α)
    (next : α → Except ε β) :
    (first >>= next).mapError change =
      first.mapError change >>= fun value =>
        (next value).mapError change := by
  cases first <;> rfl

/-- A stage adds nothing to the cause of a failure. -/
theorem mapError_cause_run (stage : Stage) (result : Except CompileError α) :
    (stage.run result).mapError Failure.cause = result := by
  cases result <;> rfl

end TableQuery
