import TableQuery.Proofs.Assembly
import TableQuery.Proofs.Marshalling
import TableQuery.Store.Recording

/-!
# What calls leave behind

A call submits the request for its conditions if these name its operation and
compile, or for its document if that is an object; otherwise it submits nothing.
A recording store therefore holds the requests of just these calls, and what a
call gives depends on the reply to its own request only.
-/

namespace TableQuery

/-! ## Requests of calls -/

/-- The request for conditions that name an operation and compile. -/
def Conditions.request?
    (config : Config)
    (operation : Operation)
    (conditions : Conditions) : Option Request :=
  if conditions.operation = some operation then
    (compile conditions config).toOption.map (Request.ofExpression operation)
  else none

/-- The request that a call submits, if it gets that far. -/
def Call.request? (config : Config) : Call → Option Request
  | .query conditions => conditions.request? config .query
  | .scan conditions => conditions.request? config .scan
  | .update conditions => conditions.request? config .update
  | .put tableName (.object members) =>
      some (.put ⟨tableName, .ofMembers members, some .none⟩)
  | .put _ _ => none
  | .createExpression _ => none

/-- Conditions that compile name an operation. -/
theorem Conditions.operation_of_compile
    {conditions : Conditions}
    {config : Config}
    {expression : Expression}
    (compiled : compile conditions config = .ok expression) :
    ∃ operation, conditions.operation = some operation := by
  cases (compile_eq_ok_iff _ _ _).1 compiled with
  | scan found isScan _ _ =>
      exact ⟨_, operation_of_target found isScan⟩
  | query found isQuery _ _ _ =>
      exact ⟨_, operation_of_target found isQuery⟩
  | update found isUpdate _ _ _ _ =>
      exact ⟨_, operation_of_target found isUpdate⟩

/-! ## Refusals -/

/-- An error that a client raises itself, before it submits anything. -/
def StoreError.IsRefusal : StoreError → Prop
  | .compile _ => True
  | .operationMismatch _ _ => True
  | .invalidItem => True
  | .unsupportedAttribute _ => False
  | .backend _ => False

section Refusals

variable {σ : Type} (client : Client σ) (operation : Operation)
  (conditions : Conditions)

/-- The request is that for the expression that conditions compile to. -/
theorem request?_eq :
    conditions.request? client.config operation =
      (client.compileFor operation conditions).toOption.map
        (Request.ofExpression operation) := by
  unfold Conditions.request? Client.compileFor
  cases named : conditions.operation with
  | none =>
      cases compiled : compile conditions client.config with
      | error cause => simp [Except.toOption]
      | ok expression =>
          obtain ⟨_, found⟩ := Conditions.operation_of_compile compiled
          rw [named] at found
          cases found
  | some found =>
      by_cases same : found = operation
      · cases compile conditions client.config <;>
          simp [same, Except.toOption]
      · simp [same, Except.toOption]

theorem isRefusal_of_compileFor
    {error : StoreError}
    (failed : client.compileFor operation conditions = .error error) :
    error.IsRefusal := by
  have ofCompile : ∀ {cause : StoreError},
      (compile conditions client.config).mapError .compile = .error cause →
        cause.IsRefusal := by
    intro cause failed
    cases compiled : compile conditions client.config with
    | error reason =>
        rw [compiled] at failed
        cases failed
        trivial
    | ok expression =>
        rw [compiled] at failed
        cases failed
  unfold Client.compileFor at failed
  cases named : conditions.operation with
  | none =>
      simp only [named] at failed
      exact ofCompile failed
  | some found =>
      simp only [named] at failed
      split at failed
      · exact ofCompile failed
      · cases failed
        trivial

end Refusals

/-! ## Single calls -/

/-- What a call gives if it is the only one. -/
def Client.resultOf
    (client : Client Recording)
    (reply : Option Reply)
    (call : Call) : Except StoreError Answer :=
  ((client.call call).run (Recording.start.withReply reply)).1

section Recorded

variable (config : Config)

/-- The client of a recording store. -/
abbrev Client.recorded : Client Recording := ⟨Recording.store, config⟩

/-- A step records a request, or none, and uses up the reply to it. -/
structure RecordsOnly
    (step : StoreM Recording Answer)
    (request : Option Request) : Prop where
  /-- What the step gives does not depend on what was recorded before. -/
  run : ∀ (reply : Option Reply) (recording : Recording),
    step.run (recording.withReply reply) =
      ((step.run (Recording.start.withReply reply)).1,
        ⟨if request.isSome then none else reply,
          recording.requests ++ request.toList⟩)
  /-- Once the request is recorded, only the store makes the step fail. -/
  failure : ∀ (reply : Option Reply) (error : StoreError),
    request ≠ none →
      (step.run (Recording.start.withReply reply)).1 = .error error →
        reply = some (.failure error)

/-- An answer of the store is recorded. -/
theorem recordsOnly_answer
    {α : Type}
    (request : Request)
    (empty : α)
    (read : Reply → α)
    (wrap : α → Answer) :
    RecordsOnly
      (Recording.answer request empty read >>= fun found => pure (wrap found))
      (some request) where
  run reply recording := by rcases reply with _ | _ | _ | _ <;> rfl
  failure reply error _ failed := by
    rcases reply with _ | _ | _ | cause
    · cases failed
    · cases failed
    · cases failed
    · cases failed
      rfl

/-- A result that is known without the store records nothing. -/
theorem recordsOnly_ofExcept (result : Except StoreError Answer) :
    RecordsOnly (StoreM.ofExcept result) none where
  run reply recording := by
    simp only [Option.toList_none, List.append_nil]
    rfl
  failure reply error present := absurd rfl present

/-- Conditions are compiled before anything is recorded. -/
theorem recordsOnly_submit
    {α : Type}
    (operation : Operation)
    (conditions : Conditions)
    (empty : α)
    (read : Reply → α)
    (wrap : α → Answer) :
    RecordsOnly
      ((do
        let expression ← StoreM.ofExcept
          ((Client.recorded config).compileFor operation conditions)
        Recording.answer (.ofExpression operation expression) empty read) >>=
          fun found => pure (wrap found))
      (conditions.request? config operation) := by
  rw [show conditions.request? config operation = _ from
    request?_eq (Client.recorded config) operation conditions]
  cases (Client.recorded config).compileFor operation conditions with
  | error error => exact recordsOnly_ofExcept (.error error)
  | ok expression => exact recordsOnly_answer _ empty read wrap

/-- A call records its request only. -/
theorem recordsOnly_call (call : Call) :
    RecordsOnly ((Client.recorded config).call call)
      (call.request? config) := by
  cases call with
  | query conditions =>
      exact recordsOnly_submit config .query conditions _ _ _
  | scan conditions =>
      exact recordsOnly_submit config .scan conditions _ _ _
  | update conditions =>
      exact recordsOnly_submit config .update conditions _ _ _
  | put tableName item =>
      cases item with
      | object members => exact recordsOnly_answer _ _ _ _
      | _ => exact recordsOnly_ofExcept (.error .invalidItem)
  | createExpression conditions => exact recordsOnly_ofExcept _

/-- Conditions without a request are refused. -/
theorem refused_submit
    {α : Type}
    {operation : Operation}
    {conditions : Conditions}
    (nothing : conditions.request? config operation = none)
    (submit : Expression → StoreM Recording α)
    (next : α → StoreM Recording Answer)
    (recording : Recording) :
    ∃ error,
      (((do
        let expression ← StoreM.ofExcept
          ((Client.recorded config).compileFor operation conditions)
        submit expression) >>= next).run recording).1 = .error error ∧
      error.IsRefusal := by
  rw [show conditions.request? config operation = _ from
    request?_eq (Client.recorded config) operation conditions] at nothing
  cases compiled : (Client.recorded config).compileFor operation conditions with
  | error error => exact ⟨error, rfl, isRefusal_of_compileFor _ _ _ compiled⟩
  | ok expression =>
      rw [compiled] at nothing
      cases nothing

/-- A call without a request only compiles, or it is refused. -/
theorem refused_call
    {call : Call}
    (nothing : call.request? config = none)
    (reply : Option Reply) :
    (∃ conditions, call = .createExpression conditions) ∨
      ∃ error, (Client.recorded config).resultOf reply call = .error error ∧
        error.IsRefusal := by
  cases call with
  | query conditions => exact .inr (refused_submit config nothing _ _ _)
  | scan conditions => exact .inr (refused_submit config nothing _ _ _)
  | update conditions => exact .inr (refused_submit config nothing _ _ _)
  | put tableName item =>
      cases item with
      | object members => cases nothing
      | _ => exact .inr ⟨.invalidItem, rfl, trivial⟩
  | createExpression conditions => exact .inl ⟨conditions, rfl⟩

/-- Nothing is recorded exactly if a call only compiles or is refused, provided
that the store itself does not reply with a refusal. -/
theorem request?_eq_none_iff
    {reply : Option Reply}
    (genuine : ∀ error, reply = some (.failure error) → ¬ error.IsRefusal)
    (call : Call) :
    call.request? config = none ↔
      (∃ conditions, call = .createExpression conditions) ∨
        ∃ error, (Client.recorded config).resultOf reply call =
          .error error ∧ error.IsRefusal := by
  constructor
  · exact fun nothing => refused_call config nothing reply
  · rintro (⟨conditions, rfl⟩ | ⟨error, failed, refusal⟩)
    · rfl
    · by_contra present
      have replied := (recordsOnly_call config call).failure reply error
        present failed
      exact genuine error replied refusal

end Recorded

/-! ## Runs -/

/-- A run records the requests of its calls, and each call gives what it gives
on its own. -/
theorem callAll_run
    (config : Config)
    (steps : List (Option Reply × Call))
    (recording : Recording) :
    ((Client.recorded config).callAll steps recording).2.requests =
        recording.requests ++ steps.filterMap (fun step =>
          step.2.request? config) ∧
      ((Client.recorded config).callAll steps recording).1 =
        steps.map fun step =>
          (Client.recorded config).resultOf step.1 step.2 := by
  induction steps generalizing recording with
  | nil => exact ⟨by simp [Client.callAll], rfl⟩
  | cons step rest hypothesis =>
      obtain ⟨reply, call⟩ := step
      have first := (recordsOnly_call config call).run reply recording
      obtain ⟨requests, results⟩ := hypothesis
        ⟨if (call.request? config).isSome then none else reply,
          recording.requests ++ (call.request? config).toList⟩
      simp only [Client.callAll, first]
      constructor
      · rw [requests, List.append_assoc]
        cases recorded : call.request? config <;> simp [recorded]
      · rw [results]
        rfl

/-- What a run of calls, each with the reply to its request, leaves behind. -/
structure Recording.Keeps
    (config : Config)
    (steps : List (Option Reply × Call))
    (before : Recording)
    (results : List (Except StoreError Answer))
    (after : Recording) : Prop where
  /-- The requests of the calls are recorded in their order, and nothing else:
  for conditions, that for the expression that they compile to for the operation
  that they name, and for an object, that to put it. -/
  requests : after.requests =
    before.requests ++ steps.filterMap fun step => step.2.request? config
  /-- Every object is put as an item that binds each name to the attribute value
  of the member of that name, the last one if there are several. -/
  items : ∀ reply tableName members,
    (reply, .put tableName (.object members)) ∈ steps →
      ∃ item : Item, .put ⟨tableName, item, some .none⟩ ∈ after.requests ∧
        ∀ name, item.get? name =
          (members.reverse.lookup name).map Attribute.ofDocument
  /-- Each call gives what it gives on its own with the same reply. -/
  results : results = steps.map fun step =>
    (Client.recorded config).resultOf step.1 step.2
  /-- A call leaves what was recorded as it was exactly if it only compiles, or
  if it fails because its conditions name another operation or do not compile or
  because its document is no object. The store itself does not reply with such a
  failure. -/
  unchanged : ∀ earlier reply call later,
    steps = earlier ++ (reply, call) :: later →
    (∀ error, reply = some (.failure error) → ¬ error.IsRefusal) →
      (((Client.recorded config).callAll (earlier ++ [(reply, call)])
          before).2.requests =
        ((Client.recorded config).callAll earlier before).2.requests ↔
      (∃ conditions, call = .createExpression conditions) ∨
        ∃ error, (Client.recorded config).resultOf reply call =
          .error error ∧ error.IsRefusal)

/-- Calls are independent of one another, and a store sees nothing of those
that are refused. -/
theorem callAll_keeps
    (config : Config)
    (steps : List (Option Reply × Call))
    (recording : Recording) :
    Recording.Keeps config steps recording
      ((Client.recorded config).callAll steps recording).1
      ((Client.recorded config).callAll steps recording).2 := by
  obtain ⟨requests, results⟩ := callAll_run config steps recording
  refine ⟨requests, ?items, results, ?unchanged⟩
  case items =>
    intro reply tableName members present
    refine ⟨.ofMembers members, ?_, Item.get?_ofMembers members⟩
    rw [requests]
    exact List.mem_append_right _ (List.mem_filterMap.2 ⟨_, present, rfl⟩)
  case unchanged =>
    intro earlier reply call later _ genuine
    rw [← request?_eq_none_iff config genuine call,
      (callAll_run config (earlier ++ [(reply, call)]) recording).1,
      (callAll_run config earlier recording).1, List.filterMap_append,
      ← List.append_assoc, List.append_right_eq_self]
    cases recorded : call.request? config <;> simp [recorded]

/-- Calls of which three are refused and two reach the store, which fails to
answer the first of these. -/
def mixedCalls : List (Option Reply × Call) :=
  let scan := Conditions.start "Spaces" .scan
  let unkeyed := Conditions.start "Users" .query
  let document : Json := .object [("id", .string "u1")]
  [(none, .createExpression scan),
    (none, .query scan),
    (some (.failure (.backend "throttled")), .scan scan),
    (some (.page .empty), .query unkeyed),
    (none, .put "Users" .null),
    (none, .put "Users" document)]

theorem callAll_keeps_mixedCalls :
    ((Client.recorded .default).callAll mixedCalls .start).2.requests.map
        Request.apiName = ["Scan", "PutItem"] ∧
      ((Client.recorded .default).callAll (mixedCalls.take 2)
          .start).2.requests =
        ((Client.recorded .default).callAll (mixedCalls.take 1)
          .start).2.requests := by
  have keeps := callAll_keeps .default mixedCalls .start
  have mismatch : StoreError.IsRefusal (.operationMismatch .query .scan) :=
    trivial
  refine ⟨?_, ?_⟩
  · rw [keeps.requests]
    decide +kernel
  · exact (keeps.unchanged (mixedCalls.take 1) none
      (.query (.start "Spaces" .scan)) (mixedCalls.drop 2) rfl
      (fun _ failed => nomatch failed)).2 (.inr ⟨_, by rfl, mismatch⟩)

end TableQuery
