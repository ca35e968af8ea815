import TableQuery.Compile
import TableQuery.Response

/-!
# Stores and clients

A store answers requests and may change its state when it does. A client
compiles conditions for the operation that is invoked, refuses conditions that
were written for another one, and submits the request.
-/

namespace TableQuery

variable {σ α : Type}

/-- Why a call of a client fails. -/
inductive StoreError
  /-- The conditions do not compile. -/
  | compile (cause : CompileError)
  /-- The conditions were written for another operation. -/
  | operationMismatch (expected found : Operation)
  /-- The document to put is no object. -/
  | invalidItem
  /-- The store returned a value that has no document. -/
  | unsupportedAttribute (kind : String)
  /-- The store itself failed. -/
  | backend (reason : String)
  deriving DecidableEq

namespace StoreError

/-- The message of an error. -/
def message : StoreError → String
  | compile cause => cause.message
  | operationMismatch expected found =>
      "conditions target " ++ found.name ++ " but " ++ expected.name
        ++ " was invoked"
  | invalidItem => "item must be a JSON object"
  | unsupportedAttribute kind =>
      "unsupported attribute type in response: " ++ kind
  | backend reason => reason

end StoreError

/-- A computation that may fail and that reads and changes a state. Changes
made before a failure stay. -/
abbrev StoreM (σ α : Type) := ExceptT StoreError (StateM σ) α

/-- A result that does not depend on the state. -/
def StoreM.ofExcept (result : Except StoreError α) : StoreM σ α :=
  ExceptT.mk (pure result)

/-- What does not depend on the state goes on from what was given before. -/
theorem StoreM.run_bind_ofExcept
    {β : Type}
    (first : StoreM σ α)
    (next : α → Except StoreError β)
    (state : σ) :
    ((first >>= fun value => ofExcept (next value)).run state).1 =
      (first.run state).1 >>= next := by
  obtain ⟨⟨result, after⟩, isResult⟩ :
      ∃ outcome : Except StoreError α × σ, first.run state = outcome :=
    ⟨_, rfl⟩
  change (ExceptT.bindCont (fun value => ofExcept (next value))
    (first.run state).1 (first.run state).2).1 = _
  rw [isResult]
  cases result <;> rfl

/-- The requests that a store answers. -/
structure Store (σ : Type) where
  /-- Answer a query. -/
  query : QueryRequest → StoreM σ Page
  /-- Answer a scan. -/
  scan : ScanRequest → StoreM σ Page
  /-- Change an item. -/
  update : UpdateRequest → StoreM σ Written
  /-- Put an item. -/
  put : PutRequest → StoreM σ Written

/-- A store together with the configuration to compile with. -/
structure Client (σ : Type) where
  /-- The store. -/
  store : Store σ
  /-- The configuration. -/
  config : Config

namespace Client

/-- Compile conditions without submitting anything. -/
def createExpression (client : Client σ) (conditions : Conditions) :
    Except CompileError Expression :=
  TableQuery.compile conditions client.config

/-- Compile conditions for an operation that they do not contradict. -/
def compileFor
    (client : Client σ)
    (expected : Operation)
    (conditions : Conditions) : Except StoreError Expression :=
  let compiled :=
    (TableQuery.compile conditions client.config).mapError .compile
  match conditions.operation with
  | some found =>
      if found = expected then compiled
      else .error (.operationMismatch expected found)
  | none => compiled

/-- Compile conditions and submit a query. -/
def query (client : Client σ) (conditions : Conditions) : StoreM σ Page := do
  let expression ← StoreM.ofExcept (client.compileFor .query conditions)
  client.store.query (.ofExpression expression)

/-- Compile conditions and submit a scan. -/
def scan (client : Client σ) (conditions : Conditions) : StoreM σ Page := do
  let expression ← StoreM.ofExcept (client.compileFor .scan conditions)
  client.store.scan (.ofExpression expression)

/-- Compile conditions and submit an update. -/
def update (client : Client σ) (conditions : Conditions) :
    StoreM σ Written := do
  let expression ← StoreM.ofExcept (client.compileFor .update conditions)
  client.store.update (.ofExpression expression)

/-- Put a whole document into a table. -/
def put (client : Client σ) (tableName : String) (item : Json) :
    StoreM σ Written :=
  match PutRequest.ofDocument? tableName item with
  | some request => client.store.put request
  | none => StoreM.ofExcept (.error .invalidItem)

end Client

/-! ## Calls -/

/-- One call of a client. -/
inductive Call
  | query (conditions : Conditions)
  | scan (conditions : Conditions)
  | update (conditions : Conditions)
  | put (tableName : String) (item : Json)
  | createExpression (conditions : Conditions)
  deriving DecidableEq

/-- What a call gives. -/
inductive Answer
  /-- A page of items. -/
  | page (page : Page)
  /-- The attributes of an updated item. -/
  | updated (written : Written)
  /-- The attributes of the item that was there before a put. -/
  | replaced (written : Written)
  /-- A compiled expression. -/
  | expression (expression : Expression)
  deriving DecidableEq

namespace Answer

/-- The key behind which the next page starts, if the answer is a page. -/
def nextKey? : Answer → Option (FieldMap Json)
  | .page found => found.nextKey?
  | _ => none

/-- Whether the answer is a page. -/
def isPage : Answer → Bool
  | .page _ => true
  | _ => false

end Answer

namespace Client

/-- Carry out a call. -/
def call (client : Client σ) : Call → StoreM σ Answer
  | .query conditions => do
      let page ← client.query conditions
      pure (.page page)
  | .scan conditions => do
      let page ← client.scan conditions
      pure (.page page)
  | .update conditions => do
      let written ← client.update conditions
      pure (.updated written)
  | .put tableName item => do
      let written ← client.put tableName item
      pure (.replaced written)
  | .createExpression conditions =>
      StoreM.ofExcept <|
        ((client.createExpression conditions).mapError .compile).map .expression

end Client

end TableQuery
