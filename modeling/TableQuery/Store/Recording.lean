import TableQuery.Store

/-!
# Recording stores

A recording store keeps every request that reaches it, in order. It answers with
the reply that was laid ready for it, or with an empty answer.
-/

namespace TableQuery

variable {α : Type}

/-- An answer that is laid ready. -/
inductive Reply
  /-- A page of items. -/
  | page (page : Page)
  /-- The attributes of a write. -/
  | written (written : Written)
  /-- A failure. -/
  | failure (error : StoreError)
  deriving DecidableEq

namespace Reply

/-- The page of a reply, empty if it is none. -/
def toPage : Reply → Page
  | .page found => found
  | _ => .empty

/-- The attributes of a reply, empty if it has none. -/
def toWritten : Reply → Written
  | .written found => found
  | _ => .empty

end Reply

/-- The state of a recording store. -/
structure Recording where
  /-- The reply to the next request. -/
  reply : Option Reply
  /-- The requests so far, in order. -/
  requests : List Request
  deriving DecidableEq, Inhabited

namespace Recording

/-- The state before any request. -/
def start : Recording := ⟨none, []⟩

/-- Lay a reply ready. -/
def withReply (recording : Recording) (reply : Option Reply) : Recording :=
  { recording with reply := reply }

/-- Record a request and give the reply to it. -/
def answer (request : Request) (empty : α) (read : Reply → α) :
    StoreM Recording α :=
  ExceptT.mk fun recording =>
    let result := match recording.reply with
      | none => .ok empty
      | some (.failure error) => .error error
      | some reply => .ok (read reply)
    (result, ⟨none, recording.requests ++ [request]⟩)

/-- The store that records. -/
def store : Store Recording where
  query body := answer (.query body) .empty Reply.toPage
  scan body := answer (.scan body) .empty Reply.toPage
  update body := answer (.update body) .empty Reply.toWritten
  put body := answer (.put body) .empty Reply.toWritten

end Recording

/-! ## Runs -/

/-- Carry out calls one after the other. The reply beside a call is the one to
its request; if it makes none, the reply is dropped. -/
def Client.callAll (client : Client Recording) :
    List (Option Reply × Call) → Recording →
      List (Except StoreError Answer) × Recording
  | [], recording => ([], recording)
  | (reply, call) :: rest, recording =>
      let (result, next) := (client.call call).run (recording.withReply reply)
      let (results, final) := client.callAll rest next
      (result :: results, final)

end TableQuery
