/-!
# Lifecycle of requests

A logged request writes an entry when it starts and one when it ends. If it
fails, the last entry and the failure carry the same message with the same
fresh id, so that one can be found by the other.
-/

namespace TableQuery

variable {α : Type}

/-- A moment in the life of a request. -/
inductive Phase
  /-- The request was received. -/
  | start
  /-- The result is being sent. -/
  | finish
  deriving DecidableEq

namespace Phase

/-- The name in log entries. -/
def name : Phase → String
  | start => "Start"
  | finish => "End"

end Phase

/-- How grave a log entry is. -/
inductive LogLevel
  | info
  | error
  deriving DecidableEq

namespace LogLevel

/-- The name in log entries. -/
def name : LogLevel → String
  | info => "INFO"
  | error => "ERROR"

end LogLevel

/-- One entry of the log. -/
structure LogEntry where
  /-- How grave it is. -/
  level : LogLevel
  /-- Its fields, all of them as text. -/
  fields : List (String × String)
  deriving DecidableEq

/-- The failure of a logged request. -/
structure LifecycleError where
  /-- The id that the log entry carries. -/
  errorId : String
  /-- The message of the log entry. -/
  message : String
  deriving DecidableEq

namespace Lifecycle

/-- The action of a request that has no name. -/
def defaultAction : String := "Perform Operation"

/-- Error ids are random UUIDs, which are those of version 4. -/
def idVersion : Nat := 4

/-- The message of a failed request. -/
def failureMessage
    (action : String)
    (custom : Option String)
    (errorId cause : String) : String :=
  let hint := match custom with
    | some custom => custom ++ ". "
    | none => ""
  "Error: Failed to " ++ action ++ ". " ++ hint ++ "Error Id: " ++ errorId
    ++ ". " ++ cause

/-- The entry for a phase that a request reaches. -/
def phaseEntry (action : String) (phase : Phase) (message : String) :
    LogEntry where
  level := .info
  fields := [("action", action), ("life_cycle", phase.name),
    ("message", message)]

/-- The entry for a failure. -/
def failureEntry (action errorId message : String) : LogEntry where
  level := .error
  fields := [("action", action), ("error_id", errorId), ("message", message)]

/-- Log a request with the given outcome, using an id in case of failure. -/
def log
    (action : String)
    (custom : Option String)
    (errorId : String)
    (outcome : Except String α) : Except LifecycleError α × List LogEntry :=
  let action := if action.isEmpty then defaultAction else action
  let received := phaseEntry action .start "Request Received"
  match outcome with
  | .ok value =>
      (.ok value, [received, phaseEntry action .finish "Sending Result"])
  | .error cause =>
      let message := failureMessage action custom errorId cause
      (.error ⟨errorId, message⟩,
        [received, failureEntry action errorId message])

end Lifecycle

end TableQuery
