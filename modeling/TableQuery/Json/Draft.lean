import TableQuery.Json.Value

/-!
# Drafts: JSON texts as far as they can be read

A text need not be well formed, and a reader of typed data stops at the first
problem it meets, be it in the form of the text or in the shape of the data. A
draft therefore keeps what a text says up to its first defect and the defect in
its place. Readers walk the draft in text order and meet both kinds of problems
in the order of the text.

Parts that no reader asks for are skipped. Skipping is more lenient than
reading: it pairs no surrogates, checks no number against the binary64 range and
does not count how deeply containers are nested.
-/

namespace TableQuery
namespace Json

/-- What can be wrong with the form of a text. -/
inductive Defect
  /-- The text breaks the grammar. -/
  | malformed
  /-- The text ends too early. -/
  | truncated
  deriving DecidableEq

/-- How the list of items or members of a container ends. -/
inductive Ending
  /-- The container is closed. -/
  | closed
  /-- It is not. Looking for one more part finds the first defect, requiring
  the end finds the second. -/
  | cut (next close : Defect)
  deriving DecidableEq

namespace Ending

/-- Succeeds if there is no further part. -/
def next : Ending → Except Defect Unit
  | .closed => .ok ()
  | .cut next _ => .error next

/-- Succeeds if the container ends here. -/
def close : Ending → Except Defect Unit
  | .closed => .ok ()
  | .cut _ close => .error close

@[simp] theorem next_closed : closed.next = .ok () := rfl

@[simp] theorem close_closed : closed.close = .ok () := rfl

end Ending

/-- A string literal as far as it can be read. -/
structure StringDraft where
  /-- What reading it gives. -/
  text : Except Defect String
  /-- The defect that skipping it meets. -/
  skipped : Option Defect

/-- Pass over a string literal. -/
def StringDraft.skip (draft : StringDraft) : Except Defect Unit :=
  match draft.skipped with
  | none => .ok ()
  | some defect => .error defect

/-- A text as far as it can be read. -/
inductive Draft
  | null
  | bool (value : Bool)
  /-- A number literal; without a value if it is out of range. -/
  | number (value : Option Number)
  | string (draft : StringDraft)
  | array (items : List Draft) (ending : Ending)
  | object (members : List (StringDraft × Draft)) (ending : Ending)
  /-- No value, because the text ends where one has to start. -/
  | absent
  /-- No value, although something starts: whether it starts like null, the
  defect that reading meets and the one that skipping meets. -/
  | broken (likeNull : Bool) (read skipped : Defect)

namespace Draft

mutual

/-- Pass over a value. -/
def skip : Draft → Except Defect Unit
  | .null => .ok ()
  | .bool _ => .ok ()
  | .number _ => .ok ()
  | .string draft => draft.skip
  | .array items ending => do
      skipItems items
      ending.next
  | .object members ending => do
      skipMembers members
      ending.next
  | .absent => .error .truncated
  | .broken _ _ defect => .error defect

/-- Pass over the items of an array. -/
def skipItems : List Draft → Except Defect Unit
  | [] => .ok ()
  | item :: rest => do
      skip item
      skipItems rest

/-- Pass over the members of an object. -/
def skipMembers : List (StringDraft × Draft) → Except Defect Unit
  | [] => .ok ()
  | (key, value) :: rest => do
      key.skip
      skip value
      skipMembers rest

end

mutual

/-- Read a value of any shape with at most `depth` containers around one
another. Of members with one name the last value is kept in the first place. -/
def toJson (depth : Nat) : Draft → Except Defect Json
  | .null => .ok .null
  | .bool value => .ok (.bool value)
  | .number none => .error .malformed
  | .number (some value) => .ok (.number value)
  | .string draft => draft.text.map .string
  | .array items ending =>
      match depth with
      | 0 => .error .malformed
      | depth + 1 => do
          let items ← toItems depth items
          ending.next
          .ok (.array items)
  | .object members ending =>
      match depth with
      | 0 => .error .malformed
      | depth + 1 => do
          let members ← toMembers depth members
          ending.next
          .ok (.object (Members.merge members))
  | .absent => .error .truncated
  | .broken _ defect _ => .error defect

/-- Read the items of an array. -/
def toItems (depth : Nat) : List Draft → Except Defect (List Json)
  | [] => .ok []
  | item :: rest => do
      let value ← toJson depth item
      let values ← toItems depth rest
      .ok (value :: values)

/-- Read the members of an object. -/
def toMembers (depth : Nat) :
    List (StringDraft × Draft) → Except Defect (List (String × Json))
  | [] => .ok []
  | (key, value) :: rest => do
      let name ← key.text
      let value ← toJson depth value
      let members ← toMembers depth rest
      .ok ((name, value) :: members)

end

end Draft

/-- A whole text: its first value, and whether anything follows it. -/
structure Document where
  /-- The value at the start. -/
  root : Draft
  /-- Whether other than blanks follow. -/
  trailing : Bool

/-- The number of containers that may stand inside one another. -/
def depthLimit : Nat := 127

namespace Document

/-- Succeeds if nothing follows the value. -/
def finish (document : Document) : Except Defect Unit :=
  if document.trailing then .error .malformed else .ok ()

/-- Read a text as one value. -/
def toJson (document : Document) : Except Defect Json := do
  let value ← document.root.toJson depthLimit
  document.finish
  .ok value

end Document

end Json
end TableQuery
