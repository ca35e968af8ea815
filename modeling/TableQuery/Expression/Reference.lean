import TableQuery.Expression
import TableQuery.Expression.Error
import TableQuery.Text.Slice

/-!
# References of an expression

The table service refuses a request whose fragments use an alias or a
placeholder that stands for nothing, and one that defines an alias or a
placeholder which no fragment uses. The references of an expression are the
tokens of its fragments: a mark and the longest run of name characters behind
it, if there is any. A fragment is scanned once for the byte offsets between which
its tokens lie, and they are cut out of it there.
-/

namespace TableQuery

/-- Whether a character may stand in the name of a token. -/
def isNameChar (character : Char) : Bool :=
  character.isAlphanum || character == '_'

/-- The mark of aliases. -/
def aliasMark : Char := '#'

/-- The mark of placeholders. -/
def placeholderMark : Char := ':'

/-! ## Tokens in a text -/

/-- The characters of a text that starts at a byte offset, each with its own
offset. -/
def located (offset : Nat) : List Char → List (Nat × Char)
  | [] => []
  | character :: rest =>
      (offset, character) :: located (offset + character.utf8Size) rest

/-- Pass over the name characters in front: the byte offset behind the last of
them, which is the given one if there are none, and the characters that are
left. -/
def passName (stop : Nat) : List (Nat × Char) → Nat × List (Nat × Char)
  | [] => (stop, [])
  | (offset, character) :: rest =>
      if isNameChar character then
        passName (offset + character.utf8Size) rest
      else (stop, (offset, character) :: rest)

theorem length_passName_le (stop : Nat) (text : List (Nat × Char)) :
    (passName stop text).2.length ≤ text.length := by
  induction text generalizing stop with
  | nil => exact Nat.le_refl _
  | cons head rest hypothesis =>
      rw [passName]
      split
      · exact Nat.le_succ_of_le (hypothesis _)
      · exact Nat.le_refl _

/-- Where a token lies in a text. -/
structure Span where
  /-- The mark that the token starts with. -/
  mark : Char
  /-- The byte offset of the mark. -/
  start : Nat
  /-- The byte offset behind the name. -/
  stop : Nat
  deriving DecidableEq

-- The recursion passes over names at once and is not structural. It may unfold
-- all the same, so that closed expressions can be evaluated.
/-- Where the tokens of a text lie. A mark without a name is no token. -/
@[semireducible]
def spans : List (Nat × Char) → List Span
  | [] => []
  | (start, character) :: rest =>
      if character = aliasMark ∨ character = placeholderMark then
        let passed := passName (start + character.utf8Size) rest
        if passed.1 = start + 1 then spans passed.2
        else ⟨character, start, passed.1⟩ :: spans passed.2
      else spans rest
termination_by text => text.length
decreasing_by
  · exact Nat.lt_succ_of_le (length_passName_le _ rest)
  · exact Nat.lt_succ_of_le (length_passName_le _ rest)
  · exact Nat.lt_succ_self _

/-! ## References -/

/-- The tokens that texts use. -/
structure References where
  /-- The aliases. -/
  nameSet : SortedMap Unit
  /-- The placeholders. -/
  valueSet : SortedMap Unit
  deriving DecidableEq

namespace References

/-- The references of no text. -/
def empty : References := ⟨.empty, .empty⟩

/-- The aliases in code point order. -/
def names (references : References) : List String := references.nameSet.keys

/-- The placeholders in code point order. -/
def values (references : References) : List String := references.valueSet.keys

/-- Add a token to those with its mark. -/
def add (references : References) (mark : Char) (token : String) :
    References :=
  if mark = aliasMark then
    { references with nameSet := references.nameSet.insert token () }
  else { references with valueSet := references.valueSet.insert token () }

/-- Cut a token out of a text and add it. -/
def addSlice? (text : String) (references : References) (span : Span) :
    Option References :=
  (Text.slice? text span.start span.stop).map (references.add span.mark)

/-- Add the tokens of a text. There is no result if one of them does not lie
between boundaries of characters. -/
def scan? (references : References) (text : String) : Option References :=
  (spans (located 0 text.toList)).foldlM (addSlice? text) references

end References

namespace Expression

/-- The tokens of all fragments. -/
def references (expression : Expression) : References :=
  (expression.fragments.foldlM References.scan? .empty).getD .empty

/-- Succeeds if no name of a list is left over; the first one is an error. -/
def noneLeft (leftover : List String) (error : String → CompileError) :
    Except CompileError Unit :=
  match leftover with
  | [] => .ok ()
  | name :: _ => .error (error name)

/-- Check that every token stands for something and everything is used. -/
def verify (expression : Expression) : Except CompileError Unit := do
  let used := expression.references
  noneLeft (used.names.filter fun name => !expression.names.contains name)
    .unresolvedName
  noneLeft (used.values.filter fun name => !expression.values.contains name)
    .unresolvedValue
  noneLeft (expression.names.keys.filter fun name => name ∉ used.names)
    .unusedName
  noneLeft (expression.values.keys.filter fun name => name ∉ used.values)
    .unusedValue

end Expression

end TableQuery
