import Mathlib.Data.List.TakeWhile
import TableQuery.Compile
import TableQuery.Proofs.FieldName

/-!
# Tokens of fragments

The scanner of references finds in a fragment the tokens that its clauses were
made of, and nothing else. A text can be cut in front of any character that is
no name character, and its tokens are those of the parts; the clauses of a
fragment and the words between them are such parts.
-/

namespace TableQuery

/-- The tokens of a text in order, each with its mark. A mark without a name is
no token. -/
def tokens : List Char → List (Char × List Char)
  | [] => []
  | character :: rest =>
      if character = aliasMark ∨ character = placeholderMark then
        match rest.takeWhile isNameChar with
        | [] => tokens rest
        | name => (character, name) :: tokens rest
      else tokens rest

@[simp] theorem tokens_nil : tokens [] = [] := rfl

/-- A token stands in a text: a mark, and behind it the longest run of name
characters, which is not empty. -/
structure HasToken
    (text : List Char)
    (mark : Char)
    (name : List Char) : Prop where
  /-- The token starts with a mark. -/
  isMark : mark = aliasMark ∨ mark = placeholderMark
  /-- There is a name behind it. -/
  nonempty : name ≠ []
  /-- The name is made of name characters. -/
  nameChars : ∀ character ∈ name, NameCharacter character
  /-- The text has the mark and the name at some position, and the name does not
  go on. -/
  spelled : ∃ before after, text = before ++ mark :: (name ++ after) ∧
    EndsName after

/-- The token of a text is at its start or behind its first character. -/
theorem hasToken_cons_iff
    (character : Char)
    (text : List Char)
    (mark : Char)
    (name : List Char) :
    HasToken (character :: text) mark name ↔
      ((mark = aliasMark ∨ mark = placeholderMark) ∧ mark = character ∧
        name ≠ [] ∧ name = text.takeWhile isNameChar) ∨
      HasToken text mark name := by
  constructor
  · rintro ⟨isMark, nonempty, nameChars, before, after, spelled, ends⟩
    cases before with
    | nil =>
        cases spelled
        exact .inl ⟨isMark, rfl, nonempty, (takeWhile_name nameChars ends).symm⟩
    | cons first before =>
        cases spelled
        exact .inr ⟨isMark, nonempty, nameChars, before, after, rfl, ends⟩
  · rintro (⟨isMark, rfl, nonempty, rfl⟩ | ⟨isMark, nonempty, nameChars, spelled⟩)
    · refine ⟨isMark, nonempty, fun _ => nameCharacter_of_mem_takeWhile, [],
        text.dropWhile isNameChar, ?_, endsName_dropWhile text⟩
      rw [List.takeWhile_append_dropWhile, List.nil_append]
    · obtain ⟨before, after, rfl, ends⟩ := spelled
      exact ⟨isMark, nonempty, nameChars, character :: before, after, rfl, ends⟩

/-- The scanner finds the tokens that stand in a text. -/
theorem mem_tokens_iff
    (text : List Char)
    (mark : Char)
    (name : List Char) :
    (mark, name) ∈ tokens text ↔ HasToken text mark name := by
  induction text with
  | nil =>
      refine iff_of_false (by simp) fun ⟨_, _, _, before, after, spelled, _⟩ => ?_
      cases before <;> cases spelled
  | cons character text hypothesis =>
      rw [hasToken_cons_iff, ← hypothesis, tokens]
      by_cases isMark : character = aliasMark ∨ character = placeholderMark
      · rw [if_pos isMark]
        cases run : text.takeWhile isNameChar with
        | nil =>
            -- A mark without a name adds nothing.
            refine (or_iff_right ?_).symm
            rintro ⟨_, _, nonempty, empty⟩
            exact nonempty empty
        | cons first rest =>
            rw [List.mem_cons, Prod.mk.injEq]
            refine or_congr_left ⟨?_, fun ⟨_, same, _, found⟩ => ⟨same, found⟩⟩
            rintro ⟨rfl, rfl⟩
            exact ⟨isMark, rfl, List.cons_ne_nil _ _, rfl⟩
      · rw [if_neg isMark]
        refine (or_iff_right ?_).symm
        rintro ⟨marked, rfl, _⟩
        exact isMark marked

/-- Cutting a text where no name goes on cuts no token. -/
theorem tokens_append
    (text : List Char)
    {rest : List Char}
    (stops : Stops isNameChar rest) :
    tokens (text ++ rest) = tokens text ++ tokens rest := by
  induction text with
  | nil => rfl
  | cons character text hypothesis =>
      -- Whether a mark has a name is not changed by what is cut off.
      rw [List.cons_append, tokens, tokens, stops.takeWhile_append, hypothesis]
      split
      · cases text.takeWhile isNameChar <;> rfl
      · rfl

/-- A text without marks has no tokens. -/
theorem tokens_eq_nil
    {text : List Char}
    (unmarked : ∀ character ∈ text,
      character ≠ aliasMark ∧ character ≠ placeholderMark) :
    tokens text = [] := by
  induction text with
  | nil => rfl
  | cons character text hypothesis =>
      have head := unmarked character List.mem_cons_self
      rw [tokens, if_neg (not_or.2 head)]
      exact hypothesis fun other member =>
        unmarked other (List.mem_cons_of_mem _ member)

theorem aliasMark_ne_placeholderMark : aliasMark ≠ placeholderMark := by
  decide

theorem ne_mark_of_isNameChar
    {character : Char}
    (nameChar : isNameChar character = true) :
    character ≠ aliasMark ∧ character ≠ placeholderMark := by
  constructor <;> rintro rfl <;> revert nameChar <;> decide

/-- A mark and a name behind it are one token. -/
theorem tokens_mark
    {mark : Char}
    (isMark : mark = aliasMark ∨ mark = placeholderMark)
    {field : String}
    (valid : ValidName field) :
    tokens (mark :: field.toList) = [(mark, field.toList)] := by
  have name : field.toList.takeWhile isNameChar = field.toList := by
    simpa using (stops_nil isNameChar).takeWhile_run
      fun _ => valid.isNameChar
  have nothing : tokens field.toList = [] :=
    tokens_eq_nil fun _ member =>
      ne_mark_of_isNameChar (valid.isNameChar member)
  rw [tokens, if_pos isMark, name, nothing]
  split
  · next empty => exact absurd empty valid.toList_ne_nil
  · rfl

/-- Parts that stop names in front of them can be scanned one by one. -/
theorem tokens_flatten
    {parts : List (List Char)}
    (partStops : ∀ part ∈ parts, Stops isNameChar part) :
    tokens parts.flatten = parts.flatMap tokens := by
  induction parts with
  | nil => rfl
  | cons part parts hypothesis =>
      obtain ⟨_, tail⟩ := List.forall_mem_cons.1 partStops
      rw [List.flatten_cons, tokens_append _ (Stops.flatten tail),
        hypothesis tail, List.flatMap_cons]

/-- The tokens of clauses with a separator between them are those of the
clauses. -/
theorem tokens_intercalate
    {separator : List Char}
    (silent : tokens separator = [])
    (separates : Stops isNameChar separator)
    {clauses : List (List Char)}
    (clauseStops : ∀ clause ∈ clauses, Stops isNameChar clause) :
    tokens (separator.intercalate clauses) = clauses.flatMap tokens := by
  induction clauses with
  | nil => rfl
  | cons clause clauses hypothesis =>
      obtain ⟨_, tail⟩ := List.forall_mem_cons.1 clauseStops
      cases clauses with
      | nil => simp
      | cons next clauses =>
          have stops := separates.intercalate tail
          rw [List.intercalate_cons_cons, List.append_assoc,
            tokens_append _ (separates.append stops), tokens_append _ stops,
            silent, hypothesis tail]
          rfl

/-! ## The clauses -/

/-- The token that names a field. -/
abbrev aliasToken (field : String) : Char × List Char :=
  (aliasMark, field.toList)

/-- The token that stands for the value of a field. -/
abbrev placeholderToken (field : String) : Char × List Char :=
  (placeholderMark, field.toList)

theorem aliasToken_inj (left right : String) :
    aliasToken left = aliasToken right ↔ left = right := by
  simp [String.toList_inj]

theorem placeholderToken_inj (left right : String) :
    placeholderToken left = placeholderToken right ↔ left = right := by
  simp [String.toList_inj]

theorem aliasToken_ne_placeholderToken (left right : String) :
    aliasToken left ≠ placeholderToken right := by
  simp [aliasMark_ne_placeholderMark]

theorem tokens_aliasOf {field : String} (valid : ValidName field) :
    tokens (aliasOf field).toList = [aliasToken field] := by
  rw [toList_aliasOf, tokens_mark (.inl rfl) valid]

theorem tokens_placeholderOf {field : String} (valid : ValidName field) :
    tokens (placeholderOf field).toList = [placeholderToken field] := by
  rw [toList_placeholderOf, tokens_mark (.inr rfl) valid]

theorem stops_aliasOf (field : String) :
    Stops isNameChar (aliasOf field).toList := by
  rw [toList_aliasOf, stops_cons]
  decide

theorem stops_placeholderOf (field : String) :
    Stops isNameChar (placeholderOf field).toList := by
  rw [toList_placeholderOf, stops_cons]
  decide

theorem tokens_equality {field : String} (valid : ValidName field) :
    tokens (equality field).toList =
      [aliasToken field, placeholderToken field] := by
  have parts : (equality field).toList =
      [(aliasOf field).toList, " = ".toList,
        (placeholderOf field).toList].flatten := by
    simp [equality]
  rw [parts, tokens_flatten]
  · simp only [List.flatMap_cons, tokens_aliasOf valid,
      tokens_placeholderOf valid]
    rfl
  · simp only [List.forall_mem_cons]
    exact ⟨stops_aliasOf field, by decide, stops_placeholderOf field, nofun⟩

/-- A position has no tokens. -/
theorem tokens_position (index : Nat) :
    tokens ("[" ++ Number.intText index ++ "]").toList = [] := by
  apply tokens_eq_nil
  intro character member
  have cases :
      character = '[' ∨ character.isDigit = true ∨ character = ']' := by
    simp only [String.toList_append, List.mem_append] at member
    rcases member with (opening | digit) | closing
    · exact .inl (by simpa using opening)
    · exact .inr (.inl (isDigit_of_mem_intText digit))
    · exact .inr (.inr (by simpa using closing))
  rcases cases with rfl | digit | rfl
  · decide
  · constructor <;> rintro rfl <;> revert digit <;> decide
  · decide

theorem tokens_itemPath
    {field : String}
    (valid : ValidName field)
    (index : Nat) :
    tokens (itemPath field index).toList = [aliasToken field] := by
  have parts : (itemPath field index).toList =
      (aliasOf field).toList ++
        ("[" ++ Number.intText index ++ "]").toList := by
    simp [itemPath]
  rw [parts, tokens_append, tokens_aliasOf valid, tokens_position,
    List.append_nil]
  simp
  decide

namespace Assignment

/-- The tokens of the clause that writes a field. -/
def clauseTokens (field : String) (assignment : Assignment) :
    List (Char × List Char) :=
  if assignment.isAppend then
    [aliasToken field, aliasToken field, placeholderToken "emptyList",
      placeholderToken field]
  else [aliasToken field, placeholderToken field]

end Assignment

theorem tokens_clause
    {field : String}
    (valid : ValidName field)
    (assignment : Assignment) :
    tokens (assignment.clause field).toList =
      assignment.clauseTokens field := by
  cases assignment with
  | set value => exact tokens_equality valid
  | append items =>
      have emptyList : tokens emptyListPlaceholder.toList =
          [placeholderToken "emptyList"] := rfl
      have parts : ((Assignment.append items).clause field).toList =
          [(aliasOf field).toList, " = list_append(if_not_exists(".toList,
            (aliasOf field).toList, ", ".toList,
            emptyListPlaceholder.toList, "), ".toList,
            (placeholderOf field).toList, ")".toList].flatten := by
        simp [Assignment.clause]
      rw [parts, tokens_flatten]
      · simp only [List.flatMap_cons, tokens_aliasOf valid,
          tokens_placeholderOf valid, emptyList]
        rfl
      · simp only [List.forall_mem_cons]
        exact ⟨stops_aliasOf field, by decide, stops_aliasOf field, by decide,
          by decide, by decide, stops_placeholderOf field, by decide, nofun⟩
  | setAt index value =>
      have parts : ((Assignment.setAt index value).clause field).toList =
          (itemPath field index).toList ++
            [" = ".toList, (placeholderOf field).toList].flatten := by
        simp [Assignment.clause]
      rw [parts, tokens_append, tokens_itemPath valid, tokens_flatten]
      · simp only [List.flatMap_cons, tokens_placeholderOf valid]
        rfl
      · simp only [List.forall_mem_cons]
        exact ⟨by decide, stops_placeholderOf field, nofun⟩
      · exact Stops.append (by decide) (by simp; decide)

end TableQuery
