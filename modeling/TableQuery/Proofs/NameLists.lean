import Mathlib.Data.List.TakeWhile
import TableQuery.Config
import TableQuery.Proofs.FieldName

/-!
# Comma-separated names

A list of names is written with commas between its entries. Blanks around a name
and entries of blanks alone say nothing, so one list is written in many ways, and
all of them are read as that list. Whatever a text consists of, what is read are
its segments between commas without the blanks around them, as far as anything is
left: the names can neither be empty nor have commas inside or blanks at the ends.
-/

namespace TableQuery
namespace Text

/-! ## What a list is made of -/

/-- A text without blanks at its ends. -/
structure IsTight (text : List Char) : Prop where
  /-- It does not start with a blank. -/
  ahead : Stops isBlank text
  /-- It does not end with a blank. -/
  behind : Stops isBlank text.reverse

/-- A segment is a text with any blanks around it. -/
def Surrounds (segment text : List Char) : Prop :=
  ∃ left right, segment = left ++ (text ++ right) ∧
    (∀ character ∈ left, isBlank character = true) ∧
    ∀ character ∈ right, isBlank character = true

/-- A name that can stand in a list. -/
structure IsListName (name : String) : Prop where
  /-- There is a name. -/
  nonempty : name ≠ ""
  /-- It has no comma. -/
  noComma : ',' ∉ name.toList
  /-- It has no blanks at its ends. -/
  tight : IsTight name.toList

/-- Entries write names: each is a name with any blanks around it, or blank. -/
inductive Writes : List (List Char) → List String → Prop
  | nil : Writes [] []
  | blank {entry : List Char} {entries : List (List Char)}
      {names : List String}
      (blank : ∀ character ∈ entry, isBlank character = true)
      (rest : Writes entries names) : Writes (entry :: entries) names
  | name {entry : List Char} {name : String} {entries : List (List Char)}
      {names : List String}
      (surrounds : Surrounds entry name.toList)
      (rest : Writes entries names) :
      Writes (entry :: entries) (name :: names)

/-- A segment of a text: it has no comma inside, and a comma or the end of the text
on both of its sides. -/
structure IsSegment (text segment : List Char) : Prop where
  /-- There is no comma inside. -/
  noComma : ',' ∉ segment
  /-- There is a comma or the end of the text on both sides. -/
  between : ∃ before after, text = before ++ (segment ++ after) ∧
    (before = [] ∨ before.getLast? = some ',') ∧
    (after = [] ∨ after.head? = some ',')

/-! ## Trimming -/

theorem stops_of_append
    {inside : Char → Bool}
    {left right : List Char}
    (stops : Stops inside (left ++ right)) : Stops inside left := by
  cases left with
  | nil => exact stops_nil inside
  | cons character left => simpa using stops

/-- Trimming at the front leaves what trimming at both ends leaves, and blanks. -/
theorem dropWhile_eq_trimChars_append (text : List Char) :
    text.dropWhile isBlank =
      trimChars text ++
        ((text.dropWhile isBlank).reverse.takeWhile isBlank).reverse := by
  rw [trimChars, ← List.reverse_append, List.takeWhile_append_dropWhile,
    List.reverse_reverse]

theorem isTight_trimChars (text : List Char) : IsTight (trimChars text) where
  ahead := by
    have stops := stops_dropWhile isBlank text
    rw [dropWhile_eq_trimChars_append] at stops
    exact stops_of_append stops
  behind := by
    rw [trimChars, List.reverse_reverse]
    exact stops_dropWhile isBlank _

theorem surrounds_trimChars (text : List Char) :
    Surrounds text (trimChars text) := by
  refine ⟨text.takeWhile isBlank,
    ((text.dropWhile isBlank).reverse.takeWhile isBlank).reverse, ?_,
    fun _ => List.mem_takeWhile_imp, fun character member => ?_⟩
  · rw [← dropWhile_eq_trimChars_append, List.takeWhile_append_dropWhile]
  · exact List.mem_takeWhile_imp (List.mem_reverse.1 member)

theorem trimChars_of_blank
    {text : List Char}
    (blank : ∀ character ∈ text, isBlank character = true) :
    trimChars text = [] := by
  rw [trimChars, List.dropWhile_eq_nil_iff.2 blank]
  rfl

/-- Trimming finds the text that blanks were put around. -/
theorem Surrounds.trimChars_eq
    {segment text : List Char}
    (surrounds : Surrounds segment text)
    (tight : IsTight text) : trimChars segment = text := by
  obtain ⟨left, right, rfl, leftBlank, rightBlank⟩ := surrounds
  by_cases empty : text = []
  · subst empty
    refine trimChars_of_blank fun character member => ?_
    rcases List.mem_append.1 member with inLeft | inRight
    · exact leftBlank character inLeft
    · exact rightBlank character inRight
  · have stops : Stops isBlank (text ++ right) := by
      obtain ⟨first, rest, rfl⟩ := List.exists_cons_of_ne_nil empty
      simpa using tight.ahead
    have rightReversed : ∀ character ∈ right.reverse,
        isBlank character = true :=
      fun character member =>
        rightBlank character (List.mem_reverse.1 member)
    rw [trimChars, stops.dropWhile_run leftBlank, List.reverse_append,
      tight.behind.dropWhile_run rightReversed, List.reverse_reverse]

theorem trimChars_eq_iff (segment text : List Char) :
    trimChars segment = text ↔ IsTight text ∧ Surrounds segment text := by
  constructor
  · rintro rfl
    exact ⟨isTight_trimChars segment, surrounds_trimChars segment⟩
  · rintro ⟨tight, surrounds⟩
    exact surrounds.trimChars_eq tight

/-! ## Segments -/

/-- A text has no comma, or a first one. -/
@[elab_as_elim]
theorem comma_induction
    {motive : List Char → Prop}
    (single : ∀ text, ',' ∉ text → motive text)
    (comma : ∀ front rest, ',' ∉ front → motive rest →
      motive (front ++ ',' :: rest))
    (text : List Char) : motive text := by
  by_cases hasComma : ',' ∈ text
  · obtain ⟨front, rest, same, noComma⟩ := List.eq_append_cons_of_mem hasComma
    rw [same]
    exact comma front rest noComma (comma_induction single comma rest)
  · exact single text hasComma
termination_by text.length
decreasing_by
  rw [same, List.length_append, List.length_cons]
  omega

theorem isSegment_of_mem_splitOn
    {text segment : List Char}
    (member : segment ∈ text.splitOn ',') : IsSegment text segment := by
  induction text using comma_induction with
  | single text noComma =>
      rw [List.splitOn_eq_singleton noComma, List.mem_singleton] at member
      subst member
      exact ⟨noComma, [], [], by simp, .inl rfl, .inl rfl⟩
  | comma front rest noComma hypothesis =>
      rw [List.splitOn_append_cons_self_of_not_mem noComma,
        List.mem_cons] at member
      rcases member with rfl | member
      · exact ⟨noComma, [], ',' :: rest, rfl, .inl rfl, .inr rfl⟩
      · obtain ⟨noComma, before, after, rfl, startsFresh, ends⟩ :=
          hypothesis member
        refine ⟨noComma, (front ++ [',']) ++ before, after, by simp, .inr ?_,
          ends⟩
        rcases startsFresh with rfl | last
        · simp
        · rw [List.getLast?_append, last, Option.some_or]

theorem mem_splitOn_of_isSegment
    {text segment : List Char}
    (isSegment : IsSegment text segment) : segment ∈ text.splitOn ',' := by
  obtain ⟨noComma, before, after, rfl, startsFresh, ends⟩ := isSegment
  have first : segment ∈ (segment ++ after).splitOn ',' := by
    rcases ends with rfl | next
    · rw [List.append_nil, List.splitOn_eq_singleton noComma]
      exact List.mem_singleton.2 rfl
    · obtain ⟨behind, rfl⟩ := List.head?_eq_some_iff.1 next
      rw [List.splitOn_append_cons_self_of_not_mem noComma]
      exact List.mem_cons_self
  rcases startsFresh with rfl | last
  · exact first
  · obtain ⟨front, rfl⟩ := List.getLast?_eq_some_iff.1 last
    rw [List.append_assoc, List.singleton_append, List.splitOn_append_cons_self]
    exact List.mem_append_right _ first

/-- Splitting at commas gives the segments. -/
theorem mem_splitOn_iff (text segment : List Char) :
    segment ∈ text.splitOn ',' ↔ IsSegment text segment :=
  ⟨isSegment_of_mem_splitOn, mem_splitOn_of_isSegment⟩

/-! ## Reading -/

/-- The names of the entries of a list. -/
def entryNames (entries : List (List Char)) : List String :=
  ((entries.map trimChars).filter fun entry => !entry.isEmpty).map
    String.ofList

theorem entryNames_splitOn (text : String) :
    entryNames (text.toList.splitOn ',') = commaSeparated text := rfl

theorem entryNames_cons (entry : List Char) (entries : List (List Char)) :
    entryNames (entry :: entries) =
      (if trimChars entry = [] then [] else [String.ofList (trimChars entry)]) ++
        entryNames entries := by
  cases kept : trimChars entry <;> simp [entryNames, kept]

/-- What is read are the segments without the blanks around them, as far as
anything is left. -/
theorem mem_commaSeparated_iff (text name : String) :
    name ∈ commaSeparated text ↔
      name ≠ "" ∧ IsTight name.toList ∧ ∃ segment,
        IsSegment text.toList segment ∧ Surrounds segment name.toList := by
  have trimmed (segment : List Char) :
      trimChars segment ≠ [] ∧ String.ofList (trimChars segment) = name ↔
        name ≠ "" ∧ IsTight name.toList ∧ Surrounds segment name.toList := by
    rw [← trimChars_eq_iff]
    constructor
    · rintro ⟨nonempty, rfl⟩
      exact ⟨by simpa using nonempty, by simp⟩
    · rintro ⟨nonempty, same⟩
      rw [same]
      exact ⟨by simpa using nonempty, String.ofList_toList⟩
  simp only [← entryNames_splitOn, entryNames, List.mem_map, List.mem_filter,
    Bool.not_eq_true', List.isEmpty_eq_false_iff, mem_splitOn_iff]
  constructor
  · rintro ⟨_, ⟨⟨segment, isSegment, rfl⟩, nonempty⟩, same⟩
    obtain ⟨nonempty, tight, surrounds⟩ := (trimmed segment).1 ⟨nonempty, same⟩
    exact ⟨nonempty, tight, segment, isSegment, surrounds⟩
  · rintro ⟨nonempty, tight, segment, isSegment, surrounds⟩
    obtain ⟨nonempty, same⟩ := (trimmed segment).2 ⟨nonempty, tight, surrounds⟩
    exact ⟨_, ⟨⟨segment, isSegment, rfl⟩, nonempty⟩, same⟩

/-- Every name that is read can stand in a list. -/
theorem isListName_of_mem_commaSeparated
    {text name : String}
    (member : name ∈ commaSeparated text) : IsListName name := by
  obtain ⟨nonempty, tight, segment, isSegment, left, right, rfl, _⟩ :=
    (mem_commaSeparated_iff text name).1 member
  refine ⟨nonempty, fun comma => isSegment.noComma ?_, tight⟩
  exact List.mem_append_right _ (List.mem_append_left _ comma)

/-! ## Writing -/

theorem Writes.entryNames_eq
    {entries : List (List Char)}
    {names : List String}
    (writes : Writes entries names)
    (listNames : ∀ name ∈ names, IsListName name) :
    entryNames entries = names := by
  induction writes with
  | nil => rfl
  | blank blank _ hypothesis =>
      rw [entryNames_cons, trimChars_of_blank blank, if_pos rfl,
        List.nil_append, hypothesis listNames]
  | @name entry name entries names surrounds _ hypothesis =>
      obtain ⟨listName, listNames⟩ := List.forall_mem_cons.1 listNames
      have nonempty : name.toList ≠ [] := by simpa using listName.nonempty
      rw [entryNames_cons, surrounds.trimChars_eq listName.tight,
        if_neg nonempty, String.ofList_toList, List.singleton_append,
        hypothesis listNames]

theorem isBlank_ne_comma
    {character : Char}
    (blank : isBlank character = true) : character ≠ ',' := by
  rintro rfl
  revert blank
  decide

/-- Entries that write names have no commas inside. -/
theorem Writes.noComma
    {entries : List (List Char)}
    {names : List String}
    (writes : Writes entries names)
    (listNames : ∀ name ∈ names, IsListName name) :
    ∀ entry ∈ entries, ',' ∉ entry := by
  induction writes with
  | nil => simp
  | blank blank _ hypothesis =>
      refine List.forall_mem_cons.2 ⟨fun comma => ?_, hypothesis listNames⟩
      exact isBlank_ne_comma (blank _ comma) rfl
  | name surrounds _ hypothesis =>
      obtain ⟨listName, listNames⟩ := List.forall_mem_cons.1 listNames
      refine List.forall_mem_cons.2 ⟨fun comma => ?_, hypothesis listNames⟩
      obtain ⟨left, right, rfl, leftBlank, rightBlank⟩ := surrounds
      simp only [List.mem_append] at comma
      rcases comma with inLeft | inName | inRight
      · exact isBlank_ne_comma (leftBlank _ inLeft) rfl
      · exact listName.noComma inName
      · exact isBlank_ne_comma (rightBlank _ inRight) rfl

/-- Entries write the names that are read from them. -/
theorem writes_entryNames (entries : List (List Char)) :
    Writes entries (entryNames entries) := by
  induction entries with
  | nil => exact .nil
  | cons entry entries hypothesis =>
      rw [entryNames_cons]
      have surrounds := surrounds_trimChars entry
      split
      · next nothing =>
          rw [nothing] at surrounds
          obtain ⟨left, right, rfl, leftBlank, rightBlank⟩ := surrounds
          refine .blank (fun character member => ?_) hypothesis
          rcases List.mem_append.1 member with inLeft | inRight
          · exact leftBlank character inLeft
          · exact rightBlank character inRight
      · exact .name (by simpa using surrounds) hypothesis

/-- A text is read as the names that it writes. -/
theorem commaSeparated_eq_iff (text : String) (names : List String) :
    commaSeparated text = names ↔
      (∀ name ∈ names, IsListName name) ∧ ∃ entries, Writes entries names ∧
        text.toList = [','].intercalate entries := by
  constructor
  · rintro rfl
    exact ⟨fun name => isListName_of_mem_commaSeparated,
      text.toList.splitOn ',', writes_entryNames _,
      (List.intercalate_splitOn ',').symm⟩
  · rintro ⟨listNames, entries, writes, written⟩
    rw [← entryNames_splitOn, written]
    by_cases nothing : entries = []
    · subst nothing
      cases writes
      rfl
    · rw [List.splitOn_intercalate ',' (writes.noComma listNames) nothing,
        writes.entryNames_eq listNames]

end Text

namespace Config

open Text

/-- The index keys are the names that the setting writes, in order; each of them
can stand in a list, and a field is an index key exactly if it is a segment of the
setting without the blanks around it and is not empty. -/
theorem indexKeys_by_segments
    {lookup : String → Option String}
    {setting : String}
    (given : lookup variableName = some setting) :
    (∀ names, (ofLookup lookup).indexKeys = names ↔
      (∀ name ∈ names, IsListName name) ∧ ∃ entries, Writes entries names ∧
        setting.toList = [','].intercalate entries) ∧
    (∀ name ∈ (ofLookup lookup).indexKeys, IsListName name) ∧
    ∀ field, (ofLookup lookup).isIndexKey field = true ↔
      field ≠ "" ∧ IsTight field.toList ∧ ∃ segment,
        IsSegment setting.toList segment ∧ Surrounds segment field.toList := by
  have keys : (ofLookup lookup).indexKeys = commaSeparated setting := by
    rw [ofLookup, given]
    rfl
  simp only [isIndexKey, keys, List.contains_iff_mem]
  exact ⟨commaSeparated_eq_iff setting,
    fun name => isListName_of_mem_commaSeparated,
    mem_commaSeparated_iff setting⟩

/-- A setting with blanks of several kinds around names, blanks inside one of them,
and entries without a name at both ends and in between. -/
def blankEntries : String :=
  ", indexKeyOne\t,\u00a0,\u3000by  date\n,,"

/-- An environment in which the index keys are set. -/
def givenKeys (setting : String) : String → Option String :=
  fun name => if name = variableName then some setting else none

theorem indexKeys_by_segments_blankEntries :
    givenKeys blankEntries variableName = some blankEntries ∧
      (ofLookup (givenKeys blankEntries)).indexKeys =
        ["indexKeyOne", "by  date"] ∧
      (∀ name ∈ ["indexKeyOne", "by  date"], IsListName name) ∧
      (ofLookup (givenKeys blankEntries)).isIndexKey "by  date" = true ∧
      ∃ segment, IsSegment blankEntries.toList segment ∧
        Surrounds segment "by  date".toList := by
  have given : givenKeys blankEntries variableName = some blankEntries := by
    decide
  obtain ⟨keys, _, isKey⟩ := indexKeys_by_segments given
  have listNames : ∀ name ∈ ["indexKeyOne", "by  date"], IsListName name := by
    simp only [List.forall_mem_cons]
    exact ⟨⟨by decide, by decide, by decide, by decide⟩,
      ⟨by decide, by decide, by decide, by decide⟩, nofun⟩
  have writes : Writes
      ["".toList, " indexKeyOne\t".toList, "\u00a0".toList,
        "\u3000by  date\n".toList, "".toList, "".toList]
      ["indexKeyOne", "by  date"] := by
    have blank (text : List Char) (all : text.all isBlank = true) :
        ∀ character ∈ text, isBlank character = true :=
      List.all_eq_true.1 all
    have first : Surrounds " indexKeyOne\t".toList "indexKeyOne".toList :=
      ⟨[' '], ['\t'], by decide, blank _ (by decide), blank _ (by decide)⟩
    have second : Surrounds "\u3000by  date\n".toList "by  date".toList :=
      ⟨['\u3000'], ['\n'], by decide, blank _ (by decide),
        blank _ (by decide)⟩
    exact .blank (by simp) (.name first (.blank (blank _ (by decide))
      (.name second (.blank (by simp) (.blank (by simp) .nil)))))
  have read := (keys _).2 ⟨listNames, _, writes, by decide⟩
  have found : (ofLookup (givenKeys blankEntries)).isIndexKey "by  date" =
      true := by
    rw [isIndexKey, read]
    decide
  exact ⟨given, read, listNames, found, ((isKey _).1 found).2.2⟩

end Config

end TableQuery
