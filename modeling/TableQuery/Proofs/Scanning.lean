import TableQuery.Proofs.Bindings
import TableQuery.Proofs.Tokens

/-!
# Scanning for tokens

The scanner goes through a text once. It remembers where tokens lie by byte
offsets and cuts them out afterwards. Its spans lie over the tokens that stand in
the text and over nothing else, so both ends of each are boundaries of characters,
whatever the text consists of, and every token can be cut out.
-/

namespace TableQuery

open Text

/-! ## One pass -/

theorem passName_located (stop : Nat) (text : List Char) :
    passName stop (located stop text) =
      (stop + byteSize (text.takeWhile isNameChar),
        located (stop + byteSize (text.takeWhile isNameChar))
          (text.dropWhile isNameChar)) := by
  induction text generalizing stop with
  | nil => rfl
  | cons character text hypothesis =>
      rw [located, passName, List.takeWhile_cons, List.dropWhile_cons]
      split
      · rw [hypothesis, byteSize_cons, Nat.add_assoc]
      · rfl

/-- Names have no marks, so nothing is missed behind the first one of them. -/
theorem spans_name
    (offset : Nat)
    {name : List Char}
    (nameChars : ∀ character ∈ name, isNameChar character = true)
    (text : List Char) :
    spans (located offset (name ++ text)) =
      spans (located (offset + byteSize name) text) := by
  induction name generalizing offset with
  | nil => rfl
  | cons character name hypothesis =>
      obtain ⟨nameChar, nameChars⟩ := List.forall_mem_cons.1 nameChars
      have unmarked := not_or.2 (ne_mark_of_isNameChar nameChar)
      rw [List.cons_append, located, spans, if_neg unmarked,
        hypothesis _ nameChars, byteSize_cons, Nat.add_assoc]

/-- A mark with a name behind it is a token. -/
theorem spans_mark
    (offset : Nat)
    {mark : Char}
    (isMark : mark = aliasMark ∨ mark = placeholderMark)
    (text : List Char) :
    spans (located offset (mark :: text)) =
      (if text.takeWhile isNameChar = [] then []
        else [⟨mark, offset,
          offset + byteSize (mark :: text.takeWhile isNameChar)⟩]) ++
        spans (located (offset + mark.utf8Size) text) := by
  have size : mark.utf8Size = 1 := by
    rcases isMark with rfl | rfl <;> rfl
  have behind : spans (located (offset + mark.utf8Size) text) =
      spans (located (offset + mark.utf8Size +
        byteSize (text.takeWhile isNameChar)) (text.dropWhile isNameChar)) := by
    rw [← spans_name _ fun _ => List.mem_takeWhile_imp,
      List.takeWhile_append_dropWhile]
  have isEnd : offset + mark.utf8Size + byteSize (text.takeWhile isNameChar) =
      offset + 1 ↔ text.takeWhile isNameChar = [] := by
    rw [← byteSize_eq_zero_iff, size]
    omega
  rw [located, spans, if_pos isMark]
  simp only [passName_located, isEnd, behind]
  split
  · rfl
  · rw [byteSize_cons, Nat.add_assoc, List.singleton_append]

theorem spans_unmarked
    (offset : Nat)
    {character : Char}
    (unmarked : ¬ (character = aliasMark ∨ character = placeholderMark))
    (text : List Char) :
    spans (located offset (character :: text)) =
      spans (located (offset + character.utf8Size) text) := by
  rw [located, spans, if_neg unmarked]

/-! ## Where tokens lie -/

namespace Span

/-- A span lies over a token of a text, from its mark to the end of the longest
run of name characters behind it. -/
structure Covers (span : Span) (text name : List Char) : Prop where
  /-- The token starts with a mark. -/
  isMark : span.mark = aliasMark ∨ span.mark = placeholderMark
  /-- There is a name behind it. -/
  nonempty : name ≠ []
  /-- The name is made of name characters. -/
  nameChars : ∀ character ∈ name, NameCharacter character
  /-- The text has the mark and the name between the two offsets, and the name
  does not go on. -/
  spelled : ∃ before after,
    text = before ++ span.mark :: (name ++ after) ∧ EndsName after ∧
      span.start = byteSize before ∧
      span.stop = byteSize (before ++ span.mark :: name)

theorem Covers.hasToken
    {span : Span}
    {text name : List Char}
    (covers : span.Covers text name) : HasToken text span.mark name := by
  obtain ⟨isMark, nonempty, nameChars, before, after, spelled, ends, _⟩ := covers
  exact ⟨isMark, nonempty, nameChars, before, after, spelled, ends⟩

end Span

theorem hasToken_iff_covers
    (text : List Char)
    (mark : Char)
    (name : List Char) :
    HasToken text mark name ↔
      ∃ span : Span, span.mark = mark ∧ span.Covers text name := by
  constructor
  · rintro ⟨isMark, nonempty, nameChars, before, after, spelled, ends⟩
    exact ⟨⟨mark, byteSize before, byteSize (before ++ mark :: name)⟩, rfl,
      isMark, nonempty, nameChars, before, after, spelled, ends, rfl, rfl⟩
  · rintro ⟨span, rfl, covers⟩
    exact covers.hasToken

/-- Whatever the scanner finds behind a beginning of a text is a token of it. -/
theorem covers_of_mem_spans
    (before text : List Char)
    {span : Span}
    (member : span ∈ spans (located (byteSize before) text)) :
    ∃ name, span.Covers (before ++ text) name := by
  induction text generalizing before with
  | nil => simp [located, spans] at member
  | cons character text hypothesis =>
      have later (found : span ∈ spans
          (located (byteSize before + character.utf8Size) text)) :
          ∃ name, span.Covers (before ++ character :: text) name := by
        have size : byteSize before + character.utf8Size =
            byteSize (before ++ [character]) := by
          simp
        rw [size] at found
        simpa using hypothesis (before ++ [character]) found
      by_cases isMark : character = aliasMark ∨ character = placeholderMark
      · rw [spans_mark _ isMark, List.mem_append] at member
        rcases member with first | found
        · split at first
          · cases first
          · next nonempty =>
              obtain rfl := List.mem_singleton.1 first
              refine ⟨_, isMark, nonempty,
                fun _ => nameCharacter_of_mem_takeWhile, before,
                text.dropWhile isNameChar, ?_, endsName_dropWhile text, rfl,
                (byteSize_append _ _).symm⟩
              rw [List.takeWhile_append_dropWhile]
        · exact later found
      · rw [spans_unmarked _ isMark] at member
        exact later member

/-- The scanner finds every token. -/
theorem mem_spans_of_spelled
    (offset : Nat)
    (before : List Char)
    {mark : Char}
    (isMark : mark = aliasMark ∨ mark = placeholderMark)
    {name : List Char}
    (nonempty : name ≠ [])
    (nameChars : ∀ character ∈ name, NameCharacter character)
    {after : List Char}
    (ends : EndsName after) :
    ⟨mark, offset + byteSize before,
      offset + byteSize (before ++ mark :: name)⟩ ∈
        spans (located offset (before ++ mark :: (name ++ after))) := by
  induction before generalizing offset with
  | nil =>
      rw [List.nil_append, spans_mark _ isMark, takeWhile_name nameChars ends,
        if_neg nonempty]
      exact List.mem_append_left _ (List.mem_singleton.2 rfl)
  | cons character before hypothesis =>
      have later := hypothesis (offset + character.utf8Size)
      rw [List.cons_append, List.cons_append, byteSize_cons, byteSize_cons,
        ← Nat.add_assoc, ← Nat.add_assoc]
      by_cases marked : character = aliasMark ∨ character = placeholderMark
      · rw [spans_mark _ marked]
        exact List.mem_append_right _ later
      · rw [spans_unmarked _ marked]
        exact later

/-- The spans of a text are those that lie over its tokens. -/
theorem mem_spans_iff (text : List Char) (span : Span) :
    span ∈ spans (located 0 text) ↔ ∃ name, span.Covers text name := by
  refine ⟨covers_of_mem_spans [] text, ?_⟩
  rintro ⟨name, isMark, nonempty, nameChars, before, after, rfl, ends, start,
    stop⟩
  have member :=
    mem_spans_of_spelled 0 before isMark nonempty nameChars ends
  rwa [Nat.zero_add, Nat.zero_add, ← start, ← stop] at member

/-! ## Cutting tokens out -/

namespace Span

theorem Covers.slice?_eq
    {span : Span}
    {text : String}
    {name : List Char}
    (covers : span.Covers text.toList name) :
    slice? text span.start span.stop =
      some (String.ofList (span.mark :: name)) := by
  obtain ⟨before, after, spelled, _, start, stop⟩ := covers.spelled
  refine (slice?_eq_some_iff _ _ _ _).2
    ⟨String.ofList before, String.ofList after, ?_, ?_, ?_⟩
  · rw [← String.toList_inj, spelled]
    simp
  · simp [utf8ByteSize_eq, start]
  · simp [utf8ByteSize_eq, stop]

theorem Covers.start_lt_stop
    {span : Span}
    {text name : List Char}
    (covers : span.Covers text name) : span.start < span.stop := by
  obtain ⟨before, after, _, _, start, stop⟩ := covers.spelled
  have positive := span.mark.utf8Size_pos
  rw [start, stop, byteSize_append, byteSize_cons]
  omega

end Span

/-! ## Adding tokens -/

namespace References

/-- References have the given tokens beside those that were found before. -/
structure Adds
    (found : References)
    (tokens : Char → String → Prop)
    (result : References) : Prop where
  /-- Aliases are added to the names and nothing else is. -/
  names : ∀ token, token ∈ result.names ↔
    token ∈ found.names ∨ tokens aliasMark token
  /-- Placeholders are added to the values and nothing else is. -/
  values : ∀ token, token ∈ result.values ↔
    token ∈ found.values ∨ tokens placeholderMark token

theorem adds_add
    (found : References)
    {mark : Char}
    (isMark : mark = aliasMark ∨ mark = placeholderMark)
    (new : String) :
    found.Adds (fun other token => mark = other ∧ new = token)
      (found.add mark new) := by
  rcases isMark with rfl | rfl
  · constructor
    · intro token
      simp [add, names, SortedMap.mem_keys_insert]
    · intro token
      simp [add, values, aliasMark_ne_placeholderMark]
  · constructor
    · intro token
      simp [add, names, aliasMark_ne_placeholderMark.symm]
    · intro token
      simp [add, values, SortedMap.mem_keys_insert,
        aliasMark_ne_placeholderMark.symm]

variable {α : Type}

/-- Steps that add the tokens of their items add the tokens of all items. -/
theorem foldlM_adds
    {step : References → α → Option References}
    {tokens : α → Char → String → Prop}
    {items : List α}
    (adds : ∀ item ∈ items, ∀ found, ∃ next, step found item = some next ∧
      found.Adds (tokens item) next)
    (found : References) :
    ∃ result, items.foldlM step found = some result ∧
      found.Adds (fun mark token => ∃ item ∈ items, tokens item mark token)
        result := by
  induction items generalizing found with
  | nil => exact ⟨found, rfl, by simp, by simp⟩
  | cons item items hypothesis =>
      obtain ⟨first, rest⟩ := List.forall_mem_cons.1 adds
      obtain ⟨next, stepped, addsFirst⟩ := first found
      obtain ⟨result, folded, addsRest⟩ := hypothesis rest next
      refine ⟨result, ?_, fun token => ?_, fun token => ?_⟩
      · rw [List.foldlM_cons, stepped]
        exact folded
      · simp only [addsRest.names, addsFirst.names, List.exists_mem_cons_iff,
          or_assoc]
      · simp only [addsRest.values, addsFirst.values, List.exists_mem_cons_iff,
          or_assoc]

/-- A text has a token, mark included. -/
def TokenOf (text : String) (mark : Char) (token : String) : Prop :=
  ∃ name, HasToken text.toList mark name ∧
    String.ofList (mark :: name) = token

theorem addSlice?_adds
    (text : String)
    {span : Span}
    {name : List Char}
    (covers : span.Covers text.toList name)
    (found : References) :
    ∃ next, addSlice? text found span = some next ∧
      found.Adds (fun mark token => span.mark = mark ∧
        slice? text span.start span.stop = some token) next := by
  rw [covers.slice?_eq]
  simp only [Option.some.injEq]
  refine ⟨_, ?_, found.adds_add covers.isMark _⟩
  rw [addSlice?, covers.slice?_eq]
  rfl

/-- What is cut out by the spans are the tokens of a text. -/
theorem exists_span_iff (text : String) (mark : Char) (token : String) :
    (∃ span ∈ spans (located 0 text.toList), span.mark = mark ∧
      slice? text span.start span.stop = some token) ↔
        TokenOf text mark token := by
  constructor
  · rintro ⟨span, member, rfl, sliced⟩
    obtain ⟨name, covers⟩ := (mem_spans_iff _ _).1 member
    rw [covers.slice?_eq] at sliced
    exact ⟨name, covers.hasToken, Option.some.inj sliced⟩
  · rintro ⟨name, hasToken, rfl⟩
    obtain ⟨span, rfl, covers⟩ := (hasToken_iff_covers _ _ _).1 hasToken
    exact ⟨span, (mem_spans_iff _ _).2 ⟨name, covers⟩, rfl, covers.slice?_eq⟩

theorem scan?_adds (found : References) (text : String) :
    ∃ result, found.scan? text = some result ∧
      found.Adds (TokenOf text) result := by
  have adds : ∀ span ∈ spans (located 0 text.toList), ∀ found, ∃ next,
      addSlice? text found span = some next ∧
        found.Adds (fun mark token => span.mark = mark ∧
          slice? text span.start span.stop = some token) next := by
    intro span member found
    obtain ⟨name, covers⟩ := (mem_spans_iff _ _).1 member
    exact addSlice?_adds text covers found
  obtain ⟨result, scanned, adds⟩ := foldlM_adds adds found
  simp only [exists_span_iff] at adds
  exact ⟨result, scanned, adds⟩

/-- Scanning a text adds exactly the tokens that stand in it: a mark and the longest
run of name characters behind it, which is not empty. Its spans are where these
tokens lie, from a boundary of characters inside the text to a later one. -/
theorem scan_adds_tokens (found : References) (text : String) :
    (∀ span, span ∈ spans (located 0 text.toList) ↔
      ∃ name, span.Covers text.toList name) ∧
    (∀ span ∈ spans (located 0 text.toList), span.start < span.stop ∧
      String.Pos.Raw.IsValid text ⟨span.start⟩ ∧
      String.Pos.Raw.IsValid text ⟨span.stop⟩) ∧
    ∃ result, found.scan? text = some result ∧
      ∀ token,
        (token ∈ result.names ↔
          token ∈ found.names ∨ TokenOf text aliasMark token) ∧
        (token ∈ result.values ↔
          token ∈ found.values ∨ TokenOf text placeholderMark token) := by
  refine ⟨mem_spans_iff text.toList, fun span member => ?_, ?_⟩
  · obtain ⟨name, covers⟩ := (mem_spans_iff _ _).1 member
    exact ⟨covers.start_lt_stop,
      ((exists_slice?_iff _ _ _).1 ⟨_, covers.slice?_eq⟩).2⟩
  · obtain ⟨result, scanned, adds⟩ := found.scan?_adds text
    exact ⟨result, scanned, fun token => ⟨adds.names token, adds.values token⟩⟩

/-- Marks stand side by side and at the end, and among characters of several
bytes. -/
example : spans (located 0 "é##a_1:日:b#".toList) =
    [⟨aliasMark, 3, 7⟩, ⟨placeholderMark, 11, 13⟩] := by
  decide +kernel

end References

namespace Expression

/-- The references of an expression are the tokens of its fragments. -/
theorem references_adds (expression : Expression) :
    References.empty.Adds (fun mark token =>
      ∃ fragment ∈ expression.fragments,
        References.TokenOf fragment mark token) expression.references := by
  have adds : ∀ fragment ∈ expression.fragments, ∀ found, ∃ next,
      References.scan? found fragment = some next ∧
        found.Adds (References.TokenOf fragment) next :=
    fun fragment _ found => found.scan?_adds fragment
  obtain ⟨result, scanned, adds⟩ := References.foldlM_adds adds .empty
  rw [references, scanned]
  exact adds

theorem mem_names_iff (expression : Expression) (token : String) :
    token ∈ expression.references.names ↔
      ∃ fragment ∈ expression.fragments,
        References.TokenOf fragment aliasMark token :=
  (expression.references_adds.names token).trans (or_iff_right nofun)

theorem mem_values_iff (expression : Expression) (token : String) :
    token ∈ expression.references.values ↔
      ∃ fragment ∈ expression.fragments,
        References.TokenOf fragment placeholderMark token :=
  (expression.references_adds.values token).trans (or_iff_right nofun)

end Expression

end TableQuery
