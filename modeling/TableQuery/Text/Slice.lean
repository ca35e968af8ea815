/-!
# Slices of a text

A slice is given by byte offsets: the number of bytes in front of its first
character, and in front of the one behind it. There is no slice between offsets
that are the wrong way round, or that are not boundaries of characters inside the
text.
-/

namespace TableQuery
namespace Text

/-! ## Bytes of characters -/

/-- The number of bytes of characters. -/
def byteSize : List Char → Nat
  | [] => 0
  | character :: rest => character.utf8Size + byteSize rest

@[simp] theorem byteSize_nil : byteSize [] = 0 := rfl

@[simp] theorem byteSize_cons (character : Char) (rest : List Char) :
    byteSize (character :: rest) = character.utf8Size + byteSize rest := rfl

@[simp] theorem byteSize_append (left right : List Char) :
    byteSize (left ++ right) = byteSize left + byteSize right := by
  induction left with
  | nil => simp
  | cons character left hypothesis =>
      rw [List.cons_append, byteSize_cons, byteSize_cons, hypothesis,
        Nat.add_assoc]

theorem byteSize_eq_zero_iff (characters : List Char) :
    byteSize characters = 0 ↔ characters = [] := by
  cases characters with
  | nil => simp
  | cons character rest =>
      have positive := character.utf8Size_pos
      simp only [byteSize_cons, reduceCtorEq, iff_false]
      omega

/-- The smaller one of two beginnings of a text is a beginning of the other. -/
theorem begins_of_byteSize_le
    {left right text : List Char}
    (leftBegins : left <+: text)
    (rightBegins : right <+: text)
    (smaller : byteSize left ≤ byteSize right) : left <+: right := by
  rcases List.prefix_or_prefix_of_prefix leftBegins rightBegins with
    begins | ⟨more, rfl⟩
  · exact begins
  · rw [byteSize_append] at smaller
    obtain rfl := (byteSize_eq_zero_iff more).1 (by omega)
    simp

theorem utf8ByteSize_eq (text : String) :
    text.utf8ByteSize = byteSize text.toList := by
  have size (characters : List Char) :
      (String.ofList characters).utf8ByteSize = byteSize characters := by
    induction characters with
    | nil => rfl
    | cons character rest hypothesis => simp [String.ofList_cons, hypothesis]
  rw [← size, String.ofList_toList]

/-! ## Cutting -/

/-- The characters in front of and behind a byte offset, if it is a boundary. -/
def splitAt? : Nat → List Char → Option (List Char × List Char)
  | 0, rest => some ([], rest)
  | _ + 1, [] => none
  | offset + 1, character :: rest =>
      if character.utf8Size ≤ offset + 1 then
        (splitAt? (offset + 1 - character.utf8Size) rest).map fun parts =>
          (character :: parts.1, parts.2)
      else none

theorem splitAt?_byteSize (front behind : List Char) :
    splitAt? (byteSize front) (front ++ behind) = some (front, behind) := by
  induction front with
  | nil => rw [byteSize_nil, List.nil_append, splitAt?]
  | cons character front hypothesis =>
      have positive := character.utf8Size_pos
      obtain ⟨offset, equal⟩ : ∃ offset,
          character.utf8Size + byteSize front = offset + 1 :=
        ⟨character.utf8Size + byteSize front - 1, by omega⟩
      have remaining : offset + 1 - character.utf8Size = byteSize front := by
        omega
      rw [byteSize_cons, List.cons_append, equal, splitAt?,
        if_pos (by omega), remaining, hypothesis]
      rfl

theorem eq_append_of_splitAt?
    {offset : Nat}
    {text front behind : List Char}
    (split : splitAt? offset text = some (front, behind)) :
    text = front ++ behind ∧ byteSize front = offset := by
  induction text generalizing offset front with
  | nil =>
      cases offset with
      | zero =>
          cases split
          exact ⟨rfl, rfl⟩
      | succ offset => cases split
  | cons character rest hypothesis =>
      cases offset with
      | zero =>
          cases split
          exact ⟨rfl, rfl⟩
      | succ offset =>
          rw [splitAt?] at split
          split at split
          · obtain ⟨parts, found, same⟩ := Option.map_eq_some_iff.1 split
            cases same
            obtain ⟨joined, size⟩ := hypothesis found
            refine ⟨by rw [joined]; rfl, ?_⟩
            rw [byteSize_cons, size]
            omega
          · cases split

/-- The slice of a text between two byte offsets. -/
def slice? (text : String) (start stop : Nat) : Option String :=
  if start ≤ stop then do
    let (_, rest) ← splitAt? start text.toList
    let (part, _) ← splitAt? (stop - start) rest
    some (String.ofList part)
  else none

theorem slice?_eq_some_iff
    (text : String)
    (start stop : Nat)
    (part : String) :
    slice? text start stop = some part ↔
      ∃ front behind, text = front ++ part ++ behind ∧
        front.utf8ByteSize = start ∧ (front ++ part).utf8ByteSize = stop := by
  constructor
  · intro sliced
    rw [slice?] at sliced
    split at sliced
    · next ordered =>
        obtain ⟨⟨front, rest⟩, first, sliced⟩ :=
          Option.bind_eq_some_iff.1 sliced
        obtain ⟨⟨middle, behind⟩, second, same⟩ :=
          Option.bind_eq_some_iff.1 sliced
        cases same
        obtain ⟨joined, frontSize⟩ := eq_append_of_splitAt? first
        obtain ⟨rfl, middleSize⟩ := eq_append_of_splitAt? second
        refine ⟨String.ofList front, String.ofList behind, ?_, ?_, ?_⟩
        · rw [← String.toList_inj, joined]
          simp
        · simp [utf8ByteSize_eq, frontSize]
        · simp only [utf8ByteSize_eq, String.toList_append,
            String.toList_ofList, byteSize_append]
          omega
    · cases sliced
  · rintro ⟨front, behind, rfl, rfl, rfl⟩
    rw [slice?, if_pos (by simp)]
    have remaining : (front ++ part).utf8ByteSize - front.utf8ByteSize =
        byteSize part.toList := by
      simp [utf8ByteSize_eq]
    rw [remaining, utf8ByteSize_eq]
    simp [splitAt?_byteSize]

/-- There is a slice between two offsets exactly if they are in order and both are
boundaries of characters inside the text. -/
theorem exists_slice?_iff (text : String) (start stop : Nat) :
    (∃ part, slice? text start stop = some part) ↔
      start ≤ stop ∧ String.Pos.Raw.IsValid text ⟨start⟩ ∧
        String.Pos.Raw.IsValid text ⟨stop⟩ := by
  simp only [slice?_eq_some_iff, String.Pos.Raw.isValid_iff_exists_append,
    String.Pos.Raw.ext_iff, String.byteIdx_rawEndPos]
  constructor
  · rintro ⟨part, front, behind, rfl, rfl, rfl⟩
    exact ⟨by simp, ⟨front, part ++ behind, by simp [String.append_assoc], rfl⟩,
      ⟨front ++ part, behind, rfl, rfl⟩⟩
  · rintro ⟨ordered, ⟨front, rest, rfl, rfl⟩, ⟨upTo, behind, same, rfl⟩⟩
    obtain ⟨part, equal⟩ : front.toList <+: upTo.toList := by
      apply @begins_of_byteSize_le _ _ (front ++ rest).toList
      · simp
      · simp [same]
      · simpa [utf8ByteSize_eq] using ordered
    have joined : front ++ String.ofList part = upTo := by
      rw [← String.toList_inj, ← equal]
      simp
    exact ⟨String.ofList part, front, behind, by rw [joined, same], rfl,
      by rw [joined]⟩

end Text
end TableQuery
