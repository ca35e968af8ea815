import TableQuery.Json.Scanner
import TableQuery.Proofs.Pairing

/-!
# What can be read can be skipped

Skipping is more lenient than reading, but only on drafts that a text can have:
a literal that can be read has its closing quote. The scanner makes no other
drafts, so whoever skips a part of a text meets no defect that reading it would
not meet.
-/

namespace TableQuery
namespace Json

variable {α β : Type}

/-! ## Reading the parts of a container -/

namespace Ending

theorem next_eq_ok_iff {ending : Ending} :
    ending.next = .ok () ↔ ending = .closed := by
  cases ending <;> simp [next]

theorem close_eq_ok_iff {ending : Ending} :
    ending.close = .ok () ↔ ending = .closed := by
  cases ending <;> simp [close]

end Ending

namespace Draft

theorem toItems_eq_mapM (depth : Nat) (items : List Draft) :
    toItems depth items = items.mapM (toJson depth) := by
  induction items with
  | nil => rfl
  | cons item items hypothesis =>
      rw [toItems, List.mapM_cons, hypothesis]
      rfl

theorem toItems_eq_ok_iff
    {depth : Nat}
    {items : List Draft}
    {values : List Json} :
    toItems depth items = .ok values ↔
      List.Forall₂ (fun item value => item.toJson depth = .ok value) items
        values := by
  rw [toItems_eq_mapM]
  exact mapM_eq_ok_iff

/-- What is read of a named part: its name and its value. -/
def ReadsAs
    (relation : Draft → α → Prop)
    (member : StringDraft × Draft)
    (entry : String × α) : Prop :=
  member.1.text = .ok entry.1 ∧ relation member.2 entry.2

theorem exists_of_readsAs
    {relation : Draft → α → Prop}
    {members : List (StringDraft × Draft)}
    {named : List (String × α)}
    (read : List.Forall₂ (ReadsAs relation) members named) :
    ∀ member ∈ members, ∃ content, relation member.2 content := by
  intro member present
  obtain ⟨entry, _, _, found⟩ := exists_mem_right_of_forall₂ read present
  exact ⟨entry.2, found⟩

/-- Named parts that are read in one way are read in another if their values
are. -/
theorem exists_readsAs
    {first : Draft → α → Prop}
    (second : Draft → β → Prop)
    {members : List (StringDraft × Draft)}
    {named : List (String × α)}
    (read : List.Forall₂ (ReadsAs first) members named)
    (each : ∀ member ∈ members, ∃ content, second member.2 content) :
    ∃ others, List.Forall₂ (ReadsAs second) members others := by
  rw [exists_forall₂_iff]
  intro member present
  obtain ⟨entry, _, text, _⟩ := exists_mem_right_of_forall₂ read present
  obtain ⟨content, found⟩ := each member present
  exact ⟨(entry.1, content), text, found⟩

theorem toMembers_eq_ok_iff
    {depth : Nat}
    {members : List (StringDraft × Draft)}
    {named : List (String × Json)} :
    toMembers depth members = .ok named ↔
      List.Forall₂ (ReadsAs fun draft value => draft.toJson depth = .ok value)
        members named := by
  induction members generalizing named with
  | nil =>
      rw [toMembers, List.forall₂_nil_left_iff, Except.ok.injEq, eq_comm]
  | cons member members hypothesis =>
      obtain ⟨key, draft⟩ := member
      rw [toMembers, List.forall₂_cons_left_iff]
      simp only [bind_eq_ok_iff, hypothesis, Except.ok.injEq]
      constructor
      · rintro ⟨name, text, value, read, others, rest, rfl⟩
        exact ⟨(name, value), others, ⟨text, read⟩, rest, rfl⟩
      · rintro ⟨⟨name, value⟩, others, ⟨text, read⟩, rest, rfl⟩
        exact ⟨name, text, value, read, others, rest, rfl⟩

theorem toJson_array_eq_ok_iff
    {depth : Nat}
    {items : List Draft}
    {ending : Ending}
    {value : Json} :
    (array items ending).toJson depth = .ok value ↔
      ∃ inner values, depth = inner + 1 ∧ toItems inner items = .ok values ∧
        ending = .closed ∧ value = .array values := by
  cases depth with
  | zero => simp [toJson]
  | succ depth =>
      rw [toJson, bind_eq_ok_iff]
      simp only [check_bind_eq_ok_iff, Ending.next_eq_ok_iff, Except.ok.injEq]
      constructor
      · rintro ⟨values, parts, closed, rfl⟩
        exact ⟨depth, values, rfl, parts, closed, rfl⟩
      · rintro ⟨_, values, same, parts, closed, rfl⟩
        cases same
        exact ⟨values, parts, closed, rfl⟩

theorem toJson_object_eq_ok_iff
    {depth : Nat}
    {members : List (StringDraft × Draft)}
    {ending : Ending}
    {value : Json} :
    (object members ending).toJson depth = .ok value ↔
      ∃ inner named, depth = inner + 1 ∧
        toMembers inner members = .ok named ∧ ending = .closed ∧
        value = .object (Members.merge named) := by
  cases depth with
  | zero => simp [toJson]
  | succ depth =>
      rw [toJson, bind_eq_ok_iff]
      simp only [check_bind_eq_ok_iff, Ending.next_eq_ok_iff, Except.ok.injEq]
      constructor
      · rintro ⟨named, parts, closed, rfl⟩
        exact ⟨depth, named, rfl, parts, closed, rfl⟩
      · rintro ⟨_, named, same, parts, closed, rfl⟩
        cases same
        exact ⟨named, parts, closed, rfl⟩

end Draft

/-! ## Drafts that can be skipped if they can be read -/

/-- Either the literal cannot be read or it can be skipped. -/
def StringDraft.IsSkippable (draft : StringDraft) : Prop :=
  ∀ text, draft.text = .ok text → draft.skip = .ok ()

namespace Draft

/-- Either the value cannot be read or it can be skipped. -/
def IsSkippable (draft : Draft) : Prop :=
  ∀ depth value, draft.toJson depth = .ok value → draft.skip = .ok ()

theorem skipItems_eq_ok_iff {items : List Draft} :
    skipItems items = .ok () ↔ ∀ item ∈ items, item.skip = .ok () := by
  induction items with
  | nil => simp [skipItems]
  | cons item items hypothesis =>
      rw [skipItems, check_bind_eq_ok_iff, hypothesis, List.forall_mem_cons]

theorem skipMembers_eq_ok_iff {members : List (StringDraft × Draft)} :
    skipMembers members = .ok () ↔
      ∀ member ∈ members, member.1.skip = .ok () ∧ member.2.skip = .ok () := by
  induction members with
  | nil => simp [skipMembers]
  | cons member members hypothesis =>
      rw [skipMembers, check_bind_eq_ok_iff, check_bind_eq_ok_iff, hypothesis,
        List.forall_mem_cons, and_assoc]

theorem isSkippable_null : null.IsSkippable := fun _ _ _ => rfl

theorem isSkippable_bool (value : Bool) : (bool value).IsSkippable :=
  fun _ _ _ => rfl

theorem isSkippable_number (value : Option Number) :
    (number value).IsSkippable := fun _ _ _ => rfl

theorem isSkippable_absent : absent.IsSkippable :=
  fun _ _ read => nomatch read

theorem isSkippable_broken (likeNull : Bool) (read skipped : Defect) :
    (broken likeNull read skipped).IsSkippable := by
  intro depth value found
  rw [toJson] at found
  cases found

theorem isSkippable_string
    {draft : StringDraft}
    (literal : draft.IsSkippable) : (string draft).IsSkippable := by
  intro depth value read
  cases found : draft.text with
  | error defect =>
      rw [toJson, found] at read
      cases read
  | ok text => exact literal text found

theorem isSkippable_array
    {items : List Draft}
    {ending : Ending}
    (each : ∀ item ∈ items, item.IsSkippable) :
    (array items ending).IsSkippable := by
  intro depth value read
  obtain ⟨inner, values, _, parts, rfl, _⟩ := toJson_array_eq_ok_iff.1 read
  rw [skip, check_bind_eq_ok_iff, skipItems_eq_ok_iff]
  refine ⟨fun item member => ?_, rfl⟩
  obtain ⟨content, _, found⟩ := exists_mem_right_of_forall₂
    (toItems_eq_ok_iff.1 parts) member
  exact each item member inner content found

theorem isSkippable_object
    {members : List (StringDraft × Draft)}
    {ending : Ending}
    (each : ∀ member ∈ members,
      member.1.IsSkippable ∧ member.2.IsSkippable) :
    (object members ending).IsSkippable := by
  intro depth value read
  obtain ⟨inner, named, _, parts, rfl, _⟩ := toJson_object_eq_ok_iff.1 read
  rw [skip, check_bind_eq_ok_iff, skipMembers_eq_ok_iff]
  refine ⟨fun member present => ?_, rfl⟩
  obtain ⟨entry, _, text, found⟩ := exists_mem_right_of_forall₂
    (toMembers_eq_ok_iff.1 parts) present
  obtain ⟨key, content⟩ := each member present
  exact ⟨key entry.1 text, content inner entry.2 found⟩

end Draft

/-! ## The scanner -/

namespace Scanner

/-- A literal that breaks off cannot be read. -/
theorem characters_ne_ok
    (defect : Defect)
    (pieces : List Piece)
    (text : List Char) : characters (some defect) pieces ≠ .ok text := by
  intro read
  fun_induction characters (some defect) pieces generalizing text with
  | case1 same => cases same
  | case3 value rest hypothesis =>
      obtain ⟨found, first, _⟩ := bind_eq_ok_iff.1 read
      exact hypothesis found first
  | case5 code _ _ other rest _ hypothesis =>
      obtain ⟨found, first, _⟩ := bind_eq_ok_iff.1 read
      exact hypothesis found first
  | case9 code rest _ _ hypothesis =>
      obtain ⟨found, first, _⟩ := bind_eq_ok_iff.1 read
      exact hypothesis found first
  | _ => cases read

theorem isSkippable_stringDraft (text : List Char) :
    (stringDraft text).1.IsSkippable := by
  intro content read
  rw [stringDraft] at read ⊢
  cases scanned : pieces text with
  | mk found ending =>
      cases ending with
      | ok rest => rfl
      | error defect =>
          rw [scanned] at read
          cases broken : characters (some defect) found with
          | error other =>
              simp only [broken] at read
              cases read
          | ok text => exact absurd broken (characters_ne_ok defect found text)

theorem isSkippable_missingDigit (text : List Char) :
    (missingDigit text).IsSkippable := by
  cases text with
  | nil => exact Draft.isSkippable_broken _ _ _
  | cons letter rest => exact Draft.isSkippable_broken _ _ _

theorem isSkippable_exponentDraft
    (negative : Bool)
    (whole : List Char)
    (fraction : Option (List Char))
    (text : List Char) :
    (exponentDraft negative whole fraction text).1.IsSkippable := by
  have digits (value : Option Number) (rest behind : List Char) :
      (if (rest.takeWhile isDigit).isEmpty = true then
        (missingDigit rest, none)
      else (Draft.number value, some behind)).1.IsSkippable := by
    split
    · exact isSkippable_missingDigit rest
    · exact Draft.isSkippable_number value
  unfold exponentDraft
  cases text with
  | nil => exact Draft.isSkippable_number _
  | cons mark rest =>
      dsimp only
      split
      · split <;> exact digits _ _ _
      · exact Draft.isSkippable_number _

theorem isSkippable_fractionDraft
    (negative : Bool)
    (whole text : List Char) :
    (fractionDraft negative whole text).1.IsSkippable := by
  unfold fractionDraft
  split
  · dsimp only
    split
    · exact isSkippable_missingDigit _
    · exact isSkippable_exponentDraft _ _ _ _
  · exact isSkippable_exponentDraft _ _ _ _

theorem isSkippable_numberDraft (negative : Bool) (text : List Char) :
    (numberDraft negative text).1.IsSkippable := by
  unfold numberDraft
  dsimp only
  split
  · exact isSkippable_missingDigit _
  · exact Draft.isSkippable_broken _ _ _
  · exact isSkippable_fractionDraft _ _ _

theorem isSkippable_wordDraft
    {value : Draft}
    (word : value.IsSkippable)
    (likeNull : Bool)
    (letters text : List Char) :
    (wordDraft value likeNull letters text).1.IsSkippable := by
  fun_induction wordDraft value likeNull letters text with
  | case1 => exact word
  | case3 _ _ _ hypothesis => exact hypothesis
  | _ => exact Draft.isSkippable_broken _ _ _

mutual

theorem isSkippable_value (fuel : Nat) (text : List Char) :
    (value fuel text).1.IsSkippable := by
  cases fuel with
  | zero => exact Draft.isSkippable_absent
  | succ fuel =>
      rw [value]
      split
      · exact Draft.isSkippable_absent
      · exact Draft.isSkippable_string (isSkippable_stringDraft _)
      · exact Draft.isSkippable_array (isSkippable_firstItem fuel _)
      · exact Draft.isSkippable_object (isSkippable_firstMember fuel _)
      · exact isSkippable_wordDraft Draft.isSkippable_null _ _ _
      · exact isSkippable_wordDraft (Draft.isSkippable_bool _) _ _ _
      · exact isSkippable_wordDraft (Draft.isSkippable_bool _) _ _ _
      · exact isSkippable_numberDraft _ _
      · split
        · exact isSkippable_numberDraft _ _
        · exact Draft.isSkippable_broken _ _ _

theorem isSkippable_firstItem (fuel : Nat) (text : List Char) :
    ∀ item ∈ (firstItem fuel text).found, item.IsSkippable := by
  cases fuel with
  | zero => simp [firstItem, Parts.unread]
  | succ fuel =>
      rw [firstItem]
      split
      · simp
      · simp
      · exact isSkippable_items fuel _

theorem isSkippable_items (fuel : Nat) (text : List Char) :
    ∀ item ∈ (items fuel text).found, item.IsSkippable := by
  cases fuel with
  | zero => simp [items, Parts.unread]
  | succ fuel =>
      have first := isSkippable_value fuel text
      rw [items]
      generalize value fuel text = scanned at first ⊢
      obtain ⟨item, rest⟩ := scanned
      have only : ∀ other ∈ [item], other.IsSkippable :=
        List.forall_mem_singleton.2 first
      cases rest with
      | none => exact only
      | some rest =>
          dsimp only
          split
          · exact only
          · exact only
          · split
            · exact only
            · exact only
            · exact List.forall_mem_cons.2 ⟨first, isSkippable_items fuel _⟩
          · exact only

theorem isSkippable_firstMember (fuel : Nat) (text : List Char) :
    ∀ member ∈ (firstMember fuel text).found,
      member.1.IsSkippable ∧ member.2.IsSkippable := by
  cases fuel with
  | zero => simp [firstMember, Parts.unread]
  | succ fuel =>
      rw [firstMember]
      split
      · simp
      · simp
      · exact isSkippable_members fuel _
      · simp

theorem isSkippable_members (fuel : Nat) (text : List Char) :
    ∀ member ∈ (members fuel text).found,
      member.1.IsSkippable ∧ member.2.IsSkippable := by
  cases fuel with
  | zero => simp [members, Parts.unread]
  | succ fuel =>
      have literal := isSkippable_stringDraft text
      rw [members]
      generalize stringDraft text = scanned at literal ⊢
      obtain ⟨key, _ | rest⟩ := scanned
      · exact List.forall_mem_singleton.2 ⟨literal, Draft.isSkippable_absent⟩
      dsimp only
      split
      · exact List.forall_mem_singleton.2 ⟨literal, Draft.isSkippable_absent⟩
      · next behind _ =>
          have first := isSkippable_value fuel behind
          generalize value fuel behind = followed at first ⊢
          obtain ⟨image, rest⟩ := followed
          have only : ∀ other ∈ [(key, image)],
              other.1.IsSkippable ∧ other.2.IsSkippable :=
            List.forall_mem_singleton.2 ⟨literal, first⟩
          cases rest with
          | none => exact only
          | some rest =>
              dsimp only
              split
              · exact only
              · exact only
              · split
                · exact only
                · exact List.forall_mem_cons.2
                    ⟨⟨literal, first⟩, isSkippable_members fuel _⟩
                · exact only
              · exact only
      · exact List.forall_mem_singleton.2
          ⟨literal, Draft.isSkippable_broken _ _ _⟩

end

end Scanner

/-- What can be read of a text can be skipped. -/
theorem Document.isSkippable_ofText (text : String) :
    (Document.ofText text).root.IsSkippable := by
  rw [Document.ofText]
  exact Scanner.isSkippable_value _ _

end Json
end TableQuery
