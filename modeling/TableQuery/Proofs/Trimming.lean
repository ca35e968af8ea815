import TableQuery.Proofs.NearestNumbers
import TableQuery.Proofs.NumberLiterals
import TableQuery.Proofs.Unordered
import TableQuery.Trim

/-!
# Trimmed documents

A document is trimmed of the members that are null, false, an empty text or
zero. Members are reached by ways that lead from object to object; arrays end
them. What can be reached in the trimmed document is what could be reached
without passing anything empty, and it is left as it was, except that objects
are trimmed themselves. So nothing is left to trim.
-/

namespace TableQuery

namespace Number

/-- The exact value of a number. -/
def exact : Number → ℚ
  | int value _ => value
  | float value => signed value.negative value.size

theorem exact_eq_zero_iff {number : Number} :
    number.exact = 0 ↔ number.isZero = true := by
  cases number with
  | int value held => simp [exact, isZero]
  | float value =>
      rw [isZero, ← Binary64.size_eq_zero_iff, exact, signed]
      split
      · exact neg_eq_zero
      · exact Iff.rfl

end Number

namespace Json

/-! ## What is empty -/

/-- A value is empty if it is null, false, the empty text or zero. -/
def IsEmpty : Json → Prop
  | .null => True
  | .bool value => value = false
  | .number value => value.exact = 0
  | .string value => value = ""
  | .array _ => False
  | .object _ => False

theorem isBare_iff {value : Json} : value.isBare = true ↔ value.IsEmpty := by
  cases value with
  | null => exact iff_of_true rfl trivial
  | bool value => exact Bool.not_eq_eq_eq_not
  | number value => exact Number.exact_eq_zero_iff.symm
  | string value => exact String.isEmpty_iff
  | array items => exact iff_of_false Bool.false_ne_true id
  | object members => exact iff_of_false Bool.false_ne_true id

instance : DecidablePred IsEmpty := fun _ => decidable_of_iff _ isBare_iff

/-- What is left of a value is bare if the value is. -/
@[simp] theorem isBare_dropBare (value : Json) :
    value.dropBare.isBare = value.isBare := by
  cases value <;> rfl

theorem isEmpty_dropBare {value : Json} :
    value.dropBare.IsEmpty ↔ value.IsEmpty := by
  rw [← isBare_iff, isBare_dropBare, isBare_iff]

/-- The members that are not empty. -/
def fullMembers (members : List (String × Json)) : List (String × Json) :=
  members.filter fun member => ¬ member.2.IsEmpty

theorem mem_fullMembers_iff
    {members : List (String × Json)}
    {member : String × Json} :
    member ∈ fullMembers members ↔ member ∈ members ∧ ¬ member.2.IsEmpty := by
  rw [fullMembers, List.mem_filter, decide_eq_true_iff]

theorem dropBareMembers_eq_map (members : List (String × Json)) :
    dropBareMembers members =
      (fullMembers members).map fun member =>
        (member.1, member.2.dropBare) := by
  induction members with
  | nil => rfl
  | cons member rest hypothesis =>
      rw [dropBareMembers, hypothesis, fullMembers, fullMembers,
        List.filter_cons]
      by_cases empty : member.2.IsEmpty
      · rw [if_pos (isBare_iff.2 empty), if_neg (by simpa using empty)]
      · rw [if_neg (mt isBare_iff.1 empty), if_pos (by simpa using empty),
          List.map_cons]

theorem names_dropBareMembers (members : List (String × Json)) :
    Members.names (dropBareMembers members) =
      Members.names (fullMembers members) := by
  rw [dropBareMembers_eq_map, Members.names, List.map_map]
  rfl

theorem mem_dropBareMembers_iff
    {members : List (String × Json)}
    {name : String}
    {found : Json} :
    (name, found) ∈ dropBareMembers members ↔
      ∃ value, (name, value) ∈ members ∧ ¬ value.IsEmpty ∧
        value.dropBare = found := by
  rw [dropBareMembers_eq_map, List.mem_map]
  constructor
  · rintro ⟨member, present, same⟩
    obtain ⟨rfl, rfl⟩ := Prod.mk.inj same
    obtain ⟨among, full⟩ := mem_fullMembers_iff.1 present
    exact ⟨member.2, among, full, rfl⟩
  · rintro ⟨value, present, full, rfl⟩
    exact ⟨(name, value), mem_fullMembers_iff.2 ⟨present, full⟩, rfl⟩

/-! ## Ways -/

/-- A way through objects, with the members that are passed. The last of them
is the one that is reached. -/
inductive Way : Json → List (String × Json) → Json → Prop
  | here (value : Json) : Way value [] value
  | into {members : List (String × Json)} {name : String} {value : Json}
      {steps : List (String × Json)} {target : Json}
      (member : (name, value) ∈ members) (further : Way value steps target) :
      Way (.object members) ((name, value) :: steps) target

/-- Nothing that is passed is empty. -/
def Full (steps : List (String × Json)) : Prop :=
  ∀ step ∈ steps, ¬ step.2.IsEmpty

/-- The same members, each with what is left of it. -/
abbrev trimmedSteps (steps : List (String × Json)) : List (String × Json) :=
  steps.map fun step => (step.1, step.2.dropBare)

theorem names_trimmedSteps (steps : List (String × Json)) :
    Members.names (trimmedSteps steps) = Members.names steps := by
  rw [Members.names, trimmedSteps, List.map_map]
  rfl

theorem full_trimmedSteps {steps : List (String × Json)} :
    Full (trimmedSteps steps) ↔ Full steps := by
  rw [Full, trimmedSteps, List.forall_mem_map]
  simp only [isEmpty_dropBare]
  rfl

/-- A way that passes nothing empty is there after trimming. -/
theorem Way.dropBare
    {value target : Json}
    {steps : List (String × Json)}
    (way : value.Way steps target)
    (full : Full steps) :
    value.dropBare.Way (trimmedSteps steps) target.dropBare := by
  induction way with
  | here value => exact .here _
  | into member _ hypothesis =>
      obtain ⟨first, others⟩ := List.forall_mem_cons.1 full
      exact .into (mem_dropBareMembers_iff.2 ⟨_, member, first, rfl⟩)
        (hypothesis others)

/-- Every way in a trimmed document was there before and passed nothing
empty. -/
theorem Way.of_dropBare
    {value found : Json}
    {kept : List (String × Json)}
    (way : value.dropBare.Way kept found) :
    ∃ steps target, value.Way steps target ∧ Full steps ∧
      trimmedSteps steps = kept ∧ target.dropBare = found := by
  -- The induction is on the way, so it may start from any trimmed document.
  generalize trims : value.dropBare = trimmed at way
  induction way generalizing value with
  | here _ => exact ⟨[], value, .here value, by simp [Full], rfl, trims⟩
  | @into members name _ _ _ member _ hypothesis =>
      cases value with
      | object originals =>
          cases trims
          obtain ⟨original, present, full, same⟩ :=
            mem_dropBareMembers_iff.1 member
          obtain ⟨steps, target, further, others, rfl, rfl⟩ := hypothesis same
          refine ⟨(name, original) :: steps, target, .into present further,
            List.forall_mem_cons.2 ⟨full, others⟩, ?_, rfl⟩
          rw [← same]
          rfl
      | _ => cases trims

/-- With distinct names, the names say which way is meant. -/
theorem Way.unique
    {value target other : Json}
    {steps otherSteps : List (String × Json)}
    (distinct : value.Distinct)
    (way : value.Way steps target)
    (otherWay : value.Way otherSteps other)
    (sameNames : Members.names steps = Members.names otherSteps) :
    steps = otherSteps := by
  induction way generalizing otherSteps with
  | here value =>
      exact (List.map_eq_nil_iff.1 sameNames.symm).symm
  | into member _ hypothesis =>
      cases otherWay with
      | here _ => cases sameNames
      | into otherMember otherFurther =>
          obtain ⟨rfl, others⟩ := List.cons.inj sameNames
          obtain ⟨noRepeats, each⟩ := (distinct_object_iff _).1 distinct
          obtain rfl := Members.agree_of_nodup noRepeats _ _ _ otherMember member
          rw [hypothesis (each _ member) otherFurther others]

/-! ## What is left -/

/-- What is left of a value. An object stays, with the names of its members that
are not empty in the order they had; any other value stays as it is. -/
inductive Leaves : Json → Json → Prop
  | object {members kept : List (String × Json)}
      (names : Members.names kept = Members.names (fullMembers members)) :
      Leaves (.object members) (.object kept)
  | whole {value : Json} (noObject : ∀ members, value ≠ .object members) :
      Leaves value value

theorem leaves_dropBare (value : Json) : value.Leaves value.dropBare := by
  cases value with
  | object members => exact .object (names_dropBareMembers members)
  | _ => exact .whole nofun

/-- A document is trimmed of what is empty and of nothing else. -/
structure TrimsTo (value result : Json) : Prop where
  /-- What is reached without passing anything empty stays. -/
  keeps : ∀ steps target, value.Way steps target → Full steps →
    ∃ kept found, result.Way kept found ∧
      Members.names kept = Members.names steps ∧ target.Leaves found
  /-- What is reached in the end was reached without passing anything empty. -/
  adds_nothing : ∀ kept found, result.Way kept found →
    ∃ steps target, value.Way steps target ∧ Full steps ∧
      Members.names kept = Members.names steps ∧ target.Leaves found
  /-- Nothing empty is reached in the end. -/
  full : ∀ kept found, result.Way kept found → Full kept

theorem trimsTo_dropBare (value : Json) : value.TrimsTo value.dropBare where
  keeps steps target way full :=
    ⟨_, _, way.dropBare full, names_trimmedSteps steps, leaves_dropBare target⟩
  adds_nothing kept found way := by
    obtain ⟨steps, target, original, full, rfl, rfl⟩ := way.of_dropBare
    exact ⟨steps, target, original, full, names_trimmedSteps steps,
      leaves_dropBare target⟩
  full kept found way := by
    obtain ⟨steps, target, _, full, rfl, _⟩ := way.of_dropBare
    exact full_trimmedSteps.2 full

/-- A member stays exactly if nothing that is passed on the way to it is empty,
itself included. -/
theorem TrimsTo.stays_iff
    {value result target : Json}
    (trims : value.TrimsTo result)
    (distinct : value.Distinct)
    {steps : List (String × Json)}
    (way : value.Way steps target) :
    (∃ kept found, result.Way kept found ∧
      Members.names kept = Members.names steps) ↔ Full steps := by
  constructor
  · rintro ⟨kept, found, reached, names⟩
    obtain ⟨others, _, original, full, sameNames, _⟩ :=
      trims.adds_nothing kept found reached
    rw [way.unique distinct original (names.symm.trans sameNames)]
    exact full
  · intro full
    obtain ⟨kept, found, reached, names, _⟩ := trims.keeps steps target way full
    exact ⟨kept, found, reached, names⟩

mutual

theorem dropBare_dropBare (value : Json) :
    value.dropBare.dropBare = value.dropBare := by
  cases value with
  | object members =>
      simp only [dropBare, dropBareMembers_dropBareMembers members]
  | _ => rfl

theorem dropBareMembers_dropBareMembers (members : List (String × Json)) :
    dropBareMembers (dropBareMembers members) = dropBareMembers members := by
  match members with
  | [] => rfl
  | (name, value) :: rest =>
      rw [dropBareMembers]
      split
      · exact dropBareMembers_dropBareMembers rest
      · next full =>
          rw [dropBareMembers, isBare_dropBare, if_neg full,
            dropBare_dropBare value, dropBareMembers_dropBareMembers rest]

end

/-- A document is trimmed of what is empty and of nothing else. With distinct
names, a member stays exactly if nothing on the way to it is empty. Trimming
again changes nothing. -/
theorem dropBare_trims (value : Json) :
    value.TrimsTo value.dropBare ∧
      (value.Distinct → ∀ steps target, value.Way steps target →
        ((∃ kept found, value.dropBare.Way kept found ∧
          Members.names kept = Members.names steps) ↔ Full steps)) ∧
      value.dropBare.dropBare = value.dropBare :=
  ⟨trimsTo_dropBare value,
    fun distinct _ _ way => (trimsTo_dropBare value).stays_iff distinct way,
    dropBare_dropBare value⟩

/-- A document with a member that is kept, one that becomes empty and one that
is zero. -/
def breakfast : Json :=
  .object [("bacon", .bool true), ("toast", .object [("thick", .null)]),
    ("eggs", .number (.int 0 (by decide)))]

/-- The inner member goes, and the object that held it stays. -/
theorem dropBare_trims_breakfast :
    breakfast.Distinct ∧
      breakfast.dropBare =
        .object [("bacon", .bool true), ("toast", .object [])] ∧
      (∃ kept found, breakfast.dropBare.Way kept found ∧
        Members.names kept = ["toast"]) ∧
      ¬ ∃ kept found, breakfast.dropBare.Way kept found ∧
        Members.names kept = ["toast", "thick"] := by
  have distinct : breakfast.Distinct := by decide
  have stays := (dropBare_trims breakfast).2.1 distinct
  have toToast : breakfast.Way [("toast", .object [("thick", .null)])]
      (.object [("thick", .null)]) :=
    .into (List.mem_cons_of_mem _ List.mem_cons_self) (.here _)
  have toThick : breakfast.Way
      [("toast", .object [("thick", .null)]), ("thick", .null)] .null :=
    .into (List.mem_cons_of_mem _ List.mem_cons_self)
      (.into List.mem_cons_self (.here _))
  refine ⟨distinct, by decide, (stays _ _ toToast).2 ?_, fun kept => ?_⟩
  · exact List.forall_mem_singleton.2 id
  · have full := (stays _ _ toThick).1 kept
    exact full ("thick", .null) (by simp) trivial

end Json

end TableQuery
