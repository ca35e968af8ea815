import Mathlib.Data.List.Pairwise
import Mathlib.Data.List.Perm.Basic
import TableQuery.Proofs.Decoding
import TableQuery.Proofs.MemberOrder

/-!
# Reading members in any order

The members of an object may be listed in any order. A decoder is unordered if
it reads a document with sorted members exactly if it reads the document itself,
and reads the same then up to the order of members. Decoders of containers are
unordered if the decoders of their parts are. A record is unordered if, besides,
any two of its fields may be read one before the other or the other way round.
-/

namespace TableQuery

variable {α β γ δ ε ρ : Type}

/-! ## Steps side by side -/

/-- A step succeeds exactly if another one does, with the changed result. -/
def Parallel
    (change : α → β)
    (step : Except ε α)
    (changed : Except ε β) : Prop :=
  ∀ result, changed = .ok result ↔
    ∃ value, step = .ok value ∧ change value = result

namespace Parallel

theorem ok (change : α → β) (value : α) :
    Parallel change (.ok value : Except ε α) (.ok (change value)) := by
  intro result
  simp

theorem error (change : α → β) (cause other : ε) :
    Parallel change (.error cause) (.error other) := by
  intro result
  simp

theorem refl (step : Except ε α) : Parallel id step step := by
  intro result
  simp

/-- Chains are side by side if their steps are. -/
theorem bind
    {first : α → β}
    {last : γ → δ}
    {step : Except ε α}
    {changed : Except ε β}
    {next : α → Except ε γ}
    {other : β → Except ε δ}
    (steps : Parallel first step changed)
    (rest : ∀ value, Parallel last (next value) (other (first value))) :
    Parallel last (step >>= next) (changed >>= other) := by
  intro result
  simp only [bind_eq_ok_iff, steps _]
  constructor
  · rintro ⟨_, ⟨value, succeeds, rfl⟩, follows⟩
    obtain ⟨found, isNext, same⟩ := (rest value result).1 follows
    exact ⟨found, ⟨value, succeeds, isNext⟩, same⟩
  · rintro ⟨found, ⟨value, succeeds, isNext⟩, same⟩
    exact ⟨first value, ⟨value, succeeds, rfl⟩,
      (rest value result).2 ⟨found, isNext, same⟩⟩

/-- Results may be changed further. -/
theorem map
    {first : α → β}
    {last : γ → δ}
    {step : Except ε α}
    {changed : Except ε β}
    {onStep : α → γ}
    {onChanged : β → δ}
    (steps : Parallel first step changed)
    (commutes : ∀ value, onChanged (first value) = last (onStep value)) :
    Parallel last (step.map onStep) (changed.map onChanged) := by
  intro result
  simp only [map_eq_ok_iff, steps _]
  constructor
  · rintro ⟨_, ⟨value, succeeds, rfl⟩, rfl⟩
    exact ⟨_, ⟨value, succeeds, rfl⟩, (commutes value).symm⟩
  · rintro ⟨_, ⟨value, succeeds, rfl⟩, rfl⟩
    exact ⟨_, ⟨value, succeeds, rfl⟩, commutes value⟩

/-- Lists are read side by side if their items are. -/
theorem mapM
    {change : β → γ}
    {write : α → δ}
    {read : α → Except ε β}
    {other : δ → Except ε γ}
    {items : List α}
    (each : ∀ item ∈ items, Parallel change (read item) (other (write item))) :
    Parallel (List.map change) (items.mapM read)
      ((items.map write).mapM other) := by
  induction items with
  | nil => exact .ok (List.map change) []
  | cons item items hypothesis =>
      obtain ⟨first, others⟩ := List.forall_mem_cons.1 each
      rw [List.map_cons, List.mapM_cons, List.mapM_cons]
      refine first.bind fun value => (hypothesis others).bind fun values => ?_
      exact .ok (List.map change) (value :: values)

end Parallel

namespace Json

/-! ## Documents -/

mutual

/-- No object in a document has two members of one name. -/
def Distinct : Json → Prop
  | .array items => DistinctItems items
  | .object members => (Members.names members).Nodup ∧ DistinctMembers members
  | _ => True

/-- No object in documents has two members of one name. -/
def DistinctItems : List Json → Prop
  | [] => True
  | item :: rest => Distinct item ∧ DistinctItems rest

/-- No object in named documents has two members of one name. -/
def DistinctMembers : List (String × Json) → Prop
  | [] => True
  | (_, value) :: rest => Distinct value ∧ DistinctMembers rest

end

mutual

/-- Whether names repeat can be evaluated. -/
def decideDistinct : (value : Json) → Decidable value.Distinct
  | .array items => decideDistinctItems items
  | .object members =>
      have := decideDistinctMembers members
      inferInstanceAs (Decidable (_ ∧ _))
  | .null | .bool _ | .number _ | .string _ => .isTrue trivial

/-- Whether names repeat in documents can be evaluated. -/
def decideDistinctItems : (items : List Json) → Decidable (DistinctItems items)
  | [] => .isTrue trivial
  | item :: rest =>
      have := decideDistinct item
      have := decideDistinctItems rest
      inferInstanceAs (Decidable (_ ∧ _))

/-- Whether names repeat in named documents can be evaluated. -/
def decideDistinctMembers :
    (members : List (String × Json)) → Decidable (DistinctMembers members)
  | [] => .isTrue trivial
  | (_, value) :: rest =>
      have := decideDistinct value
      have := decideDistinctMembers rest
      inferInstanceAs (Decidable (_ ∧ _))

end

instance : DecidablePred Distinct := decideDistinct

theorem distinct_array_iff (items : List Json) :
    (array items).Distinct ↔ ∀ item ∈ items, item.Distinct := by
  rw [Distinct]
  induction items with
  | nil => simp [DistinctItems]
  | cons item rest hypothesis =>
      rw [DistinctItems, hypothesis, List.forall_mem_cons]

theorem distinctMembers_iff (members : List (String × Json)) :
    DistinctMembers members ↔ ∀ member ∈ members, member.2.Distinct := by
  induction members with
  | nil => simp [DistinctMembers]
  | cons member rest hypothesis =>
      rw [DistinctMembers, hypothesis, List.forall_mem_cons]

theorem distinct_object_iff (members : List (String × Json)) :
    (object members).Distinct ↔ (Members.names members).Nodup ∧
      ∀ member ∈ members, member.2.Distinct := by
  rw [Distinct, distinctMembers_iff]

theorem sortedItems_eq_map (items : List Json) :
    sortedItems items = items.map sorted := by
  induction items with
  | nil => rfl
  | cons item rest hypothesis => rw [sortedItems, hypothesis, List.map_cons]

theorem sortedMembers_eq_map (members : List (String × Json)) :
    sortedMembers members =
      members.map fun member => (member.1, sorted member.2) := by
  induction members with
  | nil => rfl
  | cons member rest hypothesis =>
      rw [sortedMembers, hypothesis, List.map_cons]

@[simp] theorem names_sortedMembers (members : List (String × Json)) :
    Members.names (sortedMembers members) = Members.names members := by
  simp [sortedMembers_eq_map, Members.names, Function.comp_def]

/-- Sorting lists the sorted members in another order. -/
theorem perm_sorted
    {members : List (String × Json)}
    (distinct : (Members.names members).Nodup) :
    (SortedMap.ofList (sortedMembers members)).entries.Perm
      (sortedMembers members) :=
  SortedMap.perm_ofList (by rwa [names_sortedMembers])

@[simp] theorem Found.ofJson_sorted (value : Json) :
    Found.ofJson value.sorted = Found.ofJson value := by
  cases value <;> rfl

theorem sorted_eq_null_iff (value : Json) :
    value.sorted = .null ↔ value = .null := by
  cases value <;> simp [sorted]

/-- An object whose sorted form has one member has one member. -/
theorem sorted_eq_singleton_iff
    {members : List (String × Json)}
    (distinct : (Members.names members).Nodup)
    (name : String)
    (image : Json) :
    (SortedMap.ofList (sortedMembers members)).entries = [(name, image)] ↔
      ∃ value, members = [(name, value)] ∧ value.sorted = image := by
  constructor
  · intro single
    have perm := perm_sorted distinct
    rw [single, List.singleton_perm, sortedMembers_eq_map, eq_comm,
      List.map_eq_singleton_iff] at perm
    obtain ⟨⟨_, value⟩, only, same⟩ := perm
    obtain ⟨rfl, isImage⟩ := Prod.mk.inj same
    exact ⟨value, only, isImage⟩
  · rintro ⟨value, rfl, rfl⟩
    rfl

/-! ## Decoders -/

/-- A decoder reads a document with sorted members exactly if it reads the
document, and what it reads is sorted then. -/
def Decoder.Unordered (decoder : Decoder α) (sort : α → α) : Prop :=
  ∀ value : Json, value.Distinct →
    Parallel sort (decoder.ofJson value) (decoder.ofJson value.sorted)

namespace Decoder

variable {decoder : Decoder α} {sort : α → α}

theorem Unordered.scalar (read : Found → Except Mismatch α) :
    (Decoder.scalar read).Unordered id := by
  intro value distinct
  change Parallel id (read (Found.ofJson value))
    (read (Found.ofJson value.sorted))
  rw [Found.ofJson_sorted]
  exact .refl _

theorem Unordered.map
    {sort : α → α}
    {sortChanged : β → β}
    (unordered : decoder.Unordered sort)
    {change : α → β}
    (commutes : ∀ value, change (sort value) = sortChanged (change value)) :
    (decoder.map change).Unordered sortChanged := by
  intro value distinct
  exact (unordered value distinct).map commutes

theorem Unordered.json : Decoder.json.Unordered Json.sorted := by
  intro value distinct
  exact .ok Json.sorted value

theorem Unordered.option (unordered : decoder.Unordered sort) :
    decoder.option.Unordered (Option.map sort) := by
  intro value distinct
  have present : Parallel (Option.map sort)
      ((decoder.ofJson value).map some)
      ((decoder.ofJson value.sorted).map some) :=
    (unordered value distinct).map fun _ => rfl
  cases value with
  | null => exact .ok (Option.map sort) none
  | _ => exact present

theorem Unordered.list (unordered : decoder.Unordered sort) :
    decoder.list.Unordered (List.map sort) := by
  intro value distinct
  cases value with
  | array items =>
      have each := (distinct_array_iff items).1 distinct
      have read := Parallel.mapM fun item member =>
        unordered item (each item member)
      rwa [← sortedItems_eq_map] at read
  | _ => exact .error _ _ _

/-- With distinct names, the members of a map are read in any order. -/
theorem sortedMap_ofJson_of_perm
    {left right : List (String × Json)}
    (distinct : (Members.names left).Nodup)
    (perm : left.Perm right)
    {map : SortedMap α}
    (read : decoder.sortedMap.ofJson (.object left) = .ok map) :
    decoder.sortedMap.ofJson (.object right) = .ok map := by
  obtain ⟨_, named, same, each, rfl⟩ := sortedMap_ofJson_eq_ok_iff.1 read
  cases same
  obtain ⟨others, eachOther, permOthers⟩ :=
    List.perm_comp_forall₂ perm.symm each
  have sameNames := names_eq_of_forall₂ (fun _ _ same => same.1) each
  refine sortedMap_ofJson_eq_ok_iff.2 ⟨right, others, rfl, eachOther, ?_⟩
  exact (SortedMap.ofList_eq_of_perm (sameNames ▸ distinct)
    permOthers.symm).symm

theorem Unordered.sortedMap (unordered : decoder.Unordered sort) :
    decoder.sortedMap.Unordered (SortedMap.mapValues sort) := by
  intro value distinct
  cases value with
  | object members =>
      obtain ⟨distinctNames, each⟩ := (distinct_object_iff members).1 distinct
      have perm := perm_sorted distinctNames
      -- The members are sorted one by one first, and listed in order then.
      have inPlace : Parallel (SortedMap.mapValues sort)
          (decoder.sortedMap.ofJson (.object members))
          (decoder.sortedMap.ofJson (.object (sortedMembers members))) := by
        rw [sortedMembers_eq_map]
        refine Parallel.map (Parallel.mapM fun member present => ?_)
          fun read => SortedMap.ofList_map sort read
        exact (unordered _ (each member present)).bind fun read =>
          .ok (fun entry => (entry.1, sort entry.2)) (member.1, read)
      intro result
      rw [← inPlace result]
      constructor
      · exact sortedMap_ofJson_of_perm
          ((perm.map Prod.fst).nodup_iff.2 (by simpa using distinctNames)) perm
      · exact sortedMap_ofJson_of_perm (by simpa using distinctNames) perm.symm
  | _ => exact .error _ _ _

theorem Unordered.choice (choices : List (String × α)) :
    (Decoder.choice choices).Unordered id := by
  intro value distinct
  cases value with
  | object members =>
      obtain ⟨distinctNames, _⟩ := (distinct_object_iff members).1 distinct
      intro result
      simp only [Json.sorted, choice_ofJson_object_iff,
        sorted_eq_singleton_iff distinctNames, sorted_eq_null_iff,
        exists_eq_right, id_eq]
  | _ => exact .refl _

end Decoder

/-! ## Fields -/

namespace Field

/-- A field is read from a sorted value into a sorted record exactly if it is
read from the value into the record, and the record is sorted then. -/
def Unordered (field : Field ρ) (sort : ρ → ρ) : Prop :=
  ∀ value : Json, value.Distinct → ∀ read,
    Parallel sort (field.ofJson value read)
      (field.ofJson value.sorted (sort read))

/-- Two fields are read one before the other or the other way round. -/
def Commutes (first second : Field ρ) : Prop :=
  ∀ value other read result,
    (first.ofJson value read >>= second.ofJson other) = .ok result ↔
      (second.ofJson other read >>= first.ofJson value) = .ok result

instance : Std.Symm (Commutes : Field ρ → Field ρ → Prop) where
  symm _ _ commutes value other read result :=
    (commutes other value read result).symm

/-- Fields are read in either order if they are put in in either order. -/
theorem commutes_of
    {name otherName : String}
    {presence otherPresence : Presence}
    {decoder : Decoder α}
    {otherDecoder : Decoder β}
    {put : α → ρ → ρ}
    {putOther : β → ρ → ρ}
    (independent : ∀ part other read,
      putOther other (put part read) = put part (putOther other read)) :
    (Field.of name presence decoder put).Commutes
      (Field.of otherName otherPresence otherDecoder putOther) := by
  intro value other read result
  simp only [bind_eq_ok_iff, ofJson_of_eq_ok_iff]
  constructor
  · rintro ⟨_, ⟨part, isPart, rfl⟩, ⟨part', isPart', rfl⟩⟩
    exact ⟨_, ⟨part', isPart', rfl⟩, ⟨part, isPart, (independent _ _ _).symm⟩⟩
  · rintro ⟨_, ⟨part', isPart', rfl⟩, ⟨part, isPart, rfl⟩⟩
    exact ⟨_, ⟨part, isPart, rfl⟩, ⟨part', isPart', independent _ _ _⟩⟩

end Field

/-- What is put in sorted is sorted once it is put in. -/
theorem Decoder.Unordered.field
    {decoder : Decoder α}
    {sortPart : α → α}
    (unordered : decoder.Unordered sortPart)
    {name : String}
    {presence : Presence}
    {put : α → ρ → ρ}
    {sort : ρ → ρ}
    (sorts : ∀ part read, put (sortPart part) (sort read) =
      sort (put part read)) :
    (Field.of name presence decoder put).Unordered sort := by
  intro value distinct read
  refine (unordered value distinct).bind fun part => ?_
  rw [sorts]
  exact .ok sort (put part read)

/-! ## Records -/

namespace Record

variable {record : Record ρ}

/-- Put one member of an object into a record. -/
def putMember (record : Record ρ) (member : String × Json) (read : ρ) :
    Except Mismatch ρ :=
  match record.field? member.1 with
  | some field => field.ofJson member.2 read
  | none =>
      if record.sealed then .error (.unknownField member.1 record.names)
      else .ok read

theorem putMembers_cons
    (member : String × Json)
    (members : List (String × Json))
    (read : ρ) :
    record.putMembers (member :: members) read =
      record.putMember member read >>= record.putMembers members := by
  obtain ⟨name, value⟩ := member
  rw [putMembers, putMember]
  cases record.field? name with
  | some field => rfl
  | none => cases record.sealed <;> rfl

/-- The fields of a record do not mind the order of members, their own
included. -/
structure Unordered (record : Record ρ) (sort : ρ → ρ) : Prop where
  /-- The blank record is sorted. -/
  blank : sort record.blank = record.blank
  /-- Every field is read from sorted values. -/
  fields : ∀ field ∈ record.fields, field.Unordered sort
  /-- Any two fields are read in either order. -/
  commutes : record.fields.Pairwise Field.Commutes

/-- Members of different names are put in one before the other or the other way
round. -/
theorem putMember_comm
    (commutes : record.fields.Pairwise Field.Commutes)
    {member other : String × Json}
    (different : member.1 ≠ other.1)
    (read result : ρ) :
    (record.putMember member read >>= record.putMember other) = .ok result ↔
      (record.putMember other read >>= record.putMember member) =
        .ok result := by
  unfold putMember
  cases found : record.field? member.1 with
  | none => cases record.sealed <;> simp [bind_eq_ok_iff]
  | some field =>
      cases foundOther : record.field? other.1 with
      | none => cases record.sealed <;> simp [bind_eq_ok_iff]
      | some otherField =>
          obtain ⟨declared, isName⟩ := field?_eq_some found
          obtain ⟨declaredOther, isOtherName⟩ := field?_eq_some foundOther
          have apart : field ≠ otherField := by
            rintro rfl
            exact different (isName.symm.trans isOtherName)
          exact commutes.forall declared declaredOther apart _ _ read result

/-- With distinct names, members are put in in any order. -/
theorem putMembers_perm
    (commutes : record.fields.Pairwise Field.Commutes)
    {left right : List (String × Json)}
    (perm : left.Perm right)
    (distinct : (Members.names left).Nodup)
    (read result : ρ) :
    record.putMembers left read = .ok result ↔
      record.putMembers right read = .ok result := by
  induction perm generalizing read with
  | nil => rfl
  | cons member _ hypothesis =>
      have others := (List.nodup_cons.1 distinct).2
      simp only [putMembers_cons, bind_eq_ok_iff, hypothesis others]
  | swap first second rest =>
      have different : second.1 ≠ first.1 := by
        rintro same
        exact (List.nodup_cons.1 distinct).1 (same ▸ List.mem_cons_self)
      have pair (member other : String × Json) :
          record.putMembers (member :: other :: rest) read =
            (record.putMember member read >>= record.putMember other) >>=
              record.putMembers rest := by
        rw [putMembers_cons, bind_assoc]
        exact bind_congr fun next => putMembers_cons other rest next
      rw [pair, pair, bind_eq_ok_iff, bind_eq_ok_iff]
      simp only [putMember_comm commutes different]
  | trans first _ hypothesis hypothesis' =>
      exact (hypothesis distinct read).trans
        (hypothesis' ((first.map Prod.fst).nodup_iff.1 distinct) read)

/-- Which required fields are missing is a matter of the names alone. -/
theorem checkPresence_of_perm
    {left right : List String}
    (perm : left.Perm right) :
    record.checkPresence left = record.checkPresence right := by
  simp only [checkPresence, perm.mem_iff]

variable {sort : ρ → ρ}

namespace Unordered

theorem putMembers
    (unordered : record.Unordered sort)
    {members : List (String × Json)}
    (each : ∀ member ∈ members, member.2.Distinct)
    (read : ρ) :
    Parallel sort (record.putMembers members read)
      (record.putMembers (sortedMembers members) (sort read)) := by
  induction members generalizing read with
  | nil => exact .ok sort read
  | cons member members hypothesis =>
      obtain ⟨first, others⟩ := List.forall_mem_cons.1 each
      have step : Parallel sort (record.putMember member read)
          (record.putMember (member.1, member.2.sorted) (sort read)) := by
        unfold putMember
        cases found : record.field? member.1 with
        | some field =>
            exact unordered.fields field (field?_eq_some found).1 _ first read
        | none =>
            cases record.sealed with
            | false => exact .ok sort read
            | true => exact .error sort _ _
      rw [sortedMembers, putMembers_cons, putMembers_cons]
      exact step.bind fun next => hypothesis others next

theorem putItems
    (unordered : record.Unordered sort)
    (length : Nat)
    {fields : List (Field ρ)}
    (declared : ∀ field ∈ fields, field ∈ record.fields)
    {items : List Json}
    (each : ∀ item ∈ items, item.Distinct)
    (read : ρ) :
    Parallel sort (record.putItems length fields items read)
      (record.putItems length fields (items.map sorted) (sort read)) := by
  induction fields generalizing items read with
  | nil =>
      cases items with
      | nil => exact .ok sort read
      | cons item items => exact .error sort _ _
  | cons field fields hypothesis =>
      obtain ⟨isField, areFields⟩ := List.forall_mem_cons.1 declared
      cases items with
      | nil =>
          simp only [List.map_nil, Record.putItems]
          split
          · exact hypothesis areFields each read
          · exact .error sort _ _
      | cons item items =>
          obtain ⟨first, others⟩ := List.forall_mem_cons.1 each
          exact (unordered.fields field isField item first read).bind fun next =>
            hypothesis areFields others next

/-- A record is read with its members in any order. -/
theorem decoder (unordered : record.Unordered sort) :
    record.decoder.Unordered sort := by
  intro value distinct
  cases value with
  | object members =>
      obtain ⟨distinctNames, each⟩ := (distinct_object_iff members).1 distinct
      have perm := perm_sorted distinctNames
      have sortedNames : (Members.names (sortedMembers members)).Nodup := by
        rwa [names_sortedMembers]
      have inPlace := unordered.putMembers each record.blank
      rw [unordered.blank] at inPlace
      have given : record.checkPresence (Members.names
          (SortedMap.ofList (sortedMembers members)).entries) =
            record.checkPresence (Members.names members) := by
        rw [← names_sortedMembers members]
        exact checkPresence_of_perm (perm.map Prod.fst)
      intro result
      simp only [Record.decoder, sorted, ofJson_object_eq_ok_iff]
      rw [← putMembers_perm unordered.commutes perm.symm sortedNames,
        inPlace result, given]
      constructor
      · rintro ⟨⟨read, put, same⟩, complete⟩
        exact ⟨read, ⟨put, complete⟩, same⟩
      · rintro ⟨read, ⟨put, complete⟩, same⟩
        exact ⟨⟨read, put, same⟩, complete⟩
  | array items =>
      have each := (distinct_array_iff items).1 distinct
      have parts := unordered.putItems items.length (fun _ member => member)
        each record.blank
      rw [unordered.blank] at parts
      change Parallel sort _ (record.putItems (sortedItems items).length
        record.fields (sortedItems items) record.blank)
      rwa [sortedItems_eq_map, List.length_map]
  | _ => exact .error sort _ _

end Unordered

end Record
end Json
end TableQuery
