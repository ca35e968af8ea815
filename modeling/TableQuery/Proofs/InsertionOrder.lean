import Mathlib.Data.Finset.Card
import TableQuery.Proofs.Bindings
import TableQuery.Proofs.DirectMaps
import TableQuery.Proofs.FirstMentions

/-!
# Maps that remember insertions

A field map is told from the insertions that made it: its names are in the order
in which each of them was first inserted, and each is bound to the value that was
inserted for it last. This holds whether names are inserted one by one, collected
from a list or read from the object that a text is, and in any mixture of these.
-/

namespace TableQuery

variable {α : Type}

/-- The last value that was inserted for a name. -/
def LastInserted
    (history : List (String × α))
    (name : String)
    (value : α) : Prop :=
  ∃ before after, history = before ++ (name, value) :: after ∧
    name ∉ Members.names after

theorem not_lastInserted_nil (name : String) (value : α) :
    ¬ LastInserted [] name value := by
  rintro ⟨before, after, split, _⟩
  cases before <;> cases split

/-- A value that is inserted is the last one of its name and of no other. -/
theorem lastInserted_concat_iff
    (history : List (String × α))
    (name query : String)
    (value found : α) :
    LastInserted (history ++ [(name, value)]) query found ↔
      if query = name then value = found
      else LastInserted history query found := by
  constructor
  · rintro ⟨before, after, split, absent⟩
    rcases List.eq_nil_or_concat after with rfl | ⟨initial, last, rfl⟩
    · obtain ⟨_, same⟩ := List.append_inj' split rfl
      cases same
      rw [if_pos rfl]
    · rw [List.concat_eq_append] at split absent
      have regrouped : history ++ [(name, value)] =
          (before ++ (query, found) :: initial) ++ [last] := by
        simpa using split
      obtain ⟨rfl, same⟩ := List.append_inj' regrouped rfl
      cases same
      rw [Members.names, List.map_append, List.mem_append, not_or] at absent
      rw [if_neg (by simpa using absent.2)]
      exact ⟨before, initial, rfl, absent.1⟩
  · intro last
    split at last
    · next same =>
        subst same last
        exact ⟨history, [], rfl, List.not_mem_nil⟩
    · next different =>
        obtain ⟨before, after, rfl, absent⟩ := last
        refine ⟨before, after ++ [(name, value)], by simp, ?_⟩
        rw [Members.names, List.map_append, List.mem_append, not_or]
        exact ⟨absent, by simpa using different⟩

namespace Members

/-- Members with distinct names are told from the order of the names and from
what is found under them. -/
theorem eq_of_lookup
    {left right : List (String × α)}
    (distinct : (names left).Nodup)
    (sameNames : names left = names right)
    (sameValues : ∀ name, left.lookup name = right.lookup name) :
    left = right := by
  have sameLength : left.length = right.length := by
    simpa only [names, List.length_map] using congrArg List.length sameNames
  refine List.ext_getElem sameLength fun position inLeft inRight => ?_
  have sameName : left[position].1 = right[position].1 := by
    simpa only [names, List.getElem?_map, List.getElem?_eq_getElem, inLeft,
      inRight, Option.map_some, Option.some.injEq] using
      congrArg (·[position]?) sameNames
  have first : left.lookup left[position].1 = some left[position].2 :=
    lookup_of_mem distinct (List.getElem_mem inLeft)
  have second : right.lookup right[position].1 = some right[position].2 :=
    lookup_of_mem (sameNames ▸ distinct) (List.getElem_mem inRight)
  rw [sameValues, sameName] at first
  exact Prod.ext sameName (Option.some.inj (first.symm.trans second))

/-- Inserting leaves every member where it stands. -/
theorem getElem?_insert
    (name : String)
    (value : α)
    {members : List (String × α)}
    (distinct : (names members).Nodup)
    {position : Nat}
    {key : String}
    {old : α}
    (present : members[position]? = some (key, old)) :
    (insert name value members)[position]? =
      some (key, if key = name then value else old) := by
  induction members generalizing position with
  | nil => cases present
  | cons head rest hypothesis =>
      obtain ⟨first, held⟩ := head
      rw [names, List.map_cons, List.nodup_cons] at distinct
      rw [insert_cons]
      cases position with
      | zero =>
          cases present
          split <;> rfl
      | succ position =>
          rw [List.getElem?_cons_succ] at present
          split
          · next same =>
              -- The name stands in front, so it is not among the rest.
              have later : key ∈ names rest :=
                List.mem_map_of_mem (List.mem_of_getElem? present)
              have different : key ≠ name := by
                rintro rfl
                exact distinct.1 (same ▸ later)
              rw [if_neg different, List.getElem?_cons_succ, present]
          · rw [List.getElem?_cons_succ, hypothesis distinct.2 present]

end Members

namespace FieldMap

/-! ## Observers -/

theorem contains_iff_mem_keys (map : FieldMap α) (name : String) :
    map.contains name = true ↔ name ∈ map.keys :=
  Members.lookup_isSome_iff name map.entries

/-- What a map shows of the insertions that made it. -/
structure Remembers
    (map : FieldMap α)
    (history : List (String × α)) : Prop where
  /-- Its names are those that were inserted, each once, in the order in which
  they were first inserted. -/
  keys : FirstMentions (Members.names history) map.keys
  /-- A name is bound to the value that was inserted for it last. -/
  get?_iff : ∀ name value,
    map.get? name = some value ↔ LastInserted history name value
  /-- Exactly the names that were inserted are bound. -/
  contains_iff : ∀ name,
    map.contains name = true ↔ name ∈ Members.names history
  /-- The size is the number of different names. -/
  size_eq : map.size = (Members.names history).toFinset.card

/-- The order of the names and their values say the rest. -/
theorem Remembers.of_keys
    {map : FieldMap α}
    {history : List (String × α)}
    (keys : FirstMentions (Members.names history) map.keys)
    (get?_iff : ∀ name value,
      map.get? name = some value ↔ LastInserted history name value) :
    map.Remembers history where
  keys := keys
  get?_iff := get?_iff
  contains_iff name :=
    (map.contains_iff_mem_keys name).trans (keys.mem_iff name)
  size_eq := by
    have sameNames : map.keys.toFinset = (Members.names history).toFinset := by
      ext name
      rw [List.mem_toFinset, List.mem_toFinset, keys.mem_iff]
    rw [← sameNames, List.toFinset_card_of_nodup keys.distinct, FieldMap.keys,
      Members.names, List.length_map, size]

theorem remembers_empty : (empty : FieldMap α).Remembers [] :=
  .of_keys .nil fun name value =>
    iff_of_false nofun (not_lastInserted_nil name value)

/-- One more insertion is remembered beside the earlier ones. -/
theorem Remembers.insert
    {map : FieldMap α}
    {history : List (String × α)}
    (remembers : map.Remembers history)
    (name : String)
    (value : α) :
    (map.insert name value).Remembers (history ++ [(name, value)]) := by
  refine .of_keys ?_ fun query found => ?_
  · rw [keys_insert, Members.names, List.map_append]
    split
    · next present =>
        exact remembers.keys.again ((remembers.keys.mem_iff name).1 present)
    · next absent =>
        refine remembers.keys.concat fun member => ?_
        exact absent ((remembers.keys.mem_iff name).2 member)
  · rw [get?_insert, lastInserted_concat_iff]
    split
    · exact Option.some_inj
    · exact remembers.get?_iff query found

/-- Collecting is inserting one by one. -/
theorem ofList_concat (members : List (String × α)) (member : String × α) :
    ofList (members ++ [member]) =
      (ofList members).insert member.1 member.2 := by
  apply ext
  rw [entries_ofList, entries_insert, entries_ofList, Members.merge,
    Members.insertAll, List.foldl_append]
  rfl

theorem remembers_ofList (members : List (String × α)) :
    (ofList members).Remembers members := by
  induction members using List.reverseRecOn with
  | nil => exact remembers_empty
  | append_singleton members member hypothesis =>
      rw [ofList_concat]
      exact hypothesis.insert member.1 member.2

/-- Maps that show the same insertions are the same. -/
theorem Remembers.unique
    {map other : FieldMap α}
    {history : List (String × α)}
    (remembers : map.Remembers history)
    (again : other.Remembers history) : map = other := by
  refine ext (Members.eq_of_lookup map.distinct
    (remembers.keys.unique again.keys) fun name => ?_)
  exact Option.ext fun value =>
    (remembers.get?_iff name value).trans (again.get?_iff name value).symm

theorem remembers_iff
    {map : FieldMap α}
    {history : List (String × α)} :
    map.Remembers history ↔ ofList history = map :=
  ⟨(remembers_ofList history).unique, fun same =>
    same ▸ remembers_ofList history⟩

/-! ## One insertion -/

/-- A map differs from an earlier one by the value of a single name. -/
structure ChangesOnly
    (before after : FieldMap α)
    (name : String)
    (value : α) : Prop where
  /-- The name is bound to the value. -/
  bound : after.get? name = some value
  /-- Every other name is bound as before. -/
  others : ∀ other, other ≠ name → after.get? other = before.get? other
  /-- What was present stands where it stood, and only the value of the name
  differs. -/
  positions : ∀ (position : Nat) (key : String) (old : α),
    before.entries[position]? = some (key, old) →
      after.entries[position]? =
        some (key, if key = name then value else old)
  /-- Only a name that was absent takes room. -/
  size_eq : after.size =
    if before.contains name = true then before.size else before.size + 1

theorem changesOnly_insert
    (map : FieldMap α)
    (name : String)
    (value : α) : map.ChangesOnly (map.insert name value) name value where
  bound := by rw [get?_insert, if_pos rfl]
  others other different := by rw [get?_insert, if_neg different]
  positions position key old :=
    Members.getElem?_insert name value map.distinct
  size_eq := by
    have sizes : (map.insert name value).keys.length =
        if name ∈ map.keys then map.keys.length else map.keys.length + 1 := by
      rw [keys_insert]
      split
      · rfl
      · rw [List.length_append, List.length_singleton]
    simpa only [keys, Members.names, List.length_map, size,
      contains_iff_mem_keys] using sizes

end FieldMap

/-! ## Objects that are read -/

namespace Json.Decoder

/-- The members of a closed object in the order written, each of them read by
itself. -/
inductive Lists (decoder : Decoder α) :
    Nat → Draft → List (String × α) → Prop
  | object {depth : Nat} {members : List (StringDraft × Draft)}
      {entries : List (String × α)}
      (each : List.Forall₂ (Draft.ReadsAs fun draft value =>
        decoder.ofDraft depth draft = .ok value) members entries) :
      Lists decoder (depth + 1) (.object members .closed) entries

theorem fieldMap_ofDraft_iff_lists
    {expected : String}
    {decoder : Decoder α}
    {depth : Nat}
    {draft : Draft}
    {map : FieldMap α} :
    (fieldMap expected decoder).ofDraft depth draft = .ok map ↔
      ∃ entries, decoder.Lists depth draft entries ∧
        FieldMap.ofList entries = map := by
  rw [fieldMap_ofDraft_eq_ok_iff]
  constructor
  · rintro ⟨inner, members, entries, rfl, rfl, each, same⟩
    exact ⟨entries, .object each, same⟩
  · rintro ⟨entries, ⟨each⟩, same⟩
    exact ⟨_, _, entries, rfl, rfl, each, same⟩

/-- A whole text is an object whose members are these. -/
def ListsText
    (decoder : Decoder α)
    (text : String)
    (entries : List (String × α)) : Prop :=
  decoder.Lists depthLimit (Document.ofText text).root entries ∧
    (Document.ofText text).finish = .ok ()

/-- A text is read as the map that remembers its members. -/
theorem fieldMap_ofText_eq_ok_iff
    {expected : String}
    {decoder : Decoder α}
    {text : String}
    {map : FieldMap α} :
    (fieldMap expected decoder).ofText text = .ok map ↔
      ∃ entries, decoder.ListsText text entries ∧ map.Remembers entries := by
  rw [ofText_eq_ok_iff, fieldMap_ofDraft_iff_lists]
  constructor
  · rintro ⟨⟨entries, lists, same⟩, finished⟩
    exact ⟨entries, ⟨lists, finished⟩, FieldMap.remembers_iff.2 same⟩
  · rintro ⟨entries, ⟨lists, finished⟩, remembers⟩
    exact ⟨⟨entries, lists, FieldMap.remembers_iff.1 remembers⟩, finished⟩

end Json.Decoder

/-! ## Any mixture -/

/-- A sequence of insertions makes a map. It starts with nothing, with a list
that is collected or with an object that is read from a draft, and goes on name
by name. -/
inductive FieldMap.Arises : List (String × α) → FieldMap α → Prop
  | empty : Arises [] .empty
  | collected (members : List (String × α)) : Arises members (.ofList members)
  | read {expected : String} {decoder : Json.Decoder α} {depth : Nat}
      {draft : Json.Draft} {entries : List (String × α)} {map : FieldMap α}
      (lists : decoder.Lists depth draft entries)
      (read : (Json.Decoder.fieldMap expected decoder).ofDraft depth draft =
        .ok map) :
      Arises entries map
  | inserted {history : List (String × α)} {map : FieldMap α}
      (arises : Arises history map) (name : String) (value : α) :
      Arises (history ++ [(name, value)]) (map.insert name value)

theorem FieldMap.Arises.remembers
    {history : List (String × α)}
    {map : FieldMap α}
    (arises : Arises history map) : map.Remembers history := by
  induction arises with
  | empty => exact remembers_empty
  | collected members => exact remembers_ofList members
  | @read expected decoder depth draft entries _ lists read =>
      have collected : (Json.Decoder.fieldMap expected decoder).ofDraft depth
          draft = .ok (ofList entries) :=
        Json.Decoder.fieldMap_ofDraft_iff_lists.2 ⟨entries, lists, rfl⟩
      exact remembers_iff.2 (Except.ok.inj (collected.symm.trans read))
  | inserted _ name value remembers => exact remembers.insert name value

/-- A map that insertions made remembers them, a text is read as the map that
remembers its members, and an insertion changes nothing but its own name. -/
theorem fieldMap_remembers (α : Type) :
    (∀ (history : List (String × α)) (map : FieldMap α),
      FieldMap.Arises history map → map.Remembers history) ∧
    (∀ (expected : String) (decoder : Json.Decoder α) (text : String)
      (map : FieldMap α),
      (Json.Decoder.fieldMap expected decoder).ofText text = .ok map ↔
        ∃ entries, decoder.ListsText text entries ∧
          map.Remembers entries) ∧
    ∀ (map : FieldMap α) (name : String) (value : α),
      map.ChangesOnly (map.insert name value) name value := by
  refine ⟨fun _ _ => FieldMap.Arises.remembers, ?_,
    FieldMap.changesOnly_insert⟩
  intro expected decoder text map
  exact Json.Decoder.fieldMap_ofText_eq_ok_iff

/-- A text in which a name is written twice. -/
def repeatedName : String :=
  "\x7b\"a\":true,\"b\":true,\"a\":false\x7d"

theorem fieldMap_remembers_repeatedName :
    ∃ map : FieldMap Bool,
      (Json.Decoder.fieldMap "a map" .bool).ofText repeatedName = .ok map ∧
        FieldMap.Arises
          [("a", true), ("b", true), ("a", false), ("c", true)]
          (map.insert "c" true) ∧
        (map.insert "c" true).Remembers
          [("a", true), ("b", true), ("a", false), ("c", true)] ∧
        map.ChangesOnly (map.insert "c" true) "c" true := by
  obtain ⟨remembers, reads, changes⟩ := fieldMap_remembers Bool
  have root : (Json.Document.ofText repeatedName).root =
      .object [(⟨.ok "a", none⟩, .bool true), (⟨.ok "b", none⟩, .bool true),
        (⟨.ok "a", none⟩, .bool false)] .closed := by cbv
  have finished : (Json.Document.ofText repeatedName).finish = .ok () := by
    decide +kernel
  have lists : Json.Decoder.bool.ListsText repeatedName
      [("a", true), ("b", true), ("a", false)] := by
    refine ⟨?_, finished⟩
    rw [root]
    exact .object
      (.cons ⟨rfl, rfl⟩ (.cons ⟨rfl, rfl⟩ (.cons ⟨rfl, rfl⟩ .nil)))
  have read := (reads "a map" _ _ _).2
    ⟨_, lists, FieldMap.remembers_ofList _⟩
  have arises := FieldMap.Arises.inserted
    (.read lists.1 (Json.Decoder.ofText_eq_ok_iff.1 read).1) "c" true
  exact ⟨_, read, arises, remembers _ _ arises, changes _ "c" true⟩

end TableQuery
