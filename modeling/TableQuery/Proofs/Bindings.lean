import Mathlib.Data.List.Nodup
import TableQuery.SortedMap

/-!
# Bindings of collected maps

A sorted map is collected from a list of named values. What it binds is what
the list names: the last value of a name wins, and no other name is bound.
Lists in which no name has two values bind every value they hold. Values may be
changed before they are collected or afterwards.
-/

namespace TableQuery

variable {α : Type}

namespace Members

theorem lookup_isSome_iff
    (name : String)
    (members : List (String × α)) :
    (members.lookup name).isSome = true ↔ name ∈ names members := by
  rw [List.lookup_isSome_iff, List.mem_map]
  constructor
  · rintro ⟨member, present, same⟩
    exact ⟨member, present, (beq_iff_eq.1 same).symm⟩
  · rintro ⟨member, present, same⟩
    exact ⟨member, present, beq_iff_eq.2 same.symm⟩

theorem mem_of_lookup
    {name : String}
    {value : α}
    {members : List (String × α)}
    (found : members.lookup name = some value) :
    (name, value) ∈ members := by
  obtain ⟨before, after, split, _⟩ := List.lookup_eq_some_iff.1 found
  simp [split]

/-- With distinct names, every member is found under its name. -/
theorem lookup_of_mem
    {name : String}
    {value : α}
    {members : List (String × α)}
    (distinct : (names members).Nodup)
    (member : (name, value) ∈ members) :
    members.lookup name = some value := by
  induction members with
  | nil => simp at member
  | cons head rest hypothesis =>
      obtain ⟨key, old⟩ := head
      rw [names, List.map_cons, List.nodup_cons] at distinct
      rw [lookup_cons]
      rcases List.mem_cons.1 member with equal | present
      · cases equal
        simp
      · have different : name ≠ key := by
          intro same
          exact distinct.1 (List.mem_map.2 ⟨_, present, same⟩)
        rw [if_neg different]
        exact hypothesis distinct.2 present

/-- With distinct names, no name has two values. -/
theorem agree_of_nodup
    {members : List (String × α)}
    (distinct : (names members).Nodup)
    (name : String)
    (value other : α)
    (member : (name, value) ∈ members)
    (otherMember : (name, other) ∈ members) :
    other = value := by
  have found := lookup_of_mem distinct otherMember
  rw [lookup_of_mem distinct member] at found
  exact (Option.some.inj found).symm

theorem mem_names_flatMap
    {β : Type}
    (name : String)
    (items : List β)
    (members : β → List (String × α)) :
    name ∈ names (items.flatMap members) ↔
      ∃ item ∈ items, name ∈ names (members item) := by
  rw [names, List.map_flatMap, List.mem_flatMap]

theorem filter_insert
    (keep : String → Bool)
    (name : String)
    (value : α)
    (members : List (String × α)) :
    (insert name value members).filter (fun member => keep member.1) =
      if keep name = true then
        insert name value (members.filter fun member => keep member.1)
      else members.filter fun member => keep member.1 := by
  induction members with
  | nil => cases kept : keep name <;> simp [kept]
  | cons member members hypothesis =>
      obtain ⟨key, old⟩ := member
      by_cases same : key = name
      · subst same
        cases kept : keep key <;> simp [kept]
      · cases kept : keep key <;> cases new : keep name <;>
          simp [same, kept, new, hypothesis]

/-- Merging keeps the members of different names apart. -/
theorem filter_merge
    (keep : String → Bool)
    (members : List (String × α)) :
    (merge members).filter (fun member => keep member.1) =
      merge (members.filter fun member => keep member.1) := by
  have kept : ∀ earlier : List (String × α),
      (insertAll earlier members).filter (fun member => keep member.1) =
        insertAll (earlier.filter fun member => keep member.1)
          (members.filter fun member => keep member.1) := by
    induction members with
    | nil => exact fun earlier => rfl
    | cons member members hypothesis =>
        intro earlier
        rw [insertAll_cons, hypothesis, filter_insert]
        cases new : keep member.1 <;> simp [new]
  exact kept []

end Members

namespace SortedMap

theorem nodup_names (map : SortedMap α) :
    (Members.names map.entries).Nodup := by
  refine List.pairwise_map.2 (map.increasing.imp ?_)
  intro left right below same
  exact String.lt_irrefl right.1 (same ▸ below)

theorem get?_eq_some_iff
    (map : SortedMap α)
    (name : String)
    (value : α) :
    map.get? name = some value ↔ (name, value) ∈ map.entries :=
  ⟨Members.mem_of_lookup, Members.lookup_of_mem map.nodup_names⟩

theorem mem_keys_iff (map : SortedMap α) (name : String) :
    name ∈ map.keys ↔ map.contains name = true :=
  (Members.lookup_isSome_iff name map.entries).symm

theorem mem_keys_insert
    (map : SortedMap α)
    (new name : String)
    (value : α) :
    name ∈ (map.insert new value).keys ↔ name ∈ map.keys ∨ new = name := by
  simp only [mem_keys_iff, contains, get?_insert]
  split
  · next same => simp [same]
  · next different => simp [Ne.symm different]

theorem get?_insertAll
    (map : SortedMap α)
    (members : List (String × α))
    (name : String) :
    (map.insertAll members).get? name =
      (members.reverse.lookup name).or (map.get? name) := by
  induction members generalizing map with
  | nil => rfl
  | cons member rest hypothesis =>
      change ((map.insert member.1 member.2).insertAll rest).get? name = _
      rw [hypothesis, get?_insert, List.reverse_cons, List.lookup_append,
        Members.lookup_cons, List.lookup_nil]
      split <;> simp

/-- The last value of a name is the one that is kept. -/
theorem get?_ofList (members : List (String × α)) (name : String) :
    (ofList members).get? name = members.reverse.lookup name := by
  simp [ofList, get?_insertAll]

theorem contains_ofList (members : List (String × α)) (name : String) :
    (ofList members).contains name = true ↔ name ∈ Members.names members := by
  rw [contains, get?_ofList, Members.lookup_isSome_iff, Members.names,
    List.map_reverse, List.mem_reverse]

/-- Nothing is kept that was not collected. -/
theorem mem_of_mem_ofList
    {members : List (String × α)}
    {entry : String × α}
    (member : entry ∈ (ofList members).entries) :
    entry ∈ members := by
  have found := ((ofList members).get?_eq_some_iff entry.1 entry.2).2 member
  rw [get?_ofList] at found
  simpa using Members.mem_of_lookup found

/-- A value is kept if its name has no other one. -/
theorem get?_ofList_of_mem
    {members : List (String × α)}
    {name : String}
    {value : α}
    (member : (name, value) ∈ members)
    (agree : ∀ other, (name, other) ∈ members → other = value) :
    (ofList members).get? name = some value := by
  have bound : (ofList members).contains name = true :=
    (contains_ofList members name).2 (List.mem_map_of_mem member)
  obtain ⟨other, found⟩ := Option.isSome_iff_exists.1 bound
  rw [found, agree other]
  rw [get?_ofList] at found
  simpa using Members.mem_of_lookup found

/-- If no name has two values, a map is collected of exactly the members that are
listed. -/
theorem mem_ofList_iff_of_agree
    {members : List (String × α)}
    (agree : ∀ name value other, (name, value) ∈ members →
      (name, other) ∈ members → other = value)
    (member : String × α) :
    member ∈ (ofList members).entries ↔ member ∈ members := by
  constructor
  · exact mem_of_mem_ofList
  · intro present
    exact (get?_eq_some_iff _ _ _).1 (get?_ofList_of_mem present fun other =>
      agree member.1 member.2 other present)

theorem mem_ofList_iff
    {members : List (String × α)}
    (distinct : (Members.names members).Nodup)
    (entry : String × α) :
    entry ∈ (ofList members).entries ↔ entry ∈ members :=
  mem_ofList_iff_of_agree (Members.agree_of_nodup distinct) entry

/-- With distinct names, collecting changes the order of the members only. -/
theorem perm_ofList
    {members : List (String × α)}
    (distinct : (Members.names members).Nodup) :
    (ofList members).entries.Perm members :=
  (List.perm_ext_iff_of_nodup (.of_map _ (ofList members).nodup_names)
    (.of_map _ distinct)).2 (mem_ofList_iff distinct)

/-- Maps that list the same members are the same. -/
theorem eq_of_perm
    {left right : SortedMap α}
    (perm : left.entries.Perm right.entries) : left = right := by
  apply ext
  refine perm.eq_of_pairwise ?_ left.increasing right.increasing
  intro first second _ _ below above
  exact absurd above (String.lt_asymm below)

/-- If no name has two values, it only matters which members are collected. -/
theorem ofList_eq_of_mem_iff
    {left right : List (String × α)}
    (agree : ∀ name value other, (name, value) ∈ left →
      (name, other) ∈ left → other = value)
    (same : ∀ member, member ∈ left ↔ member ∈ right) :
    ofList left = ofList right := by
  have agreeRight : ∀ name value other, (name, value) ∈ right →
      (name, other) ∈ right → other = value := by
    intro name value other
    rw [← same, ← same]
    exact agree name value other
  apply eq_of_perm
  rw [List.perm_ext_iff_of_nodup (.of_map _ (ofList left).nodup_names)
    (.of_map _ (ofList right).nodup_names)]
  intro member
  rw [mem_ofList_iff_of_agree agree, mem_ofList_iff_of_agree agreeRight, same]

/-- With distinct names, members are collected in any order. -/
theorem ofList_eq_of_perm
    {left right : List (String × α)}
    (distinct : (Members.names left).Nodup)
    (perm : left.Perm right) : ofList left = ofList right :=
  ofList_eq_of_mem_iff (Members.agree_of_nodup distinct) fun _ => perm.mem_iff

@[simp] theorem ofList_entries (map : SortedMap α) :
    ofList map.entries = map :=
  eq_of_perm (perm_ofList map.nodup_names)

theorem isEmpty_iff (map : SortedMap α) :
    map.isEmpty = true ↔ map = .empty := by
  rw [isEmpty, List.isEmpty_iff]
  constructor
  · exact fun nothing => ext nothing
  · rintro rfl
    rfl

/-! ## Changed values -/

section Changed

variable {β γ : Type}

@[simp] theorem mapValues_empty (change : α → β) :
    (empty : SortedMap α).mapValues change = empty := rfl

@[simp] theorem mapValues_id :
    mapValues (id : α → α) = id := by
  funext map
  apply ext
  simp

theorem mapValues_mapValues
    (first : α → β)
    (second : β → γ)
    (map : SortedMap α) :
    (map.mapValues first).mapValues second =
      map.mapValues fun value => second (first value) := by
  apply ext
  simp

/-- A changed map binds every name to its changed value. -/
theorem get?_mapValues
    (change : α → β)
    (map : SortedMap α)
    (name : String) :
    (map.mapValues change).get? name = (map.get? name).map change := by
  rw [get?, get?, entries_mapValues]
  induction map.entries with
  | nil => rfl
  | cons entry rest hypothesis =>
      rw [List.map_cons, Members.lookup_cons, Members.lookup_cons, hypothesis]
      split <;> rfl

theorem insertEntry_map
    (change : α → β)
    (name : String)
    (value : α)
    (entries : List (String × α)) :
    insertEntry name (change value)
        (entries.map fun entry => (entry.1, change entry.2)) =
      (insertEntry name value entries).map fun entry =>
        (entry.1, change entry.2) := by
  induction entries with
  | nil => rfl
  | cons head rest hypothesis =>
      simp only [List.map_cons, insertEntry, hypothesis]
      split
      · rfl
      · split <;> rfl

theorem insertAll_mapValues
    (change : α → β)
    (map : SortedMap α)
    (members : List (String × α)) :
    (map.mapValues change).insertAll
        (members.map fun member => (member.1, change member.2)) =
      (map.insertAll members).mapValues change := by
  induction members generalizing map with
  | nil => rfl
  | cons member rest hypothesis =>
      have step : (map.mapValues change).insert member.1 (change member.2) =
          (map.insert member.1 member.2).mapValues change :=
        ext (insertEntry_map change member.1 member.2 map.entries)
      change ((map.mapValues change).insert member.1
        (change member.2)).insertAll _ = _
      rw [step, hypothesis]
      rfl

/-- Values may be changed before or after they are collected. -/
theorem ofList_map (change : α → β) (members : List (String × α)) :
    ofList (members.map fun member => (member.1, change member.2)) =
      (ofList members).mapValues change :=
  insertAll_mapValues change empty members

end Changed

end SortedMap

end TableQuery
