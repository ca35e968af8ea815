import TableQuery.FieldMap

/-!
# Maps in code point order

A sorted map lists its names in increasing code point order, whatever the
order of insertion. Substitution maps, item keys and wire items are of this
kind: two of them with the same bindings are equal.
-/

namespace TableQuery

variable {α β : Type}

namespace SortedMap

/-- Names increase strictly along the list. -/
abbrev Increasing (entries : List (String × α)) : Prop :=
  entries.Pairwise fun left right => left.1 < right.1

/-- Bind a name in an increasing list. -/
def insertEntry (name : String) (value : α) :
    List (String × α) → List (String × α)
  | [] => [(name, value)]
  | (key, old) :: rest =>
      if name < key then (name, value) :: (key, old) :: rest
      else if name = key then (name, value) :: rest
      else (key, old) :: insertEntry name value rest

theorem mem_insertEntry
    {name : String}
    {value : α}
    {entries : List (String × α)}
    {entry : String × α}
    (member : entry ∈ insertEntry name value entries) :
    entry = (name, value) ∨ entry ∈ entries := by
  induction entries with
  | nil => simpa [insertEntry] using member
  | cons head rest hypothesis =>
      obtain ⟨key, old⟩ := head
      simp only [insertEntry] at member
      split at member
      · simpa using member
      · split at member
        · rcases List.mem_cons.1 member with equal | present
          · exact .inl equal
          · exact .inr (List.mem_cons_of_mem _ present)
        · rcases List.mem_cons.1 member with equal | present
          · exact .inr (equal ▸ List.mem_cons_self)
          · rcases hypothesis present with equal | old
            · exact .inl equal
            · exact .inr (List.mem_cons_of_mem _ old)

theorem increasing_insertEntry
    (name : String)
    (value : α)
    {entries : List (String × α)}
    (increasing : Increasing entries) :
    Increasing (insertEntry name value entries) := by
  induction entries with
  | nil => simp [insertEntry]
  | cons head rest hypothesis =>
      obtain ⟨key, old⟩ := head
      have rests := List.pairwise_cons.1 increasing
      simp only [insertEntry]
      split
      · next below =>
          refine List.pairwise_cons.2 ⟨?_, increasing⟩
          intro entry member
          rcases List.mem_cons.1 member with equal | present
          · simpa [equal] using below
          · exact String.lt_trans below (rests.1 entry present)
      · next notBelow =>
          split
          · next same =>
              subst same
              exact List.pairwise_cons.2 ⟨rests.1, rests.2⟩
          · next different =>
              refine List.pairwise_cons.2 ⟨?_, hypothesis rests.2⟩
              intro entry member
              rcases mem_insertEntry member with equal | present
              · subst equal
                apply Decidable.byContradiction
                intro notAbove
                exact different (String.le_antisymm notAbove notBelow)
              · exact rests.1 entry present

/-- Inserting changes what is bound to the inserted name and to no other. -/
theorem lookup_insertEntry
    (name query : String)
    (value : α)
    (entries : List (String × α)) :
    (insertEntry name value entries).lookup query =
      if query = name then some value else entries.lookup query := by
  induction entries with
  | nil => exact Members.lookup_cons query name value []
  | cons head rest hypothesis =>
      obtain ⟨key, old⟩ := head
      simp only [insertEntry]
      split
      · exact Members.lookup_cons query name value ((key, old) :: rest)
      · split
        · next same =>
            subst same
            rw [Members.lookup_cons, Members.lookup_cons]
            split <;> rfl
        · next different =>
            rw [Members.lookup_cons, Members.lookup_cons, hypothesis]
            by_cases asked : query = key
            · have other : ¬ query = name := fun equal =>
                different (equal.symm.trans asked)
              simp [asked, asked ▸ other]
            · simp [asked]

end SortedMap

/-- A map from names to values in code point order of the names. -/
structure SortedMap (α : Type) where
  /-- The named values in order. -/
  entries : List (String × α)
  /-- Each name is below the names that follow it. -/
  increasing : SortedMap.Increasing entries
  deriving DecidableEq

namespace SortedMap

@[ext] theorem ext
    {left right : SortedMap α}
    (entries : left.entries = right.entries) :
    left = right := by
  cases left
  cases right
  cases entries
  rfl

/-- The map without names. -/
def empty : SortedMap α := ⟨[], .nil⟩

instance : Inhabited (SortedMap α) := ⟨empty⟩

@[simp] theorem entries_empty : (empty : SortedMap α).entries = [] := rfl

/-- Bind a name, replacing a value it already has. -/
def insert (map : SortedMap α) (name : String) (value : α) : SortedMap α :=
  ⟨insertEntry name value map.entries,
    increasing_insertEntry name value map.increasing⟩

/-- Insert the given members one after the other. -/
def insertAll (map : SortedMap α) (members : List (String × α)) :
    SortedMap α :=
  members.foldl (fun kept member => kept.insert member.1 member.2) map

/-- Collect named values; the last value of a repeated name wins. -/
def ofList (members : List (String × α)) : SortedMap α :=
  empty.insertAll members

/-- The value bound to a name. -/
def get? (map : SortedMap α) (name : String) : Option α :=
  map.entries.lookup name

@[simp] theorem get?_empty (name : String) :
    (empty : SortedMap α).get? name = none := rfl

theorem get?_insert
    (map : SortedMap α)
    (name query : String)
    (value : α) :
    (map.insert name value).get? query =
      if query = name then some value else map.get? query :=
  lookup_insertEntry name query value map.entries

/-- Whether a name is bound. -/
def contains (map : SortedMap α) (name : String) : Bool :=
  (map.get? name).isSome

/-- The names in code point order. -/
def keys (map : SortedMap α) : List String :=
  map.entries.map Prod.fst

/-- Whether there is no name. -/
def isEmpty (map : SortedMap α) : Bool :=
  map.entries.isEmpty

/-- Change every value and keep the names. -/
def mapValues (change : α → β) (map : SortedMap α) : SortedMap β :=
  ⟨map.entries.map fun entry => (entry.1, change entry.2),
    List.pairwise_map.2 map.increasing⟩

@[simp] theorem entries_mapValues (change : α → β) (map : SortedMap α) :
    (map.mapValues change).entries =
      map.entries.map fun entry => (entry.1, change entry.2) := rfl

end SortedMap

end TableQuery
