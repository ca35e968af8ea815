/-!
# Insertion-ordered maps

A field map keeps its names in the order in which they were first inserted;
inserting a name again replaces its value in place. Clause order in compiled
expressions is the order of such a map, so the order belongs to the type.

The list operations come first, because JSON objects carry the same lists of
named values without the invariant.
-/

namespace TableQuery

variable {α β : Type}

namespace Members

/-- Bind a name: replace its value where it stands, or append it at the end. -/
def insert (name : String) (value : α) : List (String × α) → List (String × α)
  | [] => [(name, value)]
  | (key, old) :: rest =>
      if key = name then (key, value) :: rest
      else (key, old) :: insert name value rest

@[simp] theorem insert_nil (name : String) (value : α) :
    insert name value [] = [(name, value)] := rfl

@[simp] theorem insert_cons
    (name key : String)
    (value old : α)
    (rest : List (String × α)) :
    insert name value ((key, old) :: rest) =
      if key = name then (key, value) :: rest
      else (key, old) :: insert name value rest := rfl

/-- The names of a list of members, in order. -/
abbrev names (members : List (String × α)) : List String :=
  members.map Prod.fst

theorem names_insert
    (name : String)
    (value : α)
    (members : List (String × α)) :
    names (insert name value members) =
      if name ∈ names members then names members
      else names members ++ [name] := by
  induction members with
  | nil => simp
  | cons member rest hypothesis =>
      obtain ⟨key, old⟩ := member
      by_cases same : key = name
      · simp [same]
      · have different : ¬ name = key := fun equal => same equal.symm
        simp only [insert_cons, same, ↓reduceIte, names, List.map_cons,
          List.mem_cons, different, false_or]
        simp only [names] at hypothesis
        rw [hypothesis]
        split <;> simp

theorem nodup_names_insert
    (name : String)
    (value : α)
    {members : List (String × α)}
    (distinct : (names members).Nodup) :
    (names (insert name value members)).Nodup := by
  rw [names_insert]
  split
  · exact distinct
  · next absent =>
      rw [List.nodup_append]
      refine ⟨distinct, by simp, ?_⟩
      intro left leftMember right rightMember equal
      simp only [List.mem_singleton] at rightMember
      exact absent (rightMember ▸ equal ▸ leftMember)

theorem lookup_cons
    (name key : String)
    (value : α)
    (rest : List (String × α)) :
    ((key, value) :: rest).lookup name =
      if name = key then some value else rest.lookup name := by
  by_cases same : name = key
  · simp [same]
  · have different : (name == key) = false := by simpa using same
    simp [List.lookup_cons, same, different]

/-- Inserting changes what is bound to the inserted name and to no other. -/
theorem lookup_insert
    (name query : String)
    (value : α)
    (members : List (String × α)) :
    (insert name value members).lookup query =
      if query = name then some value else members.lookup query := by
  induction members with
  | nil => rw [insert_nil, lookup_cons]
  | cons member rest hypothesis =>
      obtain ⟨key, old⟩ := member
      rw [insert_cons]
      split
      · next same =>
          subst same
          rw [lookup_cons, lookup_cons]
          split <;> rfl
      · next different =>
          rw [lookup_cons, lookup_cons, hypothesis]
          by_cases asked : query = key
          · have other : ¬ query = name := fun equal => different (asked ▸ equal)
            simp [asked, asked ▸ other]
          · simp [asked]

/-- Nothing but the inserted member is new. -/
theorem mem_insert
    {name : String}
    {value : α}
    {members : List (String × α)}
    {member : String × α}
    (present : member ∈ insert name value members) :
    member = (name, value) ∨ member ∈ members := by
  induction members with
  | nil => exact .inl (List.mem_singleton.1 present)
  | cons head rest hypothesis =>
      obtain ⟨key, old⟩ := head
      rw [insert_cons] at present
      split at present
      · next same =>
          rcases List.mem_cons.1 present with rfl | later
          · exact .inl (by rw [same])
          · exact .inr (List.mem_cons_of_mem _ later)
      · rcases List.mem_cons.1 present with rfl | later
        · exact .inr List.mem_cons_self
        · exact (hypothesis later).imp_right (List.mem_cons_of_mem _)

/-- Insert the given members one after the other. -/
def insertAll (members additions : List (String × α)) : List (String × α) :=
  additions.foldl (fun kept member => insert member.1 member.2 kept) members

@[simp] theorem insertAll_nil (members : List (String × α)) :
    insertAll members [] = members := rfl

@[simp] theorem insertAll_cons
    (members : List (String × α))
    (member : String × α)
    (additions : List (String × α)) :
    insertAll members (member :: additions) =
      insertAll (insert member.1 member.2 members) additions := rfl

theorem nodup_names_insertAll
    {members : List (String × α)}
    (distinct : (names members).Nodup)
    (additions : List (String × α)) :
    (names (insertAll members additions)).Nodup := by
  induction additions generalizing members with
  | nil => exact distinct
  | cons member rest hypothesis =>
      exact hypothesis (nodup_names_insert member.1 member.2 distinct)

theorem insert_of_not_mem
    {name : String}
    (value : α)
    {members : List (String × α)}
    (absent : name ∉ names members) :
    insert name value members = members ++ [(name, value)] := by
  induction members with
  | nil => rfl
  | cons member rest hypothesis =>
      obtain ⟨key, old⟩ := member
      simp only [names, List.map_cons, List.mem_cons, not_or] at absent
      have different : ¬ key = name := fun equal => absent.1 equal.symm
      simp [different, hypothesis absent.2]

/-- Members with distinct names are kept as they are. -/
theorem insertAll_append
    (members additions : List (String × α))
    (distinct : (names (members ++ additions)).Nodup) :
    insertAll members additions = members ++ additions := by
  induction additions generalizing members with
  | nil => simp
  | cons member rest hypothesis =>
      obtain ⟨name, value⟩ := member
      have absent : name ∉ names members := by
        simp only [names, List.map_append, List.map_cons] at distinct
        rw [List.nodup_append] at distinct
        intro present
        exact distinct.2.2 name present name (by simp) rfl
      rw [insertAll_cons, insert_of_not_mem value absent, hypothesis] <;>
        simp_all

/-- Keep one member for each name: the last value in the first place. -/
def merge (members : List (String × α)) : List (String × α) :=
  insertAll [] members

/-- Nothing is kept that is not among the members. -/
theorem mem_merge
    {members : List (String × α)}
    {member : String × α}
    (present : member ∈ merge members) :
    member ∈ members := by
  have kept : ∀ earlier : List (String × α),
      member ∈ insertAll earlier members →
        member ∈ earlier ∨ member ∈ members := by
    clear present
    induction members with
    | nil => exact fun earlier present => .inl present
    | cons head rest hypothesis =>
        intro earlier present
        rcases hypothesis _ present with before | after
        · rcases mem_insert before with rfl | before
          · exact .inr List.mem_cons_self
          · exact .inl before
        · exact .inr (List.mem_cons_of_mem _ after)
  simpa using kept [] present

theorem nodup_names_merge (members : List (String × α)) :
    (names (merge members)).Nodup :=
  nodup_names_insertAll (by simp) members

theorem merge_of_nodup
    {members : List (String × α)}
    (distinct : (names members).Nodup) :
    merge members = members := by
  simpa [merge] using insertAll_append [] members (by simpa using distinct)

end Members

/-- A map from names to values that remembers the order of first insertion. -/
structure FieldMap (α : Type) where
  /-- The named values in order. -/
  entries : List (String × α)
  /-- No name occurs twice. -/
  distinct : (Members.names entries).Nodup
  deriving DecidableEq

namespace FieldMap

@[ext] theorem ext
    {left right : FieldMap α}
    (entries : left.entries = right.entries) :
    left = right := by
  cases left
  cases right
  cases entries
  rfl

/-- The map without names. -/
def empty : FieldMap α := ⟨[], by simp⟩

instance : Inhabited (FieldMap α) := ⟨empty⟩

@[simp] theorem entries_empty : (empty : FieldMap α).entries = [] := rfl

/-- Bind a name, in place if it is already present. -/
def insert (map : FieldMap α) (name : String) (value : α) : FieldMap α :=
  ⟨Members.insert name value map.entries,
    Members.nodup_names_insert name value map.distinct⟩

@[simp] theorem entries_insert
    (map : FieldMap α)
    (name : String)
    (value : α) :
    (map.insert name value).entries =
      Members.insert name value map.entries := rfl

/-- Collect named values; the last value of a repeated name wins. -/
def ofList (members : List (String × α)) : FieldMap α :=
  ⟨Members.merge members, Members.nodup_names_merge members⟩

@[simp] theorem entries_ofList (members : List (String × α)) :
    (ofList members).entries = Members.merge members := rfl

@[simp] theorem ofList_entries (map : FieldMap α) :
    ofList map.entries = map :=
  ext (Members.merge_of_nodup map.distinct)

/-- The value bound to a name. -/
def get? (map : FieldMap α) (name : String) : Option α :=
  map.entries.lookup name

@[simp] theorem get?_empty (name : String) :
    (empty : FieldMap α).get? name = none := rfl

theorem get?_insert
    (map : FieldMap α)
    (name query : String)
    (value : α) :
    (map.insert name value).get? query =
      if query = name then some value else map.get? query :=
  Members.lookup_insert name query value map.entries

/-- Whether a name is bound. -/
def contains (map : FieldMap α) (name : String) : Bool :=
  (map.get? name).isSome

/-- The names in order of first insertion. -/
def keys (map : FieldMap α) : List String :=
  Members.names map.entries

theorem keys_insert (map : FieldMap α) (name : String) (value : α) :
    (map.insert name value).keys =
      if name ∈ map.keys then map.keys else map.keys ++ [name] :=
  Members.names_insert name value map.entries

/-- Change every value and keep the names. -/
def mapValues (change : α → β) (map : FieldMap α) : FieldMap β :=
  ⟨map.entries.map fun entry => (entry.1, change entry.2), by
    rw [Members.names, List.map_map]
    exact map.distinct⟩

@[simp] theorem entries_mapValues (change : α → β) (map : FieldMap α) :
    (map.mapValues change).entries =
      map.entries.map fun entry => (entry.1, change entry.2) := rfl

theorem mapValues_eq_self
    {change : α → α}
    {map : FieldMap α}
    (same : ∀ entry ∈ map.entries, change entry.2 = entry.2) :
    map.mapValues change = map := by
  refine ext (Eq.trans (List.map_congr_left ?_) (List.map_id' map.entries))
  intro entry member
  rw [same entry member]

/-- The number of names. -/
def size (map : FieldMap α) : Nat :=
  map.entries.length

/-- Whether there is no name. -/
def isEmpty (map : FieldMap α) : Bool :=
  map.entries.isEmpty

end FieldMap

end TableQuery
