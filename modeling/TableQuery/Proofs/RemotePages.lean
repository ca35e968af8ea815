import TableQuery.Proofs.Bindings
import TableQuery.Proofs.RemoteValues
import TableQuery.Remote

/-!
# Received pages

A page is converted as a whole or not at all. If everything on it is of a kind
that documents have, the answer to a query or a scan holds all its items in
order and its key; otherwise the call fails for the kind of one of its values.
It does not matter how the page was carried, as long as none of its items has a
name twice.
-/

namespace TableQuery

variable {σ α : Type}

/-! ## Names on received pages -/

/-- What holds of a record before its members are read, and is kept by every
field, holds of the record that is read. -/
theorem Body.keeps_of_readMembers
    {fields : Body.Fields α}
    {Keeps : α → Prop}
    (each : ∀ field ∈ fields, ∀ body before after,
      Keeps before → field.2 body before = some after → Keeps after)
    {members : List (List Char × Body)}
    {before after : α}
    (start : Keeps before)
    (read : Body.readMembers? fields members before = some after) :
    Keeps after := by
  induction members generalizing before with
  | nil =>
      cases read
      exact start
  | cons member rest hypothesis =>
      obtain ⟨key, body⟩ := member
      obtain ⟨name, _, next⟩ := Option.bind_eq_some_iff.1 read
      cases known : fields.lookup name with
      | some put =>
          simp only [known] at next
          obtain ⟨middle, isMiddle, later⟩ := Option.bind_eq_some_iff.1 next
          have field := Members.mem_of_lookup known
          exact hypothesis (each _ field body before middle start isMiddle) later
      | none =>
          simp only [known] at next
          split at next
          · exact hypothesis start next
          · cases next

/-- The items of a page and its key, if it has one. -/
def RemotePage.parts (page : RemotePage) : List RemoteItem :=
  page.items ++ page.lastEvaluatedKey.toList

theorem RemotePage.forall_parts_iff
    (page : RemotePage)
    (holds : RemoteItem → Prop) :
    (∀ item ∈ page.parts, holds item) ↔
      (∀ item ∈ page.items, holds item) ∧
        ∀ item ∈ page.lastEvaluatedKey, holds item := by
  simp [parts, or_imp, forall_and]

/-- No item of a page and no key has a name twice. -/
def RemotePage.Distinct (page : RemotePage) : Prop :=
  ∀ item ∈ page.parts, (Members.names item).Nodup

/-- Where a value that may be null is not, it is read as it stands. -/
theorem Body.read_of_nullable
    {read : Body → Option α}
    {body : Body}
    {value : α}
    (found : body.nullable? read = some (some value)) :
    read body = some value := by
  cases body with
  | null => cases found
  | _ =>
      obtain ⟨_, isRead, same⟩ := Option.map_eq_some_iff.1 found
      cases same
      exact isRead

namespace Remote

theorem distinct_of_itemWithin
    {room : Nat}
    {body : Body}
    {item : RemoteItem}
    (read : itemWithin? room body = some item) :
    (Members.names item).Nodup := by
  cases body with
  | object members =>
      cases room with
      | zero => cases read
      | succ room =>
          obtain ⟨values, _, rfl⟩ := Option.map_eq_some_iff.1 read
          exact Members.nodup_names_merge values
  | _ => cases read

theorem distinct_of_items
    {body : Body}
    {items : List RemoteItem}
    (read : items? body = some items) :
    ∀ item ∈ items, (Members.names item).Nodup := by
  cases body with
  | array bodies =>
      rw [items?] at read
      induction bodies generalizing items with
      | nil =>
          cases read
          exact nofun
      | cons body rest hypothesis =>
          rw [List.mapM_cons] at read
          obtain ⟨item, first, next⟩ := Option.bind_eq_some_iff.1 read
          obtain ⟨others, later, same⟩ := Option.bind_eq_some_iff.1 next
          cases same
          exact List.forall_mem_cons.2
            ⟨distinct_of_itemWithin first, hypothesis later⟩
  | _ => cases read

/-- A page is read with distinct names in each of its items and in its key. -/
theorem distinct_of_page
    {body : Body}
    {page : RemotePage}
    (read : page? body = some page) : page.Distinct := by
  cases body with
  | object members =>
      have blank : RemotePage.Distinct ⟨[], 0, 0, none⟩ := nofun
      refine Body.keeps_of_readMembers ?_ blank read
      simp only [pageFields, List.forall_mem_cons, RemotePage.Distinct,
        RemotePage.forall_parts_iff]
      refine ⟨?items, ?count, ?scannedCount, ?key, ?consumed, nofun⟩
      case items =>
        intro body before after ⟨_, key⟩ put
        obtain ⟨items, isItems, same⟩ := Option.bind_eq_some_iff.1 put
        cases same
        refine ⟨?_, key⟩
        cases items with
        | none => exact nofun
        | some items => exact distinct_of_items (Body.read_of_nullable isItems)
      case key =>
        intro body before after ⟨items, _⟩ put
        obtain ⟨key, isKey, same⟩ := Option.bind_eq_some_iff.1 put
        cases same
        refine ⟨items, ?_⟩
        rintro item ⟨⟩
        exact distinct_of_itemWithin (Body.read_of_nullable isKey)
      case count | scannedCount =>
        intro body before after distinct put
        obtain ⟨count, _, same⟩ := Option.bind_eq_some_iff.1 put
        cases same
        exact distinct
      case consumed =>
        intro body before after distinct put
        obtain ⟨_, same⟩ := Option.ite_none_right_eq_some.1 put
        cases same
        exact distinct
  | _ => cases read

/-! ## Items and pages -/

/-- An item has the members of a received one, with sets as lists. -/
def IsItemOf (values : RemoteItem) (item : Item) : Prop :=
  (RemoteValue.ofNamedAttributes item.entries).Perm
    (RemoteValue.listedMembers values)

theorem exists_toItem_iff (values : RemoteItem) :
    (∃ item, toItem values = .ok item) ↔
      (RemoteValue.map values).Supported := by
  rw [← RemoteValue.exists_toAttribute_iff, toItem, RemoteValue.toAttribute]
  cases RemoteValue.toNamedAttributes values <;> simp

theorem refuses_of_toItem
    {values : RemoteItem}
    {error : StoreError}
    (failed : toItem values = .error error) :
    (RemoteValue.map values).Refuses error := by
  rcases bind_eq_error_iff.1 failed with inner | ⟨_, _, impossible⟩
  · obtain ⟨entry, member, refuses⟩ :=
      RemoteValue.refuses_of_toNamedAttributes inner
    exact refuses.map member
  · cases impossible

theorem isItemOf_of_toItem
    {values : RemoteItem}
    {item : Item}
    (distinct : (Members.names values).Nodup)
    (converted : toItem values = .ok item) : IsItemOf values item := by
  obtain ⟨members, inner, same⟩ := bind_eq_ok_iff.1 converted
  cases same
  have sameNames : Members.names members = Members.names values :=
    names_eq_of_forall₂ (fun _ _ => And.left)
      (RemoteValue.toNamedAttributes_eq_ok_iff.1 inner)
  rw [← sameNames] at distinct
  rw [IsItemOf, ← RemoteValue.ofNamedAttributes_of_toNamedAttributes inner,
    RemoteValue.ofNamedAttributes_eq_map, RemoteValue.ofNamedAttributes_eq_map]
  exact (SortedMap.perm_ofList distinct).map _

end Remote

open Remote

namespace RemotePage

/-- Everything on a page is of a kind that documents have. -/
def Supported (page : RemotePage) : Prop :=
  ∀ item ∈ page.parts, (RemoteValue.map item).Supported

/-- A page is refused for the kind of something that occurs on it. -/
def Refuses (page : RemotePage) (error : StoreError) : Prop :=
  ∃ item ∈ page.parts, (RemoteValue.map item).Refuses error

/-- A page holds what was received, item by item. -/
structure Converts (page : RemotePage) (found : Page) : Prop where
  /-- The items are those that were received, in order. -/
  items : List.Forall₂ IsItemOf page.items found.items
  /-- The counts are the same. -/
  counts : found.count = page.count ∧ found.scannedCount = page.scannedCount
  /-- So is the key, which is empty if none was received. -/
  key : IsItemOf (page.lastEvaluatedKey.getD []) found.lastEvaluatedKey

/-- What a call makes of a page that it receives. -/
structure Answers
    (page : RemotePage)
    (result : Except StoreError Page) : Prop where
  /-- There is an answer exactly if everything on the page is supported. -/
  succeeds_iff : (∃ found, result = .ok found) ↔ page.Supported
  /-- The answer holds the whole page. -/
  converts : ∀ found, result = .ok found → page.Converts found
  /-- A failure says the kind of something that occurs on the page. -/
  refuses : ∀ error, result = .error error → page.Refuses error

end RemotePage

namespace Remote

theorem refuses_of_toPage
    {page : RemotePage}
    {error : StoreError}
    (failed : toPage page = .error error) : page.Refuses error := by
  rcases bind_eq_error_iff.1 failed with inItems | ⟨items, _, next⟩
  · obtain ⟨before, item, after, split, _, refused⟩ :=
      mapM_eq_error_iff.1 inItems
    have member : item ∈ page.items := by simp [split]
    exact ⟨item, List.mem_append_left _ member, refuses_of_toItem refused⟩
  · rcases bind_eq_error_iff.1 next with inKey | ⟨_, _, impossible⟩
    · cases isKey : page.lastEvaluatedKey with
      | none =>
          rw [isKey] at inKey
          cases inKey
      | some key =>
          rw [isKey] at inKey
          have member : key ∈ page.parts := by simp [RemotePage.parts, isKey]
          exact ⟨key, member, refuses_of_toItem inKey⟩
    · cases impossible

theorem supported_of_toPage
    {page : RemotePage}
    {found : Page}
    (converted : toPage page = .ok found) : page.Supported := by
  obtain ⟨items, isItems, next⟩ := bind_eq_ok_iff.1 converted
  obtain ⟨key, isKey, _⟩ := bind_eq_ok_iff.1 next
  refine (page.forall_parts_iff _).2 ⟨?_, ?_⟩
  · intro item member
    obtain ⟨result, _, isItem⟩ :=
      exists_mem_right_of_forall₂ (mapM_eq_ok_iff.1 isItems) member
    exact (exists_toItem_iff item).1 ⟨result, isItem⟩
  · intro item received
    rw [Option.mem_def.1 received] at isKey
    exact (exists_toItem_iff item).1 ⟨key, isKey⟩

theorem converts_of_toPage
    {page : RemotePage}
    {found : Page}
    (distinct : page.Distinct)
    (converted : toPage page = .ok found) : page.Converts found := by
  obtain ⟨items, isItems, next⟩ := bind_eq_ok_iff.1 converted
  obtain ⟨key, isKey, same⟩ := bind_eq_ok_iff.1 next
  cases same
  obtain ⟨distinctItems, distinctKey⟩ := (page.forall_parts_iff _).1 distinct
  refine ⟨?_, ⟨rfl, rfl⟩, ?_⟩
  · have each := (List.forall₂_and_left _ _).2
      ⟨distinctItems, mapM_eq_ok_iff.1 isItems⟩
    exact each.imp fun _ _ ⟨distinctItem, isItem⟩ =>
      isItemOf_of_toItem distinctItem isItem
  · cases received : page.lastEvaluatedKey with
    | none =>
        rw [received] at isKey
        cases isKey
        exact .nil
    | some values =>
        rw [received] at isKey
        exact isItemOf_of_toItem (distinctKey values received) isKey

/-- A received page is converted as a whole or refused. -/
theorem answers_toPage
    {page : RemotePage}
    (distinct : page.Distinct) : page.Answers (toPage page) where
  succeeds_iff := by
    constructor
    · rintro ⟨found, converted⟩
      exact supported_of_toPage converted
    · intro supported
      cases converted : toPage page with
      | ok found => exact ⟨found, rfl⟩
      | error error =>
          obtain ⟨item, member, refuses⟩ := refuses_of_toPage converted
          exact absurd (supported item member) refuses.not_supported
  converts := fun _ converted => converts_of_toPage distinct converted
  refuses := fun _ failed => refuses_of_toPage failed

end Remote

/-! ## Calls -/

/-- A call gives what the page that it receives is converted to. -/
theorem Transport.answers_submitForPage
    (transport : Transport σ)
    {request : Request}
    {state : σ}
    {page : RemotePage}
    (distinct : page.Distinct)
    (received : ((transport.page request).run state).1 = .ok page) :
    page.Answers ((transport.submitForPage request).run state).1 := by
  rw [submitForPage, StoreM.run_bind_ofExcept, received, ok_bind]
  exact answers_toPage distinct

/-! ### Over HTTP -/

namespace Exchange

theorem distinct_of_receive
    {reply : HttpReply}
    {apiName : String}
    {page : RemotePage}
    (received : reply.receive apiName page? = .ok page) : page.Distinct := by
  unfold HttpReply.receive at received
  split at received
  · next read =>
      cases received
      obtain ⟨_, body⟩ := Option.ite_none_right_eq_some.1 read
      obtain ⟨_, _, isPage⟩ := Option.bind_eq_some_iff.1 body
      exact distinct_of_page isPage
  · cases received

/-- Pages that are received over HTTP have distinct names. -/
theorem distinct_of_received
    {request : Request}
    {exchange : Exchange}
    {page : RemotePage}
    (received : ((transport.page request).run exchange).1 = .ok page) :
    page.Distinct := by
  change (if Text.isBlankText request.tableName = true then _ else _ :
    Except StoreError RemotePage × Exchange).1 = _ at received
  split at received
  · cases received
  · exact distinct_of_receive received

end Exchange

open RemoteValue

/-- Attribute values survive the way to the service and back. What comes from
the service is converted exactly if it is supported, and then nothing but its
sets is changed; a page that is received is converted as a whole or refused,
whatever carried it. -/
theorem converts_exactly_supported (transport : Transport σ) (state : σ) :
    (∀ value : Attribute, toAttribute (ofAttribute value) = .ok value) ∧
      (∀ value : RemoteValue,
        ((∃ result, toAttribute value = .ok result) ↔ value.Supported) ∧
          ∀ result, toAttribute value = .ok result →
            ofAttribute result = value.listed) ∧
      (∀ (request : QueryRequest) (page : RemotePage), page.Distinct →
        ((transport.page (.query request)).run state).1 = .ok page →
          page.Answers ((transport.store.query request).run state).1) ∧
      ∀ (request : ScanRequest) (page : RemotePage), page.Distinct →
        ((transport.page (.scan request)).run state).1 = .ok page →
          page.Answers ((transport.store.scan request).run state).1 := by
  refine ⟨toAttribute_ofAttribute, fun value => ?_, ?_, ?_⟩
  · exact ⟨exists_toAttribute_iff value, fun _ => ofAttribute_of_toAttribute⟩
  · intro request page distinct received
    exact transport.answers_submitForPage distinct received
  · intro request page distinct received
    exact transport.answers_submitForPage distinct received

/-- A reply with a key and one item, in which a list holds a value. -/
def listReply (value : String) : HttpReply where
  status := 200
  text := "\x7b\"Items\":[\x7b\"tags\":\x7b\"L\":[" ++ value ++ "]\x7d\x7d],"
    ++ "\"LastEvaluatedKey\":\x7b\"id\":\x7b\"S\":\"a\"\x7d\x7d\x7d"

/-- A set in the list is converted, and binary data fails the call. -/
theorem converts_exactly_supported_listReply :
    let query := { (default : QueryRequest) with tableName := "Orders" }
    let scan := { (default : ScanRequest) with tableName := "Orders" }
    let sets : Exchange := ⟨listReply "\x7b\"SS\":[\"c\",\"b\"]\x7d", []⟩
    let binary : Exchange := ⟨listReply "\x7b\"B\":\"AA==\"\x7d", []⟩
    (∃ page found,
        ((Exchange.transport.page (.query query)).run sets).1 = .ok page ∧
        page.Distinct ∧
        ((Exchange.store.query query).run sets).1 = .ok found ∧
        page.Supported ∧ page.Converts found) ∧
      ∃ page error,
        ((Exchange.transport.page (.scan scan)).run binary).1 = .ok page ∧
        page.Distinct ∧
        ((Exchange.store.scan scan).run binary).1 = .error error ∧
        ¬ page.Supported ∧ page.Refuses error ∧
        error = .unsupportedAttribute "B" := by
  intro query scan sets binary
  constructor
  · have isPage : ∃ page,
        ((Exchange.transport.page (.query query)).run sets).1 = .ok page := by
      rw [exists_ok_iff]
      decide +kernel
    have isFound : ∃ found,
        ((Exchange.store.query query).run sets).1 = .ok found := by
      rw [exists_ok_iff]
      decide +kernel
    obtain ⟨page, received⟩ := isPage
    have distinct := Exchange.distinct_of_received received
    obtain ⟨_, _, queries, _⟩ :=
      converts_exactly_supported Exchange.transport sets
    have answers := queries query page distinct received
    have supported := answers.succeeds_iff.1 isFound
    obtain ⟨found, succeeded⟩ := isFound
    exact ⟨page, found, received, distinct, succeeded, supported,
      answers.converts found succeeded⟩
  · have isPage : ∃ page,
        ((Exchange.transport.page (.scan scan)).run binary).1 = .ok page := by
      rw [exists_ok_iff]
      decide +kernel
    have failed : ((Exchange.store.scan scan).run binary).1 =
        .error (.unsupportedAttribute "B") := by
      decide +kernel
    obtain ⟨page, received⟩ := isPage
    have distinct := Exchange.distinct_of_received received
    obtain ⟨_, _, _, scans⟩ :=
      converts_exactly_supported Exchange.transport binary
    have answers := scans scan page distinct received
    refine ⟨page, _, received, distinct, failed, ?_, answers.refuses _ failed,
      rfl⟩
    intro supported
    obtain ⟨found, succeeded⟩ := answers.succeeds_iff.2 supported
    cases failed.symm.trans succeeded

end TableQuery
