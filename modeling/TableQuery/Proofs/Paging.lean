import TableQuery.Proofs.Assembly
import TableQuery.Proofs.Marshalling
import TableQuery.Store.Paging

/-!
# Fetching page after page

Conditions that go on behind a key compile to the same expression but for the
key. A key of strings and integers comes back unchanged from the documents that
it is passed on as. Fetching all pages therefore sends one request for each page,
all of them alike but for the key, which is that of the page before.
-/

namespace TableQuery

/-! ## Keys that are passed on -/

/-- A value that keys are made of: a string or an integer. -/
inductive Attribute.IsKeyValue : Attribute → Prop
  | string (value : String) : IsKeyValue (.string value)
  | integer (value : Int) (held : Number.Held value) :
      IsKeyValue (.number (Number.intText value))

/-- A value of a key is read back from its document. -/
theorem Attribute.IsKeyValue.ofDocument_toDocument
    {value : Attribute}
    (isKeyValue : value.IsKeyValue) :
    ofDocument (toDocument value) = value := by
  cases isKeyValue with
  | string value => rfl
  | integer value held =>
      rw [toDocument, Json.number?_intText value held]
      rfl

theorem Item.ofValues_toValues
    {item : Item}
    (areKeyValues : ∀ entry ∈ item.entries, entry.2.IsKeyValue) :
    ofValues item.toValues = item := by
  apply SortedMap.ext
  rw [ofValues, toValues, SortedMap.entries_mapValues,
    SortedMap.entries_mapValues, List.map_map]
  refine (List.map_congr_left ?_).trans (List.map_id _)
  intro entry member
  exact Prod.ext rfl (areKeyValues entry member).ofDocument_toDocument

/-! ## Conditions that go on -/

/-- Going on behind a key changes the key of the expression only. -/
theorem compile_withLastEvaluatedKey
    {conditions : Conditions}
    {config : Config}
    {expression : Expression}
    (reads : conditions.operation ≠ some .update)
    (compiled : compile conditions config = .ok expression)
    (key : FieldMap Json) :
    compile (conditions.withLastEvaluatedKey key) config =
      .ok { expression with startKey := .ofList key.entries } := by
  rw [compile_eq_ok_iff] at compiled ⊢
  cases compiled with
  | scan found operation admissible projectable =>
      have goOn : (conditions.withLastEvaluatedKey key).target = .ok _ := found
      exact .scan goOn operation admissible projectable
  | query found operation admissible single projectable =>
      have goOn : (conditions.withLastEvaluatedKey key).target = .ok _ := found
      exact .query goOn operation admissible single projectable
  | update found operation _ _ _ _ =>
      exact absurd (Conditions.operation_of_target found operation) reads

namespace Request

/-- The same query or scan, behind a key. -/
def behind (key : Item) : Request → Request
  | query body => query { body with startKey := key }
  | scan body => scan { body with startKey := key }
  | request => request

theorem behind_behind (first second : Item) (request : Request) :
    (request.behind first).behind second = request.behind second := by
  cases request <;> rfl

theorem ofExpression_behind
    {operation : Operation}
    (reads : operation ≠ .update)
    (expression : Expression)
    (key : SortedMap Json) :
    ofExpression operation { expression with startKey := key } =
      (ofExpression operation expression).behind (.ofValues key) := by
  cases operation with
  | query => rfl
  | scan => rfl
  | update => exact absurd rfl reads

end Request

/-! ## Pages in a row -/

namespace Page

theorem nextKey?_eq_none
    {page : Page}
    (noKey : page.lastEvaluatedKey = .empty) : page.nextKey? = none := by
  rw [nextKey?, if_pos ((SortedMap.isEmpty_iff _).2 noKey)]

theorem nextKey?_eq_some
    {page : Page}
    (hasKey : page.lastEvaluatedKey ≠ .empty) :
    ∃ key, page.nextKey? = some key ∧
      SortedMap.ofList key.entries = page.lastEvaluatedKey.toValues := by
  have notEmpty : ¬ page.lastEvaluatedKey.isEmpty = true :=
    fun empty => hasKey ((SortedMap.isEmpty_iff _).1 empty)
  refine ⟨_, by rw [nextKey?, if_neg notEmpty], ?_⟩
  rw [FieldMap.entries_ofList, Members.merge_of_nodup
    page.lastEvaluatedKey.toValues.nodup_names, SortedMap.ofList_entries]

/-- Pages of which all but the last have a key behind them, made of strings and
integers. -/
inductive Chained : List Page → Prop
  | last {page : Page}
      (noKey : page.lastEvaluatedKey = .empty) :
      Chained [page]
  | more {page : Page} {pages : List Page}
      (hasKey : page.lastEvaluatedKey ≠ .empty)
      (areKeyValues : ∀ entry ∈ page.lastEvaluatedKey.entries,
        entry.2.IsKeyValue)
      (others : Chained pages) :
      Chained (page :: pages)

theorem Chained.ne_nil {pages : List Page} (chained : Chained pages) :
    pages ≠ [] := by
  cases chained <;> simp

end Page

namespace Paging

/-- The requests for pages: the first one, and for each page with a key the same
one behind that key. -/
def requestsFor (first : Request) (pages : List Page) : List Request :=
  first :: pages.dropLast.map fun page => first.behind page.lastEvaluatedKey

theorem requestsFor_cons
    (first : Request)
    (page : Page)
    {pages : List Page}
    (nonempty : pages ≠ []) :
    requestsFor first (page :: pages) =
      first :: requestsFor (first.behind page.lastEvaluatedKey) pages := by
  simp [requestsFor, List.dropLast_cons_of_ne_nil nonempty,
    Request.behind_behind]

end Paging

/-! ## One page -/

section Fetch

variable {config : Config} {conditions : Conditions} {expression : Expression}
  {operation : Operation}

/-- Conditions that compile are answered with the next page. -/
theorem fetch_run
    (isOperation : conditions.operation = some operation)
    (reads : operation ≠ .update)
    (compiled : compile conditions config = .ok expression)
    (page : Page)
    (pages : List Page)
    (requests : List Request) :
    ((Client.mk Paging.store config).fetch conditions).run
        ⟨page :: pages, requests⟩ =
      (.ok page,
        ⟨pages, requests ++ [.ofExpression operation expression]⟩) := by
  cases operation with
  | query =>
      simp only [Client.fetch, isOperation, if_pos, Client.query,
        Client.compileFor, compiled]
      rfl
  | scan =>
      simp only [Client.fetch, isOperation, Client.scan, Client.compileFor,
        compiled]
      rfl
  | update => exact absurd rfl reads

/-- What follows the page that is fetched first. -/
theorem Client.fetchesAll_iff_of_fetch
    {σ : Type}
    {client : Client σ}
    {state next : σ}
    {page : Page}
    (fetched : (client.fetch conditions).run state = (.ok page, next))
    (documents : List Json)
    (final : σ) :
    client.FetchesAll conditions state documents final ↔
      match page.nextKey? with
      | none => documents = page.documents ∧ final = next
      | some key => ∃ others, documents = page.documents ++ others ∧
          client.FetchesAll (conditions.withLastEvaluatedKey key) next others
            final := by
  constructor
  · intro fetches
    cases fetches with
    | last again noKey =>
        cases fetched.symm.trans again
        rw [noKey]
        exact ⟨rfl, rfl⟩
    | more again goOn others =>
        cases fetched.symm.trans again
        rw [goOn]
        exact ⟨_, rfl, others⟩
  · intro follows
    cases found : page.nextKey? with
    | none =>
        rw [found] at follows
        obtain ⟨rfl, rfl⟩ := follows
        exact .last fetched found
    | some key =>
        rw [found] at follows
        obtain ⟨others, rfl, fetches⟩ := follows
        exact .more fetched found fetches

end Fetch

/-! ## All pages -/

/-- Fetching goes through all pages, whatever was requested before. -/
theorem fetchesAll_iff
    {config : Config}
    {operation : Operation}
    (reads : operation ≠ .update)
    {pages : List Page}
    (chained : Page.Chained pages)
    {conditions : Conditions}
    {expression : Expression}
    (isOperation : conditions.operation = some operation)
    (compiled : compile conditions config = .ok expression)
    (requests : List Request)
    (documents : List Json)
    (final : Paging) :
    (Client.mk Paging.store config).FetchesAll conditions ⟨pages, requests⟩
        documents final ↔
      documents = pages.flatMap Page.documents ∧
        final = ⟨[], requests ++ Paging.requestsFor
          (.ofExpression operation expression) pages⟩ := by
  induction chained generalizing conditions expression requests documents with
  | @last page noKey =>
      rw [Client.fetchesAll_iff_of_fetch
        (fetch_run isOperation reads compiled page [] requests),
        Page.nextKey?_eq_none noKey]
      simp [Paging.requestsFor]
  | @more page pages hasKey areKeyValues chained hypothesis =>
      obtain ⟨key, goOn, keyValues⟩ := Page.nextKey?_eq_some hasKey
      have notUpdate : conditions.operation ≠ some .update := by
        rw [isOperation]
        simpa using reads
      have sameOperation : (conditions.withLastEvaluatedKey key).operation =
          some operation := isOperation
      have others := hypothesis sameOperation
        (compile_withLastEvaluatedKey notUpdate compiled key)
      have nextRequest : Request.ofExpression operation
          { expression with startKey := .ofList key.entries } =
            (Request.ofExpression operation expression).behind
              page.lastEvaluatedKey := by
        rw [Request.ofExpression_behind reads, keyValues,
          Item.ofValues_toValues areKeyValues]
      rw [Client.fetchesAll_iff_of_fetch
        (fetch_run isOperation reads compiled page pages requests), goOn]
      simp only [others, nextRequest, List.flatMap_cons, List.append_assoc,
        Paging.requestsFor_cons _ _ chained.ne_nil, List.singleton_append]
      constructor
      · rintro ⟨_, rfl, rfl, rfl⟩
        exact ⟨rfl, rfl⟩
      · rintro ⟨rfl, rfl⟩
        exact ⟨_, rfl, rfl, rfl⟩

/-- Pages are fetched completely: the documents and the state at the end, given
the first request. -/
structure Paging.Completes
    (pages : List Page)
    (first : Request)
    (documents : List Json)
    (final : Paging) : Prop where
  /-- No page is left. -/
  served : final.pages = []
  /-- There is one request for each page. -/
  count : final.requests.length = pages.length
  /-- All requests are the first one but for the key, which is that of the page
  before. -/
  requests : final.requests =
    first :: pages.dropLast.map fun page => first.behind page.lastEvaluatedKey
  /-- The documents are those of all items in order. -/
  documents : documents = (pages.flatMap Page.items).map Item.toDocument

/-- Fetching page after page ends, and it fetches all pages completely. -/
theorem fetchesAll_iff_completes
    {conditions : Conditions}
    {config : Config}
    {expression : Expression}
    {operation : Operation}
    (isOperation : conditions.operation = some operation)
    (reads : operation = .scan ∨ operation = .query)
    (compiled : compile conditions config = .ok expression)
    {pages : List Page}
    (chained : Page.Chained pages)
    (documents : List Json)
    (final : Paging) :
    (Client.mk Paging.store config).FetchesAll conditions (.start pages)
        documents final ↔
      Paging.Completes pages (.ofExpression operation expression) documents
        final := by
  have notUpdate : operation ≠ .update := by
    rintro rfl
    rcases reads with reads | reads <;> cases reads
  have allDocuments : pages.flatMap Page.documents =
      (pages.flatMap Page.items).map Item.toDocument := by
    rw [List.map_flatMap]
    rfl
  rw [Paging.start,
    fetchesAll_iff notUpdate chained isOperation compiled [] documents final,
    allDocuments, List.nil_append]
  constructor
  · rintro ⟨rfl, rfl⟩
    have positive := List.length_pos_iff.2 chained.ne_nil
    exact {
      served := rfl
      count := by simp [Paging.requestsFor]; omega
      requests := rfl
      documents := rfl }
  · rintro ⟨served, _, requests, rfl⟩
    exact ⟨rfl, by cases final; cases served; cases requests; rfl⟩

/-- A scan with a filter. -/
def filteredScan : Conditions :=
  Conditions.start "Spaces" .scan
    |>.withCriterion "owner" (.plain (.string "u1"))

/-- Two pages; the key behind the first one has a string and an integer. -/
def twoPages : List Page :=
  [⟨[.ofMembers [("id", .string "s1")], .ofMembers [("id", .string "s2")]], 2, 4,
      .ofList [("id", .string "s2"), ("at", .number "-3")]⟩,
    ⟨[.ofMembers [("id", .string "s3")]], 1, 1, .empty⟩]

theorem chained_twoPages : Page.Chained twoPages := by
  have key : (SortedMap.ofList [("id", Attribute.string "s2"),
      ("at", .number "-3")]).entries =
        [("at", .number (Number.intText (-3))), ("id", .string "s2")] := by
    decide +kernel
  refine .more (by decide +kernel) ?_ (.last rfl)
  intro entry member
  change entry ∈ (SortedMap.ofList _).entries at member
  rw [key] at member
  rcases List.mem_cons.1 member with rfl | member
  · exact .integer (-3) (by decide)
  · rw [List.mem_singleton.1 member]
    exact .string "s2"

theorem fetchesAll_iff_completes_twoPages :
    ∃ expression, compile filteredScan .default = .ok expression ∧
      Page.Chained twoPages ∧
      ∃ documents final,
        (Client.mk Paging.store .default).FetchesAll filteredScan
          (.start twoPages) documents final ∧
        documents = ["s1", "s2", "s3"].map fun id =>
          .object [("id", .string id)] := by
  have compiles : ∃ expression, compile filteredScan .default =
      .ok expression := by
    rw [exists_ok_iff]
    decide +kernel
  obtain ⟨expression, compiled⟩ := compiles
  have completes : Paging.Completes twoPages
      (.ofExpression .scan expression)
      (["s1", "s2", "s3"].map fun id => .object [("id", .string id)])
      ⟨[], Paging.requestsFor (.ofExpression .scan expression) twoPages⟩ :=
    ⟨rfl, rfl, rfl, by decide +kernel⟩
  exact ⟨expression, compiled, chained_twoPages, _, _,
    (fetchesAll_iff_completes rfl (.inl rfl) compiled chained_twoPages _ _).2
      completes, rfl⟩

end TableQuery
