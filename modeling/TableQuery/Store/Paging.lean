import TableQuery.Store

/-!
# Stores that serve pages

A paging store keeps every request that reaches it, in order. It answers the
queries and scans among them with pages that were laid ready, one after the
other, and with empty pages once there are no more.
-/

namespace TableQuery

/-- The state of a paging store. -/
structure Paging where
  /-- The pages that are left to serve. -/
  pages : List Page
  /-- The requests so far, in order. -/
  requests : List Request
  deriving DecidableEq, Inhabited

namespace Paging

/-- The state before any request. -/
def start (pages : List Page) : Paging := ⟨pages, []⟩

/-- Record a request and answer it with the next page. -/
def serve (request : Request) : StoreM Paging Page :=
  ExceptT.mk fun paging =>
    match paging.pages with
    | [] => (.ok .empty, ⟨[], paging.requests ++ [request]⟩)
    | page :: rest => (.ok page, ⟨rest, paging.requests ++ [request]⟩)

/-- Record a request that changes an item. -/
def accept (request : Request) : StoreM Paging Written :=
  ExceptT.mk fun paging =>
    (.ok .empty, { paging with requests := paging.requests ++ [request] })

/-- The store that serves pages. -/
def store : Store Paging where
  query body := serve (.query body)
  scan body := serve (.scan body)
  update body := accept (.update body)
  put body := accept (.put body)

end Paging

/-! ## All pages -/

namespace Client

variable {σ : Type}

/-- Query or scan, whichever conditions were written for. -/
def fetch (client : Client σ) (conditions : Conditions) : StoreM σ Page :=
  if conditions.operation = some .query then client.query conditions
  else client.scan conditions

/-- Fetching one page after the other, from the given conditions and state on:
each time the conditions go on behind the key of the last page, until a page has
none. This gives the documents of all pages and the state at the end. -/
inductive FetchesAll (client : Client σ) :
    Conditions → σ → List Json → σ → Prop
  /-- The last page. -/
  | last
      {conditions : Conditions} {state next : σ} {page : Page}
      (fetched : (client.fetch conditions).run state = (.ok page, next))
      (noKey : page.nextKey? = none) :
      FetchesAll client conditions state page.documents next
  /-- A page with a key, and those behind it. -/
  | more
      {conditions : Conditions} {state next final : σ} {page : Page}
      {key : FieldMap Json} {documents : List Json}
      (fetched : (client.fetch conditions).run state = (.ok page, next))
      (goOn : page.nextKey? = some key)
      (others : FetchesAll client (conditions.withLastEvaluatedKey key) next
        documents final) :
      FetchesAll client conditions state (page.documents ++ documents) final

end Client

end TableQuery
