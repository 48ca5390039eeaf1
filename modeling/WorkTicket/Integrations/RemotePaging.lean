import WorkTicket.Foundation.Json
import WorkTicket.Foundation.Loops

/-! How the connectors read long lists from remote services: Jobber by cursors, QuickBooks in one
query, Housecall Pro by page numbers. A reply that is missing is one that raises. -/

namespace WorkTicket.Integrations.RemotePaging

open WorkTicket.Loops

/-! ## Jobber -/

namespace Jobber

/-- `_post`, with what the server answers. -/
def post (reply : Option Json) : Option Json :=
  match reply with
  | some (.obj fields) =>
    if (fields.lookup "errors").isSome then none else (Json.obj fields).get "data" (.obj [])
  | _ => none

def descend (connection : Json) (key : String) : Json :=
  (connection.get key (.obj [])).getD (.obj [])

/-- The nodes of a page, and the cursor of the next one if there is one. -/
def readPage (keys : List String) (data : Json) : Option (List Json × Option Json) := do
  let connection := keys.foldl descend data
  let nodes ← connection.get "nodes" (.arr [])
  let pageInfo ← connection.get "pageInfo" (.obj [])
  let nodes ← nodes.elements
  let hasNext ← pageInfo.get "hasNextPage" (.bool false)
  if hasNext.truthy then
    let endCursor ← pageInfo.get "endCursor" .null
    some (nodes, some endCursor)
  else some (nodes, none)

def page (resultPath : String) (reply : Option Json) : Option (List Json × Option Json) :=
  (post reply).bind (readPage (resultPath.splitOn "."))

/-- `variables["after"]`, which is not there at first, the cursors of the requests so far, the last
one first, and `all_nodes`. -/
structure Progress where
  after : Json
  requested : List Json
  nodes : List Json

def start : Progress := ⟨.null, [], []⟩

/-- A turn of `_paginate`; the server may look at all requests so far. -/
def paginate (server : List Json → Option Json) (resultPath : String) (s : Progress) :
    Turn Progress (List Json) :=
  match page resultPath (server (s.after :: s.requested)) with
  | some (nodes, some endCursor) =>
    .again ⟨endCursor, s.after :: s.requested, s.nodes ++ nodes⟩
  | some (nodes, none) => .returned (s.nodes ++ nodes)
  | none => .raised

/-- A server that gives one reply after the other, whatever it is asked. -/
def inOrder (replies : ℕ → Option Json) (requested : List Json) : Option Json :=
  replies (requested.length - 1)

/-- The loop ends, and no two turns request the same cursor. -/
def Orderly (server : List Json → Option Json) (resultPath : String) : Prop :=
  Ends (paginate server resultPath) start ∧
    ∀ s, Reaches (paginate server resultPath) start s → (s.after :: s.requested).Nodup

/-- The cursor that a reply sends the loop to. -/
def nextCursor (resultPath : String) (reply : Option Json) : Option Json :=
  (page resultPath reply).bind Prod.snd

/-- The cursors that `n` replies lead to, the first one first. -/
def cursors (resultPath : String) (replies : ℕ → Option Json) (n : ℕ) : List (Option Json) :=
  some .null :: (List.range n).map fun k => nextCursor resultPath (replies k)

/-- The replies come to an end, and until then each one names a cursor that no reply before it
named, and that is not null. -/
def MovesOn (resultPath : String) (replies : ℕ → Option Json) : Prop :=
  ∃ n, nextCursor resultPath (replies n) = none ∧
    (∀ k < n, (nextCursor resultPath (replies k)).isSome) ∧
    (cursors resultPath replies n).Nodup

/-- The pages of an honest server with the cursors that open them; the first is opened without. -/
structure Listing where
  first : List Json
  rest : List (Json × List Json)
  distinct : (.null :: rest.map Prod.fst).Nodup

def Listing.pages (listing : Listing) : List (Json × List Json) :=
  (.null, listing.first) :: listing.rest

def Listing.all (listing : Listing) : List Json := listing.pages.flatMap Prod.snd

def connection (nodes : List Json) (next : Option Json) : Json :=
  .obj [("nodes", .arr nodes), ("pageInfo", .obj
    [("hasNextPage", .bool next.isSome), ("endCursor", next.getD .null)])]

def wrap (keys : List String) (connection : Json) : Json :=
  keys.foldr (fun key inner => .obj [(key, inner)]) connection

/-- The page that the last request asks for. -/
def Listing.serve (listing : Listing) (resultPath : String) (requested : List Json) :
    Option Json :=
  match listing.pages.dropWhile fun p => requested.head? ≠ some p.1 with
  | [] => none
  | (_, nodes) :: later => some (.obj
    [("data", wrap (resultPath.splitOn ".") (connection nodes (later.head?.map Prod.fst)))])

section
variable {replies : ℕ → Option Json} {resultPath : String} {n : ℕ} {s : Progress}

theorem cursors_succ (n : ℕ) : cursors resultPath replies (n + 1) =
    cursors resultPath replies n ++ [nextCursor resultPath (replies n)] := by
  rw [cursors, List.range_succ, List.map_append]
  rfl

theorem length_cursors (n : ℕ) : (cursors resultPath replies n).length = n + 1 := by
  simp [cursors]

/-- A turn goes on exactly if the reply names a cursor. -/
theorem paginate_inOrder (replies : ℕ → Option Json) (resultPath : String)
    (hlength : s.requested.length = n) :
    (∃ nodes endCursor, nextCursor resultPath (replies n) = some endCursor ∧
      paginate (inOrder replies) resultPath s =
        .again ⟨endCursor, s.after :: s.requested, s.nodes ++ nodes⟩) ∨
    (nextCursor resultPath (replies n) = none ∧
      ∀ t, paginate (inOrder replies) resultPath s ≠ .again t) := by
  have hreply : inOrder replies (s.after :: s.requested) = replies n := by
    rw [inOrder, List.length_cons, Nat.add_sub_cancel, hlength]
  unfold paginate nextCursor
  rw [hreply]
  rcases page resultPath (replies n) with _ | ⟨nodes, _ | endCursor⟩
  · exact .inr ⟨rfl, nofun⟩
  · exact .inr ⟨rfl, nofun⟩
  · exact .inl ⟨nodes, endCursor, rfl, rfl⟩

theorem requested_of_after (h : after (paginate (inOrder replies) resultPath) n start = .again s) :
    (∀ k < n, (nextCursor resultPath (replies k)).isSome) ∧
      (s.after :: s.requested).reverse.map some = cursors resultPath replies n := by
  induction n generalizing s with
  | zero =>
    obtain rfl := Turn.again.inj h
    exact ⟨nofun, rfl⟩
  | succ n ih =>
    obtain ⟨t, ht, hs⟩ := again_of_after_succ h
    obtain ⟨hsome, hcursors⟩ := ih ht
    have hlength : t.requested.length = n := by
      have hlengths := congrArg List.length hcursors
      simpa [length_cursors] using hlengths
    rcases paginate_inOrder replies resultPath hlength with
      ⟨nodes, endCursor, hnext, hturn⟩ | ⟨-, hends⟩
    · obtain rfl := Turn.again.inj (hturn.symm.trans hs)
      refine ⟨fun k hk => ?_, ?_⟩
      · rcases Nat.lt_succ_iff_lt_or_eq.mp hk with hk | rfl
        · exact hsome k hk
        · rw [hnext]
          rfl
      · rw [cursors_succ, hnext, List.reverse_cons, List.map_append, hcursors]
        rfl
    · exact absurd hs (hends s)

theorem again_of_isSome (h : ∀ k < n, (nextCursor resultPath (replies k)).isSome) :
    ∃ s, after (paginate (inOrder replies) resultPath) n start = .again s := by
  induction n with
  | zero => exact ⟨start, rfl⟩
  | succ n ih =>
    obtain ⟨s, hs⟩ := ih fun k hk => h k (hk.trans n.lt_succ_self)
    have hlength : s.requested.length = n := by
      have hlengths := congrArg List.length (requested_of_after hs).2
      simpa [length_cursors] using hlengths
    rcases paginate_inOrder replies resultPath hlength with
      ⟨nodes, endCursor, -, hturn⟩ | ⟨hnone, -⟩
    · exact ⟨_, (after_succ_of_again hs).trans hturn⟩
    · have hsome := h n n.lt_succ_self
      rw [hnone] at hsome
      cases hsome

/-- No cursor is requested again on the way to a turn exactly if the replies name different
ones. -/
theorem nodup_iff (h : after (paginate (inOrder replies) resultPath) n start = .again s) :
    (s.after :: s.requested).Nodup ↔ (cursors resultPath replies n).Nodup := by
  rw [← (requested_of_after h).2, List.nodup_map_iff (Option.some_injective _),
    List.nodup_reverse]

theorem cursors_sublist {m : ℕ} (hle : m ≤ n) :
    (cursors resultPath replies m).Sublist (cursors resultPath replies n) := by
  induction n, hle using Nat.le_induction with
  | base => exact .refl _
  | succ n _ ih =>
    rw [cursors_succ]
    exact ih.trans (List.sublist_append_left _ _)

theorem paginate_orderly_iff (resultPath : String) (replies : ℕ → Option Json) :
    Orderly (inOrder replies) resultPath ↔ MovesOn resultPath replies := by
  constructor
  · rintro ⟨⟨m, hm⟩, hfresh⟩
    have hlast : ∃ n, nextCursor resultPath (replies n) = none := by
      by_contra hnone
      have hsome : ∀ k < m, (nextCursor resultPath (replies k)).isSome := by
        intro k _
        exact Option.isSome_iff_ne_none.mpr fun hk => hnone ⟨k, hk⟩
      obtain ⟨s, hs⟩ := again_of_isSome hsome
      exact hm s hs
    have hbefore : ∀ k < Nat.find hlast, (nextCursor resultPath (replies k)).isSome :=
      fun k hk => Option.isSome_iff_ne_none.mpr (Nat.find_min hlast hk)
    obtain ⟨s, hs⟩ := again_of_isSome hbefore
    exact ⟨Nat.find hlast, Nat.find_spec hlast, hbefore, (nodup_iff hs).mp (hfresh s ⟨_, hs⟩)⟩
  · rintro ⟨n, hnone, hsome, hnodup⟩
    obtain ⟨s, hs⟩ := again_of_isSome hsome
    have hended : ∀ t, after (paginate (inOrder replies) resultPath) (n + 1) start ≠ .again t := by
      intro t ht
      have hsent := (requested_of_after ht).1 n n.lt_succ_self
      rw [hnone] at hsent
      cases hsent
    refine ⟨⟨n + 1, hended⟩, ?_⟩
    rintro t ⟨m, ht⟩
    rcases Nat.lt_or_ge n m with hlt | hle
    · rw [after_of_ended hended hlt] at ht
      exact absurd ht (hended t)
    · exact (nodup_iff ht).mpr (hnodup.sublist (cursors_sublist hle))

end

/-! ### An honest server -/

theorem foldl_descend_wrap (keys : List String) (connection : Json) :
    keys.foldl descend (wrap keys connection) = connection := by
  induction keys with
  | nil => rfl
  | cons key keys ih =>
    have hstep : descend (wrap (key :: keys) connection) key = wrap keys connection := by
      simp [descend, wrap, Json.get]
    rw [List.foldl_cons, hstep, ih]

theorem page_of_served (resultPath : String) (nodes : List Json) (next : Option Json) :
    page resultPath (some (.obj
      [("data", wrap (resultPath.splitOn ".") (connection nodes next))])) = some (nodes, next) := by
  have hpost : post (some (.obj [("data", wrap (resultPath.splitOn ".")
      (connection nodes next))])) = some (wrap (resultPath.splitOn ".") (connection nodes next)) :=
    rfl
  rw [page, hpost, Option.bind_some, readPage, foldl_descend_wrap]
  cases next with
  | none => rfl
  | some endCursor => rfl

/-- The server finds the page that a cursor opens. -/
theorem serve_eq {listing : Listing} (resultPath : String) {before later : List (Json × List Json)}
    {cursor : Json} {nodes : List Json} (h : listing.pages = before ++ (cursor, nodes) :: later)
    (requested : List Json) :
    listing.serve resultPath (cursor :: requested) = some (.obj
      [("data", wrap (resultPath.splitOn ".") (connection nodes (later.head?.map Prod.fst)))]) := by
  have hdistinct : (listing.pages.map Prod.fst).Nodup := listing.distinct
  have hother : ∀ p ∈ before, decide ((cursor :: requested).head? ≠ some p.1) = true := by
    intro p hp
    rw [h, List.map_append, List.map_cons, List.nodup_middle, List.nodup_cons] at hdistinct
    rw [decide_eq_true_eq, List.head?_cons]
    intro hcursor
    have hmem : p.1 ∈ before.map Prod.fst := List.mem_map_of_mem hp
    rw [← Option.some.inj hcursor] at hmem
    exact hdistinct.1 (List.mem_append_left _ hmem)
  have hdrop : listing.pages.dropWhile (fun p => (cursor :: requested).head? ≠ some p.1) =
      (cursor, nodes) :: later := by
    rw [h, List.dropWhile_append_of_pos hother]
    simp
  rw [Listing.serve, hdrop]

theorem returns_from {listing : Listing} (resultPath : String)
    {before later : List (Json × List Json)} {cursor : Json} {nodes requested : List Json}
    (h : listing.pages = before ++ (cursor, nodes) :: later) :
    Returns (paginate (listing.serve resultPath) resultPath)
      ⟨cursor, requested, before.flatMap Prod.snd⟩ listing.all := by
  induction later generalizing before cursor nodes requested with
  | nil =>
    have hall : listing.all = before.flatMap Prod.snd ++ nodes := by
      rw [Listing.all, h]
      simp
    apply returns_of_returned
    rw [paginate, serve_eq resultPath h, page_of_served, hall]
    rfl
  | cons p later ih =>
    have hrest : listing.pages = (before ++ [(cursor, nodes)]) ++ (p.1, p.2) :: later := by
      rw [h, List.append_assoc]
      rfl
    have hnodes : (before ++ [(cursor, nodes)]).flatMap Prod.snd =
        before.flatMap Prod.snd ++ nodes := by simp
    have hturn : paginate (listing.serve resultPath) resultPath
        ⟨cursor, requested, before.flatMap Prod.snd⟩ =
        .again ⟨p.1, cursor :: requested, (before ++ [(cursor, nodes)]).flatMap Prod.snd⟩ := by
      rw [paginate, serve_eq resultPath h, page_of_served, hnodes]
      rfl
    exact returns_of_again hturn (ih hrest)

theorem returns_all (listing : Listing) (resultPath : String) :
    Returns (paginate (listing.serve resultPath) resultPath) start listing.all := by
  have hpages : listing.pages = [] ++ (.null, listing.first) :: listing.rest := rfl
  exact returns_from resultPath hpages

end Jobber

/-! ## QuickBooks -/

namespace QuickBooks

def validEntities : List String :=
  ["Account", "Bill", "BillPayment", "Budget", "Class", "CompanyCurrency",
    "CreditMemo", "Customer", "Department", "Deposit", "Employee",
    "Estimate", "Invoice", "Item", "JournalEntry", "Payment",
    "PaymentMethod", "Purchase", "PurchaseOrder", "RefundReceipt",
    "SalesReceipt", "TaxAgency", "TaxCode", "TaxRate", "Term",
    "TimeActivity", "Transfer", "Vendor", "VendorCredit"]

def queryText (entity : String) (queryFilter : Option String) (maxResults : ℕ) : String :=
  "SELECT * FROM " ++ entity ++
    (match queryFilter.filter (· ≠ "") with
      | some condition => " WHERE " ++ condition
      | none => "") ++
    " MAXRESULTS " ++ toString maxResults

def maxResults : ℕ := 1000

def queryAll (server : String → Option Json) (entity : String) (queryFilter : Option String) :
    Option Json := do
  if entity ∉ validEntities then none
  let data ← server (queryText entity queryFilter maxResults)
  let response ← data.get "QueryResponse" (.obj [])
  let entities ← response.get entity (.arr [])
  match entities with
  | .obj _ => some (.arr [entities])
  | _ => some entities

/-- No field for no entity; a single one may come by itself. -/
def fields (entity : String) (alone : Bool) : List Json → List (String × Json)
  | [] => []
  | [item] => [(entity, if alone then item else .arr [item])]
  | items => [(entity, .arr items)]

/-- What an honest server holds of an entity under a filter, and its answer to the query. -/
structure Holding where
  entity : String
  valid : entity ∈ validEntities
  queryFilter : Option String
  held : List (List (String × Json))
  alone : Bool

def Holding.items (h : Holding) : List Json := h.held.map .obj

def Holding.server (h : Holding) (text : String) : Option Json :=
  if text = queryText h.entity h.queryFilter maxResults then
    some (.obj [("QueryResponse", .obj (fields h.entity h.alone (h.items.take maxResults)))])
  else none

/-- The query brings the first thousand. -/
theorem queryAll_server (h : Holding) :
    queryAll h.server h.entity h.queryFilter = some (.arr (h.items.take maxResults)) := by
  have hitems : ∀ item ∈ h.items.take maxResults, ∃ f, item = .obj f := by
    intro item hitem
    obtain ⟨f, -, rfl⟩ := List.mem_map.mp (List.mem_of_mem_take hitem)
    exact ⟨f, rfl⟩
  have hget : queryAll h.server h.entity h.queryFilter = (do
      let entities ← (Json.obj (fields h.entity h.alone (h.items.take maxResults))).get h.entity
        (.arr [])
      match entities with
      | .obj _ => some (.arr [entities])
      | _ => some entities) := by
    simp [queryAll, h.valid, Holding.server, Json.get]
  rw [hget]
  generalize h.items.take maxResults = items at hitems
  cases items with
  | nil => rfl
  | cons item items =>
    obtain ⟨f, rfl⟩ := hitems item List.mem_cons_self
    cases items with
    | nil => cases h.alone <;> simp [fields, Json.get]
    | cons second items => simp [fields, Json.get]

theorem queryAll_iff (h : Holding) :
    queryAll h.server h.entity h.queryFilter = some (.arr h.items) ↔ h.held.length ≤ maxResults := by
  rw [queryAll_server, Option.some.injEq, Json.arr.injEq, List.take_eq_self_iff, Holding.items,
    List.length_map]

end QuickBooks

/-! ## Housecall Pro -/

namespace HousecallPro

structure Progress where
  page : ℕ
  items : List Json

def start : Progress := ⟨1, []⟩

def pageSize : ℕ := 100

def isList : Json → Bool
  | .arr _ => true
  | _ => false

/-- What a reply adds, whether it has items, and `total_pages`. -/
def readPage (data : Json) : Option (List Json × Bool × ℚ) := do
  let inData ← data.get "data" (.arr [])
  let results ← data.get "results" inData
  let items ← data.get "items" results
  let items := if !items.truthy && isList data then data else items
  let added ← if items.truthy then items.elements else some []
  let pageInfo ← data.get "meta" (.obj [])
  let inMeta ← pageInfo.get "total_pages" (.num 1)
  let totalPages ← data.get "total_pages" inMeta
  let totalPages ← totalPages.number
  some (added, items.truthy, totalPages)

/-- A turn of `_get_all`. -/
def getAll (server : ℕ → ℕ → Option Json) (s : Progress) : Turn Progress (List Json) :=
  match (server s.page pageSize).bind readPage with
  | some (added, any, totalPages) =>
    if totalPages ≤ s.page ∨ any = false then .returned (s.items ++ added)
    else .again ⟨s.page + 1, s.items ++ added⟩
  | none => .raised

inductive ItemsKey
  | items
  | results
  | data

def ItemsKey.text : ItemsKey → String
  | .items => "items"
  | .results => "results"
  | .data => "data"

/-- Where an object says how many pages there are. -/
inductive PagesKey
  | top
  | inMeta
  | missing

inductive Shape
  | list
  | object (itemsKey : ItemsKey) (pagesKey : PagesKey)

def pagesField (totalPages : ℕ) : PagesKey → List (String × Json)
  | .top => [("total_pages", .num totalPages)]
  | .inMeta => [("meta", .obj [("total_pages", .num totalPages)])]
  | .missing => []

/-- An honest server that holds a list of items. -/
def serve (shape : Shape) (held : List Json) (page pageSize : ℕ) : Option Json :=
  let slice := (held.drop ((page - 1) * pageSize)).take pageSize
  match shape with
  | .list => some (.arr slice)
  | .object itemsKey pagesKey => some (.obj
    ((itemsKey.text, .arr slice) ::
      pagesField ((held.length + pageSize - 1) / pageSize) pagesKey))

/-- The replies are objects, and say how many pages there are unless there is only one. -/
def Complete (held : List Json) : Shape → Prop
  | .list => False
  | .object _ .missing => held.length ≤ pageSize
  | .object _ _ => True

/-- What the connector takes for the number of pages. -/
def pagesRead (totalPages : ℕ) : PagesKey → ℕ
  | .missing => 1
  | .top | .inMeta => totalPages

theorem readPage_object (itemsKey : ItemsKey) (pagesKey : PagesKey) (slice : List Json)
    (totalPages : ℕ) :
    readPage (.obj ((itemsKey.text, .arr slice) :: pagesField totalPages pagesKey)) =
      some (slice, !slice.isEmpty, (pagesRead totalPages pagesKey : ℚ)) := by
  cases slice <;> cases itemsKey <;> cases pagesKey <;>
    simp [readPage, ItemsKey.text, pagesField, pagesRead, Json.get, Json.truthy, Json.elements,
      Json.number, isList, List.lookup]

theorem getAll_list (held : List Json) (s : Progress) : getAll (serve .list held) s = .raised :=
  rfl

theorem getAll_object (itemsKey : ItemsKey) (pagesKey : PagesKey) (held : List Json)
    (s : Progress) :
    getAll (serve (.object itemsKey pagesKey) held) s =
      if pagesRead ((held.length + pageSize - 1) / pageSize) pagesKey ≤ s.page ∨
          ((held.drop ((s.page - 1) * pageSize)).take pageSize).isEmpty = true then
        .returned (s.items ++ (held.drop ((s.page - 1) * pageSize)).take pageSize)
      else .again ⟨s.page + 1, s.items ++ (held.drop ((s.page - 1) * pageSize)).take pageSize⟩ := by
  rw [getAll, serve, Option.bind_some, readPage_object]
  simp only [Nat.cast_le, Bool.not_eq_false']

/-- Page after page, until as many were read as there are. -/
theorem returns_held (itemsKey : ItemsKey) {pagesKey : PagesKey} (held : List Json)
    (h : pagesKey ≠ .missing) :
    Returns (getAll (serve (.object itemsKey pagesKey) held)) start held := by
  have hread : ∀ totalPages, pagesRead totalPages pagesKey = totalPages := by
    intro totalPages
    cases pagesKey with
    | missing => exact absurd rfl h
    | top | inMeta => rfl
  let totalPages := (held.length + pageSize - 1) / pageSize
  refine returns_of_measure (I := fun s => 1 ≤ s.page ∧
    s.items = held.take ((s.page - 1) * pageSize)) (fun s => totalPages - s.page) ?_ ⟨le_rfl, rfl⟩
  rintro ⟨page, items⟩ ⟨hpage, hitems⟩
  obtain ⟨k, rfl⟩ : ∃ k, page = k + 1 := ⟨page - 1, (Nat.sub_add_cancel hpage).symm⟩
  have hmore : items ++ (held.drop (k * pageSize)).take pageSize =
      held.take ((k + 1) * pageSize) := by
    rw [Nat.succ_mul, List.take_add]
    exact congrArg (· ++ _) hitems
  rw [getAll_object, hread, Nat.add_sub_cancel, hmore]
  split
  · rename_i hlast
    left
    have hlength : held.length ≤ (k + 1) * pageSize := by
      rcases hlast with htotal | hempty
      · simp only [pageSize] at htotal ⊢
        omega
      · have hle : held.length ≤ k * pageSize := by
          simpa [List.take_eq_nil_iff, pageSize] using hempty
        simp only [pageSize] at hle ⊢
        omega
    rw [List.take_of_length_le hlength]
  · rename_i hnext
    right
    have hlt := not_le.mp (not_or.mp hnext).1
    refine ⟨_, rfl, ⟨Nat.le_add_left 1 _, rfl⟩, ?_⟩
    change totalPages - (k + 1 + 1) < totalPages - (k + 1)
    have htotal : k + 1 < totalPages := hlt
    omega

theorem getAll_iff (shape : Shape) (held : List Json) :
    Returns (getAll (serve shape held)) start held ↔ Complete held shape := by
  match shape with
  | .list => exact iff_of_false (not_returns_of_raised (getAll_list held start)) id
  | .object itemsKey .top => exact iff_of_true (returns_held itemsKey held nofun) trivial
  | .object itemsKey .inMeta => exact iff_of_true (returns_held itemsKey held nofun) trivial
  | .object itemsKey .missing =>
    have hfirst : getAll (serve (.object itemsKey .missing) held) start =
        .returned (held.take pageSize) := by
      rw [getAll_object, if_pos (.inl le_rfl)]
      simp [start]
    constructor
    · intro hreturns
      exact (List.take_eq_self_iff _).mp ((returns_of_returned hfirst).unique hreturns)
    · intro hle
      have hheld := returns_of_returned hfirst
      rwa [List.take_of_length_le hle] at hheld

end HousecallPro

/-- When the three loops do what they should: Jobber's on all replies and with an honest server, the
others with honest servers. -/
theorem paging_iff (resultPath : String) (replies : ℕ → Option Json) (listing : Jobber.Listing)
    (h : QuickBooks.Holding) (shape : HousecallPro.Shape) (held : List Json) :
    (Jobber.Orderly (Jobber.inOrder replies) resultPath ↔ Jobber.MovesOn resultPath replies) ∧
    Returns (Jobber.paginate (listing.serve resultPath) resultPath) Jobber.start listing.all ∧
    (QuickBooks.queryAll h.server h.entity h.queryFilter = some (.arr h.items) ↔
      h.held.length ≤ QuickBooks.maxResults) ∧
    (Returns (HousecallPro.getAll (HousecallPro.serve shape held)) HousecallPro.start held ↔
      HousecallPro.Complete held shape) :=
  ⟨Jobber.paginate_orderly_iff resultPath replies, Jobber.returns_all listing resultPath,
    QuickBooks.queryAll_iff h, HousecallPro.getAll_iff shape held⟩

/-- A Jobber server that names the same cursor for ever, a QuickBooks company with 1001 customers, and
a Housecall Pro server that answers with a list. -/
theorem not_paged :
    ¬Jobber.Orderly (Jobber.inOrder fun _ => some (.obj [("data",
      Jobber.wrap ("clients".splitOn ".") (Jobber.connection [] (some (.str "MTAw"))))])) "clients" ∧
    ¬(∀ h : QuickBooks.Holding, QuickBooks.queryAll h.server h.entity h.queryFilter =
      some (.arr h.items)) ∧
    ¬Returns (HousecallPro.getAll (HousecallPro.serve .list [.obj [("id", .str "7")]]))
      HousecallPro.start [.obj [("id", .str "7")]] := by
  refine ⟨fun horderly => ?_, fun hall => ?_, not_returns_of_raised rfl⟩
  · have hturn : ∀ s, Jobber.paginate (Jobber.inOrder fun _ => some (.obj [("data",
        Jobber.wrap ("clients".splitOn ".") (Jobber.connection [] (some (.str "MTAw"))))]))
        "clients" s = .again ⟨.str "MTAw", s.after :: s.requested, s.nodes ++ []⟩ := by
      intro s
      rw [Jobber.paginate, Jobber.inOrder, Jobber.page_of_served]
    have htwice := horderly.2 _ ⟨2, (after_succ (hturn _)).trans (hturn _)⟩
    exact absurd htwice (by decide)
  · have hthousand := QuickBooks.queryAll_server
      ⟨"Customer", by decide, some "Active = true", List.replicate 1001 [("Id", .str "1")], false⟩
    rw [hall, Option.some.injEq, Json.arr.injEq] at hthousand
    have hlengths := congrArg List.length hthousand
    rw [List.length_take, QuickBooks.Holding.items, List.length_map, List.length_replicate]
      at hlengths
    exact absurd hlengths (by decide)

end WorkTicket.Integrations.RemotePaging
