import WorkTicket.Billing.Account
import WorkTicket.Estimates.Pricing

/-! An estimate with its line items: the status machine, and what the routes do to the row
their session has loaded. -/

namespace WorkTicket.Estimates

open WorkTicket.Billing (Time)

inductive EstimateStatus
  | aiPending
  | draft
  | inReview
  | approved
  | sent
  | accepted
  | rejected
  deriving DecidableEq, Repr

def EstimateStatus.value : EstimateStatus → String
  | .aiPending => "ai_pending"
  | .draft => "draft"
  | .inReview => "in_review"
  | .approved => "approved"
  | .sent => "sent"
  | .accepted => "accepted"
  | .rejected => "rejected"

def allowedTransitions : EstimateStatus → List EstimateStatus
  | .aiPending => [.draft]
  | .draft => [.inReview, .approved]
  | .inReview => [.approved, .draft]
  | .approved => [.sent, .inReview]
  | .sent => [.accepted, .rejected]
  | .accepted => []
  | .rejected => [.draft]

def validateTransition (current target : EstimateStatus) : Bool :=
  target ∈ allowedTransitions current

structure LineItem where
  id : ℕ
  name : String
  itemType : String
  quantity : ℚ
  rate : ℚ
  total : ℚ
  deriving DecidableEq, Repr

structure Estimate where
  status : EstimateStatus
  title : Option String
  description : Option String
  notes : Option String
  subtotal : ℚ
  tax : ℚ
  total : ℚ
  aiGenerated : Bool
  approvedAt : Option Time
  sentAt : Option Time
  lineItems : List LineItem
  deriving DecidableEq, Repr

/-- What a `NUMERIC(12, 2)` column keeps of a number. -/
def storeNumeric (x : ℚ) : ℚ := roundCurrency x

def Estimate.stored (e : Estimate) : Estimate :=
  { e with
    subtotal := storeNumeric e.subtotal
    tax := storeNumeric e.tax
    total := storeNumeric e.total }

/-- Why a request is refused; a payload its schema does not accept is answered by FastAPI. -/
inductive Failure
  | unprocessable
  | http (status : ℕ) (detail : String)
  deriving DecidableEq, Repr

def require (ok : Bool) (f : Failure) : Except Failure Unit := if ok then .ok () else .error f

theorem require_eq_ok {ok : Bool} {f : Failure} {u : Unit} : require ok f = .ok u ↔ ok = true := by
  cases ok <;> simp [require]

/-! ## Review, approval, sending -/

def transitionEstimate (now : Time) (target : EstimateStatus) (e : Estimate) : Option Estimate :=
  if validateTransition e.status target then
    some { e with
      status := target
      approvedAt := if target = .approved then some now else e.approvedAt
      sentAt := if target = .sent then some now else e.sentAt }
  else none

def transitionOr (f : Failure) (now : Time) (target : EstimateStatus) (e : Estimate) :
    Except Failure Estimate :=
  match transitionEstimate now target e with
  | some e => .ok e
  | none => .error f

theorem transitionOr_eq_ok {f : Failure} {now : Time} {target : EstimateStatus} {e e' : Estimate}
    (h : transitionOr f now target e = .ok e') :
    validateTransition e.status target = true ∧ e' = { e with
      status := target
      approvedAt := if target = .approved then some now else e.approvedAt
      sentAt := if target = .sent then some now else e.sentAt } := by
  unfold transitionOr transitionEstimate at h
  split at h
  · rename_i hsome
    obtain ⟨hvalid, ⟨⟩⟩ := Option.ite_none_right_eq_some.mp hsome
    cases h
    exact ⟨hvalid, rfl⟩
  · cases h

def reviewAiEstimate (now : Time) (e : Estimate) : Except Failure Estimate := do
  require (e.status = .aiPending)
    (.http 400 ("Cannot review estimate in status '" ++ e.status.value ++ "'"))
  require e.aiGenerated (.http 400 "Only AI-generated estimates require review")
  transitionOr (.http 400 "Failed to transition estimate to draft") now .draft e

def approveEstimate (now : Time) (e : Estimate) : Except Failure Estimate :=
  transitionOr (.http 400 ("Cannot approve estimate in status '" ++ e.status.value ++ "'"))
    now .approved e

def sendEstimate (now : Time) (e : Estimate) : Except Failure Estimate := do
  require (e.status = .approved) (.http 400 "Estimate must be approved before sending")
  transitionOr (.http 400 "Failed to send estimate") now .sent e

def reopenEstimate (e : Estimate) : Except Failure Estimate := do
  require (e.status = .sent || e.status = .rejected)
    (.http 400 "Only sent or rejected estimates can be reopened")
  .ok { e with status := .inReview }

/-! ## Updates -/

structure LineItemCreate where
  name : String
  itemType : String
  quantity : ℚ
  rate : ℚ
  total : ℚ
  deriving DecidableEq, Repr

def LineItemCreate.valid (li : LineItemCreate) : Bool :=
  li.itemType ∈ lineItemTypes && 0 ≤ li.quantity && 0 ≤ li.rate &&
    |li.total - computeLineItemTotal li.quantity li.rate| ≤ tolerance

structure EstimateUpdateRequest where
  title : Option String
  description : Option String
  notes : Option String
  subtotal : Option ℚ
  tax : Option ℚ
  total : Option ℚ
  lineItems : Option (List LineItemCreate)
  deriving DecidableEq, Repr

/-- `validate_totals`: the totals that are given together must fit. -/
def EstimateUpdateRequest.totalsFit (req : EstimateUpdateRequest) : Bool :=
  (match req.lineItems, req.subtotal with
    | some (li :: lis), some subtotal =>
      |subtotal - computeSubtotal ((li :: lis).map LineItemCreate.total)| ≤ tolerance
    | _, _ => true) &&
  (match req.subtotal, req.tax, req.total with
    | some subtotal, some tax, some total => |total - computeTotal subtotal tax| ≤ tolerance
    | _, _, _ => true)

def EstimateUpdateRequest.valid (req : EstimateUpdateRequest) : Bool :=
  (req.lineItems.all fun lis => lis.all LineItemCreate.valid) && req.subtotal.all (0 ≤ ·) &&
    req.tax.all (0 ≤ ·) && req.totalsFit

/-- The new rows of the line items, with their canonical totals; `newId` is the id given to
the item at a position. -/
def createItems (newId : ℕ → ℕ) : ℕ → List LineItemCreate → List LineItem
  | _, [] => []
  | idx, li :: lis =>
    ⟨newId idx, li.name, li.itemType, li.quantity, li.rate,
      computeLineItemTotal li.quantity li.rate⟩ :: createItems newId (idx + 1) lis

/-- With line items all three amounts are computed, without them each is taken as given. -/
def updateAmounts (newId : ℕ → ℕ) (req : EstimateUpdateRequest) (e : Estimate) : Estimate :=
  match req.lineItems with
  | some lis =>
    let items := createItems newId 0 lis
    let subtotal := roundCurrency (items.map LineItem.total).sum
    let tax := roundCurrency (req.tax.getD e.tax)
    { e with
      lineItems := items
      subtotal := subtotal
      tax := tax
      total := roundCurrency (subtotal + tax) }
  | none =>
    { e with
      subtotal := req.subtotal.getD e.subtotal
      tax := req.tax.getD e.tax
      total := req.total.getD e.total }

def updateEstimate (newId : ℕ → ℕ) (req : EstimateUpdateRequest) (e : Estimate) :
    Except Failure Estimate := do
  require req.valid .unprocessable
  require (e.status = .draft || e.status = .inReview)
    (.http 400 "Only draft or in-review estimates can be edited")
  let e := updateAmounts newId req { e with
    title := req.title <|> e.title
    description := req.description <|> e.description
    notes := req.notes <|> e.notes }
  .ok { e with
    aiGenerated := false
    status := if e.status = .draft then .inReview else e.status }

/-! ## Generation -/

section
variable (parse : String → Option ℚ)

/-- The row of an item of the AI; a column does not take a value of another type. -/
def storedItem (id : ℕ) (c : CanonicalItem) : Option LineItem := do
  let name ← (c.item.get "name" (.str "")).bind Json.text
  let itemType ← (c.item.get "item_type" (.str "labor")).bind Json.text
  let quantity ← (c.item.get "quantity" (.num 1)).bind Json.number
  let rate ← (c.item.get "rate" (.num 0)).bind Json.number
  some ⟨id, name, itemType, quantity, rate, c.total⟩

def storedItems (newId : ℕ → ℕ) : ℕ → List CanonicalItem → Option (List LineItem)
  | _, [] => some []
  | idx, c :: cs => do
    let item ← storedItem (newId idx) c
    let items ← storedItems newId (idx + 1) cs
    some (item :: items)

/-- The estimate that `generate_estimate` adds for what the AI answered. An answer that
does not validate loses its items, its subtotal and its total, and keeps its tax. -/
def newEstimate (newId : ℕ → ℕ) (jobDescription : String) (aiResult : Json) : Option Estimate := do
  let canonical ← recomputeEstimate parse aiResult
  let errors ← validateEstimate parse canonical
  let canonical := if errors = [] then canonical
    else { canonical with total := 0, subtotal := 0, lineItems := [] }
  let tax ← taxOf parse aiResult
  let items ← storedItems newId 0 canonical.lineItems
  some {
    status := .aiPending
    title := some ("Estimate for: " ++ String.ofList (jobDescription.toList.take 100))
    description := some jobDescription
    notes := none
    subtotal := canonical.subtotal
    tax := roundCurrency tax
    total := canonical.total
    aiGenerated := true
    approvedAt := none
    sentAt := none
    lineItems := items }

end

end WorkTicket.Estimates
