import WorkTicket.Billing.QuotaEngine
import WorkTicket.Foundation.Fallible
import WorkTicket.Foundation.Json

/-! The Stripe webhook: its checks, the two stores that deduplicate events, the four
event handlers, and the commit or rollback of the request's session. -/

namespace WorkTicket.Billing.StripeWebhook

open WorkTicket.Fallible

structure Company where
  id : CompanyId
  subscriptionPlan : Option String
  stripeCustomerId : Option String
  stripeSubscriptionId : Option String
  deriving DecidableEq, Repr

/-- The tables of the request; `events` are the ids of `stripe_webhook_events`. -/
structure Db where
  companies : List Company
  accounts : CompanyId → Option BillingAccount
  events : List String

/-- Why a request stops: an `HTTPException`, or an exception no handler expects. -/
inductive Failure
  | http (status : ℕ) (detail : String)
  | exception
  deriving DecidableEq, Repr

structure HandlerEnv where
  now : Time
  stripeAvailable : Bool
  retrieve : Json → Option (Option String)
  companyLocked : Bool
  flushOk : Bool
  cacheOk : Bool

section
variable {α : Type}

/-- A Python expression that raises when it has no value. -/
def attempt (x : Option α) : Except Failure α :=
  match x with
  | some a => .ok a
  | none => .error .exception

def require (ok : Bool) (f : Failure) : Except Failure Unit := if ok then .ok () else .error f

end

/-- `event["data"]["object"]`. -/
def eventObject (event : Json) : Except Failure Json :=
  attempt ((event.item "data").bind fun data => data.item "object")

def missingCustomer : Failure := .http 400 "Missing customer_id in Stripe event"
def missingInvoiceCustomer : Failure := .http 400 "Missing customer_id in invoice event"
def unknownCustomer : Failure := .http 400 "Unknown customer_id in Stripe event"
def unknownInvoiceCustomer : Failure := .http 400 "Unknown customer_id in invoice event"
def concurrentCompany : Failure :=
  .http 409 "Concurrent webhook processing in progress, please retry"

/-! ## Rows -/

/-- `scalar_one_or_none` of the companies with this customer id; the driver takes text only. -/
def companyOfCustomer (db : Db) (customerId : Json) : Except Failure (Option Company) := do
  let s ← attempt customerId.text
  match db.companies.filter fun c => c.stripeCustomerId = some s with
  | [] => .ok none
  | [c] => .ok (some c)
  | _ => .error .exception

/-- The same query `FOR UPDATE NOWAIT`, and the answer when there is no such company. -/
def lockCompany (env : HandlerEnv) (db : Db) (customerId : Json) (unknown : Failure) :
    Except Failure Company := do
  let company ← companyOfCustomer db customerId
  match company with
  | none => .error unknown
  | some c => if env.companyLocked then .error concurrentCompany else .ok c

def Db.setAccount (db : Db) (companyId : CompanyId) (a : BillingAccount) : Db :=
  { db with accounts := Function.update db.accounts companyId (some a) }

def getOrCreateAccount (now : Time) (companyId : CompanyId) (plan : Option String) (db : Db) :
    BillingAccount × Db :=
  match db.accounts companyId with
  | some a => (a, db)
  | none =>
    (newAccount now companyId plan, db.setAccount companyId (newAccount now companyId plan))

def Db.setCompany (db : Db) (companyId : CompanyId) (f : Company → Company) : Db :=
  { db with
    companies := db.companies.map fun c => if c.id = companyId then { f c with id := c.id } else c }

def updateAccount (env : HandlerEnv) (companyId : CompanyId) (plan : Option String)
    (f : BillingAccount → BillingAccount) (db : Db) : Db :=
  let found := getOrCreateAccount env.now companyId plan db
  found.2.setAccount companyId (f found.1)

/-! ## Checks -/

def checkMetadata (company : Company) (metadataCompanyId : Json) : Except Failure Unit :=
  require (!metadataCompanyId.truthy || metadataCompanyId.text = some (toString company.id))
    (.http 400 "Stripe webhook metadata company_id mismatch - potential fraud attempt")

/-- Stripe's own record of the subscription belongs to the customer of the event. -/
def verifySubscription (env : HandlerEnv) (customerId subscriptionId : Json) :
    Except Failure Unit := do
  require env.stripeAvailable
    (.http 502 "Stripe API temporarily unavailable, please try again later")
  match env.retrieve subscriptionId with
  | none => .error (.http 502 "Failed to verify subscription with Stripe")
  | some customer =>
    require (customer.isSome && customer = customerId.text)
      (.http 400 "Subscription does not belong to the specified customer")

/-- A checkout from before the account's billing period is refused; the account is
created to look that up. -/
def rejectPriorPeriod (env : HandlerEnv) (event customerId : Json) (db : Db) :
    Except Failure Db := do
  let created ← attempt (event.get "created" (.num 0))
  if created.truthy then do
    let time ← attempt created.number
    let company ← companyOfCustomer db customerId
    match company with
    | none => .ok db
    | some c =>
      let found := getOrCreateAccount env.now c.id c.subscriptionPlan db
      require (!found.1.billingPeriodStart.any fun start => time < start)
        (.http 400 "Event from prior billing period")
      .ok found.2
  else .ok db

/-! ## Handlers -/

def applyPlan (default : Tier) (plan : Option String) (a : BillingAccount) : BillingAccount :=
  { a with plan := plan, monthlyQuotaAcu := (tierOr default plan).quotaAcu }

def planOf (plan : Json) : Except Failure (Option String) :=
  match plan with
  | .null => .ok none
  | .str s => .ok (some s)
  | _ => .error .exception

def checkoutSessionCompleted (env : HandlerEnv) (event : Json) (db : Db) : Except Failure Db := do
  let session ← eventObject event
  let metadata ← attempt (session.get "metadata" (.obj []))
  let metadataCompanyId ← attempt (metadata.get "company_id" .null)
  let customerId ← attempt (session.get "customer" .null)
  let subscriptionId ← attempt (session.get "subscription" .null)
  let plan ← attempt (metadata.get "plan" (.str "pro"))
  require customerId.truthy missingCustomer
  require subscriptionId.truthy (.http 400 "Missing subscription_id in Stripe session")
  verifySubscription env customerId subscriptionId
  let db ← rejectPriorPeriod env event customerId db
  let company ← lockCompany env db customerId unknownCustomer
  checkMetadata company metadataCompanyId
  let plan ← planOf plan
  let subscription ← attempt subscriptionId.text
  require (env.flushOk && env.cacheOk) .exception
  let db := db.setCompany company.id fun c =>
    { c with
      subscriptionPlan := plan
      stripeCustomerId := customerId.text
      stripeSubscriptionId := some subscription }
  .ok (updateAccount env company.id plan (applyPlan proTier plan) db)

def subscriptionDeleted (env : HandlerEnv) (event : Json) (db : Db) : Except Failure Db := do
  let subscription ← eventObject event
  let customerId ← attempt (subscription.get "customer" .null)
  let subscriptionId ← attempt (subscription.get "id" .null)
  let metadata ← attempt (subscription.get "metadata" (.obj []))
  let metadataCompanyId ← attempt (metadata.get "company_id" .null)
  require customerId.truthy missingCustomer
  require subscriptionId.truthy (.http 400 "Missing subscription_id in Stripe event")
  let company ← lockCompany env db customerId unknownCustomer
  checkMetadata company metadataCompanyId
  require (company.stripeSubscriptionId.getD "" = "" ||
      subscriptionId.text = company.stripeSubscriptionId)
    (.http 400 "Stripe subscription deletion does not match stored subscription")
  require (env.flushOk && env.cacheOk) .exception
  let db := db.setCompany company.id fun c =>
    { c with subscriptionPlan := some "free", stripeSubscriptionId := none }
  .ok (updateAccount env company.id (some "free") (applyPlan freeTier (some "free")) db)

/-- The two invoice handlers differ in what they write into the account. -/
def invoicePayment (write : BillingAccount → BillingAccount) (env : HandlerEnv) (event : Json)
    (db : Db) : Except Failure Db := do
  let invoice ← eventObject event
  let customerId ← attempt (invoice.get "customer" .null)
  require customerId.truthy missingInvoiceCustomer
  let company ← lockCompany env db customerId unknownInvoiceCustomer
  require (env.flushOk && env.cacheOk) .exception
  .ok (updateAccount env company.id company.subscriptionPlan write db)

def disableAi (a : BillingAccount) : BillingAccount :=
  { a with aiDisabled := true, aiDisabledReason := some "payment_failed" }

/-- Only a payment failure is undone by a payment. -/
def enableAi (a : BillingAccount) : BillingAccount :=
  if a.aiDisabled && a.aiDisabledReason = some "payment_failed" then
    { a with aiDisabled := false, aiDisabledReason := none }
  else a

def invoicePaymentFailed : HandlerEnv → Json → Db → Except Failure Db := invoicePayment disableAi

def invoicePaymentSucceeded : HandlerEnv → Json → Db → Except Failure Db := invoicePayment enableAi

def handleEvent (env : HandlerEnv) (eventType : String) (event : Json) (db : Db) :
    Except Failure Db :=
  if eventType = "checkout.session.completed" then checkoutSessionCompleted env event db
  else if eventType = "customer.subscription.deleted" then subscriptionDeleted env event db
  else if eventType = "invoice.payment_failed" then invoicePaymentFailed env event db
  else if eventType = "invoice.payment_succeeded" then invoicePaymentSucceeded env event db
  else .ok db

/-! ## A delivery -/

/-- How Redis meets the SETNX of the deduplication key: it is not reached, its answer is
lost after it has run, or it answers. -/
inductive RedisOutcome
  | unavailable
  | replyLost
  | answers
  deriving DecidableEq, Repr

/-- What a delivery meets. `refused` is an answer given before the event is looked at: a
rate limit, the address, the size or the signature. `keyExpired` tells that the event's
Redis key has run out by now. -/
structure Env where
  refused : Option (ℕ × String)
  skewTolerance : ℚ
  insertOk : Bool
  keyExpired : Bool
  redis : RedisOutcome
  advisoryFree : Bool
  handler : HandlerEnv
  commitOk : Bool

structure Stores where
  db : Db
  redisKeys : List String

inductive Answer
  | received (deduplicated : Bool)
  | error (status : ℕ) (detail : String)
  deriving DecidableEq, Repr

def Answer.isSuccess : Answer → Bool
  | .received _ => true
  | .error _ _ => false

section
variable (digest : Json → Json → String)

/-- The event's id, or a digest of type and time when it has none. -/
def effectiveEventId (event eventType created : Json) : Except Failure String := do
  let id ← attempt (event.get "id" (.str ""))
  if id.truthy then attempt id.text else .ok (digest eventType created)

def eventKey (event : Json) : Except Failure (String × String) := do
  let eventType ← attempt (event.item "type")
  let created ← attempt (event.get "created" (.num 0))
  let id ← effectiveEventId digest event eventType created
  let type ← attempt eventType.text
  .ok (id, type)

def verifiedKey (env : Env) (event : Json) : Except Failure (String × String) := do
  match env.refused with
  | some (status, detail) => .error (.http status detail)
  | none =>
    let created ← attempt (event.get "created" (.num 0))
    let time ← attempt created.number
    require (|time - Rat.floor env.handler.now| ≤ env.skewTolerance)
      (.http 400 "Event timestamp outside allowed window")
    let key ← eventKey digest event
    require env.insertOk .exception
    .ok key

def liveKeys (env : Env) (id : String) (keys : List String) : List String :=
  if env.keyExpired then keys.filter (· ≠ id) else keys

def Db.recordEvent (db : Db) (id : String) : Db := { db with events := id :: db.events }

/-- The keys after `SET key 1 NX`, and whether the event is taken for a duplicate. -/
def redisDedup (outcome : RedisOutcome) (id : String) (keys : List String) : Bool × List String :=
  match outcome with
  | .unavailable => (false, keys)
  | .replyLost => (false, if id ∈ keys then keys else id :: keys)
  | .answers => if id ∈ keys then (true, keys) else (false, id :: keys)

def applyEvent (env : Env) (eventType : String) (event : Json) (db : Db) : Except Failure Db := do
  require env.advisoryFree (.http 409 "Concurrent webhook processing in progress")
  handleEvent env.handler eventType event db

/-- `_process_webhook`: its answer with the request's uncommitted rows, and the Redis keys,
which no rollback takes back. -/
def processWebhook (env : Env) (event : Json) (s : Stores) :
    Except Failure (Bool × Db) × List String :=
  match verifiedKey digest env event with
  | .error f => (.error f, s.redisKeys)
  | .ok (id, eventType) =>
    let keys := liveKeys env id s.redisKeys
    if id ∈ s.db.events then (.ok (true, s.db), keys)
    else
      let dedup := redisDedup env.redis id keys
      if dedup.1 then (.ok (true, s.db.recordEvent id), dedup.2)
      else
        -- the key is set before the event is applied, and stays when that fails
        ((applyEvent env eventType event (s.db.recordEvent id)).map fun db => (false, db), dedup.2)

/-- `stripe_webhook` inside `get_db`: a success is committed before it is answered, an
error is rolled back. -/
def deliver (env : Env) (event : Json) (s : Stores) : Answer × Stores :=
  match processWebhook digest env event s with
  | (.ok (deduplicated, db), keys) =>
    if env.commitOk then (.received deduplicated, ⟨db, keys⟩)
    else (.error 500 "Internal Server Error", ⟨s.db, keys⟩)
  | (.error (.http status detail), keys) => (.error status detail, ⟨s.db, keys⟩)
  | (.error .exception, keys) =>
    (.error 503 "Webhook processing failed, will retry", ⟨s.db, keys⟩)

end

/-! ## The rows a handler may change -/

structure RowFrame (companyId : CompanyId) (db db' : Db) : Prop where
  companies : ∃ f : Company → Company, db'.companies = db.companies.map f ∧
    ∀ c, (f c).id = c.id ∧ (c.id ≠ companyId → f c = c)
  accounts : ∀ i, i ≠ companyId → db'.accounts i = db.accounts i

/-- `db'` differs from `db` at most in the row of the company and in its account. -/
structure Frame (companyId : CompanyId) (db db' : Db) : Prop
    extends RowFrame companyId db db' where
  events : db'.events = db.events

def Owns (db : Db) (customerId : Json) (company : Company) : Prop :=
  ∃ s, customerId = .str s ∧ db.companies.filter (fun c => c.stripeCustomerId = some s) = [company]

def SameRows (db db' : Db) : Prop := db'.companies = db.companies ∧ db'.accounts = db.accounts

def eventCustomer (event : Json) : Option Json :=
  ((event.item "data").bind fun data => data.item "object").bind fun object =>
    object.get "customer" .null

/-- At most the company that owns the event's customer, and its account, are changed. -/
def TenantFrame (event : Json) (db db' : Db) : Prop :=
  SameRows db db' ∨ ∃ customerId company, eventCustomer event = some customerId ∧
    Owns db customerId company ∧ RowFrame company.id db db'

/-- What a handler does: nothing, or changes of the company of the event's customer. -/
def Handled (event : Json) (db db' : Db) : Prop :=
  db' = db ∨ ∃ customerId company, eventCustomer event = some customerId ∧
    Owns db customerId company ∧ Frame company.id db db'

theorem Handled.events {event : Json} {db db' : Db} (h : Handled event db db') :
    db'.events = db.events := by
  rcases h with rfl | ⟨_, _, -, -, hframe⟩
  · rfl
  · exact hframe.events

theorem attempt_eq_ok {α : Type} {x : Option α} {a : α} : attempt x = .ok a ↔ x = some a := by
  cases x <;> simp [attempt]

theorem frame_refl (companyId : CompanyId) (db : Db) : Frame companyId db db :=
  ⟨⟨⟨id, by simp, fun _ => ⟨rfl, fun _ => rfl⟩⟩, fun _ _ => rfl⟩, rfl⟩

theorem Frame.trans {companyId : CompanyId} {db db' db'' : Db} (h : Frame companyId db db')
    (h' : Frame companyId db' db'') : Frame companyId db db'' := by
  obtain ⟨f, hf, hrow⟩ := h.companies
  obtain ⟨g, hg, hrow'⟩ := h'.companies
  refine ⟨⟨⟨g ∘ f, by rw [hg, hf, List.map_map], fun c => ⟨?_, fun hc => ?_⟩⟩, fun i hi => ?_⟩,
    h'.events.trans h.events⟩
  · exact (hrow' (f c)).1.trans (hrow c).1
  · rw [Function.comp_apply, (hrow c).2 hc, (hrow' c).2 hc]
  · rw [h'.accounts i hi, h.accounts i hi]

theorem setAccount_frame (companyId : CompanyId) (a : BillingAccount) (db : Db) :
    Frame companyId db (db.setAccount companyId a) :=
  ⟨⟨(frame_refl companyId db).companies, fun _ hi => Function.update_of_ne hi _ _⟩, rfl⟩

theorem setCompany_frame (companyId : CompanyId) (f : Company → Company) (db : Db) :
    Frame companyId db (db.setCompany companyId f) := by
  refine ⟨⟨⟨_, rfl, fun c => ⟨?_, fun hc => if_neg hc⟩⟩, fun _ _ => rfl⟩, rfl⟩
  split <;> rfl

theorem getOrCreateAccount_frame (now : Time) (companyId : CompanyId) (plan : Option String)
    (db : Db) : Frame companyId db (getOrCreateAccount now companyId plan db).2 := by
  unfold getOrCreateAccount
  split
  · exact frame_refl companyId db
  · exact setAccount_frame companyId _ db

theorem updateAccount_frame (env : HandlerEnv) (companyId : CompanyId) (plan : Option String)
    (f : BillingAccount → BillingAccount) (db : Db) :
    Frame companyId db (updateAccount env companyId plan f db) :=
  (getOrCreateAccount_frame env.now companyId plan db).trans (setAccount_frame companyId _ _)

theorem getOrCreateAccount_companies (now : Time) (companyId : CompanyId) (plan : Option String)
    (db : Db) : (getOrCreateAccount now companyId plan db).2.companies = db.companies := by
  unfold getOrCreateAccount
  split <;> rfl

theorem companyOfCustomer_eq_some {db : Db} {customerId : Json} {company : Company}
    (h : companyOfCustomer db customerId = .ok (some company)) : Owns db customerId company := by
  obtain ⟨s, hs, h⟩ := bind_eq_ok.mp h
  refine ⟨s, Json.text_eq_some.mp (attempt_eq_ok.mp hs), ?_⟩
  split at h
  · cases h
  · rename_i c hc
    obtain rfl := Option.some.inj (Except.ok.inj h)
    exact hc
  · cases h

theorem lockCompany_eq_ok {env : HandlerEnv} {db : Db} {customerId : Json} {unknown : Failure}
    {company : Company} (h : lockCompany env db customerId unknown = .ok company) :
    Owns db customerId company := by
  obtain ⟨found, hfound, h⟩ := bind_eq_ok.mp h
  cases found with
  | none => cases h
  | some c =>
    change (if env.companyLocked then _ else _) = _ at h
    split at h
    · cases h
    · obtain rfl := Except.ok.inj h
      exact companyOfCustomer_eq_some hfound

theorem owns_unique {db : Db} {customerId : Json} {c company : Company}
    (h : Owns db customerId c) (h' : Owns db customerId company) : c = company := by
  obtain ⟨s, rfl, hc⟩ := h
  obtain ⟨t, ht, hcompany⟩ := h'
  obtain rfl := Json.str.inj ht
  exact List.singleton_inj.mp (hc.symm.trans hcompany)

/-- The check of the billing period creates the account at most. -/
theorem rejectPriorPeriod_eq_ok {env : HandlerEnv} {event customerId : Json} {db db' : Db}
    (h : rejectPriorPeriod env event customerId db = .ok db') :
    db' = db ∨ ∃ company, Owns db customerId company ∧
      db' = (getOrCreateAccount env.now company.id company.subscriptionPlan db).2 := by
  obtain ⟨created, -, h⟩ := bind_eq_ok.mp h
  split at h
  · obtain ⟨time, -, h⟩ := bind_eq_ok.mp h
    obtain ⟨found, hfound, h⟩ := bind_eq_ok.mp h
    cases found with
    | none => exact .inl (Except.ok.inj h).symm
    | some c =>
      obtain ⟨-, -, h⟩ := bind_eq_ok.mp h
      exact .inr ⟨c, companyOfCustomer_eq_some hfound, (Except.ok.inj h).symm⟩
  · exact .inl (Except.ok.inj h).symm

/-- The rows that a checkout finds for the company after the check of the billing period. -/
def Checked (now : Time) (company : Company) (db checked : Db) : Prop :=
  checked = db ∨ checked = (getOrCreateAccount now company.id company.subscriptionPlan db).2

theorem Checked.frame {now : Time} {company : Company} {db checked : Db}
    (h : Checked now company db checked) : Frame company.id db checked := by
  rcases h with rfl | rfl
  · exact frame_refl _ _
  · exact getOrCreateAccount_frame _ _ _ _

theorem Checked.companies {now : Time} {company : Company} {db checked : Db}
    (h : Checked now company db checked) : checked.companies = db.companies := by
  rcases h with rfl | rfl
  · rfl
  · exact getOrCreateAccount_companies _ _ _ _

/-- The company that a checkout locks is the one it has checked. -/
theorem checked_of_lockCompany {env : HandlerEnv} {event customerId : Json} {db checked : Db}
    {unknown : Failure} {company : Company}
    (hchecked : rejectPriorPeriod env event customerId db = .ok checked)
    (hcompany : lockCompany env checked customerId unknown = .ok company) :
    Owns db customerId company ∧ Checked env.now company db checked := by
  have howns := lockCompany_eq_ok hcompany
  rcases rejectPriorPeriod_eq_ok hchecked with rfl | ⟨c, hc, rfl⟩
  · exact ⟨howns, .inl rfl⟩
  · have howns' : Owns db customerId company := by
      simpa only [Owns, getOrCreateAccount_companies] using howns
    obtain rfl := owns_unique hc howns'
    exact ⟨howns', .inr rfl⟩

theorem eventCustomer_eq_some {event object customerId : Json} (ho : eventObject event = .ok object)
    (hc : attempt (object.get "customer" .null) = .ok customerId) :
    eventCustomer event = some customerId := by
  rw [eventCustomer, attempt_eq_ok.mp ho, Option.bind_some]
  exact attempt_eq_ok.mp hc

/-! ## Every handler keeps the frame -/

section
variable {env : HandlerEnv} {event : Json} {db db' : Db}

theorem checkoutSessionCompleted_handled (h : checkoutSessionCompleted env event db = .ok db') :
    Handled event db db' := by
  simp only [checkoutSessionCompleted, bind_eq_ok] at h
  obtain ⟨session, hsession, metadata, -, metadataCompanyId, -, customerId, hcustomer,
    subscriptionId, -, plan, -, -, -, -, -, -, -, checked, hchecked, company, hcompany,
    -, -, plan', -, subscription, -, -, -, h⟩ := h
  obtain rfl := Except.ok.inj h
  obtain ⟨howns, hchecked⟩ := checked_of_lockCompany hchecked hcompany
  exact .inr ⟨customerId, company, eventCustomer_eq_some hsession hcustomer, howns,
    hchecked.frame.trans ((setCompany_frame _ _ _).trans (updateAccount_frame _ _ _ _ _))⟩

theorem subscriptionDeleted_handled (h : subscriptionDeleted env event db = .ok db') :
    Handled event db db' := by
  simp only [subscriptionDeleted, bind_eq_ok] at h
  obtain ⟨object, hobject, customerId, hcustomer, subscriptionId, -, metadata, -,
    metadataCompanyId, -, -, -, -, -, company, hcompany, -, -, -, -, -, -, h⟩ := h
  obtain rfl := Except.ok.inj h
  exact .inr ⟨customerId, company, eventCustomer_eq_some hobject hcustomer,
    lockCompany_eq_ok hcompany,
    (setCompany_frame _ _ _).trans (updateAccount_frame _ _ _ _ _)⟩

theorem invoicePayment_handled {write : BillingAccount → BillingAccount}
    (h : invoicePayment write env event db = .ok db') : Handled event db db' := by
  simp only [invoicePayment, bind_eq_ok] at h
  obtain ⟨object, hobject, customerId, hcustomer, -, -, company, hcompany, -, -, h⟩ := h
  obtain rfl := Except.ok.inj h
  exact .inr ⟨customerId, company, eventCustomer_eq_some hobject hcustomer,
    lockCompany_eq_ok hcompany, updateAccount_frame _ _ _ _ _⟩

theorem handleEvent_handled {eventType : String} (h : handleEvent env eventType event db = .ok db') :
    Handled event db db' := by
  unfold handleEvent at h
  split_ifs at h
  · exact checkoutSessionCompleted_handled h
  · exact subscriptionDeleted_handled h
  · exact invoicePayment_handled h
  · exact invoicePayment_handled h
  · exact .inl (Except.ok.inj h).symm

end

theorem processWebhook_frame {digest : Json → Json → String} {env : Env} {event : Json}
    {s : Stores} {deduplicated : Bool} {db : Db}
    (h : (processWebhook digest env event s).1 = .ok (deduplicated, db)) :
    TenantFrame event s.db db := by
  simp only [processWebhook] at h
  split at h
  · cases h
  · rename_i id eventType _
    split at h
    · obtain ⟨-, rfl⟩ := Prod.mk.inj (Except.ok.inj h)
      exact .inl ⟨rfl, rfl⟩
    · split at h
      · obtain ⟨-, rfl⟩ := Prod.mk.inj (Except.ok.inj h)
        exact .inl ⟨rfl, rfl⟩
      · -- the event's own row is added before the handler runs, which reads no such row
        cases hdb : applyEvent env eventType event (s.db.recordEvent id) with
        | error f =>
          rw [hdb] at h
          cases h
        | ok db' =>
          rw [hdb] at h
          obtain ⟨-, rfl⟩ := Prod.mk.inj (Except.ok.inj h)
          obtain ⟨-, -, hhandle⟩ := bind_eq_ok.mp hdb
          rcases handleEvent_handled hhandle with hsame | ⟨customerId, company, hc, howns, hframe⟩
          · exact .inl ⟨by rw [hsame]; rfl, by rw [hsame]; rfl⟩
          · exact .inr ⟨customerId, company, hc, howns, ⟨hframe.companies, hframe.accounts⟩⟩

/-- A delivery changes at most the company of the event's customer and its account; one
that is answered with an error changes no row. -/
theorem deliver_tenantFrame (digest : Json → Json → String) (env : Env) (event : Json)
    (s : Stores) :
    TenantFrame event s.db (deliver digest env event s).2.db ∧
      ((deliver digest env event s).1.isSuccess = false →
        (deliver digest env event s).2.db = s.db) := by
  unfold deliver
  split
  · rename_i deduplicated db keys hp
    split
    · have hok : (processWebhook digest env event s).1 = .ok (deduplicated, db) := by rw [hp]
      exact ⟨processWebhook_frame hok, fun h => (by cases h)⟩
    · exact ⟨.inl ⟨rfl, rfl⟩, fun _ => rfl⟩
  · exact ⟨.inl ⟨rfl, rfl⟩, fun _ => rfl⟩
  · exact ⟨.inl ⟨rfl, rfl⟩, fun _ => rfl⟩

end WorkTicket.Billing.StripeWebhook
