import WorkTicket.Foundation.Transition
import WorkTicket.Billing.StripeWebhook

/-! The plan of a company stands in its own row and in its account, and the account's quota
is the plan's: the operations that create or change these, one committed transaction each. -/

namespace WorkTicket.Billing.PlanAgreement

open WorkTicket.Fallible WorkTicket.Transition WorkTicket.Billing.StripeWebhook

/-! ## The quota engine and the account routes -/

/-- The four methods of the engine that create the account they miss, on plan `free`. -/
inductive EngineCall
  | checkAndReserve (estimatedCostUsd : ℚ) (overDailyLimit : Bool)
  | checkQuota
  | checkDailySpend
  | getUsageSummary

def EngineCall.write (call : EngineCall) (a : BillingAccount) : BillingAccount :=
  match call with
  | .checkAndReserve estimatedCostUsd overDailyLimit =>
    match admissionDenial a estimatedCostUsd overDailyLimit with
    | some _ => a
    | none => { reserveWrite estimatedCostUsd a a with version := a.version + 1 }
  | _ => a

def writeAccount (now : Time) (companyId : CompanyId) (plan : Option String)
    (write : BillingAccount → BillingAccount) (db : Db) : Db :=
  let found := getOrCreateAccount now companyId plan db
  found.2.setAccount companyId (write found.1)

def companyById (db : Db) (companyId : CompanyId) : Option Company :=
  db.companies.find? (·.id = companyId)

def getBillingAccount (now : Time) (companyId : CompanyId) (db : Db) : Db :=
  let plan := match companyById db companyId with
    | some company => company.subscriptionPlan
    | none => some "free"
  (getOrCreateAccount now companyId plan db).2

/-- A subscription as Stripe or the cache gives it: the entry `plan`, and the price of
every item. -/
structure Subscription where
  plan : Option Json
  priceIds : List String

/-- `subscription` is what Stripe answers, or nothing when its circuit is open or the call
fails; `cached` is the cached one. -/
structure ChangeEnv where
  now : Time
  subscription : Option Subscription
  circuitAvailable : Bool
  cached : Option Subscription
  priceMap : List (String × String)
  flushOk : Bool

/-- The last plan in the price map that has the price of an item. -/
def planOfPrices (priceMap : List (String × String)) (priceIds : List String) : String :=
  priceIds.foldl (fun plan price =>
    priceMap.foldl (fun plan entry => if entry.2 = price then entry.1 else plan) plan) "free"

def currentStripePlan (env : ChangeEnv) (s : Subscription) : Json :=
  match s.plan with
  | some plan => if plan.text = some "unknown" then .str (planOfPrices env.priceMap s.priceIds)
    else plan
  | none => .str (planOfPrices env.priceMap s.priceIds)

def stripeSubscription (env : ChangeEnv) : Except Failure Subscription := do
  require (env.circuitAvailable || env.cached.isSome)
    (.http 502 "Stripe API temporarily unavailable")
  match env.subscription, env.cached with
  | some s, _ => .ok s
  | none, some s => .ok s
  | none, none => .error (.http 502 "Failed to verify subscription with Stripe")

def invalidPlan : Failure :=
  .http 400 ("Invalid plan. Must be one of: " ++ ", ".intercalate (planTiers.map Prod.fst))

def throughStripe : Failure :=
  .http 400 ("Plan changes must be processed through Stripe. Use the checkout endpoint for " ++
    "upgrades or contact support for downgrades.")

def planMismatch : Failure :=
  .http 400 "Plan does not match Stripe subscription. Update your Stripe subscription first."

def changePlan (env : ChangeEnv) (companyId : CompanyId) (plan : String) (db : Db) :
    Except Failure Db := do
  require (planTiers.lookup plan).isSome invalidPlan
  let company := companyById db companyId
  require (company.any fun c => c.stripeSubscriptionId.getD "" ≠ "") throughStripe
  let subscription ← stripeSubscription env
  require ((currentStripePlan env subscription).text = some plan) planMismatch
  require env.flushOk .exception
  let db := db.setCompany companyId fun c => { c with subscriptionPlan := some plan }
  .ok (writeAccount env.now companyId (some plan) (applyPlan freeTier (some plan)) db)

/-! ## Operations -/

inductive Op
  | engine (now : Time) (companyId : CompanyId) (call : EngineCall)
  | getBillingAccount (now : Time) (companyId : CompanyId)
  | changePlan (env : ChangeEnv) (companyId : CompanyId) (plan : String)
  | webhook (env : HandlerEnv) (eventType : String) (event : Json)

/-- An operation that commits; the requests come from users of an existing company. -/
def step (db : Db) : Op → Option Db
  | .engine now companyId call =>
    if (companyById db companyId).isSome then
      some (writeAccount now companyId (some "free") call.write db)
    else none
  | .getBillingAccount now companyId =>
    if (companyById db companyId).isSome then some (getBillingAccount now companyId db) else none
  | .changePlan env companyId plan => (changePlan env companyId plan db).toOption
  | .webhook env eventType event => (handleEvent env eventType event db).toOption

def handledTypes : List String :=
  ["checkout.session.completed", "customer.subscription.deleted", "invoice.payment_failed",
    "invoice.payment_succeeded"]

/-- The company whose account the operation creates or changes. -/
def Op.IsOf (db : Db) (companyId : CompanyId) : Op → Prop
  | .engine _ i _ => i = companyId
  | .getBillingAccount _ i => i = companyId
  | .changePlan _ i _ => i = companyId
  | .webhook _ eventType event => eventType ∈ handledTypes ∧ ∃ customerId company,
    eventCustomer event = some customerId ∧ Owns db customerId company ∧ company.id = companyId

def start (companies : List Company) : Db := ⟨companies, fun _ => none, []⟩

/-- The quota is that of the plan, which is one of `PLAN_TIERS`. -/
def HasTier (a : BillingAccount) : Prop :=
  ∃ plan tier, a.plan = some plan ∧ planTiers.lookup plan = some tier ∧
    a.monthlyQuotaAcu = tier.quotaAcu

def Agrees (company : Company) (a : BillingAccount) : Prop :=
  a.plan = company.subscriptionPlan ∧ HasTier a

/-- Every account there is agrees with its company. -/
def PlansAgree (db : Db) : Prop :=
  ∀ company ∈ db.companies, ∀ a, db.accounts company.id = some a → Agrees company a

def knownPlan (plan : Option String) : Bool := plan.any fun p => (planTiers.lookup p).isSome

/-- An account that is missing would be created with one of the plans. -/
def createsKnown (db : Db) (companyId : CompanyId) : Bool :=
  (db.accounts companyId).isSome || (companyById db companyId).all (knownPlan ·.subscriptionPlan)

/-- The plan of a checkout's metadata. -/
def checkoutPlan (event : Json) : Option (Option String) := do
  let session ← (event.item "data").bind fun data => data.item "object"
  let metadata ← session.get "metadata" (.obj [])
  let plan ← metadata.get "plan" (.str "pro")
  (planOf plan).toOption

/-- The engine creates accounts only for companies on plan `free`, a checkout names one of
the plans, and an invoice or the account route creates an account with one of them. -/
def KnownPlans (db : Db) : Op → Bool
  | .engine _ companyId _ =>
    (db.accounts companyId).isSome ||
      (companyById db companyId).all (·.subscriptionPlan = some "free")
  | .getBillingAccount _ companyId => createsKnown db companyId
  | .changePlan _ _ _ => true
  | .webhook _ eventType event =>
    if eventType = "checkout.session.completed" then (checkoutPlan event).all knownPlan
    else if eventType = "customer.subscription.deleted" then true
    else db.companies.all fun c =>
      c.stripeCustomerId ≠ (eventCustomer event).bind Json.text || createsKnown db c.id

/-! ## Accounts and their tiers -/

theorem knownPlan_iff {plan : Option String} : knownPlan plan = true ↔
    ∃ p tier, plan = some p ∧ planTiers.lookup p = some tier := by
  simp [knownPlan, Option.any_eq_true, Option.isSome_iff_exists]

theorem hasTier_of_known {default : Tier} {plan : Option String} {a : BillingAccount}
    (hknown : knownPlan plan = true) (hplan : a.plan = plan)
    (hquota : a.monthlyQuotaAcu = (tierOr default plan).quotaAcu) : HasTier a := by
  obtain ⟨p, tier, rfl, htier⟩ := knownPlan_iff.mp hknown
  refine ⟨p, tier, hplan, htier, ?_⟩
  rw [hquota, tierOr, Option.bind_some, htier, Option.getD_some]

def KeepsPlan (write : BillingAccount → BillingAccount) : Prop :=
  ∀ a, (write a).plan = a.plan ∧ (write a).monthlyQuotaAcu = a.monthlyQuotaAcu

theorem Agrees.write {company : Company} {a : BillingAccount} (h : Agrees company a)
    {write : BillingAccount → BillingAccount} (hkeeps : KeepsPlan write) :
    Agrees company (write a) := by
  obtain ⟨hplan, plan, tier, hp, htier, hquota⟩ := h
  obtain ⟨hsame, hsameQuota⟩ := hkeeps a
  exact ⟨hsame.trans hplan, plan, tier, hsame.trans hp, htier, hsameQuota.trans hquota⟩

theorem keepsPlan_engineCall (call : EngineCall) : KeepsPlan call.write := by
  intro a
  cases call with
  | checkAndReserve estimatedCostUsd overDailyLimit =>
    simp only [EngineCall.write]
    split <;> exact ⟨rfl, rfl⟩
  | _ => exact ⟨rfl, rfl⟩

theorem keepsPlan_disableAi : KeepsPlan disableAi := fun _ => ⟨rfl, rfl⟩

theorem keepsPlan_enableAi : KeepsPlan enableAi := by
  intro a
  unfold enableAi
  split <;> exact ⟨rfl, rfl⟩

section
variable {db db' : Db} {now : Time} {companyId : CompanyId} {plan : Option String}
  {write : BillingAccount → BillingAccount}

theorem writeAccount_account : (writeAccount now companyId plan write db).accounts companyId =
    some (write ((db.accounts companyId).getD (newAccount now companyId plan))) := by
  unfold writeAccount getOrCreateAccount
  cases h : db.accounts companyId <;> simp [Db.setAccount]

theorem writeAccount_frame : Frame companyId db (writeAccount now companyId plan write db) :=
  (getOrCreateAccount_frame now companyId plan db).trans (setAccount_frame companyId _ _)

theorem writeAccount_companies :
    (writeAccount now companyId plan write db).companies = db.companies :=
  getOrCreateAccount_companies now companyId plan db

/-- Creating an account is writing nothing to it. -/
theorem getOrCreateAccount_eq_writeAccount :
    (getOrCreateAccount now companyId plan db).2 = writeAccount now companyId plan id db := by
  unfold writeAccount getOrCreateAccount
  cases h : db.accounts companyId with
  | none => simp [Db.setAccount]
  | some a => simp [Db.setAccount, ← h]

theorem PlansAgree.of_frame (h : PlansAgree db) (hframe : Frame companyId db db')
    (hrow : ∀ company ∈ db'.companies, company.id = companyId → ∀ a,
      db'.accounts companyId = some a → Agrees company a) : PlansAgree db' := by
  intro company hcompany a ha
  by_cases hid : company.id = companyId
  · exact hrow company hcompany hid a (hid ▸ ha)
  · obtain ⟨f, hf, hrest⟩ := hframe.companies
    rw [hf] at hcompany
    obtain ⟨c, hc, rfl⟩ := List.mem_map.mp hcompany
    rw [(hrest c).1] at hid ha
    rw [(hrest c).2 hid]
    rw [hframe.accounts c.id hid] at ha
    exact h c hc a ha

/-- An account that is there keeps its plan, and a new one gets the company's. -/
theorem PlansAgree.writeAccount (h : PlansAgree db) (hkeeps : KeepsPlan write)
    (hnew : db.accounts companyId = none → ∀ company ∈ db.companies, company.id = companyId →
      company.subscriptionPlan = plan ∧ knownPlan plan = true) :
    PlansAgree (writeAccount now companyId plan write db) := by
  refine h.of_frame writeAccount_frame fun company hcompany hid a ha => ?_
  rw [writeAccount_companies] at hcompany
  rw [writeAccount_account, Option.some.injEq] at ha
  subst ha
  cases hold : db.accounts companyId with
  | some a => exact (h company hcompany a (hid ▸ hold)).write hkeeps
  | none =>
    obtain ⟨hplan, hknown⟩ := hnew hold company hcompany hid
    have hagrees : Agrees company (newAccount now companyId plan) :=
      ⟨hplan.symm, hasTier_of_known hknown rfl rfl⟩
    exact hagrees.write hkeeps

/-- All copies of the plan are replaced, whatever they were. -/
theorem PlansAgree.replan (h : PlansAgree db) (hframe : Frame companyId db db')
    {default : Tier} {f : Company → Company} (hf : ∀ c, (f c).subscriptionPlan = plan)
    (hknown : knownPlan plan = true) :
    PlansAgree (PlanAgreement.writeAccount now companyId plan (applyPlan default plan)
      (db'.setCompany companyId f)) := by
  refine h.of_frame ((hframe.trans (setCompany_frame companyId f db')).trans writeAccount_frame)
    fun company hcompany hid a ha => ?_
  rw [writeAccount_companies] at hcompany
  obtain ⟨c, -, rfl⟩ := List.mem_map.mp hcompany
  rw [writeAccount_account, Option.some.injEq] at ha
  subst ha
  have hplan : (if c.id = companyId then { f c with id := c.id } else c).subscriptionPlan = plan := by
    split at hid
    · rename_i hc
      rw [if_pos hc]
      exact hf c
    · rename_i hc
      exact absurd hid hc
  exact ⟨hplan.symm, hasTier_of_known hknown rfl rfl⟩

/-! ## Operations -/

theorem companyById_eq (hkeys : (db.companies.map Company.id).Nodup) {company : Company}
    (hcompany : company ∈ db.companies) : companyById db company.id = some company := by
  cases hfound : companyById db company.id with
  | none => simpa using List.find?_eq_none.mp hfound company hcompany
  | some c =>
    have hid : c.id = company.id := by simpa using List.find?_some hfound
    rw [List.inj_on_of_nodup_map hkeys (List.mem_of_find?_eq_some hfound) hcompany hid]

theorem createsKnown_new {company : Company} (hkeys : (db.companies.map Company.id).Nodup)
    (hcompany : company ∈ db.companies) (hknown : createsKnown db company.id = true)
    (hnone : db.accounts company.id = none) : knownPlan company.subscriptionPlan = true := by
  simpa [createsKnown, hnone, companyById_eq hkeys hcompany] using hknown

theorem engine_agrees (h : PlansAgree db) (hkeys : (db.companies.map Company.id).Nodup)
    {call : EngineCall} (hok : KnownPlans db (.engine now companyId call) = true) :
    PlansAgree (writeAccount now companyId (some "free") call.write db) := by
  refine h.writeAccount (keepsPlan_engineCall call) fun hnone company hcompany hid => ?_
  subst hid
  rw [KnownPlans, hnone, companyById_eq hkeys hcompany] at hok
  exact ⟨by simpa using hok, by decide⟩

theorem getBillingAccount_agrees (h : PlansAgree db) (hkeys : (db.companies.map Company.id).Nodup)
    (hok : createsKnown db companyId = true) :
    PlansAgree (getBillingAccount now companyId db) := by
  rw [getBillingAccount, getOrCreateAccount_eq_writeAccount]
  refine h.writeAccount (fun _ => ⟨rfl, rfl⟩) fun hnone company hcompany hid => ?_
  subst hid
  rw [companyById_eq hkeys hcompany]
  exact ⟨rfl, createsKnown_new hkeys hcompany hok hnone⟩

theorem require_eq_ok {ok : Bool} {f : Failure} {u : Unit} :
    require ok f = .ok u ↔ ok = true := by
  cases ok <;> simp [require]

theorem changePlan_result {env : ChangeEnv} {name : String}
    (h : changePlan env companyId name db = .ok db') :
    (planTiers.lookup name).isSome = true ∧
      db' = writeAccount env.now companyId (some name) (applyPlan freeTier (some name))
        (db.setCompany companyId fun c => { c with subscriptionPlan := some name }) := by
  simp only [changePlan, bind_eq_ok] at h
  obtain ⟨_, hknown, _, -, subscription, -, _, -, _, -, h⟩ := h
  exact ⟨require_eq_ok.mp hknown, (Except.ok.inj h).symm⟩

variable {env : HandlerEnv} {event : Json}

theorem checkout_result (h : checkoutSessionCompleted env event db = .ok db') :
    ∃ customerId company plan, eventCustomer event = some customerId ∧
      Owns db customerId company ∧ checkoutPlan event = some plan ∧
      ∃ checked f, Checked env.now company db checked ∧
        (∀ c, (f c).subscriptionPlan = plan ∧ (f c).stripeCustomerId = customerId.text) ∧
        db' = writeAccount env.now company.id plan (applyPlan proTier plan)
          (checked.setCompany company.id f) := by
  simp only [checkoutSessionCompleted, bind_eq_ok] at h
  obtain ⟨session, hsession, metadata, hmetadata, metadataCompanyId, -, customerId, hcustomer,
    subscriptionId, -, plan, hplan, -, -, -, -, -, -, checked, hchecked, company, hcompany,
    -, -, plan', hplan', subscription, -, -, -, h⟩ := h
  obtain ⟨howns, hchecked⟩ := checked_of_lockCompany hchecked hcompany
  refine ⟨customerId, company, plan', eventCustomer_eq_some hsession hcustomer, howns, ?_,
    checked, _, hchecked, fun c => ⟨rfl, rfl⟩, (Except.ok.inj h).symm⟩
  simp only [checkoutPlan, attempt_eq_ok.mp hsession, attempt_eq_ok.mp hmetadata,
    attempt_eq_ok.mp hplan, Option.bind_eq_bind, Option.bind_some, hplan', Except.toOption]

theorem deletion_result (h : subscriptionDeleted env event db = .ok db') :
    ∃ customerId company, eventCustomer event = some customerId ∧ Owns db customerId company ∧
      ∃ f, (∀ c, (f c).subscriptionPlan = some "free" ∧
          (f c).stripeCustomerId = c.stripeCustomerId) ∧
        db' = writeAccount env.now company.id (some "free") (applyPlan freeTier (some "free"))
          (db.setCompany company.id f) := by
  simp only [subscriptionDeleted, bind_eq_ok] at h
  obtain ⟨object, hobject, customerId, hcustomer, subscriptionId, -, metadata, -,
    metadataCompanyId, -, -, -, -, -, company, hcompany, -, -, -, -, -, -, h⟩ := h
  exact ⟨customerId, company, eventCustomer_eq_some hobject hcustomer, lockCompany_eq_ok hcompany,
    fun c => { c with subscriptionPlan := some "free", stripeSubscriptionId := none },
    fun c => ⟨rfl, rfl⟩, (Except.ok.inj h).symm⟩

theorem invoice_result (h : invoicePayment write env event db = .ok db') :
    ∃ customerId company, eventCustomer event = some customerId ∧ Owns db customerId company ∧
      db' = writeAccount env.now company.id company.subscriptionPlan write db := by
  simp only [invoicePayment, bind_eq_ok] at h
  obtain ⟨object, hobject, customerId, hcustomer, -, -, company, hcompany, -, -, h⟩ := h
  exact ⟨customerId, company, eventCustomer_eq_some hobject hcustomer, lockCompany_eq_ok hcompany,
    (Except.ok.inj h).symm⟩

theorem Owns.mem {customerId : Json} {company : Company} (h : Owns db customerId company) :
    company ∈ db.companies ∧ company.stripeCustomerId = customerId.text := by
  obtain ⟨t, rfl, hfilter⟩ := h
  have hmem : company ∈ db.companies.filter fun c => c.stripeCustomerId = some t :=
    hfilter ▸ List.mem_singleton_self company
  obtain ⟨hcompany, hcustomer⟩ := List.mem_filter.mp hmem
  exact ⟨hcompany, of_decide_eq_true hcustomer⟩

theorem invoice_agrees (h : PlansAgree db) (hkeys : (db.companies.map Company.id).Nodup)
    (hkeeps : KeepsPlan write) (hs : invoicePayment write env event db = .ok db')
    (hok : ∀ c ∈ db.companies, c.stripeCustomerId = (eventCustomer event).bind Json.text →
      createsKnown db c.id = true) : PlansAgree db' := by
  obtain ⟨customerId, company, hcustomer, howns, rfl⟩ := invoice_result hs
  obtain ⟨hmem, hid⟩ := Owns.mem howns
  have hknown := hok company hmem (by rw [hid, hcustomer, Option.bind_some])
  refine h.writeAccount hkeeps fun hnone c hc hsame => ?_
  obtain rfl : c = company := List.inj_on_of_nodup_map hkeys hc hmem hsame
  exact ⟨rfl, createsKnown_new hkeys hmem hknown hnone⟩

theorem webhook_agrees (h : PlansAgree db) (hkeys : (db.companies.map Company.id).Nodup)
    {eventType : String} (hs : handleEvent env eventType event db = .ok db')
    (hok : KnownPlans db (.webhook env eventType event) = true) : PlansAgree db' := by
  have hinvoice : eventType ≠ "checkout.session.completed" →
      eventType ≠ "customer.subscription.deleted" → ∀ c ∈ db.companies,
      c.stripeCustomerId = (eventCustomer event).bind Json.text → createsKnown db c.id = true := by
    intro hcheckout hdeleted c hc hcustomer
    rw [KnownPlans, if_neg hcheckout, if_neg hdeleted, List.all_eq_true] at hok
    simpa [hcustomer] using hok c hc
  unfold handleEvent at hs
  split_ifs at hs with hcheckout hdeleted hfailed hsucceeded
  · obtain ⟨customerId, company, plan, -, -, hplan, checked, f, hchecked, hf, rfl⟩ :=
      checkout_result hs
    rw [KnownPlans, if_pos hcheckout, hplan, Option.all_some] at hok
    exact h.replan hchecked.frame (fun c => (hf c).1) hok
  · obtain ⟨-, company, -, -, f, hf, rfl⟩ := deletion_result hs
    exact h.replan (frame_refl company.id db) (fun c => (hf c).1) (by decide)
  · exact invoice_agrees h hkeys keepsPlan_disableAi hs (hinvoice hcheckout hdeleted)
  · exact invoice_agrees h hkeys keepsPlan_enableAi hs (hinvoice hcheckout hdeleted)
  · exact Except.ok.inj hs ▸ h

end

section
variable {db db' : Db} {op : Op}

theorem plansAgree_step (h : PlansAgree db) (hkeys : (db.companies.map Company.id).Nodup)
    (hok : KnownPlans db op = true) (hs : step db op = some db') : PlansAgree db' := by
  cases op with
  | engine now companyId call =>
    obtain ⟨-, ⟨⟩⟩ := Option.ite_none_right_eq_some.mp hs
    exact engine_agrees h hkeys hok
  | getBillingAccount now companyId =>
    obtain ⟨-, ⟨⟩⟩ := Option.ite_none_right_eq_some.mp hs
    exact getBillingAccount_agrees h hkeys hok
  | changePlan env companyId plan =>
    obtain ⟨hknown, rfl⟩ := changePlan_result (toOption_eq_some.mp hs)
    exact h.replan (frame_refl companyId db) (fun _ => rfl) hknown
  | webhook env eventType event => exact webhook_agrees h hkeys (toOption_eq_some.mp hs) hok

theorem keys_of_frame {companyId : CompanyId} (hframe : Frame companyId db db') :
    db'.companies.map Company.id = db.companies.map Company.id := by
  obtain ⟨f, hf, hrest⟩ := hframe.companies
  rw [hf, List.map_map]
  exact List.map_congr_left fun c _ => (hrest c).1

theorem keys_step (hs : step db op = some db') :
    db'.companies.map Company.id = db.companies.map Company.id := by
  cases op with
  | engine now companyId call =>
    obtain ⟨-, ⟨⟩⟩ := Option.ite_none_right_eq_some.mp hs
    rw [writeAccount_companies]
  | getBillingAccount now companyId =>
    obtain ⟨-, ⟨⟩⟩ := Option.ite_none_right_eq_some.mp hs
    rw [getBillingAccount, getOrCreateAccount_companies]
  | changePlan env companyId plan =>
    obtain ⟨-, rfl⟩ := changePlan_result (toOption_eq_some.mp hs)
    exact keys_of_frame ((setCompany_frame _ _ _).trans writeAccount_frame)
  | webhook env eventType event =>
    obtain rfl | ⟨-, company, -, -, hframe⟩ := handleEvent_handled (toOption_eq_some.mp hs)
    · rfl
    · exact keys_of_frame hframe

/-- The company of a committed operation has an account. -/
theorem hasAccount_step (hs : step db op = some db') {companyId : CompanyId}
    (hof : op.IsOf db companyId) : ∃ a, db'.accounts companyId = some a := by
  cases op with
  | engine now i call =>
    obtain ⟨-, ⟨⟩⟩ := Option.ite_none_right_eq_some.mp hs
    obtain rfl : i = companyId := hof
    exact ⟨_, writeAccount_account⟩
  | getBillingAccount now i =>
    obtain ⟨-, ⟨⟩⟩ := Option.ite_none_right_eq_some.mp hs
    obtain rfl : i = companyId := hof
    rw [getBillingAccount, getOrCreateAccount_eq_writeAccount]
    exact ⟨_, writeAccount_account⟩
  | changePlan env i plan =>
    obtain ⟨-, rfl⟩ := changePlan_result (toOption_eq_some.mp hs)
    obtain rfl : i = companyId := hof
    exact ⟨_, writeAccount_account⟩
  | webhook env eventType event =>
    obtain ⟨htype, customerId, company, hcustomer, howns, rfl⟩ := hof
    have hsame : ∀ {customer : Json} {c : Company}, eventCustomer event = some customer →
        Owns db customer c → c = company := fun hcustomer' howns' => by
      obtain rfl := Option.some.inj (hcustomer.symm.trans hcustomer')
      exact owns_unique howns' howns
    have hhandled := toOption_eq_some.mp hs
    unfold handleEvent at hhandled
    split_ifs at hhandled with hcheckout hdeleted hfailed hsucceeded
    · obtain ⟨customer, c, plan, hc, ho, -, checked, f, -, -, rfl⟩ := checkout_result hhandled
      exact hsame hc ho ▸ ⟨_, writeAccount_account⟩
    · obtain ⟨customer, c, hc, ho, f, -, rfl⟩ := deletion_result hhandled
      exact hsame hc ho ▸ ⟨_, writeAccount_account⟩
    · obtain ⟨customer, c, hc, ho, rfl⟩ := invoice_result hhandled
      exact hsame hc ho ▸ ⟨_, writeAccount_account⟩
    · obtain ⟨customer, c, hc, ho, rfl⟩ := invoice_result hhandled
      exact hsame hc ho ▸ ⟨_, writeAccount_account⟩
    · simp [handledTypes, hcheckout, hdeleted, hfailed, hsucceeded] at htype

theorem plansAgree_start (companies : List Company) : PlansAgree (start companies) := by
  rintro company - a ⟨⟩

/-- After each operation that commits its company has an account, which agrees with it. -/
theorem agrees_of_knownPlans {companies : List Company}
    (hkeys : (companies.map Company.id).Nodup)
    (h : ReachedBy step (fun db op => KnownPlans db op) (start companies) db)
    (hok : KnownPlans db op = true) (hs : step db op = some db') {company : Company}
    (hcompany : company ∈ db'.companies) (hof : op.IsOf db company.id) :
    ∃ a, db'.accounts company.id = some a ∧ Agrees company a := by
  have hinv := h.invariant (I := fun db => PlansAgree db ∧ (db.companies.map Company.id).Nodup)
    ⟨plansAgree_start companies, hkeys⟩ fun _ _ _ hi hok hs =>
      ⟨plansAgree_step hi.1 hi.2 hok hs, keys_step hs ▸ hi.2⟩
  obtain ⟨a, ha⟩ := hasAccount_step hs hof
  exact ⟨a, ha, plansAgree_step hinv.1 hinv.2 hok hs company hcompany a ha⟩

end

/-! ## A company with a subscription -/

def company (plan : String) : Company := ⟨7, some plan, some "cus_1", some "sub_1"⟩

def checkout (plan : String) : Json :=
  .obj [("data", .obj [("object", .obj [("customer", .str "cus_1"),
    ("subscription", .str "sub_1"), ("metadata", .obj [("plan", .str plan)])])])]

def ready : HandlerEnv := ⟨0, true, fun _ => some (some "cus_1"), false, true, true⟩

def upgraded : Db :=
  (runWhile step (fun db op => KnownPlans db op) (start [company "free"])
    [.engine 0 7 (.checkAndReserve (1 / 100) false),
      .webhook ready "checkout.session.completed" (checkout "business")]).get (by decide)

def shown : Db := (step upgraded (.getBillingAccount 5 7)).get (by decide)

theorem agrees_upgraded :
    ∃ a, shown.accounts 7 = some a ∧ Agrees (company "business") a := by
  have hreached : ReachedBy step (fun db op => KnownPlans db op) (start [company "free"])
      upgraded := ReachedBy.of_runWhile (Option.some_get _).symm
  have hshown : step upgraded (.getBillingAccount 5 7) = some shown := (Option.some_get _).symm
  have hcompany : company "business" ∈ shown.companies := by decide
  exact agrees_of_knownPlans (by decide) hreached (by decide) hshown hcompany rfl

/-- The usage summary of a company on plan `pro` that has no account yet. -/
def summaryOfPro : Db :=
  (step (start [company "pro"]) (.engine 0 7 .getUsageSummary)).get (by decide)

/-- The account it creates is on plan `free`. -/
theorem summaryOfPro_disagrees :
    step (start [company "pro"]) (.engine 0 7 .getUsageSummary) = some summaryOfPro ∧
      company "pro" ∈ summaryOfPro.companies ∧
      ¬ ∃ a, summaryOfPro.accounts 7 = some a ∧ Agrees (company "pro") a := by
  refine ⟨(Option.some_get _).symm, by decide, ?_⟩
  rintro ⟨a, ha, hplan, -⟩
  have hcreated : (summaryOfPro.accounts 7).map BillingAccount.plan = some (some "free") := by
    decide
  rw [ha, Option.map_some, hplan] at hcreated
  exact absurd hcreated (by decide)

end WorkTicket.Billing.PlanAgreement
