import WorkTicket.Billing.PlanAgreement
import WorkTicket.Billing.WebhookDelivery
import WorkTicket.Foundation.LastWriter

/-! The subscription and invoice events of one customer in the order in which they are delivered,
which need not be that of their timestamps. -/

namespace WorkTicket.Billing.EventOrder

open WorkTicket.Fallible WorkTicket.Transition WorkTicket.LastWriter
open WorkTicket.Billing.StripeWebhook WorkTicket.Billing.PlanAgreement

/-! ## Deliveries -/

/-- A delivery that is answered with success, and not as a duplicate. -/
def step (digest : Json → Json → String) (s : Stores) (d : Env × Json) : Option Stores :=
  match deliver digest d.1 d.2 s with
  | (.received false, s') => some s'
  | _ => none

def createdAt (event : Json) : ℚ := ((event.get "created" (.num 0)).bind Json.number).getD 0

def eventType (event : Json) : Option String := (event.item "type").bind Json.text

/-- The plan that a subscription event sets. -/
def planOfEvent (event : Json) : Option (Option String) :=
  if eventType event = some "checkout.session.completed" then checkoutPlan event
  else if eventType event = some "customer.subscription.deleted" then some (some "free")
  else none

/-- Whether the payment that an invoice event is about has failed. -/
def paymentFailed (event : Json) : Option Bool :=
  if eventType event = some "invoice.payment_failed" then some true
  else if eventType event = some "invoice.payment_succeeded" then some false
  else none

/-! ## What is claimed -/

structure Standing where
  subscriptionPlan : Option String
  plan : Option String
  monthlyQuotaAcu : ℚ
  aiDisabled : Bool
  aiDisabledReason : Option String
  deriving DecidableEq, Repr

def standingWith (subscriptionPlan : Option String) (a : BillingAccount) : Standing :=
  ⟨subscriptionPlan, a.plan, a.monthlyQuotaAcu, a.aiDisabled, a.aiDisabledReason⟩

/-- A company without an account stands as with a new one. -/
def standing (db : Db) (company : Company) : Standing :=
  standingWith company.subscriptionPlan
    ((db.accounts company.id).getD (newAccount 0 company.id company.subscriptionPlan))

/-- AI is disabled for another reason than a failed payment. -/
def Standing.otherwiseDisabled (s : Standing) : Bool :=
  s.aiDisabled && s.aiDisabledReason ≠ some "payment_failed"

def quotaOf (plan : Option String) : ℚ := (tierOr proTier plan).quotaAcu

/-- The subscription plan, the account's plan and quota, and whether AI is disabled. -/
structure Outcome where
  subscriptionPlan : Option String
  plan : Option String
  monthlyQuotaAcu : ℚ
  aiDisabled : Bool
  deriving DecidableEq, Repr

def Standing.outcome (s : Standing) : Outcome :=
  ⟨s.subscriptionPlan, s.plan, s.monthlyQuotaAcu, s.aiDisabled⟩

/-- A payment leaves AI disabled that is disabled for another reason, unless a failed payment has
taken the place of that reason. -/
def disabledAfter (events : List Json) (s : Standing) : Bool → Bool
  | true => true
  | false => s.otherwiseDisabled && events.all fun e => paymentFailed e ≠ some true

/-- What the event with the latest timestamp of each kind determines. -/
def determined (events : List Json) (s : Standing) : Outcome :=
  let plan := latestWritten createdAt planOfEvent events
  { subscriptionPlan := plan.getD s.subscriptionPlan
    plan := plan.getD s.plan
    monthlyQuotaAcu := (plan.map quotaOf).getD s.monthlyQuotaAcu
    aiDisabled := ((latestWritten createdAt paymentFailed events).map
      (disabledAfter events s)).getD s.aiDisabled }

/-- The order ends with the plan of the latest subscription event, and with an invoice event of the
same type as the latest one. -/
structure InOrder (events order : List Json) : Prop where
  plan : lastWritten planOfEvent order = latestWritten createdAt planOfEvent events
  payment : lastWritten paymentFailed order = latestWritten createdAt paymentFailed events

/-- The events of one customer, in an order in which they can all be delivered. -/
structure Delivered (digest : Json → Json → String) (customerId : Json) (events : List Json)
    (l : List (Env × Json)) (s s' : Stores) : Prop where
  keys : (s.db.companies.map Company.id).Nodup
  customer : ∀ e ∈ events, eventCustomer e = some customerId
  created : (events.map createdAt).Nodup
  order : (l.map Prod.snd).Perm events
  run : run (step digest) s l = some s'

/-! ## What an event does -/

def Standing.replan (s : Standing) : Option (Option String) → Standing
  | some plan => { s with subscriptionPlan := plan, plan := plan, monthlyQuotaAcu := quotaOf plan }
  | none => s

def Standing.pay (s : Standing) : Option Bool → Standing
  | some true => { s with aiDisabled := true, aiDisabledReason := some "payment_failed" }
  | some false =>
    if s.aiDisabled && s.aiDisabledReason = some "payment_failed" then
      { s with aiDisabled := false, aiDisabledReason := none }
    else s
  | none => s

/-- The effect of an event on where the company stands. -/
def Standing.apply (s : Standing) (event : Json) : Standing :=
  (s.pay (paymentFailed event)).replan (planOfEvent event)

section
variable (s : Standing) (event : Json)

theorem pay_frame (failed : Option Bool) : (s.pay failed).subscriptionPlan = s.subscriptionPlan ∧
    (s.pay failed).plan = s.plan ∧ (s.pay failed).monthlyQuotaAcu = s.monthlyQuotaAcu := by
  rcases failed with _ | _ | _
  · exact ⟨rfl, rfl, rfl⟩
  · simp only [Standing.pay]
    split <;> exact ⟨rfl, rfl, rfl⟩
  · exact ⟨rfl, rfl, rfl⟩

/-- A payment lifts its own reason only. -/
theorem pay_false : (s.pay (some false)).aiDisabled = s.otherwiseDisabled ∧
    (s.pay (some false)).otherwiseDisabled = s.otherwiseDisabled := by
  obtain ⟨subscriptionPlan, plan, quota, disabled, reason⟩ := s
  cases disabled with
  | false => exact ⟨rfl, rfl⟩
  | true =>
    by_cases hreason : reason = some "payment_failed"
    · simp [Standing.pay, Standing.otherwiseDisabled, hreason]
    · simp [Standing.pay, Standing.otherwiseDisabled, hreason]

theorem replan_frame (plan : Option (Option String)) : (s.replan plan).aiDisabled = s.aiDisabled ∧
    (s.replan plan).otherwiseDisabled = s.otherwiseDisabled := by
  cases plan <;> exact ⟨rfl, rfl⟩

theorem apply_subscriptionPlan :
    (s.apply event).subscriptionPlan = (planOfEvent event).getD s.subscriptionPlan := by
  rw [← (pay_frame s (paymentFailed event)).1, Standing.apply]
  cases planOfEvent event <;> rfl

theorem apply_plan : (s.apply event).plan = (planOfEvent event).getD s.plan := by
  rw [← (pay_frame s (paymentFailed event)).2.1, Standing.apply]
  cases planOfEvent event <;> rfl

theorem apply_monthlyQuotaAcu : (s.apply event).monthlyQuotaAcu =
    ((planOfEvent event).map quotaOf).getD s.monthlyQuotaAcu := by
  rw [← (pay_frame s (paymentFailed event)).2.2, Standing.apply]
  cases planOfEvent event <;> rfl

theorem apply_aiDisabled : (s.apply event).aiDisabled =
    ((paymentFailed event).map fun failed => failed || s.otherwiseDisabled).getD s.aiDisabled := by
  rw [Standing.apply, (replan_frame _ _).1]
  rcases paymentFailed event with _ | _ | _
  · rfl
  · exact (pay_false s).1
  · rfl

theorem apply_otherwiseDisabled : (s.apply event).otherwiseDisabled =
    (s.otherwiseDisabled && paymentFailed event ≠ some true) := by
  rw [Standing.apply, (replan_frame _ _).2]
  rcases paymentFailed event with _ | _ | _
  · simp [Standing.pay]
  · simpa using (pay_false s).2
  · simp [Standing.pay, Standing.otherwiseDisabled]

/-! ## Events one after the other -/

variable (events : List Json)

theorem foldl_otherwiseDisabled : (events.foldl Standing.apply s).otherwiseDisabled =
    (s.otherwiseDisabled && events.all fun e => paymentFailed e ≠ some true) := by
  induction events using List.reverseRecOn with
  | nil => simp
  | append_singleton events event ih =>
    rw [List.foldl_concat, apply_otherwiseDisabled, ih, List.all_append]
    simp [Bool.and_assoc]

/-- The last invoice event decides, with the reason that it finds. -/
theorem foldl_aiDisabled : (events.foldl Standing.apply s).aiDisabled =
    ((lastWritten paymentFailed events).map (disabledAfter events s)).getD s.aiDisabled := by
  induction events using List.reverseRecOn with
  | nil => rfl
  | append_singleton events event ih =>
    rw [List.foldl_concat, apply_aiDisabled, lastWritten_concat]
    cases hpayment : paymentFailed event with
    | none =>
      have hsame : disabledAfter (events ++ [event]) s = disabledAfter events s := by
        funext failed
        cases failed <;> simp [disabledAfter, hpayment]
      rw [hsame, Option.none_or]
      exact ih
    | some failed =>
      cases failed with
      | true => rfl
      | false =>
        -- a payment undoes a failed payment only, and that may have replaced the first reason
        have hall := foldl_otherwiseDisabled s events
        simp [disabledAfter, hpayment, hall]

end

theorem disabledAfter_perm (s : Standing) {events order : List Json} (hperm : order.Perm events) :
    disabledAfter order s = disabledAfter events s := by
  funext failed
  cases failed with
  | true => rfl
  | false =>
    have hall : (order.all fun e => paymentFailed e ≠ some true) =
        events.all fun e => paymentFailed e ≠ some true := by
      rw [Bool.eq_iff_iff, List.all_eq_true, List.all_eq_true]
      exact forall_congr' fun e => by rw [hperm.mem_iff]
    simp only [disabledAfter, hall]

/-- What is determined depends on the set of the events, and not on how they are listed. -/
theorem determined_perm (s : Standing) {events order : List Json} (hperm : order.Perm events)
    (hcreated : (order.map createdAt).Nodup) : determined order s = determined events s := by
  have hplan : latestWritten createdAt planOfEvent order =
      latestWritten createdAt planOfEvent events := latestWritten_perm hperm hcreated
  have hpayment : latestWritten createdAt paymentFailed order =
      latestWritten createdAt paymentFailed events := latestWritten_perm hperm hcreated
  simp only [determined, hplan, hpayment, disabledAfter_perm s hperm]

/-- If both a failed payment and a payment are among the events, they lead to different ends. -/
theorem payment_eq_of_disabled {s : Standing} {events order : List Json} (hperm : order.Perm events)
    (h : ((lastWritten paymentFailed order).map (disabledAfter events s)).getD s.aiDisabled =
      ((latestWritten createdAt paymentFailed events).map
        (disabledAfter events s)).getD s.aiDisabled) :
    lastWritten paymentFailed order = latestWritten createdAt paymentFailed events := by
  have hfalse : ∀ e ∈ events, paymentFailed e = some true →
      disabledAfter events s false = false := by
    intro e he htrue
    have hall : (events.all fun e => paymentFailed e ≠ some true) = false := by
      simpa using ⟨e, he, htrue⟩
    rw [disabledAfter, hall, Bool.and_false]
  cases hlast : lastWritten paymentFailed order with
  | none =>
    have hnone := lastWritten_eq_none.mp hlast
    exact (latestWritten_eq_none.mpr fun e he => hnone e (hperm.mem_iff.mpr he)).symm
  | some last =>
    obtain ⟨e, he, hwritten⟩ := mem_of_lastWritten hlast
    have hmem := hperm.mem_iff.mp he
    cases hlatest : latestWritten createdAt paymentFailed events with
    | none => cases hwritten.symm.trans (latestWritten_eq_none.mp hlatest e hmem)
    | some latest =>
      obtain ⟨e', he', hwritten'⟩ := mem_of_latestWritten hlatest
      rw [hlast, hlatest] at h
      cases last <;> cases latest
      · rfl
      · cases (hfalse e' he' hwritten').symm.trans h
      · cases (hfalse e hmem hwritten).symm.trans h.symm
      · rfl

/-- The deliveries lead to what the latest events determine just in an order that ends with them. -/
theorem outcome_eq_determined_iff (s : Standing) {events order : List Json}
    (hperm : order.Perm events) :
    (order.foldl Standing.apply s).outcome = determined events s ↔ InOrder events order := by
  have hplan := register_foldl Standing.apply Standing.plan apply_plan s order
  have hsubscription :=
    register_foldl Standing.apply Standing.subscriptionPlan apply_subscriptionPlan s order
  have hquota :=
    register_foldl Standing.apply Standing.monthlyQuotaAcu apply_monthlyQuotaAcu s order
  have hdisabled : (order.foldl Standing.apply s).aiDisabled =
      ((lastWritten paymentFailed order).map (disabledAfter events s)).getD s.aiDisabled := by
    rw [foldl_aiDisabled, disabledAfter_perm s hperm]
  constructor
  · intro h
    obtain ⟨hplan', -, -, hdisabled'⟩ := Outcome.mk.inj h
    rw [hsubscription] at hplan'
    rw [hdisabled] at hdisabled'
    exact ⟨(lastWritten_getD_eq_iff hperm _).mp hplan', payment_eq_of_disabled hperm hdisabled'⟩
  · rintro ⟨hlast, hpayment⟩
    rw [Standing.outcome, hplan, hsubscription, hquota, hdisabled, lastWritten_map, hlast, hpayment]
    rfl

/-! ## The handlers -/

section
variable {db db' checked : Db} {customerId : Json} {company : Company} {now : Time}
  {plan : Option String} {f : Company → Company}

/-- The customer's company after a write to its row that leaves the customer as it is. -/
theorem owns_setCompany (hkeys : (db.companies.map Company.id).Nodup)
    (howns : Owns db customerId company)
    (hf : (f company).stripeCustomerId = company.stripeCustomerId) :
    Owns (db.setCompany company.id f) customerId { f company with id := company.id } := by
  have hmem := (Owns.mem howns).1
  obtain ⟨t, rfl, hfilter⟩ := howns
  refine ⟨t, rfl, ?_⟩
  rw [Db.setCompany, List.filter_map]
  have hsame : ∀ c ∈ db.companies, ((fun c : Company => decide (c.stripeCustomerId = some t)) ∘
      fun c => if c.id = company.id then { f c with id := c.id } else c) c =
        decide (c.stripeCustomerId = some t) := by
    intro c hc
    rw [Function.comp_apply]
    split
    · rename_i hid
      obtain rfl := List.inj_on_of_nodup_map hkeys hc hmem hid
      simp only [hf]
    · rfl
  rw [List.filter_congr hsame, hfilter, List.map_singleton, if_pos rfl]

/-- What the account that is there, or a new one, says of AI. -/
theorem checked_account (h : Checked now company db checked) (now' : Time)
    (plan : Option String) :
    ((checked.accounts company.id).getD (newAccount now' company.id plan)).aiDisabled =
        (standing db company).aiDisabled ∧
      ((checked.accounts company.id).getD (newAccount now' company.id plan)).aiDisabledReason =
        (standing db company).aiDisabledReason := by
  have hnew : ∀ a : BillingAccount, a.aiDisabled = false → a.aiDisabledReason = none →
      db.accounts company.id = none → a.aiDisabled = (standing db company).aiDisabled ∧
        a.aiDisabledReason = (standing db company).aiDisabledReason := by
    intro a hdisabled hreason hnone
    simp [standing, standingWith, hnone, newAccount, hdisabled, hreason]
  -- the account may be one that the check of the billing period has just created
  cases haccount : db.accounts company.id with
  | some a =>
    rcases h with rfl | rfl
    · simp [standing, standingWith, haccount]
    · simp [standing, standingWith, getOrCreateAccount, haccount]
  | none =>
    rcases h with rfl | rfl
    · rw [haccount]
      exact hnew _ rfl rfl haccount
    · rw [getOrCreateAccount, haccount]
      simp only [Db.setAccount, Function.update_self, Option.getD_some]
      exact hnew _ rfl rfl haccount

/-- A subscription event that is handled. -/
theorem standing_replan {default : Tier} (hkeys : (db.companies.map Company.id).Nodup)
    (howns : Owns db customerId company) (hchecked : Checked now company db checked)
    (hf : (f company).subscriptionPlan = plan ∧
      (f company).stripeCustomerId = company.stripeCustomerId)
    (htier : (tierOr default plan).quotaAcu = quotaOf plan)
    (hdb : db' = writeAccount now company.id plan (applyPlan default plan)
      (checked.setCompany company.id f)) :
    ∃ company', Owns db' customerId company' ∧
      standing db' company' = (standing db company).replan (some plan) := by
  subst hdb
  refine ⟨{ f company with id := company.id }, ?_, ?_⟩
  · have hset : Owns (checked.setCompany company.id f) customerId
        { f company with id := company.id } := by
      refine owns_setCompany ?_ ?_ hf.2
      · rwa [hchecked.companies]
      · simpa only [Owns, hchecked.companies] using howns
    simpa only [Owns, writeAccount_companies] using hset
  · obtain ⟨hdisabled, hreason⟩ := checked_account hchecked now plan
    simp only [standing, standingWith, writeAccount_account, Option.getD_some, Standing.replan,
      applyPlan, hf.1, htier]
    exact congrArg₂ (Standing.mk plan plan (quotaOf plan)) hdisabled hreason

/-- An invoice event that is handled. -/
theorem standing_payment {write : BillingAccount → BillingAccount} {failed : Bool}
    (howns : Owns db customerId company)
    (hwrite : ∀ p a, standingWith p (write a) = (standingWith p a).pay (some failed))
    (hdb : db' = writeAccount now company.id company.subscriptionPlan write db) :
    ∃ company', Owns db' customerId company' ∧
      standing db' company' = (standing db company).pay (some failed) := by
  subst hdb
  refine ⟨company, by simpa only [Owns, writeAccount_companies] using howns, ?_⟩
  rw [standing, writeAccount_account, Option.getD_some, hwrite, standing]
  cases db.accounts company.id <;> rfl

theorem standingWith_disableAi (p : Option String) (a : BillingAccount) :
    standingWith p (disableAi a) = (standingWith p a).pay (some true) := rfl

theorem standingWith_enableAi (p : Option String) (a : BillingAccount) :
    standingWith p (enableAi a) = (standingWith p a).pay (some false) := by
  simp only [enableAi, Standing.pay, standingWith]
  by_cases h : (a.aiDisabled && a.aiDisabledReason = some "payment_failed") = true
  · rw [if_pos h]
    exact (if_pos h).symm
  · rw [if_neg h]
    exact (if_neg h).symm

theorem standing_handleEvent {env : HandlerEnv} {event : Json} {type : String}
    (hkeys : (db.companies.map Company.id).Nodup) (howns : Owns db customerId company)
    (hcustomer : eventCustomer event = some customerId) (htype : eventType event = some type)
    (h : handleEvent env type event db = .ok db') :
    ∃ company', Owns db' customerId company' ∧
      standing db' company' = (standing db company).apply event := by
  -- the handlers find the company that the customer has now
  have hsame : ∀ {customerId' : Json} {c : Company}, eventCustomer event = some customerId' →
      Owns db customerId' c → customerId' = customerId ∧ c = company := by
    intro customerId' c hcustomer' howns'
    obtain rfl := Option.some.inj (hcustomer.symm.trans hcustomer')
    exact ⟨rfl, owns_unique howns' howns⟩
  have hplan : planOfEvent event =
      if type = "checkout.session.completed" then checkoutPlan event
      else if type = "customer.subscription.deleted" then some (some "free") else none := by
    simp only [planOfEvent, htype, Option.some.injEq]
  have hpayment : paymentFailed event =
      if type = "invoice.payment_failed" then some true
      else if type = "invoice.payment_succeeded" then some false else none := by
    simp only [paymentFailed, htype, Option.some.injEq]
  unfold handleEvent at h
  rw [Standing.apply, hplan, hpayment]
  split_ifs at h with hcheckout hdeleted hfailed hsucceeded
  · obtain ⟨customerId', c, plan, hc, ho, hname, checked, f, hchecked, hf, hdb⟩ := checkout_result h
    obtain ⟨rfl, rfl⟩ := hsame hc ho
    have hkept : (f c).stripeCustomerId = c.stripeCustomerId :=
      (hf c).2.trans (Owns.mem howns).2.symm
    simpa [hcheckout, hname, Standing.pay] using
      standing_replan hkeys howns hchecked ⟨(hf c).1, hkept⟩ rfl hdb
  · obtain ⟨customerId', c, hc, ho, f, hf, hdb⟩ := deletion_result h
    obtain ⟨rfl, rfl⟩ := hsame hc ho
    simpa [hdeleted, Standing.pay] using
      standing_replan hkeys howns (.inl rfl) (hf c) (by decide) hdb
  · obtain ⟨customerId', c, hc, ho, hdb⟩ := invoice_result h
    obtain ⟨rfl, rfl⟩ := hsame hc ho
    simpa [hfailed, Standing.replan] using standing_payment howns standingWith_disableAi hdb
  · obtain ⟨customerId', c, hc, ho, hdb⟩ := invoice_result h
    obtain ⟨rfl, rfl⟩ := hsame hc ho
    simpa [hsucceeded, Standing.replan] using standing_payment howns standingWith_enableAi hdb
  · obtain rfl := Except.ok.inj h
    exact ⟨company, howns, by
      simp [hcheckout, hdeleted, hfailed, hsucceeded, Standing.pay, Standing.replan]⟩

end

/-! ## Runs -/

section
variable {digest : Json → Json → String} {s s' : Stores} {customerId : Json}
  {company company' : Company}

theorem eventType_of_verifiedKey {env : Env} {event : Json} {id type : String}
    (h : verifiedKey digest env event = .ok (id, type)) : eventType event = some type := by
  obtain ⟨kind, hkind, h⟩ := bind_eq_ok.mp (WebhookDelivery.verifiedKey_eq_ok h)
  obtain ⟨created, -, h⟩ := bind_eq_ok.mp h
  obtain ⟨id', -, h⟩ := bind_eq_ok.mp h
  obtain ⟨type', htype, h⟩ := bind_eq_ok.mp h
  obtain ⟨-, rfl⟩ := Prod.mk.inj (Except.ok.inj h)
  rw [eventType, attempt_eq_ok.mp hkind, Option.bind_some, attempt_eq_ok.mp htype]

theorem processWebhook_eq_ok {env : Env} {event : Json} {db : Db}
    (h : (processWebhook digest env event s).1 = .ok (false, db)) :
    ∃ id type, eventType event = some type ∧
      handleEvent env.handler type event (s.db.recordEvent id) = .ok db := by
  simp only [processWebhook] at h
  split at h
  · cases h
  · rename_i id type hkey
    refine ⟨id, type, eventType_of_verifiedKey hkey, ?_⟩
    split at h
    · cases h
    · split at h
      · cases h
      · cases happly : applyEvent env type event (s.db.recordEvent id) with
        | error f =>
          rw [happly] at h
          cases h
        | ok db' =>
          rw [happly] at h
          obtain ⟨-, rfl⟩ := Prod.mk.inj (Except.ok.inj h)
          obtain ⟨-, -, hhandle⟩ := bind_eq_ok.mp happly
          exact hhandle

/-- A delivery that is not a duplicate commits what the handler has done. -/
theorem step_eq_some {d : Env × Json} (h : step digest s d = some s') :
    ∃ id type, eventType d.2 = some type ∧
      handleEvent d.1.handler type d.2 (s.db.recordEvent id) = .ok s'.db := by
  unfold step at h
  split at h
  · rename_i s'' hdeliver
    obtain rfl := Option.some.inj h
    unfold deliver at hdeliver
    split at hdeliver
    · rename_i deduplicated db keys hprocess
      split at hdeliver
      · obtain ⟨hanswer, rfl⟩ := Prod.mk.inj hdeliver
        obtain rfl := Answer.received.inj hanswer
        exact processWebhook_eq_ok (congrArg Prod.fst hprocess)
      · cases hdeliver
    · cases hdeliver
    · cases hdeliver
  · cases h

theorem standing_step {d : Env × Json} (hkeys : (s.db.companies.map Company.id).Nodup)
    (howns : Owns s.db customerId company) (hcustomer : eventCustomer d.2 = some customerId)
    (h : step digest s d = some s') :
    (s'.db.companies.map Company.id).Nodup ∧ ∃ company', Owns s'.db customerId company' ∧
      standing s'.db company' = (standing s.db company).apply d.2 := by
  obtain ⟨id, type, htype, hhandle⟩ := step_eq_some h
  have howns' : Owns (s.db.recordEvent id) customerId company := howns
  have hkeys' : ((s.db.recordEvent id).companies.map Company.id).Nodup := hkeys
  obtain ⟨company', howner, hstanding⟩ :=
    standing_handleEvent hkeys' howns' hcustomer htype hhandle
  refine ⟨?_, company', howner, hstanding⟩
  rcases handleEvent_handled hhandle with hsame | ⟨-, c, -, -, hframe⟩
  · rw [hsame]
    exact hkeys
  · rw [keys_of_frame hframe]
    exact hkeys

theorem standing_run {l : List (Env × Json)} (hkeys : (s.db.companies.map Company.id).Nodup)
    (howns : Owns s.db customerId company)
    (hcustomer : ∀ d ∈ l, eventCustomer d.2 = some customerId)
    (hrun : run (step digest) s l = some s') (howns' : Owns s'.db customerId company') :
    standing s'.db company' = (l.map Prod.snd).foldl Standing.apply (standing s.db company) := by
  induction l generalizing s company with
  | nil =>
    obtain rfl := Option.some.inj hrun
    rw [owns_unique howns' howns]
    rfl
  | cons d l ih =>
    obtain ⟨t, ht, hrest⟩ := Option.bind_eq_some_iff.mp hrun
    obtain ⟨hkeys', c, hc, hstanding⟩ :=
      standing_step hkeys howns (hcustomer d (List.mem_cons_self ..)) ht
    rw [ih hkeys' hc (fun e he => hcustomer e (List.mem_cons_of_mem _ he)) hrest, hstanding]
    rfl

/-- Once all events are delivered the company stands as the latest of each kind says just when the
order ends with these, or with ones that say the same. -/
theorem outcome_delivered {events : List Json} {l : List (Env × Json)}
    (h : Delivered digest customerId events l s s') (howns : Owns s.db customerId company)
    (howns' : Owns s'.db customerId company') :
    (standing s'.db company').outcome = determined events (standing s.db company) ↔
      InOrder events (l.map Prod.snd) := by
  have hcustomer : ∀ d ∈ l, eventCustomer d.2 = some customerId := fun d hd =>
    h.customer d.2 (h.order.mem_iff.mp (List.mem_map_of_mem hd))
  rw [standing_run h.keys howns hcustomer h.run howns']
  exact outcome_eq_determined_iff _ h.order

variable {s₁ s₂ : Stores} {company₁ company₂ : Company}

/-- Two orders of the same events lead to what the latest of each kind says just when both of them
end so. -/
theorem commute_iff_inOrder {events : List Json} {l₁ l₂ : List (Env × Json)}
    (h₁ : Delivered digest customerId events l₁ s s₁)
    (h₂ : Delivered digest customerId events l₂ s s₂) (howns : Owns s.db customerId company)
    (howns₁ : Owns s₁.db customerId company₁) (howns₂ : Owns s₂.db customerId company₂) :
    ((standing s₁.db company₁).outcome = (standing s₂.db company₂).outcome ∧
      (standing s₁.db company₁).outcome = determined events (standing s.db company)) ↔
      InOrder events (l₁.map Prod.snd) ∧ InOrder events (l₂.map Prod.snd) := by
  rw [← outcome_delivered h₁ howns howns₁, ← outcome_delivered h₂ howns howns₂]
  constructor
  · rintro ⟨hsame, hlatest⟩
    exact ⟨hlatest, hsame.symm.trans hlatest⟩
  · rintro ⟨hlatest, hlatest'⟩
    exact ⟨hlatest.trans hlatest'.symm, hlatest⟩

end

/-! ## A change of plan and a second try of a payment -/

def checkout (id plan : String) (created : ℚ) : Json :=
  .obj [("id", .str id), ("type", .str "checkout.session.completed"), ("created", .num created),
    ("data", .obj [("object", .obj [("customer", .str "cus_1"), ("subscription", .str "sub_1"),
      ("metadata", .obj [("plan", .str plan)])])])]

def invoice (id type : String) (created : ℚ) : Json :=
  .obj [("id", .str id), ("type", .str type), ("created", .num created),
    ("data", .obj [("object", .obj [("customer", .str "cus_1")])])]

def toBusiness : Json := checkout "evt_1" "business" 1000
def toStarter : Json := checkout "evt_2" "starter" 1001
def failed : Json := invoice "evt_3" "invoice.payment_failed" 1002
def succeeded : Json := invoice "evt_4" "invoice.payment_succeeded" 1003

def events : List Json := [toBusiness, toStarter, failed, succeeded]

def env : Env :=
  { WebhookDelivery.allWell with
    handler := { WebhookDelivery.handlerEnv with retrieve := fun _ => some (some "cus_1") } }

def delivered (order : List Json) : Option Stores :=
  run (step WebhookDelivery.noDigest) WebhookDelivery.customer (order.map (env, ·))

def inOrder : Stores := (delivered events).get (by decide +kernel)

def mixed : Stores :=
  (delivered [failed, toBusiness, succeeded, toStarter]).get (by decide +kernel)

def reversed : Stores := (delivered events.reverse).get (by decide +kernel)

/-- The row of the company once it has changed to a plan. -/
def changed (plan : String) : Company := ⟨7, some plan, some "cus_1", some "sub_1"⟩

theorem delivered_events {order : List Json} {s : Stores} (hperm : order.Perm events)
    (h : delivered order = some s) :
    Delivered WebhookDelivery.noDigest (.str "cus_1") events (order.map (env, ·))
      WebhookDelivery.customer s where
  keys := by decide
  customer := by decide
  created := by decide
  order := by
    rw [List.map_map]
    exact (List.map_id order).symm ▸ hperm
  run := h

theorem owns_changed {s : Stores} {plan : String}
    (h : s.db.companies.filter (fun c => c.stripeCustomerId = some "cus_1") = [changed plan]) :
    Owns s.db (.str "cus_1") (changed plan) := ⟨"cus_1", rfl, h⟩

theorem commute_mixed :
    (standing inOrder.db (changed "starter")).outcome =
        (standing mixed.db (changed "starter")).outcome ∧
      (standing inOrder.db (changed "starter")).outcome =
        determined events (standing WebhookDelivery.customer.db (changed "pro")) := by
  have h₁ := delivered_events (List.Perm.refl events) (s := inOrder) (Option.some_get _).symm
  have hperm : [failed, toBusiness, succeeded, toStarter].Perm events := by decide
  have h₂ := delivered_events hperm (s := mixed) (Option.some_get _).symm
  refine (commute_iff_inOrder h₁ h₂ (owns_changed (by decide))
    (owns_changed (by decide +kernel)) (owns_changed (by decide +kernel))).mpr ⟨?_, ?_⟩
  · exact ⟨by decide +kernel, by decide +kernel⟩
  · exact ⟨by decide, by decide⟩

/-- The events are of the account's billing period. -/
def InPeriod (a : BillingAccount) (events : List Json) : Prop :=
  ∀ e ∈ events, (∃ start, a.billingPeriodStart = some start ∧ start ≤ createdAt e) ∧
    ∃ reset, a.resetAt = some reset ∧ createdAt e < reset

/-- Delivered in the reverse order the events leave the company on the plan that it has left, and
its AI disabled by a payment that has succeeded since. -/
theorem not_commute_reversed :
    ¬ ∀ (digest : Json → Json → String) (customerId : Json) (events : List Json)
      (l₁ l₂ : List (Env × Json)) (s s₁ s₂ : Stores) (company company₁ company₂ : Company),
      (∃ a, s.db.accounts company.id = some a ∧ InPeriod a events) →
      Delivered digest customerId events l₁ s s₁ → Delivered digest customerId events l₂ s s₂ →
      Owns s.db customerId company → Owns s₁.db customerId company₁ →
      Owns s₂.db customerId company₂ →
      (standing s₁.db company₁).outcome = (standing s₂.db company₂).outcome ∧
        (standing s₁.db company₁).outcome = determined events (standing s.db company) := by
  intro h
  have hperiod : InPeriod (newAccount 0 7 "pro") events := by
    intro e he
    have hcreated : 0 ≤ createdAt e ∧ createdAt e < days 30 := by
      revert e
      decide +kernel
    exact ⟨⟨0, rfl, hcreated.1⟩, _, rfl, by simpa using hcreated.2⟩
  have h₁ := delivered_events (List.Perm.refl events) (s := inOrder) (Option.some_get _).symm
  have h₂ := delivered_events (List.reverse_perm events) (s := reversed) (Option.some_get _).symm
  have hsame := (h _ _ _ _ _ _ _ _ (changed "pro") (changed "starter") (changed "business")
    ⟨_, rfl, hperiod⟩ h₁ h₂ (owns_changed (by decide +kernel)) (owns_changed (by decide +kernel))
    (owns_changed (by decide +kernel))).1
  revert hsame
  decide

end WorkTicket.Billing.EventOrder
