import WorkTicket.Foundation.Transition
import WorkTicket.Billing.Ledger
import WorkTicket.Billing.PlanAgreement

/-! The switch that disables the AI of a company: `ai_disabled` and its reason, written by
the payment webhooks, the abuse detector, the reconciliation and the administrators. -/

namespace WorkTicket.Billing.AiSwitch

open WorkTicket.Transition WorkTicket.Billing.StripeWebhook WorkTicket.Billing.PlanAgreement

/-- The account with the two columns that only the abuse detector uses. -/
structure Switch where
  account : BillingAccount
  riskScore : Option ℤ
  tempQuotaMultiplier : ℚ
  deriving DecidableEq, Repr

def newSwitch (now : Time) (companyId : CompanyId) (plan : Option String) : Switch :=
  ⟨newAccount now companyId plan, some 0, 1⟩

/-! ## The writers -/

def riskAfter (spike : Bool) (recentFailures : ℕ) (s : Switch) : ℤ :=
  s.riskScore.getD 0 + (if spike then 20 else 0) + (if 5 < recentFailures then 10 else 0)

/-- `check_and_update_risk`: above 70 AI is disabled and the reason is left as it was. -/
def checkAndUpdateRisk (spike : Bool) (recentFailures : ℕ) (s : Switch) : Switch :=
  let riskScore := riskAfter spike recentFailures s
  let s := { s with riskScore := some riskScore }
  if 70 < riskScore then { s with account := { s.account with aiDisabled := true } }
  else if 50 < riskScore then { s with tempQuotaMultiplier := 1 / 2 }
  else if riskScore ≤ 20 ∧ s.tempQuotaMultiplier < 1 then { s with tempQuotaMultiplier := 1 }
  else s

/-- The check inside the process-job route, which answers 403 above 70: `get_db` then rolls
back what the check wrote. -/
def processJobRisk (spike : Bool) (recentFailures : ℕ) (routeOk : Bool) (s : Switch) : Switch :=
  if 70 < riskAfter spike recentFailures s || !routeOk then s
  else checkAndUpdateRisk spike recentFailures s

/-- One account of `decay_risk_scores`. -/
def decayRiskScores (s : Switch) : Switch :=
  if s.riskScore.any (0 < ·) then { s with riskScore := s.riskScore.map (· - 5) } else s

def disableCompany (s : Switch) : Switch :=
  { s with account := { s.account with aiDisabled := true } }

def enableCompany (s : Switch) : Switch :=
  { s with account := { s.account with aiDisabled := false }, riskScore := some 0 }

/-- A first `reconcile_cost` of a job; an integrity error is rolled back. -/
def reconcile (now : Time) (r : Reconciliation) (s : Switch) : Switch :=
  { s with account := (chargeAccount now r s.account).getD s.account }

/-- The test before `ai_disabled_reason = "debt_limit"`. -/
def reachesDebtLimit (r : Reconciliation) (a : BillingAccount) : Bool :=
  r.reservedAcu ≤ a.reservedAcu && a.reservedAcu - r.reservedAcu < 0 &&
    maxDebt a ≤ a.acuDebt + -(a.reservedAcu - r.reservedAcu)

/-! ## Sequences of events -/

inductive Cause
  | paymentFailed
  | abuse
  | debtLimit
  | admin
  deriving DecidableEq, Repr

/-- A company's row and the causes that disabled its AI since an administrator enabled it
last, less those lifted since. -/
structure World where
  row : Option Switch
  causes : Finset Cause

/-- The committed writes; `commits` tells whether the transaction of a check is committed. -/
inductive Event
  | paymentFailed (now : Time) (plan : Option String)
  | paymentSucceeded (now : Time) (plan : Option String)
  | checkRisk (spike : Bool) (recentFailures : ℕ) (commits : Bool)
  | decayRisk
  | reconcile (now : Time) (r : Reconciliation)
  | disable
  | enable

section
variable (companyId : CompanyId)

def payment (write : BillingAccount → BillingAccount) (now : Time) (plan : Option String)
    (row : Option Switch) : Switch :=
  let s := row.getD (newSwitch now companyId plan)
  { s with account := write s.account }

def rowAfter (row : Option Switch) : Event → Option Switch
  | .paymentFailed now plan => some (payment companyId disableAi now plan row)
  | .paymentSucceeded now plan => some (payment companyId enableAi now plan row)
  | .checkRisk spike recentFailures commits =>
    if commits then row.map (checkAndUpdateRisk spike recentFailures) else row
  | .decayRisk => row.map decayRiskScores
  | .reconcile now r => row.map (reconcile now r)
  | .disable => row.map disableCompany
  | .enable => row.map enableCompany

def causesAfter (row : Option Switch) (causes : Finset Cause) : Event → Finset Cause
  | .paymentFailed _ _ => insert .paymentFailed causes
  | .paymentSucceeded _ _ => causes.erase .paymentFailed
  | .checkRisk spike recentFailures commits =>
    if commits && row.any (fun s => 70 < riskAfter spike recentFailures s) then
      insert .abuse causes
    else causes
  | .decayRisk => causes
  | .reconcile _ r =>
    if row.any (reachesDebtLimit r ·.account) then insert .debtLimit causes else causes
  | .disable => if row.isSome then insert .admin causes else causes
  | .enable => ∅

def step (w : World) (e : Event) : Option World :=
  some ⟨rowAfter companyId w.row e, causesAfter w.row w.causes e⟩

end

/-- A company without an account is admitted with a new one, whose AI is enabled. -/
def aiEnabled (row : Option Switch) : Bool := row.all fun s => !s.account.aiDisabled

/-- AI is enabled only when every cause has been lifted. -/
def Composes (w : World) : Prop := aiEnabled w.row = true → w.causes = ∅

/-- The account was disabled, and the last reason written was a failed payment. -/
def showsPaymentFailed (s : Switch) : Bool :=
  s.account.aiDisabled && s.account.aiDisabledReason = some "payment_failed"

/-- A payment that finds the reason `payment_failed` finds no other cause at work. -/
def LiftsOnlyItsOwn (w : World) : Event → Bool
  | .paymentSucceeded _ _ => !w.row.any showsPaymentFailed || w.causes ⊆ {.paymentFailed}
  | _ => true

/-! ## What a writer does to the switch -/

theorem checkAndUpdateRisk_aiDisabled (spike : Bool) (recentFailures : ℕ) (s : Switch) :
    (checkAndUpdateRisk spike recentFailures s).account.aiDisabled =
      (s.account.aiDisabled || 70 < riskAfter spike recentFailures s) := by
  unfold checkAndUpdateRisk
  simp only
  split
  · rename_i h
    simp [h]
  · rename_i h
    split_ifs <;> simp [h]

/-- The check of the route disables nothing for good: above 70 it is rolled back. -/
theorem processJobRisk_aiDisabled (spike : Bool) (recentFailures : ℕ) (routeOk : Bool)
    (s : Switch) :
    (processJobRisk spike recentFailures routeOk s).account.aiDisabled = s.account.aiDisabled := by
  unfold processJobRisk
  split
  · rfl
  · rename_i h
    rw [checkAndUpdateRisk_aiDisabled]
    simp_all

theorem decayRiskScores_account (s : Switch) : (decayRiskScores s).account = s.account := by
  unfold decayRiskScores
  split <;> rfl

/-- The integrity check comes first, so no reservation is settled into debt. -/
theorem reachesDebtLimit_eq_false (r : Reconciliation) (a : BillingAccount) :
    reachesDebtLimit r a = false := by
  by_contra h
  simp only [reachesDebtLimit, Bool.not_eq_false, Bool.and_eq_true, decide_eq_true_eq] at h
  linarith [h.1.1, h.1.2]

theorem reconcile_aiDisabled (now : Time) (r : Reconciliation) (s : Switch) :
    (reconcile now r s).account.aiDisabled = s.account.aiDisabled := by
  unfold reconcile
  cases h : chargeAccount now r s.account with
  | none => rfl
  | some a =>
    obtain ⟨-, rfl⟩ := chargeAccount_eq_some.mp h
    rfl

theorem enableAi_aiDisabled (a : BillingAccount) :
    (enableAi a).aiDisabled =
      (a.aiDisabled && !(a.aiDisabledReason = some "payment_failed" : Bool)) := by
  unfold enableAi
  split
  · rename_i h
    simp_all
  · rename_i h
    cases hd : a.aiDisabled <;> simp_all

/-- What a delivered invoice event writes to the account of its customer's company. -/
theorem account_of_invoicePayment {write : BillingAccount → BillingAccount} {env : HandlerEnv}
    {event : Json} {db db' : Db} (hs : invoicePayment write env event db = .ok db') :
    ∃ customerId company, eventCustomer event = some customerId ∧ Owns db customerId company ∧
      ∀ row : Option Switch, row.map Switch.account = db.accounts company.id →
        db'.accounts company.id =
          some (payment company.id write env.now company.subscriptionPlan row).account := by
  obtain ⟨customerId, company, hcustomer, howns, rfl⟩ := invoice_result hs
  refine ⟨customerId, company, hcustomer, howns, fun row hrow => ?_⟩
  rw [writeAccount_account, ← hrow]
  cases row <;> rfl

/-! ## Runs -/

section
variable {companyId : CompanyId} {w w' : World}

theorem composes_iff : Composes w ↔ w.causes = ∅ ∨ w.row.any (·.account.aiDisabled) = true := by
  cases hrow : w.row with
  | none => simp [Composes, aiEnabled, hrow]
  | some s =>
    cases hd : s.account.aiDisabled <;> simp [Composes, aiEnabled, hrow, hd]

theorem composes_of_same (h : Composes w) {row : Option Switch} {causes : Finset Cause}
    (hcauses : causes ⊆ w.causes)
    (hrow : w.row.any (·.account.aiDisabled) = true → row.any (·.account.aiDisabled) = true) :
    Composes ⟨row, causes⟩ := by
  rw [composes_iff] at h ⊢
  refine h.imp (fun hnone => ?_) hrow
  exact Finset.subset_empty.mp (hnone ▸ hcauses)

theorem composes_payment (h : Composes w) (now : Time) (plan : Option String)
    (hok : LiftsOnlyItsOwn w (.paymentSucceeded now plan) = true) :
    Composes ⟨some (payment companyId enableAi now plan w.row),
      w.causes.erase .paymentFailed⟩ := by
  simp only [LiftsOnlyItsOwn, Bool.or_eq_true, Bool.not_eq_true', decide_eq_true_eq] at hok
  obtain hshows | honly := hok
  · -- the handler leaves the switch alone, and only one cause less is asked for
    refine composes_of_same h (Finset.erase_subset _ _) fun hdisabled => ?_
    obtain ⟨s, hs, hd⟩ := Option.any_eq_true _ _ |>.mp hdisabled
    rw [hs, Option.any_some, showsPaymentFailed, hd, Bool.true_and] at hshows
    simp [payment, hs, enableAi_aiDisabled, hd, hshows]
  · refine composes_iff.mpr (.inl ?_)
    rw [Finset.erase_eq_empty_iff]
    exact Finset.subset_singleton_iff.mp honly

/-- A payment is the only writer that can switch AI on under another cause. -/
theorem composes_step {e : Event} (h : Composes w) (hok : LiftsOnlyItsOwn w e = true)
    (hs : step companyId w e = some w') : Composes w' := by
  obtain rfl := Option.some.inj hs
  cases e with
  | paymentFailed now plan => exact composes_iff.mpr (.inr rfl)
  | paymentSucceeded now plan => exact composes_payment h now plan hok
  | checkRisk spike recentFailures commits =>
    cases commits with
    | false => exact composes_of_same h (by simp [causesAfter]) id
    | true =>
      cases hrow : w.row with
      | none => exact composes_of_same h (by simp [causesAfter]) (by simp [hrow])
      | some s =>
        by_cases hrisk : 70 < riskAfter spike recentFailures s
        · refine composes_iff.mpr (.inr ?_)
          simp [rowAfter, checkAndUpdateRisk_aiDisabled, hrisk]
        · refine composes_of_same h (by simp [causesAfter, hrisk]) ?_
          simp [rowAfter, hrow, checkAndUpdateRisk_aiDisabled, hrisk]
  | decayRisk =>
    refine composes_of_same h subset_rfl ?_
    simp [rowAfter, Option.any_map, decayRiskScores_account]
  | reconcile now r =>
    refine composes_of_same h (by simp [causesAfter, reachesDebtLimit_eq_false]) ?_
    simp [rowAfter, Option.any_map, reconcile_aiDisabled]
  | disable =>
    cases hrow : w.row with
    | none => exact composes_of_same h (by simp [causesAfter]) (by simp [hrow])
    | some s => exact composes_iff.mpr (.inr (by simp [rowAfter, disableCompany]))
  | enable => exact composes_iff.mpr (.inl rfl)

/-- The condition is also needed: a payment that does not meet it undoes another cause. -/
theorem not_composes_payment {now : Time} {plan : Option String}
    (hnot : LiftsOnlyItsOwn w (.paymentSucceeded now plan) = false)
    (hs : step companyId w (.paymentSucceeded now plan) = some w') : ¬ Composes w' := by
  obtain rfl := Option.some.inj hs
  simp only [LiftsOnlyItsOwn, Bool.or_eq_false_iff, Bool.not_eq_false', decide_eq_false_iff_not]
    at hnot
  obtain ⟨hshows, hother⟩ := hnot
  obtain ⟨s, hrow, hs⟩ := Option.any_eq_true _ _ |>.mp hshows
  simp only [showsPaymentFailed, Bool.and_eq_true, decide_eq_true_eq] at hs
  rw [composes_iff, not_or]
  refine ⟨fun hnone => hother ?_, ?_⟩
  · exact Finset.subset_singleton_iff.mpr ((Finset.erase_eq_empty_iff _ _).mp hnone)
  · simp [rowAfter, payment, hrow, enableAi_aiDisabled, hs.2]

/-- From any row, while no payment undoes another cause. -/
theorem composes_of_liftsOnlyItsOwn {row : Option Switch}
    (h : ReachedBy (step companyId) (fun w e => LiftsOnlyItsOwn w e) ⟨row, ∅⟩ w) : Composes w :=
  h.invariant (composes_iff.mpr (.inl rfl)) fun _ _ _ hw hok hs => composes_step hw hok hs

end

def failsAndPays : List Event :=
  [.paymentFailed 0 "pro", .paymentSucceeded 1 "pro", .disable, .checkRisk true 9 false, .enable]

theorem composes_failsAndPays :
    Composes ((runWhile (step 7) (fun w e => LiftsOnlyItsOwn w e) ⟨none, ∅⟩ failsAndPays).get
      (by decide)) :=
  composes_of_liftsOnlyItsOwn (ReachedBy.of_runWhile (Option.some_get _).symm)

/-- An administrator disables the AI of a company whose payment has failed. -/
def disabledTwice : List Event :=
  [.paymentFailed 0 "pro", .disable, .paymentSucceeded 1 "pro"]

def afterPayment : World := (run (step 7) ⟨none, ∅⟩ disabledTwice).get (by decide)

/-- The payment has switched AI on against the administrator. -/
theorem disabledTwice_not_composes :
    Reached (step 7) ⟨none, ∅⟩ afterPayment ∧ ¬ Composes afterPayment := by
  refine ⟨Reached.of_run (Option.some_get _).symm, fun h => ?_⟩
  have henabled : aiEnabled afterPayment.row = true := by decide
  have hcause : .admin ∈ afterPayment.causes := by decide
  rw [h henabled] at hcause
  exact absurd hcause (Finset.notMem_empty _)

end WorkTicket.Billing.AiSwitch
