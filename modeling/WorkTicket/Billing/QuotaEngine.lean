import WorkTicket.Billing.Account

/-! The quota engine: the admission checks of `check_and_reserve` and the versioned
updates by which it, `release_reserved` and `finalize_usage` write the account row. -/

namespace WorkTicket.Billing

inductive Denial
  | aiDisabled
  | costExceedsTierLimit (estimatedCostUsd maxCostPerJob : ℚ)
  | insufficientQuota (need available : ℚ)
  | userDailyLimit
  | concurrencyLimit
  deriving DecidableEq, Repr

def Denial.code : Denial → String
  | .aiDisabled => "AI_DISABLED"
  | .costExceedsTierLimit _ _ => "COST_EXCEEDS_TIER_LIMIT"
  | .insufficientQuota _ _ => "INSUFFICIENT_QUOTA"
  | .userDailyLimit => "USER_DAILY_LIMIT"
  | .concurrencyLimit => "CONCURRENCY_LIMIT"

/-- The row `get_or_create_account` inserts. -/
def newAccount (now : Time) (companyId : CompanyId) (plan : Option String) : BillingAccount where
  companyId := companyId
  plan := plan
  monthlyQuotaAcu := (tierOf plan).quotaAcu
  usedAcu := 0
  reservedAcu := 0
  acuDebt := 0
  maxAcuDebt := some 500
  aiDisabled := false
  aiDisabledReason := none
  reservationHeartbeatAt := none
  billingPeriodStart := some now
  resetAt := some (now + days 30)
  lastReconciled := none
  version := 0

def costAcu (costUsd : ℚ) : ℚ := costUsd / acuToUsd

def availableAcu (a : BillingAccount) : ℚ := a.monthlyQuotaAcu - a.usedAcu - a.reservedAcu

/-- The checks of `check_and_reserve` on the row it read, in their order; the user's
daily limit is asked last. -/
def admissionDenial (a : BillingAccount) (estimatedCostUsd : ℚ) (overDailyLimit : Bool) :
    Option Denial :=
  if a.aiDisabled then some .aiDisabled
  else if (tierOf a.plan).maxCostPerJob < estimatedCostUsd then
    some (.costExceedsTierLimit estimatedCostUsd (tierOf a.plan).maxCostPerJob)
  else if availableAcu a < costAcu estimatedCostUsd then
    some (.insufficientQuota (costAcu estimatedCostUsd) (availableAcu a))
  else if overDailyLimit then some .userDailyLimit
  else none

def maxRetries : ℕ := 3

/-- `UPDATE .. SET .. , version = version + 1 WHERE version = v`, where `v` is the
version of the row read before; `none` when it matches no row. -/
def versionedUpdate (read row : BillingAccount) (write : BillingAccount → BillingAccount) :
    Option BillingAccount :=
  if row.version = read.version then some { write row with version := row.version + 1 } else none

attribute [grind =] versionedUpdate

def reserveWrite (estimatedCostUsd : ℚ) (read row : BillingAccount) : BillingAccount :=
  { row with reservedAcu := read.reservedAcu + costAcu estimatedCostUsd }

def releaseWrite (reservedAcu : ℚ) (read row : BillingAccount) : BillingAccount :=
  { row with reservedAcu := clampZero (read.reservedAcu - reservedAcu) }

def finalizeWrite (actualCostUsd reservedAcu : ℚ) (read row : BillingAccount) : BillingAccount :=
  { row with
    reservedAcu := clampZero (read.reservedAcu - reservedAcu)
    usedAcu := read.usedAcu + costAcu actualCostUsd }

/-- `release_reserved` with no other writer between its SELECT and its UPDATE. -/
def releaseReserved (reservedAcu : ℚ) (a : BillingAccount) : BillingAccount :=
  { releaseWrite reservedAcu a a with version := a.version + 1 }

theorem releaseReserved_all (a : BillingAccount) :
    (releaseReserved a.reservedAcu a).reservedAcu = 0 := by
  simp [releaseReserved, releaseWrite, clampZero]

/-! ## A call that is alone but for the rivals of its tries -/

def withReservation (estimatedCostUsd : ℚ) (a : BillingAccount) : BillingAccount :=
  { reserveWrite estimatedCostUsd a a with version := a.version + 1 }

/-- `check_and_reserve` with `tries` tries left: the row as the others leave it, and the one
of its own transaction. Each of `rivals` is committed, with a version of its own, between
the SELECT of a try and its UPDATE. -/
def checkAndReserve (newRow : BillingAccount) (estimatedCostUsd : ℚ) (overDailyLimit : Bool) :
    (tries : ℕ) → Option BillingAccount → (rivals : List BillingAccount) →
      Option BillingAccount × Except Denial BillingAccount
  | 0, row, _ => (row, .error .concurrencyLimit)
  | tries + 1, row, rivals =>
    match admissionDenial (row.getD newRow) estimatedCostUsd overDailyLimit with
    | some d => (row, .error d)
    | none =>
      match rivals with
      | [] => (row, .ok (withReservation estimatedCostUsd (row.getD newRow)))
      | rival :: rivals =>
        checkAndReserve newRow estimatedCostUsd overDailyLimit tries (some rival) rivals

/-- The tries suffice, and every row they find admits the cost. -/
def admits (newRow : BillingAccount) (estimatedCostUsd : ℚ) (overDailyLimit : Bool) (tries : ℕ)
    (row : Option BillingAccount) (rivals : List BillingAccount) : Bool :=
  rivals.length < tries &&
    (row.getD newRow :: rivals).all fun a => admissionDenial a estimatedCostUsd overDailyLimit = none

/-- What is reserved is reserved on the row that the others have left. -/
theorem checkAndReserve_snd (newRow : BillingAccount) (cost : ℚ) (overLimit : Bool) (tries : ℕ)
    (row : Option BillingAccount) (rivals : List BillingAccount) :
    (checkAndReserve newRow cost overLimit tries row rivals).2.toOption =
      if admits newRow cost overLimit tries row rivals then
        some (withReservation cost
          ((checkAndReserve newRow cost overLimit tries row rivals).1.getD newRow))
      else none := by
  induction tries generalizing row rivals with
  | zero => simp [checkAndReserve, admits, Except.toOption]
  | succ tries ih =>
    cases hdenial : admissionDenial (row.getD newRow) cost overLimit with
    | some d => simp [checkAndReserve, admits, hdenial, Except.toOption]
    | none =>
      cases rivals with
      | nil => simp [checkAndReserve, admits, hdenial, Except.toOption]
      | cons rival rivals =>
        simp only [checkAndReserve, hdenial, ih]
        simp [admits, hdenial]

theorem availableAcu_of_admitted {a : BillingAccount} {cost : ℚ} {overLimit : Bool}
    (h : admissionDenial a cost overLimit = none) : costAcu cost ≤ availableAcu a := by
  by_contra hlt
  simp only [admissionDenial, if_pos (not_le.mp hlt)] at h
  split at h
  · cases h
  · split at h <;> cases h

/-- There is room in the quota for what is reserved. -/
def WithinQuota (a : BillingAccount) : Prop := a.reservedAcu ≤ a.monthlyQuotaAcu - a.usedAcu

theorem withinQuota_withReservation {a : BillingAccount} {cost : ℚ}
    (h : costAcu cost ≤ availableAcu a) : WithinQuota (withReservation cost a) := by
  simp only [WithinQuota, withReservation, reserveWrite, availableAcu] at h ⊢
  linarith

/-- The row that is admitted last has room for the cost, so both rows stay in the quota. -/
theorem checkAndReserve_withinQuota {newRow : BillingAccount} {cost : ℚ} {overLimit : Bool}
    {tries : ℕ} {row left : Option BillingAccount} {rivals : List BillingAccount}
    {answer : Except Denial BillingAccount} (hrow : ∀ a ∈ row, WithinQuota a)
    (hrivals : ∀ a ∈ rivals, WithinQuota a)
    (h : checkAndReserve newRow cost overLimit tries row rivals = (left, answer)) :
    (∀ a ∈ left, WithinQuota a) ∧ ∀ a, answer = .ok a → WithinQuota a := by
  induction tries generalizing row rivals with
  | zero =>
    cases h
    exact ⟨hrow, fun _ ha => nomatch ha⟩
  | succ tries ih =>
    simp only [checkAndReserve] at h
    split at h
    · cases h
      exact ⟨hrow, fun _ ha => nomatch ha⟩
    · rename_i hadmitted
      cases rivals with
      | nil =>
        cases h
        refine ⟨hrow, fun a ha => ?_⟩
        cases ha
        exact withinQuota_withReservation (availableAcu_of_admitted hadmitted)
      | cons rival rivals =>
        refine ih (fun a ha => ?_) (fun a ha => hrivals a (List.mem_cons_of_mem _ ha)) h
        exact Option.some.inj ha ▸ hrivals rival List.mem_cons_self

end WorkTicket.Billing
