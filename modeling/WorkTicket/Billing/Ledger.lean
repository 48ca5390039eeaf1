import WorkTicket.Billing.QuotaEngine

/-! The usage ledger: one row for a job of a company, written by `reconcile_cost`,
which charges the job, and by `grant_credit`. Both run on the locked account row. -/

namespace WorkTicket.Billing

/-- A row of `usage_ledger`; `billingPeriod` is a time of the month its text names. -/
structure LedgerRow where
  textUnits : ℕ
  visionUnits : ℕ
  audioUnits : ℕ
  costUsd : ℚ
  estimatedCostUsd : ℚ
  modelUsed : String
  executionTimeMs : ℕ
  billingPeriod : Time
  isCredit : Bool
  creditReason : Option String
  originalJobId : Option JobId
  userId : Option String
  deriving DecidableEq, Repr

def isUsage (row : Option LedgerRow) : Bool := row.any fun l => !l.isCredit

def billingPeriodOf (now : Time) (a : BillingAccount) : Time := a.billingPeriodStart.getD now

/-! ## Reconciliation -/

structure Reconciliation where
  estimatedCostUsd : ℚ
  actualCostUsd : ℚ
  reservedAcu : ℚ
  modelUsed : String
  executionTimeMs : ℕ
  textUnits : ℕ
  visionUnits : ℕ
  audioUnits : ℕ
  userId : Option String
  deriving DecidableEq, Repr

/-- `account.max_acu_debt or Decimal("500.0")`. -/
def maxDebt (a : BillingAccount) : ℚ :=
  match a.maxAcuDebt with
  | some d => if d = 0 then 500 else d
  | none => 500

/-- A negative reservation becomes debt, and too much debt disables AI. -/
def trackUnderflow (a : BillingAccount) : BillingAccount :=
  if a.reservedAcu < 0 then
    let a := { a with acuDebt := a.acuDebt + -a.reservedAcu, reservedAcu := 0 }
    if maxDebt a ≤ a.acuDebt then
      { a with aiDisabled := true, aiDisabledReason := some "debt_limit" }
    else a
  else a

/-- The balances after a first reconciliation; `none` is the `BillingIntegrityError` of
an account that reserves less than is to be settled. -/
def chargeAccount (now : Time) (r : Reconciliation) (a : BillingAccount) :
    Option BillingAccount :=
  if a.reservedAcu < r.reservedAcu then none
  else
    let a := { a with
      reservedAcu := a.reservedAcu - r.reservedAcu
      usedAcu := a.usedAcu + costAcu r.actualCostUsd }
    some { trackUnderflow a with lastReconciled := some now }

def usageRow (now : Time) (r : Reconciliation) (a : BillingAccount) : LedgerRow where
  textUnits := r.textUnits
  visionUnits := r.visionUnits
  audioUnits := r.audioUnits
  costUsd := r.actualCostUsd
  estimatedCostUsd := r.estimatedCostUsd
  modelUsed := r.modelUsed
  executionTimeMs := r.executionTimeMs
  billingPeriod := billingPeriodOf now a
  isCredit := false
  creditReason := none
  originalJobId := none
  userId := r.userId

/-- What a reconciliation writes over the row it finds, whatever the row was for. -/
def overwriteRow (now : Time) (r : Reconciliation) (a : BillingAccount) (row : LedgerRow) :
    LedgerRow :=
  { row with
    textUnits := r.textUnits
    visionUnits := r.visionUnits
    audioUnits := r.audioUnits
    costUsd := r.actualCostUsd
    estimatedCostUsd := r.estimatedCostUsd
    modelUsed := r.modelUsed
    executionTimeMs := r.executionTimeMs
    billingPeriod := billingPeriodOf now a
    userId := if r.userId.getD "" = "" then row.userId else r.userId }

inductive ReconcileAnswer
  | lockContention
  | noAccount
  | integrityError
  | reconciled
  deriving DecidableEq, Repr

/-- `reconcile_cost` and the commit or rollback after it: its answer, the account and
the job's ledger row. `lockFree` tells whether no other transaction has the job's
advisory lock. -/
def reconcileCost (now : Time) (lockFree : Bool) (r : Reconciliation)
    (account : Option BillingAccount) (row : Option LedgerRow) :
    ReconcileAnswer × Option BillingAccount × Option LedgerRow :=
  if !lockFree then (.lockContention, account, row)
  else match account with
    | none => (.noAccount, none, row)
    | some a =>
      match row with
      | some l => (.reconciled, some a, some (overwriteRow now r a l))
      | none =>
        match chargeAccount now r a with
        | none => (.integrityError, some a, none)
        | some a' => (.reconciled, some a', some (usageRow now r a'))

theorem chargeAccount_eq_some {now : Time} {r : Reconciliation} {a a' : BillingAccount} :
    chargeAccount now r a = some a' ↔ r.reservedAcu ≤ a.reservedAcu ∧
      a' = { a with
        reservedAcu := a.reservedAcu - r.reservedAcu
        usedAcu := a.usedAcu + costAcu r.actualCostUsd
        lastReconciled := some now } := by
  unfold chargeAccount
  by_cases h : a.reservedAcu < r.reservedAcu
  · simp [h]
  · have hle : r.reservedAcu ≤ a.reservedAcu := not_lt.mp h
    have hnot : ¬ a.reservedAcu - r.reservedAcu < 0 := by linarith
    simp only [if_neg h, trackUnderflow, if_neg hnot, hle, true_and, Option.some.injEq]
    exact eq_comm

/-! ## Credits -/

/-- `reason[:255]`, what the column `credit_reason` keeps of a reason. -/
def storedReason (reason : String) : String := String.ofList (reason.toList.take 255)

def isDuplicateCredit (reason : String) (row : Option LedgerRow) : Bool :=
  row.any fun l => l.isCredit && l.creditReason = some reason

def creditAccount (amountAcu : ℚ) (a : BillingAccount) : BillingAccount :=
  { a with usedAcu := clampZero (a.usedAcu - amountAcu) }

def creditRow (now : Time) (jobId : JobId) (amountAcu : ℚ) (reason : String)
    (a : BillingAccount) : LedgerRow where
  textUnits := 0
  visionUnits := 0
  audioUnits := 0
  costUsd := -(amountAcu * acuToUsd)
  estimatedCostUsd := 0
  modelUsed := "credit"
  executionTimeMs := 0
  billingPeriod := billingPeriodOf now a
  isCredit := true
  creditReason := some (storedReason reason)
  originalJobId := some jobId
  userId := none

inductive CreditAnswer
  | noReservation
  | noAccount
  | skippedDuplicate
  | credited
  deriving DecidableEq, Repr

/-- `grant_credit` and the commit after it. The insert does nothing when the job has a
ledger row; the account has been credited by then. -/
def grantCredit (now : Time) (jobId : JobId) (amountAcu : ℚ) (reason : String)
    (account : Option BillingAccount) (row : Option LedgerRow) :
    CreditAnswer × Option BillingAccount × Option LedgerRow :=
  match account with
  | none => (.noAccount, none, row)
  | some a =>
    if isDuplicateCredit reason row then (.skippedDuplicate, some a, row)
    else match row with
      | some l => (.skippedDuplicate, some (creditAccount amountAcu a), some l)
      | none => (.credited, some (creditAccount amountAcu a),
          some (creditRow now jobId amountAcu reason (creditAccount amountAcu a)))

def autoCreditReason : String := "auto_credit: job processing failed"

def autoCreditFailedJob (now : Time) (jobId : JobId) (reservedAcu : ℚ)
    (account : Option BillingAccount) (row : Option LedgerRow) :
    CreditAnswer × Option BillingAccount × Option LedgerRow :=
  if reservedAcu ≤ 0 then (.noReservation, account, row)
  else grantCredit now jobId reservedAcu autoCreditReason account row

theorem isDuplicateCredit_creditRow {now : Time} {jobId : JobId} {amountAcu : ℚ} {reason : String}
    {a : BillingAccount} : isDuplicateCredit reason (some (creditRow now jobId amountAcu reason a)) ↔
      reason.length ≤ 255 := by
  have hstored : storedReason reason = reason ↔ reason.length ≤ 255 := by
    rw [storedReason, ← String.toList_inj, String.toList_ofList, List.take_eq_self_iff,
      String.length_toList]
  simp only [isDuplicateCredit, creditRow, Option.any_some, Bool.true_and, decide_eq_true_eq,
    Option.some.injEq, hstored]

end WorkTicket.Billing
