import WorkTicket.Foundation.Decimals

/-! The columns of `billing_accounts` that the billing code reads and writes, the
plan table, and the ACU price. Amounts are exact decimals, times are seconds. -/

namespace WorkTicket.Billing

abbrev CompanyId := ℕ
abbrev JobId := ℕ
abbrev Time := ℚ

def minutes (n : ℚ) : Time := n * 60
def days (n : ℚ) : Time := n * 86400

def acuToUsd : ℚ := 1 / 100

/-- `NUMERIC(12, 4)`, the type of every column of ACU. -/
def acuColumn : Decimals.Column := ⟨12, 4⟩

structure Tier where
  quotaAcu : ℚ
  maxCostPerJob : ℚ
  deriving DecidableEq, Repr

def freeTier : Tier := ⟨15, 1 / 100⟩

def proTier : Tier := ⟨600, 5 / 100⟩

def planTiers : List (String × Tier) :=
  [("free", freeTier), ("starter", ⟨200, 3 / 100⟩), ("pro", proTier),
    ("business", ⟨2500, 10 / 100⟩), ("enterprise", ⟨10000, 50 / 100⟩)]

/-- `PLAN_TIERS.get(plan, default)`. -/
def tierOr (default : Tier) (plan : Option String) : Tier :=
  (plan.bind fun p => planTiers.lookup p).getD default

def tierOf (plan : Option String) : Tier := tierOr freeTier plan

structure BillingAccount where
  companyId : CompanyId
  plan : Option String
  monthlyQuotaAcu : ℚ
  usedAcu : ℚ
  reservedAcu : ℚ
  acuDebt : ℚ
  maxAcuDebt : Option ℚ
  aiDisabled : Bool
  aiDisabledReason : Option String
  reservationHeartbeatAt : Option Time
  billingPeriodStart : Option Time
  resetAt : Option Time
  lastReconciled : Option Time
  version : ℕ
  deriving DecidableEq, Repr

/-- `if x < 0: x = 0`, the clamp the writers of the two balances share. -/
def clampZero (x : ℚ) : ℚ := if x < 0 then 0 else x

theorem clampZero_eq_max (x : ℚ) : clampZero x = max 0 x := by
  unfold clampZero
  split
  · exact (max_eq_left (by linarith)).symm
  · exact (max_eq_right (by linarith)).symm

theorem clampZero_nonneg (x : ℚ) : 0 ≤ clampZero x := by
  rw [clampZero_eq_max]
  exact le_max_left 0 x

theorem clampZero_of_nonneg {x : ℚ} (h : 0 ≤ x) : clampZero x = x := by
  rw [clampZero_eq_max, max_eq_right h]

end WorkTicket.Billing
