import WorkTicket.Billing.AiSwitch

/-! The three readings of a company's quota: the admission of `check_and_reserve`, the
pre-check `check_quota`, and what `get_usage_summary` shows as remaining. -/

namespace WorkTicket.Billing.QuotaAgreement

open WorkTicket.Billing.AiSwitch

/-- `check_quota` on the row it has read: its denial, or the amount in ACU. -/
def checkQuota (a : BillingAccount) (estimatedCostUsd : ℚ) : Except Denial ℚ :=
  if a.aiDisabled then .error .aiDisabled
  else if (tierOf a.plan).maxCostPerJob < estimatedCostUsd then
    .error (.costExceedsTierLimit estimatedCostUsd (tierOf a.plan).maxCostPerJob)
  else
    let available := a.monthlyQuotaAcu - a.usedAcu - a.reservedAcu
    let costAcu := estimatedCostUsd / acuToUsd
    if available < costAcu then .error (.insufficientQuota costAcu available)
    else .ok costAcu

structure UsageSummary where
  companyId : CompanyId
  plan : Option String
  quotaTotal : ℚ
  quotaBase : ℚ
  quotaMultiplier : ℚ
  quotaUsed : ℚ
  quotaRemaining : ℚ
  quotaReserved : ℚ
  usagePercent : ℚ
  aiDisabled : Bool
  resetAt : Option Time
  deriving DecidableEq, Repr

/-- `get_usage_summary` on the row; the percentage is as it is before it is rounded. -/
def getUsageSummary (s : Switch) : UsageSummary :=
  let effectiveTotal := s.account.monthlyQuotaAcu * s.tempQuotaMultiplier
  { companyId := s.account.companyId
    plan := s.account.plan
    quotaTotal := effectiveTotal
    quotaBase := s.account.monthlyQuotaAcu
    quotaMultiplier := s.tempQuotaMultiplier
    quotaUsed := s.account.usedAcu
    quotaRemaining := max 0 (effectiveTotal - s.account.usedAcu - s.account.reservedAcu)
    quotaReserved := s.account.reservedAcu
    usagePercent := if 0 < effectiveTotal then s.account.usedAcu / effectiveTotal * 100 else 0
    aiDisabled := s.account.aiDisabled
    resetAt := s.account.resetAt }

/-- The row that each of the three finds, created if it is missing. -/
def rowOf (now : Time) (companyId : CompanyId) (row : Option Switch) : Switch :=
  row.getD (newSwitch now companyId (some "free"))

/-- `check_and_reserve` alone with the row, for a call without a user. -/
def reserves (now : Time) (companyId : CompanyId) (row : Option Switch) (cost : ℚ) : Bool :=
  (Billing.checkAndReserve (newAccount now companyId (some "free")) cost false maxRetries
    (row.map Switch.account) []).2.isOk

/-- What is admitted is what the pre-check allows, and no more than the summary shows. -/
structure Agree (now : Time) (companyId : CompanyId) (row : Option Switch) (cost : ℚ) : Prop where
  checked : reserves now companyId row cost ↔
    (checkQuota (rowOf now companyId row).account cost).isOk
  shown : reserves now companyId row cost →
    costAcu cost ≤ (getUsageSummary (rowOf now companyId row)).quotaRemaining

/-- No cost is admitted, or none that the multiplier has taken out of the quota. -/
def Unthrottled (s : Switch) : Prop :=
  s.account.aiDisabled ∨ availableAcu s.account ≤ 0 ∨
    s.account.monthlyQuotaAcu ≤ s.account.monthlyQuotaAcu * s.tempQuotaMultiplier ∨
    costAcu (tierOf s.account.plan).maxCostPerJob ≤
      s.account.monthlyQuotaAcu * s.tempQuotaMultiplier - s.account.usedAcu - s.account.reservedAcu

/-! ## The checks -/

theorem checkQuota_isOk (a : BillingAccount) (cost : ℚ) :
    (checkQuota a cost).isOk ↔ a.aiDisabled = false ∧ cost ≤ (tierOf a.plan).maxCostPerJob ∧
      costAcu cost ≤ availableAcu a := by
  cases hdisabled : a.aiDisabled with
  | true => simp [checkQuota, hdisabled, Except.isOk, Except.toBool]
  | false =>
    by_cases htier : (tierOf a.plan).maxCostPerJob < cost
    · simp [checkQuota, hdisabled, htier, Except.isOk, Except.toBool]
    · by_cases hquota : a.monthlyQuotaAcu - a.usedAcu - a.reservedAcu < cost / acuToUsd
      · simp [checkQuota, hdisabled, htier, hquota, availableAcu, costAcu, Except.isOk,
          Except.toBool]
      · simp only [checkQuota, hdisabled, htier, hquota, availableAcu, costAcu, Except.isOk,
          Except.toBool, Bool.false_eq_true, if_false, true_and]
        exact iff_of_true trivial ⟨not_lt.mp htier, not_lt.mp hquota⟩

theorem admissionDenial_eq_none (a : BillingAccount) (cost : ℚ) :
    admissionDenial a cost false = none ↔ a.aiDisabled = false ∧
      cost ≤ (tierOf a.plan).maxCostPerJob ∧ costAcu cost ≤ availableAcu a := by
  cases hdisabled : a.aiDisabled with
  | true => simp [admissionDenial, hdisabled]
  | false =>
    by_cases htier : (tierOf a.plan).maxCostPerJob < cost
    · simp [admissionDenial, hdisabled, htier]
    · by_cases hquota : availableAcu a < costAcu cost
      · simp [admissionDenial, hdisabled, htier, hquota]
      · simp only [admissionDenial, hdisabled, htier, hquota, Bool.false_eq_true, if_false,
          true_and]
        exact iff_of_true trivial ⟨not_lt.mp htier, not_lt.mp hquota⟩

section
variable {now : Time} {companyId : CompanyId} {row : Option Switch} {cost : ℚ}

theorem reserves_iff : reserves now companyId row cost ↔
    admissionDenial (rowOf now companyId row).account cost false = none := by
  have hrow : (row.map Switch.account).getD (newAccount now companyId (some "free")) =
      (rowOf now companyId row).account := by
    cases row <;> rfl
  rw [reserves, maxRetries]
  simp only [Billing.checkAndReserve, hrow]
  cases admissionDenial (rowOf now companyId row).account cost false <;>
    simp [Except.isOk, Except.toBool]

end

theorem maxCostPerJob_pos (plan : Option String) : 0 < (tierOf plan).maxCostPerJob := by
  have htiers : ∀ entry ∈ planTiers, 0 < entry.2.maxCostPerJob := by decide +kernel
  cases hplan : plan.bind fun p => planTiers.lookup p with
  | none =>
    rw [tierOf, tierOr, hplan]
    norm_num [freeTier]
  | some tier =>
    obtain ⟨p, -, hlookup⟩ := Option.bind_eq_some_iff.mp hplan
    obtain ⟨before, after, hsplit, -⟩ := List.lookup_eq_some_iff.mp hlookup
    rw [tierOf, tierOr, hplan]
    exact htiers (p, tier) (hsplit ▸ List.mem_append_right before List.mem_cons_self)

/-! ## Agreement -/

theorem costAcu_le_iff {cost x : ℚ} : costAcu cost ≤ x ↔ cost ≤ x * acuToUsd := by
  rw [costAcu, div_le_iff₀ (by norm_num [acuToUsd])]

theorem costAcu_mono {cost cost' : ℚ} (h : cost ≤ cost') : costAcu cost ≤ costAcu cost' :=
  div_le_div_of_nonneg_right h (by norm_num [acuToUsd])

theorem costAcu_mul (x : ℚ) : costAcu (x * acuToUsd) = x :=
  mul_div_cancel_right₀ x (by norm_num [acuToUsd])

theorem shown_of_unthrottled {s : Switch} (h : Unthrottled s) {cost : ℚ}
    (hadmitted : admissionDenial s.account cost false = none) :
    costAcu cost ≤ (getUsageSummary s).quotaRemaining := by
  obtain ⟨hen, htier, hquota⟩ := (admissionDenial_eq_none s.account cost).mp hadmitted
  rcases h with hdisabled | hempty | hbase | htop
  · rw [hen] at hdisabled
    cases hdisabled
  · exact (hquota.trans hempty).trans (le_max_left _ _)
  · refine hquota.trans (le_max_of_le_right ?_)
    rw [availableAcu]
    linarith
  · exact ((costAcu_mono htier).trans htop).trans (le_max_right _ _)

/-- The largest cost that the checks admit is the plan's maximum or what is available; if the
summary shows that much, it shows enough for every other one. -/
theorem unthrottled_of_shown {s : Switch} (h : ∀ cost, admissionDenial s.account cost false = none →
    costAcu cost ≤ (getUsageSummary s).quotaRemaining) : Unthrottled s := by
  by_contra hnot
  simp only [Unthrottled, not_or, Bool.not_eq_true, not_le] at hnot
  obtain ⟨hen, hleft, hbase, htop⟩ := hnot
  have htier := maxCostPerJob_pos s.account.plan
  have hshown : ∀ x, 0 < x → x ≤ (getUsageSummary s).quotaRemaining →
      x ≤ s.account.monthlyQuotaAcu * s.tempQuotaMultiplier - s.account.usedAcu -
        s.account.reservedAcu := by
    intro x hx hle
    rcases le_max_iff.mp hle with hzero | hle
    · exact absurd hzero (not_le.mpr hx)
    · exact hle
  rcases le_total (tierOf s.account.plan).maxCostPerJob (availableAcu s.account * acuToUsd) with
    hle | hle
  · have hadmitted :=
      (admissionDenial_eq_none s.account _).mpr ⟨hen, le_rfl, costAcu_le_iff.mpr hle⟩
    have hpos : 0 < costAcu (tierOf s.account.plan).maxCostPerJob :=
      div_pos htier (by norm_num [acuToUsd])
    exact absurd (hshown _ hpos (h _ hadmitted)) (not_le.mpr htop)
  · have hadmitted := (admissionDenial_eq_none s.account _).mpr ⟨hen, hle, (costAcu_mul _).le⟩
    have hwithin := h _ hadmitted
    rw [costAcu_mul] at hwithin
    have hcovered := hshown _ hleft hwithin
    rw [availableAcu] at hcovered
    linarith

/-- A free account with 10 of its 15 ACU used, after the abuse detector has seen a spike. -/
def halved : Switch :=
  checkAndUpdateRisk true 6 ⟨{ newAccount 0 7 (some "free") with usedAcu := 10 }, some 30, 1⟩

end WorkTicket.Billing.QuotaAgreement
