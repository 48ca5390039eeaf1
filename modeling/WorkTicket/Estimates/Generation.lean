import WorkTicket.Estimates.Arithmetic
import WorkTicket.Tasks.JobTask

/-! `generate_estimate` and the quota it reserves before it asks the AI: the route neither
reconciles nor releases, so only the rollback of a failing request settles a reservation. -/

namespace WorkTicket.Estimates.Generation

open WorkTicket.Billing
open WorkTicket.Tasks.JobTask (estimateJobCost)
open WorkTicket.Estimates.Arithmetic (noText answer)

/-- A request with what its surroundings answer: the limiter's reason, the rivals of
`check_and_reserve`, the job with its description, and `stores`, whether every flush, the
snapshot and the commit succeed. -/
structure Request where
  now : Time
  description : Option String
  rateLimit : Option String
  rivals : List BillingAccount
  overDailyLimit : Bool
  job : Option (Option String)
  brainConfigured : Bool
  aiResult : Option Json
  newId : ℕ → ℕ
  stores : Bool

inductive Refusal
  | failure (f : Failure)
  | quotaExceeded (d : Denial)
  | raised
  deriving DecidableEq, Repr

def given {α : Type} (x : Option α) (f : Refusal) : Except Refusal α :=
  match x with
  | some a => .ok a
  | none => .error f

/-- `req.description or job.description`, if it is not empty. -/
def jobDescription (r : Request) (job : Option String) : Option String :=
  ((r.description.filter (· ≠ "")).or job).filter (· ≠ "")

def estimatedCostUsd : ℚ := estimateJobCost 0 false * (1 / 2)

section
variable (parse : String → Option ℚ)

/-- The route once it has reserved. -/
def afterReserving (r : Request) : Except Refusal Estimate := do
  let job ← given r.job (.failure (.http 404 "Job not found"))
  let _ ← given (if r.brainConfigured then some () else none) (.failure (.http 400
    "Company pricing brain not configured. Complete onboarding first."))
  let description ← given (jobDescription r job)
    (.failure (.http 400 "Job description is required"))
  let aiResult ← given (r.aiResult.filter Json.truthy)
    (.failure (.http 502 "AI estimation engine failed to generate estimate"))
  let estimate ← given (newEstimate parse r.newId description aiResult) .raised
  given (if r.stores then some estimate else none) .raised

/-- The account after the request and what is answered; every error rolls back. -/
def generateEstimate (companyId : CompanyId) (account : Option BillingAccount) (r : Request) :
    Option BillingAccount × Except Refusal Estimate :=
  if r.description.any (10000 < ·.length) then (account, .error (.failure .unprocessable))
  else match r.rateLimit with
    | some reason => (account, .error (.failure (.http 429 reason)))
    | none =>
      match checkAndReserve (newAccount r.now companyId (some "free")) estimatedCostUsd
        r.overDailyLimit maxRetries account r.rivals with
      | (account, .error d) => (account, .error (.quotaExceeded d))
      | (account, .ok reserved) =>
        match afterReserving parse r with
        | .error f => (account, .error f)
        | .ok estimate => (some reserved, .ok estimate)

def run (companyId : CompanyId) : Option BillingAccount → List Request → Option BillingAccount
  | account, [] => account
  | account, r :: rs => run companyId (generateEstimate parse companyId account r).1 rs

end

def reservedOf (account : Option BillingAccount) : ℚ := account.elim 0 BillingAccount.reservedAcu

/-- The request gets to `check_and_reserve`. -/
def comesIn (r : Request) : Bool :=
  !r.description.any (10000 < ·.length) && r.rateLimit.isNone

/-- The account as the rivals of the request leave it. -/
def foundBy (companyId : CompanyId) (account : Option BillingAccount) (r : Request) :
    Option BillingAccount :=
  if comesIn r then
    (checkAndReserve (newAccount r.now companyId (some "free")) estimatedCostUsd r.overDailyLimit
      maxRetries account r.rivals).1
  else account

section
variable (parse : String → Option ℚ)

/-- After each request nothing of what it has reserved is left. -/
def AlwaysSettles (companyId : CompanyId) : Option BillingAccount → List Request → Prop
  | _, [] => True
  | account, r :: rs =>
    reservedOf (generateEstimate parse companyId account r).1 =
        reservedOf (foundBy companyId account r) ∧
      AlwaysSettles companyId (generateEstimate parse companyId account r).1 rs

/-- The job, the brain and a description are there, and the AI answers with something that
can be stored and is. -/
def canAnswer (r : Request) : Bool :=
  r.job.any fun job => r.brainConfigured && (jobDescription r job).any fun description =>
    (r.aiResult.filter Json.truthy).any fun aiResult =>
      (newEstimate parse r.newId description aiResult).isSome && r.stores

def succeeds (companyId : CompanyId) (account : Option BillingAccount) (r : Request) : Bool :=
  comesIn r && admits (newAccount r.now companyId (some "free")) estimatedCostUsd r.overDailyLimit
    maxRetries account r.rivals && canAnswer parse r

def NoneSucceeds (companyId : CompanyId) : Option BillingAccount → List Request → Prop
  | _, [] => True
  | account, r :: rs =>
    succeeds parse companyId account r = false ∧
      NoneSucceeds companyId (generateEstimate parse companyId account r).1 rs

end

/-! ## One request -/

section
variable {parse : String → Option ℚ} {companyId : CompanyId} {account : Option BillingAccount}

theorem given_bind {α β : Type} (x : Option α) (f : Refusal) (k : α → Except Refusal β) :
    (given x f >>= k).toOption = x.bind fun a => (k a).toOption := by
  cases x <;> rfl

theorem given_toOption {α : Type} (x : Option α) (f : Refusal) : (given x f).toOption = x := by
  cases x <;> rfl

theorem afterReserving_isSome (r : Request) :
    (afterReserving parse r).toOption.isSome = canAnswer parse r := by
  simp only [afterReserving, given_bind, given_toOption, canAnswer, Option.isSome_bind]
  congr 1
  funext job
  cases r.brainConfigured with
  | false => rfl
  | true =>
    rw [if_pos rfl, Option.any_some, Bool.true_and]
    congr 1
    funext description
    congr 1
    funext aiResult
    cases newEstimate parse r.newId description aiResult <;> cases r.stores <;> rfl

theorem found_of_canAnswer {r : Request} (h : canAnswer parse r = true) :
    (∃ job, r.job = some job) ∧ r.stores = true := by
  obtain ⟨job, hjob, hrest⟩ := (Option.any_eq_true _ _).mp h
  obtain ⟨-, hdescription⟩ := Bool.and_eq_true_iff.mp hrest
  obtain ⟨_, -, hresult⟩ := (Option.any_eq_true _ _).mp hdescription
  obtain ⟨_, -, hstored⟩ := (Option.any_eq_true _ _).mp hresult
  exact ⟨⟨job, hjob⟩, (Bool.and_eq_true_iff.mp hstored).2⟩

theorem generateEstimate_isSome (r : Request) :
    (generateEstimate parse companyId account r).2.toOption.isSome =
      succeeds parse companyId account r := by
  unfold generateEstimate succeeds comesIn
  cases r.description.any (10000 < ·.length) with
  | true => rfl
  | false =>
    cases r.rateLimit with
    | some reason => rfl
    | none =>
      have hreserve := checkAndReserve_snd (newAccount r.now companyId (some "free"))
        estimatedCostUsd r.overDailyLimit maxRetries account r.rivals
      generalize checkAndReserve (newAccount r.now companyId (some "free")) estimatedCostUsd
        r.overDailyLimit maxRetries account r.rivals = reservation at hreserve ⊢
      generalize admits (newAccount r.now companyId (some "free")) estimatedCostUsd
        r.overDailyLimit maxRetries account r.rivals = admitted at hreserve ⊢
      rcases reservation with ⟨row, denied | reserved⟩
      · cases admitted with
        | false => rfl
        | true => cases hreserve
      · cases admitted with
        | false => cases hreserve
        | true =>
          rw [← afterReserving_isSome]
          cases afterReserving parse r <;> rfl

theorem reservedOf_withReservation (cost : ℚ) (a : BillingAccount) :
    (withReservation cost a).reservedAcu = a.reservedAcu + costAcu cost := rfl

theorem costAcu_estimatedCostUsd : costAcu estimatedCostUsd = 12 / 100 := by
  decide +kernel

theorem reservedOf_getD (now : Time) (companyId : CompanyId) (plan : Option String)
    (account : Option BillingAccount) :
    (account.getD (newAccount now companyId plan)).reservedAcu = reservedOf account := by
  cases account <;> rfl

/-- A request that succeeds leaves its 0.12 ACU reserved, any other leaves nothing. -/
theorem reservedOf_generateEstimate (r : Request) :
    reservedOf (generateEstimate parse companyId account r).1 =
      reservedOf (foundBy companyId account r) +
        if succeeds parse companyId account r then 12 / 100 else 0 := by
  unfold generateEstimate foundBy succeeds comesIn
  cases r.description.any (10000 < ·.length) with
  | true => simp
  | false =>
    cases r.rateLimit with
    | some reason => simp
    | none =>
      simp only [Bool.false_eq_true, if_false, Option.isNone_none, Bool.not_false, Bool.true_and,
        if_true, ← afterReserving_isSome]
      have hreserve := checkAndReserve_snd (newAccount r.now companyId (some "free"))
        estimatedCostUsd r.overDailyLimit maxRetries account r.rivals
      generalize checkAndReserve (newAccount r.now companyId (some "free")) estimatedCostUsd
        r.overDailyLimit maxRetries account r.rivals = reservation at hreserve ⊢
      obtain ⟨row, error | reserved⟩ := reservation
      · have hdenied : admits (newAccount r.now companyId (some "free")) estimatedCostUsd
            r.overDailyLimit maxRetries account r.rivals = false := by
          by_contra hadmits
          rw [if_pos (Bool.of_not_eq_false hadmits)] at hreserve
          cases hreserve
        simp [hdenied]
      · obtain ⟨hadmits, hreserved⟩ := Option.ite_none_right_eq_some.mp hreserve.symm
        cases afterReserving parse r with
        | error f => simp [Except.toOption]
        | ok estimate =>
          have hadded := reservedOf_withReservation estimatedCostUsd
            (row.getD (newAccount r.now companyId (some "free")))
          rw [Option.some.inj hreserved, reservedOf_getD, costAcu_estimatedCostUsd] at hadded
          simp [hadmits, Except.toOption, reservedOf, hadded]

/-! ## Sequences of requests -/

/-- Nothing stays reserved exactly when no request succeeds. -/
theorem alwaysSettles_iff (parse : String → Option ℚ) (companyId : CompanyId)
    (account : Option BillingAccount) (rs : List Request) :
    AlwaysSettles parse companyId account rs ↔ NoneSucceeds parse companyId account rs := by
  induction rs generalizing account with
  | nil => exact Iff.rfl
  | cons r rs ih =>
    refine and_congr ?_ (ih _)
    rw [reservedOf_generateEstimate]
    cases succeeds parse companyId account r with
    | false => simp
    | true =>
      -- a positive amount stays reserved, so a success never settles
      refine iff_of_false (fun h => ?_) (fun h => nomatch h)
      rw [if_pos rfl] at h
      linarith

theorem withinQuota_generateEstimate {r : Request} (h : ∀ a ∈ account, WithinQuota a)
    (hrivals : ∀ a ∈ r.rivals, WithinQuota a) :
    ∀ a ∈ (generateEstimate parse companyId account r).1, WithinQuota a := by
  unfold generateEstimate
  split
  · exact h
  split
  · exact h
  split
  · rename_i hreserve
    exact (checkAndReserve_withinQuota h hrivals hreserve).1
  · rename_i reserved hreserve
    have hquota := checkAndReserve_withinQuota h hrivals hreserve
    split
    · exact hquota.1
    · intro a ha
      exact Option.some.inj ha ▸ hquota.2 reserved rfl

/-- Only the quota bounds what the requests leave reserved. -/
theorem withinQuota_run (rs : List Request) (h : ∀ a ∈ account, WithinQuota a)
    (hrivals : ∀ r ∈ rs, ∀ a ∈ r.rivals, WithinQuota a) :
    ∀ a ∈ run parse companyId account rs, WithinQuota a := by
  induction rs generalizing account with
  | nil => exact h
  | cons r rs ih =>
    exact ih (withinQuota_generateEstimate h (hrivals r List.mem_cons_self))
      fun r' hr' => hrivals r' (List.mem_cons_of_mem _ hr')

end

/-! ## A request that succeeds -/

def pumpRequest : Request :=
  ⟨0, some "Fix the pump", none, [], false, some none, true, some answer, id, true⟩

/-- The estimate is there, and 0.12 ACU stay reserved. -/
theorem pumpRequest_not_settles : ¬ AlwaysSettles noText 7 none [pumpRequest] := by
  rintro ⟨h, -⟩
  exact absurd h (by decide +kernel)

end WorkTicket.Estimates.Generation
