import WorkTicket.Billing.Ledger
import WorkTicket.Foundation.Retries

/-! What a call of `check_and_reserve` leaves in the account, in the user's daily usage and in
the job's estimate. Each of its tries runs in a savepoint: an error takes back what the try
wrote, a return does not. -/

namespace WorkTicket.Billing.DeniedReservations

open WorkTicket.Decimals WorkTicket.Retries

/-- The row of `user_daily_usage` of the user and the day. -/
structure DailyUsage where
  acuUsed : ℚ
  jobCount : ℕ
  deriving DecidableEq, Repr

/-- The row of `ai_job_estimates` of the job. -/
structure JobEstimate where
  textCost : ℚ
  visionCost : ℚ
  audioCost : ℚ
  totalCost : ℚ
  approved : Bool
  billingPeriod : Time
  deriving DecidableEq, Repr

structure Tables where
  account : Option BillingAccount
  daily : Option DailyUsage
  estimate : Option JobEstimate
  deriving DecidableEq, Repr

structure Request where
  now : Time
  companyId : CompanyId
  estimatedCostUsd : ℚ
  userId : Option String
  dailyLimit : ℚ

/-- What a try finds: the rows when it starts, and the account as another transaction commits
it, if one does, before its UPDATE. The rows that the try itself has written are locked. -/
structure Try where
  seen : Tables
  rival : Option BillingAccount

def Request.hasUser (r : Request) : Bool := r.userId.getD "" ≠ ""

def acuUsed (daily : Option DailyUsage) : ℚ := daily.elim 0 DailyUsage.acuUsed

def jobCount (daily : Option DailyUsage) : ℕ := daily.elim 0 DailyUsage.jobCount

/-- The upsert of `user_daily_usage`; the column rounds the sum. -/
def charge (cost : ℚ) (daily : Option DailyUsage) : DailyUsage :=
  ⟨acuColumn.rounded (acuUsed daily + costAcu cost), jobCount daily + 1⟩

def jobEstimate (now : Time) (cost : ℚ) (a : BillingAccount) : JobEstimate where
  textCost := cost * (2 / 10)
  visionCost := if 5 / 1000 < cost then cost * (5 / 10) else 0
  audioCost := if 8 / 1000 < cost then cost * (3 / 10) else 0
  totalCost := cost
  approved := true
  billingPeriod := billingPeriodOf now a

/-- How a try ends: it returns, it reaches its end, or it raises `_ConcurrencyRetryError`. -/
inductive End
  | denied (d : Denial)
  | reserved
  | conflict
  deriving DecidableEq, Repr

/-- How a try ends, the rows as the others have left them by then, and the rows with what is
left of its own writes. -/
structure Ended where
  how : End
  before : Tables
  after : Tables
  deriving DecidableEq, Repr

section
variable (r : Request)

/-- The account that the try reads, created if it is missing. -/
def Try.account (t : Try) : BillingAccount :=
  t.seen.account.getD (newAccount r.now r.companyId (some "free"))

/-- The account row that the UPDATE finds: nobody else writes one that the try has created. -/
def Try.found (t : Try) : BillingAccount :=
  if t.seen.account.isSome then t.rival.getD (t.account r) else t.account r

/-- The rows without the try's own writes, at its UPDATE. -/
def Try.others (t : Try) : Tables :=
  if t.seen.account.isSome then { t.seen with account := some (t.found r) } else t.seen

def overDailyLimit (daily : Option DailyUsage) : Bool :=
  r.hasUser && r.dailyLimit < (charge r.estimatedCostUsd daily).acuUsed

/-- The body of the loop. A return inside `begin_nested` releases the savepoint and keeps
what was written in it. -/
def Try.perform (t : Try) : Ended :=
  let account := t.account r
  let opened := { t.seen with account := some account }
  match admissionDenial account r.estimatedCostUsd false with
  | some d => ⟨.denied d, t.seen, opened⟩
  | none =>
    let charged := if r.hasUser then
      { opened with daily := some (charge r.estimatedCostUsd t.seen.daily) } else opened
    if overDailyLimit r t.seen.daily then ⟨.denied .userDailyLimit, t.seen, charged⟩
    else match versionedUpdate account (t.found r)
        (reserveWrite r.estimatedCostUsd account) with
      | none => ⟨.conflict, t.others r, t.others r⟩
      | some a => ⟨.reserved, t.others r, { charged with account := some a }⟩

/-- The insert of the estimate after the loop, which does nothing if the job has one. -/
def insertEstimate (a : BillingAccount) (t : Tables) : Tables :=
  { t with estimate := t.estimate.or (some (jobEstimate r.now r.estimatedCostUsd a)) }

structure Outcome where
  answer : Except Denial Unit
  before : Tables
  after : Tables

/-- The try with `more` tries left after it, of the tries that `world` counts. -/
def attempt (world : ℕ → Try) : (more : ℕ) → (k : ℕ) → Outcome
  | more, k =>
    let out := (world k).perform r
    match out.how with
    | .denied d => ⟨.error d, out.before, out.after⟩
    | .reserved => ⟨.ok (), out.before, insertEstimate r ((world k).account r) out.after⟩
    | .conflict =>
      match more with
      | 0 => ⟨.error .concurrencyLimit, out.before, out.after⟩
      | more + 1 => attempt world more (k + 1)

/-- `check_and_reserve` and the commit of its transaction. -/
def checkAndReserve (world : ℕ → Try) : Outcome := attempt r world (maxRetries - 1) 0

attribute [grind =] Try.account Try.found Try.others overDailyLimit Try.perform insertEstimate
  attempt checkAndReserve

/-! ## All or nothing -/

/-- A call that is denied changes no row, and one that is allowed charges the user once. -/
structure AllOrNothing (out : Outcome) : Prop where
  denied : ∀ d, out.answer = .error d → out.after = out.before
  allowed : out.answer = .ok () → r.hasUser →
    acuUsed out.after.daily = acuUsed out.before.daily + costAcu r.estimatedCostUsd ∧
      jobCount out.after.daily = jobCount out.before.daily + 1

/-- Another transaction has changed the version that the try has read. -/
def Try.Outrun (t : Try) : Prop := (t.found r).version ≠ (t.account r).version

/-- If the account admits the cost, the user's day has room for it, and if nothing is in the
way then the day's usage with it has no more decimals than its column. -/
def Try.Fits (t : Try) : Prop :=
  admissionDenial (t.account r) r.estimatedCostUsd false = none → r.hasUser →
    overDailyLimit r t.seen.daily = false ∧
      (¬t.Outrun r → acuColumn.OnScale (acuUsed t.seen.daily + costAcu r.estimatedCostUsd))

/-- The call gets past the try: it is admitted, and outrun. -/
def Try.Repeated (t : Try) : Prop :=
  admissionDenial (t.account r) r.estimatedCostUsd false = none ∧
    overDailyLimit r t.seen.daily = false ∧ t.Outrun r

/-- Every try that the call makes fits. -/
def FitsAll (world : ℕ → Try) : Prop :=
  EachTry (fun i => (world i).Repeated r) (fun i => (world i).Fits r) (maxRetries - 1) 0

end

/-! ## One try -/

variable {r : Request} {t : Try}

theorem perform_denied {d : Denial}
    (h : admissionDenial (t.account r) r.estimatedCostUsd false = some d) :
    t.perform r = ⟨.denied d, t.seen, { t.seen with account := some (t.account r) }⟩ := by
  simp only [Try.perform, h]

theorem hasUser_of_overDailyLimit {daily : Option DailyUsage}
    (h : overDailyLimit r daily = true) : r.hasUser = true := by
  simp only [overDailyLimit, Bool.and_eq_true] at h
  exact h.1

theorem perform_overLimit
    (h : admissionDenial (t.account r) r.estimatedCostUsd false = none)
    (hover : overDailyLimit r t.seen.daily = true) :
    t.perform r = ⟨.denied .userDailyLimit, t.seen, { t.seen with
      account := some (t.account r)
      daily := some (charge r.estimatedCostUsd t.seen.daily) }⟩ := by
  simp only [Try.perform, h, hover, hasUser_of_overDailyLimit hover, if_true]

theorem perform_conflict (h : t.Repeated r) :
    t.perform r = ⟨.conflict, t.others r, t.others r⟩ := by
  obtain ⟨hadmitted, hroom, houtrun⟩ := h
  have hmiss : versionedUpdate (t.account r) (t.found r)
      (reserveWrite r.estimatedCostUsd (t.account r)) = none := if_neg houtrun
  simp only [Try.perform, hadmitted, hroom, hmiss, Bool.false_eq_true, if_false]

theorem perform_reserved
    (h : admissionDenial (t.account r) r.estimatedCostUsd false = none)
    (hroom : overDailyLimit r t.seen.daily = false) (hfirst : ¬t.Outrun r) :
    ∃ a, t.perform r = ⟨.reserved, t.others r,
      { t.seen with
        account := some a
        daily := if r.hasUser then some (charge r.estimatedCostUsd t.seen.daily)
          else t.seen.daily }⟩ := by
  have hversion : (t.found r).version = (t.account r).version := not_not.mp hfirst
  refine ⟨{ reserveWrite r.estimatedCostUsd (t.account r) (t.found r) with
    version := (t.account r).version + 1 }, ?_⟩
  simp only [Try.perform, h, hroom, versionedUpdate, hversion, Bool.false_eq_true, if_false,
    if_true]
  cases r.hasUser <;> rfl

theorem others_daily : (t.others r).daily = t.seen.daily := by
  unfold Try.others
  split <;> rfl

theorem acuUsed_charge_iff {cost : ℚ} {daily : Option DailyUsage} :
    acuUsed (some (charge cost daily)) = acuUsed daily + costAcu cost ↔
      acuColumn.OnScale (acuUsed daily + costAcu cost) := by
  constructor
  · intro h
    exact h ▸ Column.onScale_rounded
  · exact Column.OnScale.rounded

theorem Try.Repeated.fits (h : t.Repeated r) : t.Fits r :=
  fun _ _ => ⟨h.2.1, fun hfirst => absurd h.2.2 hfirst⟩

theorem charge_ne (cost : ℚ) (daily : Option DailyUsage) : some (charge cost daily) ≠ daily := by
  intro h
  have hcount := congrArg jobCount h
  simp [jobCount, charge] at hcount

/-! ## The call -/

section
variable {world : ℕ → Try} {more k : ℕ} {before after : Tables}

theorem attempt_denied {d : Denial} (h : (world k).perform r = ⟨.denied d, before, after⟩) :
    attempt r world more k = ⟨.error d, before, after⟩ := by
  cases more <;> simp only [attempt, h]

theorem attempt_reserved (h : (world k).perform r = ⟨.reserved, before, after⟩) :
    attempt r world more k =
      ⟨.ok (), before, insertEstimate r ((world k).account r) after⟩ := by
  cases more <;> simp only [attempt, h]

theorem attempt_outrun (h : (world k).Repeated r) : attempt r world 0 k =
    ⟨.error .concurrencyLimit, (world k).others r, (world k).others r⟩ := by
  simp only [attempt, perform_conflict h]

theorem attempt_succ (h : (world k).Repeated r) :
    attempt r world (more + 1) k = attempt r world more (k + 1) := by
  rw [attempt]
  simp only [perform_conflict h]

end

/-- A try that is not repeated ends the call. -/
theorem attempt_last {world : ℕ → Try} {more k : ℕ} (hthere : (world k).seen.account.isSome)
    (h : ¬(world k).Repeated r) :
    AllOrNothing r (attempt r world more k) ↔ (world k).Fits r := by
  obtain ⟨a, ha⟩ := Option.isSome_iff_exists.mp hthere
  have haccount : (world k).account r = a := by simp [Try.account, ha]
  cases hadmission : admissionDenial ((world k).account r) r.estimatedCostUsd false with
  | some d =>
    rw [attempt_denied (perform_denied hadmission)]
    refine iff_of_true ⟨fun _ _ => ?_, fun hok => (nomatch hok)⟩ fun hnone => ?_
    · rw [haccount, ← ha]
    · rw [hadmission] at hnone
      cases hnone
  | none =>
    cases hroom : overDailyLimit r (world k).seen.daily with
    | true =>
      have huser := hasUser_of_overDailyLimit hroom
      rw [attempt_denied (perform_overLimit hadmission hroom)]
      refine iff_of_false ?_ fun hfits => ?_
      · intro hall
        exact charge_ne _ _ (congrArg Tables.daily (hall.denied .userDailyLimit rfl))
      · exact absurd ((hfits hadmission huser).1.symm.trans hroom) Bool.false_ne_true
    | false =>
      have hfirst : ¬(world k).Outrun r := fun houtrun => h ⟨hadmission, hroom, houtrun⟩
      obtain ⟨b, hperform⟩ := perform_reserved hadmission hroom hfirst
      rw [attempt_reserved hperform]
      constructor
      · intro hall _ huser
        have hcharged := (hall.allowed rfl huser).1
        simp only [insertEstimate, huser, if_true, others_daily] at hcharged
        exact ⟨hroom, fun _ => acuUsed_charge_iff.mp hcharged⟩
      · intro hfits
        refine ⟨fun d hd => (nomatch hd), fun _ huser => ?_⟩
        simp only [insertEstimate, huser, if_true, others_daily]
        exact ⟨acuUsed_charge_iff.mpr ((hfits hadmission huser).2 hfirst), rfl⟩

theorem attempt_allOrNothing_iff {world : ℕ → Try} {more k : ℕ}
    (hthere : ∀ i, (world i).seen.account.isSome) :
    AllOrNothing r (attempt r world more k) ↔
      EachTry (fun i => (world i).Repeated r) (fun i => (world i).Fits r) more k := by
  induction more generalizing k with
  | zero =>
    by_cases hrepeated : (world k).Repeated r
    · rw [attempt_outrun hrepeated, eachTry_zero]
      exact iff_of_true ⟨fun _ _ => rfl, fun hok => nomatch hok⟩ hrepeated.fits
    · rw [attempt_last (hthere k) hrepeated, eachTry_last hrepeated]
  | succ more ih =>
    by_cases hrepeated : (world k).Repeated r
    · rw [attempt_succ hrepeated, eachTry_succ hrepeated hrepeated.fits, ih]
    · rw [attempt_last (hthere k) hrepeated, eachTry_last hrepeated]

/-- For a company with an account, however often its row changes: a denied call changes
nothing and an allowed one charges the user exactly once, if and only if no try of the call
that passes the checks of the account finds the user's day too full, and the one that reserves
does not charge a fraction that the column cannot hold. -/
theorem checkAndReserve_allOrNothing_iff {world : ℕ → Try}
    (hthere : ∀ i, (world i).seen.account.isSome) :
    AllOrNothing r (checkAndReserve r world) ↔ FitsAll r world :=
  attempt_allOrNothing_iff hthere

def account : BillingAccount :=
  ⟨7, "pro", 600, 10, 5, 0, none, false, none, none, none, none, none, 0⟩

/-- A call for 1 ACU by a user with a limit of 50 a day. -/
def request : Request := ⟨0, 7, 1 / 100, some "user", 50⟩

/-- A try alone with the account, after `spent` ACU of the day. -/
def tryAfter (spent : ℚ) : Try := ⟨⟨some account, some ⟨spent, 3⟩, none⟩, none⟩

theorem allOrNothing_freeDay :
    AllOrNothing request (checkAndReserve request fun _ => tryAfter 10) := by
  refine (checkAndReserve_allOrNothing_iff fun _ => rfl).mpr fun _ _ _ _ _ => ?_
  exact ⟨by decide +kernel, fun _ => ⟨110000, by
    norm_num [tryAfter, acuUsed, request, costAcu, acuToUsd, Column.unit, acuColumn]⟩⟩

/-- The call is denied for the day's limit, and has raised the day's usage to 50.99. -/
theorem not_allOrNothing_fullDay :
    ¬AllOrNothing request (checkAndReserve request fun _ => tryAfter (4999 / 100)) := by
  intro hall
  have hover := perform_overLimit (r := request) (t := tryAfter (4999 / 100))
    (by decide +kernel) (by decide +kernel)
  rw [checkAndReserve, attempt_denied hover] at hall
  exact charge_ne _ _ (congrArg Tables.daily (hall.denied .userDailyLimit rfl))

end WorkTicket.Billing.DeniedReservations
