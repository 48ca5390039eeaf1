import WorkTicket.Tasks.JobTask

/-! Which attempts of `process_job_task` reach the AI gateway. An attempt is given by its
arguments and by what Redis and the database answer it; up to the gateway it sends each
command at most once. -/

namespace WorkTicket.Tasks.GatewayEntry

open WorkTicket.Billing WorkTicket.Billing.ConcurrentCalls WorkTicket.Tasks.JobTask
open Program hiding ask

section
variable (a : Attempt) (answers : (c : Command) → Except Fault (Answer c))

def commands : List Command := (processJobTask a).calls answers

def EntersGateway : Prop := .processJob ∈ commands a answers

def AcquiredLock : Prop :=
  (.setLock ∈ commands a answers ∧ answers .setLock = .ok true) ∨
    (.takeOver ∈ commands a answers ∧ answers .takeOver = .ok true)

def QuotaAllowed : Prop :=
  ∃ cost, .bill (.checkAndReserve cost) ∈ commands a answers ∧
    answers (.bill (.checkAndReserve cost)) = .ok .allowed

def JobFound : Prop := ∃ job, answers .selectJob = .ok (some job)

def AlreadyProcessed : Prop :=
  ∃ job, answers .selectJob = .ok (some job) ∧ job.current = .completed

/-- The gateway is entered only with the lock and the quota, for a job that exists and was
not processed before. -/
def GuardedEntry : Prop :=
  EntersGateway a answers → AcquiredLock a answers ∧ QuotaAllowed a answers ∧
    JobFound answers ∧ ¬ AlreadyProcessed answers

/-! ## The answers on the way to the gateway -/

def PassesGuards : Prop :=
  minSupportedVersion ≤ a.payloadVersion ∧ a.payloadVersion ≤ maxSupportedVersion ∧
    a.payloadVersion ≤ workerVersion ∧ answers .signingKey = .ok true ∧
    answers .verifyTaskPayload = .ok true ∧
    (0 < a.retries → answers .checkRetryStorm = .ok true) ∧ answers .aiDisabled = .ok false

def HolderLooksStale : Prop :=
  answers .getLock = .ok true ∧ answers .getHeartbeat = .ok true ∧
    ∃ ttl, answers .lockTtl = .ok ttl ∧ ttl ≤ 30

def HolderLooksAlive : Prop :=
  answers .getLock = .ok true ∧ answers .getHeartbeat = .ok true ∧
    ∃ ttl, answers .lockTtl = .ok ttl ∧ 30 < ttl

def LockGranted : Prop :=
  (if 0 < a.retries then HolderLooksStale answers ∧ answers .takeOver = .ok true
    else answers .setLock = .ok true) ∧ answers .setHeartbeat = .ok ()

def LockRefused : Prop :=
  if 0 < a.retries then
    answers .getLock = .ok false ∨
      answers .getLock = .ok true ∧ answers .getHeartbeat = .ok false ∨
      HolderLooksAlive answers ∨ HolderLooksStale answers ∧ answers .takeOver = .ok false
  else answers .setLock = .ok false

def Claimed : Prop :=
  JobFound answers ∧ LockGranted a answers ∧
    (∃ t, answers (.reconcileJobState .queued .reserved) = .ok t ∧ t ≠ .inconsistent) ∧
    (0 < a.retries → answers .countRetry = .ok ())

def PreReserved : Prop := a.retries = 0 ∧ 0 < a.reservedAcu

instance : Decidable (PreReserved a) := inferInstanceAs (Decidable (_ ∧ _))

def estimatedCost : ℚ :=
  if a.retries = 0 then a.estimatedCostUsd else estimateJobCost a.imageCount a.hasAudio

def quotaAnswer : Except Fault Report := answers (.bill (.checkAndReserve (estimatedCost a)))

def EntersProcessing : Prop :=
  (∃ t, answers (.reconcileJobState .reserved .processing) = .ok t ∧ t ≠ .inconsistent) ∧
    answers .heartbeatReservation = .ok () ∧ answers .commit = .ok ()

/-- Phase 1 comes to its `return` although the attempt should end here. -/
inductive SlipsThrough : Prop
  | lockRefused (hjob : JobFound answers) (hrefused : LockRefused a answers)
      (hreleased : 0 < a.reservedAcu →
        ∃ r, answers (.bill (.releaseReserved a.reservedAcu)) = .ok r)
  | quotaDenied (hclaimed : Claimed a answers) (hpre : ¬ PreReserved a)
      (hdenied : ∃ r, quotaAnswer a answers = .ok r ∧ r ≠ .allowed)
      (hfailed : ∃ b, answers .transitionFailed = .ok b)
  | preReserved (hclaimed : Claimed a answers) (hpre : PreReserved a)
      (henters : EntersProcessing answers)
  | alreadyProcessed (hclaimed : Claimed a answers) (hpre : ¬ PreReserved a)
      (hallowed : quotaAnswer a answers = .ok .allowed) (henters : EntersProcessing answers)
      (hprocessed : AlreadyProcessed answers)

end

section
variable {a : Attempt} {answers : (c : Command) → Except Fault (Answer c)}

theorem check_eq_none {p : Prog Bool} {ending : Ending} {rest : Prog (Option Ending)} :
    (p >>= fun b => if !b then pure (some ending) else rest).result answers = .ok none ↔
      p.result answers = .ok true ∧ rest.result answers = .ok none := by
  rw [result_bind]
  cases p.result answers with
  | error e => simp
  | ok b => cases b <;> simp

theorem guards_eq_none : (guards a).result answers = .ok none ↔ PassesGuards a answers := by
  unfold guards PassesGuards
  by_cases hversion : a.payloadVersion < minSupportedVersion ∨
    maxSupportedVersion < a.payloadVersion
  · rw [if_pos hversion]
    refine iff_of_false (fun h => nomatch Except.ok.inj h) fun hp => ?_
    exact hversion.elim (not_lt.mpr hp.1) (not_lt.mpr hp.2.1)
  rw [if_neg hversion]
  obtain ⟨hmin, hmax⟩ := not_or.mp hversion
  by_cases hworker : workerVersion < a.payloadVersion
  · rw [if_pos hworker]
    exact iff_of_false (fun h => nomatch Except.ok.inj h) fun hp => not_lt.mpr hp.2.2.1 hworker
  rw [if_neg hworker, check_eq_none, check_eq_none, check_eq_none]
  have hdisabled : (ask .aiDisabled >>= fun disabled =>
      if disabled then pure (some (.refused "ai_disabled")) else pure none :
      Prog (Option Ending)).result answers = .ok none ↔ answers .aiDisabled = .ok false := by
    rw [result_bind, result_ask]
    cases answers .aiDisabled with
    | error e => simp
    | ok b => cases b <;> simp
  have hstorm : (if 0 < a.retries then ask .checkRetryStorm else pure true : Prog Bool).result
      answers = .ok true ↔ (0 < a.retries → answers .checkRetryStorm = .ok true) := by
    split <;> simp [*]
  simp only [hdisabled, hstorm, result_ask, not_lt.mp hmin, not_lt.mp hmax, not_lt.mp hworker,
    true_and]

theorem takeOverLock_eq_ok {b : Bool} : takeOverLock.result answers = .ok b ↔
    (HolderLooksStale answers ∧ answers .takeOver = .ok b) ∨
    b = false ∧ (answers .getLock = .ok false ∨
      answers .getLock = .ok true ∧ answers .getHeartbeat = .ok false ∨
      HolderLooksAlive answers) := by
  unfold takeOverLock HolderLooksStale HolderLooksAlive
  rw [result_bind, result_ask]
  cases answers .getLock with
  | error e => simp
  | ok held =>
    cases held with
    | false => simp [eq_comm]
    | true =>
      simp only [if_true, result_bind, result_ask]
      cases answers .getHeartbeat with
      | error e => simp
      | ok beating =>
        cases beating with
        | false => simp [eq_comm]
        | true =>
          simp only [if_true, result_bind, result_ask]
          cases answers .lockTtl with
          | error e => simp
          | ok ttl =>
            by_cases httl : 30 < ttl
            · simp [httl, eq_comm]
            · simp [httl, not_lt.mp httl]

theorem acquireLock_eq_ok {b : Bool} : (acquireLock a).result answers = .ok b ↔
    (if 0 < a.retries then takeOverLock.result answers = .ok b else answers .setLock = .ok b) ∧
      (b = true → answers .setHeartbeat = .ok ()) := by
  have hask : ∀ b, (if 0 < a.retries then takeOverLock else ask .setLock : Prog Bool).result
      answers = .ok b ↔
      if 0 < a.retries then takeOverLock.result answers = .ok b else answers .setLock = .ok b :=
    fun b => by split <;> simp
  unfold acquireLock
  simp only [result_bind_eq_ok, result_onlyIf_eq_ok, result_ask, result_pure, Except.ok.injEq, hask]
  constructor
  · rintro ⟨b, hacquired, -, hbeat, rfl⟩
    exact ⟨hacquired, hbeat⟩
  · rintro ⟨hacquired, hbeat⟩
    exact ⟨b, hacquired, (), hbeat, rfl⟩

theorem acquireLock_eq_true :
    (acquireLock a).result answers = .ok true ↔ LockGranted a answers := by
  simp [acquireLock_eq_ok, takeOverLock_eq_ok, LockGranted]

theorem acquireLock_eq_false :
    (acquireLock a).result answers = .ok false ↔ LockRefused a answers := by
  simp only [acquireLock_eq_ok, takeOverLock_eq_ok, LockRefused, Bool.false_eq_true,
    false_imp_iff, and_true, true_and]
  split
  · rw [or_comm, or_assoc, or_assoc]
  · rfl

theorem enterProcessing_eq_ok {estimatedCostUsd reservedAcu : ℚ} {r : Phase1Result} :
    (enterProcessing a estimatedCostUsd reservedAcu).result answers = .ok r ↔
      EntersProcessing answers ∧ r = .tuple .job ⟨estimatedCostUsd, reservedAcu, true⟩ := by
  unfold enterProcessing EntersProcessing
  simp only [result_bind_eq_ok, result_raiseIf_eq_ok, result_ask, result_pure, Except.ok.injEq]
  constructor
  · rintro ⟨t, ht, u, hconsistent, v, hbeat, w, hcommit, rfl⟩
    exact ⟨⟨⟨t, ht, hconsistent⟩, hbeat, hcommit⟩, rfl⟩
  · rintro ⟨⟨⟨t, ht, hconsistent⟩, hbeat, hcommit⟩, rfl⟩
    exact ⟨t, ht, (), hconsistent, (), hbeat, (), hcommit, rfl⟩

theorem reserveQuota_eq_ok {estimatedCostUsd : ℚ} {r : Phase1Result} :
    (reserveQuota a estimatedCostUsd).result answers = .ok r ↔
      (answers (.bill (.checkAndReserve estimatedCostUsd)) = .ok .allowed ∧
        EntersProcessing answers ∧
        r = .tuple .job ⟨estimatedCostUsd, costAcu estimatedCostUsd, true⟩) ∨
      ((∃ d, answers (.bill (.checkAndReserve estimatedCostUsd)) = .ok d ∧ d ≠ .allowed) ∧
        (∃ b, answers .transitionFailed = .ok b) ∧
        r = .tuple .quotaExceeded ⟨estimatedCostUsd, a.reservedAcu, true⟩) := by
  unfold reserveQuota
  simp only [result_bind_eq_ok, result_ask]
  constructor
  · rintro ⟨report, hreport, h⟩
    by_cases hallowed : report = .allowed
    · rw [if_pos hallowed, enterProcessing_eq_ok] at h
      exact .inl ⟨hallowed ▸ hreport, h⟩
    · rw [if_neg hallowed] at h
      simp only [result_bind_eq_ok, result_ask, result_pure, Except.ok.injEq] at h
      obtain ⟨b, hb, rfl⟩ := h
      exact .inr ⟨⟨report, hreport, hallowed⟩, ⟨b, hb⟩, rfl⟩
  · rintro (⟨hreport, h⟩ | ⟨⟨report, hreport, hdenied⟩, ⟨b, hb⟩, rfl⟩)
    · refine ⟨.allowed, hreport, ?_⟩
      rwa [if_pos rfl, enterProcessing_eq_ok]
    · refine ⟨report, hreport, ?_⟩
      rw [if_neg hdenied]
      simp [result_bind_eq_ok, hb]

theorem reserveForJob_eq : reserveForJob a =
    if PreReserved a then enterProcessing a a.estimatedCostUsd a.reservedAcu
    else reserveQuota a (estimatedCost a) := by
  unfold reserveForJob PreReserved estimatedCost
  by_cases hfirst : a.retries = 0
  · simp [hfirst]
  · simp [hfirst]

theorem claimJob_eq_ok {r : Phase1Result} : (claimJob a).result answers = .ok r ↔
    ((∃ t, answers (.reconcileJobState .queued .reserved) = .ok t ∧ t ≠ .inconsistent) ∧
      (0 < a.retries → answers .countRetry = .ok ())) ∧
    (reserveForJob a).result answers = .ok r := by
  unfold claimJob
  simp only [result_bind_eq_ok, result_raiseIf_eq_ok, result_onlyIf_eq_ok, result_ask]
  constructor
  · rintro ⟨t, ht, u, hconsistent, v, hcount, h⟩
    exact ⟨⟨⟨t, ht, hconsistent⟩, hcount⟩, h⟩
  · rintro ⟨⟨⟨t, ht, hconsistent⟩, hcount⟩, h⟩
    exact ⟨t, ht, (), hconsistent, (), hcount, h⟩

theorem phase1PreAi_eq_ok {r : Phase1Result} : (phase1PreAi a).result answers = .ok r ↔
    JobFound answers ∧ ((LockGranted a answers ∧ (claimJob a).result answers = .ok r) ∨
      (LockRefused a answers ∧
        (0 < a.reservedAcu → ∃ s, answers (.bill (.releaseReserved a.reservedAcu)) = .ok s) ∧
        r = .tuple .none ⟨a.estimatedCostUsd, a.reservedAcu, true⟩)) := by
  have hrelease : (releaseIn a.reservedAcu).result answers = .ok () ↔
      ∃ s, answers (.bill (.releaseReserved a.reservedAcu)) = .ok s := by
    simp [releaseIn, result_bind_eq_ok]
  unfold phase1PreAi JobFound
  simp only [result_bind_eq_ok, result_raiseIf_eq_ok, result_ask]
  constructor
  · rintro ⟨job, hjob, u, hfound, acquired, hacquired, h⟩
    obtain ⟨j, rfl⟩ := Option.ne_none_iff_exists'.mp hfound
    refine ⟨⟨j, hjob⟩, ?_⟩
    cases acquired with
    | true => exact .inl ⟨acquireLock_eq_true.mp hacquired, h⟩
    | false =>
      simp only [Bool.false_eq_true, if_false, result_bind_eq_ok, result_onlyIf_eq_ok, hrelease,
        result_pure, Except.ok.injEq] at h
      obtain ⟨-, hreleased, rfl⟩ := h
      exact .inr ⟨acquireLock_eq_false.mp hacquired, hreleased, rfl⟩
  · rintro ⟨⟨job, hjob⟩, ⟨hgranted, h⟩ | ⟨hrefused, hreleased, rfl⟩⟩
    · exact ⟨some job, hjob, (), Option.some_ne_none job, true,
        acquireLock_eq_true.mpr hgranted, h⟩
    · refine ⟨some job, hjob, (), Option.some_ne_none job, false,
        acquireLock_eq_false.mpr hrefused, ?_⟩
      simp only [Bool.false_eq_true, if_false, result_bind_eq_ok, result_onlyIf_eq_ok, hrelease]
      exact ⟨(), hreleased, rfl⟩

/-! ## The commands of an attempt -/

/-- The commands that decide neither lock nor quota and are not the gateway. -/
def Outside : Command → Prop
  | .processJob | .setLock | .takeOver | .bill (.checkAndReserve _) => False
  | _ => True

theorem callsOnly_session {α : Type} {S : Command → Prop} {body : Prog α}
    (hbody : body.CallsOnly S) (hclose : S .close) : (session body).CallsOnly S :=
  hbody.outcome.bind fun _ => (CallsOnly.outcome (callsOnly_ask.mpr hclose)).bind fun _ => trivial

theorem result_session {α : Type} {body : Prog α} :
    (session body).result answers = .ok (body.result answers) := by
  simp [session, result_bind]

theorem mem_calls_session {α : Type} {body : Prog α} {c : Command} :
    c ∈ (session body).calls answers ↔ c ∈ body.calls answers ∨ c = .close := by
  simp [session, mem_calls_bind]

theorem guards_outside : (guards a).CallsOnly Outside := by
  refine guards_calls.mono fun c hc => ?_
  simp only [List.mem_cons, List.not_mem_nil, or_false] at hc
  rcases hc with rfl | rfl | rfl | rfl <;> trivial

theorem releaseIn_outside {reservedAcu : ℚ} : (releaseIn reservedAcu).CallsOnly Outside :=
  (callsOnly_ask.mpr trivial).bind fun _ => trivial

theorem deleteLock_outside : deleteLock.CallsOnly Outside :=
  deleteLock_calls.mono fun _ hc => hc ▸ trivial

theorem releaseReservationWithRetry_outside {reservedAcu : ℚ} {tries : ℕ} {e : Option Fault} :
    (releaseReservationWithRetry a reservedAcu tries e).CallsOnly Outside := by
  induction tries generalizing e with
  | zero =>
    refine (callsOnly_session ?_ trivial).bind fun _ => trivial
    exact (callsOnly_ask.mpr trivial).bind fun _ => callsOnly_ask.mpr trivial
  | succ tries ih =>
    refine (callsOnly_session ?_ trivial).bind fun released => ?_
    · exact releaseIn_outside.bind fun _ => callsOnly_ask.mpr trivial
    · cases released with
      | ok u => trivial
      | error e => exact ih

theorem onFailure_outside {l : Locals} {e : Fault} : (onFailure a l e).CallsOnly Outside :=
  (CallsOnly.onlyIf releaseReservationWithRetry_outside).bind fun _ =>
    (CallsOnly.onlyIf deleteLock_outside).bind fun _ => trivial

theorem phase3PostAi_outside {l : Locals} {output : GatewayOutput} :
    (phase3PostAi a l output).CallsOnly Outside := by
  refine callsOnly_session ?_ trivial
  refine (callsOnly_ask.mpr trivial).bind fun _ => callsOnly_raiseIf.bind fun _ => ?_
  refine (callsOnly_ask.mpr trivial).bind fun _ => (callsOnly_ask.mpr trivial).bind fun _ => ?_
  refine (CallsOnly.onlyIf (callsOnly_ask.mpr trivial)).bind fun _ => ?_
  refine (CallsOnly.outcome (callsOnly_ask.mpr trivial)).bind fun _ => ?_
  refine (callsOnly_ask.mpr trivial).bind fun _ => ?_
  exact (CallsOnly.onlyIf deleteLock_outside).bind fun _ => callsOnly_ask.mpr trivial

theorem firstSession_eq {slot : Slot} {l : Locals}
    (h : (phase1PreAi a).result answers = .ok (.tuple slot l)) :
    (firstSession a).result answers = .ok (.ok (some l)) := by
  rw [firstSession, result_session, result_bind, h]
  rfl

/-- Phase 1 returns a tuple, which is neither `None` nor the dict the driver looks for. -/
theorem phase1PreAi_tuple {r : Phase1Result} (h : (phase1PreAi a).result answers = .ok r) :
    ∃ slot l, r = .tuple slot l := by
  obtain ⟨-, ⟨-, h⟩ | ⟨-, -, rfl⟩⟩ := phase1PreAi_eq_ok.mp h
  · obtain ⟨-, h⟩ := claimJob_eq_ok.mp h
    rw [reserveForJob_eq] at h
    split at h
    · exact ⟨_, _, (enterProcessing_eq_ok.mp h).2⟩
    · obtain ⟨-, -, rfl⟩ | ⟨-, -, rfl⟩ := reserveQuota_eq_ok.mp h
      · exact ⟨_, _, rfl⟩
      · exact ⟨_, _, rfl⟩
  · exact ⟨_, _, rfl⟩

theorem afterGateway_outside {l : Locals} {output : Option GatewayOutput} :
    (afterGateway a l output).CallsOnly Outside := by
  cases output with
  | none => exact releaseReservationWithRetry_outside.bind fun _ => trivial
  | some output => exact phase3PostAi_outside.bind fun r => by cases r <;> trivial

theorem mem_calls_gatewayAndAfter {l : Locals} {c : Command} (hc : ¬ Outside c) :
    c ∈ (gatewayAndAfter a l).calls answers ↔ c = .processJob := by
  have hphase2 : c ∈ phase2AiGateway.calls answers ↔ c = .processJob := by
    simp [phase2AiGateway, mem_calls_bind]
  rw [gatewayAndAfter, mem_calls_bind, hphase2]
  exact or_iff_left fun ⟨_, _, h⟩ => hc (afterGateway_outside.mem_calls h)

theorem mem_calls_firstSession {c : Command} (hc : ¬ Outside c) :
    c ∈ (firstSession a).calls answers ↔ c ∈ (phase1PreAi a).calls answers := by
  have hclose : c ≠ .close := by
    rintro rfl
    exact hc trivial
  rw [firstSession, mem_calls_session, or_iff_left hclose, mem_calls_bind]
  refine or_iff_left ?_
  rintro ⟨r, hr, h⟩
  obtain ⟨slot, l, rfl⟩ := phase1PreAi_tuple hr
  simp [Phase1Result.isNone, Phase1Result.isQuotaExceeded] at h

theorem mem_calls_afterFirstSession {l : Locals} {c : Command} (hc : ¬ Outside c) :
    c ∈ (afterFirstSession a (.ok (some l))).calls answers ↔ c = .processJob := by
  rw [afterFirstSession, mem_calls_bind, calls_outcome, mem_calls_gatewayAndAfter hc]
  refine or_iff_left ?_
  rintro ⟨r, -, h⟩
  cases r with
  | ok u => cases h
  | error e => exact hc (onFailure_outside.mem_calls h)

theorem mem_calls_runPhases {c : Command} (hc : ¬ Outside c) :
    c ∈ (runPhases a).calls answers ↔ c ∈ (phase1PreAi a).calls answers ∨
      (c = .processJob ∧ ∃ r, (phase1PreAi a).result answers = .ok r) := by
  rw [runPhases, mem_calls_bind, mem_calls_firstSession hc]
  refine or_congr Iff.rfl ?_
  cases hphase1 : (phase1PreAi a).result answers with
  | error e =>
    have hfirst : (firstSession a).result answers = .ok (.error e) := by
      rw [firstSession, result_session, result_bind, hphase1]
    simp only [hfirst, Except.ok.injEq, exists_eq_left', reduceCtorEq, exists_false, and_false,
      iff_false]
    exact fun h => hc (onFailure_outside.mem_calls h)
  | ok r =>
    obtain ⟨slot, l, rfl⟩ := phase1PreAi_tuple hphase1
    simp only [firstSession_eq hphase1, Except.ok.injEq, exists_eq_left',
      mem_calls_afterFirstSession hc, exists_eq', and_true]

theorem mem_commands (hguards : PassesGuards a answers) {c : Command} (hc : ¬ Outside c) :
    c ∈ commands a answers ↔ c ∈ (phase1PreAi a).calls answers ∨
      (c = .processJob ∧ ∃ r, (phase1PreAi a).result answers = .ok r) := by
  rw [commands, processJobTask, mem_calls_bind, ← mem_calls_runPhases hc,
    or_iff_right fun h => hc (guards_outside.mem_calls h)]
  simp only [guards_eq_none.mpr hguards, Except.ok.injEq, exists_eq_left']
  rw [mem_calls_bind, calls_outcome]
  refine or_iff_left ?_
  rintro ⟨r, -, h⟩
  cases r <;> cases h

theorem not_mem_commands (hguards : ¬ PassesGuards a answers) {c : Command} (hc : ¬ Outside c) :
    c ∉ commands a answers := by
  intro h
  obtain h | ⟨ending, hending, h⟩ := (mem_calls_bind answers).mp h
  · exact hc (guards_outside.mem_calls h)
  · cases ending with
    | none => exact hguards (guards_eq_none.mp hending)
    | some ending => cases h

theorem mem_calls_phase1PreAi {c : Command} (hc : ¬ Outside c) :
    c ∈ (phase1PreAi a).calls answers ↔ JobFound answers ∧
      (c ∈ (acquireLock a).calls answers ∨
        LockGranted a answers ∧ c ∈ (claimJob a).calls answers) := by
  have hselect : c ≠ .selectJob := by
    rintro rfl
    exact hc trivial
  have hrest : ∀ acquired : Bool, c ∈ (if acquired then claimJob a else do
      Program.onlyIf (0 < a.reservedAcu) (releaseIn a.reservedAcu)
      return .tuple .none ⟨a.estimatedCostUsd, a.reservedAcu, true⟩ : Prog Phase1Result).calls
        answers ↔ acquired = true ∧ c ∈ (claimJob a).calls answers := by
    intro acquired
    cases acquired with
    | true => simp
    | false =>
      have hrefused : (do
          Program.onlyIf (0 < a.reservedAcu) (releaseIn a.reservedAcu)
          return .tuple .none ⟨a.estimatedCostUsd, a.reservedAcu, true⟩ :
          Prog Phase1Result).CallsOnly Outside :=
        (CallsOnly.onlyIf releaseIn_outside).bind fun _ => trivial
      exact iff_of_false (fun h => hc (hrefused.mem_calls h)) (by simp)
  have hraise : ∀ job : Option Job, c ∉ (raiseIf (job = none) (.jobNotFound a.jobId) :
      Prog Unit).calls answers := fun job h =>
    hc ((callsOnly_raiseIf (S := Outside)).mem_calls h)
  unfold phase1PreAi JobFound
  simp only [mem_calls_bind, result_raiseIf_eq_ok, result_ask, calls_ask, List.mem_singleton,
    hselect, false_or, hraise, hrest]
  constructor
  · rintro ⟨job, hjob, -, hfound, h⟩
    obtain ⟨j, rfl⟩ := Option.ne_none_iff_exists'.mp hfound
    refine ⟨⟨j, hjob⟩, h.imp_right ?_⟩
    rintro ⟨acquired, hacquired, rfl, h⟩
    exact ⟨acquireLock_eq_true.mp hacquired, h⟩
  · rintro ⟨⟨job, hjob⟩, h⟩
    refine ⟨some job, hjob, (), Option.some_ne_none job, h.imp_right ?_⟩
    rintro ⟨hgranted, h⟩
    exact ⟨true, acquireLock_eq_true.mpr hgranted, rfl, h⟩

/-- Phase 1 after the lock asks the quota for the estimated cost, unless that is reserved. -/
def InClaim (a : Attempt) : Command → Prop
  | .processJob | .setLock | .takeOver => False
  | .bill (.checkAndReserve cost) => cost = estimatedCost a ∧ ¬ PreReserved a
  | _ => True

theorem enterProcessing_inClaim {estimatedCostUsd reservedAcu : ℚ} :
    (enterProcessing a estimatedCostUsd reservedAcu).CallsOnly (InClaim a) := by
  refine (callsOnly_ask.mpr trivial).bind fun _ => callsOnly_raiseIf.bind fun _ => ?_
  exact (callsOnly_ask.mpr trivial).bind fun _ => (callsOnly_ask.mpr trivial).bind fun _ => trivial

theorem reserveQuota_inClaim {cost : ℚ} (hcost : cost = estimatedCost a ∧ ¬ PreReserved a) :
    (reserveQuota a cost).CallsOnly (InClaim a) := by
  have hcheck : InClaim a (.bill (.checkAndReserve cost)) := hcost
  refine (callsOnly_ask.mpr hcheck).bind fun result => ?_
  split
  · exact enterProcessing_inClaim
  · exact (callsOnly_ask.mpr trivial).bind fun _ => trivial

theorem claimJob_inClaim : (claimJob a).CallsOnly (InClaim a) := by
  have hreserve : (reserveForJob a).CallsOnly (InClaim a) := by
    rw [reserveForJob_eq]
    split
    · exact enterProcessing_inClaim
    · rename_i hpre
      exact reserveQuota_inClaim ⟨rfl, hpre⟩
  refine (callsOnly_ask.mpr trivial).bind fun _ => callsOnly_raiseIf.bind fun _ => ?_
  exact (CallsOnly.onlyIf (callsOnly_ask.mpr trivial)).bind fun _ => hreserve

def InLock : Command → Prop
  | .processJob | .bill _ => False
  | _ => True

theorem acquireLock_inLock : (acquireLock a).CallsOnly InLock := by
  refine acquireLock_calls.mono fun c hc => ?_
  simp only [List.mem_cons, List.not_mem_nil, or_false] at hc
  rcases hc with rfl | rfl | rfl | rfl | rfl | rfl <;> trivial

theorem entersGateway_iff : EntersGateway a answers ↔
    PassesGuards a answers ∧ ∃ r, (phase1PreAi a).result answers = .ok r := by
  by_cases hguards : PassesGuards a answers
  · have hphase1 : .processJob ∉ (phase1PreAi a).calls answers := by
      rw [mem_calls_phase1PreAi id]
      rintro ⟨-, h | ⟨-, h⟩⟩
      · exact acquireLock_inLock.mem_calls h
      · exact claimJob_inClaim.mem_calls h
    rw [EntersGateway, mem_commands hguards id]
    simp [hphase1, hguards]
  · exact iff_of_false (not_mem_commands hguards id) fun h => hguards h.1

/-! ## Who has the lock and the quota -/

theorem takeOver_mem_takeOverLock :
    .takeOver ∈ takeOverLock.calls answers ↔ HolderLooksStale answers := by
  unfold takeOverLock HolderLooksStale
  rw [calls_bind, result_ask]
  cases answers .getLock with
  | error e => simp
  | ok held =>
    cases held with
    | false => simp
    | true =>
      simp only [if_true, calls_bind, result_ask]
      cases answers .getHeartbeat with
      | error e => simp
      | ok beating =>
        cases beating with
        | false => simp
        | true =>
          simp only [if_true, calls_bind, result_ask]
          cases answers .lockTtl with
          | error e => simp
          | ok ttl => by_cases httl : 30 < ttl <;> simp [httl, not_lt.mp, not_le.mpr]

theorem setLock_not_mem_takeOverLock : .setLock ∉ takeOverLock.calls answers := by
  intro h
  simpa using takeOverLock_calls.mem_calls h

theorem mem_calls_acquireLock {c : Command} (hc : c ≠ .setHeartbeat) :
    c ∈ (acquireLock a).calls answers ↔
      c ∈ (if 0 < a.retries then takeOverLock else ask .setLock : Prog Bool).calls answers := by
  have hrest : ∀ acquired : Bool, (do
      Program.onlyIf acquired (ask .setHeartbeat)
      return acquired : Prog Bool).CallsOnly (· = .setHeartbeat) := fun acquired =>
    (CallsOnly.onlyIf (by simp)).bind fun _ => trivial
  rw [acquireLock, mem_calls_bind]
  exact or_iff_left fun ⟨acquired, _, h⟩ => hc ((hrest acquired).mem_calls h)

theorem mem_commands_lock (hguards : PassesGuards a answers) (hjob : JobFound answers)
    {c : Command} (hc : c = .setLock ∨ c = .takeOver) :
    c ∈ commands a answers ↔ c ∈ (acquireLock a).calls answers := by
  have houtside : ¬ Outside c := by rcases hc with rfl | rfl <;> exact id
  have hclaim : c ∉ (claimJob a).calls answers := fun h => by
    have hin := claimJob_inClaim.mem_calls h
    rcases hc with rfl | rfl <;> exact hin
  have hgateway : c ≠ .processJob := by rcases hc with rfl | rfl <;> exact nofun
  rw [mem_commands hguards houtside, mem_calls_phase1PreAi houtside]
  simp [hclaim, hgateway, hjob]

theorem acquiredLock_iff (hguards : PassesGuards a answers) (hjob : JobFound answers) :
    AcquiredLock a answers ↔
      if 0 < a.retries then HolderLooksStale answers ∧ answers .takeOver = .ok true
      else answers .setLock = .ok true := by
  rw [AcquiredLock, mem_commands_lock hguards hjob (.inl rfl),
    mem_commands_lock hguards hjob (.inr rfl), mem_calls_acquireLock (by decide),
    mem_calls_acquireLock (by decide)]
  by_cases hretry : 0 < a.retries
  · simp [hretry, setLock_not_mem_takeOverLock, takeOver_mem_takeOverLock]
  · simp [hretry]

theorem check_mem_claimJob {cost : ℚ} (hclaimed : Claimed a answers) :
    .bill (.checkAndReserve cost) ∈ (claimJob a).calls answers ↔
      cost = estimatedCost a ∧ ¬ PreReserved a := by
  refine ⟨fun h => claimJob_inClaim.mem_calls h, ?_⟩
  rintro ⟨rfl, hpre⟩
  obtain ⟨-, -, ⟨t, ht, hconsistent⟩, hcount⟩ := hclaimed
  unfold claimJob
  rw [mem_calls_bind]
  refine .inr ⟨t, by rwa [result_ask], ?_⟩
  rw [mem_calls_bind]
  refine .inr ⟨(), (result_raiseIf_eq_ok answers).mpr hconsistent, ?_⟩
  rw [mem_calls_bind]
  refine .inr ⟨(), (result_onlyIf_eq_ok answers).mpr (by rwa [result_ask]), ?_⟩
  rw [reserveForJob_eq, if_neg hpre, reserveQuota, mem_calls_bind, calls_ask]
  exact .inl (List.mem_singleton.mpr rfl)

theorem quotaAllowed_iff (hguards : PassesGuards a answers) (hclaimed : Claimed a answers) :
    QuotaAllowed a answers ↔ ¬ PreReserved a ∧ quotaAnswer a answers = .ok .allowed := by
  have hmem : ∀ cost, .bill (.checkAndReserve cost) ∈ commands a answers ↔
      cost = estimatedCost a ∧ ¬ PreReserved a := by
    intro cost
    have hlock : .bill (.checkAndReserve cost) ∉ (acquireLock a).calls answers :=
      fun h => acquireLock_inLock.mem_calls h
    rw [mem_commands hguards id, mem_calls_phase1PreAi id, check_mem_claimJob hclaimed]
    simp [hlock, hclaimed.1, hclaimed.2.1]
  simp only [QuotaAllowed, hmem]
  constructor
  · rintro ⟨cost, ⟨rfl, hpre⟩, hallowed⟩
    exact ⟨hpre, hallowed⟩
  · rintro ⟨hpre, hallowed⟩
    exact ⟨estimatedCost a, ⟨rfl, hpre⟩, hallowed⟩

theorem not_acquired_of_refused (hguards : PassesGuards a answers) (hjob : JobFound answers)
    (hrefused : LockRefused a answers) : ¬ AcquiredLock a answers := by
  rw [acquiredLock_iff hguards hjob]
  unfold LockRefused at hrefused
  by_cases hretry : 0 < a.retries
  · rw [if_pos hretry] at hrefused ⊢
    rintro ⟨⟨hlock, hbeat, ttl, httl, hle⟩, htaken⟩
    obtain h | ⟨-, h⟩ | ⟨-, -, ttl', httl', hlt⟩ | ⟨-, h⟩ := hrefused
    · simp [hlock] at h
    · simp [hbeat] at h
    · obtain rfl := Except.ok.inj (httl.symm.trans httl')
      exact not_lt.mpr hle hlt
    · simp [htaken] at h
  · rw [if_neg hretry] at hrefused ⊢
    simp [hrefused]

theorem entersGateway_of_claimed (hguards : PassesGuards a answers)
    (hclaimed : Claimed a answers) {r : Phase1Result}
    (hr : (reserveForJob a).result answers = .ok r) : EntersGateway a answers := by
  obtain ⟨hjob, hgranted, hstate, hcount⟩ := hclaimed
  refine entersGateway_iff.mpr ⟨hguards, r, phase1PreAi_eq_ok.mpr ⟨hjob, .inl ⟨hgranted, ?_⟩⟩⟩
  exact claimJob_eq_ok.mpr ⟨⟨hstate, hcount⟩, hr⟩

theorem SlipsThrough.not_guarded (hslips : SlipsThrough a answers)
    (hguards : PassesGuards a answers) : ¬ GuardedEntry a answers := by
  intro hguarded
  cases hslips with
  | lockRefused hjob hrefused hreleased =>
    have henters : EntersGateway a answers := entersGateway_iff.mpr
      ⟨hguards, _, phase1PreAi_eq_ok.mpr ⟨hjob, .inr ⟨hrefused, hreleased, rfl⟩⟩⟩
    exact not_acquired_of_refused hguards hjob hrefused (hguarded henters).1
  | quotaDenied hclaimed hpre hdenied hfailed =>
    have henters : EntersGateway a answers := entersGateway_of_claimed hguards hclaimed (by
      rw [reserveForJob_eq, if_neg hpre]
      exact reserveQuota_eq_ok.mpr (.inr ⟨hdenied, hfailed, rfl⟩))
    obtain ⟨r, hr, hne⟩ := hdenied
    obtain ⟨-, hallowed⟩ := (quotaAllowed_iff hguards hclaimed).mp (hguarded henters).2.1
    exact hne (Except.ok.inj (hr.symm.trans hallowed))
  | preReserved hclaimed hpre henters =>
    have henters : EntersGateway a answers := entersGateway_of_claimed hguards hclaimed (by
      rw [reserveForJob_eq, if_pos hpre]
      exact enterProcessing_eq_ok.mpr ⟨henters, rfl⟩)
    exact ((quotaAllowed_iff hguards hclaimed).mp (hguarded henters).2.1).1 hpre
  | alreadyProcessed hclaimed hpre hallowed henters hprocessed =>
    have henters : EntersGateway a answers := entersGateway_of_claimed hguards hclaimed (by
      rw [reserveForJob_eq, if_neg hpre]
      exact reserveQuota_eq_ok.mpr (.inl ⟨hallowed, henters, rfl⟩))
    exact (hguarded henters).2.2.2 hprocessed

/-- The gateway is guarded exactly against the attempts that do not slip through. -/
theorem guardedEntry_iff :
    GuardedEntry a answers ↔ ¬ (PassesGuards a answers ∧ SlipsThrough a answers) := by
  refine ⟨fun hguarded h => h.2.not_guarded h.1 hguarded, fun hnot henters => ?_⟩
  obtain ⟨hguards, r, hr⟩ := entersGateway_iff.mp henters
  have hslips : ¬ SlipsThrough a answers := fun h => hnot ⟨hguards, h⟩
  obtain ⟨hjob, ⟨hgranted, hclaim⟩ | ⟨hrefused, hreleased, -⟩⟩ := phase1PreAi_eq_ok.mp hr
  · obtain ⟨⟨hstate, hcount⟩, hreserve⟩ := claimJob_eq_ok.mp hclaim
    have hclaimed : Claimed a answers := ⟨hjob, hgranted, hstate, hcount⟩
    rw [reserveForJob_eq] at hreserve
    split at hreserve
    · rename_i hpre
      exact absurd (.preReserved hclaimed hpre (enterProcessing_eq_ok.mp hreserve).1) hslips
    rename_i hpre
    obtain ⟨hallowed, hprocessing, -⟩ | ⟨hdenied, hfailed, -⟩ := reserveQuota_eq_ok.mp hreserve
    · refine ⟨(acquiredLock_iff hguards hjob).mpr hgranted.1,
        (quotaAllowed_iff hguards hclaimed).mpr ⟨hpre, hallowed⟩, hjob, fun hprocessed => ?_⟩
      exact hslips (.alreadyProcessed hclaimed hpre hallowed hprocessing hprocessed)
    · exact absurd (.quotaDenied hclaimed hpre hdenied hfailed) hslips
  · exact absurd (.lockRefused hjob hrefused hreleased) hslips

end

/-! ## An attempt without the lock -/

def attempt : Attempt := ⟨1, none, 0, false, 24 / 10000, 0, 1, 0⟩

def lockHeld : (c : Command) → Except Fault (Answer c)
  | .setLock => .ok false
  | c => .ok (good c)

/-- The second worker on a job reaches the gateway without the lock and without asking for
quota. -/
theorem lockHeld_not_guarded : ¬ GuardedEntry attempt lockHeld := by
  rw [guardedEntry_iff, not_not]
  refine ⟨⟨by decide, by decide, by decide, rfl, rfl, fun _ => rfl, rfl⟩,
    .lockRefused ⟨queuedJob, rfl⟩ rfl fun h => ?_⟩
  exact absurd h (by decide)

end WorkTicket.Tasks.GatewayEntry
