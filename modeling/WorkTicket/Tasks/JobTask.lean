import WorkTicket.Billing.ConcurrentCalls
import WorkTicket.Foundation.Program

/-! `process_job_task`, the task that runs the AI on a job: its guards, the three phases of
`_run` and the failure handler, as a program over the commands it sends to Redis, to the
database and to the AI gateway. -/

namespace WorkTicket.Tasks.JobTask

open WorkTicket.Billing WorkTicket.Billing.ConcurrentCalls

/-- The arguments of one attempt; `retries` is `self.request.retries`. -/
structure Attempt where
  jobId : JobId
  userId : Option String
  imageCount : ℕ
  hasAudio : Bool
  estimatedCostUsd : ℚ
  reservedAcu : ℚ
  payloadVersion : ℕ
  retries : ℕ
  deriving DecidableEq, Repr

def minSupportedVersion : ℕ := 1
def maxSupportedVersion : ℕ := 1
def workerVersion : ℕ := 1

def maxTaskRetries : ℕ := 3

/-- `estimate_job_cost`; its total has four decimals, so that rounding changes nothing. -/
def estimateJobCost (imageCount : ℕ) (hasAudio : Bool) : ℚ :=
  (2 / 1000 + imageCount * (1 / 100) + if hasAudio then 8 / 1000 else 0) * (12 / 10)

inductive Fault
  | jobNotFound (jobId : JobId)
  | jobGone (jobId : JobId)
  | inconsistent (jobId : JobId) (target : AIProcessingState)
  | aiUnavailable
  | database (text : String) (serialization : Bool)
  | other (text : String) (nonRecoverable : Bool)
  deriving DecidableEq, Repr

def targetName : AIProcessingState → String
  | .reserved => "reserved"
  | .processing => "processing"
  | _ => "completed"

def Fault.text : Fault → String
  | .jobNotFound jobId => "Job " ++ toString jobId ++ " not found"
  | .jobGone jobId => "Job " ++ toString jobId ++ " not found for post-AI reconciliation"
  | .inconsistent jobId target => "Cannot transition job " ++ toString jobId ++ " to " ++
      targetName target ++ " — inconsistent state"
  | .aiUnavailable => "NON_RECOVERABLE: AI unavailable — fallback or invalid output"
  | .database text _ => text
  | .other text _ => text

def Fault.nonRecoverable : Fault → Bool
  | .aiUnavailable => true
  | .other _ b => b
  | _ => false

def Fault.serialization : Fault → Bool
  | .database _ b => b
  | _ => false

def Fault.isDatabase : Fault → Bool
  | .database _ _ => true
  | _ => false

/-- The output of the gateway with the verdict of `validate_ai_output`. -/
structure GatewayOutput where
  isFallback : Bool
  valid : Bool
  executionMs : ℕ
  deriving DecidableEq, Repr

def GatewayOutput.accepted (o : GatewayOutput) : Bool := !o.isFallback && o.valid

inductive Command
  | signingKey
  | verifyTaskPayload
  | checkRetryStorm
  | aiDisabled
  | selectJob
  | setLock
  | getLock
  | getHeartbeat
  | lockTtl
  | takeOver
  | setHeartbeat
  | deleteLock
  | reconcileJobState (expected target : AIProcessingState)
  | countRetry
  | bill (c : Call)
  | transitionFailed
  | heartbeatReservation
  | commit
  | close
  | processJob
  | insertOutput
  | selectOutput
  deriving DecidableEq, Repr

@[reducible] def Answer : Command → Type
  | .signingKey | .verifyTaskPayload | .checkRetryStorm | .aiDisabled => Bool
  | .selectJob => Option Job
  | .setLock | .getLock | .getHeartbeat | .takeOver => Bool
  | .lockTtl => ℤ
  | .setHeartbeat | .deleteLock => Unit
  | .reconcileJobState _ _ => Reconciled
  | .bill _ => Report
  | .transitionFailed | .insertOutput => Bool
  | .countRetry | .heartbeatReservation | .selectOutput | .commit | .close => Unit
  | .processJob => GatewayOutput

abbrev Prog := Program Answer Fault

open Program (raise raiseIf onlyIf)

abbrev ask (c : Command) : Prog (Answer c) := Program.ask c

/-- `async with AsyncSessionLocal()`: whatever the body does, its session is closed and
what it did not commit rolled back. -/
def session {α : Type} (body : Prog α) : Prog (Except Fault α) := do
  let r ← body.outcome
  let _ ← (ask .close).outcome
  return r

/-! ## Phase 1 -/

/-- The lock of a retry: it only takes over a lock that is there. -/
def takeOverLock : Prog Bool := do
  if ← ask .getLock then
    if ← ask .getHeartbeat then
      let lockTtl ← ask .lockTtl
      if 30 < lockTtl then return false else ask .takeOver
    else return false
  else return false

def acquireLock (a : Attempt) : Prog Bool := do
  let acquired ← (if 0 < a.retries then takeOverLock else ask .setLock : Prog Bool)
  onlyIf acquired (ask .setHeartbeat)
  return acquired

/-- The variables of `_run`; `redisLock` tells whether `redis_lock` is set. -/
structure Locals where
  estimatedCostUsd : ℚ
  reservedAcu : ℚ
  redisLock : Bool
  deriving DecidableEq, Repr

def Locals.initial (a : Attempt) : Locals := ⟨a.estimatedCostUsd, a.reservedAcu, false⟩

/-- The first component of the tuple that `_phase1_pre_ai` returns. -/
inductive Slot
  | none
  | quotaExceeded
  | job
  deriving DecidableEq, Repr

/-- A value that `_run` may find in `phase1_result`. -/
inductive Phase1Result
  | none
  | quotaExceeded
  | tuple (slot : Slot) (locals : Locals)
  deriving DecidableEq, Repr

def Phase1Result.isNone : Phase1Result → Bool
  | .none => true
  | _ => false

/-- `isinstance(phase1_result, dict) and phase1_result.get("status") == "quota_exceeded"`. -/
def Phase1Result.isQuotaExceeded : Phase1Result → Bool
  | .quotaExceeded => true
  | _ => false

def enterProcessing (a : Attempt) (estimatedCostUsd reservedAcu : ℚ) : Prog Phase1Result := do
  let transResult ← ask (.reconcileJobState .reserved .processing)
  raiseIf (transResult = .inconsistent) (.inconsistent a.jobId .processing)
  ask .heartbeatReservation
  ask .commit
  return .tuple .job ⟨estimatedCostUsd, reservedAcu, true⟩

def reserveQuota (a : Attempt) (estimatedCostUsd : ℚ) : Prog Phase1Result := do
  let result ← ask (.bill (.checkAndReserve estimatedCostUsd))
  if result = .allowed then enterProcessing a estimatedCostUsd (costAcu estimatedCostUsd)
  else
    -- the caller never commits this: it looks for a dict where this returns a tuple
    let _ ← ask .transitionFailed
    return .tuple .quotaExceeded ⟨estimatedCostUsd, a.reservedAcu, true⟩

/-- The quota part of phase 1; only a first attempt uses what its caller reserved. -/
def reserveForJob (a : Attempt) : Prog Phase1Result :=
  if a.retries = 0 then
    if 0 < a.reservedAcu then enterProcessing a a.estimatedCostUsd a.reservedAcu
    else reserveQuota a a.estimatedCostUsd
  else reserveQuota a (estimateJobCost a.imageCount a.hasAudio)

/-- Phase 1 from the lock on. A job that was completed before is not told apart here. -/
def claimJob (a : Attempt) : Prog Phase1Result := do
  let transResult ← ask (.reconcileJobState .queued .reserved)
  raiseIf (transResult = .inconsistent) (.inconsistent a.jobId .reserved)
  onlyIf (0 < a.retries) (ask .countRetry)
  reserveForJob a

def releaseIn (reservedAcu : ℚ) : Prog Unit := do
  let _ ← ask (.bill (.releaseReserved reservedAcu))

def phase1PreAi (a : Attempt) : Prog Phase1Result := do
  let job ← ask .selectJob
  raiseIf (job = none) (.jobNotFound a.jobId)
  let lockAcquired ← acquireLock a
  if lockAcquired then claimJob a
  else
    -- no early return either: the tuple takes `_run` on to the gateway without the lock
    onlyIf (0 < a.reservedAcu) (releaseIn a.reservedAcu)
    return .tuple .none ⟨a.estimatedCostUsd, a.reservedAcu, true⟩

/-- The first session of `_run`; `none` is an early return. -/
def firstSession (a : Attempt) : Prog (Except Fault (Option Locals)) := session do
  let phase1Result ← phase1PreAi a
  if phase1Result.isNone then return none
  if phase1Result.isQuotaExceeded then
    ask .commit
    return none
  match phase1Result with
  | .tuple _ l => return some l
  | _ => return none

/-! ## Phases 2 and 3 -/

def phase2AiGateway : Prog (Option GatewayOutput) := do
  let output ← ask .processJob
  return if output.accepted then some output else none

/-- The arguments `_phase3_post_ai` passes to `reconcile_cost`; the output was stored
before when `isRetry`. -/
def settlement (a : Attempt) (l : Locals) (output : GatewayOutput) (isRetry : Bool) :
    Reconciliation where
  estimatedCostUsd := l.estimatedCostUsd
  actualCostUsd := if isRetry then l.estimatedCostUsd else estimateJobCost a.imageCount a.hasAudio
  reservedAcu := l.reservedAcu
  modelUsed := "gateway:ai_gateway"
  executionTimeMs := if isRetry then 0 else output.executionMs
  textUnits := 1
  visionUnits := 0
  audioUnits := 0
  userId := a.userId

/-- `redis_lock.delete`, whose errors are only logged. -/
def deleteLock : Prog Unit := do
  let _ ← (ask .deleteLock).outcome

/-- The lock is deleted before the commit; errors of `reconcile_cost` are only logged. -/
def phase3PostAi (a : Attempt) (l : Locals) (output : GatewayOutput) : Prog (Except Fault Unit) :=
  session do
    let job ← ask .selectJob
    raiseIf (job = none) (.jobGone a.jobId)
    ask .heartbeatReservation
    let inserted ← ask .insertOutput
    onlyIf (!inserted) (ask .selectOutput)
    let _ ← (ask (.bill (.reconcileCost a.jobId (settlement a l output (!inserted))))).outcome
    let _ ← ask (.reconcileJobState .processing .completed)
    onlyIf l.redisLock deleteLock
    ask .commit

/-! ## Releasing and failing -/

def autoCompensateReason (lastErr : Option Fault) : String :=
  "auto_compensate: reservation_release_failed after retries: " ++ lastErr.elim "None" Fault.text

/-- `_release_reservation_with_retry` with `tries` tries left. -/
def releaseReservationWithRetry (a : Attempt) (reservedAcu : ℚ) :
    (tries : ℕ) → (lastErr : Option Fault) → Prog Unit
  | 0, lastErr => do
    let _ ← session do
      let _ ← ask (.bill (.grantCredit a.jobId reservedAcu (autoCompensateReason lastErr)))
      ask .commit
  | tries + 1, _ => do
    let released ← session do
      releaseIn reservedAcu
      ask .commit
    match released with
    | .ok () => return ()
    | .error e => releaseReservationWithRetry a reservedAcu tries (some e)

def releaseTries : ℕ := 3

/-- The `except` block of `_run`. `_compensate_failed_job` touches no account and no lock. -/
def onFailure (a : Attempt) (l : Locals) (e : Fault) : Prog Unit := do
  onlyIf (0 < l.reservedAcu) (releaseReservationWithRetry a l.reservedAcu releaseTries none)
  onlyIf l.redisLock deleteLock
  raise e

/-- `_run` once the gateway has answered; without an output it releases the reservation
before it raises. -/
def afterGateway (a : Attempt) (l : Locals) : Option GatewayOutput → Prog Unit
  | none => do
    releaseReservationWithRetry a l.reservedAcu releaseTries none
    raise .aiUnavailable
  | some output => do
    match ← phase3PostAi a l output with
    | .ok () => return ()
    | .error e => raise e

def gatewayAndAfter (a : Attempt) (l : Locals) : Prog Unit := do
  let output ← phase2AiGateway
  afterGateway a l output

/-- `_run` after its first session, which leaves the variables as they were when it raises. -/
def afterFirstSession (a : Attempt) : Except Fault (Option Locals) → Prog Unit
  | .error e => onFailure a (Locals.initial a) e
  | .ok none => return ()
  | .ok (some l) => do
    match ← (gatewayAndAfter a l).outcome with
    | .error e => onFailure a l e
    | .ok () => return ()

/-- `_run`. -/
def runPhases (a : Attempt) : Prog Unit := do
  let phase1 ← firstSession a
  afterFirstSession a phase1

/-! ## The task -/

inductive Ending
  | refused (error : String)
  | rejected
  | finished
  | retried
  | failed (error : String)
  deriving DecidableEq, Repr

def endingOf (a : Attempt) (e : Fault) : Ending :=
  if e.serialization ∧ a.retries < maxTaskRetries then .retried
  else if e.nonRecoverable ∨ maxTaskRetries ≤ a.retries then .failed e.text
  else .retried

/-- The checks before `_run`; `none` lets the attempt go on. -/
def guards (a : Attempt) : Prog (Option Ending) := do
  if a.payloadVersion < minSupportedVersion ∨ maxSupportedVersion < a.payloadVersion then
    return some (.refused "payload_version_mismatch")
  if workerVersion < a.payloadVersion then return some (.refused "payload_version_mismatch")
  if !(← ask .signingKey) then return some (.refused "signing_key_not_configured")
  if !(← ask .verifyTaskPayload) then return some .rejected
  let noStorm ← (if 0 < a.retries then ask .checkRetryStorm else pure true : Prog Bool)
  if !noStorm then return some (.refused "retry_storm_blocked")
  if ← ask .aiDisabled then return some (.refused "ai_disabled")
  return none

def processJobTask (a : Attempt) : Prog Ending := do
  match ← guards a with
  | some ending => return ending
  | none =>
    match ← (runPhases a).outcome with
    | .ok () => return .finished
    | .error e => return endingOf a e

/-! ## Surroundings that do what they are asked for -/

def queuedJob : Job := ⟨1, 7, some .queued, none, none, none, none⟩

def good : (c : Command) → Answer c
  | .signingKey | .verifyTaskPayload | .checkRetryStorm => true
  | .aiDisabled => false
  | .selectJob => some queuedJob
  | .setLock | .getLock | .getHeartbeat | .takeOver => true
  | .lockTtl => 300
  | .setHeartbeat | .deleteLock => ()
  | .reconcileJobState _ _ => .ok
  | .bill (.checkAndReserve _) => .allowed
  | .bill (.reconcileCost _ _) => .reconciled .reconciled true
  | .bill _ => .returned
  | .transitionFailed | .insertOutput => true
  | .countRetry | .heartbeatReservation | .selectOutput | .commit | .close => ()
  | .processJob => ⟨false, true, 900⟩

/-! ## What the parts call -/

section
open Program (CallsOnly callsOnly_ask)

theorem callsOnly_check {S : Command → Prop} {p : Prog Bool} {f : Bool → Prog (Option Ending)}
    {ending : Ending} (hp : p.CallsOnly S) (hf : ∀ b, (f b).CallsOnly S) :
    (p >>= fun b => if !b then pure (some ending) else f b).CallsOnly S := by
  refine hp.bind fun b => ?_
  split
  · trivial
  · exact hf b

theorem guards_calls {a : Attempt} : (guards a).CallsOnly
    (· ∈ [.signingKey, .verifyTaskPayload, .checkRetryStorm, .aiDisabled]) := by
  have hstorm : (if 0 < a.retries then ask .checkRetryStorm else pure true :
      Prog Bool).CallsOnly
      (· ∈ [.signingKey, .verifyTaskPayload, .checkRetryStorm, .aiDisabled]) := by
    split
    · exact callsOnly_ask.mpr (by simp)
    · trivial
  unfold guards
  split
  · trivial
  split
  · trivial
  refine callsOnly_check (callsOnly_ask.mpr (by simp)) fun _ => ?_
  refine callsOnly_check (callsOnly_ask.mpr (by simp)) fun _ => ?_
  refine callsOnly_check hstorm fun _ => (callsOnly_ask.mpr (by simp)).bind fun _ => ?_
  split <;> trivial

theorem takeOverLock_calls :
    takeOverLock.CallsOnly (· ∈ [.getLock, .getHeartbeat, .lockTtl, .takeOver]) := by
  refine (callsOnly_ask.mpr (by simp)).bind fun held => ?_
  split
  · refine (callsOnly_ask.mpr (by simp)).bind fun beating => ?_
    split
    · refine (callsOnly_ask.mpr (by simp)).bind fun ttl => ?_
      split
      · trivial
      · exact callsOnly_ask.mpr (by simp)
    · trivial
  · trivial

theorem acquireLock_calls {a : Attempt} : (acquireLock a).CallsOnly
    (· ∈ [.setLock, .getLock, .getHeartbeat, .lockTtl, .takeOver, .setHeartbeat]) := by
  refine CallsOnly.bind ?_ fun acquired =>
    (CallsOnly.onlyIf (callsOnly_ask.mpr (by simp))).bind fun _ => trivial
  split
  · refine takeOverLock_calls.mono fun c hc => ?_
    simp only [List.mem_cons, List.not_mem_nil, or_false] at hc ⊢
    tauto
  · exact callsOnly_ask.mpr (by simp)

theorem deleteLock_calls : deleteLock.CallsOnly (· = .deleteLock) := by
  refine CallsOnly.bind (CallsOnly.outcome ?_) fun _ => trivial
  exact callsOnly_ask.mpr (by rfl)

end

end WorkTicket.Tasks.JobTask
