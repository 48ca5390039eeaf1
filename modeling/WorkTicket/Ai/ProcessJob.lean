import WorkTicket.Billing.Idempotency
import WorkTicket.Billing.RefusedTransition
import WorkTicket.Tasks.JobTask

/-! `process_job`, the route that queues the AI processing of a job: its checks, the
concurrency slot, the transition to `queued` and the dispatch of the task, as a program over
the commands it sends. -/

namespace WorkTicket.Ai.ProcessJob

open WorkTicket.Billing WorkTicket.Billing.Idempotency WorkTicket.Billing.RefusedTransition
open WorkTicket.Tasks.JobTask (estimateJobCost)
open Program hiding ask

structure Request where
  jobId : String
  userId : String
  companyId : String
  clientIp : String
  subscriptionPlan : Option String
  idempotencyKey : Option String
  requestHash : String
  deriving DecidableEq, Repr

structure Media where
  type : String
  storageUrl : String
  deriving DecidableEq, Repr

structure RequestedJob where
  description : Option String
  media : List Media
  deriving DecidableEq, Repr

/-- The arguments of `enqueue_job_task` that depend on the job. -/
structure Dispatch where
  jobId : String
  audioUrl : Option String
  imageUrls : List String
  description : String
  estimatedCostUsd : ℚ
  reservedAcu : ℚ
  deriving DecidableEq, Repr

inductive Fault
  | http (e : HTTPException)
  | runtime (text : String)
  | other (text : String)
  deriving DecidableEq

/-- `completeRecord` stores the payload of the answer, or of a failure. -/
inductive Command
  | aiDisabled
  | getIdempotentResponse
  | createIdempotencyRecord
  | checkAll
  | selectJob
  | recordTrace (stepName status : String)
  | checkDailySpend (estimatedCostUsd : ℚ)
  | acquire (plan : String)
  | release
  | recordRequest
  | checkAndUpdateRisk
  | transitionQueued
  | pingWorkers
  | enqueueJobTask (d : Dispatch)
  | completeRecord (response : Response) (failed : Bool)
  deriving DecidableEq

/-- `checkAll` and `checkDailySpend` answer with the reason for a refusal. -/
@[reducible] def Answer : Command → Type
  | .aiDisabled | .acquire _ | .transitionQueued | .pingWorkers => Bool
  | .getIdempotentResponse => Option Response
  | .checkAll | .checkDailySpend _ => Option String
  | .selectJob => Option RequestedJob
  | .checkAndUpdateRisk => ℤ
  | .enqueueJobTask _ => Option String
  | .createIdempotencyRecord | .recordTrace _ _ | .release | .recordRequest
  | .completeRecord _ _ => Unit

abbrev Prog := Program Answer Fault

abbrev ask (c : Command) : Prog (Answer c) := Program.ask c

def aiDisabledMessage : String :=
  "AI features are disabled in this release. All workflows are manual-first."

def tooManyJobsMessage : String :=
  "Too many concurrent AI jobs for your company. Please wait for existing jobs to complete."

def unusualActivityMessage : String :=
  "AI processing disabled for your company due to unusual activity. Please contact support."

def maxDescription : ℕ := 10000
def maxImages : ℕ := 5
def maxRisk : ℤ := 70

def reject {α : Type} (statusCode : ℕ) (detail : String) : Prog α :=
  raise (.http ⟨statusCode, detail⟩)

/-! ## The checks before the transition -/

def requireAiEnabled : Prog Unit := do
  if ← ask .aiDisabled then reject 503 aiDisabledMessage else return ()

/-- The answer stored under the key of the request, if there is one. -/
def replay (r : Request) : Prog (Option Response) :=
  match r.idempotencyKey with
  | none => return none
  | some _ => do
    match ← ask .getIdempotentResponse with
    | some cached => return some cached
    | none => do
      ask .createIdempotencyRecord
      return none

def imageUrls (job : RequestedJob) : List String :=
  ((job.media.filter (·.type = "photo")).map (·.storageUrl)).take maxImages

def audioUrl (job : RequestedJob) : Option String :=
  (job.media.find? (·.type = "audio")).map (·.storageUrl)

def dispatchOf (r : Request) (job : RequestedJob) : Dispatch where
  jobId := r.jobId
  audioUrl := audioUrl job
  imageUrls := imageUrls job
  description := job.description.getD ""
  estimatedCostUsd :=
    estimateJobCost (imageUrls job).length ((audioUrl job).any (· ≠ ""))
  reservedAcu := 0

def checkRateLimit : Prog Unit := do
  match ← ask .checkAll with
  | none => return ()
  | some reason => reject 429 reason

def findJob : Prog RequestedJob := do
  match ← ask .selectJob with
  | none => reject 404 "Job not found"
  | some job =>
    if maxDescription < (job.description.getD "").length then
      reject 400 "Job description exceeds maximum length of 10000 characters"
    else return job

def checkSpend (estimatedCostUsd : ℚ) : Prog Unit := do
  match ← ask (.checkDailySpend estimatedCostUsd) with
  | none => return ()
  | some reason => do
    ask (.recordTrace "daily_spend_blocked" "failed")
    reject 402 ("Daily spend limit reached: " ++ reason)

def planOf (r : Request) : String :=
  match r.subscriptionPlan with
  | none | some "" => "free"
  | some plan => plan

/-- A risky company gives its slot back; an exception in here keeps it. -/
def takeSlot (r : Request) : Prog Unit := do
  if ← ask (.acquire (planOf r)) then
    ask .recordRequest
    let riskScore ← ask .checkAndUpdateRisk
    if maxRisk < riskScore then
      ask .release
      reject 403 unusualActivityMessage
    else return ()
  else reject 429 tooManyJobsMessage

def checkRequest (r : Request) : Prog Dispatch := do
  checkRateLimit
  let job ← findJob
  ask (.recordTrace "api_receive" "started")
  checkSpend (dispatchOf r job).estimatedCostUsd
  takeSlot r
  return dispatchOf r job

/-! ## The transition and the dispatch -/

def payload (r : Request) : Response := ⟨r.jobId, "queued", none⟩

def errorPayload (r : Request) : Response := ⟨r.jobId, "failed", none⟩

/-- The `try` block. -/
def dispatch (r : Request) (d : Dispatch) : Prog Response := do
  let alive ← ask .pingWorkers
  raiseIf (alive = false) (.runtime "No Celery workers available to accept task")
  let taskId ← ask (.enqueueJobTask d)
  raiseIf (taskId.getD "" = "") (.runtime "Task dispatch failed to produce a task ID")
  ask (.recordTrace "celery_enqueue" "completed")
  return payload r

/-- The `try` block with its `except`. -/
def dispatchOrRelease (r : Request) (d : Dispatch) : Prog Response := do
  match ← (dispatch r d).outcome with
  | .ok response => return response
  | .error _ => do
    ask .release
    ask (.recordTrace "celery_enqueue" "failed")
    reject 503 "AI processing temporarily unavailable. Please try again."

/-- With the `finally`. -/
def finishDispatch (r : Request) (d : Dispatch) : Prog Response := do
  match ← (dispatchOrRelease r d).outcome with
  | .ok response => do
    onlyIf r.idempotencyKey.isSome (ask (.completeRecord response false))
    return response
  | .error e => do
    onlyIf r.idempotencyKey.isSome (ask (.completeRecord (errorPayload r) true))
    raise e

def queueJob (r : Request) (d : Dispatch) : Prog Response := do
  -- the answer is not looked at
  let _ ← ask .transitionQueued
  finishDispatch r d

def processJob (r : Request) : Prog Response := do
  requireAiEnabled
  match ← replay r with
  | some cached => return cached
  | none => do
    let d ← checkRequest r
    queueJob r d

/-! ## What a request does -/

section
variable (r : Request) (answers : (c : Command) → Except Fault (Answer c))

def commands : List Command := (processJob r).calls answers

def Moved : Prop := .transitionQueued ∈ commands r answers ∧ answers .transitionQueued = .ok true

def Refused : Prop :=
  .transitionQueued ∈ commands r answers ∧ answers .transitionQueued = .ok false

def Enqueued : Prop :=
  ∃ d taskId, .enqueueJobTask d ∈ commands r answers ∧
    answers (.enqueueJobTask d) = .ok (some taskId)

def Replayed : Prop :=
  r.idempotencyKey.isSome = true ∧ ∃ cached, answers .getIdempotentResponse = .ok (some cached)

/-- The request itself, not an earlier one with its key, answers that the job is queued. -/
def SaysQueued : Prop :=
  (∃ response, (processJob r).result answers = .ok response ∧ response.status = "queued") ∧
    ¬ Replayed r answers

def ReleasesSlot : Prop := .release ∈ commands r answers

/-- A task is enqueued only for a job that was moved, and a refusal gives the slot back. -/
def QueuesOnlyMoved : Prop :=
  (Enqueued r answers → Moved r answers) ∧ (SaysQueued r answers → Moved r answers) ∧
    (Refused r answers → ¬ Enqueued r answers ∧ ReleasesSlot r answers)

/-- The request gets as far as the transition, with these arguments for the task. -/
def Passes (d : Dispatch) : Prop :=
  answers .aiDisabled = .ok false ∧
    (r.idempotencyKey.isSome = true →
      answers .getIdempotentResponse = .ok none ∧ answers .createIdempotencyRecord = .ok ()) ∧
    answers .checkAll = .ok none ∧
    (∃ job, answers .selectJob = .ok (some job) ∧
      (job.description.getD "").length ≤ maxDescription ∧ d = dispatchOf r job) ∧
    answers (.recordTrace "api_receive" "started") = .ok () ∧
    answers (.checkDailySpend d.estimatedCostUsd) = .ok none ∧
    answers (.acquire (planOf r)) = .ok true ∧ answers .recordRequest = .ok () ∧
    ∃ riskScore, answers .checkAndUpdateRisk = .ok riskScore ∧ riskScore ≤ maxRisk

/-- The broker has workers and takes the task. -/
def Dispatches (d : Dispatch) : Prop :=
  answers .pingWorkers = .ok true ∧ ∃ taskId, answers (.enqueueJobTask d) = .ok (some taskId)

end

section
variable {r : Request} {answers : (c : Command) → Except Fault (Answer c)}

theorem requireAiEnabled_eq_ok :
    requireAiEnabled.result answers = .ok () ↔ answers .aiDisabled = .ok false := by
  rw [requireAiEnabled, result_bind, result_ask]
  cases answers .aiDisabled with
  | error e => simp
  | ok disabled => cases disabled <;> simp [reject]

theorem replay_eq_none : (replay r).result answers = .ok none ↔
    (r.idempotencyKey.isSome = true →
      answers .getIdempotentResponse = .ok none ∧ answers .createIdempotencyRecord = .ok ()) := by
  rw [replay]
  cases r.idempotencyKey with
  | none => simp
  | some key =>
    simp only [Option.isSome_some, true_imp_iff]
    rw [result_bind, result_ask]
    cases answers .getIdempotentResponse with
    | error e => simp
    | ok cached =>
      cases cached with
      | none =>
        simp only [result_bind_eq_ok, result_ask, result_pure, and_true, true_and]
        exact ⟨fun ⟨_, h⟩ => h, fun h => ⟨(), h⟩⟩
      | some response => simp

theorem checkRateLimit_eq_ok :
    checkRateLimit.result answers = .ok () ↔ answers .checkAll = .ok none := by
  rw [checkRateLimit, result_bind, result_ask]
  cases answers .checkAll with
  | error e => simp
  | ok reason => cases reason <;> simp [reject]

theorem findJob_eq_ok {job : RequestedJob} : findJob.result answers = .ok job ↔
    answers .selectJob = .ok (some job) ∧ (job.description.getD "").length ≤ maxDescription := by
  rw [findJob, result_bind, result_ask]
  cases answers .selectJob with
  | error e => simp
  | ok found =>
    cases found with
    | none => simp [reject]
    | some j =>
      simp only [Except.ok.injEq, Option.some.injEq]
      split
      · rename_i hlong
        refine iff_of_false (by simp [reject]) ?_
        rintro ⟨rfl, hshort⟩
        exact not_lt.mpr hshort hlong
      · rename_i hshort
        simp only [result_pure, Except.ok.injEq]
        constructor
        · rintro rfl
          exact ⟨rfl, not_lt.mp hshort⟩
        · exact fun h => h.1

theorem checkSpend_eq_ok {estimatedCostUsd : ℚ} :
    (checkSpend estimatedCostUsd).result answers = .ok () ↔
      answers (.checkDailySpend estimatedCostUsd) = .ok none := by
  rw [checkSpend, result_bind, result_ask]
  cases answers (.checkDailySpend estimatedCostUsd) with
  | error e => simp
  | ok reason =>
    cases reason with
    | none => simp
    | some reason => simp [reject, result_bind_eq_ok]

theorem takeSlot_eq_ok : (takeSlot r).result answers = .ok () ↔
    answers (.acquire (planOf r)) = .ok true ∧ answers .recordRequest = .ok () ∧
      ∃ riskScore, answers .checkAndUpdateRisk = .ok riskScore ∧ riskScore ≤ maxRisk := by
  rw [takeSlot, result_bind, result_ask]
  cases answers (.acquire (planOf r)) with
  | error e => simp
  | ok acquired =>
    cases acquired with
    | false => simp [reject]
    | true =>
      simp only [if_true, result_bind_eq_ok, result_ask, true_and]
      refine ⟨?_, ?_⟩
      · rintro ⟨u, hrecorded, riskScore, hrisk, h⟩
        refine ⟨hrecorded, riskScore, hrisk, ?_⟩
        by_contra hhigh
        rw [if_pos (not_le.mp hhigh)] at h
        simp [reject, result_bind_eq_ok] at h
      · rintro ⟨hrecorded, riskScore, hrisk, hlow⟩
        refine ⟨(), hrecorded, riskScore, hrisk, ?_⟩
        rw [if_neg (not_lt.mpr hlow)]
        rfl

theorem checkRequest_eq_ok {d : Dispatch} : (checkRequest r).result answers = .ok d ↔
    answers .checkAll = .ok none ∧
    (∃ job, answers .selectJob = .ok (some job) ∧
      (job.description.getD "").length ≤ maxDescription ∧ d = dispatchOf r job) ∧
    answers (.recordTrace "api_receive" "started") = .ok () ∧
    answers (.checkDailySpend d.estimatedCostUsd) = .ok none ∧
    answers (.acquire (planOf r)) = .ok true ∧ answers .recordRequest = .ok () ∧
    ∃ riskScore, answers .checkAndUpdateRisk = .ok riskScore ∧ riskScore ≤ maxRisk := by
  unfold checkRequest
  simp only [result_bind_eq_ok, findJob_eq_ok, result_ask, result_pure, Except.ok.injEq]
  constructor
  · rintro ⟨_, hlimit, job, ⟨hjob, hshort⟩, _, htrace, _, hspend, _, hslot, rfl⟩
    exact ⟨checkRateLimit_eq_ok.mp hlimit, ⟨job, hjob, hshort, rfl⟩, htrace,
      checkSpend_eq_ok.mp hspend, takeSlot_eq_ok.mp hslot⟩
  · rintro ⟨hlimit, ⟨job, hjob, hshort, rfl⟩, htrace, hspend, hslot⟩
    exact ⟨(), checkRateLimit_eq_ok.mpr hlimit, job, ⟨hjob, hshort⟩, (), htrace, (),
      checkSpend_eq_ok.mpr hspend, (), takeSlot_eq_ok.mpr hslot, rfl⟩

/-! ## The commands of a request -/

/-- The commands that neither move the job nor enqueue its task. -/
def Aside : Command → Prop
  | .transitionQueued | .enqueueJobTask _ => False
  | _ => True

theorem requireAiEnabled_aside : requireAiEnabled.CallsOnly Aside :=
  (callsOnly_ask.mpr trivial).bind fun _ => by split <;> trivial

theorem replay_aside : (replay r).CallsOnly Aside := by
  unfold replay
  split
  · trivial
  · refine (callsOnly_ask.mpr trivial).bind fun cached => ?_
    split
    · trivial
    · exact (callsOnly_ask.mpr trivial).bind fun _ => trivial

theorem checkRateLimit_aside : checkRateLimit.CallsOnly Aside :=
  (callsOnly_ask.mpr trivial).bind fun reason => by cases reason <;> trivial

theorem findJob_aside : findJob.CallsOnly Aside := by
  refine (callsOnly_ask.mpr trivial).bind fun job => ?_
  cases job with
  | none => trivial
  | some job => dsimp only; split <;> trivial

theorem checkSpend_aside {estimatedCostUsd : ℚ} :
    (checkSpend estimatedCostUsd).CallsOnly Aside := by
  refine (callsOnly_ask.mpr trivial).bind fun reason => ?_
  cases reason with
  | none => trivial
  | some reason => exact (callsOnly_ask.mpr trivial).bind fun _ => trivial

theorem takeSlot_aside : (takeSlot r).CallsOnly Aside := by
  refine (callsOnly_ask.mpr trivial).bind fun acquired => ?_
  split
  · refine (callsOnly_ask.mpr trivial).bind fun _ => (callsOnly_ask.mpr trivial).bind fun risk => ?_
    split
    · exact (callsOnly_ask.mpr trivial).bind fun _ => trivial
    · trivial
  · trivial

theorem checkRequest_aside : (checkRequest r).CallsOnly Aside :=
  checkRateLimit_aside.bind fun _ => findJob_aside.bind fun _ =>
    (callsOnly_ask.mpr trivial).bind fun _ => checkSpend_aside.bind fun _ =>
      takeSlot_aside.bind fun _ => trivial

theorem passes_iff {d : Dispatch} : Passes r answers d ↔
    requireAiEnabled.result answers = .ok () ∧ (replay r).result answers = .ok none ∧
      (checkRequest r).result answers = .ok d := by
  rw [requireAiEnabled_eq_ok, replay_eq_none, checkRequest_eq_ok]
  exact Iff.rfl

theorem mem_commands_of_passes {d : Dispatch} {c : Command} (hd : Passes r answers d)
    (hc : c ∈ (queueJob r d).calls answers) : c ∈ commands r answers := by
  obtain ⟨henabled, hreplay, hcheck⟩ := passes_iff.mp hd
  unfold commands processJob
  rw [mem_calls_bind]
  refine .inr ⟨(), henabled, ?_⟩
  rw [mem_calls_bind]
  refine .inr ⟨none, hreplay, ?_⟩
  rw [mem_calls_bind]
  exact .inr ⟨d, hcheck, hc⟩

theorem mem_commands {c : Command} (hc : ¬ Aside c) : c ∈ commands r answers ↔
    ∃ d, Passes r answers d ∧ c ∈ (queueJob r d).calls answers := by
  refine ⟨fun h => ?_, fun ⟨d, hd, h⟩ => mem_commands_of_passes hd h⟩
  unfold commands processJob at h
  rw [mem_calls_bind, or_iff_right fun h => hc (requireAiEnabled_aside.mem_calls h)] at h
  obtain ⟨u, henabled, h⟩ := h
  rw [mem_calls_bind, or_iff_right fun h => hc (replay_aside.mem_calls h)] at h
  obtain ⟨cached, hreplay, h⟩ := h
  cases cached with
  | some response => cases h
  | none =>
    simp only at h
    rw [mem_calls_bind, or_iff_right fun h => hc (checkRequest_aside.mem_calls h)] at h
    obtain ⟨d, hcheck, h⟩ := h
    exact ⟨d, passes_iff.mpr ⟨henabled, hreplay, hcheck⟩, h⟩

theorem transition_mem_queueJob {d : Dispatch} :
    .transitionQueued ∈ (queueJob r d).calls answers := by
  rw [queueJob, mem_calls_bind, calls_ask]
  exact .inl (List.mem_singleton.mpr rfl)

theorem dispatch_eq_ok {d : Dispatch} {response : Response}
    (h : (dispatch r d).result answers = .ok response) : Dispatches answers d := by
  unfold dispatch at h
  simp only [result_bind_eq_ok, result_raiseIf_eq_ok, result_ask] at h
  obtain ⟨alive, hping, -, halive, taskId, htask, -, hid, -⟩ := h
  have hsome : ∃ id, taskId = some id := by
    cases taskId with
    | none => exact absurd rfl hid
    | some id => exact ⟨id, rfl⟩
  obtain ⟨id, rfl⟩ := hsome
  rw [Bool.not_eq_false] at halive
  exact ⟨halive ▸ hping, id, htask⟩

/-- The commands of the `except` and `finally` blocks, and of the trace. -/
theorem mem_calls_finishDispatch {d : Dispatch} {c : Command} (hc : ¬ Aside c) :
    c ∈ (finishDispatch r d).calls answers ↔ c ∈ (dispatch r d).calls answers := by
  have hexcept : ∀ x : Except Fault Response, (match x with
      | .ok response => pure response
      | .error _ => do
        ask .release
        ask (.recordTrace "celery_enqueue" "failed")
        reject 503 "AI processing temporarily unavailable. Please try again." :
        Prog Response).CallsOnly Aside := by
    intro x
    cases x with
    | ok response => trivial
    | error e =>
      exact (callsOnly_ask.mpr trivial).bind fun _ => (callsOnly_ask.mpr trivial).bind fun _ => trivial
  have hfinally : ∀ x : Except Fault Response, (match x with
      | .ok response => do
        onlyIf r.idempotencyKey.isSome (ask (.completeRecord response false))
        return response
      | .error e => do
        onlyIf r.idempotencyKey.isSome (ask (.completeRecord (errorPayload r) true))
        raise e : Prog Response).CallsOnly Aside := by
    intro x
    cases x with
    | ok response => exact (CallsOnly.onlyIf (callsOnly_ask.mpr trivial)).bind fun _ => trivial
    | error e => exact (CallsOnly.onlyIf (callsOnly_ask.mpr trivial)).bind fun _ => trivial
  unfold finishDispatch dispatchOrRelease
  rw [mem_calls_bind, calls_outcome, mem_calls_bind, calls_outcome]
  constructor
  · rintro ((h | ⟨x, -, h⟩) | ⟨x, -, h⟩)
    · exact h
    · exact absurd ((hexcept x).mem_calls h) hc
    · exact absurd ((hfinally x).mem_calls h) hc
  · exact fun h => .inl (.inl h)

theorem enqueue_mem_dispatch {d d' : Dispatch} :
    .enqueueJobTask d' ∈ (dispatch r d).calls answers ↔
      d' = d ∧ answers .pingWorkers = .ok true := by
  have hraise : ∀ (p : Prop) [Decidable p] (e : Fault),
      Command.enqueueJobTask d' ∉ (raiseIf p e : Prog Unit).calls answers := fun p _ e h =>
    (callsOnly_raiseIf (S := Aside)).mem_calls h
  unfold dispatch
  simp only [mem_calls_bind, calls_ask, calls_pure, List.mem_singleton, List.not_mem_nil,
    reduceCtorEq, result_ask, hraise, result_raiseIf_eq_ok, Bool.not_eq_false, false_or, and_false,
    exists_false, or_false, Command.enqueueJobTask.injEq]
  constructor
  · rintro ⟨alive, hping, -, rfl, h⟩
    exact ⟨h, hping⟩
  · rintro ⟨rfl, hping⟩
    exact ⟨true, hping, (), rfl, rfl⟩

theorem enqueue_mem_queueJob {d d' : Dispatch} :
    .enqueueJobTask d' ∈ (queueJob r d).calls answers ↔
      d' = d ∧ (∃ moved, answers .transitionQueued = .ok moved) ∧
        answers .pingWorkers = .ok true := by
  rw [queueJob, mem_calls_bind, calls_ask]
  simp only [List.mem_singleton, reduceCtorEq, false_or, result_ask,
    mem_calls_finishDispatch (c := .enqueueJobTask d') id, enqueue_mem_dispatch]
  constructor
  · rintro ⟨moved, hmoved, rfl, hping⟩
    exact ⟨rfl, ⟨moved, hmoved⟩, hping⟩
  · rintro ⟨rfl, ⟨moved, hmoved⟩, hping⟩
    exact ⟨moved, hmoved, rfl, hping⟩

/-- Every failure of the dispatch gives the slot back. -/
theorem release_mem_queueJob {d : Dispatch} {moved : Bool}
    (hmoved : answers .transitionQueued = .ok moved) (hfails : ¬ Dispatches answers d) :
    .release ∈ (queueJob r d).calls answers := by
  have herror : ∃ e, (dispatch r d).result answers = .error e := by
    cases h : (dispatch r d).result answers with
    | ok response => exact absurd (dispatch_eq_ok h) hfails
    | error e => exact ⟨e, rfl⟩
  obtain ⟨e, he⟩ := herror
  rw [queueJob, mem_calls_bind]
  refine .inr ⟨moved, by rw [result_ask, hmoved], ?_⟩
  rw [finishDispatch, mem_calls_bind, calls_outcome, dispatchOrRelease, mem_calls_bind]
  refine .inl (.inr ⟨.error e, by rw [result_outcome, he], ?_⟩)
  rw [mem_calls_bind, calls_ask]
  exact .inl (List.mem_singleton.mpr rfl)

theorem transition_mem_commands :
    .transitionQueued ∈ commands r answers ↔ ∃ d, Passes r answers d := by
  rw [mem_commands id]
  exact ⟨fun ⟨d, hd, _⟩ => ⟨d, hd⟩, fun ⟨d, hd⟩ => ⟨d, hd, transition_mem_queueJob⟩⟩

theorem enqueued_iff : Enqueued r answers ↔
    ∃ d, Passes r answers d ∧ (∃ moved, answers .transitionQueued = .ok moved) ∧
      Dispatches answers d := by
  simp only [Enqueued, mem_commands (c := .enqueueJobTask _) id, enqueue_mem_queueJob]
  constructor
  · rintro ⟨d, taskId, ⟨d', hd, rfl, hmoved, hping⟩, htask⟩
    exact ⟨d, hd, hmoved, hping, taskId, htask⟩
  · rintro ⟨d, hd, hmoved, hping, taskId, htask⟩
    exact ⟨d, taskId, ⟨d, hd, rfl, hmoved, hping⟩, htask⟩

theorem replay_eq_some {cached : Response} (h : (replay r).result answers = .ok (some cached)) :
    Replayed r answers := by
  rw [replay] at h
  cases hkey : r.idempotencyKey with
  | none => simp [hkey] at h
  | some key =>
    rw [hkey] at h
    simp only [result_bind, result_ask] at h
    refine ⟨by rw [hkey]; rfl, ?_⟩
    cases hget : answers .getIdempotentResponse with
    | error e => simp [hget] at h
    | ok found =>
      cases found with
      | none => cases hcreate : answers .createIdempotencyRecord <;> simp [hget, hcreate,
          result_bind] at h
      | some response => exact ⟨response, rfl⟩

/-- Only the `try` block answers: the other blocks end in an exception. -/
theorem finishDispatch_eq_ok {d : Dispatch} {response : Response}
    (h : (finishDispatch r d).result answers = .ok response) :
    ∃ response, (dispatch r d).result answers = .ok response := by
  cases hdispatch : (dispatch r d).result answers with
  | ok response => exact ⟨response, rfl⟩
  | error e =>
    have hexcept : ∃ e', (dispatchOrRelease r d).result answers = .error e' := by
      cases hrelease : (dispatchOrRelease r d).result answers with
      | error e' => exact ⟨e', rfl⟩
      | ok response' =>
        rw [dispatchOrRelease, result_bind, result_outcome, hdispatch] at hrelease
        simp [result_bind_eq_ok, reject] at hrelease
    obtain ⟨e', he'⟩ := hexcept
    rw [finishDispatch, result_bind, result_outcome, he'] at h
    simp [result_bind_eq_ok] at h

theorem SaysQueued.enqueued (h : SaysQueued r answers) : Enqueued r answers := by
  obtain ⟨⟨response, hresult, -⟩, hreplayed⟩ := h
  unfold processJob at hresult
  rw [result_bind_eq_ok] at hresult
  obtain ⟨u, henabled, hresult⟩ := hresult
  rw [result_bind_eq_ok] at hresult
  obtain ⟨cached, hreplay, hresult⟩ := hresult
  cases cached with
  | some cached => exact absurd (replay_eq_some hreplay) hreplayed
  | none =>
    rw [result_bind_eq_ok] at hresult
    obtain ⟨d, hcheck, hresult⟩ := hresult
    rw [queueJob, result_bind_eq_ok] at hresult
    obtain ⟨moved, hmoved, hresult⟩ := hresult
    rw [result_ask] at hmoved
    obtain ⟨response', hdispatch⟩ := finishDispatch_eq_ok hresult
    exact enqueued_iff.mpr ⟨d, passes_iff.mpr ⟨henabled, hreplay, hcheck⟩, ⟨moved, hmoved⟩,
      dispatch_eq_ok hdispatch⟩

/-- The rule is only broken by a refusal whose task the broker takes. -/
theorem queuesOnlyMoved_answers : QueuesOnlyMoved r answers ↔
    ¬ (answers .transitionQueued = .ok false ∧ ∃ d, Passes r answers d ∧ Dispatches answers d) := by
  constructor
  · rintro ⟨-, -, hrefused⟩ ⟨hfalse, d, hd, hdispatches⟩
    have henqueued : Enqueued r answers := enqueued_iff.mpr ⟨d, hd, ⟨false, hfalse⟩, hdispatches⟩
    exact (hrefused ⟨transition_mem_commands.mpr ⟨d, hd⟩, hfalse⟩).1 henqueued
  · intro hnot
    have hmoves : Enqueued r answers → Moved r answers := by
      intro henqueued
      obtain ⟨d, hd, ⟨moved, hmoved⟩, hdispatches⟩ := enqueued_iff.mp henqueued
      refine ⟨transition_mem_commands.mpr ⟨d, hd⟩, ?_⟩
      cases moved with
      | false => exact absurd ⟨hmoved, d, hd, hdispatches⟩ hnot
      | true => exact hmoved
    refine ⟨hmoves, fun hsays => hmoves hsays.enqueued, ?_⟩
    rintro ⟨hcalled, hfalse⟩
    constructor
    · intro henqueued
      cases Except.ok.inj (hfalse.symm.trans (hmoves henqueued).2)
    · obtain ⟨d, hd⟩ := transition_mem_commands.mp hcalled
      have hfails : ¬ Dispatches answers d := fun h => hnot ⟨hfalse, d, hd, h⟩
      exact mem_commands_of_passes hd (release_mem_queueJob hfalse hfails)

end

/-! ## The row of the job -/

/-- The surroundings in which the transition finds this row. -/
def onRow (now : Time) (job : Option Job) (answers : (c : Command) → Except Fault (Answer c)) :
    (c : Command) → Except Fault (Answer c)
  | .transitionQueued => (answers .transitionQueued).map fun _ =>
      (transitionJobState now .queued false none job).1
  | c => answers c

/-- For every request and every row of the job: the task is queued only with the transition,
unless the transition is not admissible and the broker takes the task all the same. -/
theorem queuesOnlyMoved_iff (r : Request) (now : Time) (job : Option Job)
    (answers : (c : Command) → Except Fault (Answer c)) :
    QueuesOnlyMoved r (onRow now job answers) ↔
      ¬ (¬ Admissible now .queued job ∧ (∃ moved, answers .transitionQueued = .ok moved) ∧
        ∃ d, Passes r answers d ∧ Dispatches answers d) := by
  have hrefused : onRow now job answers .transitionQueued = .ok false ↔
      ¬ Admissible now .queued job ∧ ∃ moved, answers .transitionQueued = .ok moved := by
    have hrows : (transitionRows now .queued false true none job).1 = false ↔
        ¬ Admissible now .queued job := refused_iff
    rw [← hrows]
    show (answers .transitionQueued).map (fun _ => _) = .ok false ↔ _
    cases answers .transitionQueued with
    | error e => simp [Except.map]
    | ok moved => simp [Except.map, transitionRows]
  rw [queuesOnlyMoved_answers, hrefused, and_assoc]
  exact Iff.rfl

def request : Request := ⟨"job-1", "user-1", "7", "10.0.0.1", some "free", none, ""⟩

def photoJob : RequestedJob := ⟨some "leaking tap", [⟨"photo", "s3://photo"⟩]⟩

def good : (c : Command) → Except Fault (Answer c)
  | .aiDisabled => .ok false
  | .acquire _ | .transitionQueued | .pingWorkers => .ok true
  | .getIdempotentResponse | .checkAll | .checkDailySpend _ => .ok none
  | .selectJob => .ok (some photoJob)
  | .checkAndUpdateRisk => .ok 0
  | .enqueueJobTask _ => .ok (some "task-1")
  | .createIdempotencyRecord | .recordTrace _ _ | .release | .recordRequest
  | .completeRecord _ _ => .ok ()

def processingJob : Job := ⟨1, 7, some .processing, some 0, none, some 1, some 0⟩

/-- A second request for a job that is being processed enqueues a second task. -/
theorem processingJob_enqueued : ¬ QueuesOnlyMoved request (onRow 60 (some processingJob) good) := by
  rintro ⟨-, -, hrefused⟩
  have hpasses : Passes request (onRow 60 (some processingJob) good) (dispatchOf request photoJob) :=
    ⟨rfl, nofun, rfl, ⟨photoJob, rfl, by decide, rfl⟩, rfl, rfl, rfl, rfl, 0, rfl, by decide⟩
  have hcalled := transition_mem_commands.mpr ⟨_, hpasses⟩
  exact (hrefused ⟨hcalled, rfl⟩).1
    (enqueued_iff.mpr ⟨_, hpasses, ⟨false, rfl⟩, rfl, "task-1", rfl⟩)

end WorkTicket.Ai.ProcessJob
