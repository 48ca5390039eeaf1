import WorkTicket.Foundation.Fallible
import WorkTicket.Foundation.Json
import WorkTicket.Tasks.SigningKey

/-! The signed hand-over of a job task: what `enqueue_job_task` signs and sends, and
what `process_job_task` rebuilds and verifies. -/

namespace WorkTicket.Tasks

/-- Keyword arguments and payloads are dictionaries of JSON values. -/
abbrev Kwargs := List (String × Json)

/-- What `json.dumps(payload, sort_keys=True)` depends on. -/
def canonical (payload : Kwargs) : Kwargs := payload.mergeSort fun a b => a.1 ≤ b.1

def payloadVersion : ℕ := 1

def minSupportedVersion : ℕ := 1

def maxSupportedVersion : ℕ := 1

structure JobTaskArgs where
  jobId : String
  companyId : String
  userId : Option String := none
  audioUrl : Option String := none
  imageUrls : Option (List Json) := none
  description : String := ""
  tradeType : String := ""
  traceId : Option String := none
  requestId : Option String := none
  estimatedCostUsd : ℚ := 0
  reservedAcu : ℚ := 0
  queue : String := "default"

/-- `str | None` as JSON. -/
def optionalStr : Option String → Json
  | none => .null
  | some s => .str s

/-- The dictionary that `enqueue_job_task` signs. -/
def JobTaskArgs.payload (a : JobTaskArgs) : Kwargs :=
  [("payload_version", .num payloadVersion), ("job_id", .str a.jobId),
    ("company_id", .str a.companyId), ("user_id", optionalStr a.userId),
    ("audio_url", optionalStr a.audioUrl), ("image_urls", .arr (a.imageUrls.getD [])),
    ("description", .str a.description), ("trade_type", .str a.tradeType),
    ("trace_id", .str (a.traceId.getD "")), ("request_id", .str (a.requestId.getD "")),
    ("estimated_cost_usd", .num a.estimatedCostUsd), ("reserved_acu", .num a.reservedAcu)]

/-- What the enqueuing process finds at the broker: the queue depths (`none` when they
cannot be read), whether the broker is healthy, and the id Celery gives the task. -/
structure Broker where
  depth : Option (String → ℕ)
  healthy : Bool
  debug : Bool
  taskId : Option String

def queueThresholds : List (String × ℕ) :=
  [("default", 500), ("ai_text", 200), ("ai_audio", 200), ("ai_image", 200), ("beat", 50)]

def Broker.overfull (b : Broker) : Option (String × ℕ) :=
  b.depth.bind fun depth => queueThresholds.find? fun q => q.2 < depth q.1

/-- A task message: the payload with `_hmac` beside it, whose type is the digest's. -/
structure TaskMessage (Tag : Type) where
  kwargs : Kwargs
  hmac : Option Tag
  queue : String

structure DispatchResult where
  taskId : Option String
  jobId : String
  companyId : String
  signed : Bool
  queue : String

section

variable {Tag : Type}

def enqueueJobTask (hmac : String → Kwargs → Tag) (environ : Environ) (now : ℚ) (broker : Broker)
    (a : JobTaskArgs) (s : SigningKeyState) : Except String (TaskMessage Tag × DispatchResult) := do
  if let some (q, threshold) := broker.overfull then
    let depth := (broker.depth.map fun depth => depth q).getD 0
    throw (s!"Queue {q} depth too high ({depth} > {threshold}) — refusing to enqueue task. " ++
      "Retry later when queue depth subsides.")
  if !broker.healthy && !broker.debug then
    throw ("Redis broker has been unhealthy for more than 60s — refusing to enqueue task. " ++
      "Check Redis broker health and connectivity.")
  let (signingKey, s) := s.getSigningKey environ now
  if !configured signingKey then
    throw ("CELERY_TASK_SIGNING_KEY is not configured — refusing to enqueue task. " ++
      "Set CELERY_TASK_SIGNING_KEY to a random 256-bit hex key (e.g. openssl rand -hex 32).")
  let signature := (s.signTaskPayload (fun k p => hmac k (canonical p)) environ now a.payload).1
  -- without a queue `delay` sends to the task's own, `default`
  let message := ⟨a.payload, signature, if a.queue = "" then "default" else a.queue⟩
  return (message, ⟨broker.taskId, a.jobId, a.companyId, signature.isSome, a.queue⟩)

variable {hmac : String → Kwargs → Tag} {environ : Environ} {now : ℚ} {broker : Broker}
  {a : JobTaskArgs} {s : SigningKeyState} {sent : TaskMessage Tag} {result : DispatchResult}

/-- What was sent is the arguments' payload, signed if at all with some key's digest of it. -/
theorem enqueueJobTask_eq_ok
    (h : enqueueJobTask hmac environ now broker a s = .ok (sent, result)) :
    sent.kwargs = a.payload ∧
      ∀ tag, sent.hmac = some tag → ∃ key, tag = hmac key (canonical a.payload) := by
  simp only [enqueueJobTask] at h
  split at h
  · cases h
  split at h
  · cases h
  split at h
  · cases h
  cases h
  refine ⟨rfl, fun tag htag => ?_⟩
  simp only [SigningKeyState.signTaskPayload] at htag
  split at htag
  · obtain ⟨key, -, rfl⟩ := Option.map_eq_some_iff.mp htag
    exact ⟨key, rfl⟩
  · cases htag

/-- `process_job_task`'s parameters beside `self` and `_hmac`, with their defaults. -/
def processJobTaskParams : List (String × Option Json) :=
  [("job_id", none), ("company_id", none), ("user_id", some .null), ("audio_url", some .null),
    ("image_urls", some .null), ("description", some (.str "")), ("trade_type", some (.str "")),
    ("trace_id", some .null), ("estimated_cost_usd", some (.num 0)),
    ("reserved_acu", some (.num 0)), ("payload_version", some (.num payloadVersion))]

/-- The `TypeError`s of a call. -/
inductive CallError
  | unexpectedKeyword (name : String)
  | missingArgument (name : String)
  | notANumber
  deriving DecidableEq

/-- How Python binds the keyword arguments of a call to the parameters. -/
def bindKeywords (params : List (String × Option Json)) (kwargs : Kwargs) :
    Except CallError Kwargs :=
  match kwargs.find? fun arg => (params.lookup arg.1).isNone with
  | some (name, _) => .error (.unexpectedKeyword name)
  | none => params.mapM fun (name, default) =>
    match (kwargs.lookup name).or default with
    | some value => .ok (name, value)
    | none => .error (.missingArgument name)

/-- How `process_job_task` ends before its job is looked at, or that it goes on. -/
inductive TaskEntry
  | versionMismatch
  | signingKeyNotConfigured
  | rejected
  | verified
  deriving DecidableEq

/-- The arguments that the worker's payload is rebuilt from, in its order. -/
def verifiedKeys : List String :=
  ["payload_version", "job_id", "company_id", "user_id", "audio_url", "image_urls", "description",
    "trade_type", "trace_id", "estimated_cost_usd", "reserved_acu"]

def rebuiltPayload (args : Kwargs) : Kwargs :=
  verifiedKeys.map fun key => (key, (args.lookup key).getD .null)

theorem length_canonical (payload : Kwargs) : (canonical payload).length = payload.length :=
  (List.mergeSort_perm ..).length_eq

/-- A worker's payload has no place for `request_id`. -/
theorem canonical_rebuiltPayload_ne (args : Kwargs) (a : JobTaskArgs) :
    canonical (rebuiltPayload args) ≠ canonical a.payload := by
  intro h
  have hlength := congrArg List.length h
  rw [length_canonical, length_canonical, rebuiltPayload, List.length_map] at hlength
  exact absurd (show 11 = 12 from hlength) (by decide)

variable [DecidableEq Tag]

def processJobTask (hmac : String → Kwargs → Tag) (environ : Environ) (now : ℚ)
    (workerVersion : ℕ) (message : TaskMessage Tag) (s : SigningKeyState) :
    Except CallError TaskEntry := do
  let args ← bindKeywords processJobTaskParams message.kwargs
  let some version := ((args.lookup "payload_version").bind Json.number) | throw .notANumber
  if version < minSupportedVersion ∨ version > maxSupportedVersion then return .versionMismatch
  if version > workerVersion then return .versionMismatch
  let (signingKey, s) := s.getSigningKey environ now
  if !configured signingKey then return .signingKeyNotConfigured
  if !(s.verifyTaskPayload (fun k p => hmac k (canonical p)) environ now (rebuiltPayload args)
      message.hmac).1 then
    return .rejected
  return .verified

/-- No arguments at all verify under a signature that `enqueue_job_task` made. -/
theorem not_verified (hhmac : Function.Injective2 hmac)
    (h : enqueueJobTask hmac environ now broker a s = .ok (sent, result)) (later : ℚ)
    (workerVersion : ℕ) (worker : SigningKeyState) (kwargs : Kwargs) :
    processJobTask hmac environ later workerVersion { sent with kwargs } worker ≠
      .ok .verified := by
  intro hverified
  simp only [processJobTask] at hverified
  obtain ⟨args, -, hverified⟩ := Fallible.bind_eq_ok.mp hverified
  split at hverified
  · split at hverified
    · cases hverified
    split at hverified
    · cases hverified
    split at hverified
    · cases hverified
    split at hverified
    · cases hverified
    rename_i hsignature
    rw [Bool.not_eq_true', Bool.not_eq_false] at hsignature
    obtain ⟨key, hkey⟩ := SigningKeyState.digest_of_verified hsignature
    obtain ⟨signer, hsigner⟩ := (enqueueJobTask_eq_ok h).2 _ hkey
    exact canonical_rebuiltPayload_ne args a (hhmac hsigner).2
  · cases hverified

/-- The first signed argument that Python finds no parameter for. -/
theorem processJobTask_unexpected
    (h : enqueueJobTask hmac environ now broker a s = .ok (sent, result)) (later : ℚ)
    (workerVersion : ℕ) (worker : SigningKeyState) :
    processJobTask hmac environ later workerVersion sent worker =
      .error (.unexpectedKeyword "request_id") := by
  rw [processJobTask, (enqueueJobTask_eq_ok h).1]
  rfl

/-- Delivered as they were sent the arguments verify; with any signed argument changed
they do not. -/
structure RoundTrips (hmac : String → Kwargs → Tag) (environ : Environ) (later : ℚ)
    (workerVersion : ℕ) (worker : SigningKeyState) (sent : TaskMessage Tag) : Prop where
  accepted : processJobTask hmac environ later workerVersion sent worker = .ok .verified
  rejected : ∀ kwargs : Kwargs,
    (∃ key ∈ sent.kwargs.map Prod.fst, kwargs.lookup key ≠ sent.kwargs.lookup key) →
      processJobTask hmac environ later workerVersion { sent with kwargs } worker ≠ .ok .verified

/-- No task that `enqueue_job_task` signs and sends is verified, by any worker. -/
theorem not_roundTrips (hhmac : Function.Injective2 hmac)
    (h : enqueueJobTask hmac environ now broker a s = .ok (sent, result)) (later : ℚ)
    (workerVersion : ℕ) (worker : SigningKeyState) :
    ¬RoundTrips hmac environ later workerVersion worker sent := by
  intro hround
  exact not_verified hhmac h later workerVersion worker sent.kwargs hround.accepted

/-- Every optional argument left out. -/
def minimalJob : JobTaskArgs := { jobId := "job-1", companyId := "company-1" }

def idleBroker : Broker := ⟨some fun _ => 0, true, false, some "task-1"⟩

def alwaysK1 : Environ := fun _ => some "k1"

open RecordedDigest SigningKeyState in
theorem minimalJob_never_verified :
    let hmac := digest "k1" (canonical minimalJob.payload)
      "196c6a105fb4314c07aabcfe7f2cd2a34a84da01b05f6fbad7540491483c0812"
    ¬RoundTrips hmac alwaysK1 2 1 (start alwaysK1 0)
      ⟨minimalJob.payload, some (hmac "k1" (canonical minimalJob.payload)), "default"⟩ := by
  intro hmac
  have hsent : enqueueJobTask hmac alwaysK1 1 idleBroker minimalJob (start alwaysK1 0) =
      .ok (⟨minimalJob.payload, some (hmac "k1" (canonical minimalJob.payload)), "default"⟩,
        ⟨some "task-1", "job-1", "company-1", true, "default"⟩) := by
    simp [enqueueJobTask, Broker.overfull, idleBroker, queueThresholds, getSigningKey,
      signTaskPayload, configured, isFresh, loadKey, inSettings, start, alwaysK1, minimalJob]
    rfl
  exact not_roundTrips digest_injective2 hsent 2 1 _

open SigningKeyState in
/-- The same run with the pair of key and payload for a digest. -/
theorem minimalJob_not_roundTrip :
    ∃ sent result,
      enqueueJobTask Prod.mk alwaysK1 1 idleBroker minimalJob (start alwaysK1 0) =
        .ok (sent, result) ∧
      ¬RoundTrips Prod.mk alwaysK1 2 1 (start alwaysK1 0) sent := by
  refine ⟨_, _, rfl, fun hround => ?_⟩
  have hraised : processJobTask Prod.mk alwaysK1 2 1
      ⟨minimalJob.payload, some ("k1", canonical minimalJob.payload), "default"⟩
      (start alwaysK1 0) = .error (.unexpectedKeyword "request_id") := rfl
  have hverified := hraised.symm.trans hround.accepted
  cases hverified

end

end WorkTicket.Tasks
