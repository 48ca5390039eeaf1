import WorkTicket.Billing.StateMachine
import WorkTicket.Foundation.TenantTables

/-! The endpoints of the dead-letter queue, and what a company can tell and change with them of the
rows of the others. `dead_letter_jobs` is in neither list of tables whose rows are kept apart. -/

namespace WorkTicket.Billing.DlqRouter

open TenantTables

structure DeadLetterJob where
  id : ℕ
  jobId : ℕ
  companyId : ℕ
  userId : Option String
  taskName : String
  errorMessage : Option String
  failureCategory : Option String
  lastState : Option String
  retryCount : ℕ
  traceId : Option String
  createdAt : Option ℚ
  expiresAt : Option ℚ
  deriving DecidableEq, Repr

structure JobMedia where
  type : String
  storageUrl : String
  deriving DecidableEq, Repr

/-- The columns of `jobs` that a replay reads, and the media that are loaded with the row. -/
structure Job where
  id : ℕ
  companyId : ℕ
  aiProcessingState : Option AIProcessingState
  description : Option String
  media : List JobMedia
  deriving DecidableEq, Repr

/-- The arguments of `enqueue_job_task`. -/
structure Task where
  jobId : ℕ
  companyId : ℕ
  userId : Option String
  audioUrl : Option String
  imageUrls : List String
  description : String
  traceId : String
  deriving DecidableEq, Repr

structure Tables where
  deadLetterJobs : List DeadLetterJob
  jobs : List Job
  queue : List Task
  deriving DecidableEq, Repr

def deadLetterColumns : Columns DeadLetterJob := ⟨DeadLetterJob.id, DeadLetterJob.companyId⟩

def jobColumns : Columns Job := ⟨Job.id, Job.companyId⟩

/-- The primary keys. -/
structure Tables.Valid (s : Tables) : Prop where
  deadLetterJobs : (s.deadLetterJobs.map DeadLetterJob.id).Nodup
  jobs : (s.jobs.map Job.id).Nodup

/-- A content that the tables can have. -/
abbrev TablesStore := {s : Tables // s.Valid}

/-! ## The helpers -/

def maxDlqRetries : ℕ := 5

/-- `if company_id: query = query.where(...)`. -/
def whereCompany (companyId : Option ℕ) (rows : List DeadLetterJob) : List DeadLetterJob :=
  match companyId with
  | some companyId => rows.filter fun r => r.companyId = companyId
  | none => rows

def DeadLetterJob.isRecent (now : ℚ) (hours : ℤ) (r : DeadLetterJob) : Bool :=
  r.createdAt.any fun t => now - hours * 3600 ≤ t

def getDlqSummary (companyId : Option ℕ) (now : ℚ) (hours : ℤ) (rows : List DeadLetterJob) :
    ℕ × ℕ :=
  let rows := whereCompany companyId rows
  (rows.length, rows.countP (DeadLetterJob.isRecent now hours))

/-- `created_at DESC`, which puts NULL first. -/
def notOlder (r r' : DeadLetterJob) : Bool :=
  match r.createdAt, r'.createdAt with
  | none, _ => true
  | some _, none => false
  | some t, some t' => t' ≤ t

/-- An entry is a row without its error message. -/
def getDlqEntries (companyId : Option ℕ) (limit offset : ℤ) (rows : List DeadLetterJob) :
    List DeadLetterJob :=
  ((((whereCompany companyId rows).mergeSort notOlder).drop offset.toNat).take limit.toNat).map
    fun r => { r with errorMessage := none }

def DeadLetterJob.isExpired (now : ℚ) (r : DeadLetterJob) : Bool := r.expiresAt.any (· ≤ now)

def cleanupExpiredDlq (now : ℚ) (rows : List DeadLetterJob) : ℕ × List DeadLetterJob :=
  (rows.countP (DeadLetterJob.isExpired now), rows.filter fun r => !r.isExpired now)

/-- The rows of each category, the largest number first. -/
def countByCategory (rows : List DeadLetterJob) : List (Option String × ℕ) :=
  let categories := rows.map DeadLetterJob.failureCategory
  (categories.dedup.map fun category => (category, categories.count category)).mergeSort
    fun p q => q.2 ≤ p.2

def getDlqByFailureCategory (now : ℚ) (hours : ℤ) (rows : List DeadLetterJob) :
    List (String × ℕ) :=
  (countByCategory (rows.filter (DeadLetterJob.isRecent now hours))).map fun p =>
    ((p.1.filter (· ≠ "")).getD "unknown", p.2)

/-! ## The replay -/

structure Replay where
  status : String
  message : String
  retryCount : Option ℕ
  taskId : Option String
  deriving DecidableEq, Repr

def Replay.error (message : String) : Replay := ⟨"error", message, none, none⟩

/-- Who calls, and what a call meets. The session of a replay is shown the jobs of the companies in
`sees`: all, none or the caller's, as the row-level security and the filter on the queries are in
force; `dispatch` is what `enqueue_job_task` answers for a task, `freshTraceId` the next `uuid4`. -/
structure Env where
  companyId : ℕ
  role : String
  now : ℚ
  isoformat : ℚ → String
  sees : ℕ → Bool
  dispatch : Task → Except String (Option String)
  freshTraceId : String

def stateText : Option AIProcessingState → String
  | none => "None"
  | some .none => "none"
  | some .queued => "queued"
  | some .reserved => "reserved"
  | some .processing => "processing"
  | some .completed => "completed"
  | some .failed => "failed"
  | some .compensated => "compensated"

/-- Commits the new `last_state`, if it fits into `VARCHAR(20)`. -/
def commitLastState (s : Tables) (id : ℕ) (lastState : String) (r : Replay) : Replay × Tables :=
  if lastState.length ≤ 20 then
    (r, { s with
      deadLetterJobs := update deadLetterColumns s.deadLetterJobs id
        fun e => { e with lastState := some lastState } })
  else (.error "value too long for type character varying(20)", s)

/-- `uuid` is the id that the path names, or what the driver says of a path that names none. -/
def retryDeadLetterJob (env : Env) (uuid : Except String ℕ) (s : Tables) : Replay × Tables :=
  match uuid with
  | .error e => (.error e, s)
  | .ok id =>
    match s.deadLetterJobs.find? fun e => e.id = id with
    | none => (.error "Dead letter job not found", s)
    | some entry =>
      if maxDlqRetries ≤ entry.retryCount then
        commitLastState s id "max_retries_exceeded" (.error "Max retries exceeded")
      else
        match s.jobs.find? fun j => j.id = entry.jobId && env.sees j.companyId with
        | none => commitLastState s id "job_not_found" (.error "Original job not found")
        | some job =>
          let state := stateText job.aiProcessingState
          if job.aiProcessingState ≠ some .failed ∧ job.aiProcessingState ≠ some .reserved then
            commitLastState s id ("skipped_state_" ++ state)
              ⟨"skipped", "Job in state " ++ state, none, none⟩
          else
            let task : Task :=
              { jobId := job.id
                companyId := job.companyId
                userId := entry.userId.filter (· ≠ "")
                audioUrl := (job.media.find? (·.type = "audio")).map JobMedia.storageUrl
                imageUrls :=
                  (job.media.filter (·.type ∈ ["image", "photo"])).map JobMedia.storageUrl
                description := job.description.getD ""
                traceId := (entry.traceId.filter (· ≠ "")).getD env.freshTraceId }
            match env.dispatch task with
            | .error e => (.error e, s)
            | .ok taskId =>
              let retryCount := entry.retryCount + 1
              (⟨"success", s!"Retry {retryCount} dispatched for job {entry.jobId}",
                some retryCount, taskId⟩,
              { s with
                queue := s.queue ++ [task]
                deadLetterJobs := update deadLetterColumns s.deadLetterJobs id fun e => { e with
                  retryCount := retryCount
                  lastState := some "retried"
                  errorMessage := some (s!"Retry {retryCount} at " ++ env.isoformat env.now ++
                    ", task_id=" ++ taskId.getD "None") } })

/-! ## The endpoints -/

inductive Call
  | summary (hours : ℤ)
  | entries (limit offset : ℤ)
  | categories (hours : ℤ)
  | cleanupExpired
  | replay (uuid : Except String ℕ)

inductive Response
  | unprocessable
  | forbidden (detail : String)
  | summary (total recent24h : ℕ) (sinceHours : ℤ)
  | entries (rows : List DeadLetterJob)
  | categories (counts : List (String × ℕ))
  | cleaned (count : ℕ)
  | replayed (r : Replay)
  deriving DecidableEq, Repr

/-- The bounds of the query parameters. -/
def Call.inRange : Call → Bool
  | .summary hours | .categories hours => 1 ≤ hours && hours ≤ 168
  | .entries limit offset => 1 ≤ limit && limit ≤ 200 && 0 ≤ offset
  | .cleanupExpired | .replay _ => true

def Call.detail : Call → String
  | .summary _ | .entries .. | .categories _ => "Only owners and admins can view DLQ"
  | .cleanupExpired => "Only owners and admins can clean up DLQ"
  | .replay _ => "Only owners and admins can replay DLQ entries"

/-- What an endpoint does for an owner or an admin. -/
def Call.body (env : Env) (s : Tables) : Call → Response × Tables
  | .summary hours =>
    let (total, recent) := getDlqSummary (some env.companyId) env.now hours s.deadLetterJobs
    (.summary total recent hours, s)
  | .entries limit offset =>
    (.entries (getDlqEntries (some env.companyId) limit offset s.deadLetterJobs), s)
  | .categories hours => (.categories (getDlqByFailureCategory env.now hours s.deadLetterJobs), s)
  | .cleanupExpired =>
    let (count, deadLetterJobs) := cleanupExpiredDlq env.now s.deadLetterJobs
    (.cleaned count, { s with deadLetterJobs })
  | .replay uuid =>
    let (r, s') := retryDeadLetterJob env uuid s
    (.replayed r, s')

def Call.perform (env : Env) (call : Call) (s : Tables) : Response × Tables :=
  if !call.inRange then (.unprocessable, s)
  else if env.role ∉ ["owner", "admin"] then (.forbidden call.detail, s)
  else call.body env s

/-! ## What is claimed of a call -/

def Tables.others (A : ℕ) (s : Tables) : List DeadLetterJob × List Job × List Task :=
  (TenantTables.others DeadLetterJob.companyId A s.deadLetterJobs,
    TenantTables.others Job.companyId A s.jobs, TenantTables.others Task.companyId A s.queue)

/-- Tables that differ only in rows of other companies. -/
structure SameFor (A : ℕ) (s s' : Tables) : Prop where
  deadLetterJobs : own DeadLetterJob.companyId A s.deadLetterJobs =
    own DeadLetterJob.companyId A s'.deadLetterJobs
  jobs : own Job.companyId A s.jobs = own Job.companyId A s'.jobs
  queue : s.queue = s'.queue

/-- The call responds as it does on `s`, and leaves what the others have in `s'` alone. -/
structure Agree (env : Env) (call : Call) (s s' : Tables) : Prop where
  response : (call.perform env s').1 = (call.perform env s).1
  others : (call.perform env s').2.others env.companyId = s'.others env.companyId

/-- Whatever rows the others have. -/
def Isolated (env : Env) (call : Call) (s : TablesStore) : Prop :=
  ∀ s' : TablesStore, SameFor env.companyId s.1 s'.1 → Agree env call s.1 s'.1

/-- The call is turned down before it reaches the tables. -/
def Refused (env : Env) (call : Call) : Prop :=
  call.inRange = false ∨ env.role ∉ ["owner", "admin"]

/-- The entry is the company's, and so is its job as far as the replay comes to it. -/
def OwnEntry (env : Env) (s : Tables) (id : ℕ) : Prop :=
  ∃ entry ∈ s.deadLetterJobs, entry.id = id ∧ entry.companyId = env.companyId ∧
    (maxDlqRetries ≤ entry.retryCount ∨ Hidden env.companyId env.sees ∨
      Owns jobColumns env.companyId s.jobs entry.jobId)

def Guarded (env : Env) (s : Tables) : Call → Prop
  | .summary _ | .entries .. => True
  | .categories _ | .cleanupExpired => False
  | .replay (.error _) => True
  | .replay (.ok id) => OwnEntry env s id

/-! ## Calls that keep to the company -/

variable {env : Env} {s s' : Tables} {id : ℕ} {lastState : String} {r : Replay}

theorem perform_of_refused {call : Call} (h : Refused env call) (s : Tables) :
    call.perform env s = (if !call.inRange then .unprocessable else .forbidden call.detail, s) := by
  unfold Call.perform
  by_cases hrange : call.inRange = true
  · have hrole := h.resolve_left (by simp [hrange])
    simp [hrange, hrole]
  · simp [hrange]

theorem perform_of_not_refused {call : Call} (h : ¬Refused env call) (s : Tables) :
    call.perform env s = call.body env s := by
  obtain ⟨hrange, hrole⟩ := not_or.mp h
  rw [Call.perform, if_neg (by simpa using hrange), if_neg hrole]

theorem whereCompany_some (A : ℕ) (rows : List DeadLetterJob) :
    whereCompany (some A) rows = own DeadLetterJob.companyId A rows := rfl

theorem commitLastState_fst : (commitLastState s id lastState r).1 =
    (commitLastState s' id lastState r).1 := by
  unfold commitLastState
  split <;> rfl

/-- Writes to a row of the company, and to the queue for it. -/
theorem update_others {A : ℕ} {f : DeadLetterJob → DeadLetterJob} {queue : List Task}
    (h : s.Valid) (howns : Owns deadLetterColumns A s.deadLetterJobs id)
    (hf : ∀ e, (f e).companyId = e.companyId)
    (hqueue : TenantTables.others Task.companyId A queue =
      TenantTables.others Task.companyId A s.queue) :
    Tables.others A { s with
      queue := queue
      deadLetterJobs := update deadLetterColumns s.deadLetterJobs id f } = s.others A := by
  obtain ⟨next, hkeyed⟩ := exists_keyed (c := deadLetterColumns) h.deadLetterJobs
  have hrows := TenantTables.others_update hkeyed howns hf
  exact congrArg₂ (fun rows queue => (rows, TenantTables.others Job.companyId A s.jobs, queue))
    hrows hqueue

theorem commitLastState_others {A : ℕ} (h : s.Valid)
    (howns : Owns deadLetterColumns A s.deadLetterJobs id) :
    (commitLastState s id lastState r).2.others A = s.others A := by
  unfold commitLastState
  split
  · exact update_others h howns (fun _ => rfl) rfl
  · rfl

/-- The job that a replay of the company's own entry finds. -/
theorem find_job_eq (h : SameFor env.companyId s s') (hs : s.Valid) (hs' : s'.Valid) {jobId : ℕ}
    (hsafe : Hidden env.companyId env.sees ∨ Owns jobColumns env.companyId s.jobs jobId) :
    (s.jobs.find? fun j => j.id = jobId && env.sees j.companyId) =
      s'.jobs.find? fun j => j.id = jobId && env.sees j.companyId := by
  rcases hsafe with hhidden | howns
  · refine find_eq h.jobs fun j hj => ?_
    by_contra hother
    simp [hhidden j.companyId hother] at hj
  · refine howns.find_eq hs.jobs hs'.jobs h.jobs fun j hj => ?_
    simp only [Bool.and_eq_true, decide_eq_true_eq] at hj
    exact hj.1

theorem find_job_company (hs : s.Valid) {jobId : ℕ} {job : Job}
    (hsafe : Hidden env.companyId env.sees ∨ Owns jobColumns env.companyId s.jobs jobId)
    (hjob : (s.jobs.find? fun j => j.id = jobId && env.sees j.companyId) = some job) :
    job.companyId = env.companyId := by
  have hfound := List.find?_some hjob
  simp only [Bool.and_eq_true, decide_eq_true_eq] at hfound
  rcases hsafe with hhidden | howns
  · by_contra hother
    simp [hhidden job.companyId hother] at hfound
  · obtain ⟨next, hkeyed⟩ := exists_keyed (c := jobColumns) hs.jobs
    exact hkeyed.company_eq (.inr howns) (List.mem_of_find?_eq_some hjob) hfound.1

/-- The replay of an entry that is the company's own, and its job with it. -/
theorem retry_agree (h : SameFor env.companyId s s') (hs : s.Valid) (hs' : s'.Valid)
    (hown : OwnEntry env s id) :
    (retryDeadLetterJob env (.ok id) s').1 = (retryDeadLetterJob env (.ok id) s).1 ∧
      (retryDeadLetterJob env (.ok id) s').2.others env.companyId = s'.others env.companyId := by
  obtain ⟨entry, hmem, hid, hcompany, hsafe⟩ := hown
  have howns : Owns deadLetterColumns env.companyId s.deadLetterJobs id :=
    ⟨entry, hmem, hid, hcompany⟩
  have howns' := (owns_iff (c := deadLetterColumns) h.deadLetterJobs).mp howns
  have hentry : (s.deadLetterJobs.find? fun e => e.id = id) = some entry :=
    find_of_mem (c := deadLetterColumns) hs.deadLetterJobs hmem hid
  have hentry' : (s'.deadLetterJobs.find? fun e => e.id = id) = some entry := by
    rw [← hentry]
    exact (howns.find_eq hs.deadLetterJobs hs'.deadLetterJobs h.deadLetterJobs
      fun e he => of_decide_eq_true he).symm
  unfold retryDeadLetterJob
  simp only [hentry, hentry']
  by_cases hretries : maxDlqRetries ≤ entry.retryCount
  · simp only [if_pos hretries]
    exact ⟨commitLastState_fst, commitLastState_others hs' howns'⟩
  · have hsafe := hsafe.resolve_left hretries
    have hsafe' : Hidden env.companyId env.sees ∨
        Owns jobColumns env.companyId s'.jobs entry.jobId :=
      hsafe.imp_right (owns_iff (c := jobColumns) h.jobs).mp
    simp only [if_neg hretries, find_job_eq h hs hs' hsafe]
    cases hjob : s'.jobs.find? fun j => j.id = entry.jobId && env.sees j.companyId with
    | none => exact ⟨commitLastState_fst, commitLastState_others hs' howns'⟩
    | some job =>
      have hjobCompany := find_job_company hs' hsafe' hjob
      simp only
      split
      · exact ⟨commitLastState_fst, commitLastState_others hs' howns'⟩
      · split
        · exact ⟨rfl, rfl⟩
        · exact ⟨rfl, update_others hs' howns' (fun _ => rfl)
            (others_append Task.companyId hjobCompany)⟩

theorem isolated_of_refused {call : Call} {s : TablesStore} (h : Refused env call) :
    Isolated env call s := by
  intro s' _
  refine ⟨?_, ?_⟩
  · rw [perform_of_refused h, perform_of_refused h]
  · rw [perform_of_refused h]

theorem isolated_of_guarded {call : Call} {s : TablesStore} (h : Guarded env s.1 call) :
    Isolated env call s := by
  by_cases hrefused : Refused env call
  · exact isolated_of_refused hrefused
  intro s' hsame
  have hperform := perform_of_not_refused hrefused
  cases call with
  | summary hours =>
    refine ⟨?_, by rw [hperform]; rfl⟩
    simp only [hperform, Call.body, getDlqSummary, whereCompany_some, hsame.deadLetterJobs]
  | entries limit offset =>
    refine ⟨?_, by rw [hperform]; rfl⟩
    simp only [hperform, Call.body, getDlqEntries, whereCompany_some, hsame.deadLetterJobs]
  | categories hours => exact h.elim
  | cleanupExpired => exact h.elim
  | replay uuid =>
    cases uuid with
    | error e => exact ⟨by rw [hperform, hperform]; rfl, by rw [hperform]; rfl⟩
    | ok id =>
      obtain ⟨hresponse, hothers⟩ := retry_agree hsame s.2 s'.2 h
      refine ⟨?_, ?_⟩
      · rw [hperform, hperform]
        exact congrArg Response.replayed hresponse
      · rw [hperform]
        exact hothers

/-! ## Calls that do not -/

/-- An entry of another company, recent and expired, with no retry left. -/
def foreignEntry (env : Env) (id : ℕ) : DeadLetterJob where
  id := id
  jobId := 0
  companyId := env.companyId + 1
  userId := none
  taskName := "process_job_task"
  errorMessage := none
  failureCategory := none
  lastState := none
  retryCount := maxDlqRetries
  traceId := none
  createdAt := some env.now
  expiresAt := some env.now

def Tables.withEntries (s : Tables) (env : Env) (entries : List DeadLetterJob) : Tables :=
  { s with deadLetterJobs := entries ++ own DeadLetterJob.companyId env.companyId s.deadLetterJobs }

def Tables.withJobs (s : Tables) (env : Env) (jobs : List Job) : Tables :=
  { s with jobs := jobs ++ own Job.companyId env.companyId s.jobs }

variable {call : Call} {store : TablesStore}

theorem Isolated.body_eq (h : Isolated env call store) (hrefused : ¬Refused env call)
    (hs : s.Valid) (hsame : SameFor env.companyId store.1 s) :
    (call.body env s).1 = (call.body env store.1).1 := by
  have hresponse := (h ⟨s, hs⟩ hsame).response
  rwa [perform_of_not_refused hrefused, perform_of_not_refused hrefused] at hresponse

/-- A call that can tell whether there is an entry of another company. -/
theorem not_isolated_of_entry (hrefused : ¬Refused env call)
    (hnot : ¬Owns deadLetterColumns env.companyId store.1.deadLetterJobs id)
    (hne : (call.body env (store.1.withEntries env [foreignEntry env id])).1 ≠
      (call.body env (store.1.withEntries env [])).1) : ¬Isolated env call store := by
  intro h
  have hown := own_own DeadLetterJob.companyId env.companyId store.1.deadLetterJobs
  have hother : (foreignEntry env id).companyId ≠ env.companyId := Nat.succ_ne_self _
  obtain ⟨next, hkeyed⟩ := exists_keyed (c := deadLetterColumns) store.2.deadLetterJobs
  have hnodup := (hkeyed.own (A := env.companyId)).nodup
  have hnew : id ∉ (own DeadLetterJob.companyId env.companyId store.1.deadLetterJobs).map
      DeadLetterJob.id := by
    intro hmem
    obtain ⟨e, he, hid⟩ := List.mem_map.mp hmem
    obtain ⟨hmem, hcompany⟩ := mem_own.mp he
    exact hnot ⟨e, hmem, hid, hcompany⟩
  refine hne ((h.body_eq hrefused ?_ ?_).trans (h.body_eq hrefused ?_ ?_).symm)
  · exact ⟨List.nodup_cons.mpr ⟨hnew, hnodup⟩, store.2.jobs⟩
  · exact ⟨((own_cons hother).trans hown).symm, rfl, rfl⟩
  · exact ⟨hnodup, store.2.jobs⟩
  · exact ⟨hown.symm, rfl, rfl⟩

theorem sum_countByCategory (rows : List DeadLetterJob) :
    ((countByCategory rows).map Prod.snd).sum = rows.length := by
  let categories := rows.map DeadLetterJob.failureCategory
  have hperm := (List.mergeSort_perm
    (categories.dedup.map fun category => (category, categories.count category))
    fun p q => q.2 ≤ p.2).map Prod.snd
  have hsum := List.sum_map_count_dedup_eq_length categories
  rw [show categories.length = rows.length from List.length_map _] at hsum
  rw [countByCategory, hperm.sum_eq, List.map_map, ← hsum]
  refine congrArg List.sum (List.map_congr_left fun category _ => ?_)
  -- the two ways to compare categories
  exact congrArg (fun b => @List.count _ b category categories) (lawful_beq_subsingleton _ _)

theorem sum_getDlqByFailureCategory (now : ℚ) (hours : ℤ) (rows : List DeadLetterJob) :
    ((getDlqByFailureCategory now hours rows).map Prod.snd).sum =
      rows.countP (DeadLetterJob.isRecent now hours) := by
  rw [getDlqByFailureCategory, List.map_map, List.countP_eq_length_filter]
  exact sum_countByCategory _

/-- The primary key of no row. -/
theorem exists_not_owns (store : TablesStore) (A : ℕ) :
    ∃ id, ¬Owns deadLetterColumns A store.1.deadLetterJobs id := by
  obtain ⟨next, hkeyed⟩ := exists_keyed (c := deadLetterColumns) store.2.deadLetterJobs
  refine ⟨next, ?_⟩
  rintro ⟨e, he, hid, -⟩
  exact (hkeyed.issued e he).ne hid

theorem not_isolated_categories {hours : ℤ} (hrefused : ¬Refused env (.categories hours)) :
    ¬Isolated env (.categories hours) store := by
  obtain ⟨id, hnot⟩ := exists_not_owns store env.companyId
  have hrecent : (foreignEntry env id).isRecent env.now hours = true := by
    have hrange : 1 ≤ hours := by
      by_contra hlt
      exact hrefused (.inl (by simp [Call.inRange, hlt]))
    have hpos : (0 : ℚ) ≤ hours := by exact_mod_cast zero_le_one.trans hrange
    simp only [DeadLetterJob.isRecent, foreignEntry, Option.any_some, decide_eq_true_eq]
    linarith
  refine not_isolated_of_entry hrefused hnot fun heq => ?_
  have hsum := congrArg (fun counts => (counts.map Prod.snd).sum) (Response.categories.inj heq)
  simp [sum_getDlqByFailureCategory, Tables.withEntries, hrecent] at hsum

theorem not_isolated_cleanupExpired (hrefused : ¬Refused env .cleanupExpired) :
    ¬Isolated env .cleanupExpired store := by
  obtain ⟨id, hnot⟩ := exists_not_owns store env.companyId
  have hexpired : (foreignEntry env id).isExpired env.now = true := by
    simp [DeadLetterJob.isExpired, foreignEntry]
  refine not_isolated_of_entry hrefused hnot fun heq => ?_
  have hcount := Response.cleaned.inj heq
  simp [Tables.withEntries, hexpired] at hcount

theorem body_replay {uuid : Except String ℕ} (s : Tables) :
    ((Call.replay uuid).body env s).1 = .replayed (retryDeadLetterJob env uuid s).1 := rfl

theorem commitLastState_fits (h : lastState.length ≤ 20) :
    (commitLastState s id lastState r).1 = r := by
  rw [commitLastState, if_pos h]

section
variable {entry : DeadLetterJob}

theorem retry_not_found (hentry : (s.deadLetterJobs.find? fun e => e.id = id) = none) :
    (retryDeadLetterJob env (.ok id) s).1 = .error "Dead letter job not found" := by
  simp only [retryDeadLetterJob, hentry]

theorem retry_exhausted (hentry : (s.deadLetterJobs.find? fun e => e.id = id) = some entry)
    (hretries : maxDlqRetries ≤ entry.retryCount) :
    (retryDeadLetterJob env (.ok id) s).1 = .error "Max retries exceeded" := by
  simp only [retryDeadLetterJob, hentry, if_pos hretries]
  exact commitLastState_fits (by decide)

theorem retry_no_job (hentry : (s.deadLetterJobs.find? fun e => e.id = id) = some entry)
    (hretries : entry.retryCount < maxDlqRetries)
    (hjob : (s.jobs.find? fun j => j.id = entry.jobId && env.sees j.companyId) = none) :
    (retryDeadLetterJob env (.ok id) s).1 = .error "Original job not found" := by
  simp only [retryDeadLetterJob, hentry, if_neg hretries.not_ge, hjob]
  exact commitLastState_fits (by decide)

theorem retry_skipped (hentry : (s.deadLetterJobs.find? fun e => e.id = id) = some entry)
    (hretries : entry.retryCount < maxDlqRetries) {job : Job}
    (hjob : (s.jobs.find? fun j => j.id = entry.jobId && env.sees j.companyId) = some job)
    (hstate : job.aiProcessingState = none) :
    (retryDeadLetterJob env (.ok id) s).1 = ⟨"skipped", "Job in state None", none, none⟩ := by
  have hother : (none : Option AIProcessingState) ≠ some .failed ∧
      (none : Option AIProcessingState) ≠ some .reserved := ⟨nofun, nofun⟩
  simp only [retryDeadLetterJob, hentry, if_neg hretries.not_ge, hjob, hstate, if_pos hother]
  exact commitLastState_fits (by decide)

end

theorem not_isolated_replay_foreign (hrefused : ¬Refused env (.replay (.ok id)))
    (hnot : ¬Owns deadLetterColumns env.companyId store.1.deadLetterJobs id) :
    ¬Isolated env (.replay (.ok id)) store := by
  refine not_isolated_of_entry hrefused hnot ?_
  have hwith : ((store.1.withEntries env [foreignEntry env id]).deadLetterJobs.find?
      fun e => e.id = id) = some (foreignEntry env id) :=
    List.find?_cons_of_pos (decide_eq_true rfl)
  have hwithout : ((store.1.withEntries env []).deadLetterJobs.find? fun e => e.id = id) =
      none := by
    refine List.find?_eq_none.mpr fun e he hid => hnot ?_
    obtain ⟨hmem, hcompany⟩ := mem_own.mp he
    exact ⟨e, hmem, of_decide_eq_true hid, hcompany⟩
  rw [body_replay, body_replay, retry_exhausted hwith le_rfl, retry_not_found hwithout]
  decide

/-- A job of another company with the id that the entry names. -/
def foreignJob (company id : ℕ) : Job := ⟨id, company, none, none, []⟩

theorem not_isolated_replay_job (hrefused : ¬Refused env (.replay (.ok id))) {entry : DeadLetterJob}
    (hentry : (store.1.deadLetterJobs.find? fun e => e.id = id) = some entry)
    (hretries : entry.retryCount < maxDlqRetries) (hhidden : ¬Hidden env.companyId env.sees)
    (hjob : ¬Owns jobColumns env.companyId store.1.jobs entry.jobId) :
    ¬Isolated env (.replay (.ok id)) store := by
  intro h
  obtain ⟨B, hB, hsees⟩ := exists_of_not_hidden hhidden
  have hown := own_own Job.companyId env.companyId store.1.jobs
  obtain ⟨next, hkeyed⟩ := exists_keyed (c := jobColumns) store.2.jobs
  have hnodup := (hkeyed.own (A := env.companyId)).nodup
  have hnone : ∀ j ∈ own Job.companyId env.companyId store.1.jobs, j.id ≠ entry.jobId := by
    intro j hj hid
    obtain ⟨hmem, hcompany⟩ := mem_own.mp hj
    exact hjob ⟨j, hmem, hid, hcompany⟩
  have hnew : entry.jobId ∉ (own Job.companyId env.companyId store.1.jobs).map Job.id := by
    intro hmem
    obtain ⟨j, hj, hid⟩ := List.mem_map.mp hmem
    exact hnone j hj hid
  have hother : (foreignJob B entry.jobId).companyId ≠ env.companyId := hB
  have hwith := h.body_eq (s := store.1.withJobs env [foreignJob B entry.jobId]) hrefused
    ⟨store.2.deadLetterJobs, List.nodup_cons.mpr ⟨hnew, hnodup⟩⟩
    ⟨rfl, ((own_cons hother).trans hown).symm, rfl⟩
  have hwithout := h.body_eq (s := store.1.withJobs env []) hrefused
    ⟨store.2.deadLetterJobs, hnodup⟩ ⟨rfl, hown.symm, rfl⟩
  have hfound : ((store.1.withJobs env [foreignJob B entry.jobId]).jobs.find? fun j =>
      j.id = entry.jobId && env.sees j.companyId) = some (foreignJob B entry.jobId) :=
    List.find?_cons_of_pos (by simp [foreignJob, hsees])
  have hmissed : ((store.1.withJobs env []).jobs.find? fun j =>
      j.id = entry.jobId && env.sees j.companyId) = none := by
    refine List.find?_eq_none.mpr fun j hj hfound => hnone j hj ?_
    simp only [Bool.and_eq_true, decide_eq_true_eq] at hfound
    exact hfound.1
  have hsame := hwith.trans hwithout.symm
  rw [body_replay, body_replay,
    retry_skipped (s := store.1.withJobs env [foreignJob B entry.jobId]) hentry hretries hfound rfl,
    retry_no_job (s := store.1.withJobs env []) hentry hretries hmissed] at hsame
  exact absurd hsame (by decide)

/-- A call keeps to the company just when it is turned down, answers from the company's rows alone,
or replays an entry of the company that leads to no job of another. -/
theorem isolated_iff_guarded (env : Env) (call : Call) (store : TablesStore) :
    Isolated env call store ↔ Refused env call ∨ Guarded env store.1 call := by
  constructor
  · intro h
    by_contra hnot
    obtain ⟨hrefused, hguarded⟩ := not_or.mp hnot
    cases call with
    | summary hours => exact hguarded trivial
    | entries limit offset => exact hguarded trivial
    | categories hours => exact not_isolated_categories hrefused h
    | cleanupExpired => exact not_isolated_cleanupExpired hrefused h
    | replay uuid =>
      cases uuid with
      | error e => exact hguarded trivial
      | ok id =>
        by_cases howns : Owns deadLetterColumns env.companyId store.1.deadLetterJobs id
        · obtain ⟨entry, hmem, hid, hcompany⟩ := howns
          have hentry := find_of_mem (c := deadLetterColumns) store.2.deadLetterJobs hmem hid
          have hunsafe := fun hsafe => hguarded ⟨entry, hmem, hid, hcompany, hsafe⟩
          simp only [imp_false, not_or, not_le] at hunsafe
          exact not_isolated_replay_job hrefused hentry hunsafe.1 hunsafe.2.1 hunsafe.2.2 h
        · exact not_isolated_replay_foreign hrefused howns h
  · rintro (hrefused | hguarded)
    · exact isolated_of_refused hrefused
    · exact isolated_of_guarded hguarded

/-- The owner of company 1, and an expired entry of company 2 with its job. -/
def ownerOf1 : Env where
  companyId := 1
  role := "owner"
  now := 100
  isoformat := fun _ => "2026-01-01T00:00:00+00:00"
  sees := fun _ => true
  dispatch := fun _ => .ok (some "task-1")
  freshTraceId := "trace-1"

def tablesOf2 : TablesStore where
  val :=
    { deadLetterJobs := [⟨7, 70, 2, none, "process_job_task", none, some "timeout", some "failed",
        0, none, some 90, some 95⟩]
      jobs := [⟨70, 2, some .failed, none, []⟩]
      queue := [] }
  property := ⟨by decide, by decide⟩

/-- The entry of company 2 is deleted by the one call, and its job queued again by the other. -/
theorem not_isolated_ownerOf1 :
    ¬(∀ env call store, env.role ∈ ["owner", "admin"] → Isolated env call store) ∧
      ¬Isolated ownerOf1 .cleanupExpired tablesOf2 ∧
      ¬Isolated ownerOf1 (.replay (.ok 7)) tablesOf2 := by
  have hcleanup : ¬Isolated ownerOf1 .cleanupExpired tablesOf2 := by
    intro h
    exact absurd (h tablesOf2 ⟨rfl, rfl, rfl⟩).others (by decide)
  have hreplay : ¬Isolated ownerOf1 (.replay (.ok 7)) tablesOf2 := by
    intro h
    exact absurd (h tablesOf2 ⟨rfl, rfl, rfl⟩).others (by decide)
  exact ⟨fun h => hcleanup (h _ _ _ (by decide)), hcleanup, hreplay⟩

end WorkTicket.Billing.DlqRouter
