import WorkTicket.Tasks.StaleJobs

/-! The scan for stalled jobs: jobs with processed media that were never queued, or whose message
was lost. Each is sent again, and failed once it was sent three times within a day. -/

namespace WorkTicket.Tasks.StalledScan

open WorkTicket.Billing WorkTicket.Tasks.StaleJobs

structure Media where
  type : String
  storageUrl : String
  aiProcessed : Bool
  deriving DecidableEq, Repr

structure Tables where
  db : Db
  media : JobId → List Media
  description : JobId → Option String

/-- The keys `scan_recover:` and `scan_recover_count:` of the jobs. -/
structure Redis where
  locks : JobId → Bool
  counts : JobId → ℕ

/-- The arguments of `enqueue_job_task`. -/
structure Dispatch where
  jobId : JobId
  companyId : CompanyId
  audioUrl : Option String
  imageUrls : List String
  description : String
  deriving DecidableEq, Repr

structure DeadLetter where
  jobId : JobId
  companyId : CompanyId
  taskName : String
  errorMessage : String
  failureCategory : String
  lastState : Option AIProcessingState
  retryCount : ℕ
  deriving DecidableEq, Repr

/-- The calls of the loop that may raise. -/
inductive Call
  | setLock
  | incr
  | expire
  | transition
  | commit
  | loadMedia
  | enqueue
  deriving DecidableEq, Repr

/-- What a run meets. `resultLen` is `len` of what `db.execute` returns, `admits` the answer of
`check_retry_storm`, and `discards` tells which jobs the dead letters take for poison. -/
structure Env where
  aiDisabled : Bool
  acquired : Bool
  now : Time
  queryRaises : Bool
  resultLen : List Job → Except String ℕ
  redisUp : Bool
  raises : JobId → Call → Bool
  admits : JobId → Bool
  discards : JobId → Bool

/-! ## The selection -/

def queueLostMinutes : ℚ := 5

def requeueLimit : ℕ := 3

section
variable (env : Env) (t : Tables)

def hasProcessedMedia (j : Job) : Bool := (t.media j.id).any Media.aiProcessed

def neverStarted (j : Job) : Bool :=
  j.aiProcessingState = some .none && hasProcessedMedia t j

def lostInQueue (j : Job) : Bool :=
  j.aiProcessingState = some .queued &&
    (j.aiProcessingUpdatedAt.any fun updated => updated < env.now - minutes queueLostMinutes) &&
      hasProcessedMedia t j

def stalledJobs : List Job :=
  t.db.jobs.filter (neverStarted t) ++ t.db.jobs.filter (lostInQueue env t)

/-! ## The loop -/

/-- The open transaction with the rows it has committed, and what was sent so far; a failed
statement loses the transaction. -/
structure Scan where
  db : Db
  committed : Db
  lost : Bool
  redis : Redis
  dispatched : List Dispatch
  deadLetters : List DeadLetter

/-- `transition_job_state`, whose result is not looked at. -/
def Scan.transition (s : Scan) (target : AIProcessingState) (job : Job) : Scan :=
  let moved := transitionJobState env.now target false (s.db.accounts job.companyId)
    (s.db.job? job.id job.companyId)
  { s with db := s.db.write job.companyId moved.2.1 moved.2.2 }

def Scan.fail (s : Scan) (job : Job) : Scan :=
  if s.lost || env.raises job.id .transition then { s with lost := true }
  else
    let s := s.transition env .failed job
    if env.raises job.id .commit then { s with lost := true }
    else
      let s := { s with committed := s.db }
      let count := s.redis.counts job.id
      if env.discards job.id then s
      else { s with
        deadLetters := s.deadLetters ++ [⟨job.id, job.companyId, "scan_for_stalled_ai_jobs",
          "Job re-queued " ++ toString count ++ " times without progress", "stall_exhausted",
          (s.db.job? job.id job.companyId).bind Job.aiProcessingState, count⟩] }

def dispatchOf (job : Job) : Dispatch where
  jobId := job.id
  companyId := job.companyId
  audioUrl := ((t.media job.id).find? fun m => m.type = "audio").map Media.storageUrl
  imageUrls := ((t.media job.id).filter fun m => m.type ∈ ["image", "photo"]).map Media.storageUrl
  description := (t.description job.id).getD ""

def Scan.requeue (s : Scan) (job : Job) : Scan :=
  if s.lost || env.raises job.id .transition then { s with lost := true }
  else
    let s := s.transition env .queued job
    -- the lazy load of an asynchronous session raises before it sends a statement
    if env.raises job.id .loadMedia then s
    else if env.raises job.id .enqueue then s
    else { s with dispatched := s.dispatched ++ [dispatchOf t job] }

/-- The body of the loop; what it raises is only logged. -/
def recoverJob (s : Scan) (job : Job) : Scan :=
  if env.redisUp then
    if env.raises job.id .setLock || s.redis.locks job.id then s
    else
      let s := { s with redis.locks := Function.update s.redis.locks job.id true }
      if env.raises job.id .incr then s
      else
        let count := s.redis.counts job.id + 1
        let s := { s with redis.counts := Function.update s.redis.counts job.id count }
        if env.raises job.id .expire then s
        else if requeueLimit < count then s.fail env job
        else s.requeue env t job
  else if env.admits job.id then s.requeue env t job
  else s

inductive Ending
  | skipped (reason : String)
  | finished
  | raised (error : String)
  deriving DecidableEq, Repr

structure Result where
  db : Db
  redis : Redis
  dispatched : List Dispatch
  deadLetters : List DeadLetter
  ending : Ending

def untouched (redis : Redis) (ending : Ending) : Result := ⟨t.db, redis, [], [], ending⟩

def recoverAll (redis : Redis) (commits : Bool) (jobs : List Job) : Result :=
  let s := jobs.foldl (recoverJob env t) ⟨t.db, t.db, false, redis, [], []⟩
  -- a commit that raises is only logged, and one of a lost transaction keeps nothing
  ⟨if commits && !s.lost then s.db else s.committed, s.redis, s.dispatched, s.deadLetters, .finished⟩

/-- The text of the log line needs the lengths of both results. -/
def foundText : Except String String := do
  let noneState ← env.resultLen (t.db.jobs.filter (neverStarted t))
  let queuedState ← env.resultLen (t.db.jobs.filter (lostInQueue env t))
  return "Found " ++ toString (stalledJobs env t).length ++ " stalled AI jobs (" ++
    toString noneState ++ " none-state, " ++ toString queuedState ++ " queued-state)"

def scanForStalledAiJobs (redis : Redis) (commits : Bool) : Result :=
  if env.aiDisabled then untouched t redis (.skipped "ai_disabled")
  else if !env.acquired then untouched t redis (.skipped "concurrent_execution_locked")
  else if env.queryRaises then untouched t redis (.raised "the query failed")
  else
    let jobs := stalledJobs env t
    if jobs = [] then untouched t redis .finished
    else match foundText env t with
      | .error e => untouched t redis (.raised e)
      | .ok _ => recoverAll env t redis commits jobs

end

/-! ## What a run should do -/

def stateIn (db : Db) (id : JobId) : Option AIProcessingState :=
  (db.jobs.find? fun j => j.id = id).bind Job.aiProcessingState

def Quiet (env : Env) (j : Job) : Prop := ∀ c, env.raises j.id c = false

/-- Sent again, which happens at most three times before the count of a day ends, or failed. -/
def Handled (before : Redis) (r : Result) (j : Job) : Prop :=
  (before.counts j.id < requeueLimit ∧ ∃ d ∈ r.dispatched, d.jobId = j.id) ∨
    stateIn r.db j.id = some .failed ∧ ∃ l ∈ r.deadLetters, l.jobId = j.id

structure Meets (env : Env) (t : Tables) (before : Redis) (r : Result) : Prop where
  ends : ∀ e, r.ending ≠ .raised e
  handles : r.ending = .finished → ∀ j ∈ stalledJobs env t, Quiet env j → Handled before r j
  limited : ∀ d ∈ r.dispatched, before.counts d.jobId < requeueLimit

/-- The run is skipped, or finds no stalled job. -/
def Idle (env : Env) (t : Tables) : Prop :=
  env.aiDisabled = true ∨ env.acquired = false ∨
    (env.queryRaises = false ∧ stalledJobs env t = [])

section
variable {env : Env} {t : Tables} {redis : Redis} {commits : Bool}

theorem foundText_of_lengthless (hlen : ∀ rows, ∃ e, env.resultLen rows = .error e) :
    ∃ e, foundText env t = .error e := by
  obtain ⟨e, he⟩ := hlen (t.db.jobs.filter (neverStarted t))
  refine ⟨e, ?_⟩
  unfold foundText
  rw [he]
  rfl

theorem meets_untouched {ending : Ending} (hends : ∀ e, ending ≠ .raised e)
    (hnone : ending = .finished → stalledJobs env t = []) :
    Meets env t redis (untouched t redis ending) := by
  refine ⟨hends, fun hfinished j hj => ?_, fun d hd => absurd hd List.not_mem_nil⟩
  rw [hnone hfinished] at hj
  exact absurd hj List.not_mem_nil

/-- Where `len` of a result raises, the scan ends normally exactly when it has nothing to do. -/
theorem meets_iff_idle (hlen : ∀ rows, ∃ e, env.resultLen rows = .error e) :
    Meets env t redis (scanForStalledAiJobs env t redis commits) ↔ Idle env t := by
  unfold scanForStalledAiJobs Idle
  by_cases hdisabled : env.aiDisabled = true
  · rw [if_pos hdisabled]
    exact iff_of_true (meets_untouched nofun nofun) (.inl hdisabled)
  rw [if_neg hdisabled]
  by_cases hacquired : env.acquired = false
  · rw [hacquired, Bool.not_false, if_pos rfl]
    exact iff_of_true (meets_untouched nofun nofun) (.inr (.inl rfl))
  have hheld : (!env.acquired) = false := by simpa using hacquired
  rw [hheld, if_neg Bool.false_ne_true]
  by_cases hquery : env.queryRaises = true
  · rw [if_pos hquery]
    refine iff_of_false (fun h => h.ends _ rfl) ?_
    simp [hdisabled, hacquired, hquery]
  rw [if_neg hquery]
  by_cases hjobs : stalledJobs env t = []
  · simp only [hjobs, if_true]
    refine iff_of_true (meets_untouched nofun fun _ => hjobs) ?_
    simp [hquery]
  · obtain ⟨e, he⟩ := foundText_of_lengthless (t := t) hlen
    simp only [he, if_neg hjobs]
    refine iff_of_false (fun h => h.ends e rfl) ?_
    simp [hdisabled, hacquired, hjobs]

/-! ## One job beside the others -/

/-- What the scan of one job leaves alone. -/
structure Beside (id : JobId) (s s' : Scan) : Prop where
  lock : s'.redis.locks id = s.redis.locks id
  count : s'.redis.counts id = s.redis.counts id
  dispatched : s.dispatched ⊆ s'.dispatched
  deadLetters : s.deadLetters ⊆ s'.deadLetters

theorem Beside.refl (id : JobId) (s : Scan) : Beside id s s :=
  ⟨rfl, rfl, List.Subset.refl _, List.Subset.refl _⟩

theorem Beside.trans {id : JobId} {s s' s'' : Scan} (h : Beside id s s') (h' : Beside id s' s'') :
    Beside id s s'' :=
  ⟨h'.lock.trans h.lock, h'.count.trans h.count, List.Subset.trans h.dispatched h'.dispatched,
    List.Subset.trans h.deadLetters h'.deadLetters⟩

/-- No statement of the scan fails on the job. -/
def Stored (env : Env) (j : Job) : Prop :=
  env.raises j.id .transition = false ∧ env.raises j.id .commit = false

def Sent (s : Scan) (id : JobId) : Prop :=
  (∃ d ∈ s.dispatched, d.jobId = id) ∨ ∃ l ∈ s.deadLetters, l.jobId = id

theorem Beside.sent {id : JobId} {s s' : Scan} (h : Beside id s s') (hsent : Sent s id) :
    Sent s' id := by
  rcases hsent with ⟨d, hd, hid⟩ | ⟨l, hl, hid⟩
  · exact .inl ⟨d, h.dispatched hd, hid⟩
  · exact .inr ⟨l, h.deadLetters hl, hid⟩

variable {j : Job} {s : Scan} {id : JobId}

theorem fail_beside : Beside id s (s.fail env j) := by
  unfold Scan.fail Scan.transition
  simp only
  split_ifs
  · exact ⟨rfl, rfl, List.Subset.refl _, List.Subset.refl _⟩
  · exact ⟨rfl, rfl, List.Subset.refl _, List.Subset.refl _⟩
  · exact ⟨rfl, rfl, List.Subset.refl _, List.Subset.refl _⟩
  · exact ⟨rfl, rfl, List.Subset.refl _, List.subset_append_left _ _⟩

theorem requeue_beside : Beside id s (s.requeue env t j) := by
  unfold Scan.requeue Scan.transition
  simp only
  split_ifs
  · exact ⟨rfl, rfl, List.Subset.refl _, List.Subset.refl _⟩
  · exact ⟨rfl, rfl, List.Subset.refl _, List.Subset.refl _⟩
  · exact ⟨rfl, rfl, List.Subset.refl _, List.Subset.refl _⟩
  · exact ⟨rfl, rfl, List.subset_append_left _ _, List.Subset.refl _⟩

theorem recoverJob_beside (h : id ≠ j.id) : Beside id s (recoverJob env t s j) := by
  have hcounted : Beside id s
      ⟨s.db, s.committed, s.lost, ⟨Function.update s.redis.locks j.id true,
        Function.update s.redis.counts j.id (s.redis.counts j.id + 1)⟩,
        s.dispatched, s.deadLetters⟩ :=
    ⟨Function.update_of_ne h _ _, Function.update_of_ne h _ _, List.Subset.refl _,
      List.Subset.refl _⟩
  unfold recoverJob
  simp only
  split_ifs
  · exact Beside.refl id s
  · exact ⟨Function.update_of_ne h _ _, rfl, List.Subset.refl _, List.Subset.refl _⟩
  · exact hcounted
  · exact hcounted.trans fail_beside
  · exact hcounted.trans requeue_beside
  · exact requeue_beside
  · exact Beside.refl id s

theorem foldl_beside {jobs : List Job} (h : id ∉ jobs.map Job.id) :
    Beside id s (jobs.foldl (recoverJob env t) s) := by
  induction jobs generalizing s with
  | nil => exact Beside.refl id s
  | cons i jobs ih =>
    obtain ⟨hne, hrest⟩ := not_or.mp (List.mem_cons.not.mp h)
    exact (recoverJob_beside hne).trans (ih hrest)

theorem recoverJob_lost (hstored : Stored env j) (hs : s.lost = false) :
    (recoverJob env t s j).lost = false := by
  unfold recoverJob Scan.fail Scan.requeue Scan.transition
  simp only [hs, hstored.1, hstored.2, Bool.or_self, Bool.false_eq_true, if_false]
  split_ifs <;> first | rfl | exact hs

theorem recoverJob_sent (hup : env.redisUp = true) (hquiet : Quiet env j)
    (hkept : env.discards j.id = false) (hfree : s.redis.locks j.id = false)
    (hs : s.lost = false) : Sent (recoverJob env t s j) j.id := by
  have hraises : ∀ c, env.raises j.id c = false := hquiet
  unfold recoverJob Scan.fail Scan.requeue Scan.transition
  simp only [hup, hraises, hfree, hs, hkept, Bool.or_self, Bool.false_eq_true, if_false, if_true]
  split_ifs
  · right
    exact ⟨_, List.mem_append_right _ (List.mem_singleton_self _), rfl⟩
  · left
    exact ⟨dispatchOf t j, List.mem_append_right _ (List.mem_singleton_self _), rfl⟩

/-- Past the log line an error on one job does not stop the others. -/
theorem foldl_sent {jobs : List Job} (hnodup : (jobs.map Job.id).Nodup)
    (hstored : ∀ i ∈ jobs, Stored env i) (hj : j ∈ jobs) (hup : env.redisUp = true)
    (hquiet : Quiet env j) (hkept : env.discards j.id = false)
    (hfree : s.redis.locks j.id = false) (hs : s.lost = false) :
    Sent (jobs.foldl (recoverJob env t) s) j.id := by
  induction jobs generalizing s with
  | nil => cases hj
  | cons i jobs ih =>
    obtain ⟨hi, hrest⟩ := List.nodup_cons.mp hnodup
    rw [List.foldl_cons]
    rcases List.mem_cons.mp hj with rfl | hmem
    · exact (foldl_beside hi).sent (recoverJob_sent hup hquiet hkept hfree hs)
    · have hne : j.id ≠ i.id := fun h => hi (h ▸ List.mem_map_of_mem hmem)
      have hbeside : Beside j.id s (recoverJob env t s i) := recoverJob_beside hne
      exact ih hrest (fun i hi => hstored i (List.mem_cons_of_mem _ hi)) hmem
        (hbeside.lock.trans hfree) (recoverJob_lost (hstored i List.mem_cons_self) hs)

end

/-- A result has no length. -/
def resultLen (_ : List Job) : Except String ℕ :=
  .error "object of type 'ChunkedIteratorResult' has no len()"

def calm : Env where
  aiDisabled := false
  acquired := true
  now := 1000
  queryRaises := false
  resultLen := resultLen
  redisUp := true
  raises := fun _ _ => false
  admits := fun _ => true
  discards := fun _ => false

/-- A job whose message was lost. -/
def oneStalled : Tables where
  db := ⟨[⟨7, 1, some .queued, some 0, none, none, none⟩], fun _ => none, by decide⟩
  media := fun _ => [⟨"image", "s3://bucket/7.jpg", true⟩]
  description := fun _ => none

def fresh : Redis := ⟨fun _ => false, fun _ => 0⟩

theorem meets_iff_idle_oneStalled :
    Meets calm oneStalled fresh (scanForStalledAiJobs calm oneStalled fresh true) ↔
      Idle calm oneStalled :=
  meets_iff_idle fun _ => ⟨_, rfl⟩

theorem not_meets_oneStalled : ¬∀ env t redis commits,
    (∀ rows, ∃ e, env.resultLen rows = .error e) →
      Meets env t redis (scanForStalledAiJobs env t redis commits) := by
  intro h
  have hmeets := h calm oneStalled fresh true fun _ => ⟨_, rfl⟩
  apply hmeets.ends "object of type 'ChunkedIteratorResult' has no len()"
  decide +kernel

end WorkTicket.Tasks.StalledScan
