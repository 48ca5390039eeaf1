import WorkTicket.Billing.StatePath

/-! A job's status and its AI state: `update_job` changes the one, the routes and tasks of
the AI pipeline the other, on one row and in sessions of their own. -/

namespace WorkTicket.Jobs.StatusCoupling

open WorkTicket.Transition WorkTicket.RowSessions WorkTicket.Billing
open WorkTicket.Billing.StatePath (Writer mergeJob mergeJob_current)

inductive JobStatus
  | pending
  | inProgress
  | completed
  | cancelled
  deriving DecidableEq, Repr

def statusValues : List (String × JobStatus) :=
  [("cancelled", .cancelled), ("completed", .completed), ("in_progress", .inProgress),
    ("pending", .pending)]

def stateValue : AIProcessingState → String
  | .none => "none"
  | .queued => "queued"
  | .reserved => "reserved"
  | .processing => "processing"
  | .completed => "completed"
  | .failed => "failed"
  | .compensated => "compensated"

structure JobRow where
  job : Job
  status : JobStatus
  deriving DecidableEq, Repr

def mergeRow (old new row : JobRow) : JobRow :=
  ⟨mergeJob old.job new.job row.job, column old.status new.status row.status⟩

/-- AI is still queued, reserved or processing. -/
def isBlocked : AIProcessingState → Bool
  | .queued | .reserved | .processing => true
  | _ => false

/-! ## `update_job` -/

/-- The parts of a payload that the route checks: the status, when it is set, and whether
the customer and the technician it names are found. -/
structure JobUpdate where
  status : Option String
  customerFound : Bool
  technicianFound : Bool

def invalidStatus (status : String) : ℕ × String :=
  (400, "Invalid status '" ++ status ++ "'. Must be one of: " ++
    ", ".intercalate (statusValues.map Prod.fst))

def stillProcessing (state : AIProcessingState) : ℕ × String :=
  (400, "Cannot complete job while AI processing is in '" ++ stateValue state ++
    "' state. Wait for AI to finish or cancel the AI job first.")

def checkStatus (status : String) (r : JobRow) : Except (ℕ × String) JobStatus :=
  match statusValues.lookup status with
  | none => .error (invalidStatus status)
  | some .completed =>
    if isBlocked r.job.current then .error (stillProcessing r.job.current) else .ok .completed
  | some new => .ok new

def updateJob (payload : JobUpdate) (r : JobRow) : Except (ℕ × String) JobRow := do
  let status ← match payload.status with
    | some status => checkStatus status r
    | none => .ok r.status
  if !payload.customerFound then .error (400, "Customer not found")
  else if !payload.technicianFound then .error (400, "Technician not found in your company")
  else .ok { r with status := status }

/-! ## Runs -/

inductive Event (ι : Type*)
  | load (i : ι)
  | update (i : ι) (payload : JobUpdate)
  | write (i : ι) (w : Writer)
  | commit (i : ι)
  | rollback (i : ι)

section
variable {ι : Type*} [DecidableEq ι]

/-- A refused update ends its request, whose session is rolled back. -/
def step (s : Shared ι JobRow) : Event ι → Option (Shared ι JobRow)
  | .load i => some (s.load i)
  | .update i payload =>
    if s.lockFree i then
      match updateJob payload (s.view i) with
      | .ok new => some (s.write i mergeRow new)
      | .error _ => some (s.rollback i)
    else none
  | .write i w =>
    if s.lockFree i ∧ w.selects (s.seen i).job then
      some (s.write i mergeRow { s.view i with job := w.apply (s.view i).job })
    else none
  | .commit i => some (s.commit i)
  | .rollback i => some (s.rollback i)

def created (job : Job) : Shared ι JobRow := start ⟨job, .pending⟩

def Coupled (r : JobRow) : Prop := ¬ (r.status = .completed ∧ isBlocked r.job.current = true)

/-- The writer takes a job that its session has in this state to an active one. -/
def activates (w : Writer) (view : Job) : Bool :=
  match w with
  | .transition _ target _ _ => isBlocked target && validateTransition view.current target
  | .reconcile _ _ target =>
    view.current = .failed || isBlocked target && validateTransition view.current target
  | .requeue _ => false

/-- The AI of a completed job is not started again, and an update to `completed` that read
an AI not at work finds it so at its flush. -/
def KeepsCoupling (s : Shared ι JobRow) : Event ι → Bool
  | .update i payload =>
    payload.status ≠ some "completed" || isBlocked (s.view i).job.current ||
      !isBlocked (s.seen i).job.current
  | .write i w => (s.seen i).status ≠ .completed || !activates w (s.view i).job
  | _ => true

end

/-! ## What the writers do to the coupling -/

theorem lookup_completed {status : String}
    (h : statusValues.lookup status = some .completed) : status = "completed" := by
  have hnames : ∀ value ∈ statusValues, value.2 = .completed → value.1 = "completed" := by decide
  obtain ⟨before, after, hvalues, -⟩ := List.lookup_eq_some_iff.mp h
  exact hnames (status, .completed) (by simp [hvalues]) rfl

theorem checkStatus_eq_ok {status : String} {r : JobRow} {new : JobStatus}
    (h : checkStatus status r = .ok new) (hnew : new = .completed) :
    status = "completed" ∧ isBlocked r.job.current = false := by
  unfold checkStatus at h
  split at h
  · cases h
  · rename_i hlookup
    split at h
    · cases h
    · rename_i hblocked
      exact ⟨lookup_completed hlookup, by simpa using hblocked⟩
  · rename_i other hother hlookup
    obtain rfl := Except.ok.inj h
    exact absurd hnew hother

/-- An update changes the status alone, and sets `completed` only when it is asked to and
the AI it read is not at work. -/
theorem updateJob_eq_ok {payload : JobUpdate} {r r' : JobRow} (h : updateJob payload r = .ok r') :
    r'.job = r.job ∧ (r'.status = .completed → r.status = .completed ∨
      payload.status = some "completed" ∧ isBlocked r.job.current = false) := by
  unfold updateJob at h
  cases hstatus : payload.status with
  | none =>
    rw [hstatus] at h
    change (if _ then _ else if _ then _ else _) = _ at h
    split_ifs at h
    obtain rfl := Except.ok.inj h
    exact ⟨rfl, .inl⟩
  | some status =>
    rw [hstatus] at h
    cases hcheck : checkStatus status r with
    | error e =>
      change (checkStatus status r >>= _) = _ at h
      rw [hcheck] at h
      cases h
    | ok new =>
      change (checkStatus status r >>= _) = _ at h
      rw [hcheck] at h
      change (if _ then _ else if _ then _ else _) = _ at h
      split_ifs at h
      obtain rfl := Except.ok.inj h
      exact ⟨rfl, fun hnew => .inr ((checkStatus_eq_ok hcheck hnew).imp_left (congrArg some))⟩

theorem mergeJob_self (old row : Job) : mergeJob old old row = row := by
  simp only [mergeJob, column_self]

theorem eq_of_blocked {j j' : Job} (h : j'.current = j.current)
    (hblocked : isBlocked j'.current = true) : j'.aiProcessingState = j.aiProcessingState := by
  unfold Job.current at h hblocked
  cases hnew : j'.aiProcessingState with
  | none =>
    rw [hnew] at hblocked
    cases hblocked
  | some state =>
    rw [hnew, Option.getD_some] at h hblocked
    cases hold : j.aiProcessingState with
    | none =>
      rw [hold, Option.getD_none] at h
      rw [h] at hblocked
      cases hblocked
    | some state' =>
      rw [hold, Option.getD_some] at h
      rw [h]

/-- A writer that does not activate the job leaves an active state only where it found it. -/
theorem apply_of_not_activates {w : Writer} {j : Job} (hw : ∀ now, w ≠ .requeue now)
    (hnot : activates w j = false) (hblocked : isBlocked (w.apply j).current = true) :
    (w.apply j).current = j.current := by
  cases w with
  | requeue now => exact absurd rfl (hw now)
  | transition now target heartbeat account =>
    obtain ⟨j', hj', -, h⟩ := transitionJobState_job now target heartbeat account j
    rw [Writer.apply, hj', Option.getD_some] at hblocked ⊢
    obtain ⟨-, hvalid, hcurrent⟩ | ⟨-, hcurrent, -⟩ := h
    · rw [activates, hvalid, ← hcurrent, hblocked] at hnot
      cases hnot
    · exact hcurrent
  | reconcile now expected target =>
    simp only [activates, Bool.or_eq_false_iff, Bool.and_eq_false_iff, decide_eq_false_iff_not]
      at hnot
    obtain ⟨hfailed, htarget⟩ := hnot
    simp only [Writer.apply, reconcileJobState] at hblocked ⊢
    split_ifs at hblocked ⊢ with _ _ hvalid
    all_goals first | rfl | skip
    rename_i htgt
    obtain hnot | hnot := htarget
    · have htarget : isBlocked target = true := hblocked
      rw [hnot] at htarget
      cases htarget
    · rw [hvalid] at hnot
      cases hnot

section
variable {ι : Type*} [DecidableEq ι] {s s' : Shared ι JobRow} {e : Event ι} {i : ι}

theorem coupled_update {payload : JobUpdate} {new : JobRow} (h : Coupled (s.seen i))
    (hnew : updateJob payload (s.view i) = .ok new)
    (hok : KeepsCoupling s (.update i payload) = true) :
    Coupled (mergeRow (s.view i) new (s.seen i)) := by
  obtain ⟨hjob, hstatus⟩ := updateJob_eq_ok hnew
  rintro ⟨hcompleted, hblocked⟩
  simp only [mergeRow, hjob, mergeJob_self] at hcompleted hblocked
  simp only [KeepsCoupling, hblocked, Bool.not_true, Bool.or_false, Bool.or_eq_true,
    decide_eq_true_eq] at hok
  unfold column at hcompleted
  split at hcompleted
  · exact h ⟨hcompleted, hblocked⟩
  · rename_i hchanged
    obtain hold | ⟨hasked, hidle⟩ := hstatus hcompleted
    · exact hchanged (hcompleted.trans hold.symm)
    · rw [hidle] at hok
      exact hok.elim (fun hnot => hnot hasked) (by simp)

theorem coupled_write {w : Writer} (h : Coupled (s.seen i))
    (hselects : w.selects (s.seen i).job = true) (hok : KeepsCoupling s (.write i w) = true) :
    Coupled (mergeRow (s.view i) { s.view i with job := w.apply (s.view i).job } (s.seen i)) := by
  rintro ⟨hcompleted, hblocked⟩
  simp only [mergeRow, column_self] at hcompleted hblocked
  by_cases hw : ∃ now, w = .requeue now
  · -- the cleanup takes active jobs only, and these are not completed
    obtain ⟨now, rfl⟩ := hw
    refine h ⟨hcompleted, ?_⟩
    cases hc : (s.seen i).job.current <;> simp_all [Writer.selects, isBlocked,
      Tasks.LiveReservations.isActive]
  · have hnot : ∀ now, w ≠ .requeue now := fun now he => hw ⟨now, he⟩
    have hactivates : activates w (s.view i).job = false := by
      simpa [KeepsCoupling, hcompleted] using hok
    refine h ⟨hcompleted, ?_⟩
    obtain hrow | hnew := mergeJob_current (s.view i).job (w.apply (s.view i).job) (s.seen i).job
    · exact hrow ▸ hblocked
    · have hsame := apply_of_not_activates hnot hactivates (hnew ▸ hblocked)
      have hcolumn := eq_of_blocked hsame (hnew ▸ hblocked)
      have hrow : (mergeJob (s.view i).job (w.apply (s.view i).job) (s.seen i).job).current =
          (s.seen i).job.current := by
        simp only [Job.current, mergeJob, hcolumn, column_self]
      exact hrow ▸ hblocked

theorem coupled_step (h : Holds Coupled s) (hok : KeepsCoupling s e = true)
    (hs : step s e = some s') : Holds Coupled s' := by
  cases e with
  | load i => exact Option.some.inj hs ▸ h.load
  | update i payload =>
    obtain ⟨-, hs⟩ := Option.ite_none_right_eq_some.mp hs
    cases hnew : updateJob payload (s.view i) with
    | ok new =>
      rw [hnew] at hs
      exact Option.some.inj hs ▸ h.write (coupled_update h.seen hnew hok)
    | error e =>
      rw [hnew] at hs
      exact Option.some.inj hs ▸ h.rollback
  | write i w =>
    obtain ⟨⟨-, hselects⟩, ⟨⟩⟩ := Option.ite_none_right_eq_some.mp hs
    exact h.write (coupled_write h.seen hselects hok)
  | commit i => exact Option.some.inj hs ▸ h.commit
  | rollback i => exact Option.some.inj hs ▸ h.rollback

/-- From the creation of a job on, also of what is not committed yet. -/
theorem coupled_of_keepsCoupling {job : Job}
    (h : ReachedBy step (fun s e => KeepsCoupling s e) (created job) s) : Holds Coupled s :=
  h.invariant (holds_start fun hc => nomatch hc.1)
    fun _ _ _ hi hok hs => coupled_step hi hok hs

end

/-! ## Completing a job and processing it -/

def complete : JobUpdate := ⟨some "completed", true, true⟩

def queue (i : ℕ) (now : Time) : List (Event ℕ) :=
  [.load i, .write i (.transition now .queued false none), .commit i]

def process (i : ℕ) (now : Time) : List (Event ℕ) :=
  [.load i, .write i (.reconcile now .queued .reserved),
    .write i (.reconcile now .reserved .processing), .commit i]

/-- Refused while the job is processed, and accepted when it is done. -/
def completedAfter : List (Event ℕ) :=
  queue 0 0 ++ process 1 5 ++ [.load 2, .update 2 complete, .rollback 2] ++
    [.load 3, .write 3 (.reconcile 60 .processing .completed), .commit 3] ++
    [.load 4, .update 4 complete, .commit 4]

theorem coupled_completedAfter :
    Holds Coupled ((runWhile step (fun s e => KeepsCoupling s e) (created StatePath.newJob)
      completedAfter).get (by decide +kernel)) :=
  coupled_of_keepsCoupling (ReachedBy.of_runWhile (Option.some_get _).symm)

def afterQueue : Shared ℕ JobRow :=
  (run step (created StatePath.newJob) ([.load 0, .update 0 complete, .commit 0] ++ queue 1 5)).get
    (by decide)

/-- The process-job route queues a job that was completed before its AI had begun. -/
theorem afterQueue_not_coupled :
    Reached step (created StatePath.newJob) afterQueue ∧ ¬ Holds Coupled afterQueue := by
  refine ⟨Reached.of_run (Option.some_get _).symm, fun h => h.1 ?_⟩
  exact ⟨by decide +kernel, by decide +kernel⟩

end WorkTicket.Jobs.StatusCoupling
