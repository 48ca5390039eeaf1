import WorkTicket.Foundation.RowSessions
import WorkTicket.Foundation.Transition
import WorkTicket.Tasks.LiveReservations

/-! The path of a job through its AI states: the row of a job under the sessions of the
routes and tasks that write its state, each with the copy it has loaded. -/

namespace WorkTicket.Billing.StatePath

open WorkTicket.Transition WorkTicket.RowSessions
open WorkTicket.Tasks.LiveReservations (isActive)

/-- The flush of a job whose copy went from `old` to `new`. -/
def mergeJob (old new row : Job) : Job :=
  { row with
    aiProcessingState := column old.aiProcessingState new.aiProcessingState row.aiProcessingState
    aiProcessingUpdatedAt :=
      column old.aiProcessingUpdatedAt new.aiProcessingUpdatedAt row.aiProcessingUpdatedAt
    retryCount := column old.retryCount new.retryCount row.retryCount
    stateCycleCounter := column old.stateCycleCounter new.stateCycleCounter row.stateCycleCounter
    stateCycleResetAt := column old.stateCycleResetAt new.stateCycleResetAt row.stateCycleResetAt }

/-- A job and the states it has been written to, the last one first. -/
structure Traced where
  job : Job
  trail : List AIProcessingState
  deriving DecidableEq, Repr

def mergeTraced (old new row : Traced) : Traced :=
  let job := mergeJob old.job new.job row.job
  ⟨job, job.current :: row.trail⟩

/-- The functions that write the state. The task calls the second, the cleanup of stale
reservations does the third, the routes and all other tasks call the first. -/
inductive Writer
  | transition (now : Time) (target : AIProcessingState) (heartbeat : Bool)
      (account : Option BillingAccount)
  | reconcile (now : Time) (expected target : AIProcessingState)
  | requeue (now : Time)

def Writer.apply (w : Writer) (j : Job) : Job :=
  match w with
  | .transition now target heartbeat account =>
    (transitionJobState now target heartbeat account (some j)).2.2.getD j
  | .reconcile now expected target => (reconcileJobState now expected target (some j)).2.getD j
  | .requeue now => j.enter now .queued

/-- The cleanup selects jobs by the state in the table. -/
def Writer.selects (w : Writer) (row : Job) : Bool :=
  match w with
  | .requeue _ => isActive row.current
  | _ => true

inductive Event (ι : Type*)
  | load (i : ι)
  | write (i : ι) (w : Writer)
  | commit (i : ι)
  | rollback (i : ι)

section
variable {ι : Type*} [DecidableEq ι]

def step (s : Shared ι Traced) : Event ι → Option (Shared ι Traced)
  | .load i => some (s.load i)
  | .write i w =>
    if s.lockFree i ∧ w.selects (s.seen i).job then
      some (s.write i mergeTraced { s.view i with job := w.apply (s.view i).job })
    else none
  | .commit i => some (s.commit i)
  | .rollback i => some (s.rollback i)

def begin (job : Job) : Shared ι Traced := start ⟨job, [job.current]⟩

/-- Every state is the one before it, or an edge leads to it. -/
def IsPath (edge : AIProcessingState → AIProcessingState → Prop) (t : Traced) : Prop :=
  t.trail.head? = some t.job.current ∧ t.trail.IsChain fun new old => new = old ∨ edge old new

def TableEdge (old new : AIProcessingState) : Prop := validateTransition old new = true

/-- The cleanup takes a reserved or processing job back to `queued`, which is no edge of
the table. -/
def ResetEdge (old new : AIProcessingState) : Prop := isActive old = true ∧ new = .queued

def TableOrReset (old new : AIProcessingState) : Prop := TableEdge old new ∨ ResetEdge old new

/-- The session's copy of the job is in the state of the row. -/
def OnTheRow (s : Shared ι Traced) : Event ι → Bool
  | .write _ (.requeue _) => true
  | .write i _ => (s.view i).job.current = (s.seen i).job.current
  | _ => true

end

theorem apply_current (w : Writer) (j : Job) (hw : ∀ now, w ≠ .requeue now) :
    (w.apply j).current = j.current ∨ TableEdge j.current (w.apply j).current := by
  cases w with
  | transition now target heartbeat account =>
    obtain ⟨j', hj', -, h⟩ := transitionJobState_job now target heartbeat account j
    rw [Writer.apply, hj', Option.getD_some]
    obtain ⟨-, hvalid, hcurrent⟩ | ⟨-, hcurrent, -⟩ := h
    · exact .inr (hcurrent ▸ hvalid)
    · exact .inl hcurrent
  | reconcile now expected target =>
    obtain ⟨j', hj', h⟩ := reconcileJobState_job now expected target j
    rw [Writer.apply, hj', Option.getD_some]
    exact h
  | requeue now => exact absurd rfl (hw now)

theorem mergeJob_current (old new row : Job) :
    (mergeJob old new row).current = row.current ∨ (mergeJob old new row).current = new.current := by
  obtain h | h := column_eq_or old.aiProcessingState new.aiProcessingState row.aiProcessingState
  · exact .inl (by simp only [Job.current, mergeJob, h])
  · exact .inr (by simp only [Job.current, mergeJob, h])

/-- The flush adds the state of the row or that of the copy to the path. -/
theorem IsPath.merge {edge : AIProcessingState → AIProcessingState → Prop} {old new row : Traced}
    (h : IsPath edge row)
    (hedge : new.job.current = row.job.current ∨ edge row.job.current new.job.current) :
    IsPath edge (mergeTraced old new row) := by
  obtain ⟨hhead, hchain⟩ := h
  refine ⟨rfl, List.isChain_cons.mpr ⟨fun last hlast => ?_, hchain⟩⟩
  obtain rfl : last = row.job.current := Option.some.inj (hlast.symm.trans hhead)
  obtain hrow | hnew := mergeJob_current old.job new.job row.job
  · exact .inl hrow
  · rw [hnew]
    exact hedge

section
variable {ι : Type*} [DecidableEq ι] {s s' : Shared ι Traced} {e : Event ι}

theorem isPath_write {i : ι} {w : Writer} (h : IsPath TableOrReset (s.seen i))
    (hselects : w.selects (s.seen i).job = true) (hok : OnTheRow s (.write i w) = true) :
    IsPath TableOrReset
      (mergeTraced (s.view i) { s.view i with job := w.apply (s.view i).job } (s.seen i)) := by
  refine h.merge ?_
  by_cases hw : ∃ now, w = .requeue now
  · -- the cleanup is selected by the row, so the edge starts there whatever the copy says
    obtain ⟨now, rfl⟩ := hw
    exact .inr (.inr ⟨hselects, rfl⟩)
  · have hnot : ∀ now, w ≠ .requeue now := fun now he => hw ⟨now, he⟩
    have hsame : (s.view i).job.current = (s.seen i).job.current := by
      cases w with
      | requeue now => exact absurd rfl (hnot now)
      | _ => exact of_decide_eq_true hok
    rw [← hsame]
    exact (apply_current w _ hnot).imp id .inl

theorem isPath_step (h : Holds (IsPath TableOrReset) s) (hok : OnTheRow s e = true)
    (hs : step s e = some s') : Holds (IsPath TableOrReset) s' := by
  cases e with
  | load i => exact Option.some.inj hs ▸ h.load
  | write i w =>
    obtain ⟨⟨-, hselects⟩, ⟨⟩⟩ := Option.ite_none_right_eq_some.mp hs
    exact h.write (isPath_write h.seen hselects hok)
  | commit i => exact Option.some.inj hs ▸ h.commit
  | rollback i => exact Option.some.inj hs ▸ h.rollback

/-- Along every run whose writers read the state of the row, committed or not, the states of
the job are a path of the table and the cleanup's resets. -/
theorem isPath_of_onTheRow {job : Job}
    (h : ReachedBy step (fun s e => OnTheRow s e) (begin job) s) :
    Holds (IsPath TableOrReset) s :=
  h.invariant (holds_start ⟨rfl, List.isChain_singleton _⟩)
    fun _ _ _ hi hok hs => isPath_step hi hok hs

end

/-! ## A job that is queued, processed and freed -/

def newJob : Job := ⟨1, 7, some .none, none, none, none, none⟩

/-- The route queues the job and the task of session 1 starts to process it. -/
def startProcessing : List (Event ℕ) :=
  [.load 0, .write 0 (.transition 0 .queued false none), .commit 0, .load 1,
    .write 1 (.reconcile 5 .queued .reserved), .write 1 (.reconcile 5 .reserved .processing),
    .commit 1]

def freed : List (Event ℕ) := startProcessing ++ [.write 2 (.requeue 2000), .commit 2]

theorem isPath_freed :
    Holds (IsPath TableOrReset) ((runWhile step (fun s e => OnTheRow s e) (begin newJob)
      freed).get (by decide +kernel)) :=
  isPath_of_onTheRow (ReachedBy.of_runWhile (Option.some_get _).symm)

def afterCleanup : Shared ℕ Traced := (run step (begin newJob) freed).get (by decide +kernel)

/-- The cleanup of stale reservations takes the job from `processing` back to `queued`. -/
theorem afterCleanup_not_isPath :
    Reached step (begin newJob) afterCleanup ∧ ¬ Holds (IsPath TableEdge) afterCleanup := by
  refine ⟨Reached.of_run (Option.some_get _).symm, fun h => ?_⟩
  have htrail : afterCleanup.row.trail = [.queued, .processing, .reserved, .queued, .none] := by
    decide +kernel
  have hchain := h.1.2
  rw [htrail, List.isChain_cons_cons] at hchain
  obtain heq | hedge := hchain.1
  · cases heq
  · exact absurd (show validateTransition .processing .queued = true from hedge) (by decide)

end WorkTicket.Billing.StatePath
