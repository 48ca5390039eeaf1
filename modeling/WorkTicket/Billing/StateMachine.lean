import WorkTicket.Billing.Account

/-! The AI processing state of a job: the transition table, `transition_job_state`
with its retry backoff, and the self-correcting `_reconcile_job_state`. -/

namespace WorkTicket.Billing

inductive AIProcessingState
  | none
  | queued
  | reserved
  | processing
  | completed
  | failed
  | compensated
  deriving DecidableEq, Repr

def allowedTransitions : AIProcessingState → List AIProcessingState
  | .none => [.queued, .failed]
  | .queued => [.reserved, .processing, .failed]
  | .reserved => [.processing, .failed]
  | .processing => [.completed, .failed]
  | .completed => [.none]
  | .failed => [.compensated, .queued, .reserved]
  | .compensated => [.none]

def validateTransition (current target : AIProcessingState) : Bool :=
  target ∈ allowedTransitions current

def processingTimeoutMinutes : ℚ := 15

/-- The columns of `jobs` the billing code reads and writes; a NULL state reads as `none`. -/
structure Job where
  id : JobId
  companyId : CompanyId
  aiProcessingState : Option AIProcessingState
  aiProcessingUpdatedAt : Option Time
  retryCount : Option ℕ
  stateCycleCounter : Option ℕ
  stateCycleResetAt : Option Time
  deriving DecidableEq, Repr

def Job.current (j : Job) : AIProcessingState := j.aiProcessingState.getD .none

def Job.enter (now : Time) (target : AIProcessingState) (j : Job) : Job :=
  { j with aiProcessingState := some target, aiProcessingUpdatedAt := some now }

/-- The cycles left after one is forgotten for every full hour since the last one. -/
def effectiveCounter (now : Time) (j : Job) : ℕ :=
  let elapsed : ℚ := now - j.stateCycleResetAt.getD now
  j.stateCycleCounter.getD 0 - (Rat.floor (max 0 (elapsed / 3600))).toNat

def backoffDelay (effective : ℕ) : ℚ := min (60 * 2 ^ (effective - 1)) 3600

/-- The cycle counting of `none → queued`; the second component is true when the
backoff blocks the transition. -/
def countCycle (now : Time) (j : Job) : Job × Bool :=
  let effective := effectiveCounter now j
  ({ j with stateCycleCounter := some (effective + 1), stateCycleResetAt := some now },
    0 < effective && now - j.stateCycleResetAt.getD now < backoffDelay effective)

/-- `transition_job_state` on the locked account and job: whether it moved the job, and
the two rows. With `heartbeat` the caller passed `heartbeat_reservation`. -/
def transitionJobState (now : Time) (target : AIProcessingState) (heartbeat : Bool)
    (account : Option BillingAccount) (job : Option Job) :
    Bool × Option BillingAccount × Option Job :=
  let account := account.map fun a => { a with reservationHeartbeatAt := none }
  match job with
  | none => (false, account, none)
  | some j =>
    let current := j.current
    let j := if target = .completed ∧ current = .processing then
      { j with stateCycleCounter := some 0, stateCycleResetAt := none } else j
    let counted := if target = .queued ∧ current = .none then countCycle now j else (j, false)
    -- a blocked transition keeps the counted cycle, and the account has lost its heartbeat
    if counted.2 then (false, account, some counted.1)
    else if validateTransition current target then
      (true,
        if heartbeat then account.map fun a => { a with reservationHeartbeatAt := some now }
        else account,
        some (counted.1.enter now target))
    else (false, account, some counted.1)

/-- An account that reserves although its last heartbeat is older than the timeout, the
query of `cleanup_stale_reservations`. -/
def hasStaleReservation (now : Time) (a : BillingAccount) : Bool :=
  (a.reservationHeartbeatAt.any fun t => t < now - minutes processingTimeoutMinutes) &&
    0 < a.reservedAcu

def freeReservation (a : BillingAccount) : BillingAccount :=
  { a with reservedAcu := 0, reservationHeartbeatAt := none }

inductive Reconciled
  | ok
  | skipReservation
  | inconsistent
  | recovered
  deriving DecidableEq, Repr

def reconcileJobState (now : Time) (expected target : AIProcessingState) (job : Option Job) :
    Reconciled × Option Job :=
  match job with
  | none => (.inconsistent, none)
  | some j =>
    let current := j.current
    if current = target then (.ok, some j)
    else if current = expected ∨ current = .queued then
      if validateTransition current target then (.ok, some (j.enter now target))
      else (.inconsistent, some j)
    else if current = .processing ∧ target = .reserved then (.skipReservation, some j)
    else if current = .completed then (.ok, some j)
    else if current = .failed then
      -- queued again, whatever the target was
      if validateTransition current .queued then (.recovered, some (j.enter now .queued))
      else (.inconsistent, some j)
    else (.inconsistent, some j)

theorem validateTransition_failed {s : AIProcessingState}
    (h : s = .queued ∨ s = .reserved ∨ s = .processing) : validateTransition s .failed = true := by
  rcases h with rfl | rfl | rfl <;> rfl

def countedJob (now : Time) (target : AIProcessingState) (j : Job) : Job × Bool :=
  let reset := if target = .completed ∧ j.current = .processing then
    { j with stateCycleCounter := some 0, stateCycleResetAt := none } else j
  if target = .queued ∧ j.current = .none then countCycle now reset else (reset, false)

theorem transitionJobState_some (now : Time) (target : AIProcessingState) (heartbeat : Bool)
    (account : Option BillingAccount) (j : Job) :
    transitionJobState now target heartbeat account (some j) =
      let account := account.map fun a => { a with reservationHeartbeatAt := none }
      if (countedJob now target j).2 then (false, account, some (countedJob now target j).1)
      else if validateTransition j.current target then
        (true,
          if heartbeat then account.map fun a => { a with reservationHeartbeatAt := some now }
          else account,
          some ((countedJob now target j).1.enter now target))
      else (false, account, some (countedJob now target j).1) := rfl

theorem countedJob_same (now : Time) (target : AIProcessingState) (j : Job) :
    (countedJob now target j).1.id = j.id ∧ (countedJob now target j).1.current = j.current := by
  unfold countedJob
  simp only
  split <;> split <;> exact ⟨rfl, rfl⟩

theorem countedJob_blocked {now : Time} {target : AIProcessingState} {j : Job}
    (h : (countedJob now target j).2 = true) : target = .queued ∧ j.current = .none := by
  by_contra hnot
  simp [countedJob, hnot] at h

/-- The account loses its heartbeat, unless the job was moved and a new one is recorded. -/
theorem transitionJobState_account (now : Time) (target : AIProcessingState) (heartbeat : Bool)
    (account : Option BillingAccount) (job : Option Job) :
    (transitionJobState now target heartbeat account job).2.1 = account.map fun a =>
      { a with reservationHeartbeatAt :=
          if heartbeat && (transitionJobState now target heartbeat account job).1 then some now
          else none } := by
  cases job with
  | none => simp [transitionJobState]
  | some j =>
    rw [transitionJobState_some]
    simp only
    split
    · simp
    · split
      · cases heartbeat <;> simp [Function.comp_def]
      · simp

/-- A job is moved along an edge of the table, or keeps its state. -/
theorem transitionJobState_job (now : Time) (target : AIProcessingState) (heartbeat : Bool)
    (account : Option BillingAccount) (j : Job) :
    ∃ j', (transitionJobState now target heartbeat account (some j)).2.2 = some j' ∧
      j'.id = j.id ∧
      ((transitionJobState now target heartbeat account (some j)).1 = true ∧
          validateTransition j.current target = true ∧ j'.current = target ∨
        (transitionJobState now target heartbeat account (some j)).1 = false ∧
          j'.current = j.current ∧
          (validateTransition j.current target = true → target = .queued ∧ j.current = .none)) := by
  obtain ⟨hid, hcurrent⟩ := countedJob_same now target j
  rw [transitionJobState_some]
  simp only
  split
  · rename_i hblocked
    exact ⟨_, rfl, hid, .inr ⟨rfl, hcurrent, fun _ => countedJob_blocked hblocked⟩⟩
  · split
    · rename_i hvalid
      exact ⟨_, rfl, hid, .inl ⟨rfl, hvalid, rfl⟩⟩
    · rename_i hvalid
      exact ⟨_, rfl, hid, .inr ⟨rfl, hcurrent, fun h => absurd h hvalid⟩⟩

/-- The self-correction keeps the state, or follows an edge of the table as well. -/
theorem reconcileJobState_job (now : Time) (expected target : AIProcessingState) (j : Job) :
    ∃ j', (reconcileJobState now expected target (some j)).2 = some j' ∧
      (j'.current = j.current ∨ validateTransition j.current j'.current = true) := by
  unfold reconcileJobState
  simp only
  split_ifs with _ _ hvalid _ _ _ hqueued
  · exact ⟨j, rfl, .inl rfl⟩
  · exact ⟨j.enter now target, rfl, .inr hvalid⟩
  · exact ⟨j, rfl, .inl rfl⟩
  · exact ⟨j, rfl, .inl rfl⟩
  · exact ⟨j, rfl, .inl rfl⟩
  · exact ⟨j.enter now .queued, rfl, .inr hqueued⟩
  · exact ⟨j, rfl, .inl rfl⟩
  · exact ⟨j, rfl, .inl rfl⟩

theorem transitionJobState_failed (now : Time) (heartbeat : Bool)
    (account : Option BillingAccount) {j : Job}
    (h : j.current = .queued ∨ j.current = .reserved ∨ j.current = .processing) :
    transitionJobState now .failed heartbeat account (some j) =
      (true, account.map fun a =>
        { a with reservationHeartbeatAt := if heartbeat then some now else none },
        some (j.enter now .failed)) := by
  simp only [transitionJobState, reduceCtorEq, false_and, if_false, Bool.false_eq_true,
    validateTransition_failed h, if_true]
  cases heartbeat <;> cases account <;> rfl

end WorkTicket.Billing
