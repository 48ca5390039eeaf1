import WorkTicket.Foundation.LockOrder
import WorkTicket.Tasks.GatewayEntry

/-! The row locks that the transactions of a company's jobs take on its account and on the jobs,
each in the order of its statements. `transition_job_state` has the account come first. -/

namespace WorkTicket.Tasks.RowLocks

open WorkTicket.Transition WorkTicket.LockOrder WorkTicket.Billing WorkTicket.Tasks.JobTask
open Program hiding ask
open WorkTicket.Tasks.GatewayEntry (Claimed PreReserved estimatedCost quotaAnswer JobFound
  LockGranted acquireLock_eq_true reserveForJob_eq mem_calls_session)

inductive Row
  | account
  | job (jobId : JobId)
  deriving DecidableEq, Repr

def Row.rank : Row → ℕ
  | .account => 0
  | .job _ => 1

/-! ## Statements -/

/-- A statement that locks the account, if the company has one. -/
def lockAccount (found : Bool) : List Row := if found then [.account] else []

/-- `transition_job_state`, with the flush of its heartbeat. -/
def transitionLocks (now : Time) (target : AIProcessingState) (heartbeat : Bool)
    (account : Option BillingAccount) (job : Option Job) : List Row :=
  lockAccount account.isSome ++ (job.map fun j => Row.job j.id).toList ++
    lockAccount (heartbeat && (transitionJobState now target heartbeat account job).1 &&
      account.isSome)

/-- What an attempt meets in the database: whether the company has an account, whether
`check_and_reserve` comes to its `UPDATE` and whether `reconcile_cost` gets its advisory lock. -/
structure Database where
  account : Bool
  updates : Bool
  advisory : Bool
  deriving DecidableEq, Repr

/-- The rows that a command of the task locks. -/
def commandLocks (db : Database) (a : Attempt) : Command → List Row
  | .reconcileJobState _ _ | .countRetry => [.job a.jobId]
  | .bill (.checkAndReserve _) => lockAccount (db.account && db.updates)
  | .bill (.reconcileCost _ _) => lockAccount (db.account && db.advisory)
  | .bill _ | .heartbeatReservation => lockAccount db.account
  | .transitionFailed => lockAccount db.account ++ [.job a.jobId] ++ lockAccount db.account
  | _ => []

abbrev Answers := (c : Command) → Except Fault (Answer c)

/-- The job is in a state that `recover_orphaned_outputs` takes to `completed`. -/
def isOrphaned (j : Job) : Bool :=
  j.aiProcessingState = some .processing || j.aiProcessingState = some .reserved

/-- The loop of `recover_orphaned_outputs` over the jobs of the outputs it has found. -/
def recoverLoop (now : Time) (account : Option BillingAccount) : List Job → Script Row
  | [] => .done
  | j :: js => .tryLock (.job j.id)
      (if isOrphaned j then
        locks (transitionLocks now .completed false account (some j)) (recoverLoop now account js)
      else recoverLoop now account js)
      (recoverLoop now account js)

/-- `SELECT ... FOR UPDATE SKIP LOCKED` of some jobs. -/
def tryLocks (jobIds : List JobId) : Script Row :=
  jobIds.foldr (fun jobId next => .tryLock (.job jobId) next next) .done

/-! ## Transactions -/

inductive Operation
  | transitionJobState (now : Time) (target : AIProcessingState) (heartbeat : Bool)
      (account : Option BillingAccount) (job : Option Job)
  | phase1PreAi (db : Database) (a : Attempt) (answers : Answers)
  | phase3PostAi (db : Database) (a : Attempt) (l : Locals) (output : GatewayOutput)
      (answers : Answers)
  | reconcileCost (account advisory : Bool)
  | recoverOrphanedOutputs (now : Time) (account : Option BillingAccount) (jobs : List Job)
  | cleanupStaleReservations (now : Time) (account : Option BillingAccount)
      (stuckJobs : List JobId)

def Operation.script : Operation → Script Row
  | .transitionJobState now target heartbeat account job =>
    locks (transitionLocks now target heartbeat account job) .done
  | .phase1PreAi db a answers => locks ((JobTask.phase1PreAi a).gather (commandLocks db a) answers) .done
  | .phase3PostAi db a l output answers =>
    locks ((JobTask.phase3PostAi a l output).gather (commandLocks db a) answers) .done
  | .reconcileCost account advisory => locks (lockAccount (account && advisory)) .done
  | .recoverOrphanedOutputs now account jobs => recoverLoop now account jobs
  | .cleanupStaleReservations now account stuckJobs =>
    if account.any (hasStaleReservation now) then .lock .account (tryLocks stuckJobs) else .done

attribute [grind =] lockAccount transitionLocks commandLocks recoverLoop tryLocks Operation.script

/-! ## The order -/

/-- A transaction that holds a job asks for the account only if it holds it, too. -/
def AccountFirst {ι : Type*} (s : State Row ι) : Prop :=
  ∀ i jobId next, s.script i = .lock .account next → s.holder (.job jobId) = some i →
    s.holder .account = some i

/-- The job may go on to `processing`. -/
def StartsProcessing (answers : Answers) : Prop :=
  ∃ t, answers (.reconcileJobState .reserved .processing) = .ok t ∧ t ≠ .inconsistent

/-- Phase 1 comes to a statement on the account: to the `UPDATE` of `check_and_reserve`, to
failing the job when that denies, or to its heartbeat. -/
def ComesToAccount (db : Database) (a : Attempt) (answers : Answers) : Prop :=
  if PreReserved a then StartsProcessing answers
  else db.updates = true ∨ ∃ r, quotaAnswer a answers = .ok r ∧
    (r = .allowed → StartsProcessing answers)

/-- The transactions that lock a job before the account: a phase 1 that goes on from its job to
the account, and a recovery that finds an orphaned output. -/
def Operation.JobFirst : Operation → Prop
  | .phase1PreAi db a answers => db.account = true ∧ Claimed a answers ∧
      ComesToAccount db a answers
  | .recoverOrphanedOutputs _ account jobs => account.isSome = true ∧
      ∃ j ∈ jobs, isOrphaned j = true
  | _ => False

/-! ### Lists of locks -/

/-- The list starts with a job and has the account. -/
def JobFirstIn (rs : List Row) : Prop := (∃ jobId, rs.head? = some (.job jobId)) ∧ .account ∈ rs

section
variable {jobId : JobId} {rs : List Row} {next : Script Row} {held : Set Row}

/-- With the account in hand, one job may be locked, and whatever is locked already. -/
theorem ordered_of_account (hheld : held ⊆ {.account, .job jobId}) (hin : .account ∈ held)
    (hrs : ∀ r ∈ rs, r = .account ∨ r = .job jobId) :
    Ordered Row.rank held (locks rs .done) := by
  induction rs generalizing held with
  | nil => trivial
  | cons r rs ih =>
    have hr := hrs r List.mem_cons_self
    have hrest := fun r hr => hrs r (List.mem_cons_of_mem _ hr)
    refine ⟨?_, ih ?_ (Set.mem_insert_of_mem _ hin) hrest⟩
    · rcases hr with rfl | rfl
      · exact .inl hin
      · by_cases hjob : .job jobId ∈ held
        · exact .inl hjob
        · refine .inr fun r' hr' => ?_
          rcases hheld hr' with rfl | rfl
          · exact zero_lt_one
          · exact absurd hr' hjob
    · refine Set.insert_subset ?_ hheld
      rcases hr with rfl | rfl
      · exact .inl rfl
      · exact .inr rfl

theorem ordered_of_job (hheld : held ⊆ {.job jobId}) (hrs : ∀ r ∈ rs, r = .job jobId) :
    Ordered Row.rank held (locks rs .done) := by
  induction rs generalizing held with
  | nil => trivial
  | cons r rs ih =>
    obtain rfl := hrs r List.mem_cons_self
    refine ⟨?_, ih ?_ fun r hr => hrs r (List.mem_cons_of_mem _ hr)⟩
    · by_cases hjob : .job jobId ∈ held
      · exact .inl hjob
      · refine .inr fun r' hr' => ?_
        obtain rfl := hheld hr'
        exact absurd hr' hjob
    · exact Set.insert_subset rfl hheld

/-- Of the lists over the account and one job, those that do not start with the job, or have
only the job, keep to the order. -/
theorem ordered_locks (hrs : ∀ r ∈ rs, r = .account ∨ r = .job jobId) (h : ¬JobFirstIn rs) :
    Ordered Row.rank ∅ (locks rs .done) := by
  rcases rs with _ | ⟨r, rs⟩
  · trivial
  have hrest := fun r hr => hrs r (List.mem_cons_of_mem _ hr)
  rcases hrs r List.mem_cons_self with rfl | rfl
  · refine ⟨.inr fun _ hr' => absurd hr' (Set.notMem_empty _), ordered_of_account ?_ ?_ hrest⟩
    · simp
    · simp
  · have hjobs : ∀ r ∈ rs, r = .job jobId := by
      intro r hr
      rcases hrest r hr with rfl | hjob
      · exact absurd ⟨⟨jobId, rfl⟩, List.mem_cons_of_mem _ hr⟩ h
      · exact hjob
    refine ⟨.inr fun _ hr' => absurd hr' (Set.notMem_empty _), ordered_of_job ?_ hjobs⟩
    simp

/-- A list that starts with the job comes to the account with the job alone in hand. -/
theorem exists_split (hrs : ∀ r ∈ rs, r = .account ∨ r = .job jobId) (h : JobFirstIn rs) :
    ∃ before after, rs = before ++ .account :: after ∧ before ≠ [] ∧
      ∀ r ∈ before, r = .job jobId := by
  obtain ⟨⟨jobId', hhead⟩, haccount⟩ := h
  obtain ⟨before, after, rfl, hnot⟩ := List.eq_append_cons_of_mem haccount
  refine ⟨before, after, rfl, ?_, fun r hr => ?_⟩
  · rintro rfl
    cases hhead
  · rcases hrs r (List.mem_append_left _ hr) with rfl | hjob
    · exact absurd hr hnot
    · exact hjob

theorem alone_of_jobFirst (hrs : ∀ r ∈ rs, r = .account ∨ r = .job jobId) (h : JobFirstIn rs) :
    ∃ held next', Alone ∅ (locks rs next) held (.lock .account next') ∧ .job jobId ∈ held ∧
      .account ∉ held := by
  obtain ⟨before, after, rfl, hne, hjobs⟩ := exists_split hrs h
  refine ⟨{r | r ∈ before}, locks after next, ?_, ?_, ?_⟩
  · have hsplit : locks (before ++ .account :: after) next =
        locks before (.lock .account (locks after next)) := by
      simp [locks]
    rw [hsplit]
    refine Alone.locks ?_
    rw [Set.empty_union]
    exact .here
  · obtain ⟨r, hr⟩ := List.exists_mem_of_ne_nil before hne
    exact hjobs r hr ▸ hr
  · intro hin
    cases hjobs _ hin

/-! ### The rows of the phases -/

variable {α β : Type} {db : Database} {a : Attempt} {answers : Answers}

theorem mem_commandLocks {c : Command} {r : Row} (h : r ∈ commandLocks db a c) :
    (r = .account ∧ db.account = true) ∨ r = .job a.jobId := by
  cases c with
  | bill c => cases c <;> simp_all [commandLocks, lockAccount]
  | transitionFailed =>
    simp [commandLocks, lockAccount] at h
    tauto
  | _ => simp_all [commandLocks, lockAccount]

theorem mem_gather {p : Prog α} {r : Row} (h : r ∈ p.gather (commandLocks db a) answers) :
    (r = .account ∧ db.account = true) ∨ r = .job a.jobId := by
  obtain ⟨c, -, hr⟩ := List.mem_flatMap.mp h
  exact mem_commandLocks hr

theorem account_mem_lockAccount {found : Bool} : .account ∈ lockAccount found ↔ found = true := by
  cases found <;> simp [lockAccount]

theorem gather_commit (r : Phase1Result) :
    (do ask .commit; return r : Prog Phase1Result).gather (commandLocks db a) answers = [] := by
  rw [gather_bind_pure, gather_ask]
  rfl

theorem gather_enterProcessing (cost reserved : ℚ) :
    (enterProcessing a cost reserved).gather (commandLocks db a) answers = .job a.jobId ::
      match answers (.reconcileJobState .reserved .processing) with
      | .ok t => if t = .inconsistent then [] else lockAccount db.account
      | .error _ => [] := by
  unfold enterProcessing
  rw [gather_bind, gather_ask, result_ask]
  cases answers (.reconcileJobState .reserved .processing) with
  | error e => rfl
  | ok t =>
    by_cases hinconsistent : t = .inconsistent
    · simp [gather_raiseIf_bind, hinconsistent, commandLocks]
    · have hbeat : (do ask .heartbeatReservation; ask .commit
                       return .tuple .job ⟨cost, reserved, true⟩ : Prog Phase1Result).gather
          (commandLocks db a) answers = lockAccount db.account := by
        rw [gather_bind, gather_ask, result_ask]
        cases answers .heartbeatReservation with
        | error e => exact List.append_nil _
        | ok u => simp [gather_commit, commandLocks]
      simp only [gather_raiseIf_bind, if_neg hinconsistent, hbeat]
      rfl

theorem account_mem_enterProcessing (cost reserved : ℚ) :
    .account ∈ (enterProcessing a cost reserved).gather (commandLocks db a) answers ↔
      db.account = true ∧ StartsProcessing answers := by
  rw [gather_enterProcessing, StartsProcessing]
  cases answers (.reconcileJobState .reserved .processing) with
  | error e => simp
  | ok t => by_cases hinconsistent : t = .inconsistent <;> simp [hinconsistent, account_mem_lockAccount]

theorem gather_reserveQuota (cost : ℚ) :
    (reserveQuota a cost).gather (commandLocks db a) answers =
      lockAccount (db.account && db.updates) ++
        match answers (.bill (.checkAndReserve cost)) with
        | .ok .allowed =>
          (enterProcessing a cost (costAcu cost)).gather (commandLocks db a) answers
        | .ok _ => commandLocks db a .transitionFailed
        | .error _ => [] := by
  unfold reserveQuota
  rw [gather_bind, gather_ask, result_ask]
  congr 1
  cases answers (.bill (.checkAndReserve cost)) with
  | error e => rfl
  | ok r =>
    have hfailed : (do let _ ← ask .transitionFailed
                       return .tuple .quotaExceeded ⟨cost, a.reservedAcu, true⟩ :
        Prog Phase1Result).gather (commandLocks db a) answers =
        commandLocks db a .transitionFailed := by
      rw [gather_bind_pure, gather_ask]
    cases r with
    | allowed => rfl
    | _ => exact hfailed

theorem account_mem_reserveForJob :
    .account ∈ (reserveForJob a).gather (commandLocks db a) answers ↔
      db.account = true ∧ ComesToAccount db a answers := by
  rw [reserveForJob_eq]
  unfold ComesToAccount quotaAnswer
  by_cases hpre : PreReserved a
  · rw [if_pos hpre, if_pos hpre, account_mem_enterProcessing]
  · rw [if_neg hpre, if_neg hpre, gather_reserveQuota, List.mem_append, account_mem_lockAccount]
    cases answers (.bill (.checkAndReserve (estimatedCost a))) with
    | error e => simp
    | ok r =>
      cases r with
      | allowed =>
        simp [account_mem_enterProcessing]
        tauto
      | _ =>
        simp [commandLocks, account_mem_lockAccount]
        tauto

theorem gather_claimJob :
    (claimJob a).gather (commandLocks db a) answers = .job a.jobId ::
      match answers (.reconcileJobState .queued .reserved) with
      | .ok t =>
        if t = .inconsistent then []
        else if 0 < a.retries then
          .job a.jobId :: match answers .countRetry with
            | .ok _ => (reserveForJob a).gather (commandLocks db a) answers
            | .error _ => []
        else (reserveForJob a).gather (commandLocks db a) answers
      | .error _ => [] := by
  unfold claimJob
  rw [gather_bind, gather_ask, result_ask]
  cases answers (.reconcileJobState .queued .reserved) with
  | error e => rfl
  | ok t =>
    by_cases hinconsistent : t = .inconsistent
    · simp [gather_raiseIf_bind, hinconsistent, commandLocks]
    · simp only [gather_raiseIf_bind, if_neg hinconsistent]
      rw [gather_bind, gather_onlyIf, gather_ask]
      by_cases hretry : 0 < a.retries
      · cases hcount : answers .countRetry <;> simp [onlyIf, hretry, hcount, commandLocks]
      · simp [onlyIf, hretry, commandLocks]

theorem account_mem_claimJob :
    .account ∈ (claimJob a).gather (commandLocks db a) answers ↔
      ((∃ t, answers (.reconcileJobState .queued .reserved) = .ok t ∧ t ≠ .inconsistent) ∧
        (0 < a.retries → answers .countRetry = .ok ())) ∧
      db.account = true ∧ ComesToAccount db a answers := by
  rw [gather_claimJob, List.mem_cons]
  cases answers (.reconcileJobState .queued .reserved) with
  | error e => simp
  | ok t =>
    by_cases hinconsistent : t = .inconsistent
    · simp [hinconsistent]
    · by_cases hretry : 0 < a.retries
      · cases answers .countRetry <;>
          simp [hinconsistent, hretry, account_mem_reserveForJob]
      · simp [hinconsistent, hretry, account_mem_reserveForJob]

theorem gather_acquireLock : (acquireLock a).gather (commandLocks db a) answers = [] := by
  refine gather_of_callsOnly (acquireLock_calls.mono fun c hc => ?_)
  simp only [List.mem_cons, List.not_mem_nil, or_false] at hc
  rcases hc with rfl | rfl | rfl | rfl | rfl | rfl <;> rfl

theorem gather_releaseIn (reservedAcu : ℚ) :
    (releaseIn reservedAcu).gather (commandLocks db a) answers = lockAccount db.account := by
  unfold releaseIn
  rw [gather_bind_pure, gather_ask]
  rfl

theorem gather_phase1PreAi : (phase1PreAi a).gather (commandLocks db a) answers =
    match answers .selectJob with
    | .ok (some _) =>
      match (acquireLock a).result answers with
      | .ok true => (claimJob a).gather (commandLocks db a) answers
      | .ok false => if 0 < a.reservedAcu then lockAccount db.account else []
      | .error _ => []
    | _ => [] := by
  unfold phase1PreAi
  rw [gather_bind, gather_ask, result_ask]
  cases answers .selectJob with
  | error e => rfl
  | ok job =>
    simp only [gather_raiseIf_bind]
    cases job with
    | none => rfl
    | some j =>
      have hreleased : (do
          onlyIf (0 < a.reservedAcu) (releaseIn a.reservedAcu)
          return .tuple .none ⟨a.estimatedCostUsd, a.reservedAcu, true⟩ :
          Prog Phase1Result).gather (commandLocks db a) answers =
            if 0 < a.reservedAcu then lockAccount db.account else [] := by
        rw [gather_bind_pure, gather_onlyIf, gather_releaseIn]
      rw [if_neg (Option.some_ne_none j), gather_bind, gather_acquireLock]
      cases (acquireLock a).result answers with
      | error e => rfl
      | ok acquired =>
        cases acquired with
        | true => rfl
        | false => exact hreleased

/-- Phase 1 locks its job first, and then the account, just when it goes on to billing. -/
theorem jobFirstIn_phase1PreAi :
    JobFirstIn ((phase1PreAi a).gather (commandLocks db a) answers) ↔
      db.account = true ∧ Claimed a answers ∧ ComesToAccount db a answers := by
  have hclaim : JobFirstIn ((claimJob a).gather (commandLocks db a) answers) ↔
      .account ∈ (claimJob a).gather (commandLocks db a) answers := by
    refine and_iff_right ⟨a.jobId, ?_⟩
    rw [gather_claimJob]
    rfl
  have hrelease : ¬JobFirstIn (if 0 < a.reservedAcu then lockAccount db.account else []) := by
    rintro ⟨⟨jobId, hhead⟩, -⟩
    cases hfound : db.account <;> by_cases hreserved : 0 < a.reservedAcu <;>
      simp [hfound, hreserved, lockAccount] at hhead
  have hnil : ¬JobFirstIn [] := fun h => absurd h.2 List.not_mem_nil
  rw [gather_phase1PreAi]
  unfold Claimed JobFound
  rw [← acquireLock_eq_true]
  cases answers .selectJob with
  | error e => simp [hnil]
  | ok job =>
    cases job with
    | none => simp [hnil]
    | some j =>
      cases (acquireLock a).result answers with
      | error e => simp [hnil]
      | ok acquired =>
        cases acquired with
        | false => simpa using hrelease
        | true =>
          simp only [hclaim, account_mem_claimJob]
          simp
          tauto

theorem gather_session (body : Prog α) :
    (session body).gather (commandLocks db a) answers =
      body.gather (commandLocks db a) answers := by
  unfold session
  rw [gather_bind, gather_outcome, result_outcome]
  simp only [gather_bind_pure, gather_outcome, gather_ask]
  exact List.append_nil _

/-- Phase 3 updates the account, if there is one, before it locks its job. -/
theorem not_jobFirstIn_phase3PostAi (l : Locals) (output : GatewayOutput) :
    ¬JobFirstIn ((phase3PostAi a l output).gather (commandLocks db a) answers) := by
  rintro ⟨⟨jobId, hhead⟩, haccount⟩
  have hfound : db.account = true := by
    rcases mem_gather haccount with ⟨-, hfound⟩ | hjob
    · exact hfound
    · cases hjob
  have hselect : commandLocks db a .selectJob = [] := rfl
  have hbeat : commandLocks db a .heartbeatReservation = [.account] := by
    simp [commandLocks, lockAccount, hfound]
  unfold phase3PostAi at hhead
  rw [gather_session, gather_bind, gather_ask, result_ask, hselect, List.nil_append] at hhead
  rcases hselected : answers .selectJob with e | job
  · rw [hselected] at hhead
    cases hhead
  · simp only [hselected, gather_raiseIf_bind] at hhead
    by_cases hjob : job = none
    · rw [if_pos hjob] at hhead
      cases hhead
    · rw [if_neg hjob, gather_bind, gather_ask, hbeat] at hhead
      cases hhead

/-! ### The other transactions -/

theorem mem_transitionLocks {now : Time} {target : AIProcessingState} {heartbeat : Bool}
    {account : Option BillingAccount} {job : Option Job} {r : Row}
    (h : r ∈ transitionLocks now target heartbeat account job) :
    (r = .account ∧ account.isSome = true) ∨ r = .job (job.elim 0 Job.id) := by
  simp only [transitionLocks, List.mem_append, lockAccount] at h
  rcases h with (haccount | hjob) | hbeat
  · cases account <;> simp_all
  · cases job <;> simp_all
  · cases account <;> simp_all

theorem not_jobFirstIn_transitionLocks (now : Time) (target : AIProcessingState)
    (heartbeat : Bool) (account : Option BillingAccount) (job : Option Job) :
    ¬JobFirstIn (transitionLocks now target heartbeat account job) := by
  rintro ⟨⟨jobId, hhead⟩, haccount⟩
  rcases mem_transitionLocks haccount with ⟨-, hfound⟩ | hjob
  · simp [transitionLocks, lockAccount, hfound] at hhead
  · cases hjob

theorem ordered_tryLocks (jobIds : List JobId) (held : Set Row) :
    Ordered Row.rank held (tryLocks jobIds) := by
  induction jobIds generalizing held with
  | nil => trivial
  | cons jobId jobIds ih => exact ⟨ih _, ih _⟩

/-- A recovery that finds nothing to recover never waits, and without an account it waits only
for a job it has. -/
theorem ordered_recoverLoop {now : Time} {account : Option BillingAccount} {jobs : List Job}
    (h : account = none ∨ ∀ j ∈ jobs, isOrphaned j = false) (held : Set Row) :
    Ordered Row.rank held (recoverLoop now account jobs) := by
  induction jobs generalizing held with
  | nil => trivial
  | cons j js ih =>
    have hrest : account = none ∨ ∀ j ∈ js, isOrphaned j = false :=
      h.imp_right fun h j hj => h j (List.mem_cons_of_mem _ hj)
    refine ⟨?_, ih hrest held⟩
    cases horphaned : isOrphaned j with
    | false => exact ih hrest _
    | true =>
      have hnone : account = none := by
        rcases h with hnone | hall
        · exact hnone
        · rw [hall j List.mem_cons_self] at horphaned
          cases horphaned
      subst hnone
      exact ⟨.inl (Set.mem_insert _ _), ih hrest _⟩

theorem alone_recoverLoop {now : Time} {account : BillingAccount} {jobs : List Job}
    (h : ∃ j ∈ jobs, isOrphaned j = true) (hheld : .account ∉ held) :
    ∃ held' next' jobId, Alone held (recoverLoop now (some account) jobs) held'
      (.lock .account next') ∧ .job jobId ∈ held' ∧ .account ∉ held' := by
  induction jobs generalizing held with
  | nil =>
    obtain ⟨j, hj, -⟩ := h
    cases hj
  | cons j js ih =>
    have hinsert : .account ∉ insert (Row.job j.id) held := by
      rintro (hjob | hin)
      · cases hjob
      · exact hheld hin
    cases horphaned : isOrphaned j with
    | true =>
      have hnext : ∃ next', locks (transitionLocks now .completed false (some account) (some j))
          (recoverLoop now (some account) js) = .lock .account next' := ⟨_, rfl⟩
      obtain ⟨next', hnext⟩ := hnext
      refine ⟨_, next', j.id, .tryLock ?_, Set.mem_insert _ _, hinsert⟩
      rw [horphaned, if_pos rfl, hnext]
      exact .here
    | false =>
      obtain ⟨j', hj', horphaned'⟩ := h
      have hrest : ∃ j ∈ js, isOrphaned j = true := by
        rcases List.mem_cons.mp hj' with rfl | hj'
        · rw [horphaned] at horphaned'
          cases horphaned'
        · exact ⟨j', hj', horphaned'⟩
      obtain ⟨held', next', jobId, halone, hjob, haccount⟩ := ih hrest hinsert
      refine ⟨held', next', jobId, .tryLock ?_, hjob, haccount⟩
      rw [horphaned]
      exact halone

/-! ## Every set of transactions -/

theorem ordered_script {o : Operation} (h : ¬o.JobFirst) : Ordered Row.rank ∅ o.script := by
  cases o with
  | transitionJobState now target heartbeat account job =>
    have hrows : ∀ r ∈ transitionLocks now target heartbeat account job,
        r = .account ∨ r = .job (job.elim 0 Job.id) :=
      fun r hr => (mem_transitionLocks hr).imp_left And.left
    exact ordered_locks hrows (not_jobFirstIn_transitionLocks _ _ _ _ _)
  | phase1PreAi db a answers =>
    have hrows : ∀ r ∈ (phase1PreAi a).gather (commandLocks db a) answers,
        r = .account ∨ r = .job a.jobId := fun r hr => (mem_gather hr).imp_left And.left
    exact ordered_locks hrows fun hfirst => h (jobFirstIn_phase1PreAi.mp hfirst)
  | phase3PostAi db a l output answers =>
    have hrows : ∀ r ∈ (phase3PostAi a l output).gather (commandLocks db a) answers,
        r = .account ∨ r = .job a.jobId := fun r hr => (mem_gather hr).imp_left And.left
    exact ordered_locks hrows (not_jobFirstIn_phase3PostAi l output)
  | reconcileCost account advisory =>
    cases hfound : account && advisory with
    | false => simp [Operation.script, hfound, lockAccount, locks, Ordered]
    | true => simp [Operation.script, hfound, lockAccount, locks, Ordered]
  | recoverOrphanedOutputs now account jobs =>
    refine ordered_recoverLoop ?_ ∅
    cases account with
    | none => exact .inl rfl
    | some account =>
      refine .inr fun j hj => ?_
      by_contra horphaned
      exact h ⟨rfl, j, hj, Bool.of_not_eq_false horphaned⟩
  | cleanupStaleReservations now account stuckJobs =>
    cases hstale : account.any (hasStaleReservation now) with
    | false => simp [Operation.script, hstale, Ordered]
    | true =>
      simp only [Operation.script, hstale, if_true]
      exact ⟨.inr fun _ hr => absurd hr (Set.notMem_empty _), ordered_tryLocks _ _⟩

theorem alone_script {o : Operation} (h : o.JobFirst) :
    ∃ held' next' jobId, Alone ∅ o.script held' (.lock .account next') ∧ .job jobId ∈ held' ∧
      .account ∉ held' := by
  cases o with
  | phase1PreAi db a answers =>
    obtain ⟨held', next', halone, hjob, haccount⟩ := alone_of_jobFirst
      (fun r hr => (mem_gather hr).imp_left And.left) (jobFirstIn_phase1PreAi.mpr h)
    exact ⟨held', next', a.jobId, halone, hjob, haccount⟩
  | recoverOrphanedOutputs now account jobs =>
    obtain ⟨hfound, horphaned⟩ := h
    obtain ⟨account, rfl⟩ := Option.isSome_iff_exists.mp hfound
    exact alone_recoverLoop horphaned (Set.notMem_empty _)
  | transitionJobState now target heartbeat account job => exact h.elim
  | phase3PostAi db a l output answers => exact h.elim
  | reconcileCost account advisory => exact h.elim
  | cleanupStaleReservations now account stuckJobs => exact h.elim

theorem accountFirst_of_ordered {ι : Type*} {s : State Row ι}
    (h : ∀ i, Ordered Row.rank (s.held i) (s.script i)) : AccountFirst s := by
  intro i jobId next hscript hjob
  have hi := h i
  rw [hscript] at hi
  rcases hi.1 with hheld | habove
  · exact hheld
  · exact absurd (habove (.job jobId) hjob) (Nat.not_lt_zero _)

def failing : Operation :=
  .transitionJobState 0 .failed false (some (newAccount 0 7 none)) (some queuedJob)

def starting : Operation :=
  .phase1PreAi ⟨true, true, true⟩ ⟨1, none, 0, false, 0, 0, 1, 0⟩ fun c => .ok (good c)

end

end WorkTicket.Tasks.RowLocks
