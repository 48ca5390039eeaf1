import WorkTicket.Foundation.Transition
import WorkTicket.Tasks.MonthlyReset

/-! The heartbeat that protects what the jobs of a company have reserved: one column of
the account, written by `heartbeat_reservation`, cleared by `transition_job_state`, and
asked by `cleanup_stale_reservations` and `reset_billing_quotas` before they set the
reserved balance to 0. -/

namespace WorkTicket.Tasks.LiveReservations

open WorkTicket.Transition WorkTicket.Billing WorkTicket.Tasks.MonthlyReset

def isActive : AIProcessingState → Bool
  | .reserved | .processing => true
  | _ => false

/-- A company's account and jobs. `beats` is the last heartbeat each job's task has
recorded, `cleanups` the start of every cleanup that has read the account as stale and not
written it yet, and `lost` lists the jobs that were live when the balance was set to 0. -/
structure World (ι : Type*) where
  now : Time
  account : BillingAccount
  jobs : List Job
  beats : JobId → Option Time
  cleanups : ι → Option Time
  lost : List JobId

/-- The commits of the four writers, and the plain SELECT of the cleanup. A transition and a
reset hold the lock of the account row from their read on, a heartbeat is written whatever
was read; `stamp` and `start` are the times taken before. -/
inductive Event (ι : Type*)
  | tick (dt : ℚ)
  | transition (jobId : JobId) (target : AIProcessingState) (heartbeat : Bool) (stamp : Time)
  | heartbeat (jobId : JobId) (stamp : Time)
  | selectStale (i : ι) (start : Time)
  | free (i : ι) (locked : JobId → Bool)
  | reset (start : Time) (stalePass : Bool)

section
variable {ι : Type*} [DecidableEq ι]

def World.job? (s : World ι) (jobId : JobId) : Option Job := s.jobs.find? (·.id = jobId)

/-- Within the staleness window. -/
def isFresh (now t : Time) : Bool := now - minutes processingTimeoutMinutes ≤ t

/-- The job is reserved or processing and its task has recorded a heartbeat in the window. -/
def World.isLive (s : World ι) (j : Job) : Bool :=
  isActive j.current && (s.beats j.id).any (isFresh s.now)

def World.liveJobs (s : World ι) : List JobId := (s.jobs.filter s.isLive).map Job.id

def World.beat (s : World ι) (jobId : JobId) (stamp : Time) : World ι :=
  { s with beats := Function.update s.beats jobId (some ((s.beats jobId).elim stamp (max stamp))) }

def moveJob (account : BillingAccount) (jobId : JobId) (target : AIProcessingState)
    (heartbeat : Bool) (stamp : Time) (j : Job) : Job :=
  if j.id = jobId then
    (transitionJobState stamp target heartbeat (some account) (some j)).2.2.getD j
  else j

def transition (s : World ι) (jobId : JobId) (target : AIProcessingState) (heartbeat : Bool)
    (stamp : Time) : World ι :=
  let moved := transitionJobState stamp target heartbeat (some s.account) (s.job? jobId)
  let s := { s with
    account := moved.2.1.getD s.account
    jobs := s.jobs.map (moveJob s.account jobId target heartbeat stamp) }
  if heartbeat && moved.1 then s.beat jobId stamp else s

def heartbeatReservation (s : World ι) (jobId : JobId) (stamp : Time) : World ι :=
  { s.beat jobId stamp with account := { s.account with reservationHeartbeatAt := some stamp } }

/-- The jobs that the cleanup finds active go back to `queued`, except locked ones. -/
def requeue (now : Time) (locked : JobId → Bool) (j : Job) : Job :=
  if isActive j.current && !locked j.id then j.enter now .queued else j

def resetAccount (start : Time) (stalePass : Bool) (a : BillingAccount) : BillingAccount :=
  startPeriod start (if stalePass then a else collectDebt a)

def isSelected (start : Time) (stalePass : Bool) (a : BillingAccount) : Bool :=
  if stalePass then isStale start ⟨a, false⟩ else isDue start ⟨a, false⟩

def step (s : World ι) : Event ι → Option (World ι)
  | .tick dt => if 0 ≤ dt then some { s with now := s.now + dt } else none
  | .transition jobId target heartbeat stamp =>
    if stamp ≤ s.now then some (transition s jobId target heartbeat stamp) else none
  | .heartbeat jobId stamp =>
    if stamp ≤ s.now then some (heartbeatReservation s jobId stamp) else none
  | .selectStale i start =>
    if start ≤ s.now ∧ hasStaleReservation start s.account then
      some { s with cleanups := Function.update s.cleanups i (some start) }
    else none
  | .free i locked =>
    -- the account is freed as it was selected, whatever heartbeat it has by now
    (s.cleanups i).map fun _ => { s with
      account := freeReservation s.account
      jobs := s.jobs.map (requeue s.now locked)
      cleanups := Function.update s.cleanups i none
      lost := s.liveJobs ++ s.lost }
  | .reset start stalePass =>
    if start ≤ s.now ∧ isSelected start stalePass s.account then
      some { s with
        account := resetAccount start stalePass s.account
        lost := s.liveJobs ++ s.lost }
    else none

def start (now : Time) (account : BillingAccount) (jobs : List Job) : World ι :=
  ⟨now, account, jobs, fun _ => none, fun _ => none, []⟩

/-- Neither the cleanup nor the reset has set the balance to 0 under a live job. -/
def KeepsLive (s : World ι) : Prop := s.lost = []

/-- The job is active after the transition, and its task has recorded a heartbeat. -/
def World.liveAfter (s : World ι) (jobId : JobId) (target : AIProcessingState) (j : Job) : Bool :=
  isActive (if j.id = jobId && validateTransition j.current target then target else j.current) &&
    (s.beats j.id).any (isFresh s.now)

/-- No live job has recorded a later heartbeat. -/
def World.isLatest (s : World ι) (live : Job → Bool) (stamp : Time) : Bool :=
  s.jobs.all fun j => !live j || (s.beats j.id).all (· ≤ stamp)

/-- The heartbeat column is cleared only when no job is live, heartbeats are committed in
their order, and the cleanup frees what is stale when it writes. -/
def Beating (s : World ι) : Event ι → Bool
  | .transition jobId target heartbeat stamp =>
    if heartbeat && (transitionJobState stamp target heartbeat (some s.account) (s.job? jobId)).1
    then s.isLatest (s.liveAfter jobId target) stamp
    else !s.jobs.any (s.liveAfter jobId target)
  | .heartbeat _ stamp => s.isLatest s.isLive stamp
  | .free i _ =>
    (s.cleanups i).all fun start => !s.account.reservationHeartbeatAt.any (isFresh start)
  | _ => true

end

/-! ## Live jobs have a heartbeat on the account -/

section
variable {ι : Type*} {s : World ι}

/-- The account's heartbeat is at least as late as that of every live job. -/
structure Inv (s : World ι) : Prop where
  covered : ∀ j ∈ s.jobs, s.isLive j → ∃ h, s.account.reservationHeartbeatAt = some h ∧
    ∀ t, s.beats j.id = some t → t ≤ h
  begun : ∀ i start, s.cleanups i = some start → start ≤ s.now
  kept : KeepsLive s

theorem isLive_iff {j : Job} : s.isLive j ↔
    isActive j.current = true ∧ ∃ t, s.beats j.id = some t ∧ isFresh s.now t = true := by
  simp [World.isLive, Option.any_eq_true]

theorem isLatest_iff {live : Job → Bool} {stamp : Time} : s.isLatest live stamp = true ↔
    ∀ j ∈ s.jobs, live j = true → ∀ t, s.beats j.id = some t → t ≤ stamp := by
  simp only [World.isLatest, List.all_eq_true, Bool.or_eq_true, Bool.not_eq_true',
    Option.all_eq_true, decide_eq_true_eq]
  refine forall₂_congr fun j _ => ?_
  cases live j <;> simp

theorem isFresh_mono {now now' t : Time} (h : now ≤ now') (ht : isFresh now' t = true) :
    isFresh now t = true := by
  simp only [isFresh, decide_eq_true_eq] at ht ⊢
  linarith

theorem isActive_moveJob {account : BillingAccount} {jobId : JobId} {target : AIProcessingState}
    {heartbeat : Bool} {stamp : Time} {j : Job} :
    (moveJob account jobId target heartbeat stamp j).id = j.id ∧
      isActive (moveJob account jobId target heartbeat stamp j).current =
        isActive (if j.id = jobId && validateTransition j.current target then target
          else j.current) := by
  unfold moveJob
  by_cases hid : j.id = jobId
  · obtain ⟨j', hj', hsame, h⟩ :=
      transitionJobState_job stamp target heartbeat (some account) j
    rw [if_pos hid, hj', Option.getD_some]
    refine ⟨hsame, ?_⟩
    obtain ⟨-, hvalid, hcurrent⟩ | ⟨-, hcurrent, hblocked⟩ := h
    · simp [hid, hvalid, hcurrent]
    · by_cases hvalid : validateTransition j.current target = true
      · -- a blocked retry stays out of the active states like its target
        obtain ⟨rfl, hnone⟩ := hblocked hvalid
        rw [if_pos (by simp [hid, hvalid]), hcurrent, hnone]
        rfl
      · simp [hid, hvalid, hcurrent]
  · simp [hid]

/-- Nothing is live once no heartbeat in the window is on the account. -/
theorem Inv.not_live (h : Inv s) {start : Time} (hstart : start ≤ s.now)
    (hstale : s.account.reservationHeartbeatAt.any (isFresh start) = false) :
    s.liveJobs = [] := by
  simp only [World.liveJobs, List.map_eq_nil_iff, List.filter_eq_nil_iff]
  intro j hj hlive
  obtain ⟨b, hb, hle⟩ := h.covered j hj hlive
  obtain ⟨-, t, ht, hfresh⟩ := isLive_iff.mp hlive
  have hnow : isFresh start t = true := isFresh_mono hstart hfresh
  have hfresh' : isFresh start b = true := by
    simp only [isFresh, decide_eq_true_eq] at hnow ⊢
    exact hnow.trans (hle t ht)
  simp [hb, hfresh'] at hstale

/-- The heartbeat recorded with `stamp` is the latest of a job, unless the job has a
fresh one that is later. -/
theorem beat_le {jobId k : JobId} {stamp t : Time} (ht : (s.beat jobId stamp).beats k = some t)
    (hfresh : isFresh s.now t = true)
    (hold : ∀ u, s.beats k = some u → isFresh s.now u = true → u ≤ stamp) : t ≤ stamp := by
  by_cases hk : k = jobId
  · subst hk
    simp only [World.beat, Function.update_self, Option.some.injEq] at ht
    cases hbeat : s.beats k with
    | none => exact (by simpa [hbeat] using ht.symm : t = stamp).le
    | some u =>
      rw [hbeat, Option.elim_some] at ht
      obtain hmax | hmax := max_choice stamp u
      · exact (ht.symm.trans hmax).le
      · have htu : u = t := hmax.symm.trans ht
        exact htu ▸ hold u hbeat (htu ▸ hfresh)
  · have hsame : (s.beat jobId stamp).beats k = s.beats k := Function.update_of_ne hk _ _
    exact hold t (hsame ▸ ht) hfresh

theorem inv_start {now : Time} {account : BillingAccount} {jobs : List Job} :
    Inv (start now account jobs : World ι) where
  covered j _ hlive := by
    obtain ⟨-, t, ht, -⟩ := isLive_iff.mp hlive
    cases ht
  begun i start hi := by cases hi
  kept := rfl

theorem Inv.tick (h : Inv s) {dt : ℚ} (hdt : 0 ≤ dt) : Inv { s with now := s.now + dt } where
  covered j hj hlive := by
    obtain ⟨hactive, t, ht, hfresh⟩ := isLive_iff.mp hlive
    refine h.covered j hj (isLive_iff.mpr ⟨hactive, t, ht, ?_⟩)
    exact isFresh_mono (le_add_of_nonneg_right hdt) hfresh
  begun i start hi := (h.begun i start hi).trans (le_add_of_nonneg_right hdt)
  kept := h.kept

theorem Inv.heartbeat (h : Inv s) {jobId : JobId} {stamp : Time}
    (hlatest : s.isLatest s.isLive stamp) : Inv (heartbeatReservation s jobId stamp) where
  covered j hj hlive := by
    obtain ⟨hactive, t, ht, hfresh⟩ := isLive_iff.mp hlive
    refine ⟨stamp, rfl, fun t' ht' => ?_⟩
    obtain rfl : t = t' := Option.some.inj (ht.symm.trans ht')
    refine beat_le ht hfresh fun u hu hu' => ?_
    exact isLatest_iff.mp hlatest j hj (isLive_iff.mpr ⟨hactive, u, hu, hu'⟩) u hu
  begun := h.begun
  kept := h.kept

theorem liveAfter_iff {jobId : JobId} {target : AIProcessingState} {j : Job} :
    s.liveAfter jobId target j = true ↔
      isActive (if j.id = jobId && validateTransition j.current target then target
        else j.current) = true ∧ ∃ t, s.beats j.id = some t ∧ isFresh s.now t = true := by
  simp [World.liveAfter, Option.any_eq_true]

theorem isLive_moveJob {jobId : JobId} {target : AIProcessingState} {heartbeat : Bool}
    {stamp : Time} {j : Job} {t : Time} (hbeat : s.beats j.id = some t)
    (hfresh : isFresh s.now t = true)
    (hactive : isActive (moveJob s.account jobId target heartbeat stamp j).current = true) :
    s.liveAfter jobId target j = true :=
  liveAfter_iff.mpr ⟨isActive_moveJob.2 ▸ hactive, t, hbeat, hfresh⟩

/-- A sibling's transition clears the heartbeat all jobs of the company share. -/
theorem Inv.transition (h : Inv s) {jobId : JobId} {target : AIProcessingState}
    {heartbeat : Bool} {stamp : Time}
    (hok : Beating s (.transition jobId target heartbeat stamp) = true) :
    Inv (transition s jobId target heartbeat stamp) := by
  set moved := transitionJobState stamp target heartbeat (some s.account) (s.job? jobId)
    with hmoved
  have haccount : moved.2.1 = some { s.account with
      reservationHeartbeatAt := if heartbeat && moved.1 then some stamp else none } :=
    transitionJobState_account stamp target heartbeat (some s.account) (s.job? jobId)
  simp only [Beating, ← hmoved] at hok
  simp only [LiveReservations.transition, ← hmoved, haccount, Option.getD_some]
  split
  · rename_i hbeats
    rw [if_pos hbeats] at hok
    refine ⟨fun j hj hlive => ?_, h.begun, h.kept⟩
    obtain ⟨hactive, t, ht, hfresh⟩ := isLive_iff.mp hlive
    obtain ⟨j₀, hj₀, rfl⟩ := List.mem_map.mp hj
    rw [isActive_moveJob.1] at ht ⊢
    refine ⟨stamp, rfl, fun t' ht' => ?_⟩
    obtain rfl : t = t' := Option.some.inj (ht.symm.trans ht')
    exact beat_le (s := s) ht hfresh fun u hu hu' =>
      isLatest_iff.mp hok j₀ hj₀ (isLive_moveJob hu hu' hactive) u hu
  · rename_i hbeats
    rw [if_neg hbeats] at hok
    refine ⟨fun j hj hlive => ?_, h.begun, h.kept⟩
    obtain ⟨hactive, t, ht, hfresh⟩ := isLive_iff.mp hlive
    obtain ⟨j₀, hj₀, rfl⟩ := List.mem_map.mp hj
    rw [isActive_moveJob.1] at ht
    have hnot := List.any_eq_false.mp (Bool.not_eq_true' _ ▸ hok) j₀ hj₀
    exact absurd (isLive_moveJob ht hfresh hactive) hnot

theorem not_isLive_of_liveJobs (h : s.liveJobs = []) {j : Job} (hj : j ∈ s.jobs) :
    ¬ s.isLive j = true := by
  simp only [World.liveJobs, List.map_eq_nil_iff, List.filter_eq_nil_iff] at h
  exact h j hj

/-- The cleanup makes no job live: what it does not requeue it leaves as it is. -/
theorem isLive_requeue {now : Time} {locked : JobId → Bool} {j : Job}
    (h : s.isLive (requeue now locked j) = true) : s.isLive j = true := by
  unfold requeue at h
  split at h
  · have hinactive : isActive (j.enter now .queued).current = false := rfl
    rw [isLive_iff, hinactive] at h
    exact absurd h.1 (by decide)
  · exact h

variable [DecidableEq ι]

theorem Inv.selectStale (h : Inv s) {i : ι} {start : Time} (hstart : start ≤ s.now) :
    Inv { s with cleanups := Function.update s.cleanups i (some start) } where
  covered := h.covered
  begun := by
    refine (Function.forall_update_iff _ fun _ o => ∀ t, o = some t → t ≤ s.now).mpr ⟨?_, ?_⟩
    · rintro t ⟨⟩
      exact hstart
    · exact fun k _ => h.begun k
  kept := h.kept

theorem Inv.free (h : Inv s) {i : ι} {locked : JobId → Bool} {start : Time}
    (hi : s.cleanups i = some start) (hok : Beating s (.free i locked) = true) :
    Inv { s with
      account := freeReservation s.account
      jobs := s.jobs.map (requeue s.now locked)
      cleanups := Function.update s.cleanups i none
      lost := s.liveJobs ++ s.lost } := by
  have hstale : s.account.reservationHeartbeatAt.any (isFresh start) = false := by
    simpa [Beating, hi] using hok
  have hnone := h.not_live (h.begun i start hi) hstale
  refine ⟨fun j hj hlive => ?_, ?_, ?_⟩
  · obtain ⟨j₀, hj₀, rfl⟩ := List.mem_map.mp hj
    exact absurd (isLive_requeue hlive) (not_isLive_of_liveJobs hnone hj₀)
  · refine (Function.forall_update_iff _ fun _ o => ∀ t, o = some t → t ≤ s.now).mpr ⟨?_, ?_⟩
    · rintro t ⟨⟩
    · exact fun k _ => h.begun k
  · simpa [KeepsLive, hnone] using h.kept

omit [DecidableEq ι] in
theorem isSelected_stale {start : Time} {stalePass : Bool} {a : BillingAccount}
    (h : isSelected start stalePass a = true) :
    a.reservationHeartbeatAt.any (isFresh start) = false := by
  cases stalePass <;> simp only [isSelected, isDue, isStale, Bool.false_eq_true, if_false, if_true,
    Bool.and_eq_true, Bool.not_eq_true'] at h
  · exact h.2
  · exact h.1.2

omit [DecidableEq ι] in
theorem Inv.reset (h : Inv s) {start : Time} {stalePass : Bool} (hstart : start ≤ s.now)
    (hselected : isSelected start stalePass s.account = true) :
    Inv { s with
      account := resetAccount start stalePass s.account
      lost := s.liveJobs ++ s.lost } := by
  have hnone := h.not_live hstart (isSelected_stale hselected)
  refine ⟨fun j hj hlive => absurd hlive (not_isLive_of_liveJobs hnone hj), h.begun, ?_⟩
  simpa [KeepsLive, hnone] using h.kept

theorem inv_step {s' : World ι} {e : Event ι} (h : Inv s) (hok : Beating s e = true)
    (hs : step s e = some s') : Inv s' := by
  cases e with
  | tick dt =>
    obtain ⟨hdt, ⟨⟩⟩ := Option.ite_none_right_eq_some.mp hs
    exact h.tick hdt
  | transition jobId target heartbeat stamp =>
    obtain ⟨-, ⟨⟩⟩ := Option.ite_none_right_eq_some.mp hs
    exact h.transition hok
  | heartbeat jobId stamp =>
    obtain ⟨-, ⟨⟩⟩ := Option.ite_none_right_eq_some.mp hs
    exact h.heartbeat hok
  | selectStale i start =>
    obtain ⟨hstart, ⟨⟩⟩ := Option.ite_none_right_eq_some.mp hs
    exact h.selectStale hstart.1
  | free i locked =>
    obtain ⟨start, hi, rfl⟩ := Option.map_eq_some_iff.mp hs
    exact h.free hi hok
  | reset start stalePass =>
    obtain ⟨hstart, ⟨⟩⟩ := Option.ite_none_right_eq_some.mp hs
    exact h.reset hstart.1 hstart.2

theorem keepsLive_of_beating {now : Time} {account : BillingAccount} {jobs : List Job}
    (h : ReachedBy step (fun s e => Beating s e) (start now account jobs : World ι) s) :
    KeepsLive s :=
  (h.invariant inv_start fun _ _ _ hi hok hs => inv_step hi hok hs).kept

end

/-! ## Two jobs of one company -/

def jobAt (id : JobId) (state : AIProcessingState) : Job :=
  ⟨id, 7, some state, some 0, none, none, none⟩

/-- An account with 5 ACU reserved whose reset date is reached at time 100. -/
def dueAccount : BillingAccount :=
  ⟨7, "pro", 600, 0, 5, 0, none, false, none, none, none, some 100, none, 0⟩

def initial : World Unit := start 0 dueAccount [jobAt 1 .queued, jobAt 2 .none]

def workingOn (jobId : JobId) : List (Event Unit) :=
  [.transition jobId .processing false 0, .heartbeat jobId 0]

/-- Job 1 completes, then job 2 runs and stops beating, and is freed before the reset. -/
def oneByOne : List (Event Unit) :=
  workingOn 1 ++ [.tick 100, .heartbeat 1 100, .transition 1 .completed false 100,
    .transition 2 .queued false 100, .transition 2 .processing false 100, .heartbeat 2 100,
    .tick 1000, .selectStale () 1100, .free () fun _ => false, .reset 1100 false]

theorem keepsLive_oneByOne :
    KeepsLive ((runWhile step (fun s e => Beating s e) initial oneByOne).get
      (by decide +kernel)) :=
  keepsLive_of_beating (ReachedBy.of_runWhile (Option.some_get _).symm)

/-- While job 1 is at work job 2 is queued, which clears the heartbeat of the company. -/
def siblingQueued : List (Event Unit) :=
  workingOn 1 ++ [.tick 120, .transition 2 .queued false 120, .reset 120 false]

def afterSibling : World Unit := (run step initial siblingQueued).get (by decide +kernel)

/-- The reset has set the 5 ACU to 0 two minutes after the heartbeat of job 1. -/
theorem siblingQueued_not_keepsLive :
    Reached step initial afterSibling ∧ ¬ KeepsLive afterSibling := by
  refine ⟨Reached.of_run (Option.some_get _).symm, fun h => ?_⟩
  have hlost : afterSibling.lost = [1] := by decide +kernel
  exact absurd (hlost.symm.trans h) (by decide)

end WorkTicket.Tasks.LiveReservations
