import WorkTicket.Billing.QuotaEngine
import WorkTicket.Billing.StateMachine

/-! The heartbeat cleanup: three sweeps over the jobs stuck in `reserved`,
`processing` and `queued`, and the release of orphan reservations after them. A sweep
frees what the company of a stuck job has reserved before it marks the job failed. -/

namespace WorkTicket.Tasks.StaleJobs

open WorkTicket.Billing

def reservedTimeoutMinutes : ℚ := processingTimeoutMinutes
def runningTimeoutMinutes : ℚ := 30
def queuedTimeoutMinutes : ℚ := 60
def batchSize : ℕ := 200

/-- The tables the cleanup works on; jobs are listed in the order a scan meets them. -/
structure Db where
  jobs : List Job
  accounts : CompanyId → Option BillingAccount
  ids : (jobs.map Job.id).Nodup

def Db.job? (db : Db) (id : JobId) (companyId : CompanyId) : Option Job :=
  db.jobs.find? fun j => j.id = id ∧ j.companyId = companyId

def Db.write (db : Db) (companyId : CompanyId) (account : Option BillingAccount)
    (job : Option Job) : Db where
  jobs := db.jobs.map fun i => (job.filter fun j => j.id = i.id).getD i
  accounts := Function.update db.accounts companyId account
  ids := by
    have hid : ∀ i : Job, ((job.filter fun j => j.id = i.id).getD i).id = i.id := by
      intro i
      cases job with
      | none => rfl
      | some j => by_cases h : j.id = i.id <;> simp [Option.filter, h]
    simpa only [List.map_map, Function.comp_def, hid] using db.ids

inductive Sweep
  | stuckReserved
  | stuckRunning
  | orphanedQueued
  deriving DecidableEq, Repr

def Sweep.state : Sweep → AIProcessingState
  | .stuckReserved => .reserved
  | .stuckRunning => .processing
  | .orphanedQueued => .queued

def Sweep.timeoutMinutes : Sweep → ℚ
  | .stuckReserved => reservedTimeoutMinutes
  | .stuckRunning => runningTimeoutMinutes
  | .orphanedQueued => queuedTimeoutMinutes

def sweeps : List Sweep := [.stuckReserved, .stuckRunning, .orphanedQueued]

/-- How a sweep ends: its commit holds, a failed statement has turned the commit into a
rollback, or the commit raises and the run is over. -/
inductive SweepEnd
  | committed
  | rolledBack
  | raised
  deriving DecidableEq, Repr

/-- What a run meets: the rows other transactions hold, and how each sweep ends. -/
structure Env where
  locked : Sweep → JobId → Bool
  ends : Sweep → SweepEnd

section
variable (now : Time) (env : Env)

def isStuck (s : Sweep) (j : Job) : Bool :=
  j.aiProcessingState = some s.state &&
    j.aiProcessingUpdatedAt.any fun t => t < now - minutes s.timeoutMinutes

/-- The jobs a sweep locks and loads (`FOR UPDATE SKIP LOCKED LIMIT 200`). -/
def stuckJobs (s : Sweep) (jobs : List Job) : List Job :=
  (jobs.filter fun j => isStuck now s j && !env.locked s j.id).take batchSize

/-- The body of the three loops: all the company has reserved is released, then the job
goes to `failed`. -/
def sweepJob (db : Db) (job : Job) : Db :=
  let account := (db.accounts job.companyId).map fun a =>
    if 0 < a.reservedAcu then releaseReserved a.reservedAcu a else a
  let moved := transitionJobState now .failed true account (db.job? job.id job.companyId)
  db.write job.companyId moved.2.1 moved.2.2

def cleanupStuckJobs : List Sweep → Db → Db
  | [], db => db
  | s :: rest, db =>
    let stuck := stuckJobs now env s db.jobs
    if stuck = [] then cleanupStuckJobs rest db
    else match env.ends s with
      | .committed => cleanupStuckJobs rest (stuck.foldl (sweepJob now) db)
      | .rolledBack => cleanupStuckJobs rest db
      | .raised => db

/-- The last pass, over the accounts with a stale heartbeat. -/
def releaseOrphans (db : Db) : Db :=
  { db with
    accounts := fun c => (db.accounts c).map fun a =>
      if hasStaleReservation now a then freeReservation a else a }

/-- `_cleanup` when no commit raises. -/
def cleanup (db : Db) : Db := releaseOrphans now (cleanupStuckJobs now env sweeps db)

/-- The jobs that the committed sweeps load, read off the tables before the run. -/
def sweptJobs : List Sweep → List Job → List Job
  | [], _ => []
  | s :: rest, jobs =>
    let stuck := stuckJobs now env s jobs
    if stuck = [] then sweptJobs rest jobs
    else match env.ends s with
      | .committed => stuck ++ sweptJobs rest jobs
      | .rolledBack => sweptJobs rest jobs
      | .raised => []

end

/-! ## What a sweep changes -/

def reservedOf (db : Db) (c : CompanyId) : ℚ := (db.accounts c).elim 0 BillingAccount.reservedAcu

/-- `db'` is `db` after the sweeps of the jobs in `done`. -/
structure Swept (now : Time) (db : Db) (done : List Job) (db' : Db) : Prop where
  jobs : db'.jobs = db.jobs.map fun j => if j ∈ done then j.enter now .failed else j
  reserved : ∀ c, reservedOf db' c = if ∃ j ∈ done, j.companyId = c then 0 else reservedOf db c
  heartbeat : ∀ c, (∃ j ∈ done, j.companyId = c) →
    ∀ a ∈ db'.accounts c, a.reservationHeartbeatAt = some now

def IsSweepable (j : Job) : Prop :=
  j.aiProcessingState = some .reserved ∨ j.aiProcessingState = some .processing ∨
    j.aiProcessingState = some .queued

theorem IsSweepable.current {j : Job} (h : IsSweepable j) :
    j.current = .queued ∨ j.current = .reserved ∨ j.current = .processing := by
  rcases h with h | h | h <;> simp [Job.current, h]

section
variable {now : Time} {env : Env} {db db' : Db}

theorem Db.eq_of_id {i j : Job} (hi : i ∈ db.jobs) (hj : j ∈ db.jobs) (h : i.id = j.id) : i = j :=
  List.inj_on_of_nodup_map db.ids hi hj h

theorem Db.job?_of_mem {j : Job} (hj : j ∈ db.jobs) : db.job? j.id j.companyId = some j := by
  unfold Db.job?
  cases hf : db.jobs.find? fun i => i.id = j.id ∧ i.companyId = j.companyId with
  | none => simpa using List.find?_eq_none.mp hf j hj
  | some i =>
    have hp := List.find?_some hf
    simp only [decide_eq_true_eq] at hp
    rw [Db.eq_of_id (List.mem_of_find?_eq_some hf) hj hp.1]

theorem sweepJob_eq {j : Job} (hj : j ∈ db.jobs) (hs : IsSweepable j) :
    sweepJob now db j = db.write j.companyId
      ((db.accounts j.companyId).map fun a =>
        { (if 0 < a.reservedAcu then releaseReserved a.reservedAcu a else a) with
          reservationHeartbeatAt := some now })
      (some (j.enter now .failed)) := by
  simp only [sweepJob, Db.job?_of_mem hj, transitionJobState_failed now true _ hs.current,
    Option.map_map, Function.comp_def, if_true]

theorem swept_refl (now : Time) (db : Db) : Swept now db [] db :=
  ⟨by simp, by simp, by simp⟩

theorem Swept.mem {done : List Job} (h : Swept now db done db') {j : Job} (hj : j ∈ db.jobs)
    (hnot : j ∉ done) : j ∈ db'.jobs := by
  rw [h.jobs]
  exact List.mem_map.mpr ⟨j, hj, if_neg hnot⟩

theorem Swept.sweep {done : List Job} (h : Swept now db done db')
    (h0 : ∀ c, 0 ≤ reservedOf db c) {j : Job} (hj : j ∈ db.jobs) (hnot : j ∉ done)
    (hs : IsSweepable j) : Swept now db (done ++ [j]) (sweepJob now db' j) := by
  rw [sweepJob_eq (h.mem hj hnot) hs]
  have hnn : ∀ c, 0 ≤ reservedOf db' c := by
    intro c
    rw [h.reserved]
    split
    · exact le_rfl
    · exact h0 c
  refine ⟨?_, fun c => ?_, fun c hc => ?_⟩
  · simp only [Db.write, h.jobs, List.map_map]
    refine List.map_congr_left fun i hi => ?_
    by_cases hij : i = j
    · subst hij
      simp [hnot, Job.enter, Option.filter]
    · have hid : j.id ≠ i.id := fun he => hij (Db.eq_of_id hi hj he.symm)
      by_cases hd : i ∈ done <;> simp [hd, hij, hid, Job.enter, Option.filter]
  · by_cases hc : j.companyId = c
    · subst hc
      have hin : ∃ i ∈ done ++ [j], i.companyId = j.companyId := ⟨j, by simp, rfl⟩
      have hr := hnn j.companyId
      rw [if_pos hin]
      simp only [reservedOf, Db.write, Function.update_self] at hr ⊢
      cases ha : db'.accounts j.companyId with
      | none => rfl
      | some a =>
        simp only [ha, Option.elim_some, Option.map_some] at hr ⊢
        split
        · exact releaseReserved_all a
        · linarith
    · have hiff : (∃ i ∈ done ++ [j], i.companyId = c) ↔ ∃ i ∈ done, i.companyId = c := by
        simp [or_and_right, exists_or, hc]
      rw [if_congr hiff rfl rfl, ← h.reserved c]
      simp only [reservedOf, Db.write, Function.update_of_ne (Ne.symm hc)]
  · intro a ha
    by_cases hjc : j.companyId = c
    · subst hjc
      simp only [Db.write, Function.update_self, Option.mem_def, Option.map_eq_some_iff] at ha
      obtain ⟨b, -, rfl⟩ := ha
      rfl
    · have hin : ∃ i ∈ done, i.companyId = c := by
        simpa [or_and_right, exists_or, hjc] using hc
      simp only [Db.write, Function.update_of_ne (Ne.symm hjc)] at ha
      exact h.heartbeat c hin a ha

theorem Swept.foldl_sweep (stuck : List Job) {done : List Job} (h : Swept now db done db')
    (h0 : ∀ c, 0 ≤ reservedOf db c) (hsub : stuck ⊆ db.jobs) (hnd : (done ++ stuck).Nodup)
    (hs : ∀ j ∈ stuck, IsSweepable j) :
    Swept now db (done ++ stuck) (stuck.foldl (sweepJob now) db') := by
  induction stuck generalizing done db' with
  | nil => simpa using h
  | cons j stuck ih =>
    have hnot : j ∉ done := fun hd =>
      (List.nodup_append.mp hnd).2.2 j hd j List.mem_cons_self rfl
    have hone := h.sweep h0 (hsub List.mem_cons_self) hnot (hs j List.mem_cons_self)
    rw [List.append_cons] at hnd ⊢
    exact ih hone (fun i hi => hsub (List.mem_cons_of_mem _ hi)) hnd
      fun i hi => hs i (List.mem_cons_of_mem _ hi)

/-! ## The three sweeps -/

theorem mem_stuckJobs {s : Sweep} {jobs : List Job} {j : Job} (h : j ∈ stuckJobs now env s jobs) :
    j ∈ jobs ∧ j.aiProcessingState = some s.state := by
  obtain ⟨hj, hp⟩ := List.mem_filter.mp (List.mem_of_mem_take h)
  simp only [isStuck, Bool.and_eq_true, decide_eq_true_eq] at hp
  exact ⟨hj, hp.1.1⟩

theorem Sweep.isSweepable {s : Sweep} {j : Job} (h : j.aiProcessingState = some s.state) :
    IsSweepable j := by
  cases s with
  | stuckReserved => exact .inl h
  | stuckRunning => exact .inr (.inl h)
  | orphanedQueued => exact .inr (.inr h)

theorem Sweep.state_injective : Function.Injective Sweep.state := by
  intro s t h
  cases s <;> cases t <;> first | rfl | cases h

theorem Sweep.state_ne_failed (s : Sweep) : s.state ≠ .failed := by
  cases s <;> decide

theorem Swept.stuckJobs_eq {done : List Job} (h : Swept now db done db') {s : Sweep}
    (hdone : ∀ j ∈ done, j.aiProcessingState ≠ some s.state) :
    stuckJobs now env s db'.jobs = stuckJobs now env s db.jobs := by
  set mark : Job → Job := fun j => if j ∈ done then j.enter now .failed else j with hmark
  set p : Job → Bool := fun j => isStuck now s j && !env.locked s j.id with hp
  have hsame : ∀ j, p (mark j) = p j := by
    intro j
    by_cases hd : j ∈ done
    · simp [hmark, hd, hp, isStuck, Job.enter, hdone j hd, (Sweep.state_ne_failed s).symm]
    · simp [hmark, hd]
  have hfix : ∀ j ∈ db.jobs.filter p, mark j = j := by
    intro j hj
    have hstate : j.aiProcessingState = some s.state := by
      have := (List.mem_filter.mp hj).2
      simp only [hp, isStuck, Bool.and_eq_true, decide_eq_true_eq] at this
      exact this.1.1
    exact if_neg fun hd => hdone j hd hstate
  unfold stuckJobs
  rw [h.jobs, List.filter_map, show p ∘ mark = p from funext hsame,
    List.map_congr_left hfix, List.map_id']

theorem mem_sweptJobs {ss : List Sweep} {jobs : List Job} {j : Job}
    (h : j ∈ sweptJobs now env ss jobs) :
    j ∈ jobs ∧ ∃ s ∈ ss, j.aiProcessingState = some s.state := by
  induction ss with
  | nil => cases h
  | cons s ss ih =>
    have hrest : j ∈ sweptJobs now env ss jobs →
        j ∈ jobs ∧ ∃ t ∈ s :: ss, j.aiProcessingState = some t.state := fun hj => by
      obtain ⟨hmem, t, ht, hstate⟩ := ih hj
      exact ⟨hmem, t, List.mem_cons_of_mem _ ht, hstate⟩
    simp only [sweptJobs] at h
    split at h
    · exact hrest h
    · split at h
      · rcases List.mem_append.mp h with h | h
        · exact ⟨(mem_stuckJobs h).1, s, List.mem_cons_self, (mem_stuckJobs h).2⟩
        · exact hrest h
      · exact hrest h
      · cases h

theorem nodup_stuckJobs (s : Sweep) : (stuckJobs now env s db.jobs).Nodup :=
  (List.Nodup.of_map _ db.ids).sublist ((List.take_sublist _ _).trans List.filter_sublist)

/-- A run of sweeps over distinct states sweeps the jobs read off the tables before it. -/
theorem Swept.run_sweeps {ss : List Sweep} {done : List Job} (h : Swept now db done db')
    (h0 : ∀ c, 0 ≤ reservedOf db c) (hss : ss.Nodup) (hnd : done.Nodup)
    (hdone : ∀ s ∈ ss, ∀ j ∈ done, j.aiProcessingState ≠ some s.state) :
    Swept now db (done ++ sweptJobs now env ss db.jobs) (cleanupStuckJobs now env ss db') := by
  induction ss generalizing done db' with
  | nil => simpa [cleanupStuckJobs, sweptJobs] using h
  | cons s ss ih =>
    have hs := fun j hj => hdone s List.mem_cons_self j hj
    have hrest := fun t ht => hdone t (List.mem_cons_of_mem _ ht)
    have hskip := ih h hss.of_cons hnd hrest
    simp only [cleanupStuckJobs, sweptJobs, h.stuckJobs_eq hs]
    split
    · exact hskip
    · cases env.ends s with
      | rolledBack => exact hskip
      | raised => simpa using h
      | committed =>
        have hnd' : (done ++ stuckJobs now env s db.jobs).Nodup :=
          List.nodup_append.mpr ⟨hnd, nodup_stuckJobs s, fun i hi j hj he =>
            hs i hi (he ▸ (mem_stuckJobs hj).2)⟩
        have hswept := h.foldl_sweep _ h0 (fun j hj => (mem_stuckJobs hj).1) hnd'
          fun j hj => Sweep.isSweepable (mem_stuckJobs hj).2
        rw [← List.append_assoc]
        refine ih hswept hss.of_cons hnd' fun t ht j hj => ?_
        rcases List.mem_append.mp hj with hj | hj
        · exact hrest t ht j hj
        · rw [(mem_stuckJobs hj).2]
          exact fun he => (List.nodup_cons.mp hss).1
            (Sweep.state_injective (Option.some.inj he) ▸ ht)

theorem cleanupStuckJobs_swept (h0 : ∀ c, 0 ≤ reservedOf db c) :
    Swept now db (sweptJobs now env sweeps db.jobs) (cleanupStuckJobs now env sweeps db) := by
  have hss : sweeps.Nodup := by decide
  exact (swept_refl now db).run_sweeps h0 hss List.nodup_nil (by simp)

theorem cleanup_accounts (h0 : ∀ c, 0 ≤ reservedOf db c) {j : Job}
    (hj : j ∈ sweptJobs now env sweeps db.jobs) :
    (cleanup now env db).accounts j.companyId =
      (cleanupStuckJobs now env sweeps db).accounts j.companyId := by
  have hswept : Swept now db (sweptJobs now env sweeps db.jobs) _ := cleanupStuckJobs_swept h0
  have hheart := hswept.heartbeat _ ⟨j, hj, rfl⟩
  simp only [cleanup, releaseOrphans]
  cases ha : (cleanupStuckJobs now env sweeps db).accounts j.companyId with
  | none => rfl
  | some a =>
    have hnot : hasStaleReservation now a = false := by
      have : ¬ now < now - minutes processingTimeoutMinutes := by
        norm_num [minutes, processingTimeoutMinutes]
      simp [hasStaleReservation, hheart a ha, this]
    simp [hnot]

/-! ## What the failed jobs held -/

def heldBy (held : JobId → ℚ) (jobs : List Job) (c : CompanyId) : ℚ :=
  ((jobs.filter fun j => j.companyId = c).map fun j => held j.id).sum

structure Reservations (held : JobId → ℚ) (db : Db) : Prop where
  nonneg : ∀ j ∈ db.jobs, 0 ≤ held j.id
  total : ∀ c, reservedOf db c = heldBy held db.jobs c

def markedFailed (db db' : Db) : List Job :=
  db.jobs.filter fun j => j.current ≠ .failed &&
    db'.jobs.any fun i => i.id = j.id && i.current = .failed

def untouched (db db' : Db) : List Job := db.jobs.filter fun j => j ∉ markedFailed db db'

/-- `db'` has lost what the jobs marked failed held, and still counts the rest. -/
structure FreesOnlyHeld (held : JobId → ℚ) (db db' : Db) : Prop where
  lowers : ∀ c, reservedOf db c - reservedOf db' c = heldBy held (markedFailed db db') c
  stillCounted : ∀ c, reservedOf db' c = heldBy held (untouched db db') c

theorem heldBy_split (held : JobId → ℚ) (p : Job → Bool) (jobs : List Job) (c : CompanyId) :
    heldBy held jobs c = heldBy held (jobs.filter p) c + heldBy held (jobs.filter fun j => !p j) c := by
  induction jobs with
  | nil => simp [heldBy]
  | cons j jobs ih =>
    simp only [heldBy, List.filter_cons] at ih ⊢
    cases p j <;> by_cases hc : j.companyId = c <;> simp [hc, ih] <;> ring

theorem heldBy_eq_zero_iff {held : JobId → ℚ} {jobs : List Job} {c : CompanyId}
    (h : ∀ j ∈ jobs, 0 ≤ held j.id) :
    heldBy held jobs c = 0 ↔ ∀ j ∈ jobs, j.companyId = c → held j.id = 0 := by
  induction jobs with
  | nil => simp [heldBy]
  | cons j jobs ih =>
    have hrest := fun i hi => h i (List.mem_cons_of_mem _ hi)
    have hj := h j List.mem_cons_self
    have hsum : 0 ≤ heldBy held jobs c := by
      refine List.sum_nonneg fun x hx => ?_
      obtain ⟨i, hi, rfl⟩ := List.mem_map.mp hx
      exact hrest i (List.mem_of_mem_filter hi)
    rw [List.forall_mem_cons, ← ih hrest]
    by_cases hc : j.companyId = c
    · have : heldBy held (j :: jobs) c = held j.id + heldBy held jobs c := by simp [heldBy, hc]
      rw [this, add_eq_zero_iff_of_nonneg hj hsum]
      simp [hc]
    · simp [heldBy, hc]

theorem Swept.markedFailed_eq {done : List Job} (h : Swept now db done db')
    (hdone : ∀ j ∈ done, j ∈ db.jobs ∧ IsSweepable j) :
    markedFailed db db' = db.jobs.filter fun j => j ∈ done := by
  refine List.filter_congr fun j hj => ?_
  rw [Bool.eq_iff_iff]
  simp only [Bool.and_eq_true, decide_eq_true_eq, List.any_eq_true, h.jobs, List.mem_map,
    exists_exists_and_eq_and]
  constructor
  · rintro ⟨hne, i, hi, hid, hfailed⟩
    by_contra hnot
    have hrow : (if i ∈ done then i.enter now .failed else i).id = i.id := by
      split <;> rfl
    rw [hrow] at hid
    obtain rfl := Db.eq_of_id hi hj hid
    rw [if_neg hnot] at hfailed
    exact hne hfailed
  · intro hd
    refine ⟨?_, j, hj, ?_, ?_⟩
    · rcases (hdone j hd).2.current with hc | hc | hc <;> simp [hc]
    · rw [if_pos hd]
      rfl
    · rw [if_pos hd]
      rfl

variable {held : JobId → ℚ}

/-- The cleanup frees only what the stuck jobs held exactly when no job it leaves alone
holds a reservation on the account of a company one of whose jobs it sweeps. -/
theorem freesOnlyHeld_iff (h : Reservations held db) :
    FreesOnlyHeld held db (cleanupStuckJobs now env sweeps db) ↔
      ∀ j ∈ sweptJobs now env sweeps db.jobs, ∀ i ∈ db.jobs,
        i ∉ sweptJobs now env sweeps db.jobs → i.companyId = j.companyId → held i.id = 0 := by
  set swept := sweptJobs now env sweeps db.jobs with hswept
  have hnn : ∀ c, 0 ≤ reservedOf db c := by
    intro c
    rw [h.total]
    refine List.sum_nonneg fun x hx => ?_
    obtain ⟨j, hj, rfl⟩ := List.mem_map.mp hx
    exact h.nonneg j (List.mem_of_mem_filter hj)
  have hrun : Swept now db swept (cleanupStuckJobs now env sweeps db) := cleanupStuckJobs_swept hnn
  have hmem : ∀ j ∈ swept, j ∈ db.jobs ∧ IsSweepable j := fun j hj => by
    obtain ⟨hj, s, -, hs⟩ := mem_sweptJobs hj
    exact ⟨hj, Sweep.isSweepable hs⟩
  have hfailed := hrun.markedFailed_eq hmem
  have hrest : untouched db (cleanupStuckJobs now env sweeps db) =
      db.jobs.filter fun j => !decide (j ∈ swept) := by
    refine List.filter_congr fun j hj => ?_
    simp [hfailed, hj]
  have hsplit := fun c => heldBy_split held (fun j => decide (j ∈ swept)) db.jobs c
  have hzero : ∀ c, heldBy held (db.jobs.filter fun j => !decide (j ∈ swept)) c = 0 ↔
      ∀ j ∈ db.jobs.filter fun j => !decide (j ∈ swept), j.companyId = c → held j.id = 0 :=
    fun c => heldBy_eq_zero_iff fun j hj => h.nonneg j (List.mem_of_mem_filter hj)
  constructor
  · intro hf j hj i hi hnot hc
    have hcount := hf.stillCounted j.companyId
    rw [hrun.reserved, if_pos ⟨j, hj, rfl⟩, hrest] at hcount
    exact (hzero _).mp hcount.symm i (List.mem_filter.mpr ⟨hi, by simpa using hnot⟩) hc
  · intro hcond
    have hstill : ∀ c, reservedOf (cleanupStuckJobs now env sweeps db) c =
        heldBy held (untouched db (cleanupStuckJobs now env sweeps db)) c := by
      intro c
      rw [hrun.reserved, hrest]
      split
      · rename_i hc
        obtain ⟨j, hj, rfl⟩ := hc
        refine ((hzero _).mpr fun i hi hic => ?_).symm
        obtain ⟨hi, hnot⟩ := List.mem_filter.mp hi
        exact hcond j hj i hi (by simpa using hnot) hic
      · rename_i hc
        have hnone : heldBy held (db.jobs.filter fun j => decide (j ∈ swept)) c = 0 := by
          refine (heldBy_eq_zero_iff fun j hj => h.nonneg j (List.mem_of_mem_filter hj)).mpr
            fun j hj hjc => ?_
          exact absurd ⟨j, by simpa using (List.mem_filter.mp hj).2, hjc⟩ hc
        rw [h.total, hsplit c, hnone, zero_add]
    refine ⟨fun c => ?_, hstill⟩
    rw [hstill, h.total, hsplit c, hrest, hfailed]
    ring

end

/-! ## Two companies' worth of jobs -/

def noneLocked : Env := ⟨fun _ _ => false, fun _ => .committed⟩

def account (companyId : CompanyId) (reservedAcu : ℚ) : BillingAccount :=
  ⟨companyId, "pro", 600, 0, reservedAcu, 0, none, false, none, none, none, none, none, 0⟩

def twoJobs (t : Time) (reservedAcu : ℚ) : Db where
  jobs := [⟨1, 7, some .processing, some 0, none, none, none⟩,
    ⟨2, 7, some .processing, some t, none, none, none⟩]
  accounts := fun c => if c = 7 then some (account 7 reservedAcu) else none
  ids := by simp

def heldByTwo (second : ℚ) (id : JobId) : ℚ := if id = 1 then 5 else if id = 2 then second else 0

theorem twoJobs_reservations (t : Time) {second : ℚ} (h : 0 ≤ second) :
    Reservations (heldByTwo second) (twoJobs t (5 + second)) where
  nonneg := by
    intro j hj
    simp only [twoJobs, List.mem_cons, List.not_mem_nil, or_false] at hj
    rcases hj with rfl | rfl <;> simp [heldByTwo, h]
  total := by
    intro c
    by_cases hc : c = 7
    · simp [reservedOf, twoJobs, heldBy, heldByTwo, account, hc]
    · simp [reservedOf, twoJobs, heldBy, hc, Ne.symm hc]

theorem freesOnlyHeld_iff_twoJobs :
    FreesOnlyHeld (heldByTwo 3) (twoJobs 10 (5 + 3))
        (cleanupStuckJobs 3600 noneLocked sweeps (twoJobs 10 (5 + 3))) ↔
      ∀ j ∈ sweptJobs 3600 noneLocked sweeps (twoJobs 10 (5 + 3)).jobs,
        ∀ i ∈ (twoJobs 10 (5 + 3)).jobs,
          i ∉ sweptJobs 3600 noneLocked sweeps (twoJobs 10 (5 + 3)).jobs →
            i.companyId = j.companyId → heldByTwo 3 i.id = 0 :=
  freesOnlyHeld_iff (twoJobs_reservations 10 (by norm_num))

/-- Cleaning up one stuck job also frees the 3 ACU of the job that started a minute ago. -/
theorem live_reservation_freed :
    Reservations (heldByTwo 3) (twoJobs 3540 (5 + 3)) ∧
      ¬ FreesOnlyHeld (heldByTwo 3) (twoJobs 3540 (5 + 3))
        (cleanupStuckJobs 3600 noneLocked sweeps (twoJobs 3540 (5 + 3))) := by
  refine ⟨twoJobs_reservations 3540 (by norm_num), fun h => ?_⟩
  have hcount := h.stillCounted 7
  have hafter : reservedOf (cleanupStuckJobs 3600 noneLocked sweeps
      (twoJobs 3540 (5 + 3))) 7 = 0 := by decide +kernel
  have hheld : heldBy (heldByTwo 3) (untouched (twoJobs 3540 (5 + 3))
      (cleanupStuckJobs 3600 noneLocked sweeps (twoJobs 3540 (5 + 3)))) 7 = 3 := by
    decide +kernel
  rw [hafter, hheld] at hcount
  norm_num at hcount

end WorkTicket.Tasks.StaleJobs
