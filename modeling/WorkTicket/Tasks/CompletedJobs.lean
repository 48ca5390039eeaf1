import WorkTicket.Tasks.GatewayEntry

/-! What the answers of `_reconcile_job_state` say about the job, and what an attempt of
`process_job_task` makes of them when the job is completed already. -/

namespace WorkTicket.Tasks.CompletedJobs

open WorkTicket.Billing WorkTicket.Billing.ConcurrentCalls WorkTicket.Tasks.JobTask
open WorkTicket.Tasks.GatewayEntry
open Program hiding ask

/-! ## One call -/

/-- What an answer says about the job before and after the call. -/
def Says (before after : Option Job) (target : AIProcessingState) : Reconciled → Prop
  | .ok => ∃ j, after = some j ∧ j.current = target
  | .skipReservation | .inconsistent => after = before
  | .recovered => ∃ j, after = some j ∧ j.current = .queued

def TellsTruth (now : Time) (expected target : AIProcessingState) (job : Option Job) : Prop :=
  Says job (reconcileJobState now expected target job).2 target
    (reconcileJobState now expected target job).1

/-- The branch that calls a further transition of a completed job redundant. -/
def SkipsCompleted (expected target : AIProcessingState) (job : Option Job) : Prop :=
  ∃ j, job = some j ∧ j.current = .completed ∧ target ≠ .completed ∧ expected ≠ .completed

theorem reconcileJobState_completed (now : Time) {expected target : AIProcessingState} {j : Job}
    (hj : j.current = .completed) (htarget : target ≠ .completed)
    (hexpected : expected ≠ .completed) :
    reconcileJobState now expected target (some j) = (.ok, some j) := by
  have hne : ¬ AIProcessingState.completed = target := fun h => htarget h.symm
  have hunexpected : ¬ (AIProcessingState.completed = expected ∨
      AIProcessingState.completed = .queued) := by
    rintro (h | h)
    · exact hexpected h.symm
    · cases h
  simp only [reconcileJobState, hj]
  rw [if_neg hne, if_neg hunexpected, if_neg (fun h => nomatch h.1)]
  rfl

theorem tellsTruth_some {now : Time} {expected target : AIProcessingState} {j : Job}
    (h : j.current = .completed → target = .completed ∨ expected = .completed) :
    TellsTruth now expected target (some j) := by
  unfold TellsTruth reconcileJobState
  simp only
  split_ifs with hthere hexpected hvalid hskip hcompleted hfailed hvalid
  · exact ⟨j, rfl, hthere⟩
  · exact ⟨j.enter now target, rfl, rfl⟩
  · rfl
  · rfl
  · -- not the target and not expected either
    rcases h hcompleted with htarget | hexp
    · exact absurd (hcompleted.trans htarget.symm) hthere
    · exact absurd (.inl (hcompleted.trans hexp.symm)) hexpected
  · exact ⟨j.enter now .queued, rfl, rfl⟩
  · rfl
  · rfl

theorem tells_iff (now : Time) (expected target : AIProcessingState) (job : Option Job) :
    TellsTruth now expected target job ↔ ¬ SkipsCompleted expected target job := by
  constructor
  · rintro htruth ⟨j, rfl, hj, htarget, hexpected⟩
    rw [TellsTruth, reconcileJobState_completed now hj htarget hexpected] at htruth
    obtain ⟨j', hj', hcurrent⟩ := htruth
    obtain rfl := Option.some.inj hj'
    exact htarget (hcurrent.symm.trans hj)
  · intro hskips
    cases job with
    | none => rfl
    | some j =>
      apply tellsTruth_some
      intro hj
      by_contra hnot
      obtain ⟨htarget, hexpected⟩ := not_or.mp hnot
      exact hskips ⟨j, rfl, hj, htarget, hexpected⟩

/-! ## Both calls of an attempt -/

section
variable (now now' : Time) (job : Job) (a : Attempt)
  (answers : (c : Command) → Except Fault (Answer c))

/-- The surroundings in which the attempt finds this job: where they answer a statement on
it, the answer is read off its row. -/
def onJob : (c : Command) → Except Fault (Answer c)
  | .selectJob => (answers .selectJob).map fun _ => some job
  | .reconcileJobState .queued .reserved =>
    (answers (.reconcileJobState .queued .reserved)).map fun _ =>
      (reconcileJobState now .queued .reserved (some job)).1
  | .reconcileJobState .reserved .processing =>
    (answers (.reconcileJobState .reserved .processing)).map fun _ =>
      (reconcileJobState now' .reserved .processing
        (reconcileJobState now .queued .reserved (some job)).2).1
  | c => answers c

def RunsAgain : Prop := job.current = .completed ∧ EntersGateway a (onJob now now' job answers)

def Succeeds (c : Command) : Prop := ∃ r, answers c = .ok r

/-- Phase 1 after the lock, when both calls on the state of the job answer `ok`. -/
def ClaimGoesOn : Prop :=
  Succeeds answers (.reconcileJobState .queued .reserved) ∧
    (0 < a.retries → answers .countRetry = .ok ()) ∧
    if PreReserved a ∨ quotaAnswer a answers = .ok .allowed then
      Succeeds answers (.reconcileJobState .reserved .processing) ∧
        answers .heartbeatReservation = .ok () ∧ answers .commit = .ok ()
    else (∃ r, quotaAnswer a answers = .ok r) ∧ Succeeds answers .transitionFailed

/-- Neither a check before phase 1 nor an exception in it stops the attempt. -/
def GoesOn : Prop :=
  PassesGuards a answers ∧ Succeeds answers .selectJob ∧
    (LockGranted a answers ∧ ClaimGoesOn a answers ∨
      LockRefused a answers ∧
        (0 < a.reservedAcu → Succeeds answers (.bill (.releaseReserved a.reservedAcu))))

end

section
variable {now now' : Time} {job : Job} {a : Attempt}
  {answers : (c : Command) → Except Fault (Answer c)}

theorem map_const_eq_ok {α β : Type} {x : Except Fault α} {b c : β} :
    (x.map fun _ => b) = .ok c ↔ (∃ r, x = .ok r) ∧ b = c := by
  cases x with
  | error e => simp [Except.map]
  | ok r => simp [Except.map]

theorem jobFound_onJob :
    JobFound (onJob now now' job answers) ↔ Succeeds answers .selectJob := by
  show (∃ j, (answers .selectJob).map (fun _ => some job) = .ok (some j)) ↔ _
  simp only [map_const_eq_ok, Succeeds]
  constructor
  · rintro ⟨j, h, -⟩
    exact h
  · intro h
    exact ⟨job, h, rfl⟩

theorem reserved_onJob (hjob : job.current = .completed) :
    (∃ t, onJob now now' job answers (.reconcileJobState .queued .reserved) = .ok t ∧
      t ≠ .inconsistent) ↔ Succeeds answers (.reconcileJobState .queued .reserved) := by
  show (∃ t, (answers (.reconcileJobState .queued .reserved)).map (fun _ => _) = .ok t ∧ _) ↔ _
  rw [reconcileJobState_completed now hjob (by decide) (by decide)]
  simp only [map_const_eq_ok, Succeeds]
  constructor
  · rintro ⟨t, ⟨h, -⟩, -⟩
    exact h
  · intro h
    exact ⟨.ok, ⟨h, rfl⟩, by decide⟩

theorem entersProcessing_onJob (hjob : job.current = .completed) :
    EntersProcessing (onJob now now' job answers) ↔
      Succeeds answers (.reconcileJobState .reserved .processing) ∧
        answers .heartbeatReservation = .ok () ∧ answers .commit = .ok () := by
  refine and_congr ?_ Iff.rfl
  show (∃ t, (answers (.reconcileJobState .reserved .processing)).map (fun _ => _) = .ok t ∧ _) ↔ _
  rw [reconcileJobState_completed now hjob (by decide) (by decide),
    reconcileJobState_completed now' hjob (by decide) (by decide)]
  simp only [map_const_eq_ok, Succeeds]
  constructor
  · rintro ⟨t, ⟨h, -⟩, -⟩
    exact h
  · intro h
    exact ⟨.ok, ⟨h, rfl⟩, by decide⟩

theorem reserveForJob_onJob (hjob : job.current = .completed) :
    (∃ r, (reserveForJob a).result (onJob now now' job answers) = .ok r) ↔
      if PreReserved a ∨ quotaAnswer a answers = .ok .allowed then
        Succeeds answers (.reconcileJobState .reserved .processing) ∧
          answers .heartbeatReservation = .ok () ∧ answers .commit = .ok ()
      else (∃ r, quotaAnswer a answers = .ok r) ∧ Succeeds answers .transitionFailed := by
  rw [reserveForJob_eq]
  by_cases hpre : PreReserved a
  · simp only [hpre, if_true, true_or, enterProcessing_eq_ok, entersProcessing_onJob hjob,
      exists_and_left, exists_eq, and_true]
  rw [if_neg hpre]
  have hquota : onJob now now' job answers (.bill (.checkAndReserve (estimatedCost a))) =
      quotaAnswer a answers := rfl
  have hfailed : onJob now now' job answers .transitionFailed = answers .transitionFailed := rfl
  simp only [hpre, false_or, reserveQuota_eq_ok, hquota, hfailed, entersProcessing_onJob hjob]
  by_cases hallowed : quotaAnswer a answers = .ok .allowed
  · simp [hallowed]
  · simp only [hallowed, false_and, false_or, if_false, Succeeds]
    constructor
    · rintro ⟨r, ⟨d, hd, -⟩, hb, -⟩
      exact ⟨⟨d, hd⟩, hb⟩
    · rintro ⟨⟨d, hd⟩, hb⟩
      exact ⟨_, ⟨d, hd, fun h => hallowed (h ▸ hd)⟩, hb, rfl⟩

theorem entersGateway_onJob (hjob : job.current = .completed) :
    EntersGateway a (onJob now now' job answers) ↔ GoesOn a answers := by
  rw [entersGateway_iff]
  refine and_congr Iff.rfl ?_
  simp only [phase1PreAi_eq_ok, exists_and_left, jobFound_onJob, claimJob_eq_ok,
    reserved_onJob hjob]
  refine and_congr Iff.rfl ?_
  rw [exists_or]
  refine or_congr ?_ ?_
  · simp only [exists_and_left, reserveForJob_onJob hjob]
    exact and_congr Iff.rfl and_assoc
  · simp only [exists_and_left, exists_eq, and_true]
    exact Iff.rfl

/-- An answer is true of the job unless it calls the transition of a completed job redundant,
and an attempt on a completed job runs the AI again unless something stops it before. -/
theorem reconciled_iff (now now' : Time) (expected target : AIProcessingState)
    (found : Option Job) (job : Job) (a : Attempt)
    (answers : (c : Command) → Except Fault (Answer c)) :
    (TellsTruth now expected target found ↔ ¬ SkipsCompleted expected target found) ∧
      (¬ RunsAgain now now' job a answers ↔
        ¬ (job.current = .completed ∧ GoesOn a answers)) := by
  constructor
  · exact tells_iff now expected target found
  · exact not_congr (and_congr_right entersGateway_onJob)

end

def completedJob : Job := ⟨1, 7, some .completed, some 0, none, some 0, none⟩

/-- A redelivered task of a completed job is told `ok` twice and calls the gateway again. -/
theorem completedJob_runsAgain :
    ¬ TellsTruth 60 .queued .reserved (some completedJob) ∧
      RunsAgain 60 60 completedJob attempt fun c => .ok (good c) := by
  constructor
  · rintro ⟨j, hj, hcurrent⟩
    obtain rfl := Option.some.inj hj
    cases hcurrent
  · refine ⟨rfl, (entersGateway_onJob rfl).mpr ⟨?_, ⟨_, rfl⟩, .inl ⟨⟨rfl, rfl⟩, ⟨_, rfl⟩, ?_, ?_⟩⟩⟩
    · exact ⟨by decide, by decide, by decide, rfl, rfl, fun _ => rfl, rfl⟩
    · exact fun h => absurd h (by decide)
    · rw [if_pos (.inr rfl)]
      exact ⟨⟨_, rfl⟩, rfl, rfl⟩

end WorkTicket.Tasks.CompletedJobs
