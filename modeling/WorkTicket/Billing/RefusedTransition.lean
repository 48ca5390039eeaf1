import WorkTicket.Billing.StateMachine

/-! What a call of `transition_job_state` that returns False leaves behind in the row of the
job and in the row of the account. -/

namespace WorkTicket.Billing.RefusedTransition

/-- `transition_job_state` on the rows of the tables. Where the account was not `locked`,
because reading it raised, the call goes on without it. -/
def transitionRows (now : Time) (target : AIProcessingState) (heartbeat locked : Bool)
    (account : Option BillingAccount) (job : Option Job) :
    Bool × Option BillingAccount × Option Job :=
  if locked then transitionJobState now target heartbeat account job
  else
    let r := transitionJobState now target heartbeat none job
    -- `heartbeat_reservation` selects the account again
    (r.1, if heartbeat && r.1 then account.map fun a => { a with reservationHeartbeatAt := some now }
      else account, r.2.2)

section
variable (now : Time) (target : AIProcessingState) (heartbeat locked : Bool)
  (account : Option BillingAccount) (job : Option Job)

def RefusesWithoutEffect : Prop :=
  (transitionRows now target heartbeat locked account job).1 = false →
    (transitionRows now target heartbeat locked account job).2 = (account, job)

/-- The delay of the cycles that are still counted has not passed. -/
def InBackoff (j : Job) : Prop :=
  target = .queued ∧ j.current = .none ∧ 0 < effectiveCounter now j ∧
    now - j.stateCycleResetAt.getD now < backoffDelay (effectiveCounter now j)

def JobInBackoff : Prop := ∃ j, job = some j ∧ InBackoff now target j

def Admissible : Prop :=
  ∃ j, job = some j ∧ validateTransition j.current target = true ∧ ¬ InBackoff now target j

def LosesHeartbeat : Prop :=
  locked = true ∧ ∃ a t, account = some a ∧ a.reservationHeartbeatAt = some t

end

section
variable {now : Time} {target : AIProcessingState} {heartbeat locked : Bool}
  {account : Option BillingAccount} {job : Option Job} {j : Job}

theorem countedJob_snd : (countedJob now target j).2 = true ↔ InBackoff now target j := by
  unfold countedJob InBackoff
  by_cases hcount : target = .queued ∧ j.current = .none
  · obtain ⟨rfl, hcurrent⟩ := hcount
    simp [hcurrent, countCycle]
  · simp only [hcount, if_false, Bool.false_eq_true, false_iff]
    exact fun h => hcount ⟨h.1, h.2.1⟩

/-- Only edges of the table touch the counter. -/
theorem countedJob_of_invalid (h : validateTransition j.current target = false) :
    (countedJob now target j).1 = j := by
  have hcompleted : ¬ (target = .completed ∧ j.current = .processing) := by
    rintro ⟨rfl, hcurrent⟩
    rw [hcurrent] at h
    cases h
  have hqueued : ¬ (target = .queued ∧ j.current = .none) := by
    rintro ⟨rfl, hcurrent⟩
    rw [hcurrent] at h
    cases h
  simp only [countedJob, hcompleted, hqueued, if_false]

theorem effectiveCounter_self (h : j.stateCycleResetAt = some now) :
    effectiveCounter now j = j.stateCycleCounter.getD 0 := by
  have hfloor : Rat.floor 0 = 0 := rfl
  simp [effectiveCounter, h, hfloor]

/-- The cycle of a blocked transition is counted although the job stays where it is. -/
theorem countedJob_of_inBackoff (h : InBackoff now target j) : (countedJob now target j).1 ≠ j := by
  obtain ⟨rfl, hcurrent, -⟩ := h
  intro hsame
  have hcounted : (countedJob now .queued j).1 = (countCycle now j).1 := by
    simp [countedJob, hcurrent]
  rw [hcounted] at hsame
  have hcounter : some (effectiveCounter now j + 1) = j.stateCycleCounter :=
    congrArg Job.stateCycleCounter hsame
  have hreset : some now = j.stateCycleResetAt := congrArg Job.stateCycleResetAt hsame
  have heffective := effectiveCounter_self hreset.symm
  rw [← hcounter] at heffective
  exact Nat.ne_of_lt (Nat.lt_succ_self _) heffective

theorem refused_iff : (transitionRows now target heartbeat locked account job).1 = false ↔
    ¬ Admissible now target job := by
  have hjob : ∀ acct, (transitionJobState now target heartbeat acct job).1 = false ↔
      ¬ Admissible now target job := by
    intro acct
    cases job with
    | none => simp [transitionJobState, Admissible]
    | some j =>
      simp only [Admissible, Option.some.injEq, exists_eq_left']
      rw [transitionJobState_some, ← countedJob_snd]
      simp only
      split
      · simp [*]
      · split <;> simp [*]
  unfold transitionRows
  split
  · exact hjob account
  · exact hjob none

theorem job_of_refused (hrefused : ¬ Admissible now target job) :
    (transitionRows now target heartbeat locked account job).2.2 = job ↔
      ¬ JobInBackoff now target job := by
  have hjob : ∀ acct, (transitionJobState now target heartbeat acct job).2.2 = job ↔
      ¬ JobInBackoff now target job := by
    intro acct
    cases job with
    | none => simp [transitionJobState, JobInBackoff]
    | some j =>
      simp only [Admissible, JobInBackoff, Option.some.injEq, exists_eq_left'] at hrefused ⊢
      have hkept : (transitionJobState now target heartbeat acct (some j)).2.2 =
          some (countedJob now target j).1 := by
        rw [transitionJobState_some]
        simp only
        split
        · rfl
        · rename_i hfree
          rw [countedJob_snd] at hfree
          rw [if_neg fun hvalid => hrefused ⟨hvalid, hfree⟩]
      rw [hkept]
      constructor
      · intro hsame hbackoff
        exact countedJob_of_inBackoff hbackoff (Option.some.inj hsame)
      · intro hfree
        refine congrArg some (countedJob_of_invalid ?_)
        by_contra hvalid
        exact hrefused ⟨eq_true_of_ne_false hvalid, hfree⟩
  unfold transitionRows
  split
  · exact hjob account
  · exact hjob none

theorem clearHeartbeat_eq {a : BillingAccount} :
    { a with reservationHeartbeatAt := none } = a ↔ a.reservationHeartbeatAt = none := by
  constructor
  · intro h
    exact (congrArg BillingAccount.reservationHeartbeatAt h).symm
  · intro h
    rw [← h]

theorem losesHeartbeat_some {a : BillingAccount} :
    LosesHeartbeat true (some a) ↔ a.reservationHeartbeatAt ≠ none := by
  simp [LosesHeartbeat, Option.ne_none_iff_exists']

theorem account_of_refused
    (hrefused : (transitionRows now target heartbeat locked account job).1 = false) :
    (transitionRows now target heartbeat locked account job).2.1 = account ↔
      ¬ LosesHeartbeat locked account := by
  unfold transitionRows at *
  cases locked with
  | false =>
    simp only [Bool.false_eq_true, if_false] at hrefused ⊢
    simp [hrefused, LosesHeartbeat]
  | true =>
    simp only [if_true] at hrefused ⊢
    rw [transitionJobState_account, hrefused]
    cases account with
    | none => simp [LosesHeartbeat]
    | some a =>
      rw [losesHeartbeat_some, not_ne_iff, ← clearHeartbeat_eq]
      simp only [Bool.and_false, Bool.false_eq_true, if_false, Option.map_some, Option.some.injEq]

/-- A refusal is without effect exactly if no backoff blocked the transition and there was no
heartbeat to clear. -/
theorem refusesWithoutEffect_iff (now : Time) (target : AIProcessingState)
    (heartbeat locked : Bool) (account : Option BillingAccount) (job : Option Job) :
    RefusesWithoutEffect now target heartbeat locked account job ↔
      Admissible now target job ∨
        (¬ JobInBackoff now target job ∧ ¬ LosesHeartbeat locked account) := by
  unfold RefusesWithoutEffect
  by_cases hadmissible : Admissible now target job
  · refine iff_of_true ?_ (.inl hadmissible)
    intro hrefused
    exact absurd hadmissible (refused_iff.mp hrefused)
  · have hrefused : (transitionRows now target heartbeat locked account job).1 = false :=
      refused_iff.mpr hadmissible
    rw [or_iff_right hadmissible, ← job_of_refused hadmissible, ← account_of_refused hrefused,
      Prod.ext_iff]
    constructor
    · intro h
      obtain ⟨haccount, hjob⟩ := h hrefused
      exact ⟨hjob, haccount⟩
    · rintro ⟨hjob, haccount⟩ -
      exact ⟨haccount, hjob⟩

end

def beatingAccount : BillingAccount :=
  ⟨7, some "free", 50, 0, 1, 0, none, false, none, some 30, none, none, none, 1⟩

def doneJob : Job := ⟨1, 7, some .completed, some 0, none, some 0, none⟩

def cycledJob : Job := ⟨1, 7, some .none, some 0, none, some 1, some 30⟩

/-- A refused repetition of a finished job clears the heartbeat of the company's other job, and
one that a backoff blocks counts a further cycle. -/
theorem refused_leaves_traces :
    ¬ RefusesWithoutEffect 60 .queued false true (some beatingAccount) (some doneJob) ∧
      ¬ RefusesWithoutEffect 60 .queued false true none (some cycledJob) := by
  constructor
  · intro h
    have hsame := congrArg Prod.fst (h (by decide))
    exact absurd hsame (by decide)
  · intro h
    have hsame := congrArg Prod.snd (h (by decide +kernel))
    exact absurd hsame (by decide +kernel)

end WorkTicket.Billing.RefusedTransition
