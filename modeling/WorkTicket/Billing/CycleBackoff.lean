import WorkTicket.Billing.RefusedTransition
import WorkTicket.Billing.StatePath

/-! The backoff of `none → queued` over the life of a job: the counter and its timestamp in the
row, beside the cycles that were really admitted. -/

namespace WorkTicket.Billing.CycleBackoff

open WorkTicket.Transition WorkTicket.Billing.RefusedTransition
open WorkTicket.Billing.StatePath (Writer)

/-- The row of a job with the number of attempts that were admitted since it was last
completed, the time of the last of them, and the time of the latest attempt of all. -/
structure Cycled where
  job : Job
  cycles : ℕ
  admittedAt : Option Time
  attemptedAt : Option Time
  deriving DecidableEq, Repr

/-- A write that tries to queue a job without a state. -/
def attemptTime (j : Job) : Writer → Option Time
  | .transition now target _ _ => if target = .queued ∧ j.current = .none then some now else none
  | _ => none

def isReconcile : Writer → Bool
  | .reconcile _ _ _ => true
  | _ => false

def completes (w : Writer) (j : Job) : Bool :=
  j.current = .processing && (w.apply j).current = .completed

def admits (now : Time) (j : Job) : Bool := (transitionJobState now .queued false none (some j)).1

/-- Attempts come in the order of time. -/
def Cycled.inOrder (s : Cycled) (now : Time) : Bool := s.attemptedAt.all (· ≤ now)

def Cycled.attempt (s : Cycled) (now : Time) (job : Job) : Cycled :=
  if admits now s.job then ⟨job, s.cycles + 1, some now, some now⟩
  else { s with job := job, attemptedAt := some now }

def step (s : Cycled) (w : Writer) : Option Cycled :=
  match attemptTime s.job w with
  | some now => if s.inOrder now then some (s.attempt now (w.apply s.job)) else none
  | none =>
    if w.selects s.job then
      if completes w s.job then some { s with job := w.apply s.job, cycles := 0, admittedAt := none }
      else some { s with job := w.apply s.job }
    else none

/-- A job as it is created, or completed by `transition_job_state`. -/
def start (j : Job) (attemptedAt : Option Time) : Cycled :=
  ⟨{ j with stateCycleCounter := some 0, stateCycleResetAt := none }, 0, none, attemptedAt⟩

/-! ## The rule, and where it is kept -/

/-- One cycle is taken off for every full hour since the last admitted attempt. -/
def Cycled.counted (s : Cycled) (now : Time) : ℤ :=
  s.cycles - ⌊((now - s.admittedAt.getD now : ℚ) / 3600)⌋

def Cycled.mayCycle (s : Cycled) (now : Time) : Prop :=
  s.counted now ≤ 0 ∨
    min (60 * 2 ^ (s.counted now - 1).toNat) 3600 ≤ (now - s.admittedAt.getD now : ℚ)

/-- The next attempt, whenever it comes, is decided by the rule. -/
def KeepsRule (s : Cycled) : Prop :=
  ∀ (now : Time) (heartbeat : Bool) (account : Option BillingAccount),
    s.inOrder now = true → s.job.current = .none →
    ((transitionJobState now .queued heartbeat account (some s.job)).1 = true ↔ s.mayCycle now)

/-- No attempt is made while the backoff blocks it, none after an hour in which a counted
cycle is forgotten, and `_reconcile_job_state` completes no job with counted cycles. -/
def undisturbed (s : Cycled) (w : Writer) : Bool :=
  match attemptTime s.job w with
  | some now => !(countCycle now s.job).2 && (s.job.stateCycleCounter.getD 0 = 0 ||
      now - s.job.stateCycleResetAt.getD now < 3600)
  | none => !(isReconcile w && completes w s.job) || s.job.stateCycleCounter.getD 0 = 0

/-- The row counts the admitted cycles, from the last of them. -/
structure Counts (s : Cycled) : Prop where
  counter : s.job.stateCycleCounter.getD 0 = s.cycles
  idle : s.cycles = 0 → s.admittedAt = none
  since : 0 < s.cycles → ∃ t u, s.admittedAt = some t ∧ s.job.stateCycleResetAt = some t ∧
    s.attemptedAt = some u ∧ t ≤ u

theorem admitted_iff {now : Time} {heartbeat : Bool} {account : Option BillingAccount} {j : Job}
    (hj : j.current = .none) :
    (transitionJobState now .queued heartbeat account (some j)).1 = true ↔
      ¬ InBackoff now .queued j := by
  have hvalid : validateTransition j.current .queued = true := by
    rw [hj]
    rfl
  rw [← countedJob_snd, transitionJobState_some]
  simp only [hvalid, if_true]
  split
  · simp [*]
  · simp [*]

theorem inBackoff_iff {now : Time} {j : Job} (hj : j.current = .none) :
    InBackoff now .queued j ↔ 0 < effectiveCounter now j ∧
      now - j.stateCycleResetAt.getD now < backoffDelay (effectiveCounter now j) := by
  simp [InBackoff, hj]

theorem Counts.keepsRule {s : Cycled} (h : Counts s) : KeepsRule s := by
  intro now heartbeat account horder hcurrent
  rw [admitted_iff hcurrent, inBackoff_iff hcurrent]
  by_cases hcycles : s.cycles = 0
  · have hzero : effectiveCounter now s.job = 0 := by
      simp [effectiveCounter, h.counter, hcycles]
    have hcounted : s.counted now = 0 := by
      simp [Cycled.counted, h.idle hcycles, hcycles]
    exact iff_of_true (by simp [hzero]) (.inl hcounted.le)
  · obtain ⟨t, u, hadmitted, hreset, hattempted, htu⟩ := h.since (Nat.pos_of_ne_zero hcycles)
    have hun : u ≤ now := by simpa [Cycled.inOrder, hattempted] using horder
    have helapsed : (0 : ℚ) ≤ (now - t) / 3600 :=
      div_nonneg (sub_nonneg.mpr (htu.trans hun)) (by norm_num)
    have hfloor : 0 ≤ ⌊((now - t : ℚ) / 3600)⌋ := Int.floor_nonneg.mpr helapsed
    have heffective : effectiveCounter now s.job =
        s.cycles - ⌊((now - t : ℚ) / 3600)⌋.toNat := by
      simp only [effectiveCounter, h.counter, hreset, Option.getD_some, max_eq_right helapsed]
      rfl
    have hcounted : s.counted now = s.cycles - ⌊((now - t : ℚ) / 3600)⌋ := by
      simp only [Cycled.counted, hadmitted, Option.getD_some]
    have hpred : effectiveCounter now s.job - 1 = (s.counted now - 1).toNat := by omega
    have hpos : 0 < effectiveCounter now s.job ↔ ¬ s.counted now ≤ 0 := by omega
    rw [Cycled.mayCycle, backoffDelay, hpred, hpos, hreset, hadmitted, Option.getD_some, not_and_or,
      not_not, not_lt]

/-! ## One write -/

theorem counters_transition (now : Time) (target : AIProcessingState) (heartbeat : Bool)
    (account : Option BillingAccount) (j : Job) :
    ((Writer.transition now target heartbeat account).apply j).stateCycleCounter =
        (countedJob now target j).1.stateCycleCounter ∧
      ((Writer.transition now target heartbeat account).apply j).stateCycleResetAt =
        (countedJob now target j).1.stateCycleResetAt := by
  rw [Writer.apply, transitionJobState_some]
  simp only
  split
  · exact ⟨rfl, rfl⟩
  · split <;> exact ⟨rfl, rfl⟩

theorem counters_reconcile (now : Time) (expected target : AIProcessingState) (j : Job) :
    ((Writer.reconcile now expected target).apply j).stateCycleCounter = j.stateCycleCounter ∧
      ((Writer.reconcile now expected target).apply j).stateCycleResetAt =
        j.stateCycleResetAt := by
  rw [Writer.apply]
  unfold reconcileJobState
  simp only
  split_ifs <;> exact ⟨rfl, rfl⟩

theorem completes_transition {now : Time} {target : AIProcessingState} {heartbeat : Bool}
    {account : Option BillingAccount} {j : Job} :
    completes (.transition now target heartbeat account) j = true ↔
      target = .completed ∧ j.current = .processing := by
  obtain ⟨j', hj', -, hmoved⟩ := transitionJobState_job now target heartbeat account j
  have happly : (Writer.transition now target heartbeat account).apply j = j' := by
    rw [Writer.apply, hj', Option.getD_some]
  simp only [completes, happly, Bool.and_eq_true, decide_eq_true_eq]
  constructor
  · rintro ⟨hprocessing, hcompleted⟩
    obtain ⟨-, -, hcurrent⟩ | ⟨-, hcurrent, -⟩ := hmoved
    · exact ⟨hcurrent.symm.trans hcompleted, hprocessing⟩
    · rw [hcurrent, hprocessing] at hcompleted
      cases hcompleted
  · rintro ⟨rfl, hprocessing⟩
    refine ⟨hprocessing, ?_⟩
    obtain ⟨-, -, hcurrent⟩ | ⟨-, -, hstays⟩ := hmoved
    · exact hcurrent
    · obtain ⟨h, -⟩ := hstays (by rw [hprocessing]; rfl)
      cases h

/-- A write that is no attempt leaves the counter alone, or resets it with the completion. -/
theorem counters_of_no_attempt {w : Writer} {j : Job} (hw : attemptTime j w = none) :
    ((w.apply j).stateCycleCounter = j.stateCycleCounter ∧
        (w.apply j).stateCycleResetAt = j.stateCycleResetAt ∧
        (completes w j = true → isReconcile w = true)) ∨
      (w.apply j).stateCycleCounter = some 0 ∧ completes w j = true := by
  cases w with
  | transition now target heartbeat account =>
    have hqueued : ¬ (target = .queued ∧ j.current = .none) := fun h => by
      rw [attemptTime, if_pos h] at hw
      cases hw
    obtain ⟨hcounter, hreset⟩ := counters_transition now target heartbeat account j
    rw [hcounter, hreset, completes_transition]
    by_cases hcompleted : target = .completed ∧ j.current = .processing
    · right
      obtain ⟨rfl, hprocessing⟩ := hcompleted
      exact ⟨by simp [countedJob, hprocessing], rfl, hprocessing⟩
    · left
      have hsame : (countedJob now target j).1 = j := by
        simp only [countedJob, hcompleted, hqueued, if_false]
      rw [hsame]
      exact ⟨rfl, rfl, fun h => absurd h hcompleted⟩
  | reconcile now expected target =>
    left
    obtain ⟨hcounter, hreset⟩ := counters_reconcile now expected target j
    exact ⟨hcounter, hreset, fun _ => rfl⟩
  | requeue now =>
    left
    exact ⟨rfl, rfl, fun h => by simp [completes, Writer.apply, Job.enter, Job.current] at h⟩

theorem attemptTime_eq_some {j : Job} {w : Writer} {now : Time} (h : attemptTime j w = some now) :
    j.current = .none ∧ (w.apply j).stateCycleCounter = some (effectiveCounter now j + 1) ∧
      (w.apply j).stateCycleResetAt = some now := by
  cases w with
  | transition now' target heartbeat account =>
    rw [attemptTime] at h
    split at h
    · rename_i hattempt
      obtain ⟨rfl, hcurrent⟩ := hattempt
      obtain rfl := Option.some.inj h
      obtain ⟨hcounter, hreset⟩ := counters_transition now' .queued heartbeat account j
      have hcounted : (countedJob now' .queued j).1 = (countCycle now' j).1 := by
        simp [countedJob, hcurrent]
      rw [hcounter, hreset, hcounted]
      exact ⟨hcurrent, rfl, rfl⟩
    · cases h
  | reconcile now' expected target => cases h
  | requeue now' => cases h

theorem Counts.attempt {s : Cycled} {w : Writer} {now : Time} (h : Counts s)
    (hw : attemptTime s.job w = some now) (horder : s.inOrder now = true)
    (hok : undisturbed s w = true) : Counts (s.attempt now (w.apply s.job)) := by
  obtain ⟨hcurrent, hcounter, hreset⟩ := attemptTime_eq_some hw
  simp only [undisturbed, hw, Bool.and_eq_true, Bool.not_eq_true', Bool.or_eq_true,
    decide_eq_true_eq] at hok
  obtain ⟨hfree, hrecent⟩ := hok
  have hcounted : (countedJob now .queued s.job).2 = false := by
    simpa [countedJob, hcurrent] using hfree
  have hadmits : admits now s.job = true :=
    (admitted_iff hcurrent).mpr fun hblocked => by
      rw [← countedJob_snd, hcounted] at hblocked
      cases hblocked
  have heffective : effectiveCounter now s.job = s.cycles := by
    unfold effectiveCounter
    rcases Nat.eq_zero_or_pos s.cycles with hzero | hpos
    · simp [h.counter, hzero]
    · -- less than an hour has passed since the last cycle
      obtain ⟨t, u, -, hsince, hattempted, htu⟩ := h.since hpos
      have hun : u ≤ now := by simpa [Cycled.inOrder, hattempted] using horder
      rw [h.counter, hsince, Option.getD_some] at hrecent
      have hlt := hrecent.resolve_left (Nat.ne_of_gt hpos)
      have hnonneg : (0 : ℚ) ≤ (now - t) / 3600 :=
        div_nonneg (sub_nonneg.mpr (htu.trans hun)) (by norm_num)
      have hlt_one : ((now - t : ℚ) / 3600) < 1 := (div_lt_one (by norm_num)).mpr hlt
      have hfloor : ⌊((now - t : ℚ) / 3600)⌋ = 0 := Int.floor_eq_zero_iff.mpr ⟨hnonneg, hlt_one⟩
      have hrat : Rat.floor ((now - t : ℚ) / 3600) = 0 := hfloor
      simp only [hsince, Option.getD_some, max_eq_right hnonneg, hrat, h.counter]
      rfl
  rw [Cycled.attempt, if_pos hadmits]
  refine ⟨?_, ?_, ?_⟩
  · simp only [hcounter, heffective, Option.getD_some]
  · intro hzero
    cases hzero
  · intro _
    exact ⟨now, now, rfl, hreset, rfl, le_rfl⟩

theorem Counts.other {s : Cycled} {w : Writer} (h : Counts s) (hw : attemptTime s.job w = none)
    (hok : undisturbed s w = true) :
    Counts (if completes w s.job then
      { s with job := w.apply s.job, cycles := 0, admittedAt := none }
      else { s with job := w.apply s.job }) := by
  obtain ⟨hcounter, hreset, hreconcile⟩ | ⟨hcounter, hcompletes⟩ := counters_of_no_attempt hw
  · split
    · rename_i hcompletes
      -- a completion that does not reset the counter
      simp only [undisturbed, hw, hreconcile hcompletes, hcompletes, Bool.and_self, Bool.not_true,
        Bool.false_or, decide_eq_true_eq] at hok
      exact ⟨by rw [hcounter]; exact hok, fun _ => rfl, fun hpos => absurd hpos (Nat.lt_irrefl 0)⟩
    · exact ⟨by rw [hcounter]; exact h.counter, h.idle, by rw [hreset]; exact h.since⟩
  · rw [if_pos hcompletes]
    exact ⟨by rw [hcounter]; rfl, fun _ => rfl, fun hpos => absurd hpos (Nat.lt_irrefl 0)⟩

theorem Counts.step {s s' : Cycled} {w : Writer} (h : Counts s) (hok : undisturbed s w = true)
    (hs : step s w = some s') : Counts s' := by
  unfold CycleBackoff.step at hs
  split at hs
  · rename_i now hw
    split at hs
    · rename_i horder
      obtain rfl := Option.some.inj hs
      exact h.attempt hw horder hok
    · cases hs
  · rename_i hw
    split at hs
    · have hother := h.other hw hok
      split at hs
      · rename_i hcompletes
        rw [if_pos hcompletes] at hother
        obtain rfl := Option.some.inj hs
        exact hother
      · rename_i hcompletes
        rw [if_neg hcompletes] at hother
        obtain rfl := Option.some.inj hs
        exact hother
    · cases hs

theorem counts_start (j : Job) (attemptedAt : Option Time) : Counts (start j attemptedAt) :=
  ⟨rfl, fun _ => rfl, fun h => absurd h (Nat.lt_irrefl 0)⟩

/-- Every attempt is decided by the rule, also the first one that is blocked, as long as the
counting was not disturbed before. -/
theorem keepsRule_of_undisturbed (j : Job) (attemptedAt : Option Time) {s : Cycled}
    (h : ReachedBy step (fun s w => undisturbed s w = true) (start j attemptedAt) s) :
    KeepsRule s := by
  have hcounts : Counts s :=
    h.invariant (counts_start j attemptedAt) fun _ _ _ hi hok hs => hi.step hok hs
  exact hcounts.keepsRule

def newJob : Job := ⟨1, 7, some .none, none, none, none, none⟩

/-- A failed job is compensated, and then without a state again. -/
def fails (now : Time) : List Writer :=
  [.transition now .failed false none, .transition now .compensated false none,
    .transition now .none false none]

def cycleOnce : List Writer := .transition 0 .queued false none :: fails 0

theorem keepsRule_after_cycle :
    ∃ s, runWhile step (fun s w => undisturbed s w = true) (start newJob none) cycleOnce = some s ∧
      KeepsRule s := by
  have hrun : (runWhile step (fun s w => undisturbed s w = true) (start newJob none)
      cycleOnce).isSome := by decide +kernel
  obtain ⟨s, hs⟩ := Option.isSome_iff_exists.mp hrun
  exact ⟨s, hs, keepsRule_of_undisturbed newJob none (.of_runWhile hs)⟩

/-! ## Disturbed runs -/

instance (s : Cycled) (now : Time) : Decidable (s.mayCycle now) :=
  inferInstanceAs (Decidable (_ ∨ _))

def breaksRule (s : Cycled) (now : Time) : Bool :=
  s.inOrder now && s.job.current = .none && admits now s.job != decide (s.mayCycle now)

theorem not_keepsRule {s : Cycled} {now : Time} (h : breaksRule s now = true) :
    ¬ KeepsRule s := by
  simp only [breaksRule, Bool.and_eq_true, decide_eq_true_eq, bne_iff_ne] at h
  obtain ⟨⟨horder, hcurrent⟩, hdiffers⟩ := h
  intro hrule
  apply hdiffers
  rw [Bool.eq_iff_iff, decide_eq_true_iff]
  exact hrule now false none horder hcurrent

def polled : List Writer := cycleOnce ++ [.transition 30 .queued false none]

def rested : List Writer := cycleOnce ++ .transition 3600 .queued false none :: fails 3600

def completedByTask : List Writer :=
  [.transition 0 .queued false none, .reconcile 0 .queued .processing,
    .reconcile 0 .processing .completed, .transition 0 .none false none]

/-- An attempt inside the block prolongs it; a cycle forgotten at an attempt stays forgotten;
and a job that its task completes keeps its cycles. -/
theorem disturbed_breaks_rule :
    ¬ Along step KeepsRule (start newJob none) polled ∧
      ¬ Along step KeepsRule (start newJob none) rested ∧
      ¬ Along step KeepsRule (start newJob none) completedByTask := by
  have hlast : ∀ ws now, ((run step (start newJob none) ws).any (breaksRule · now)) = true →
      ¬ Along step KeepsRule (start newJob none) ws := by
    intro ws now hany halong
    obtain ⟨s, hs, hbreaks⟩ := (Option.any_eq_true _ _).mp hany
    exact not_keepsRule hbreaks (halong.last hs)
  exact ⟨hlast polled 60 (by decide +kernel), hlast rested 3690 (by decide +kernel),
    hlast completedByTask 30 (by decide +kernel)⟩

end WorkTicket.Billing.CycleBackoff
