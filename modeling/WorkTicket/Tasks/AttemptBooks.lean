import WorkTicket.Tasks.JobTask

/-! What one attempt of `process_job_task` reserves and subtracts, followed through its
program: with the answers it may expect, every reservation it commits is subtracted exactly
once by the time it ends. -/

namespace WorkTicket.Tasks.AttemptBooks

open WorkTicket.Billing WorkTicket.Billing.ConcurrentCalls WorkTicket.Tasks.JobTask
open Program hiding ask

/-- The amounts of an attempt, and those its open transaction will commit. -/
structure Books where
  reserved : List ℚ
  subtracted : List ℚ
  openReserved : List ℚ
  openSubtracted : List ℚ
  deriving DecidableEq, Repr

namespace Books

def empty : Books := ⟨[], [], [], []⟩

def outstanding (b : Books) : ℚ := b.reserved.sum - b.subtracted.sum

/-- What the open transaction adds to the reserved balance. -/
def change (b : Books) : ℚ := b.openReserved.sum - b.openSubtracted.sum

def held (b : Books) : ℚ := b.outstanding + b.change

def commit (b : Books) : Books :=
  ⟨b.reserved ++ b.openReserved, b.subtracted ++ b.openSubtracted, [], []⟩

def close (b : Books) : Books := { b with openReserved := [], openSubtracted := [] }

def reserve (b : Books) (acu : ℚ) : Books := { b with openReserved := b.openReserved ++ [acu] }

def subtract (b : Books) (acu : ℚ) : Books :=
  { b with openSubtracted := b.openSubtracted ++ [acu] }

/-- No reservation was subtracted twice, and nothing that was not reserved; reservations
and subtractions of nothing do not count. -/
def NeverTwice (b : Books) : Prop :=
  b.subtracted.filter (0 < ·) <+: b.reserved.filter (0 < ·)

/-- No transaction is open, and every reservation was subtracted except one of `acu`. -/
structure Owes (acu : ℚ) (b : Books) : Prop where
  closed : b.close = b
  reserved : b.reserved.filter (0 < ·) = b.subtracted.filter (0 < ·) ++ [acu].filter (0 < ·)
  outstanding : b.outstanding = acu
  nonneg : 0 ≤ acu

@[simp] theorem outstanding_reserve (b : Books) (acu : ℚ) :
    (b.reserve acu).outstanding = b.outstanding := rfl

@[simp] theorem outstanding_subtract (b : Books) (acu : ℚ) :
    (b.subtract acu).outstanding = b.outstanding := rfl

@[simp] theorem outstanding_close (b : Books) : b.close.outstanding = b.outstanding := rfl

@[simp] theorem outstanding_commit (b : Books) : b.commit.outstanding = b.held := by
  simp only [outstanding, commit, held, change, List.sum_append]
  ring

@[simp] theorem change_reserve (b : Books) (acu : ℚ) :
    (b.reserve acu).change = b.change + acu := by
  simp only [change, reserve, List.sum_append, List.sum_singleton]
  ring

@[simp] theorem change_subtract (b : Books) (acu : ℚ) :
    (b.subtract acu).change = b.change - acu := by
  simp only [change, subtract, List.sum_append, List.sum_singleton]
  ring

@[simp] theorem change_close (b : Books) : b.close.change = 0 := by simp [change, close]

@[simp] theorem change_commit (b : Books) : b.commit.change = 0 := by simp [change, commit]

@[simp] theorem close_reserve (b : Books) (acu : ℚ) : (b.reserve acu).close = b.close := rfl

@[simp] theorem close_subtract (b : Books) (acu : ℚ) : (b.subtract acu).close = b.close := rfl

theorem owes_empty : Owes 0 empty :=
  ⟨rfl, by simp [empty], by simp [empty, outstanding], le_rfl⟩

section
variable {acu : ℚ} {b : Books}

theorem Owes.change (h : Owes acu b) : b.change = 0 := by
  rw [← h.closed, change_close]

theorem Owes.held (h : Owes acu b) : b.held = acu := by
  rw [Books.held, h.outstanding, h.change, add_zero]

theorem Owes.commit (h : Owes acu b) : b.commit = b := by
  obtain ⟨r, t, openR, openT⟩ := b
  obtain ⟨-, -, rfl, rfl⟩ := Books.mk.inj h.closed
  simp [Books.commit]

theorem Owes.reserve (h : Owes 0 b) (hacu : 0 ≤ acu) : Owes acu (b.reserve acu).commit where
  closed := rfl
  reserved := by
    have hsame : b.reserved.filter (0 < ·) = b.subtracted.filter (0 < ·) := by
      simpa using h.reserved
    rw [← h.closed]
    simp only [Books.reserve, Books.commit, close, List.nil_append, List.append_nil,
      List.filter_append, hsame]
  outstanding := by simp [Books.held, h.outstanding, h.change]
  nonneg := hacu

theorem Owes.subtract (h : Owes acu b) : Owes 0 (b.subtract acu).commit where
  closed := rfl
  reserved := by
    rw [← h.closed]
    simpa [Books.subtract, Books.commit, close, List.filter_append] using h.reserved
  outstanding := by simp [Books.held, h.outstanding, h.change]
  nonneg := le_rfl

theorem Owes.neverTwice (h : Owes acu b) : b.NeverTwice := ⟨_, h.reserved.symm⟩

end

end Books

def Books.after (b : Books) : (c : Command) → Except Fault (Answer c) → Books
  | .bill (.checkAndReserve cost), .ok .allowed => b.reserve (costAcu cost)
  | .bill (.releaseReserved acu), .ok .returned => b.subtract acu
  | .bill (.reconcileCost _ r), .ok (.reconciled .reconciled true) => b.subtract r.reservedAcu
  | .commit, .ok _ => b.commit
  | .close, _ => b.close
  | _, _ => b

/-- Whether the open transaction is aborted after an answer: the database refuses what
follows a failed statement. -/
def abortedAfter (aborted : Bool) : (c : Command) → Except Fault (Answer c) → Bool
  | .close, _ => false
  | _, .ok _ => aborted
  | _, .error f => aborted || f.isDatabase

abbrev Standing := Books × Bool

def needs (s : Standing) : Command → Prop
  | .bill (.checkAndReserve cost) => 0 ≤ cost
  | .bill (.releaseReserved acu) => 0 ≤ acu ∧ acu ≤ s.1.held
  | .bill (.reconcileCost _ r) =>
    0 ≤ r.reservedAcu ∧ r.reservedAcu ≤ s.1.held ∧ r.reservedAcu ≤ s.1.outstanding
  | .bill (.grantCredit _ _ _) => True
  | .bill _ => False
  | .commit => s.1.commit.NeverTwice
  | _ => True

/-- As long as an attempt has something reserved, its output is accepted, its reconciliation
settles or its transaction is aborted, and its release does not come to the credit. -/
def expects (s : Standing) : (c : Command) → Except Fault (Answer c) → Prop
  | .bill (.releaseReserved _), .ok r => r = .returned
  | .bill (.reconcileCost _ _), .ok r => r = .reconciled .reconciled true ∨ s.1.outstanding = 0
  | .bill (.reconcileCost _ _), .error f => f.isDatabase ∨ s.1.outstanding = 0
  | .bill (.grantCredit _ _ _), _ => s.1.outstanding = 0
  | .processJob, .ok output => output.accepted ∨ s.1.outstanding = 0
  | .commit, .ok _ => s.2 = false
  | _, _ => True

def ghost : Ghost Standing Answer Fault where
  needs := needs
  expects := expects
  after := fun s c r => (s.1.after c r, abortedAfter s.2 c r)

theorem costAcu_nonneg {cost : ℚ} (h : 0 ≤ cost) : 0 ≤ costAcu cost :=
  div_nonneg h (by norm_num [acuToUsd])

theorem after_sound {b : Books} {aborted : Bool} {c : Command} (hneeds : needs (b, aborted) c)
    (hout : 0 ≤ b.outstanding) (hheld : 0 ≤ b.held) (hnever : b.NeverTwice)
    (r : Except Fault (Answer c)) : 0 ≤ (b.after c r).outstanding ∧ 0 ≤ (b.after c r).held ∧
      (b.after c r).NeverTwice := by
  have hclose : b.close.held = b.outstanding := by simp [Books.held]
  unfold Books.after
  split
  · rename_i cost
    refine ⟨hout, ?_, hnever⟩
    rw [Books.held, Books.outstanding_reserve, Books.change_reserve, ← add_assoc]
    exact add_nonneg hheld (costAcu_nonneg hneeds)
  · rename_i acu
    refine ⟨hout, ?_, hnever⟩
    obtain ⟨-, hle⟩ := hneeds
    rw [Books.held, Books.outstanding_subtract, Books.change_subtract, ← add_sub_assoc]
    exact sub_nonneg.mpr hle
  · rename_i jobId r
    refine ⟨hout, ?_, hnever⟩
    obtain ⟨-, hle, -⟩ := hneeds
    rw [Books.held, Books.outstanding_subtract, Books.change_subtract, ← add_sub_assoc]
    exact sub_nonneg.mpr hle
  · refine ⟨?_, ?_, hneeds⟩
    · rwa [Books.outstanding_commit]
    · rwa [Books.held, Books.outstanding_commit, Books.change_commit, add_zero]
  · exact ⟨hout, hclose ▸ hout, hnever⟩
  · exact ⟨hout, hheld, hnever⟩

/-! ## Pieces of the program -/

def Neutral : Command → Prop
  | .bill _ | .commit | .close => False
  | _ => True

theorem after_neutral {b : Books} {c : Command} (hc : Neutral c) (r : Except Fault (Answer c)) :
    b.after c r = b := by
  cases c <;> first | rfl | exact hc.elim

theorem after_error {b : Books} {c : Command} (hc : c ≠ .close) (f : Fault) :
    b.after c (.error f) = b := by
  cases c with
  | bill c => cases c <;> rfl
  | close => exact absurd rfl hc
  | _ => rfl

theorem needs_neutral {s : Standing} {c : Command} (hc : Neutral c) : needs s c := by
  cases c <;> first | exact trivial | exact hc.elim

theorem aborted_neutral {aborted : Bool} {c : Command} (hc : Neutral c)
    (r : Except Fault (Answer c)) (h : aborted = true) : abortedAfter aborted c r = true := by
  subst h
  cases c <;> cases r <;> first | rfl | exact hc.elim

/-- Neutral commands leave the books as they are and an aborted transaction aborted. -/
theorem wp_neutral {α : Type} {p : Prog α} (hp : p.CallsOnly Neutral)
    {Q : Except Fault α → Standing → Prop} {b : Books} {aborted : Bool}
    (hQ : ∀ r ab, (aborted = true → ab = true) → Q r (b, ab)) : wp ghost p Q (b, aborted) := by
  induction p generalizing aborted with
  | ret a => exact hQ _ _ id
  | raise e => exact hQ _ _ id
  | call c next ih =>
    refine ⟨needs_neutral hp.1, fun r _ => ?_⟩
    show wp ghost (next r) Q (b.after c r, abortedAfter aborted c r)
    rw [after_neutral hp.1]
    exact ih r (hp.2 r) fun r' ab hab => hQ r' ab fun h => hab (aborted_neutral hp.1 r h)

theorem wp_neutral_bind {α β : Type} {p : Prog α} {f : α → Prog β} (hp : p.CallsOnly Neutral)
    {Q : Except Fault β → Standing → Prop} {b : Books} {aborted : Bool}
    (herror : ∀ e ab, Q (.error e) (b, ab))
    (hok : ∀ a ab, (aborted = true → ab = true) → wp ghost (f a) Q (b, ab)) :
    wp ghost (p >>= f) Q (b, aborted) := by
  rw [wp_bind]
  refine wp_neutral hp fun r ab hab => ?_
  cases r with
  | ok a => exact hok a ab hab
  | error e => exact herror e ab

theorem wp_session {α : Type} {body : Prog α} {Q : Except Fault (Except Fault α) → Standing → Prop}
    {s : Standing} (h : wp ghost body (fun r s' => Q (.ok r) (s'.1.close, false)) s) :
    wp ghost (session body) Q s := by
  unfold session
  rw [wp_bind, wp_outcome]
  refine wp_mono h fun r s' hr => ?_
  simp only [wp_bind, wp_outcome, wp_ask]
  refine ⟨trivial, fun _ _ => ?_⟩
  exact hr

/-! ## Releasing -/

section
variable {a : Attempt} {acu : ℚ} {b : Books}

/-- A release subtracts what is owed in one of its tries, or there is nothing to credit. -/
theorem wp_releaseReservationWithRetry {tries : ℕ} {lastErr : Option Fault} {aborted : Bool}
    (h : b.Owes acu) : wp ghost (releaseReservationWithRetry a acu tries lastErr)
      (fun r s => r = .ok () ∧ s.1.Owes 0) (b, aborted) := by
  induction tries generalizing lastErr aborted with
  | zero =>
    rw [releaseReservationWithRetry, wp_bind]
    refine wp_session ?_
    simp only [wp_bind, wp_ask, wp_pure]
    refine ⟨trivial, fun r hr => ?_⟩
    obtain rfl : acu = 0 := h.outstanding.symm.trans hr
    cases r with
    | error e =>
      show _ ∧ b.close.Owes 0
      exact ⟨trivial, h.closed.symm ▸ h⟩
    | ok report =>
      refine ⟨?_, fun r' _ => ?_⟩
      · show b.commit.NeverTwice
        rw [h.commit]
        exact h.neverTwice
      · cases r' with
        | ok u =>
          show _ ∧ b.commit.close.Owes 0
          rw [h.commit, h.closed]
          exact ⟨trivial, h⟩
        | error e =>
          show _ ∧ b.close.Owes 0
          rw [h.closed]
          exact ⟨trivial, h⟩
  | succ tries ih =>
    rw [releaseReservationWithRetry, wp_bind]
    refine wp_session ?_
    simp only [releaseIn, wp_bind, wp_ask, wp_pure]
    refine ⟨⟨h.nonneg, h.held.ge⟩, fun r hr => ?_⟩
    cases r with
    | error e =>
      show wp ghost _ _ (b.close, false)
      rw [h.closed]
      exact ih
    | ok report =>
      obtain rfl : report = .returned := hr
      refine ⟨h.subtract.neverTwice, fun r' _ => ?_⟩
      cases r' with
      | ok u =>
        show _ ∧ (b.subtract acu).commit.close.Owes 0
        rw [h.subtract.closed]
        exact ⟨rfl, h.subtract⟩
      | error e =>
        show wp ghost _ _ ((b.subtract acu).close, false)
        rw [Books.close_subtract, h.closed]
        exact ih

theorem deleteLock_neutral : deleteLock.CallsOnly Neutral :=
  deleteLock_calls.mono fun _ hc => hc ▸ trivial

theorem wp_onFailure {l : Locals} {e : Fault} {aborted : Bool} (h : b.Owes l.reservedAcu) :
    wp ghost (onFailure a l e) (fun _ s => s.1.Owes 0) (b, aborted) := by
  have hend : ∀ (b : Books) (aborted : Bool), b.Owes 0 →
      wp ghost (onlyIf l.redisLock deleteLock >>= fun _ => (raise e : Prog Unit))
        (fun _ s => s.1.Owes 0) (b, aborted) := fun b aborted hb =>
    wp_neutral_bind (CallsOnly.onlyIf deleteLock_neutral) (fun _ _ => hb) fun _ _ _ => hb
  unfold onFailure
  rw [wp_bind]
  unfold Program.onlyIf
  split
  · refine wp_mono (wp_releaseReservationWithRetry h) fun r s hr => ?_
    obtain ⟨rfl, hs⟩ := hr
    exact hend s.1 s.2 hs
  · rename_i hnot
    have hzero : l.reservedAcu = 0 := le_antisymm (not_lt.mp hnot) h.nonneg
    exact hend b aborted (hzero ▸ h)

/-! ## Phases 1 to 3 -/

theorem wp_complete {l : Locals} {aborted : Bool} (hclose : b.close.Owes acu)
    (hnever : b.commit.NeverTwice) (hcommit : aborted = false → b.commit.Owes 0) :
    wp ghost (do
      let _ ← ask (.reconcileJobState .processing .completed)
      Program.onlyIf l.redisLock deleteLock
      ask .commit) (fun r s => match r with
        | .ok () => s.1.close.Owes 0
        | .error _ => s.1.close.Owes acu) (b, aborted) := by
  refine wp_neutral_bind (callsOnly_ask.mpr (by trivial)) (fun _ _ => hclose) fun _ ab hab => ?_
  refine wp_neutral_bind (CallsOnly.onlyIf deleteLock_neutral) (fun _ _ => hclose)
    fun _ ab' hab' => ?_
  rw [wp_ask]
  refine ⟨hnever, fun r hr => ?_⟩
  cases r with
  | error e => exact hclose
  | ok u =>
    -- a commit takes effect only in a transaction that was not aborted
    have hfalse : aborted = false := by
      by_contra hne
      have hab'' : ab' = true := hab' (hab (by simpa using hne))
      exact Bool.false_ne_true (hr.symm.trans hab'')
    show b.commit.close.Owes 0
    rw [(hcommit hfalse).closed]
    exact hcommit hfalse

theorem after_reconcileCost {jobId : JobId} {r : Reconciliation} {report : Report}
    (h : report ≠ .reconciled .reconciled true) :
    b.after (.bill (.reconcileCost jobId r)) (.ok report) = b := by
  cases report with
  | reconciled answer first =>
    cases answer with
    | reconciled =>
      cases first with
      | true => exact absurd rfl h
      | false => rfl
    | _ => rfl
  | _ => rfl

/-- Phase 3 settles what is owed when its commit takes effect, and nothing otherwise. -/
theorem wp_phase3PostAi {l : Locals} {output : GatewayOutput} {aborted : Bool}
    (h : b.Owes l.reservedAcu) : wp ghost (phase3PostAi a l output) (fun r s => match r with
      | .ok (.ok ()) => s.1.Owes 0
      | _ => s.1.Owes l.reservedAcu) (b, aborted) := by
  have hsame : b.close.Owes l.reservedAcu := h.closed.symm ▸ h
  unfold phase3PostAi
  refine wp_session ?_
  refine wp_neutral_bind (callsOnly_ask.mpr (by trivial)) (fun _ _ => hsame) fun job _ _ => ?_
  refine wp_neutral_bind callsOnly_raiseIf (fun _ _ => hsame) fun _ _ _ => ?_
  refine wp_neutral_bind (callsOnly_ask.mpr (by trivial)) (fun _ _ => hsame) fun _ _ _ => ?_
  refine wp_neutral_bind (callsOnly_ask.mpr (by trivial)) (fun _ _ => hsame)
    fun inserted _ _ => ?_
  refine wp_neutral_bind (CallsOnly.onlyIf (callsOnly_ask.mpr (by trivial))) (fun _ _ => hsame)
    fun _ ab _ => ?_
  rw [wp_bind, wp_outcome, wp_ask]
  refine ⟨⟨h.nonneg, h.held.ge, h.outstanding.ge⟩, fun r hr => ?_⟩
  -- without anything owed the books are closed whatever the reconciliation answers
  have hzero : b.outstanding = 0 → b.commit.Owes 0 := fun h0 => by
    rw [h.commit, ← h0, h.outstanding]
    exact h
  have hsubtract : (b.subtract l.reservedAcu).close.Owes l.reservedAcu := hsame
  have hnever : b.commit.NeverTwice := by
    rw [h.commit]
    exact h.neverTwice
  have hcomplete : wp ghost (do
      let _ ← ask (.reconcileJobState .processing .completed)
      Program.onlyIf l.redisLock deleteLock
      ask .commit) (fun r s => match r with
        | .ok () => s.1.close.Owes 0
        | .error _ => s.1.close.Owes l.reservedAcu)
      (ghost.after (b, ab) (.bill (.reconcileCost a.jobId (settlement a l output !inserted))) r) := by
    cases r with
    | error f =>
      refine wp_complete hsame hnever fun hfalse => hzero ?_
      exact hr.resolve_left fun hdb => by simp [abortedAfter, hdb] at hfalse
    | ok report =>
      by_cases hreport : report = .reconciled .reconciled true
      · subst hreport
        exact wp_complete hsubtract h.subtract.neverTwice fun _ => h.subtract
      · show wp ghost _ _ (b.after _ _, ab)
        rw [after_reconcileCost hreport]
        exact wp_complete hsame hnever fun _ => hzero (hr.resolve_left hreport)
  refine wp_mono hcomplete fun r s hr => ?_
  cases r with
  | ok u => exact hr
  | error e => exact hr

theorem wp_afterGateway {l : Locals} {output : Option GatewayOutput} {aborted : Bool}
    (h : b.Owes l.reservedAcu) (hnone : output = none → l.reservedAcu = 0) :
    wp ghost (afterGateway a l output) (fun r s => match r with
      | .ok () => s.1.Owes 0
      | .error _ => s.1.Owes l.reservedAcu) (b, aborted) := by
  cases output with
  | none =>
    unfold afterGateway
    rw [wp_bind]
    refine wp_mono (wp_releaseReservationWithRetry h) fun r s hr => ?_
    obtain ⟨rfl, hs⟩ := hr
    show s.1.Owes l.reservedAcu
    rw [hnone rfl]
    exact hs
  | some output =>
    unfold afterGateway
    rw [wp_bind]
    refine wp_mono (wp_phase3PostAi h) fun r s hr => ?_
    cases r with
    | error e => exact hr
    | ok r =>
      cases r with
      | ok u => exact hr
      | error e => exact hr

theorem wp_gatewayAndAfter {l : Locals} {aborted : Bool} (h : b.Owes l.reservedAcu) :
    wp ghost (gatewayAndAfter a l) (fun r s => match r with
      | .ok () => s.1.Owes 0
      | .error _ => s.1.Owes l.reservedAcu) (b, aborted) := by
  unfold gatewayAndAfter phase2AiGateway
  simp only [wp_bind, wp_ask, wp_pure]
  refine ⟨trivial, fun r hr => ?_⟩
  cases r with
  | error e => exact h
  | ok output =>
    refine wp_afterGateway h fun hnone => ?_
    rcases hr with haccepted | hzero
    · simp [haccepted] at hnone
    · exact h.outstanding.symm.trans hzero

/-! ## Phase 1 -/

/-- How phase 1 leaves the books: with a tuple whose reservation is owed once the session is
closed, or with nothing owed. -/
def Phase1Post (r : Except Fault Phase1Result) (s : Standing) : Prop :=
  match r with
  | .ok r => ∃ slot l, r = .tuple slot l ∧ s.1.close.Owes l.reservedAcu
  | .error _ => s.1.close.Owes 0

theorem wp_enterProcessing {estimatedCostUsd : ℚ} {aborted : Bool} (h : b.Owes 0)
    (hacu : 0 ≤ acu) :
    wp ghost (enterProcessing a estimatedCostUsd acu) Phase1Post (b.reserve acu, aborted) := by
  have hclose : (b.reserve acu).close.Owes 0 := by
    rw [Books.close_reserve, h.closed]
    exact h
  unfold enterProcessing
  refine wp_neutral_bind (callsOnly_ask.mpr (by trivial)) (fun _ _ => hclose) fun _ _ _ => ?_
  refine wp_neutral_bind callsOnly_raiseIf (fun _ _ => hclose) fun _ _ _ => ?_
  refine wp_neutral_bind (callsOnly_ask.mpr (by trivial)) (fun _ _ => hclose) fun _ _ _ => ?_
  simp only [wp_bind, wp_ask, wp_pure]
  refine ⟨(h.reserve hacu).neverTwice, fun r _ => ?_⟩
  cases r with
  | error e => exact hclose
  | ok u =>
    refine ⟨_, _, rfl, ?_⟩
    show (b.reserve acu).commit.close.Owes acu
    rw [(h.reserve hacu).closed]
    exact h.reserve hacu

theorem after_checkAndReserve {cost : ℚ} {report : Report} (h : report ≠ .allowed) :
    b.after (.bill (.checkAndReserve cost)) (.ok report) = b := by
  cases report with
  | allowed => exact absurd rfl h
  | _ => rfl

theorem wp_reserveQuota {cost : ℚ} {aborted : Bool} (h : b.Owes 0) (ha : a.reservedAcu = 0)
    (hcost : 0 ≤ cost) : wp ghost (reserveQuota a cost) Phase1Post (b, aborted) := by
  have hclose : b.close.Owes 0 := h.closed.symm ▸ h
  unfold reserveQuota
  rw [wp_bind, wp_ask]
  refine ⟨hcost, fun r _ => ?_⟩
  cases r with
  | error e => exact hclose
  | ok report =>
    show wp ghost (if report = .allowed then _ else _) Phase1Post (b.after _ _, _)
    by_cases hallowed : report = .allowed
    · subst hallowed
      exact wp_enterProcessing h (costAcu_nonneg hcost)
    · rw [if_neg hallowed, after_checkAndReserve hallowed]
      refine wp_neutral_bind (callsOnly_ask.mpr (by trivial)) (fun _ _ => hclose) fun _ _ _ => ?_
      refine ⟨_, _, rfl, ?_⟩
      rw [ha]
      exact hclose

theorem estimateJobCost_nonneg (imageCount : ℕ) (hasAudio : Bool) :
    0 ≤ estimateJobCost imageCount hasAudio := by
  unfold estimateJobCost
  positivity

theorem wp_reserveForJob {aborted : Bool} (h : b.Owes 0) (ha : a.reservedAcu = 0)
    (hcost : 0 ≤ a.estimatedCostUsd) : wp ghost (reserveForJob a) Phase1Post (b, aborted) := by
  unfold reserveForJob
  split
  · rw [if_neg (by simp [ha])]
    exact wp_reserveQuota h ha hcost
  · exact wp_reserveQuota h ha (estimateJobCost_nonneg _ _)

theorem acquireLock_neutral : (acquireLock a).CallsOnly Neutral := by
  refine acquireLock_calls.mono fun c hc => ?_
  simp only [List.mem_cons, List.not_mem_nil, or_false] at hc
  rcases hc with rfl | rfl | rfl | rfl | rfl | rfl <;> trivial

theorem guards_neutral : (guards a).CallsOnly Neutral := by
  refine guards_calls.mono fun c hc => ?_
  simp only [List.mem_cons, List.not_mem_nil, or_false] at hc
  rcases hc with rfl | rfl | rfl | rfl <;> trivial

theorem wp_phase1PreAi {aborted : Bool} (h : b.Owes 0) (ha : a.reservedAcu = 0)
    (hcost : 0 ≤ a.estimatedCostUsd) : wp ghost (phase1PreAi a) Phase1Post (b, aborted) := by
  have hclose : b.close.Owes 0 := h.closed.symm ▸ h
  unfold phase1PreAi
  refine wp_neutral_bind (callsOnly_ask.mpr (by trivial)) (fun _ _ => hclose) fun job _ _ => ?_
  refine wp_neutral_bind callsOnly_raiseIf (fun _ _ => hclose) fun _ _ _ => ?_
  refine wp_neutral_bind acquireLock_neutral (fun _ _ => hclose) fun acquired _ _ => ?_
  split
  · unfold claimJob
    refine wp_neutral_bind (callsOnly_ask.mpr (by trivial)) (fun _ _ => hclose) fun _ _ _ => ?_
    refine wp_neutral_bind callsOnly_raiseIf (fun _ _ => hclose) fun _ _ _ => ?_
    refine wp_neutral_bind (CallsOnly.onlyIf (callsOnly_ask.mpr (by trivial)))
      (fun _ _ => hclose) fun _ _ _ => ?_
    exact wp_reserveForJob h ha hcost
  · -- without a reservation of its own a refused attempt releases nothing
    have hnothing : ¬ 0 < a.reservedAcu := by simp [ha]
    unfold Program.onlyIf
    rw [if_neg hnothing]
    exact ⟨_, _, rfl, ha.symm ▸ hclose⟩

/-! ## The task -/

theorem wp_firstSession {aborted : Bool} (h : b.Owes 0) (ha : a.reservedAcu = 0)
    (hcost : 0 ≤ a.estimatedCostUsd) : wp ghost (firstSession a) (fun r s => match r with
      | .ok (.ok (some l)) => s.1.Owes l.reservedAcu
      | _ => s.1.Owes 0) (b, aborted) := by
  refine wp_session ?_
  rw [wp_bind]
  refine wp_mono (wp_phase1PreAi h ha hcost) fun r s hr => ?_
  cases r with
  | error e => exact hr
  | ok r =>
    obtain ⟨slot, l, rfl, hl⟩ := hr
    exact hl

theorem wp_runPhases {aborted : Bool} (h : b.Owes 0) (ha : a.reservedAcu = 0)
    (hcost : 0 ≤ a.estimatedCostUsd) :
    wp ghost (runPhases a) (fun _ s => s.1.Owes 0) (b, aborted) := by
  unfold runPhases
  rw [wp_bind]
  refine wp_mono (wp_firstSession h ha hcost) fun r s hr => ?_
  cases r with
  | error e => exact hr
  | ok r =>
    cases r with
    | error e =>
      have howes : s.1.Owes (Locals.initial a).reservedAcu := by
        show s.1.Owes a.reservedAcu
        rw [ha]
        exact hr
      exact wp_onFailure howes
    | ok l =>
      cases l with
      | none => exact hr
      | some l =>
        show wp ghost (afterFirstSession a (.ok (some l))) _ s
        rw [afterFirstSession, wp_bind, wp_outcome]
        refine wp_mono (wp_gatewayAndAfter hr) fun r s hr => ?_
        cases r with
        | ok u => exact hr
        | error e => exact wp_onFailure hr

/-- An attempt that is called without a reservation of its own ends owing nothing. -/
theorem wp_processJobTask {aborted : Bool} (ha : a.reservedAcu = 0)
    (hcost : 0 ≤ a.estimatedCostUsd) :
    wp ghost (processJobTask a) (fun _ s => s.1.Owes 0) (.empty, aborted) := by
  unfold processJobTask
  refine wp_neutral_bind guards_neutral (fun _ _ => Books.owes_empty) fun ending _ _ => ?_
  cases ending with
  | some ending => exact Books.owes_empty
  | none =>
    simp only [wp_bind, wp_outcome]
    refine wp_mono (wp_runPhases Books.owes_empty ha hcost) fun r s hr => ?_
    cases r with
    | ok u => exact hr
    | error e => exact hr

end

end WorkTicket.Tasks.AttemptBooks
