import WorkTicket.Billing.Ledger
import WorkTicket.Billing.StateMachine
import WorkTicket.Foundation.CommitOrder
import WorkTicket.Foundation.Transition

/-! Concurrent calls on one company's account. `check_and_reserve`, `release_reserved`,
`finalize_usage` and `cleanup_stale_reservations` read the row with a plain SELECT and
write it later, `reconcile_cost` and `grant_credit` lock it first. Each call is one
transaction under READ COMMITTED; a SELECT returns the committed row. -/

namespace WorkTicket.Billing.ConcurrentCalls

open WorkTicket.Transition WorkTicket.CommitOrder

inductive Call
  | checkAndReserve (estimatedCostUsd : ℚ)
  | releaseReserved (reservedAcu : ℚ)
  | finalizeUsage (actualCostUsd reservedAcu : ℚ)
  | reconcileCost (jobId : JobId) (r : Reconciliation)
  | grantCredit (jobId : JobId) (amountAcu : ℚ) (reason : String)
  | cleanupStaleReservations
  deriving DecidableEq, Repr

/-- How a call ends. `release_reserved` and `finalize_usage` return the same whether
their update matched or not; `first` tells that no earlier call charged the job. -/
inductive Report
  | allowed
  | denied (d : Denial)
  | returned
  | reconciled (answer : ReconcileAnswer) (first : Bool)
  | granted (answer : CreditAnswer)
  | cleaned (releasedAcu : ℚ)
  | nothingStale
  | raised
  deriving DecidableEq, Repr

def Report.success : Report → Bool
  | .allowed | .returned | .cleaned _ => true
  | .reconciled answer _ => answer = .reconciled
  | .granted answer => answer = .credited
  | .denied _ | .nothingStale | .raised => false

structure Balances where
  reservedAcu : ℚ
  usedAcu : ℚ
  deriving DecidableEq, Repr

def balances (a : BillingAccount) : Balances := ⟨a.reservedAcu, a.usedAcu⟩

/-- What a call that reported success owes the balances. -/
def effect : Call → Report → Balances → Balances
  | .checkAndReserve cost, .allowed, b => { b with reservedAcu := b.reservedAcu + costAcu cost }
  | .releaseReserved acu, .returned, b => { b with reservedAcu := clampZero (b.reservedAcu - acu) }
  | .finalizeUsage cost acu, .returned, b =>
    ⟨clampZero (b.reservedAcu - acu), b.usedAcu + costAcu cost⟩
  | .reconcileCost _ r, .reconciled .reconciled true, b =>
    ⟨b.reservedAcu - r.reservedAcu, b.usedAcu + costAcu r.actualCostUsd⟩
  | .grantCredit _ acu _, .granted .credited, b => { b with usedAcu := clampZero (b.usedAcu - acu) }
  | .cleanupStaleReservations, .cleaned acu, b =>
    { b with reservedAcu := clampZero (b.reservedAcu - acu) }
  | _, _, b => b

/-- What an open transaction will commit. -/
structure Pending where
  account : BillingAccount
  ledger : Option (JobId × LedgerRow)
  report : Report
  deriving DecidableEq, Repr

inductive Progress
  | ready (tries : ℕ)
  | read (tries : ℕ) (seen : BillingAccount)
  | wrote (p : Pending)
  | done (r : Report)
  deriving DecidableEq, Repr

/-- The committed rows of the company, who holds the lock of the account row, and how
far each call is. -/
structure World (ι : Type*) where
  account : BillingAccount
  ledger : JobId → Option LedgerRow
  lock : Option ι
  progress : ι → Progress

inductive Event (ι : Type*)
  | select (i : ι) (now : Time) (overDailyLimit : Bool)
  | update (i : ι)
  | lockRow (i : ι) (now : Time)
  | lockRefused (i : ι)
  | commit (i : ι)
  | rollback (i : ι)

section
variable {ι : Type*} [DecidableEq ι] (call : ι → Call)

def World.set (s : World ι) (i : ι) (p : Progress) : World ι :=
  { s with progress := Function.update s.progress i p }

def World.write (s : World ι) (i : ι) (p : Pending) : World ι :=
  { s.set i (.wrote p) with lock := some i }

/-- A call after its SELECT of the row. -/
def onSelect (now : Time) (overDailyLimit : Bool) (tries : ℕ) (row : BillingAccount) :
    Call → Option Progress
  | .checkAndReserve cost =>
    match admissionDenial row cost overDailyLimit with
    | some d => some (.done (.denied d))
    | none => some (.read tries row)
  | .releaseReserved _ | .finalizeUsage _ _ => some (.read tries row)
  | .cleanupStaleReservations =>
    if hasStaleReservation now row then some (.read tries row) else some (.done .nothingStale)
  | .reconcileCost _ _ | .grantCredit _ _ _ => none

/-- The UPDATE of a call that has read `seen`: the row after it and the call's report, or
`none` when it matches no row. -/
def onUpdate (seen row : BillingAccount) : Call → Option (BillingAccount × Report)
  | .checkAndReserve cost => (versionedUpdate seen row (reserveWrite cost seen)).map (·, .allowed)
  | .releaseReserved acu => (versionedUpdate seen row (releaseWrite acu seen)).map (·, .returned)
  | .finalizeUsage cost acu =>
    (versionedUpdate seen row (finalizeWrite cost acu seen)).map (·, .returned)
  | .cleanupStaleReservations => some (freeReservation row, .cleaned seen.reservedAcu)
  | .reconcileCost _ _ | .grantCredit _ _ _ => none

/-- How a call ends whose last try matched no row. -/
def outOfTries : Call → Report
  | .checkAndReserve _ => .denied .concurrencyLimit
  | _ => .returned

/-- `reconcile_cost` and `grant_credit` once they have locked the row. A reconciliation
that raises leaves the rows as they are, so that its rollback undoes nothing. -/
def onLockRow (now : Time) (row : BillingAccount) (ledger : JobId → Option LedgerRow) :
    Call → Option Pending
  | .reconcileCost jobId r =>
    let out := Billing.reconcileCost now true r (some row) (ledger jobId)
    some ⟨out.2.1.getD row, out.2.2.map (jobId, ·), .reconciled out.1 (!isUsage (ledger jobId))⟩
  | .grantCredit jobId acu reason =>
    let out := Billing.grantCredit now jobId acu reason (some row) (ledger jobId)
    some ⟨out.2.1.getD row, out.2.2.map (jobId, ·), .granted out.1⟩
  | _ => none

def step (s : World ι) : Event ι → Option (World ι)
  | .select i now overDailyLimit =>
    match s.progress i with
    | .ready tries => (onSelect now overDailyLimit tries s.account (call i)).map (s.set i)
    | _ => none
  | .update i =>
    match s.progress i, s.lock with
    | .read tries seen, none =>
      match onUpdate seen s.account (call i) with
      | some (account, report) => some (s.write i ⟨account, none, report⟩)
      | none =>
        -- another call has raised the version: read again, or give up
        if tries + 1 < maxRetries then some (s.set i (.ready (tries + 1)))
        else some (s.set i (.done (outOfTries (call i))))
    | _, _ => none
  | .lockRow i now =>
    match s.progress i, s.lock with
    | .ready _, none => (onLockRow now s.account s.ledger (call i)).map (s.write i)
    | _, _ => none
  | .lockRefused i =>
    match s.progress i, call i with
    | .ready _, .reconcileCost _ _ =>
      some (s.set i (.done (.reconciled .lockContention false)))
    | _, _ => none
  | .commit i =>
    match s.progress i with
    | .wrote p => some { s.set i (.done p.report) with
        account := p.account
        ledger := p.ledger.elim s.ledger fun l => Function.update s.ledger l.1 (some l.2)
        lock := none }
    | _ => none
  | .rollback i =>
    match s.progress i with
    | .done _ => none
    | _ => some { s.set i (.done .raised) with lock := if s.lock = some i then none else s.lock }

def start (account : BillingAccount) (ledger : JobId → Option LedgerRow) : World ι :=
  ⟨account, ledger, none, fun _ => .ready 0⟩

/-! ## No lost update -/

def Progress.report? : Progress → Option Report
  | .done r => some r
  | _ => none

@[simp] theorem Progress.report?_done (r : Report) : (Progress.done r).report? = some r := rfl

def World.succeeded (s : World ι) (i : ι) : Prop := (s.progress i).report?.any Report.success

/-- The balances are the initial ones and the effects of the calls that reported
success, each once. -/
def Conserved (account : BillingAccount) (s : World ι) : Prop :=
  Accounts (fun i => (s.progress i).report?.elim id (effect (call i))) s.succeeded
    (balances account) (balances s.account)

/-- The columns a plain writer sets are as it read them. -/
def columnsAsRead (seen row : BillingAccount) : Call → Bool
  | .finalizeUsage _ _ => seen.reservedAcu = row.reservedAcu && seen.usedAcu = row.usedAcu
  | _ => seen.reservedAcu = row.reservedAcu

/-- The state before a step does not lead the step to lose an update: an UPDATE that
matches finds the columns it sets as they were read, a release or a finalization is not
out of tries, a reconciliation meets no credit's ledger row, a credit meets no ledger
row or one it knows as its own. -/
def Undisturbed (s : World ι) : Event ι → Bool
  | .update i =>
    match s.progress i with
    | .read tries seen =>
      match onUpdate seen s.account (call i) with
      | some _ => columnsAsRead seen s.account (call i)
      | none => tries + 1 < maxRetries || outOfTries (call i) ≠ .returned
    | _ => true
  | .lockRow i _ =>
    match call i with
    | .reconcileCost jobId _ => !(s.ledger jobId).any LedgerRow.isCredit
    | .grantCredit jobId _ reason =>
      (s.ledger jobId).isNone || isDuplicateCredit reason (s.ledger jobId)
    | _ => true
  | _ => true

end

/-! ## What one statement does to the balances -/

theorem versionedUpdate_balances {seen row row' : BillingAccount}
    {write : BillingAccount → BillingAccount} (h : versionedUpdate seen row write = some row') :
    balances row' = balances (write row) := by
  unfold versionedUpdate at h
  split at h
  · obtain rfl := Option.some.inj h
    rfl
  · cases h

/-- A matching UPDATE over columns that are as they were read has the call's effect. -/
theorem onUpdate_effect {seen row row' : BillingAccount} {c : Call} {report : Report}
    (h : onUpdate seen row c = some (row', report)) (hread : columnsAsRead seen row c) :
    balances row' = effect c report (balances row) := by
  cases c with
  | checkAndReserve cost =>
    obtain ⟨a, ha, he⟩ := Option.map_eq_some_iff.mp h
    obtain ⟨rfl, rfl⟩ := Prod.mk.inj he
    have hr : seen.reservedAcu = row.reservedAcu := by simpa [columnsAsRead] using hread
    rw [versionedUpdate_balances ha]
    simp [balances, reserveWrite, effect, hr]
  | releaseReserved acu =>
    obtain ⟨a, ha, he⟩ := Option.map_eq_some_iff.mp h
    obtain ⟨rfl, rfl⟩ := Prod.mk.inj he
    have hr : seen.reservedAcu = row.reservedAcu := by simpa [columnsAsRead] using hread
    rw [versionedUpdate_balances ha]
    simp [balances, releaseWrite, effect, hr]
  | finalizeUsage cost acu =>
    obtain ⟨a, ha, he⟩ := Option.map_eq_some_iff.mp h
    obtain ⟨rfl, rfl⟩ := Prod.mk.inj he
    obtain ⟨hr, hu⟩ : seen.reservedAcu = row.reservedAcu ∧ seen.usedAcu = row.usedAcu := by
      simpa [columnsAsRead] using hread
    rw [versionedUpdate_balances ha]
    simp [balances, finalizeWrite, effect, hr, hu]
  | cleanupStaleReservations =>
    obtain ⟨rfl, rfl⟩ := Prod.mk.inj (Option.some.inj h)
    have hr : seen.reservedAcu = row.reservedAcu := by simpa [columnsAsRead] using hread
    simp [balances, freeReservation, effect, hr, clampZero]
  | reconcileCost jobId r => cases h
  | grantCredit jobId acu reason => cases h

/-- The statements of a call that holds the row lock have the call's effect when the
job's ledger row does not mislead it. -/
theorem onLockRow_effect {now : Time} {row : BillingAccount} {ledger : JobId → Option LedgerRow}
    {c : Call} {p : Pending} (h : onLockRow now row ledger c = some p)
    (hreconcile : ∀ jobId r, c = .reconcileCost jobId r → (ledger jobId).any LedgerRow.isCredit = false)
    (hcredit : ∀ jobId acu reason, c = .grantCredit jobId acu reason →
      ledger jobId = none ∨ isDuplicateCredit reason (ledger jobId)) :
    balances p.account = effect c p.report (balances row) := by
  cases c with
  | reconcileCost jobId r =>
    obtain rfl := Option.some.inj h
    cases hl : ledger jobId with
    | some l =>
      have hnot : l.isCredit = false := by simpa [hl] using hreconcile jobId r rfl
      simp [Billing.reconcileCost, isUsage, hnot, effect]
    | none =>
      simp only [Billing.reconcileCost, Bool.not_true, Bool.false_eq_true, if_false]
      cases hc : chargeAccount now r row with
      | none => rfl
      | some a =>
        obtain ⟨-, rfl⟩ := chargeAccount_eq_some.mp hc
        rfl
  | grantCredit jobId acu reason =>
    obtain rfl := Option.some.inj h
    rcases hcredit jobId acu reason rfl with hl | hdup
    · simp [Billing.grantCredit, hl, isDuplicateCredit, effect, balances, creditAccount]
    · simp [Billing.grantCredit, hdup, effect]
  | checkAndReserve cost => cases h
  | releaseReserved acu => cases h
  | finalizeUsage cost acu => cases h
  | cleanupStaleReservations => cases h

/-! ## Steps and runs -/

section
variable {ι : Type*} [DecidableEq ι] {call : ι → Call} {account : BillingAccount}

/-- The committed balances are accounted for, and whoever has written the row holds its
lock and will commit its effect on what is committed now. -/
structure Inv (call : ι → Call) (account : BillingAccount) (s : World ι) : Prop where
  conserved : Conserved call account s
  pending : ∀ i p, s.progress i = .wrote p → s.lock = some i ∧
    balances p.account = effect (call i) p.report (balances s.account)

omit [DecidableEq ι] in
theorem inv_start (ledger : JobId → Option LedgerRow) :
    Inv call account (start account ledger) where
  conserved := accounts_start fun i => by simp [World.succeeded, start, Progress.report?]
  pending := fun i p h => by cases h

/-- The calls done with success after one that was not done has moved on. -/
theorem succeeded_set {s : World ι} {i : ι} {p : Progress} (hold : (s.progress i).report? = none)
    (j : ι) : (s.set i p).succeeded j ↔ s.succeeded j ∨ (j = i ∧ p.report?.any Report.success) := by
  by_cases hji : j = i
  · subst hji
    simp [World.succeeded, World.set, hold]
  · simp [World.succeeded, World.set, hji]

theorem progress_set_of_succeeded {s : World ι} {i j : ι} {p : Progress}
    (hold : (s.progress i).report? = none) (hj : s.succeeded j) :
    (s.set i p).progress j = s.progress j := by
  have hji : j ≠ i := by
    rintro rfl
    simp [World.succeeded, hold] at hj
  exact Function.update_of_ne hji _ _

theorem conserved_set {s : World ι} {i : ι} {p : Progress} (h : Conserved call account s)
    (hold : (s.progress i).report? = none) (hnew : p.report?.any Report.success = false) :
    Conserved call account (s.set i p) := by
  refine h.congr (fun j => ?_) fun j hj => ?_
  · simpa [hnew] using succeeded_set (p := p) hold j
  · rw [progress_set_of_succeeded hold hj]

/-- What is asked of every call that has written the row, after call `i` has moved on. -/
theorem forall_wrote_set {s : World ι} {i : ι} {p : Progress} {P : ι → Pending → Prop}
    (hself : ∀ q, p = .wrote q → P i q)
    (hother : ∀ j, j ≠ i → ∀ q, s.progress j = .wrote q → P j q) :
    ∀ j q, (s.set i p).progress j = .wrote q → P j q :=
  (Function.forall_update_iff s.progress fun j p' => ∀ q, p' = .wrote q → P j q).mpr
    ⟨hself, hother⟩

/-- A call moves on without writing, and without being done with success. -/
theorem Inv.move {s : World ι} (h : Inv call account s) {i : ι} {p : Progress}
    (hold : (s.progress i).report? = none) (hnew : p.report?.any Report.success = false)
    (hwrote : ∀ q, p ≠ .wrote q) (lock : Option ι) (hlock : ∀ j, j ≠ i → s.lock = some j →
      lock = some j) : Inv call account { s.set i p with lock := lock } where
  conserved := conserved_set h.conserved hold hnew
  pending := by
    refine forall_wrote_set (fun q hq => absurd hq (hwrote q)) fun j hji q hq => ?_
    exact ⟨hlock j hji (h.pending j q hq).1, (h.pending j q hq).2⟩

/-- A call writes the row and keeps it locked until its commit. -/
theorem Inv.write {s : World ι} (h : Inv call account s) {i : ι} {p : Pending}
    (hold : (s.progress i).report? = none) (hlock : s.lock = none)
    (heffect : balances p.account = effect (call i) p.report (balances s.account)) :
    Inv call account (s.write i p) where
  conserved := conserved_set h.conserved hold rfl
  pending := by
    refine forall_wrote_set (fun q hq => ?_) fun j _ q hq => ?_
    · cases hq
      exact ⟨rfl, heffect⟩
    · exact absurd (h.pending j q hq).1 (by simp [hlock])

theorem effect_of_not_success {c : Call} {r : Report} (h : r.success = false) (b : Balances) :
    effect c r b = b := by
  cases r with
  | allowed => cases h
  | returned => cases h
  | cleaned acu => cases h
  | denied d => cases c <;> rfl
  | nothingStale => cases c <;> rfl
  | raised => cases c <;> rfl
  | reconciled answer first =>
    cases answer with
    | reconciled => cases h
    | lockContention => cases c <;> rfl
    | noAccount => cases c <;> rfl
    | integrityError => cases c <;> rfl
  | granted answer =>
    cases answer with
    | credited => cases h
    | noReservation => cases c <;> rfl
    | noAccount => cases c <;> rfl
    | skippedDuplicate => cases c <;> rfl

/-- The commit of a written row adds the call, last, to the order of the effects. -/
theorem Inv.commit {s : World ι} (h : Inv call account s) {i : ι} {p : Pending}
    (hp : s.progress i = .wrote p) (ledger : JobId → Option LedgerRow) :
    Inv call account { s.set i (.done p.report) with
      account := p.account, ledger := ledger, lock := none } where
  conserved := by
    have hold : (s.progress i).report? = none := by rw [hp]; rfl
    have hnot : ¬ s.succeeded i := by simp [World.succeeded, hold]
    have heffect : ∀ j, s.succeeded j →
        ((s.set i (.done p.report)).progress j).report?.elim id (effect (call j)) =
          (s.progress j).report?.elim id (effect (call j)) := fun j hj => by
      rw [progress_set_of_succeeded hold hj]
    have hdone : ∀ j, (s.set i (.done p.report)).succeeded j ↔
        s.succeeded j ∨ (j = i ∧ p.report.success) := succeeded_set hold
    have hbal := (h.pending i p hp).2
    cases hs : p.report.success with
    | true =>
      have hcommit := h.conserved.commit hnot (fun j => by simpa [hs] using hdone j) heffect
      rw [show (s.set i (.done p.report)).progress i = .done p.report from
        Function.update_self _ _ _] at hcommit
      change Accounts _ _ _ (balances p.account)
      rw [hbal]
      exact hcommit
    | false =>
      have hsame := h.conserved.congr (fun j => by simpa [hs] using hdone j) heffect
      change Accounts _ _ _ (balances p.account)
      rw [hbal, effect_of_not_success hs]
      exact hsame
  pending := by
    refine forall_wrote_set (fun q hq => by cases hq) fun j hji q hq => ?_
    have hlock := (h.pending j q hq).1.symm.trans (h.pending i p hp).1
    exact absurd (Option.some.inj hlock) hji

theorem onSelect_progress {now : Time} {overDailyLimit : Bool} {tries : ℕ} {row : BillingAccount}
    {c : Call} {p : Progress} (h : onSelect now overDailyLimit tries row c = some p) :
    p.report?.any Report.success = false ∧ ∀ q, p ≠ .wrote q := by
  cases c with
  | checkAndReserve cost =>
    simp only [onSelect] at h
    split at h <;> obtain rfl := Option.some.inj h
    · exact ⟨rfl, fun q hq => nomatch hq⟩
    · exact ⟨rfl, fun q hq => nomatch hq⟩
  | cleanupStaleReservations =>
    simp only [onSelect] at h
    split at h <;> obtain rfl := Option.some.inj h
    · exact ⟨rfl, fun q hq => nomatch hq⟩
    · exact ⟨rfl, fun q hq => nomatch hq⟩
  | releaseReserved acu =>
    obtain rfl := Option.some.inj h
    exact ⟨rfl, fun q hq => nomatch hq⟩
  | finalizeUsage cost acu =>
    obtain rfl := Option.some.inj h
    exact ⟨rfl, fun q hq => nomatch hq⟩
  | reconcileCost jobId r => cases h
  | grantCredit jobId acu reason => cases h

theorem inv_step {s s' : World ι} {e : Event ι} (h : Inv call account s)
    (hok : Undisturbed call s e) (hs : step call s e = some s') : Inv call account s' := by
  cases e with
  | select i now overDailyLimit =>
    simp only [step] at hs
    split at hs
    · rename_i tries hp
      obtain ⟨p, hsel, rfl⟩ := Option.map_eq_some_iff.mp hs
      obtain ⟨hnew, hwrote⟩ := onSelect_progress hsel
      exact h.move (by rw [hp]; rfl) hnew hwrote s.lock fun j _ hj => hj
    · cases hs
  | update i =>
    simp only [step] at hs
    split at hs
    · rename_i tries seen hp hlock
      simp only [Undisturbed, hp] at hok
      split at hs
      · rename_i row' report hup
        obtain rfl := Option.some.inj hs
        simp only [hup] at hok
        exact h.write (by rw [hp]; rfl) hlock (onUpdate_effect hup hok)
      · rename_i hup
        simp only [hup] at hok
        split at hs <;> obtain rfl := Option.some.inj hs
        · exact h.move (by rw [hp]; rfl) rfl (fun q => by simp) s.lock fun j _ hj => hj
        · rename_i hlast
          refine h.move (by rw [hp]; rfl) ?_ (fun q => by simp) s.lock fun j _ hj => hj
          have hdenied : outOfTries (call i) ≠ .returned := by simpa [hlast] using hok
          cases hc : call i <;> simp_all [outOfTries, Report.success]
    · cases hs
  | lockRow i now =>
    simp only [step] at hs
    split at hs
    · rename_i tries hp hlock
      obtain ⟨p, hrow, rfl⟩ := Option.map_eq_some_iff.mp hs
      refine h.write (by rw [hp]; rfl) hlock (onLockRow_effect hrow ?_ ?_)
      · intro jobId r hc
        simpa [Undisturbed, hc] using hok
      · intro jobId acu reason hc
        simpa [Undisturbed, hc] using hok
    · cases hs
  | lockRefused i =>
    simp only [step] at hs
    split at hs
    · rename_i hp hc
      obtain rfl := Option.some.inj hs
      exact h.move (by rw [hp]; rfl) rfl (fun q => by simp) s.lock fun j _ hj => hj
    · cases hs
  | commit i =>
    simp only [step] at hs
    split at hs
    · rename_i p hp
      obtain rfl := Option.some.inj hs
      exact h.commit hp _
    · cases hs
  | rollback i =>
    simp only [step] at hs
    split at hs
    · cases hs
    · rename_i hnot
      obtain rfl := Option.some.inj hs
      have hold : (s.progress i).report? = none := by
        cases hp : s.progress i with
        | done r => exact absurd hp (hnot r)
        | ready tries => rfl
        | read tries seen => rfl
        | wrote p => rfl
      refine h.move hold rfl (fun q => by simp) _ fun j hji hj => ?_
      rw [hj, if_neg fun he => hji (Option.some.inj he)]

end

/-! ## A reservation and a reconciliation -/

def account : BillingAccount :=
  ⟨7, "pro", 600, 0, 5, 0, none, false, none, none, none, none, none, 0⟩

/-- `true` reserves 1 ACU while `false` settles a job that reserved 5 and cost 4. -/
def calls : Bool → Call
  | true => .checkAndReserve (1 / 100)
  | false => .reconcileCost 1 ⟨5 / 100, 4 / 100, 5, "local", 900, 1, 0, 0, none⟩

/-- The reservation reads the row before the reconciliation and writes it afterwards. -/
def staleReserve : List (Event Bool) :=
  [.select true 0 false, .lockRow false 0, .commit false, .update true, .commit true]

/-- The same calls, one after the other. -/
def oneByOne : List (Event Bool) :=
  [.lockRow false 0, .commit false, .select true 0 false, .update true, .commit true]

def afterStaleReserve : World Bool :=
  (run (step calls) (start account fun _ => none) staleReserve).get (by decide +kernel)

end WorkTicket.Billing.ConcurrentCalls
