import WorkTicket.Foundation.Transition
import WorkTicket.Tasks.AttemptBooks

/-! The reserved balance of a company under concurrent attempts of `process_job_task`. The
attempts run their programs statement by statement on the company's account and ledger
rows under READ COMMITTED; Redis, the job rows and the gateway are the surroundings. -/

namespace WorkTicket.Tasks.JobReservations

open WorkTicket.Transition WorkTicket.Billing WorkTicket.Billing.ConcurrentCalls
open WorkTicket.Tasks.JobTask WorkTicket.Tasks.AttemptBooks

/-- The open transaction of an attempt: the tries and the row read of its pending billing
call, and what its statements have written. -/
structure Tx where
  tries : ℕ
  seen : Option BillingAccount
  row : Option BillingAccount
  ledger : Option (JobId × LedgerRow)
  deriving DecidableEq, Repr

def Tx.empty : Tx := ⟨0, none, none, none⟩

structure World (ι : Type) where
  account : BillingAccount
  ledger : JobId → Option LedgerRow
  rowLock : Option ι
  tx : ι → Tx
  aborted : ι → Bool
  task : ι → Option (Prog Ending)
  books : ι → Books

inductive Event (ι : Type)
  | receive (i : ι)
  | select (i : ι) (now : Time) (overDailyLimit : Bool)
  | update (i : ι)
  | lockRow (i : ι) (now : Time)
  | lockRefused (i : ι)
  | commit (i : ι)
  | close (i : ι)
  | answer (i : ι) (answers : (c : Command) → Answer c)
  | fail (i : ι) (fault : Fault)

/-- The commands that are statements of the attempt's session. -/
def usesSession : Command → Bool
  | .selectJob | .reconcileJobState _ _ | .countRetry | .bill _ | .transitionFailed
  | .heartbeatReservation | .commit | .insertOutput | .selectOutput => true
  | _ => false

def isAccount : Command → Bool
  | .bill _ | .commit | .close => true
  | _ => false

section
variable {ι : Type} [DecidableEq ι] (attempts : ι → Attempt)

def World.view (s : World ι) (i : ι) : BillingAccount := (s.tx i).row.getD s.account

def World.ledgerView (s : World ι) (i : ι) : JobId → Option LedgerRow :=
  (s.tx i).ledger.elim s.ledger fun l => Function.update s.ledger l.1 (some l.2)

def World.mayWrite (s : World ι) (i : ι) : Bool :=
  !s.aborted i && (s.rowLock.isNone || s.rowLock = some i)

def World.next? (s : World ι) (i : ι) :
    Option ((c : Command) × (Except Fault (Answer c) → Prog Ending)) :=
  match s.task i with
  | some (.call c next) => some ⟨c, next⟩
  | _ => none

def World.setTx (s : World ι) (i : ι) (tx : Tx) : World ι :=
  { s with tx := Function.update s.tx i tx }

def World.resume (s : World ι) (i : ι) (p : Prog Ending) : World ι :=
  { s with task := Function.update s.task i (some p) }

def World.reply (s : World ι) (i : ι) (c : Command) (r : Except Fault (Answer c))
    (next : Except Fault (Answer c) → Prog Ending) : World ι :=
  { s.resume i (next r) with
    books := Function.update s.books i ((s.books i).after c r)
    aborted := Function.update s.aborted i (abortedAfter (s.aborted i) c r) }

def World.unlock (s : World ι) (i : ι) : World ι :=
  { s with rowLock := if s.rowLock = some i then none else s.rowLock }

def select (s : World ι) (i : ι) (now : Time) (overDailyLimit : Bool) (c : Call)
    (next : Except Fault Report → Prog Ending) : Option (World ι) :=
  if s.aborted i || (s.tx i).seen.isSome then none
  else match onSelect now overDailyLimit (s.tx i).tries (s.view i) c with
    | some (.done r) =>
      some ((s.setTx i { s.tx i with tries := 0 }).reply i (.bill c) (.ok r) next)
    | some (.read _ row) => some (s.setTx i { s.tx i with seen := some row })
    | _ => none

def update (s : World ι) (i : ι) (seen : BillingAccount) (c : Call)
    (next : Except Fault Report → Prog Ending) : Option (World ι) :=
  if s.mayWrite i then
    match onUpdate seen (s.view i) c with
    | some (row, report) =>
      let s := { s.setTx i { s.tx i with tries := 0, seen := none, row := some row } with
        rowLock := some i }
      some (s.reply i (.bill c) (.ok report) next)
    | none =>
      let tries := (s.tx i).tries + 1
      if tries < maxRetries then some (s.setTx i { s.tx i with tries := tries, seen := none })
      -- nothing was written, so that the books stay as they are
      else some ((s.setTx i { s.tx i with tries := 0, seen := none }).resume i
        (next (.ok (outOfTries c))))
  else none

def lockRow (s : World ι) (i : ι) (now : Time) (c : Call)
    (next : Except Fault Report → Prog Ending) : Option (World ι) :=
  if s.mayWrite i then
    (onLockRow now (s.view i) (s.ledgerView i) c).map fun p =>
      let s := { s.setTx i { s.tx i with row := some p.account, ledger := p.ledger } with
        rowLock := some i }
      s.reply i (.bill c) (.ok p.report) next
  else none

def World.commitTx (s : World ι) (i : ι) : World ι :=
  { (s.setTx i Tx.empty).unlock i with account := s.view i, ledger := s.ledgerView i }

def step (s : World ι) : Event ι → Option (World ι)
  | .receive i =>
    match s.task i with
    | none => some (s.resume i (processJobTask (attempts i)))
    | some _ => none
  | .select i now overDailyLimit =>
    match s.next? i with
    | some ⟨.bill c, next⟩ => select s i now overDailyLimit c next
    | _ => none
  | .update i =>
    match s.next? i, (s.tx i).seen with
    | some ⟨.bill c, next⟩, some seen => update s i seen c next
    | _, _ => none
  | .lockRow i now =>
    match s.next? i with
    | some ⟨.bill c, next⟩ => lockRow s i now c next
    | _ => none
  | .lockRefused i =>
    match s.next? i with
    | some ⟨.bill (.reconcileCost jobId r), next⟩ =>
      if s.aborted i then none else some (s.reply i (.bill (.reconcileCost jobId r))
        (.ok (.reconciled .lockContention false)) next)
    | _ => none
  | .commit i =>
    match s.next? i with
    | some ⟨.commit, next⟩ =>
      if s.aborted i then none else some ((s.commitTx i).reply i .commit (.ok ()) next)
    | _ => none
  | .close i =>
    match s.next? i with
    | some ⟨.close, next⟩ => some (((s.setTx i Tx.empty).unlock i).reply i .close (.ok ()) next)
    | _ => none
  | .answer i answers =>
    (s.next? i).bind fun ⟨c, next⟩ =>
      if isAccount c || (s.aborted i && usesSession c) then none
      else some (s.reply i c (.ok (answers c)) next)
  | .fail i fault =>
    (s.next? i).bind fun ⟨c, next⟩ =>
      if c = .close then none
      else some ((s.setTx i { s.tx i with tries := 0, seen := none }).reply i c (.error fault) next)

def start (account : BillingAccount) (ledger : JobId → Option LedgerRow) : World ι :=
  ⟨account, ledger, none, fun _ => Tx.empty, fun _ => false, fun _ => none, fun _ => Books.empty⟩

/-- The attempt was received and has not ended. -/
def World.running (s : World ι) (i : ι) : Bool := (s.next? i).isSome

/-- The reserved balance is the initial one and what the running attempts have reserved,
and the reservation of every attempt is subtracted once by its end and never twice. -/
structure Conserved [Fintype ι] (account : BillingAccount) (s : World ι) : Prop where
  balance : s.account.reservedAcu =
    account.reservedAcu + ∑ i, if s.running i then (s.books i).outstanding else 0
  idle : (∀ i, s.running i = false) → s.account.reservedAcu = account.reservedAcu
  once : ∀ i, s.running i = false →
    (s.books i).subtracted.filter (0 < ·) = (s.books i).reserved.filter (0 < ·)
  neverTwice : ∀ i, (s.books i).NeverTwice

def World.owesNothing (s : World ι) (i : ι) : Bool := (s.books i).outstanding = 0

/-- The state before a step does not lead the attempt to lose or to repeat a subtraction. -/
def Settling (s : World ι) : Event ι → Bool
  | .receive i => (attempts i).reservedAcu = 0 && 0 ≤ (attempts i).estimatedCostUsd
  | .update i =>
    match s.next? i, (s.tx i).seen with
    | some ⟨.bill c, _⟩, some seen =>
      match onUpdate seen (s.view i) c with
      | some _ => seen.reservedAcu = (s.view i).reservedAcu
      | none => (s.tx i).tries + 1 < maxRetries || outOfTries c ≠ .returned
    | _, _ => true
  | .lockRow i _ =>
    match s.next? i with
    | some ⟨.bill (.reconcileCost jobId _), _⟩ =>
      (s.ledgerView i jobId).isNone || s.owesNothing i
    | some ⟨.bill (.grantCredit _ _ _), _⟩ => s.owesNothing i
    | _ => true
  | .lockRefused i => s.owesNothing i
  | .answer i answers =>
    match s.next? i with
    | some ⟨.processJob, _⟩ => (answers .processJob).accepted || s.owesNothing i
    | _ => true
  | .fail i fault =>
    match s.next? i with
    | some ⟨.bill (.reconcileCost _ _), _⟩ => fault.isDatabase || s.owesNothing i
    | some ⟨.bill (.grantCredit _ _ _), _⟩ => s.owesNothing i
    | _ => true
  | .select _ _ _ | .commit _ | .close _ => true

end

/-! ## What one statement does to the row and the books -/

section
variable {b : Books} {aborted : Bool} {seen row row' : BillingAccount} {c : Call}

/-- The row has changed by what the books say the command reserved or subtracted, and the
answer is expected. -/
structure Booked (b : Books) (aborted : Bool) (c : Call) (report : Report)
    (row row' : BillingAccount) : Prop where
  change : row'.reservedAcu = row.reservedAcu + ((b.after (.bill c) (.ok report)).change - b.change)
  outstanding : (b.after (.bill c) (.ok report)).outstanding = b.outstanding
  expects : expects (b, aborted) (.bill c) (.ok report)

theorem onSelect_done {now : Time} {overDailyLimit : Bool} {tries : ℕ} {report : Report}
    (hneeds : needs (b, aborted) (.bill c))
    (h : onSelect now overDailyLimit tries row c = some (.done report)) :
    b.after (.bill c) (.ok report) = b ∧ expects (b, aborted) (.bill c) (.ok report) := by
  cases c with
  | checkAndReserve cost =>
    simp only [onSelect] at h
    split at h
    · cases h
      exact ⟨rfl, trivial⟩
    · cases h
  | releaseReserved acu => cases h
  | finalizeUsage cost acu => exact hneeds.elim
  | cleanupStaleReservations => exact hneeds.elim
  | reconcileCost jobId r => cases h
  | grantCredit jobId acu reason => cases h

theorem outOfTries_booked (hneeds : needs (b, aborted) (.bill c)) (h : outOfTries c ≠ .returned) :
    b.after (.bill c) (.ok (outOfTries c)) = b ∧
      expects (b, aborted) (.bill c) (.ok (outOfTries c)) := by
  cases c with
  | checkAndReserve cost => exact ⟨rfl, trivial⟩
  | cleanupStaleReservations => exact hneeds.elim
  | _ => exact absurd rfl h

theorem onUpdate_booked {report : Report} (hneeds : needs (b, aborted) (.bill c))
    (hle : b.held ≤ row.reservedAcu) (hread : seen.reservedAcu = row.reservedAcu)
    (h : onUpdate seen row c = some (row', report)) : Booked b aborted c report row row' := by
  cases c with
  | checkAndReserve cost =>
    obtain ⟨a, ha, he⟩ := Option.map_eq_some_iff.mp h
    obtain ⟨rfl, rfl⟩ := Prod.mk.inj he
    have hrow : a.reservedAcu = (reserveWrite cost seen row).reservedAcu :=
      congrArg Balances.reservedAcu (versionedUpdate_balances ha)
    refine ⟨?_, rfl, trivial⟩
    show a.reservedAcu = row.reservedAcu + ((b.reserve (costAcu cost)).change - b.change)
    rw [hrow, Books.change_reserve, reserveWrite, hread]
    ring
  | releaseReserved acu =>
    obtain ⟨a, ha, he⟩ := Option.map_eq_some_iff.mp h
    obtain ⟨rfl, rfl⟩ := Prod.mk.inj he
    have hrow : a.reservedAcu = (releaseWrite acu seen row).reservedAcu :=
      congrArg Balances.reservedAcu (versionedUpdate_balances ha)
    refine ⟨?_, rfl, rfl⟩
    show a.reservedAcu = row.reservedAcu + ((b.subtract acu).change - b.change)
    -- the row reserves what the attempt holds, so that nothing is clamped
    have hclamp : 0 ≤ row.reservedAcu - acu := sub_nonneg.mpr (hneeds.2.trans hle)
    rw [hrow, Books.change_subtract, releaseWrite, hread, clampZero_of_nonneg hclamp]
    ring
  | finalizeUsage cost acu => exact hneeds.elim
  | cleanupStaleReservations => exact hneeds.elim
  | reconcileCost jobId r => cases h
  | grantCredit jobId acu reason => cases h

theorem onLockRow_booked {now : Time} {ledger : JobId → Option LedgerRow} {p : Pending}
    (hneeds : needs (b, aborted) (.bill c)) (hle : b.held ≤ row.reservedAcu)
    (hfirst : ∀ jobId r, c = .reconcileCost jobId r → ledger jobId = none ∨ b.outstanding = 0)
    (hcredit : ∀ jobId acu reason, c = .grantCredit jobId acu reason → b.outstanding = 0)
    (h : onLockRow now row ledger c = some p) : Booked b aborted c p.report row p.account := by
  cases c with
  | reconcileCost jobId r =>
    obtain rfl := Option.some.inj h
    obtain ⟨hnonneg, hheld, hout⟩ := hneeds
    cases hl : ledger jobId with
    | none =>
      have hcharge : chargeAccount now r row = some { row with
          reservedAcu := row.reservedAcu - r.reservedAcu
          usedAcu := row.usedAcu + costAcu r.actualCostUsd
          lastReconciled := some now } :=
        chargeAccount_eq_some.mpr ⟨hheld.trans hle, rfl⟩
      simp only [Billing.reconcileCost, Bool.not_true, Bool.false_eq_true, if_false, hcharge,
        Option.getD_some]
      refine ⟨?_, rfl, .inl rfl⟩
      show row.reservedAcu - r.reservedAcu =
        row.reservedAcu + ((b.subtract r.reservedAcu).change - b.change)
      rw [Books.change_subtract]
      ring
    | some l =>
      have hzero : b.outstanding = 0 := (hfirst jobId r rfl).resolve_left (by simp [hl])
      have hnothing : r.reservedAcu = 0 := le_antisymm (hzero ▸ hout) hnonneg
      have hsame : (b.subtract r.reservedAcu).change = b.change := by
        rw [Books.change_subtract, hnothing, sub_zero]
      simp only [Billing.reconcileCost, Bool.not_true, Bool.false_eq_true, if_false,
        Option.getD_some]
      cases hfirst : !isUsage (some l) with
      | true => exact ⟨by simp [Books.after, hsame], rfl, .inl rfl⟩
      | false => exact ⟨by simp [Books.after], rfl, .inr hzero⟩
  | grantCredit jobId acu reason =>
    obtain rfl := Option.some.inj h
    have hrow : ((Billing.grantCredit now jobId acu reason (some row) (ledger jobId)).2.1.getD
        row).reservedAcu = row.reservedAcu := by
      unfold Billing.grantCredit
      simp only
      split
      · rfl
      · split <;> rfl
    exact ⟨by simp [Books.after, hrow], rfl, hcredit jobId acu reason rfl⟩
  | checkAndReserve cost => cases h
  | releaseReserved acu => cases h
  | finalizeUsage cost acu => cases h
  | cleanupStaleReservations => cases h

end

/-! ## The invariant -/

section
variable {ι : Type} [DecidableEq ι] {attempts : ι → Attempt}
variable {account : BillingAccount} {s : World ι} {i : ι}

/-- The committed balance is the initial one and what is outstanding, every session sees it
with its own change, and what is left of every program subtracts what its books owe. -/
structure Inv [Fintype ι] (account : BillingAccount) (s : World ι) : Prop where
  balance : s.account.reservedAcu = account.reservedAcu + ∑ i, (s.books i).outstanding
  view : ∀ i, (s.view i).reservedAcu = s.account.reservedAcu + (s.books i).change
  locked : ∀ i, (s.tx i).row ≠ none → s.rowLock = some i
  outstanding : ∀ i, 0 ≤ (s.books i).outstanding
  held : ∀ i, 0 ≤ (s.books i).held
  neverTwice : ∀ i, (s.books i).NeverTwice
  new : ∀ i, s.task i = none → s.books i = .empty
  program : ∀ i p, s.task i = some p →
    p.wp ghost (fun _ t => t.1.Owes 0) (s.books i, s.aborted i)

omit [DecidableEq ι] in
theorem task_of_next? {c : Command} {next : Except Fault (Answer c) → Prog Ending}
    (h : s.next? i = some ⟨c, next⟩) : s.task i = some (.call c next) := by
  unfold World.next? at h
  split at h
  · rename_i htask
    cases Option.some.inj h
    exact htask
  · cases h

variable [Fintype ι]

omit [DecidableEq ι] in
theorem Inv.needs (h : Inv account s) {c : Command} {next : Except Fault (Answer c) → Prog Ending}
    (hnext : s.next? i = some ⟨c, next⟩) :
    AttemptBooks.needs (s.books i, s.aborted i) c :=
  (h.program i _ (task_of_next? hnext)).1

omit [DecidableEq ι] in
theorem Inv.held_le_view (h : Inv account s) (hstart : 0 ≤ account.reservedAcu) (i : ι) :
    (s.books i).held ≤ (s.view i).reservedAcu := by
  have hsum : (s.books i).outstanding ≤ ∑ j, (s.books j).outstanding :=
    Finset.single_le_sum (f := fun j => (s.books j).outstanding)
      (fun j _ => h.outstanding j) (Finset.mem_univ i)
  rw [h.view i, h.balance, Books.held]
  linarith

theorem sum_outstanding_update (books : ι → Books) (i : ι) (b : Books) :
    ∑ j, (Function.update books i b j).outstanding =
      ∑ j, (books j).outstanding + (b.outstanding - (books i).outstanding) := by
  have hrest : ∑ j ∈ Finset.univ.erase i, (Function.update books i b j).outstanding =
      ∑ j ∈ Finset.univ.erase i, (books j).outstanding :=
    Finset.sum_congr rfl fun j hj => by rw [Function.update_of_ne (Finset.ne_of_mem_erase hj)]
  rw [← Finset.add_sum_erase _ _ (Finset.mem_univ i), hrest, Function.update_self,
    ← Finset.add_sum_erase _ (fun j => (books j).outstanding) (Finset.mem_univ i)]
  ring

omit [Fintype ι] in
theorem view_setTx {tx : Tx} (hrow : tx.row = (s.tx i).row) (j : ι) :
    (s.setTx i tx).view j = s.view j := by
  unfold World.view World.setTx
  by_cases hji : j = i
  · subst hji
    simp [hrow]
  · simp [Function.update_of_ne hji]

theorem Inv.retx (h : Inv account s) {tx : Tx} (hrow : tx.row = (s.tx i).row) :
    Inv account (s.setTx i tx) where
  balance := h.balance
  view := by
    intro j
    rw [view_setTx hrow]
    exact h.view j
  locked := by
    intro j hj
    refine h.locked j fun hnone => hj ?_
    by_cases hji : j = i
    · subst hji
      simpa [World.setTx, hrow] using hnone
    · simpa [World.setTx, Function.update_of_ne hji] using hnone
  outstanding := h.outstanding
  held := h.held
  neverTwice := h.neverTwice
  new := h.new
  program := h.program

/-- An attempt gets an expected answer to its next command, after the account and its
transaction have changed as its books say. -/
theorem Inv.reply (h : Inv account s) {t : World ι} {c : Command}
    {next : Except Fault (Answer c) → Prog Ending} (hnext : s.next? i = some ⟨c, next⟩)
    {r : Except Fault (Answer c)} (hexpects : expects (s.books i, s.aborted i) c r)
    (htask : t.task = s.task) (hbooks : t.books = s.books) (haborted : t.aborted = s.aborted)
    (hbalance : t.account.reservedAcu = s.account.reservedAcu +
      (((s.books i).after c r).outstanding - (s.books i).outstanding))
    (hview : (t.view i).reservedAcu = t.account.reservedAcu + ((s.books i).after c r).change)
    (hothers : ∀ j, j ≠ i → (t.view j).reservedAcu = t.account.reservedAcu + (s.books j).change)
    (hlocked : ∀ j, (t.tx j).row ≠ none → t.rowLock = some j) :
    Inv account (t.reply i c r next) := by
  have hbooks' : (t.reply i c r next).books =
      Function.update s.books i ((s.books i).after c r) := by
    simp only [World.reply, hbooks]
  have hupdate : ∀ P : ι → Books → Prop, P i ((s.books i).after c r) →
      (∀ j, j ≠ i → P j (s.books j)) → ∀ j, P j ((t.reply i c r next).books j) := by
    intro P hself hrest j
    rw [hbooks']
    exact (Function.forall_update_iff s.books P).mpr ⟨hself, hrest⟩ j
  have hother : ∀ j, j ≠ i → (t.reply i c r next).books j = s.books j := by
    intro j hji
    rw [hbooks', Function.update_of_ne hji]
  have htask' : ∀ j, j ≠ i → (t.reply i c r next).task j = s.task j := by
    intro j hji
    simp only [World.reply, World.resume, Function.update_of_ne hji, htask]
  -- what the command needs keeps its own attempt's books sound
  obtain ⟨hout, hheld, hnever⟩ :=
    after_sound (h.needs hnext) (h.outstanding i) (h.held i) (h.neverTwice i) r
  refine ⟨?_, ?_, hlocked, ?_, ?_, ?_, fun j hj => ?_, fun j p hp => ?_⟩
  · rw [hbooks', sum_outstanding_update]
    show t.account.reservedAcu = _
    rw [hbalance, h.balance]
    ring
  · exact hupdate (fun j b => (t.view j).reservedAcu = t.account.reservedAcu + b.change)
      hview hothers
  · exact hupdate (fun _ b => 0 ≤ b.outstanding) hout fun j _ => h.outstanding j
  · exact hupdate (fun _ b => 0 ≤ b.held) hheld fun j _ => h.held j
  · exact hupdate (fun _ b => b.NeverTwice) hnever fun j _ => h.neverTwice j
  · have hji : j ≠ i := by
      rintro rfl
      simp [World.reply, World.resume] at hj
    rw [hother j hji]
    exact h.new j ((htask' j hji).symm.trans hj)
  · by_cases hji : j = i
    · subst hji
      obtain rfl : next r = p := by simpa [World.reply, World.resume] using hp
      have haborted' : (t.reply j c r next).aborted j = abortedAfter (s.aborted j) c r := by
        simp [World.reply, haborted]
      rw [hbooks', Function.update_self, haborted']
      exact (h.program j _ (task_of_next? hnext)).2 r hexpects
    · have haborted' : (t.reply i c r next).aborted j = s.aborted j := by
        simp [World.reply, haborted, Function.update_of_ne hji]
      rw [hother j hji, haborted']
      exact h.program j p ((htask' j hji).symm.trans hp)

omit [Fintype ι] in
theorem mayWrite_other (h : s.mayWrite i) {j : ι} (hj : s.rowLock = some j) : j = i := by
  simpa [World.mayWrite, hj] using (Bool.and_eq_true_iff.mp h).2

theorem Inv.write (h : Inv account s) {c : Call} {next : Except Fault Report → Prog Ending}
    (hnext : s.next? i = some ⟨.bill c, next⟩) (hwrite : s.mayWrite i) {tx : Tx}
    {row : BillingAccount} (hrow : tx.row = some row) {report : Report}
    (hbooked : Booked (s.books i) (s.aborted i) c report (s.view i) row) :
    Inv account ({ s.setTx i tx with rowLock := some i }.reply i (.bill c) (.ok report) next) := by
  have hself : ({ s.setTx i tx with rowLock := some i } : World ι).view i = row := by
    simp [World.view, World.setTx, hrow]
  refine h.reply hnext hbooked.expects rfl rfl rfl ?_ ?_ (fun j hji => ?_) fun j hj => ?_
  · rw [hbooked.outstanding, sub_self, add_zero]
    rfl
  · rw [hself, hbooked.change, h.view i]
    show _ = s.account.reservedAcu + _
    ring
  · have hother : ({ s.setTx i tx with rowLock := some i } : World ι).view j = s.view j := by
      simp [World.view, World.setTx, Function.update_of_ne hji]
    rw [hother]
    exact h.view j
  · by_cases hji : j = i
    · rw [hji]
    · have hlock : s.rowLock = some j :=
        h.locked j (by simpa [World.setTx, Function.update_of_ne hji] using hj)
      exact absurd (mayWrite_other hwrite hlock) hji

theorem Inv.answer (h : Inv account s) {c : Command}
    {next : Except Fault (Answer c) → Prog Ending} (hnext : s.next? i = some ⟨c, next⟩)
    {r : Except Fault (Answer c)} (hexpects : expects (s.books i, s.aborted i) c r)
    (hbooks : (s.books i).after c r = s.books i) : Inv account (s.reply i c r next) := by
  refine h.reply hnext hexpects rfl rfl rfl ?_ ?_ (fun j _ => h.view j) h.locked
  · rw [hbooks, sub_self, add_zero]
  · rw [hbooks]
    exact h.view i

theorem Inv.answerCall (h : Inv account s) {c : Command}
    {next : Except Fault (Answer c) → Prog Ending} (hnext : s.next? i = some ⟨c, next⟩)
    {r : Except Fault (Answer c)} (hexpects : expects (s.books i, s.aborted i) c r)
    (hbooks : (s.books i).after c r = s.books i) {tx : Tx} (hrow : tx.row = (s.tx i).row) :
    Inv account ((s.setTx i tx).reply i c r next) := by
  have hretx : Inv account (s.setTx i tx) := h.retx hrow
  have hnext' : (s.setTx i tx).next? i = some ⟨c, next⟩ := hnext
  exact hretx.answer hnext' hexpects hbooks

/-- The session of an attempt has ended: the row it saw is not its own any more. -/
theorem Inv.endTx (h : Inv account s) {t : World ι} {c : Command}
    {next : Except Fault (Answer c) → Prog Ending} (hnext : s.next? i = some ⟨c, next⟩)
    {r : Except Fault (Answer c)} (hexpects : expects (s.books i, s.aborted i) c r)
    (htask : t.task = s.task) (hbooks : t.books = s.books) (haborted : t.aborted = s.aborted)
    (htx : t.tx = Function.update s.tx i Tx.empty)
    (hlock : t.rowLock = if s.rowLock = some i then none else s.rowLock)
    (hbalance : t.account.reservedAcu = s.account.reservedAcu +
      (((s.books i).after c r).outstanding - (s.books i).outstanding))
    (hchange : ((s.books i).after c r).change = 0)
    (hsame : (s.tx i).row = none → t.account = s.account) :
    Inv account (t.reply i c r next) := by
  refine h.reply hnext hexpects htask hbooks haborted hbalance ?_ (fun j hji => ?_) fun j hj => ?_
  · rw [hchange, add_zero]
    simp [World.view, htx, Tx.empty]
  · have hview := h.view j
    cases hrow : (s.tx j).row with
    | none =>
      have hnone : (s.books j).change = 0 := by
        simpa [World.view, hrow] using hview
      rw [hnone, add_zero]
      simp [World.view, htx, Function.update_of_ne hji, hrow]
    | some row =>
      -- whoever else has written the row holds its lock
      have hj : s.rowLock = some j := h.locked j (by simp [hrow])
      have hi : (s.tx i).row = none := by
        by_contra hne
        exact hji (Option.some.inj (hj.symm.trans (h.locked i hne)))
      rw [hsame hi, ← hview]
      simp [World.view, htx, Function.update_of_ne hji, hrow]
  · have hji : j ≠ i := by
      rintro rfl
      simp [htx, Tx.empty] at hj
    have hj' : s.rowLock = some j :=
      h.locked j (by simpa [htx, Function.update_of_ne hji] using hj)
    rw [hlock, hj', if_neg (by simpa using hji)]

theorem Inv.receive (h : Inv account s) (hi : s.task i = none)
    (ha : (attempts i).reservedAcu = 0) (hcost : 0 ≤ (attempts i).estimatedCostUsd) :
    Inv account (s.resume i (processJobTask (attempts i))) where
  balance := h.balance
  view := h.view
  locked := h.locked
  outstanding := h.outstanding
  held := h.held
  neverTwice := h.neverTwice
  new := by
    intro j hj
    by_cases hji : j = i
    · subst hji
      exact h.new j hi
    · exact h.new j (by simpa [World.resume, Function.update_of_ne hji] using hj)
  program := by
    intro j p hp
    by_cases hji : j = i
    · subst hji
      obtain rfl : processJobTask (attempts j) = p := by simpa [World.resume] using hp
      show Program.wp ghost _ _ (s.books j, s.aborted j)
      rw [h.new j hi]
      exact wp_processJobTask ha hcost
    · exact h.program j p (by simpa [World.resume, Function.update_of_ne hji] using hp)

/-! ## Steps and runs -/

omit [DecidableEq ι] in
theorem inv_start (ledger : JobId → Option LedgerRow) :
    Inv account (start account ledger : World ι) where
  balance := by simp [start, Books.empty, Books.outstanding]
  view := fun i => by simp [start, World.view, Tx.empty, Books.empty, Books.change]
  locked := fun i h => absurd rfl h
  outstanding := fun i => by simp [start, Books.empty, Books.outstanding]
  held := fun i => by simp [start, Books.empty, Books.held, Books.outstanding, Books.change]
  neverTwice := fun i => Books.owes_empty.neverTwice
  new := fun i _ => rfl
  program := fun i p h => by cases h

omit [Fintype ι] in
theorem reply_eq_resume {tx : Tx} {c : Call} {next : Except Fault Report → Prog Ending}
    {report : Report} (h : (s.books i).after (.bill c) (.ok report) = s.books i) :
    (s.setTx i tx).reply i (.bill c) (.ok report) next =
      (s.setTx i tx).resume i (next (.ok report)) := by
  have haborted : abortedAfter (s.aborted i) (.bill c) (.ok report) = s.aborted i := rfl
  unfold World.reply World.resume World.setTx
  simp only [h, haborted, Function.update_eq_self]

theorem Inv.select (h : Inv account s) {now : Time} {overDailyLimit : Bool} {c : Call}
    {next : Except Fault Report → Prog Ending} (hnext : s.next? i = some ⟨.bill c, next⟩)
    {s' : World ι} (hs : JobReservations.select s i now overDailyLimit c next = some s') :
    Inv account s' := by
  unfold JobReservations.select at hs
  split at hs
  · cases hs
  split at hs
  · rename_i r hr
    obtain rfl := Option.some.inj hs
    obtain ⟨hbooks, hexpects⟩ := onSelect_done (h.needs hnext) hr
    exact h.answerCall hnext hexpects hbooks rfl
  · obtain rfl := Option.some.inj hs
    exact h.retx rfl
  · cases hs

theorem Inv.update (h : Inv account s) (hstart : 0 ≤ account.reservedAcu) {c : Call}
    {next : Except Fault Report → Prog Ending} (hnext : s.next? i = some ⟨.bill c, next⟩)
    {seen : BillingAccount} (hseen : (s.tx i).seen = some seen)
    (hok : Settling attempts s (.update i)) {s' : World ι}
    (hs : JobReservations.update s i seen c next = some s') : Inv account s' := by
  simp only [Settling, hnext, hseen] at hok
  unfold JobReservations.update at hs
  split at hs
  · rename_i hwrite
    split at hs
    · rename_i row report hup
      obtain rfl := Option.some.inj hs
      simp only [hup, decide_eq_true_eq] at hok
      exact h.write hnext hwrite rfl
        (onUpdate_booked (h.needs hnext) (h.held_le_view hstart i) hok hup)
    · rename_i hup
      simp only [hup] at hok
      simp only at hs
      split at hs
      · obtain rfl := Option.some.inj hs
        exact h.retx rfl
      · rename_i hlast
        obtain rfl := Option.some.inj hs
        have hdenied : outOfTries c ≠ .returned := by simpa [hlast] using hok
        obtain ⟨hbooks, hexpects⟩ := outOfTries_booked (h.needs hnext) hdenied
        rw [← reply_eq_resume hbooks]
        exact h.answerCall hnext hexpects hbooks rfl
  · cases hs

theorem Inv.lockRow (h : Inv account s) (hstart : 0 ≤ account.reservedAcu) {now : Time} {c : Call}
    {next : Except Fault Report → Prog Ending} (hnext : s.next? i = some ⟨.bill c, next⟩)
    (hok : Settling attempts s (.lockRow i now)) {s' : World ι}
    (hs : JobReservations.lockRow s i now c next = some s') : Inv account s' := by
  simp only [Settling, hnext] at hok
  unfold JobReservations.lockRow at hs
  split at hs
  · rename_i hwrite
    obtain ⟨p, hp, rfl⟩ := Option.map_eq_some_iff.mp hs
    refine h.write hnext hwrite rfl
      (onLockRow_booked (h.needs hnext) (h.held_le_view hstart i) ?_ ?_ hp)
    · rintro jobId r rfl
      simpa [World.owesNothing] using hok
    · rintro jobId acu reason rfl
      simpa [World.owesNothing] using hok
  · cases hs

theorem Inv.commit (h : Inv account s) {next : Except Fault Unit → Prog Ending}
    (hnext : s.next? i = some ⟨.commit, next⟩) (haborted : s.aborted i = false) :
    Inv account ((s.commitTx i).reply i .commit (.ok ()) next) := by
  refine h.endTx hnext haborted rfl rfl rfl rfl rfl ?_ (Books.change_commit _) fun hrow => ?_
  · show (s.view i).reservedAcu =
      s.account.reservedAcu + ((s.books i).commit.outstanding - (s.books i).outstanding)
    rw [h.view i, Books.outstanding_commit, Books.held]
    ring
  · show s.view i = s.account
    simp [World.view, hrow]

theorem Inv.close (h : Inv account s) {next : Except Fault Unit → Prog Ending}
    (hnext : s.next? i = some ⟨.close, next⟩) :
    Inv account (((s.setTx i Tx.empty).unlock i).reply i .close (.ok ()) next) := by
  refine h.endTx hnext trivial rfl rfl rfl rfl rfl ?_ (Books.change_close _) fun _ => rfl
  show s.account.reservedAcu =
    s.account.reservedAcu + ((s.books i).close.outstanding - (s.books i).outstanding)
  rw [Books.outstanding_close, sub_self, add_zero]

theorem inv_step (hstart : 0 ≤ account.reservedAcu) {s' : World ι} {e : Event ι}
    (h : Inv account s) (hok : Settling attempts s e) (hs : step attempts s e = some s') :
    Inv account s' := by
  cases e with
  | receive i =>
    simp only [step] at hs
    split at hs
    · rename_i hnew
      obtain rfl := Option.some.inj hs
      simp only [Settling, Bool.and_eq_true, decide_eq_true_eq] at hok
      exact h.receive hnew hok.1 hok.2
    · cases hs
  | select i now overDailyLimit =>
    simp only [step] at hs
    split at hs
    · rename_i c next hnext
      exact h.select hnext hs
    · cases hs
  | update i =>
    simp only [step] at hs
    split at hs
    · rename_i c next seen hnext hseen
      exact h.update hstart hnext hseen hok hs
    · cases hs
  | lockRow i now =>
    simp only [step] at hs
    split at hs
    · rename_i c next hnext
      exact h.lockRow hstart hnext hok hs
    · cases hs
  | lockRefused i =>
    simp only [step] at hs
    split at hs
    · rename_i jobId r next hnext
      split at hs
      · cases hs
      obtain rfl := Option.some.inj hs
      have hzero : (s.books i).outstanding = 0 := by
        simpa [Settling, World.owesNothing] using hok
      exact h.answer hnext (.inr hzero) rfl
    · cases hs
  | commit i =>
    simp only [step] at hs
    split at hs
    · rename_i next hnext
      split at hs
      · cases hs
      · rename_i haborted
        obtain rfl := Option.some.inj hs
        exact h.commit hnext (by simpa using haborted)
    · cases hs
  | close i =>
    simp only [step] at hs
    split at hs
    · rename_i next hnext
      obtain rfl := Option.some.inj hs
      exact h.close hnext
    · cases hs
  | answer i answers =>
    obtain ⟨⟨c, next⟩, hnext, hs⟩ := Option.bind_eq_some_iff.mp hs
    simp only at hs
    split at hs
    · cases hs
    rename_i haccount
    obtain rfl := Option.some.inj hs
    simp only [Settling, hnext] at hok
    have hneutral : Neutral c := by cases c <;> trivial
    have hexpects : expects (s.books i, s.aborted i) c (.ok (answers c)) := by
      cases c with
      | processJob => simpa [expects, World.owesNothing] using hok
      | bill c => exact hneutral.elim
      | commit => exact hneutral.elim
      | _ => trivial
    exact h.answer hnext hexpects (after_neutral hneutral _)
  | fail i fault =>
    obtain ⟨⟨c, next⟩, hnext, hs⟩ := Option.bind_eq_some_iff.mp hs
    simp only at hs
    split at hs
    · cases hs
    rename_i hclose
    obtain rfl := Option.some.inj hs
    simp only [Settling, hnext] at hok
    have hexpects : expects (s.books i, s.aborted i) c (.error fault) := by
      cases c with
      | bill c =>
        cases c with
        | reconcileCost jobId r => simpa [expects, World.owesNothing] using hok
        | grantCredit jobId acu reason => simpa [expects, World.owesNothing] using hok
        | _ => trivial
      | _ => trivial
    exact h.answerCall hnext hexpects (after_error hclose fault) rfl

omit [DecidableEq ι] in
theorem Inv.owes_of_idle (h : Inv account s) (hi : s.running i = false) :
    (s.books i).Owes 0 := by
  cases htask : s.task i with
  | none => exact (h.new i htask).symm ▸ Books.owes_empty
  | some p =>
    have hwp := h.program i p htask
    cases p with
    | ret a => exact hwp
    | raise e => exact hwp
    | call c next => simp [World.running, World.next?, htask] at hi

omit [DecidableEq ι] in
theorem Inv.conserved (h : Inv account s) : Conserved account s := by
  have hrunning : ∀ i, (if s.running i then (s.books i).outstanding else 0) =
      (s.books i).outstanding := fun i => by
    split
    · rfl
    · rename_i hi
      exact (h.owes_of_idle (by simpa using hi)).outstanding.symm
  refine ⟨?_, fun hidle => ?_, fun i hi => ?_, h.neverTwice⟩
  · simp only [hrunning]
    exact h.balance
  · rw [h.balance, Finset.sum_eq_zero fun i _ => (h.owes_of_idle (hidle i)).outstanding, add_zero]
  · simpa using (h.owes_of_idle hi).reserved.symm

end

/-! ## An attempt with a rejected output -/

/-- An account on which another job has reserved 5 ACU. -/
def sharedAccount : BillingAccount :=
  ⟨7, "pro", 600, 0, 5, 0, none, false, none, none, none, none, none, 0⟩

def attempt : Unit → Attempt := fun _ => ⟨1, none, 0, false, 24 / 10000, 0, 1, 0⟩

def fallback : (c : Command) → Answer c
  | .processJob => ⟨true, true, 900⟩
  | c => good c

def answered (n : ℕ) : List (Event Unit) := List.replicate n (.answer () good)

def toGateway : List (Event Unit) :=
  .receive () :: answered 7 ++ [.select () 0 false, .update ()] ++ answered 2 ++
    [.commit (), .close ()]

def release : List (Event Unit) := [.select () 0 false, .update (), .commit (), .close ()]

/-- The output is rejected: the driver releases the reservation and raises, and its handler
releases it again. -/
def rejectedOutput : List (Event Unit) :=
  toGateway ++ [.answer () fallback] ++ release ++ release ++ answered 1

def acceptedOutput : List (Event Unit) :=
  toGateway ++ answered 4 ++ [.lockRow () 0] ++ answered 2 ++ [.commit (), .close ()]

def afterRejected : World Unit :=
  (run (step attempt) (start sharedAccount fun _ => none) rejectedOutput).get (by decide +kernel)

end WorkTicket.Tasks.JobReservations
