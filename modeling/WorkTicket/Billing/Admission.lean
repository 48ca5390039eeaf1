import WorkTicket.Billing.ConcurrentCalls

/-! Admission under concurrency: the row that `check_and_reserve` writes has room for
what it reserves, however its SELECT and its UPDATE interleave with the other versioned
updates. The proof carries that an unchanged version means an unchanged row. -/

namespace WorkTicket.Billing.ConcurrentCalls

open WorkTicket.Transition

/-- The calls that write the row by a versioned UPDATE, with amounts that are not negative. -/
def Call.isVersioned : Call → Bool
  | .checkAndReserve cost => 0 ≤ cost
  | .releaseReserved acu => 0 ≤ acu
  | .finalizeUsage cost acu => 0 ≤ cost ∧ 0 ≤ acu
  | .reconcileCost _ _ | .grantCredit _ _ _ | .cleanupStaleReservations => false

def Event.isCommit {ι : Type*} : Event ι → Bool
  | .commit _ => true
  | _ => false

section
variable {ι : Type*}

/-- After the events `es`: every reservation written fits the quota, nothing reserved is
negative, and each effective update has raised the version by one. -/
structure Admission (account : BillingAccount) (es : List (Event ι)) (s : World ι) : Prop where
  withinQuota : ∀ i p, s.progress i = .wrote p → p.report = .allowed →
    p.account.usedAcu + p.account.reservedAcu ≤ p.account.monthlyQuotaAcu
  reserved : 0 ≤ s.account.reservedAcu
  reservedNext : ∀ i p, s.progress i = .wrote p → 0 ≤ p.account.reservedAcu
  version : s.account.version = account.version + es.countP Event.isCommit
  versionNext : ∀ i p, s.progress i = .wrote p → p.account.version = s.account.version + 1

/-- What a call has read: the committed row while its version is the committed one, with
room for what the call reserves. -/
structure ReadWell (call : Call) (row seen : BillingAccount) : Prop where
  version_le : seen.version ≤ row.version
  unchanged : seen.version = row.version → seen = row
  admitted : ∀ cost, call = .checkAndReserve cost → costAcu cost ≤ availableAcu seen

/-- What a call has written on the committed row and will commit. -/
structure WroteWell (row : BillingAccount) (p : Pending) : Prop where
  version : p.account.version = row.version + 1
  reserved : 0 ≤ p.account.reservedAcu
  withinQuota : p.report = .allowed → WithinQuota p.account

def ProgressWell (call : Call) (row : BillingAccount) (lock : Option ι) (i : ι) : Progress → Prop
  | .read _ seen => ReadWell call row seen
  | .wrote p => lock = some i ∧ WroteWell row p
  | .ready _ | .done _ => True

structure Versioned (call : ι → Call) (s : World ι) : Prop where
  reserved : 0 ≤ s.account.reservedAcu
  progress : ∀ i, ProgressWell (call i) s.account s.lock i (s.progress i)

variable {call : ι → Call} {s s' : World ι} {i : ι}

theorem ReadWell.of_newer {c : Call} {row row' seen : BillingAccount} (h : ReadWell c row seen)
    (hnewer : row.version < row'.version) : ReadWell c row' seen where
  version_le := h.version_le.trans hnewer.le
  unchanged := fun heq => absurd heq (h.version_le.trans_lt hnewer).ne
  admitted := h.admitted

/-- What the committed row and the lock keep of a call's progress. -/
theorem ProgressWell.frame {c : Call} {row row' : BillingAccount} {lock lock' : Option ι}
    {p : Progress} (h : ProgressWell c row lock i p)
    (hread : ∀ seen, ReadWell c row seen → ReadWell c row' seen)
    (hwrote : ∀ q, lock = some i → WroteWell row q → lock' = some i ∧ WroteWell row' q) :
    ProgressWell c row' lock' i p := by
  cases p with
  | ready tries => trivial
  | done r => trivial
  | read tries seen => exact hread seen h
  | wrote q => exact hwrote q h.1 h.2

theorem versionedUpdate_eq_some {seen row row' : BillingAccount}
    {write : BillingAccount → BillingAccount} :
    versionedUpdate seen row write = some row' ↔
      row.version = seen.version ∧ { write row with version := row.version + 1 } = row' := by
  unfold versionedUpdate
  split
  · rename_i hv
    simp [hv]
  · rename_i hv
    simp [hv]

theorem ReadWell.update {c : Call} {row seen row' : BillingAccount} {report : Report}
    (h : ReadWell c row seen) (hc : c.isVersioned) (hrow : 0 ≤ row.reservedAcu)
    (hup : onUpdate seen row c = some (row', report)) : WroteWell row ⟨row', none, report⟩ := by
  cases c with
  | checkAndReserve cost =>
    obtain ⟨written, hwritten, ⟨⟩⟩ := Option.map_eq_some_iff.mp hup
    obtain ⟨hversion, rfl⟩ := versionedUpdate_eq_some.mp hwritten
    have hsame : seen = row := h.unchanged hversion.symm
    subst hsame
    have hcost : 0 ≤ cost := by simpa [Call.isVersioned] using hc
    have hacu : 0 ≤ costAcu cost := by
      rw [costAcu]
      exact div_nonneg hcost (by norm_num [acuToUsd])
    exact ⟨rfl, add_nonneg hrow hacu, fun _ => withinQuota_withReservation (h.admitted cost rfl)⟩
  | releaseReserved acu =>
    obtain ⟨written, hwritten, ⟨⟩⟩ := Option.map_eq_some_iff.mp hup
    obtain ⟨-, rfl⟩ := versionedUpdate_eq_some.mp hwritten
    exact ⟨rfl, clampZero_nonneg _, fun h => by cases h⟩
  | finalizeUsage cost acu =>
    obtain ⟨written, hwritten, ⟨⟩⟩ := Option.map_eq_some_iff.mp hup
    obtain ⟨-, rfl⟩ := versionedUpdate_eq_some.mp hwritten
    exact ⟨rfl, clampZero_nonneg _, fun h => by cases h⟩
  | reconcileCost jobId r => cases hc
  | grantCredit jobId acu reason => cases hc
  | cleanupStaleReservations => cases hc

theorem onSelect_progressWell {c : Call} (hc : c.isVersioned) {now : Time} {overDailyLimit : Bool}
    {tries : ℕ} {row : BillingAccount} {p : Progress} (lock : Option ι)
    (h : onSelect now overDailyLimit tries row c = some p) : ProgressWell c row lock i p := by
  cases c with
  | checkAndReserve cost =>
    simp only [onSelect] at h
    split at h <;> obtain rfl := Option.some.inj h
    · trivial
    · rename_i hadmitted
      refine ⟨le_rfl, fun _ => rfl, fun cost' hcost => ?_⟩
      cases hcost
      exact availableAcu_of_admitted hadmitted
  | releaseReserved acu =>
    obtain rfl := Option.some.inj h
    exact ⟨le_rfl, fun _ => rfl, fun _ h => by cases h⟩
  | finalizeUsage cost acu =>
    obtain rfl := Option.some.inj h
    exact ⟨le_rfl, fun _ => rfl, fun _ h => by cases h⟩
  | reconcileCost jobId r => cases hc
  | grantCredit jobId acu reason => cases hc
  | cleanupStaleReservations => cases hc

variable [DecidableEq ι]

theorem Versioned.move (h : Versioned call s) {p : Progress} {lock : Option ι}
    (hp : ProgressWell (call i) s.account lock i p)
    (hlock : ∀ j, j ≠ i → s.lock = some j → lock = some j) :
    Versioned call { s.set i p with lock := lock } where
  reserved := h.reserved
  progress := by
    refine (Function.forall_update_iff _ _).mpr ⟨hp, fun j hji => ?_⟩
    exact (h.progress j).frame (fun _ => id) fun q hheld hwrote => ⟨hlock j hji hheld, hwrote⟩

/-- A commit makes every row read before an older one. -/
theorem Versioned.commit (h : Versioned call s) {p : Pending} (hp : s.progress i = .wrote p)
    (ledger : JobId → Option LedgerRow) :
    Versioned call { s.set i (.done p.report) with
      account := p.account, ledger := ledger, lock := none } := by
  have hi := h.progress i
  rw [hp] at hi
  obtain ⟨hlock, hwrote⟩ := hi
  have hnewer : s.account.version < p.account.version := by
    rw [hwrote.version]
    exact Nat.lt_succ_self _
  refine ⟨hwrote.reserved, (Function.forall_update_iff _ _).mpr ⟨trivial, fun j hji => ?_⟩⟩
  refine (h.progress j).frame (fun _ hread => hread.of_newer hnewer) fun q hheld _ => ?_
  exact absurd (Option.some.inj (hheld.symm.trans hlock)) hji

theorem versioned_step (hcalls : ∀ i, (call i).isVersioned) {e : Event ι}
    (h : Versioned call s) (hs : step call s e = some s') :
    Versioned call s' ∧
      s'.account.version = s.account.version + [e].countP Event.isCommit := by
  cases e with
  | select i now overDailyLimit =>
    simp only [step] at hs
    split at hs
    · obtain ⟨p, hsel, rfl⟩ := Option.map_eq_some_iff.mp hs
      exact ⟨h.move (onSelect_progressWell (hcalls i) s.lock hsel) fun j _ hj => hj, rfl⟩
    · cases hs
  | update i =>
    simp only [step] at hs
    split at hs
    · rename_i tries seen hp hlock
      split at hs
      · rename_i row' report hup
        obtain rfl := Option.some.inj hs
        have hread := h.progress i
        rw [hp] at hread
        have hwrote := hread.update (hcalls i) h.reserved hup
        exact ⟨h.move ⟨rfl, hwrote⟩ fun j _ hj => by simp [hlock] at hj, rfl⟩
      · split at hs <;> obtain rfl := Option.some.inj hs
        · exact ⟨h.move trivial fun j _ hj => hj, rfl⟩
        · exact ⟨h.move trivial fun j _ hj => hj, rfl⟩
    · cases hs
  | lockRow i now =>
    simp only [step] at hs
    split at hs
    · obtain ⟨p, hrow, -⟩ := Option.map_eq_some_iff.mp hs
      have hc := hcalls i
      cases hcall : call i <;> simp [hcall, onLockRow, Call.isVersioned] at hrow hc
    · cases hs
  | lockRefused i =>
    simp only [step] at hs
    split at hs
    · obtain rfl := Option.some.inj hs
      exact ⟨h.move trivial fun j _ hj => hj, rfl⟩
    · cases hs
  | commit i =>
    simp only [step] at hs
    split at hs
    · rename_i p hp
      obtain rfl := Option.some.inj hs
      have hi := h.progress i
      rw [hp] at hi
      exact ⟨h.commit hp _, hi.2.version⟩
    · cases hs
  | rollback i =>
    simp only [step] at hs
    split at hs
    · cases hs
    · obtain rfl := Option.some.inj hs
      refine ⟨h.move trivial fun j hji hj => ?_, rfl⟩
      rw [hj, if_neg fun he => hji (Option.some.inj he)]

theorem versioned_run (hcalls : ∀ i, (call i).isVersioned) {es : List (Event ι)}
    (h : Versioned call s) (hrun : run (step call) s es = some s') :
    Versioned call s' ∧ s'.account.version = s.account.version + es.countP Event.isCommit := by
  induction es generalizing s with
  | nil =>
    obtain rfl := Option.some.inj hrun
    exact ⟨h, rfl⟩
  | cons e es ih =>
    obtain ⟨t, ht, hrest⟩ := Option.bind_eq_some_iff.mp hrun
    obtain ⟨hwell, hfirst⟩ := versioned_step hcalls h ht
    obtain ⟨hend, hlater⟩ := ih hwell hrest
    refine ⟨hend, ?_⟩
    calc s'.account.version = t.account.version + es.countP Event.isCommit := hlater
      _ = s.account.version + ([e].countP Event.isCommit + es.countP Event.isCommit) := by
        rw [hfirst, Nat.add_assoc]
      _ = s.account.version + (e :: es).countP Event.isCommit := by
        rw [← List.countP_append, List.singleton_append]

/-- No interleaving of versioned calls admits more than the quota, takes the reserved
amount below zero, or moves the version by anything but one an update. -/
theorem admission_of_run (hcalls : ∀ i, (call i).isVersioned) {account : BillingAccount}
    (hreserved : 0 ≤ account.reservedAcu) {ledger : JobId → Option LedgerRow}
    {es : List (Event ι)} (hrun : run (step call) (start account ledger) es = some s) :
    Admission account es s := by
  have hstart : Versioned call (start account ledger) := ⟨hreserved, fun i => trivial⟩
  obtain ⟨hwell, hversion⟩ := versioned_run hcalls hstart hrun
  have hwrote : ∀ i p, s.progress i = .wrote p → WroteWell s.account p := by
    intro i p hp
    have hi := hwell.progress i
    rw [hp] at hi
    exact hi.2
  constructor
  · intro i p hp hallowed
    have hquota := (hwrote i p hp).withinQuota hallowed
    rw [WithinQuota] at hquota
    linarith
  · exact hwell.reserved
  · exact fun i p hp => (hwrote i p hp).reserved
  · exact hversion
  · exact fun i p hp => (hwrote i p hp).version

/-- `true` reserves 1 ACU while `false` gives 3 back. -/
def versionedCalls : Bool → Call
  | true => .checkAndReserve (1 / 100)
  | false => .releaseReserved 3

/-- The release is committed between the reservation's SELECT and its UPDATE, so that the
reservation reads again. -/
def retriedReserve : List (Event Bool) :=
  [.select true 0 false, .select false 0 false, .update false, .commit false, .update true,
    .select true 0 false, .update true]

theorem admission_retriedReserve :
    Admission account retriedReserve
      ((run (step versionedCalls) (start account fun _ => none) retriedReserve).get
        (by decide +kernel)) :=
  admission_of_run (by decide +kernel) (by decide +kernel) (Option.some_get _).symm

end
end WorkTicket.Billing.ConcurrentCalls
