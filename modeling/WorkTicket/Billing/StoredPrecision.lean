import WorkTicket.Billing.QuotaEngine
import WorkTicket.Foundation.Transition

/-! Reservations in the precision of their column: every write of `reserved_acu` is rounded
to four decimals, the one that reserves an amount and the one that releases it later. -/

namespace WorkTicket.Billing.StoredPrecision

open WorkTicket.Decimals WorkTicket.Transition

/-- What the row keeps of an UPDATE of `reserved_acu`; a value that does not fit raises. -/
def storeReserved (a : BillingAccount) : Option BillingAccount :=
  (acuColumn.store a.reservedAcu).map fun r => { a with reservedAcu := r }

inductive Op
  | reserve (estimatedCostUsd : ℚ)
  | release (reservedAcu : ℚ)
  deriving DecidableEq, Repr

/-- The row, and the amounts that are reserved and not yet released. -/
structure Books where
  account : BillingAccount
  outstanding : List ℚ
  deriving DecidableEq, Repr

/-- The UPDATE of an operation that no other writer disturbs. A release is of an outstanding
amount, and is not clamped. -/
def step (s : Books) : Op → Option Books
  | .reserve cost =>
    if 0 < costAcu cost then
      ((versionedUpdate s.account s.account (reserveWrite cost s.account)).bind storeReserved).map
        fun a => ⟨a, costAcu cost :: s.outstanding⟩
    else none
  | .release amount =>
    if amount ∈ s.outstanding ∧ amount ≤ s.account.reservedAcu then
      ((versionedUpdate s.account s.account (releaseWrite amount s.account)).bind storeReserved).map
        fun a => ⟨a, s.outstanding.erase amount⟩
    else none

def Op.ofMidpoint : Op → Bool
  | .reserve cost => acuColumn.Midpoint (costAcu cost)
  | .release _ => false

/-! ## One operation -/

/-- The balance without what the outstanding amounts take off again when they are released. -/
def settled (s : Books) : ℚ :=
  s.account.reservedAcu - (s.outstanding.map acuColumn.roundedDown).sum

theorem storeReserved_eq_some {a a' : BillingAccount} (h : storeReserved a = some a') :
    a'.reservedAcu = acuColumn.rounded a.reservedAcu := by
  obtain ⟨r, hr, rfl⟩ := Option.map_eq_some_iff.mp h
  exact (Column.store_eq_some.mp hr).1.symm

theorem step_reserve {s s' : Books} {cost : ℚ} (h : step s (.reserve cost) = some s') :
    0 < costAcu cost ∧
      s'.account.reservedAcu = acuColumn.rounded (s.account.reservedAcu + costAcu cost) ∧
      s'.outstanding = costAcu cost :: s.outstanding := by
  simp only [step] at h
  split at h
  · rename_i hpos
    obtain ⟨a, ha, rfl⟩ := Option.map_eq_some_iff.mp h
    simp only [versionedUpdate, if_true, Option.bind_some] at ha
    have hreserved := storeReserved_eq_some ha
    simp only [reserveWrite] at hreserved
    exact ⟨hpos, hreserved, rfl⟩
  · cases h

theorem step_release {s s' : Books} {amount : ℚ} (h : step s (.release amount) = some s') :
    amount ∈ s.outstanding ∧ amount ≤ s.account.reservedAcu ∧
      s'.account.reservedAcu = acuColumn.rounded (s.account.reservedAcu - amount) ∧
      s'.outstanding = s.outstanding.erase amount := by
  simp only [step] at h
  split at h
  · rename_i hok
    obtain ⟨a, ha, rfl⟩ := Option.map_eq_some_iff.mp h
    simp only [versionedUpdate, if_true, Option.bind_some] at ha
    have hreserved := storeReserved_eq_some ha
    simp only [releaseWrite, clampZero_of_nonneg (sub_nonneg.mpr hok.2)] at hreserved
    exact ⟨hok.1, hok.2, hreserved, rfl⟩
  · cases h

theorem step_onScale {s s' : Books} {op : Op} (h : step s op = some s') :
    acuColumn.OnScale s'.account.reservedAcu := by
  cases op with
  | reserve cost => exact (step_reserve h).2.1 ▸ Column.onScale_rounded
  | release amount => exact (step_release h).2.2.1 ▸ Column.onScale_rounded

theorem step_release_settled {s s' : Books} {amount : ℚ}
    (hscale : acuColumn.OnScale s.account.reservedAcu)
    (h : step s (.release amount) = some s') : settled s' = settled s := by
  obtain ⟨hmem, hle, hreserved, hout⟩ := step_release h
  have hperm := (List.perm_cons_erase hmem).map acuColumn.roundedDown
  have hsum := hperm.sum_eq
  rw [List.map_cons, List.sum_cons] at hsum
  rw [settled, settled, hreserved, hout, Column.rounded_sub hscale hle, hsum]
  ring

/-- A reservation takes one unit more than its release takes off, if the amount lies between
two values of the column. -/
theorem step_reserve_settled {s s' : Books} {cost : ℚ}
    (hscale : acuColumn.OnScale s.account.reservedAcu)
    (h : step s (.reserve cost) = some s') : settled s' = settled s +
      if acuColumn.Midpoint (costAcu cost) ∧ 0 ≤ s.account.reservedAcu + costAcu cost
      then acuColumn.unit else 0 := by
  obtain ⟨-, hreserved, hout⟩ := step_reserve h
  rw [settled, settled, hreserved, hout, Column.rounded_add hscale, List.map_cons, List.sum_cons]
  ring

theorem step_release_nonneg {s s' : Books} {amount : ℚ}
    (h : step s (.release amount) = some s') : 0 ≤ s'.account.reservedAcu := by
  obtain ⟨-, hle, hreserved, -⟩ := step_release h
  rw [hreserved]
  exact Column.rounded_nonneg (sub_nonneg.mpr hle)

theorem step_nonneg {s s' : Books} {op : Op} (hs : 0 ≤ s.account.reservedAcu)
    (h : step s op = some s') : 0 ≤ s'.account.reservedAcu := by
  cases op with
  | reserve cost =>
    obtain ⟨hpos, hreserved, -⟩ := step_reserve h
    rw [hreserved]
    exact Column.rounded_nonneg (add_nonneg hs hpos.le)
  | release amount => exact step_release_nonneg h

/-! ## Runs -/

/-- From a balance that is not negative, each such amount leaves one unit behind. -/
theorem run_settled {s s' : Books} {ops : List Op}
    (hscale : acuColumn.OnScale s.account.reservedAcu) (hs : 0 ≤ s.account.reservedAcu)
    (h : run step s ops = some s') :
    settled s' = settled s + ops.countP Op.ofMidpoint * acuColumn.unit := by
  induction ops generalizing s with
  | nil => cases h; simp
  | cons op ops ih =>
    obtain ⟨t, ht, hrest⟩ := Option.bind_eq_some_iff.mp h
    have hrun := ih (step_onScale ht) (step_nonneg hs ht) hrest
    cases op with
    | reserve cost =>
      have hsum : 0 ≤ s.account.reservedAcu + costAcu cost :=
        add_nonneg hs (step_reserve ht).1.le
      rw [hrun, step_reserve_settled hscale ht, List.countP_cons]
      by_cases hmid : acuColumn.Midpoint (costAcu cost)
      · simp only [Op.ofMidpoint, hmid, hsum, and_self, decide_true, if_true]
        push_cast
        ring
      · simp [Op.ofMidpoint, hmid]
    | release amount =>
      rw [hrun, step_release_settled hscale ht, List.countP_cons]
      simp [Op.ofMidpoint]

theorem run_settled_of_none {s s' : Books} {ops : List Op}
    (hscale : acuColumn.OnScale s.account.reservedAcu) (hops : ∀ op ∈ ops, op.ofMidpoint = false)
    (h : run step s ops = some s') : settled s' = settled s := by
  induction ops generalizing s with
  | nil => cases h; rfl
  | cons op ops ih =>
    obtain ⟨t, ht, hrest⟩ := Option.bind_eq_some_iff.mp h
    rw [ih (step_onScale ht) (fun o ho => hops o (List.mem_cons_of_mem _ ho)) hrest]
    cases op with
    | reserve cost =>
      have hmid : ¬acuColumn.Midpoint (costAcu cost) := by
        simpa [Op.ofMidpoint] using hops _ List.mem_cons_self
      rw [step_reserve_settled hscale ht, if_neg (fun h => hmid h.1), add_zero]
    | release amount => exact step_release_settled hscale ht

/-- What was released last, was released from what was there. -/
theorem run_nonneg {s s' : Books} {ops : List Op} (hops : ops ≠ [])
    (h : run step s ops = some s') (hall : s'.outstanding = []) :
    0 ≤ s'.account.reservedAcu := by
  induction ops generalizing s with
  | nil => exact absurd rfl hops
  | cons op ops ih =>
    obtain ⟨t, ht, hrest⟩ := Option.bind_eq_some_iff.mp h
    cases ops with
    | cons op' ops => exact ih (List.cons_ne_nil _ _) hrest
    | nil =>
      cases hrest
      cases op with
      | reserve cost => exact absurd ((step_reserve ht).2.2.symm.trans hall) (List.cons_ne_nil _ _)
      | release amount => exact step_release_nonneg ht

theorem settled_of_released {s : Books} (h : s.outstanding = []) :
    settled s = s.account.reservedAcu := by
  simp [settled, h]

/-- Once every amount that was reserved is released again, the balance is what it was at the
start, if and only if none of the amounts lies halfway between two values of the column. -/
theorem reserved_restored_iff {a : BillingAccount} (ha : acuColumn.OnScale a.reservedAcu)
    {ops : List Op} {s : Books} (h : run step ⟨a, []⟩ ops = some s) (hall : s.outstanding = []) :
    s.account.reservedAcu = a.reservedAcu ↔
      ∀ cost, Op.reserve cost ∈ ops → ¬acuColumn.Midpoint (costAcu cost) := by
  have hend := settled_of_released hall
  have hstart : settled ⟨a, []⟩ = a.reservedAcu := settled_of_released rfl
  constructor
  · intro hsame cost hcost hmid
    have hnonneg : 0 ≤ a.reservedAcu :=
      hsame ▸ run_nonneg (List.ne_nil_of_mem hcost) h hall
    have hdrift := run_settled ha hnonneg h
    have hcount : 0 < ops.countP Op.ofMidpoint :=
      List.countP_pos_iff.mpr ⟨_, hcost, by simpa [Op.ofMidpoint] using hmid⟩
    have hpos : 0 < (ops.countP Op.ofMidpoint : ℚ) * acuColumn.unit :=
      mul_pos (by exact_mod_cast hcount) acuColumn.unit_pos
    rw [hend, hstart, hsame] at hdrift
    linarith
  · intro hnone
    have hops : ∀ op ∈ ops, op.ofMidpoint = false := by
      intro op hop
      cases op with
      | reserve cost => simpa [Op.ofMidpoint] using hnone cost hop
      | release amount => rfl
    have hsame := run_settled_of_none ha hops h
    rwa [hend, hstart] at hsame

def freshAccount : BillingAccount := newAccount 0 1 (some "free")

theorem reserved_restored_fresh :
    ∃ s, run step ⟨freshAccount, []⟩ [.reserve (3 / 1000), .release (3 / 10)] = some s ∧
      s.outstanding = [] ∧ s.account.reservedAcu = 0 := by
  have hrun : ∃ s, run step ⟨freshAccount, []⟩ [.reserve (3 / 1000), .release (3 / 10)] = some s ∧
      s.outstanding = [] := by decide +kernel
  obtain ⟨s, hs, hall⟩ := hrun
  refine ⟨s, hs, hall, ?_⟩
  refine (reserved_restored_iff ⟨0, by simp [freshAccount, newAccount]⟩ hs hall).mpr ?_
  intro cost hcost
  have hcost' : cost = 3 / 1000 := by simpa using hcost
  subst hcost'
  decide +kernel

theorem not_restored_halfUnit : admissionDenial freshAccount (1 / 2000000) false = none ∧
    ∃ s, run step ⟨freshAccount, []⟩ [.reserve (1 / 2000000), .release (1 / 20000)] = some s ∧
      s.outstanding = [] ∧ s.account.reservedAcu ≠ freshAccount.reservedAcu := by
  decide +kernel

end WorkTicket.Billing.StoredPrecision
