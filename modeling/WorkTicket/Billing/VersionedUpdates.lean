import WorkTicket.Billing.QuotaEngine
import WorkTicket.Foundation.Retries

/-! The loops of `release_reserved` and `finalize_usage`: three tries at an UPDATE that checks
the version the try has read. A loop that misses three times ends like one that has written. -/

namespace WorkTicket.Billing.VersionedUpdates

open WorkTicket.Retries

/-- What a try meets: the account that its SELECT returns, which the session may take from a
copy that it has, the row that its UPDATE finds, and whether the database raises. -/
structure Try where
  read : Option BillingAccount
  row : BillingAccount
  raises : Bool

inductive Ended
  | raised
  | noAccount
  | written (before after : BillingAccount)
  | gaveUp
  deriving DecidableEq, Repr

section
variable (write : BillingAccount → BillingAccount → BillingAccount) (world : ℕ → Try)

/-- The loop from its try `k` on, with `more` tries after it. -/
def updateLoop : (more : ℕ) → (k : ℕ) → Ended
  | more, k =>
    if (world k).raises then .raised
    else match (world k).read with
      | none => .noAccount
      | some account =>
        match versionedUpdate account (world k).row (write account) with
        | some row => .written (world k).row row
        | none =>
          match more with
          | 0 => .gaveUp
          | more + 1 => updateLoop more (k + 1)

end

def finalizeUsage (actualCostUsd reservedAcu : ℚ) (world : ℕ → Try) : Ended :=
  updateLoop (finalizeWrite actualCostUsd reservedAcu) world (maxRetries - 1) 0

/-- The client of the sync pool when the reservation key is deleted. -/
inductive SyncRedis
  | absent
  | fails
  | up
  deriving DecidableEq, Repr

structure Released where
  ended : Ended
  keyDeleted : Bool
  deriving DecidableEq, Repr

/-- The key goes when the loop has ended, whichever way it has ended. -/
def removeKey (jobId : Option String) (redis : SyncRedis) (ended : Ended) : Released :=
  match ended with
  | .raised | .noAccount => ⟨ended, false⟩
  | .written _ _ | .gaveUp => ⟨ended, jobId.getD "" ≠ "" && redis = .up⟩

def releaseReserved (reservedAcu : ℚ) (jobId : Option String) (redis : SyncRedis)
    (world : ℕ → Try) : Released :=
  removeKey jobId redis (updateLoop (releaseWrite reservedAcu) world (maxRetries - 1) 0)

attribute [grind =] updateLoop finalizeUsage removeKey releaseReserved

/-! ## What the loops report -/

/-- The row after an UPDATE that has read `read` and matches `row`. -/
def updated (write : BillingAccount → BillingAccount → BillingAccount)
    (read row : BillingAccount) : BillingAccount :=
  { write read row with version := row.version + 1 }

/-- The change has been made to the row that was there, once. -/
def AppliedOnce (write : BillingAccount → BillingAccount → BillingAccount) (ended : Ended) : Prop :=
  ∃ row, ended = .written row (updated write row row)

/-- A call that returns, for an account that exists, has made its change. -/
def Truthful (write : BillingAccount → BillingAccount → BillingAccount) (ended : Ended) : Prop :=
  ended ≠ .raised → ended ≠ .noAccount → AppliedOnce write ended

structure TruthfulRelease (reservedAcu : ℚ) (out : Released) : Prop where
  ended : Truthful (releaseWrite reservedAcu) out.ended
  key : out.keyDeleted → AppliedOnce (releaseWrite reservedAcu) out.ended

/-- The version has moved on from the one that the try has read. -/
def Try.Outrun (t : Try) : Prop :=
  t.raises = false ∧ ∃ account ∈ t.read, t.row.version ≠ account.version

/-- If the UPDATE of the try matches, then what it writes is right for the row it finds. -/
def Try.Lands (right : BillingAccount → BillingAccount → Prop) (t : Try) : Prop :=
  t.raises = false → ∀ account ∈ t.read, t.row.version = account.version → right account t.row

/-- One of the tries is not outrun, and what the first such try writes is right. -/
def LandsInTime (right : BillingAccount → BillingAccount → Prop) (world : ℕ → Try) : Prop :=
  EndsIn (fun i => (world i).Outrun) (fun i => (world i).Lands right) (maxRetries - 1) 0

/-- The balance that was read is the row's, or there is not enough in either of them. -/
def SameRelease (reservedAcu : ℚ) (read row : BillingAccount) : Prop :=
  read.reservedAcu = row.reservedAcu ∨
    (read.reservedAcu ≤ reservedAcu ∧ row.reservedAcu ≤ reservedAcu)

def SameFinalize (reservedAcu : ℚ) (read row : BillingAccount) : Prop :=
  SameRelease reservedAcu read row ∧ read.usedAcu = row.usedAcu

/-! ## The loop -/

theorem clampZero_sub_eq_iff {x y d : ℚ} :
    clampZero (x - d) = clampZero (y - d) ↔ x = y ∨ (x ≤ d ∧ y ≤ d) := by
  simp only [clampZero_eq_max]
  constructor
  · intro h
    rcases le_total x d with hx | hx <;> rcases le_total y d with hy | hy
    · exact .inr ⟨hx, hy⟩
    · rw [max_eq_left (by linarith), max_eq_right (by linarith)] at h
      exact .inr ⟨hx, by linarith⟩
    · rw [max_eq_right (by linarith), max_eq_left (by linarith)] at h
      exact .inr ⟨by linarith, hy⟩
    · rw [max_eq_right (by linarith), max_eq_right (by linarith)] at h
      exact .inl (by linarith)
  · rintro (rfl | ⟨hx, hy⟩)
    · rfl
    · rw [max_eq_left (by linarith), max_eq_left (by linarith)]

theorem updated_release_iff {reservedAcu : ℚ} {read row : BillingAccount} :
    updated (releaseWrite reservedAcu) read row = updated (releaseWrite reservedAcu) row row ↔
      SameRelease reservedAcu read row := by
  rw [SameRelease, ← clampZero_sub_eq_iff]
  constructor
  · intro h
    exact congrArg BillingAccount.reservedAcu h
  · intro h
    rw [updated, updated, releaseWrite, releaseWrite, h]

theorem updated_finalize_iff {actualCostUsd reservedAcu : ℚ} {read row : BillingAccount} :
    updated (finalizeWrite actualCostUsd reservedAcu) read row =
        updated (finalizeWrite actualCostUsd reservedAcu) row row ↔
      SameFinalize reservedAcu read row := by
  rw [SameFinalize, SameRelease, ← clampZero_sub_eq_iff]
  constructor
  · intro h
    have hused : read.usedAcu + costAcu actualCostUsd = row.usedAcu + costAcu actualCostUsd :=
      congrArg BillingAccount.usedAcu h
    exact ⟨congrArg BillingAccount.reservedAcu h, add_right_cancel hused⟩
  · rintro ⟨hreserved, hused⟩
    rw [updated, updated, finalizeWrite, finalizeWrite, hreserved, hused]

section
variable {write : BillingAccount → BillingAccount → BillingAccount}
  {right : BillingAccount → BillingAccount → Prop} {world : ℕ → Try} {more k : ℕ}

theorem updateLoop_raises (h : (world k).raises = true) :
    updateLoop write world more k = .raised := by
  cases more <;> simp [updateLoop, h]

theorem updateLoop_noAccount (h : (world k).raises = false) (hread : (world k).read = none) :
    updateLoop write world more k = .noAccount := by
  cases more <;> simp [updateLoop, h, hread]

theorem updateLoop_written {account : BillingAccount} (h : (world k).raises = false)
    (hread : (world k).read = some account) (hversion : (world k).row.version = account.version) :
    updateLoop write world more k =
      .written (world k).row (updated write account (world k).row) := by
  cases more <;> simp [updateLoop, h, hread, versionedUpdate, hversion, updated]

theorem updateLoop_gaveUp (h : (world k).Outrun) : updateLoop write world 0 k = .gaveUp := by
  obtain ⟨hraises, account, hread, hversion⟩ := h
  have hread' : (world k).read = some account := hread
  simp [updateLoop, hraises, hread', versionedUpdate, hversion]

theorem updateLoop_succ (h : (world k).Outrun) :
    updateLoop write world (more + 1) k = updateLoop write world more (k + 1) := by
  obtain ⟨hraises, account, hread, hversion⟩ := h
  have hread' : (world k).read = some account := hread
  rw [updateLoop]
  simp [hraises, hread', versionedUpdate, hversion]

theorem updateLoop_last
    (hright : ∀ read row, updated write read row = updated write row row ↔ right read row)
    (h : ¬(world k).Outrun) :
    Truthful write (updateLoop write world more k) ↔ (world k).Lands right := by
  cases hraises : (world k).raises with
  | true =>
    rw [updateLoop_raises hraises]
    refine iff_of_true (fun hreturned => absurd rfl hreturned) fun hreturned => ?_
    rw [hraises] at hreturned
    cases hreturned
  | false =>
    cases hread : (world k).read with
    | none =>
      rw [updateLoop_noAccount hraises hread]
      refine iff_of_true (fun _ hthere => absurd rfl hthere) fun _ account haccount => ?_
      rw [hread] at haccount
      cases haccount
    | some account =>
      have hversion : (world k).row.version = account.version := by
        by_contra hne
        exact h ⟨hraises, account, hread, hne⟩
      rw [updateLoop_written hraises hread hversion]
      constructor
      · intro htruthful _ account' haccount' _
        obtain rfl : account = account' := Option.some.inj (hread.symm.trans haccount')
        obtain ⟨row, hrow⟩ := htruthful nofun nofun
        obtain ⟨rfl, hwritten⟩ := Ended.written.inj hrow
        exact (hright account (world k).row).mp hwritten
      · intro hlands _ _
        have hsame := (hright account (world k).row).mpr (hlands hraises account hread hversion)
        exact ⟨(world k).row, by rw [hsame]⟩

/-- The loop is truthful if and only if one of its tries meets the version that it has read,
with nothing in the row that the try does not know of. -/
theorem updateLoop_truthful_iff
    (hright : ∀ read row, updated write read row = updated write row row ↔ right read row) :
    Truthful write (updateLoop write world more k) ↔
      EndsIn (fun i => (world i).Outrun) (fun i => (world i).Lands right) more k := by
  induction more generalizing k with
  | zero =>
    by_cases houtrun : (world k).Outrun
    · rw [updateLoop_gaveUp houtrun]
      refine iff_of_false (fun htruthful => ?_) (not_endsIn_zero houtrun)
      obtain ⟨row, hrow⟩ := htruthful nofun nofun
      cases hrow
    · rw [updateLoop_last hright houtrun, endsIn_last houtrun]
  | succ more ih =>
    by_cases houtrun : (world k).Outrun
    · rw [updateLoop_succ houtrun, endsIn_succ houtrun, ih]
    · rw [updateLoop_last hright houtrun, endsIn_last houtrun]

end

theorem removeKey_ended (jobId : Option String) (redis : SyncRedis) (ended : Ended) :
    (removeKey jobId redis ended).ended = ended := by
  cases ended <;> rfl

theorem removeKey_deleted {jobId : Option String} {redis : SyncRedis} {ended : Ended}
    (h : (removeKey jobId redis ended).keyDeleted = true) :
    ended ≠ .raised ∧ ended ≠ .noAccount := by
  cases ended with
  | raised => cases h
  | noAccount => cases h
  | written before after => exact ⟨nofun, nofun⟩
  | gaveUp => exact ⟨nofun, nofun⟩

theorem truthfulRelease_iff (reservedAcu : ℚ) (jobId : Option String) (redis : SyncRedis)
    (world : ℕ → Try) :
    TruthfulRelease reservedAcu (releaseReserved reservedAcu jobId redis world) ↔
      LandsInTime (SameRelease reservedAcu) world := by
  rw [LandsInTime, ← updateLoop_truthful_iff fun _ _ => updated_release_iff, releaseReserved]
  constructor
  · intro h
    have hended := h.ended
    rwa [removeKey_ended] at hended
  · intro htruthful
    refine ⟨by rwa [removeKey_ended], fun hdeleted => ?_⟩
    obtain ⟨hreturned, hthere⟩ := removeKey_deleted hdeleted
    rw [removeKey_ended]
    exact htruthful hreturned hthere

/-- Whatever changes the version, and wherever: the two updates have made their change to the
row once they return, and the reservation key is deleted only then, if and only if one of the
three tries meets the version it has read and the balances it has read. -/
theorem versionedUpdates_truthful_iff (actualCostUsd reservedAcu : ℚ) (jobId : Option String)
    (redis : SyncRedis) (world : ℕ → Try) :
    (TruthfulRelease reservedAcu (releaseReserved reservedAcu jobId redis world) ↔
      LandsInTime (SameRelease reservedAcu) world) ∧
    (Truthful (finalizeWrite actualCostUsd reservedAcu)
        (finalizeUsage actualCostUsd reservedAcu world) ↔
      LandsInTime (SameFinalize reservedAcu) world) :=
  ⟨truthfulRelease_iff reservedAcu jobId redis world,
    updateLoop_truthful_iff fun _ _ => updated_finalize_iff⟩

/-- The account at each of its versions, with 5 ACU reserved. -/
def accountAt (version : ℕ) : BillingAccount :=
  ⟨7, "pro", 600, 10, 5, 0, none, false, none, none, none, none, none, version⟩

/-- Another transaction commits between the SELECT and the UPDATE of each try. -/
def outrunAlways (k : ℕ) : Try := ⟨some (accountAt k), accountAt (k + 1), false⟩

/-- After three misses nothing is released, and the reservation key is gone. -/
theorem not_truthful_outrunAlways :
    ¬TruthfulRelease 5 (releaseReserved 5 (some "job") .up outrunAlways) ∧
      (releaseReserved 5 (some "job") .up outrunAlways).keyDeleted = true ∧
      ¬Truthful (finalizeWrite (4 / 100) 5) (finalizeUsage (4 / 100) 5 outrunAlways) := by
  have hreleased : (releaseReserved 5 (some "job") .up outrunAlways).ended = .gaveUp := by
    decide
  have hfinalized : finalizeUsage (4 / 100) 5 outrunAlways = .gaveUp := by decide
  refine ⟨fun h => ?_, by decide, fun h => ?_⟩
  · obtain ⟨row, hrow⟩ := h.ended (by simp [hreleased]) (by simp [hreleased])
    rw [hreleased] at hrow
    cases hrow
  · obtain ⟨row, hrow⟩ := h (by simp [hfinalized]) (by simp [hfinalized])
    rw [hfinalized] at hrow
    cases hrow

end WorkTicket.Billing.VersionedUpdates
