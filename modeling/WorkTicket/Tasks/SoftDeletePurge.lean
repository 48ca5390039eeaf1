import Mathlib
import WorkTicket.Foundation.Fallible

/-! The nightly purge of soft-deleted records. It removes what was deleted in the week that ends
ninety days ago, and with a job whatever belongs to it. -/

namespace WorkTicket.Tasks.SoftDeletePurge

open WorkTicket.Fallible

/-! ## The tables -/

inductive Table
  | jobs
  | quotes
  | estimates
  | aiOutputs
  | usageLedger
  | jobMedia
  | users
  | customers
  | services
  | billingAccounts
  | invoices
  deriving DecidableEq, Repr

/-- The columns that the purge reads. The tables without soft deletion have no `is_deleted`, and
`job_id` is not in all of them. -/
structure Row where
  id : ℕ
  jobId : Option ℕ
  isDeleted : Bool
  deletedAt : Option ℚ
  deriving DecidableEq, Repr

abbrev Database := Table → List Row

/-- The models with `is_deleted` and `deleted_at`. -/
def softDeletable : List Table :=
  [.users, .customers, .jobs, .quotes, .services, .estimates, .billingAccounts, .invoices]

/-! ## The purge -/

def day : ℚ := 86400

def cutoff (now : ℚ) : ℚ := now - 90 * day

def minCutoff (now : ℚ) : ℚ := cutoff now - 7 * day

def modelsToPurge : List Table := [.jobs, .quotes, .estimates]

def relatedModels : List Table := [.aiOutputs, .usageLedger, .jobMedia, .quotes, .estimates]

/-- The condition of `delete(model_cls)`. -/
def expired (now : ℚ) (r : Row) : Bool :=
  r.isDeleted && r.deletedAt.any fun t => t < cutoff now && minCutoff now < t

def ofExpiredJob (now : ℚ) (db : Database) (r : Row) : Bool :=
  r.jobId.any fun id => (db .jobs).any fun job => job.id = id && expired now job

def deleteWhere (t : Table) (p : Row → Bool) (db : Database) : Database :=
  Function.update db t ((db t).filter fun r => !p r)

def cascade (now : ℚ) (db : Database) : Database :=
  relatedModels.foldl (fun db t => deleteWhere t (ofExpiredJob now db) db) db

/-- One model, with the number of records so far; `raises` says for which tables a statement fails.
After a failure the transaction is lost, also if it was only logged, so that the next statement
fails as well. -/
def purgeModel (raises : Table → Bool) (now : ℚ) (acc : Database × ℕ) (t : Table) :
    Except ℕ (Database × ℕ) :=
  if (t = .jobs && relatedModels.any raises) || raises t then .error acc.2
  else
    let db := if t = .jobs then cascade now acc.1 else acc.1
    .ok (deleteWhere t (expired now) db, acc.2 + (db t).countP (expired now))

/-- The database after the run, whether it was committed, and `purged_count`. -/
def purgeSoftDeletedRecords (raises : Table → Bool) (commits : Bool) (now : ℚ) (db : Database) :
    Database × Bool × ℕ :=
  match modelsToPurge.foldlM (purgeModel raises now) (db, 0) with
  | .ok (db', total) => if commits then (db', true, total) else (db, false, total)
  | .error total => (db, false, total)

attribute [grind =] expired ofExpiredJob deleteWhere cascade purgeModel purgeSoftDeletedRecords

/-! ## What a successful run should do -/

/-- Deleted more than ninety days ago. -/
def Old (now : ℚ) (r : Row) : Prop := r.isDeleted = true ∧ ∃ t ∈ r.deletedAt, t < cutoff now

def Recent (now : ℚ) (r : Row) : Prop := r.isDeleted = true ∧ ∃ t ∈ r.deletedAt, cutoff now ≤ t

structure Purged (now : ℚ) (db db' : Database) : Prop where
  complete : ∀ t ∈ softDeletable, ∀ r ∈ db' t, ¬Old now r
  sparing : ∀ t ∈ softDeletable, ∀ r ∈ db t, Recent now r → r ∈ db' t

/-- What was deleted more than ninety days ago was deleted less than ninety-seven days ago, is a
job, a quote or an estimate or belongs to a job that is purged; no quote or estimate deleted later
belongs to such a job. -/
structure Steady (now : ℚ) (db : Database) : Prop where
  window : ∀ r ∈ db .jobs, Old now r → expired now r = true
  children : ∀ t, t = .quotes ∨ t = .estimates → ∀ r ∈ db t, Old now r →
    expired now r = true ∨ ofExpiredJob now db r = true
  covered : ∀ t ∈ softDeletable, t ∉ modelsToPurge → ∀ r ∈ db t, ¬Old now r
  parents : ∀ t, t = .quotes ∨ t = .estimates → ∀ r ∈ db t, Recent now r →
    ofExpiredJob now db r = false

/-! ## The tables after a run -/

section
variable {raises : Table → Bool} {commits : Bool} {now : ℚ} {db : Database} {r : Row} {t : Table}

/-- The tables of a purged database. -/
def purged (now : ℚ) (db : Database) : Database
  | .jobs => (db .jobs).filter fun r => !expired now r
  | .quotes => (db .quotes).filter fun r => !ofExpiredJob now db r && !expired now r
  | .estimates => (db .estimates).filter fun r => !ofExpiredJob now db r && !expired now r
  | .aiOutputs => (db .aiOutputs).filter fun r => !ofExpiredJob now db r
  | .usageLedger => (db .usageLedger).filter fun r => !ofExpiredJob now db r
  | .jobMedia => (db .jobMedia).filter fun r => !ofExpiredJob now db r
  | t => db t

attribute [grind =] purged

/-- The query for the purged jobs is asked in a database that still has them. -/
theorem ofExpiredJob_deleteWhere (h : t ≠ .jobs) (p : Row → Bool) :
    ofExpiredJob now (deleteWhere t p db) = ofExpiredJob now db := by
  have hjobs : deleteWhere t p db .jobs = db .jobs := Function.update_of_ne h.symm _ _
  funext r
  rw [ofExpiredJob, hjobs, ofExpiredJob]

theorem cascade_eq : cascade now db =
    relatedModels.foldl (fun d t => deleteWhere t (ofExpiredJob now db) d) db := by
  have hfold : ∀ (ts : List Table) (d : Database), .jobs ∉ ts → ofExpiredJob now d =
      ofExpiredJob now db → ts.foldl (fun d t => deleteWhere t (ofExpiredJob now d) d) d =
        ts.foldl (fun d t => deleteWhere t (ofExpiredJob now db) d) d := by
    intro ts
    induction ts with
    | nil => intro d _ _; rfl
    | cons t ts ih =>
      intro d hts hd
      obtain ⟨ht, hts⟩ := not_or.mp (List.mem_cons.not.mp hts)
      rw [List.foldl_cons, List.foldl_cons, hd]
      exact ih _ hts ((ofExpiredJob_deleteWhere (Ne.symm ht) _).trans hd)
  exact hfold relatedModels db (by decide) rfl

theorem purgeModel_ok {acc acc' : Database × ℕ} (h : purgeModel raises now acc t = .ok acc') :
    acc'.1 = deleteWhere t (expired now) (if t = .jobs then cascade now acc.1 else acc.1) := by
  unfold purgeModel at h
  split at h
  · cases h
  · exact (congrArg Prod.fst (Except.ok.inj h)).symm

/-- The tables after a run that was committed. -/
theorem eq_purged (h : (purgeSoftDeletedRecords raises commits now db).2.1 = true) :
    (purgeSoftDeletedRecords raises commits now db).1 = purged now db := by
  unfold purgeSoftDeletedRecords at h ⊢
  split at h
  · rename_i d n hrun
    have hcommits : commits = true := by
      by_contra hnot
      rw [if_neg hnot] at h
      cases h
    rw [if_pos hcommits]
    simp only [modelsToPurge, List.foldlM_cons, bind_eq_ok] at hrun
    obtain ⟨jobs, hjobs, quotes, hquotes, estimates, hestimates, hlast⟩ := hrun
    have hd : d = estimates.1 := (congrArg Prod.fst (Except.ok.inj hlast)).symm
    change d = _
    rw [hd, purgeModel_ok hestimates, if_neg (by decide), purgeModel_ok hquotes,
      if_neg (by decide), purgeModel_ok hjobs, if_pos rfl, cascade_eq]
    funext t
    cases t <;>
      simp [deleteWhere, relatedModels, purged, List.filter_filter, Bool.and_comm]
  · cases h

theorem mem_purged_of_child (ht : t = .quotes ∨ t = .estimates) :
    r ∈ purged now db t ↔ r ∈ db t ∧ ofExpiredJob now db r = false ∧ expired now r = false := by
  rcases ht with rfl | rfl
  · simp [purged]
  · simp [purged]

theorem mem_purged_of_job :
    r ∈ purged now db .jobs ↔ r ∈ db .jobs ∧ expired now r = false := by simp [purged]

theorem purged_of_other (ht : t ∈ softDeletable) (hmodel : t ∉ modelsToPurge) :
    purged now db t = db t := by
  cases t <;> simp_all [softDeletable, modelsToPurge, purged]

/-- What the purge takes for itself is old. -/
theorem old_of_expired (h : expired now r = true) : Old now r := by
  simp only [expired, Bool.and_eq_true, Option.any_eq_true] at h
  obtain ⟨hdeleted, t, ht, hwindow⟩ := h
  exact ⟨hdeleted, t, ht, of_decide_eq_true hwindow.1⟩

theorem not_old_of_recent (h : Recent now r) : ¬Old now r := by
  obtain ⟨-, t, ht, hle⟩ := h
  rintro ⟨-, t', ht', hlt⟩
  obtain rfl := Option.mem_unique ht ht'
  exact absurd hlt (not_lt.mpr hle)

theorem child_mem_softDeletable (ht : t = .quotes ∨ t = .estimates) : t ∈ softDeletable := by
  rcases ht with rfl | rfl <;> decide

/-- A successful run does what it should exactly in a steady state. -/
theorem purged_iff_steady
    (h : (purgeSoftDeletedRecords raises commits now db).2.1 = true) :
    Purged now db (purgeSoftDeletedRecords raises commits now db).1 ↔ Steady now db := by
  rw [eq_purged h]
  constructor
  · rintro ⟨hcomplete, hsparing⟩
    refine ⟨?_, ?_, ?_, ?_⟩
    · intro r hr hold
      by_contra hkept
      rw [Bool.not_eq_true] at hkept
      exact hcomplete .jobs (by decide) r (mem_purged_of_job.mpr ⟨hr, hkept⟩) hold
    · intro t ht r hr hold
      by_contra hkept
      rw [not_or, Bool.not_eq_true, Bool.not_eq_true] at hkept
      exact hcomplete t (child_mem_softDeletable ht) r
        ((mem_purged_of_child ht).mpr ⟨hr, hkept.2, hkept.1⟩) hold
    · intro t ht hmodel r hr
      exact hcomplete t ht r (by rwa [purged_of_other ht hmodel])
    · intro t ht r hr hrecent
      have hkept := hsparing t (child_mem_softDeletable ht) r hr hrecent
      exact ((mem_purged_of_child ht).mp hkept).2.1
  · intro hsteady
    have hcases : ∀ t ∈ softDeletable,
        t = .jobs ∨ (t = .quotes ∨ t = .estimates) ∨ t ∉ modelsToPurge := by decide
    constructor
    · intro t ht r hr hold
      rcases hcases t ht with rfl | hchild | hmodel
      · obtain ⟨hr, hkept⟩ := mem_purged_of_job.mp hr
        rw [hsteady.window r hr hold] at hkept
        cases hkept
      · obtain ⟨hr, hparent, hkept⟩ := (mem_purged_of_child hchild).mp hr
        rcases hsteady.children t hchild r hr hold with hexpired | hexpired
        · rw [hexpired] at hkept
          cases hkept
        · rw [hexpired] at hparent
          cases hparent
      · rw [purged_of_other ht hmodel] at hr
        exact hsteady.covered t ht hmodel r hr hold
    · intro t ht r hr hrecent
      have hkept : expired now r = false := by
        rw [← Bool.not_eq_true]
        exact fun hexpired => not_old_of_recent hrecent (old_of_expired hexpired)
      rcases hcases t ht with rfl | hchild | hmodel
      · exact mem_purged_of_job.mpr ⟨hr, hkept⟩
      · exact (mem_purged_of_child hchild).mpr
          ⟨hr, hsteady.parents t hchild r hr hrecent, hkept⟩
      · rwa [purged_of_other ht hmodel]

end

/-- A job that was deleted on day 0, and nothing else. -/
def oneJob : Database
  | .jobs => [⟨7, none, true, some 0⟩]
  | _ => []

theorem purged_iff_steady_oneJob :
    Purged (92 * day) oneJob
      (purgeSoftDeletedRecords (fun _ => false) true (92 * day) oneJob).1 ↔
      Steady (92 * day) oneJob :=
  purged_iff_steady (by decide)

/-- No run from day 90 to day 97 was successful. -/
theorem not_purged_oneJob : ¬∀ raises commits now db,
    (purgeSoftDeletedRecords raises commits now db).2.1 = true →
      Purged now db (purgeSoftDeletedRecords raises commits now db).1 := by
  intro h
  have hpurged := h (fun _ => false) true (98 * day) oneJob (by decide)
  have hkept : ⟨7, none, true, some 0⟩ ∈
      (purgeSoftDeletedRecords (fun _ => false) true (98 * day) oneJob).1 .jobs := by
    decide +kernel
  exact hpurged.complete .jobs (by decide) _ hkept ⟨rfl, 0, rfl, by norm_num [cutoff, day]⟩

end WorkTicket.Tasks.SoftDeletePurge
