import WorkTicket.Billing.DlqRouter
import WorkTicket.Foundation.Transition

/-! The scan that has dead-lettered jobs retried. It takes twenty rows of the table before it looks
at how long each has waited, and does not look at the jobs. -/

namespace WorkTicket.Billing.DlqScan

open TenantTables WorkTicket.Transition DlqRouter

/-! ## The scan -/

def scanLimit : ℕ := 20

/-- The conditions of the query; a comparison with a missing value does not hold. -/
def queried (now : ℚ) (e : DeadLetterJob) : Bool :=
  e.createdAt.any (· < now - 5 * 60) && e.retryCount < maxDlqRetries &&
    e.lastState.any (· ≠ "retried")

/-- Each retry doubles the wait. -/
def waited (now : ℚ) (e : DeadLetterJob) : Bool :=
  e.createdAt.any (· < now - 5 * 60 * 2 ^ e.retryCount)

/-- The rows of the query, in the order in which the database comes to them; rows that others have
locked are skipped. -/
def selected (now : ℚ) (locked : ℕ → Bool) (s : Tables) : List DeadLetterJob :=
  (s.deadLetterJobs.filter fun e => queried now e && !locked e.id).take scanLimit

/-- The entries for which `retry_dead_letter_job.delay` is called. -/
def retryExpiredDeadLetterJobs (now : ℚ) (locked : ℕ → Bool) (s : Tables) : List DeadLetterJob :=
  (selected now locked s).filter (waited now)

/-! ## Runs of the scan -/

def retriable (s : Tables) (e : DeadLetterJob) : Bool :=
  s.jobs.any fun j => j.id = e.jobId &&
    (j.aiProcessingState = some .failed || j.aiProcessingState = some .reserved)

/-- An entry that a scan should have retried. -/
def due (now : ℚ) (s : Tables) (e : DeadLetterJob) : Bool :=
  e.retryCount < maxDlqRetries && waited now e && retriable s e

/-- What a scan dispatched of the entries that were due, and how many were due. -/
structure Report where
  dispatched : ℕ
  due : ℕ
  deriving DecidableEq, Repr

structure World where
  now : ℚ
  tables : TablesStore
  tasks : List ℕ
  reports : List Report

/-- `write` is whatever else happens to the tables. -/
inductive Event
  | tick (seconds : ℚ)
  | scan (locked : ℕ → Bool)
  | retry (env : Env) (id : ℕ)
  | write (tables : TablesStore)

theorem nodup_update {f : DeadLetterJob → DeadLetterJob} {rows : List DeadLetterJob} {id : ℕ}
    (h : (rows.map DeadLetterJob.id).Nodup) (hf : ∀ e, (f e).id = e.id) :
    ((update deadLetterColumns rows id f).map DeadLetterJob.id).Nodup := by
  have hids : (update deadLetterColumns rows id f).map DeadLetterJob.id =
      rows.map DeadLetterJob.id := by
    rw [update, List.map_map]
    refine List.map_congr_left fun e _ => ?_
    simp only [Function.comp_apply]
    split
    · exact hf e
    · rfl
  rwa [hids]

theorem commitLastState_valid {s : Tables} (h : s.Valid) (id : ℕ) (lastState : String) (r : Replay) :
    (commitLastState s id lastState r).2.Valid := by
  unfold commitLastState
  split
  · exact ⟨nodup_update h.deadLetterJobs fun _ => rfl, h.jobs⟩
  · exact h

theorem retryDeadLetterJob_valid {s : Tables} (h : s.Valid) (env : Env) (uuid : Except String ℕ) :
    (retryDeadLetterJob env uuid s).2.Valid := by
  unfold retryDeadLetterJob
  split
  · exact h
  · split
    · exact h
    · split_ifs
      · exact commitLastState_valid h _ _ _
      · split
        · exact commitLastState_valid h _ _ _
        · simp only
          split_ifs
          · exact commitLastState_valid h _ _ _
          · split
            · exact h
            · exact ⟨nodup_update h.deadLetterJobs fun _ => rfl, h.jobs⟩

def step (w : World) : Event → Option World
  | .tick seconds => if 0 ≤ seconds then some { w with now := w.now + seconds } else none
  | .scan locked =>
    let entries := retryExpiredDeadLetterJobs w.now locked w.tables.1
    some { w with
      tasks := w.tasks ++ entries.map DeadLetterJob.id
      reports := ⟨entries.countP (due w.now w.tables.1),
        w.tables.1.deadLetterJobs.countP (due w.now w.tables.1)⟩ :: w.reports }
  | .retry env id =>
    if id ∈ w.tasks then
      some { w with tables :=
        ⟨_, retryDeadLetterJob_valid w.tables.2 { env with now := w.now } (.ok id)⟩ }
    else none
  | .write tables => some { w with tables }

def start (now : ℚ) (tables : TablesStore) : World := ⟨now, tables, [], []⟩

/-- Every scan dispatched twenty of the entries that were due, or all if there were less. -/
def Progresses (w : World) : Prop := ∀ r ∈ w.reports, min scanLimit r.due ≤ r.dispatched

/-- The query of a scan selects all entries that are due, or twenty that are all due. -/
def Meets (w : World) : Event → Prop
  | .scan locked =>
    (∀ e ∈ w.tables.1.deadLetterJobs, due w.now w.tables.1 e = true →
      e ∈ selected w.now locked w.tables.1) ∨
    ((selected w.now locked w.tables.1).length = scanLimit ∧
      ∀ e ∈ selected w.now locked w.tables.1, due w.now w.tables.1 e = true)
  | _ => True

/-! ## What a scan selects -/

/-- A selection of at most `m` has all or `m` of what is looked for exactly if it leaves out nothing,
or has nothing else. -/
theorem min_le_countP_iff {α : Type*} {p : α → Bool} {l sub : List α} {m : ℕ}
    (hsub : sub.Sublist l) (hl : l.Nodup) (hlength : sub.length ≤ m) :
    min m (l.countP p) ≤ sub.countP p ↔
      (∀ a ∈ l, p a = true → a ∈ sub) ∨ (sub.length = m ∧ ∀ a ∈ sub, p a = true) := by
  have hle : sub.countP p ≤ sub.length := List.countP_le_length
  have hcount : sub.countP p ≤ l.countP p := hsub.countP_le
  constructor
  · intro h
    rcases le_total (l.countP p) m with hfew | hmany
    · left
      rw [min_eq_right hfew] at h
      have hsame : sub.filter p = l.filter p := by
        refine (hsub.filter p).eq_of_length ?_
        rw [← List.countP_eq_length_filter, ← List.countP_eq_length_filter]
        exact le_antisymm hcount h
      intro a ha hp
      have hmem : a ∈ l.filter p := List.mem_filter.mpr ⟨ha, hp⟩
      rw [← hsame] at hmem
      exact (List.mem_filter.mp hmem).1
    · right
      rw [min_eq_left hmany] at h
      have hfull : sub.countP p = sub.length := by omega
      exact ⟨by omega, List.countP_eq_length.mp hfull⟩
  · rintro (hall | ⟨hfull, hp⟩)
    · refine (min_le_right _ _).trans ?_
      rw [List.countP_eq_length_filter, List.countP_eq_length_filter]
      have hsubset : l.filter p ⊆ sub.filter p := by
        intro a ha
        obtain ⟨ha, hp⟩ := List.mem_filter.mp ha
        exact List.mem_filter.mpr ⟨hall a ha hp, hp⟩
      exact ((hl.filter p).subperm hsubset).length_le
    · rw [List.countP_eq_length.mpr hp, hfull]
      exact min_le_left _ _

section
variable {now : ℚ} {locked : ℕ → Bool} {s : Tables} {w w' : World} {e : Event}

theorem selected_sublist : (selected now locked s).Sublist s.deadLetterJobs :=
  (List.take_sublist _ _).trans List.filter_sublist

/-- An entry that is due has waited. -/
theorem countP_due_dispatched :
    (retryExpiredDeadLetterJobs now locked s).countP (due now s) =
      (selected now locked s).countP (due now s) := by
  rw [retryExpiredDeadLetterJobs, List.countP_filter]
  refine List.countP_congr fun e _ => ?_
  simp only [due, Bool.and_eq_true]
  tauto

theorem scan_progresses_iff (h : s.Valid) :
    min scanLimit (s.deadLetterJobs.countP (due now s)) ≤
        (retryExpiredDeadLetterJobs now locked s).countP (due now s) ↔
      (∀ e ∈ s.deadLetterJobs, due now s e = true → e ∈ selected now locked s) ∨
      ((selected now locked s).length = scanLimit ∧
        ∀ e ∈ selected now locked s, due now s e = true) := by
  rw [countP_due_dispatched]
  exact min_le_countP_iff selected_sublist (List.Nodup.of_map _ h.deadLetterJobs)
    (List.length_take_le _ _)

theorem progresses_step_iff (h : Progresses w) (hs : step w e = some w') :
    Progresses w' ↔ Meets w e := by
  cases e with
  | tick seconds =>
    obtain ⟨-, rfl⟩ : 0 ≤ seconds ∧ _ = w' := by simpa [step] using hs
    exact iff_of_true h trivial
  | scan locked =>
    obtain rfl := Option.some.inj hs
    rw [Meets, ← scan_progresses_iff w.tables.2, Progresses]
    exact ⟨fun hall => hall _ List.mem_cons_self, fun hnew => List.forall_mem_cons.mpr ⟨hnew, h⟩⟩
  | retry env id =>
    obtain ⟨-, rfl⟩ : id ∈ w.tasks ∧ _ = w' := by simpa [step] using hs
    exact iff_of_true h trivial
  | write tables =>
    obtain rfl := Option.some.inj hs
    exact iff_of_true h trivial

end

/-- Every scan of a run makes progress exactly if each selects what is due. -/
theorem progresses_along_iff (now : ℚ) (tables : TablesStore) (es : List Event) :
    Along step Progresses (start now tables) es ↔ EachStep step Meets (start now tables) es :=
  along_iff_eachStep (fun _ h => h) (fun _ _ _ h hmeets hs => (progresses_step_iff h hs).mpr hmeets)
    (fun _ _ _ h hs hprogress => (progresses_step_iff h hs).mp hprogress)
    (fun _ hr => absurd hr List.not_mem_nil) es

/-- A day old, retried once. -/
def retriedEntry : DeadLetterJob where
  id := 1
  jobId := 7
  companyId := 1
  userId := none
  taskName := "process_job_task"
  errorMessage := none
  failureCategory := none
  lastState := some "retried"
  retryCount := 1
  traceId := none
  createdAt := some 0
  expiresAt := none

def failedJob : DlqRouter.Job := ⟨7, 1, some .failed, none, []⟩

def failedAgain : TablesStore := ⟨⟨[retriedEntry], [failedJob], []⟩, ⟨by decide, by decide⟩⟩

/-- Twenty entries of the same day whose last retry is not long ago, and one that is due. -/
def crowded : TablesStore where
  val :=
    { deadLetterJobs := (List.range 21).map fun id =>
        { retriedEntry with
          id := id, lastState := some "failed", retryCount := if id < 20 then 4 else 0 }
      jobs := [failedJob]
      queue := [] }
  property := ⟨by decide, by decide⟩

/-- The job of a retried entry that failed again is left alone, and so is the entry behind the ones
that have to wait. -/
theorem not_progresses :
    ¬Along step Progresses (start 86400 failedAgain) [.scan fun _ => false] ∧
      ¬Along step Progresses (start 3600 crowded) [.scan fun _ => false] := by
  have hscan : ∀ now tables,
      ¬min scanLimit (tables.1.deadLetterJobs.countP (due now tables.1)) ≤
        (retryExpiredDeadLetterJobs now (fun _ => false) tables.1).countP (due now tables.1) →
      ¬Along step Progresses (start now tables) [.scan fun _ => false] := by
    intro now tables hless halong
    exact hless (halong.last rfl _ List.mem_cons_self)
  exact ⟨hscan 86400 failedAgain (by decide +kernel), hscan 3600 crowded (by decide +kernel)⟩

end WorkTicket.Billing.DlqScan
