import WorkTicket.Foundation.Transaction
import WorkTicket.Foundation.Transition
import WorkTicket.Tasks.JobTask

/-! What a failed attempt of `process_job_task` does to the outputs of its job. The compensation
opens a session of its own, and nothing commits this session. -/

namespace WorkTicket.Tasks.Compensation

open WorkTicket.Transition WorkTicket.Transaction WorkTicket.Billing

/-- The columns of `ai_outputs` that matter here; the first three are its unique key. -/
structure AIOutput where
  jobId : JobId
  outputType : String
  companyId : CompanyId
  confidenceScore : Option ℚ
  deriving DecidableEq, Repr

structure JobRow where
  id : JobId
  companyId : CompanyId
  compensationAttempts : Option ℕ
  deriving DecidableEq, Repr

structure Tables where
  jobs : List JobRow
  outputs : List AIOutput
  deriving DecidableEq, Repr

/-- The job that an attempt is about. -/
structure JobRef where
  jobId : JobId
  companyId : CompanyId
  deriving DecidableEq, Repr

def JobRef.isJob (ref : JobRef) (j : JobRow) : Bool :=
  j.id = ref.jobId && j.companyId = ref.companyId

def JobRef.owns (ref : JobRef) (o : AIOutput) : Bool :=
  o.jobId = ref.jobId && o.companyId = ref.companyId

/-- `confidence_score > 0.5`, which is not true of NULL. -/
def confident (o : AIOutput) : Bool := o.confidenceScore.any fun c => 1 / 2 < c

/-! ## The compensation -/

inductive Statement
  | selectConfident
  | selectJob
  | selectOutputs
  | flush
  deriving DecidableEq, Repr

section
variable (faults : Statement → Option String) (ref : JobRef)

/-- A statement that does `f` unless the database fails it. -/
def statement {α : Type} (s : Statement) (f : Tables → α × Tables) :
    Transaction.Session Tables α :=
  Session.execute fun db => match faults s with
    | some e => .error e
    | none => .ok (f db)

def scalarOneOrNone {α : Type} : List α → Transaction.Session Tables (Option α)
  | [] => pure none
  | [a] => pure (some a)
  | _ => throw "Multiple rows were found when one or none was required"

def selectConfident : Transaction.Session Tables (Option AIOutput) := do
  let rows ← statement faults .selectConfident fun db =>
    (db.outputs.filter fun o => ref.owns o && confident o, db)
  scalarOneOrNone rows

/-- What the flush of a compensation sends: the counter of the job and the deletions. -/
def flush (job : Option JobRow) (records : List AIOutput) (db : Tables) : Tables where
  jobs := if job.isSome then db.jobs.map fun j =>
      if ref.isJob j then
        { j with compensationAttempts := some (j.compensationAttempts.getD 0 + 1) }
      else j
    else db.jobs
  outputs := db.outputs.filter fun o => o ∉ records

def doCompensate : Transaction.Session Tables Unit := do
  let existing ← selectConfident faults ref
  if existing.isSome then return ()
  let jobs ← statement faults .selectJob fun db => (db.jobs.filter ref.isJob, db)
  let job ← scalarOneOrNone jobs
  let records ← statement faults .selectOutputs fun db => (db.outputs.filter ref.owns, db)
  statement faults .flush fun db => ((), flush ref job records db)

/-- `_compensate_failed_job` without a session of its caller: what it returns and what is committed
after it. Errors are only logged. -/
def compensateFailedJob (retryCount maxRetries : ℕ) (db : Tables) : Option String × Tables :=
  if maxRetries ≤ retryCount then
    match (selectConfident faults ref).run (begin db) with
    | (.ok (some _), t) => (none, t.committed)
    | (_, t) => (some "no_output_on_final_retry", t.committed)
  else (none, (doCompensate faults ref).closeRun db)

end

/-! ## Failing attempts -/

/-- A failing attempt: its retry number, the confidence of the output that its third phase has
committed if it came that far, and the statements of the compensation that fail. -/
structure FailingAttempt where
  retries : ℕ
  stored : Option ℚ
  faults : Statement → Option String

/-- `INSERT .. ON CONFLICT DO NOTHING` of the third phase. -/
def storeOutput (ref : JobRef) (confidence : ℚ) (db : Tables) : Tables :=
  if db.outputs.any fun o => ref.owns o && o.outputType = "job_analysis" then db
  else { db with
    outputs := db.outputs ++ [⟨ref.jobId, "job_analysis", ref.companyId, some confidence⟩] }

/-- The tables when the attempt has failed. -/
def atFailure (ref : JobRef) (db : Tables) (a : FailingAttempt) : Tables :=
  a.stored.elim db fun confidence => storeOutput ref confidence db

def afterFailure (ref : JobRef) (db : Tables) (a : FailingAttempt) : Tables :=
  (compensateFailedJob a.faults ref a.retries JobTask.maxTaskRetries (atFailure ref db a)).2

def step (ref : JobRef) (db : Tables) (a : FailingAttempt) : Option Tables :=
  some (afterFailure ref db a)

/-! ## What the compensation should do -/

def HasConfident (ref : JobRef) (db : Tables) : Prop :=
  ∃ o ∈ db.outputs, ref.owns o = true ∧ confident o = true

def attempts (ref : JobRef) (db : Tables) : ℕ :=
  ((db.jobs.find? ref.isJob).bind JobRow.compensationAttempts).getD 0

/-- `db` are the tables at the failure, `db'` those after the compensation. -/
structure Compensated (ref : JobRef) (retries : ℕ) (db db' : Tables) : Prop where
  cleaned : retries < JobTask.maxTaskRetries → ¬HasConfident ref db →
    (∀ o ∈ db'.outputs, ref.owns o = false) ∧ attempts ref db' = attempts ref db + 1
  preserved : ∀ o ∈ db.outputs, confident o = true → o ∈ db'.outputs

def TakesEffect (ref : JobRef) (db : Tables) (a : FailingAttempt) : Prop :=
  Compensated ref a.retries (atFailure ref db a) (afterFailure ref db a)

/-- Nothing is to be compensated. -/
def Spared (ref : JobRef) (db : Tables) (a : FailingAttempt) : Prop :=
  JobTask.maxTaskRetries ≤ a.retries ∨ HasConfident ref (atFailure ref db a)

/-! ## What it does -/

section
variable {faults : Statement → Option String} {ref : JobRef} {db : Tables}

theorem uncommitting_statement {α : Type} (s : Statement) (f : Tables → α × Tables) :
    (statement faults s f).Uncommitting := Session.Uncommitting.execute

theorem uncommitting_scalarOneOrNone {α : Type} (rows : List α) :
    (scalarOneOrNone rows).Uncommitting := by
  rcases rows with _ | ⟨a, _ | ⟨b, rest⟩⟩
  · exact Session.Uncommitting.pure none
  · exact Session.Uncommitting.pure (some a)
  · exact Session.Uncommitting.throw _

theorem uncommitting_selectConfident : (selectConfident faults ref).Uncommitting :=
  (uncommitting_statement _ _).bind uncommitting_scalarOneOrNone

theorem uncommitting_doCompensate : (doCompensate faults ref).Uncommitting := by
  apply uncommitting_selectConfident.bind
  intro existing
  split
  · exact Session.Uncommitting.pure ()
  · apply (uncommitting_statement _ _).bind
    intro jobs
    apply (uncommitting_scalarOneOrNone jobs).bind
    intro job
    apply (uncommitting_statement _ _).bind
    intro records
    exact uncommitting_statement _ _

/-- On every path the tables are as they were. -/
theorem compensateFailedJob_tables (retryCount maxRetries : ℕ) :
    (compensateFailedJob faults ref retryCount maxRetries db).2 = db := by
  have hselect : ((selectConfident faults ref).run (begin db)).2.committed = db :=
    uncommitting_selectConfident (begin db)
  unfold compensateFailedJob
  split
  · split <;> simp_all [begin]
  · exact uncommitting_doCompensate.closeRun db

theorem afterFailure_eq (a : FailingAttempt) : afterFailure ref db a = atFailure ref db a :=
  compensateFailedJob_tables _ _

theorem takesEffect_iff (a : FailingAttempt) : TakesEffect ref db a ↔ Spared ref db a := by
  unfold TakesEffect Spared
  rw [afterFailure_eq]
  constructor
  · intro hcompensated
    by_contra hnot
    obtain ⟨hretries, hconfident⟩ := not_or.mp hnot
    have hcounted := (hcompensated.cleaned (not_le.mp hretries) hconfident).2
    omega
  · intro hspared
    refine ⟨fun hretries hconfident => ?_, fun o ho _ => ho⟩
    rcases hspared with hfinal | hstored
    · exact absurd hretries (not_lt.mpr hfinal)
    · exact absurd hstored hconfident

/-- Compensation takes effect along a run exactly when there is never anything to compensate. -/
theorem takesEffect_along_iff (as : List FailingAttempt) :
    EachStep (step ref) (TakesEffect ref) db as ↔ EachStep (step ref) (Spared ref) db as :=
  EachStep.congr (fun _ a _ _ => takesEffect_iff a) db as

/-! ## What a commit would keep -/

theorem run_statement {α : Type} {t : Transaction Tables} (hfaults : ∀ s, faults s = none)
    (haborted : t.aborted = false) (s : Statement) (f : Tables → α × Tables) :
    (statement faults s f).run t = (.ok (f t.working).1, { t with working := (f t.working).2 }) := by
  simp only [statement, Session.run_execute, execute, haborted, hfaults s, Bool.false_eq_true,
    if_false]

theorem run_doCompensate {j : JobRow} (hfaults : ∀ s, faults s = none)
    (hconfident : ¬HasConfident ref db) (hj : db.jobs.filter ref.isJob = [j]) :
    (doCompensate faults ref).run (begin db) =
      (.ok (), ⟨db, flush ref (some j) (db.outputs.filter ref.owns) db, false⟩) := by
  have hnone : (db.outputs.filter fun o => ref.owns o && confident o) = [] := by
    apply List.filter_eq_nil_iff.mpr
    intro o ho hmatch
    exact hconfident ⟨o, ho, Bool.and_eq_true_iff.mp hmatch⟩
  have hselect : (selectConfident faults ref).run (begin db) = (.ok none, begin db) := by
    unfold selectConfident
    rw [Session.run_bind_ok (run_statement hfaults rfl _ _)]
    change (scalarOneOrNone (db.outputs.filter fun o => ref.owns o && confident o)).run _ = _
    rw [hnone]
    rfl
  have hjob : (scalarOneOrNone (db.jobs.filter ref.isJob)).run (begin db) =
      (.ok (some j), begin db) := by
    rw [hj]
    rfl
  unfold doCompensate
  rw [Session.run_bind_ok hselect]
  change (statement faults .selectJob _ >>= _).run (begin db) = _
  rw [Session.run_bind_ok (run_statement hfaults rfl _ _)]
  change (scalarOneOrNone (db.jobs.filter ref.isJob) >>= _).run (begin db) = _
  rw [Session.run_bind_ok hjob, Session.run_bind_ok (run_statement hfaults rfl _ _),
    run_statement hfaults rfl]
  rfl

theorem attempts_flush {j : JobRow} (hj : db.jobs.filter ref.isJob = [j])
    (records : List AIOutput) :
    attempts ref (flush ref (some j) records db) = attempts ref db + 1 := by
  have hfind : db.jobs.find? ref.isJob = some j := by
    rw [← List.head?_filter, hj]
    rfl
  have hkept : ref.isJob ∘ (fun i => if ref.isJob i then
      { i with compensationAttempts := some (i.compensationAttempts.getD 0 + 1) } else i) =
      ref.isJob := by
    funext i
    simp only [Function.comp_apply]
    split <;> rfl
  have hmatch : ref.isJob j = true := List.find?_some hfind
  simp only [attempts, flush, Option.isSome_some, if_true, List.find?_map, hkept, hfind,
    Option.map_some, Option.bind_some, hmatch, Option.getD_some]

/-- With a commit the compensation would do what it should. -/
theorem compensated_of_commit {j : JobRow} (retries : ℕ) (hfaults : ∀ s, faults s = none)
    (hconfident : ¬HasConfident ref db) (hj : db.jobs.filter ref.isJob = [j]) :
    Compensated ref retries db ((doCompensate faults ref).commitRun db) := by
  rw [Session.commitRun_of_ok (run_doCompensate hfaults hconfident hj)]
  change Compensated ref retries db (flush ref (some j) (db.outputs.filter ref.owns) db)
  refine ⟨fun _ _ => ⟨fun o ho => ?_, attempts_flush hj _⟩, fun o ho hsure => ?_⟩
  · simp only [flush, List.mem_filter, decide_eq_true_eq, not_and, Bool.not_eq_true] at ho
    exact ho.2 ho.1
  · have howns : ref.owns o = false := by
      by_contra howns
      rw [Bool.not_eq_false] at howns
      exact hconfident ⟨o, ho, howns, hsure⟩
    simp [flush, ho, howns]

end

def ref : JobRef := ⟨7, 1⟩

/-- A job with an output that nobody should trust. -/
def unsure : Tables := ⟨[⟨7, 1, none⟩], [⟨7, "job_analysis", 1, some (3 / 10)⟩]⟩

theorem not_takesEffect : ¬∀ ref db as, EachStep (step ref) (TakesEffect ref) db as := by
  intro h
  have heffect := (h ref unsure [⟨0, none, fun _ => none⟩] _ rfl).1
  have hconfident : ¬HasConfident ref unsure := by
    rintro ⟨o, ho, -, hsure⟩
    have hunsure : ∀ o ∈ unsure.outputs, confident o = false := by decide +kernel
    rw [hunsure o ho] at hsure
    cases hsure
  have hcounted := (heffect.cleaned (by decide) hconfident).2
  rw [afterFailure_eq] at hcounted
  omega

end WorkTicket.Tasks.Compensation
