import WorkTicket.Foundation.Batches
import WorkTicket.Foundation.Transaction

/-! `ImportService`: a run writes an import job for each type and a log row for each record,
a rollback rewrites the rows of one job. The caller runs each in one transaction. -/

namespace WorkTicket.Integrations

open Transaction

inductive ImportType
  | customers | jobs | workOrders | invoices | payments | employees | assets | scheduleEvents
  | locations
  deriving DecidableEq

def ImportType.value : ImportType → String
  | .customers => "customers"
  | .jobs => "jobs"
  | .workOrders => "work_orders"
  | .invoices => "invoices"
  | .payments => "payments"
  | .employees => "employees"
  | .assets => "assets"
  | .scheduleEvents => "schedule_events"
  | .locations => "locations"

inductive ImportStatus
  | pending | scanning | ready | inProgress | completed | partially | failed
  deriving DecidableEq

def ImportStatus.isTerminal (s : ImportStatus) : Bool := s ∈ [.completed, .partially, .failed]

inductive ImportResult
  | success | skipped | failed | duplicate | rolledBack
  deriving DecidableEq

structure ImportJob where
  id : ℕ
  companyId : ℕ
  provider : String
  importType : ImportType
  status : ImportStatus
  progressPct : ℚ
  totalRecords : ℕ
  importedCount : ℕ
  skippedCount : ℕ
  failedCount : ℕ
  errorMessage : Option String
  rolledBackAt : Option ℚ
  deriving DecidableEq

structure ImportLog where
  companyId : ℕ
  importJobId : Option ℕ
  externalSystem : String
  externalId : String
  entityType : ImportType
  result : ImportResult
  errorMessage : Option String
  deriving DecidableEq

/-- The columns of `uq_import_logs_dedup`. -/
structure LogKey where
  companyId : ℕ
  externalSystem : String
  externalId : String
  entityType : ImportType
  deriving DecidableEq

def ImportLog.key (log : ImportLog) : LogKey :=
  ⟨log.companyId, log.externalSystem, log.externalId, log.entityType⟩

structure Db where
  jobs : List ImportJob
  logs : List ImportLog
  nextJobId : ℕ

/-- What the primary key, the foreign key and the unique constraint promise. -/
structure Db.Valid (db : Db) : Prop where
  jobIds : ∀ j ∈ db.jobs, j.id < db.nextJobId
  jobsNodup : (db.jobs.map ImportJob.id).Nodup
  logJobs : ∀ l ∈ db.logs, ∀ id ∈ l.importJobId, ∃ j ∈ db.jobs, j.id = id
  unique : (db.logs.map ImportLog.key).Nodup

/-- A content that the tables can have. -/
abbrev Store := {db : Db // db.Valid}

def Db.hasJob (db : Db) (id : ℕ) : Bool := db.jobs.any (·.id = id)

def Db.updateJob (db : Db) (id : ℕ) (f : ImportJob → ImportJob) : Db :=
  { db with jobs := db.jobs.map fun j => if j.id = id then f j else j }

def Db.addLog (db : Db) (log : ImportLog) : Db := { db with logs := db.logs ++ [log] }

/-- `VARCHAR(255)`, which takes no NUL. -/
def fitsExternalId (s : String) : Bool := s.length ≤ 255 && s.toList.all (·.val ≠ 0)

/-- `INSERT INTO import_logs`; `jsonable` says whether the row's `raw_data` has a JSON text. The
foreign key is checked at the end of the statement. -/
def insertLog (log : ImportLog) (jsonable : Bool) (db : Db) : Except String (Unit × Db) :=
  if !jsonable then .error "Object is not JSON serializable"
  else if !fitsExternalId log.externalId then
    .error "value too long for type character varying(255)"
  else if log.key ∈ db.logs.map ImportLog.key then
    .error "duplicate key value violates unique constraint uq_import_logs_dedup"
  else if !log.importJobId.all db.hasJob then
    .error "insert on table import_logs violates foreign key constraint fk_import_logs_job"
  else .ok ((), db.addLog log)

section
variable (companyId : ℕ) (provider : String)

def newJob (importType : ImportType) (id : ℕ) : ImportJob :=
  ⟨id, companyId, provider, importType, .pending, 0, 0, 0, 0, 0, none, none⟩

def createImportJob (importType : ImportType) : Session Db ℕ :=
  Session.execute fun db =>
    .ok (db.nextJobId, { db with
      jobs := db.jobs ++ [newJob companyId provider importType db.nextJobId]
      nextJobId := db.nextJobId + 1 })

/-- The arguments of `update_import_progress`. -/
structure Progress where
  status : ImportStatus
  progressPct : Option ℚ := none
  imported : Option ℕ := none
  skipped : Option ℕ := none
  failed : Option ℕ := none
  errorMessage : Option String := none

def ImportJob.withProgress (p : Progress) (j : ImportJob) : ImportJob :=
  { j with
    status := p.status
    progressPct := p.progressPct.getD j.progressPct
    importedCount := p.imported.getD j.importedCount
    skippedCount := p.skipped.getD j.skippedCount
    failedCount := p.failed.getD j.failedCount
    errorMessage := (p.errorMessage.filter (· ≠ "")).or j.errorMessage }

def updateImportProgress (jobId : ℕ) (p : Progress) : Session Db Unit :=
  Session.execute fun db => .ok ((), db.updateJob jobId (·.withProgress p))

/-- `job.total_records = len(records)`. -/
def setTotalRecords (jobId n : ℕ) : Session Db Unit :=
  Session.execute fun db => .ok ((), db.updateJob jobId ({ · with totalRecords := n }))

def logImportResult (jobId : ℕ) (externalId : String) (entityType : ImportType)
    (result : ImportResult) (errorMessage : Option String) (jsonable : Bool) : Session Db Unit :=
  Session.execute <| insertLog
    ⟨companyId, some jobId, provider, externalId, entityType, result, errorMessage⟩ jsonable

/-- The constraint leaves at most one row to find. -/
def alreadyImported (externalId : String) (entityType : ImportType) : Session Db Bool :=
  Session.execute fun db => .ok (db.logs.any fun log =>
    log.key = ⟨companyId, provider, externalId, entityType⟩ && log.result = .success, db)

/-- What the loop reads of a record; `jsonable` says whether its `model_dump` has a JSON text. -/
structure Record where
  externalId : Option String
  id : Option String
  jsonable : Bool
  deriving DecidableEq

/-- `str(getattr(record, "external_id", str(getattr(record, "id", record_idx))))`. -/
def Record.externalIdAt (r : Record) (idx : ℕ) : String :=
  r.externalId.getD (r.id.getD (toString idx))

structure Counts where
  imported : ℕ
  skipped : ℕ
  failed : ℕ

def Progress.counted (status : ImportStatus) (pct : ℚ) (c : Counts) : Progress where
  status := status
  progressPct := some pct
  imported := some c.imported
  skipped := some c.skipped
  failed := some c.failed

def Progress.failure (errorMessage : String) : Progress where
  status := .failed
  errorMessage := some errorMessage

def progressAt (idx total : ℕ) : ℚ := if total = 0 then 100 else (idx + 1) / total * 100

/-- What the loop tries with a record. -/
def tryRecord (jobId : ℕ) (entityType : ImportType) (c : Counts) (r : Record × ℕ) :
    Session Db Counts := do
  let externalId := r.1.externalIdAt r.2
  if ← alreadyImported companyId provider externalId entityType then
    logImportResult companyId provider jobId externalId entityType .duplicate none true
    return { c with skipped := c.skipped + 1 }
  else
    logImportResult companyId provider jobId externalId entityType .success none r.1.jsonable
    return { c with imported := c.imported + 1 }

def importRecord (jobId : ℕ) (entityType : ImportType) (total : ℕ) (c : Counts)
    (r : Record × ℕ) : Session Db Counts := do
  let c ← tryCatch (tryRecord companyId provider jobId entityType c r) fun e => do
    logImportResult companyId provider jobId (r.1.externalIdAt r.2) entityType .failed (some e) true
    return { c with failed := c.failed + 1 }
  updateImportProgress jobId (.counted .inProgress (progressAt r.2 total) c)
  return c

def importRecords (jobId : ℕ) (entityType : ImportType) (records : List Record)
    (batchSize : ℕ+) : Session Db Counts :=
  (Batches.starts records.length batchSize).foldlM
    (fun c start => (Batches.batch records batchSize start).foldlM
      (importRecord companyId provider jobId entityType records.length) c) ⟨0, 0, 0⟩

def finalStatus (c : Counts) : ImportStatus :=
  if c.failed > 0 ∧ c.imported > 0 then .partially
  else if c.failed > 0 ∧ c.imported = 0 then .failed
  else .completed

/-- What the connector has for a type, and what its fetcher does. -/
inductive Fetch
  | noFetcher
  | raises (e : String)
  | records (rs : List Record)

def importFetched (jobId : ℕ) (importType : ImportType) (records : List Record)
    (batchSize : ℕ+) : Session Db Unit := do
  setTotalRecords jobId records.length
  updateImportProgress jobId { status := .inProgress, progressPct := some 0 }
  let c ← importRecords companyId provider jobId importType records batchSize
  updateImportProgress jobId (.counted (finalStatus c) 100 c)

/-- What the loop does with the job of one type. -/
def fillJob (batchSize : ℕ+) (jobId : ℕ) (importType : ImportType) : Fetch → Session Db Unit
  | .noFetcher => updateImportProgress jobId (.failure ("No fetcher for " ++ importType.value))
  | .raises e => updateImportProgress jobId (.failure e)
  | .records rs =>
    tryCatch (importFetched companyId provider jobId importType rs batchSize)
      fun e => updateImportProgress jobId (.failure e)

def runImportType (batchSize : ℕ+) (i : ImportType × Fetch) : Session Db ℕ := do
  let jobId ← createImportJob companyId provider i.1
  fillJob companyId provider batchSize jobId i.1 i.2
  return jobId

/-- `run_import`, not as a dry run, of a connector that authenticates. -/
def runImport (batchSize : ℕ+) (imports : List (ImportType × Fetch)) : Session Db (List ℕ) :=
  imports.mapM (runImportType companyId provider batchSize)

end

structure RollbackReport where
  jobId : ℕ
  rolledBackAt : ℚ
  recordsRolledBack : ℕ
  deriving DecidableEq

def ImportLog.isSuccessOf (jobId : ℕ) (log : ImportLog) : Bool :=
  log.importJobId = some jobId && log.result = .success

/-- The natural subtraction is `max(0, ..)`. -/
def ImportJob.rollBack (now : ℚ) (count : ℕ) (j : ImportJob) : ImportJob :=
  { j with
    rolledBackAt := some now
    status := .failed
    importedCount := j.importedCount - count
    skippedCount := j.skippedCount + count }

def ImportLog.rollBack (jobId : ℕ) (log : ImportLog) : ImportLog :=
  if log.isSuccessOf jobId then { log with result := .rolledBack } else log

def Db.rollBack (now : ℚ) (jobId count : ℕ) (db : Db) : Db :=
  Db.updateJob { db with logs := db.logs.map (·.rollBack jobId) } jobId (·.rollBack now count)

def rollbackImport (now : ℚ) (jobId : ℕ) : Session Db RollbackReport := do
  match ← Session.execute fun db => .ok (db.jobs.find? (·.id = jobId), db) with
  | none => throw s!"Import job {jobId} not found"
  | some job =>
    if job.rolledBackAt.isSome then throw s!"Import job {jobId} already rolled back"
    else
      let count ← Session.execute fun db => .ok (db.logs.countP (·.isSuccessOf jobId), db)
      Session.execute fun db => .ok ((), db.rollBack now jobId count)
      return ⟨jobId, now, count⟩

section
variable {db : Db} {companyId : ℕ} {provider : String}

theorem valid_updateJob (h : db.Valid) (id : ℕ) {f : ImportJob → ImportJob}
    (hf : ∀ j, (f j).id = j.id) : (db.updateJob id f).Valid := by
  have hids : ∀ j, (if j.id = id then f j else j).id = j.id := by
    intro j
    split
    · exact hf j
    · rfl
  have hsame : ImportJob.id ∘ (fun j => if j.id = id then f j else j) = ImportJob.id := funext hids
  refine ⟨?_, ?_, ?_, h.unique⟩
  · intro j' hj'
    obtain ⟨j, hj, rfl⟩ := List.mem_map.mp hj'
    rw [hids]
    exact h.jobIds j hj
  · rw [Db.updateJob, List.map_map, hsame]
    exact h.jobsNodup
  · intro l hl jobId hjobId
    obtain ⟨j, hj, hid⟩ := h.logJobs l hl jobId hjobId
    exact ⟨_, List.mem_map_of_mem hj, (hids j).trans hid⟩

theorem valid_newJob (h : db.Valid) (importType : ImportType) :
    Db.Valid { db with
      jobs := db.jobs ++ [newJob companyId provider importType db.nextJobId]
      nextJobId := db.nextJobId + 1 } := by
  refine ⟨?_, ?_, ?_, h.unique⟩
  · intro j hj
    rcases List.mem_append.mp hj with hj | hj
    · exact Nat.lt_succ_of_lt (h.jobIds j hj)
    · rw [List.mem_singleton.mp hj]
      exact Nat.lt_succ_self _
  · have hnew : db.nextJobId ∉ db.jobs.map ImportJob.id := by
      intro hmem
      obtain ⟨j, hj, hid⟩ := List.mem_map.mp hmem
      exact absurd (h.jobIds j hj) (by omega)
    rw [List.map_append, List.map_singleton, ← List.concat_eq_append]
    exact h.jobsNodup.concat hnew
  · intro l hl jobId hjobId
    obtain ⟨j, hj, hid⟩ := h.logJobs l hl jobId hjobId
    exact ⟨j, List.mem_append_left _ hj, hid⟩

/-- The rows that the table takes. -/
def Db.Accepts (db : Db) (log : ImportLog) (jsonable : Bool) : Prop :=
  jsonable ∧ fitsExternalId log.externalId ∧ log.importJobId.all db.hasJob ∧
    log.key ∉ db.logs.map ImportLog.key

theorem insertLog_of_accepts {log : ImportLog} {jsonable : Bool} (h : db.Accepts log jsonable) :
    insertLog log jsonable db = .ok ((), db.addLog log) := by
  obtain ⟨hjson, hfits, hjob, hkey⟩ := h
  simp [insertLog, hjson, hfits, hjob, hkey]

theorem insertLog_of_not_accepts {log : ImportLog} {jsonable : Bool}
    (h : ¬db.Accepts log jsonable) : ∃ e, insertLog log jsonable db = .error e := by
  unfold insertLog
  split_ifs with hjson hfits hkey hjob
  · exact ⟨_, rfl⟩
  · exact ⟨_, rfl⟩
  · exact ⟨_, rfl⟩
  · exact ⟨_, rfl⟩
  · exact absurd ⟨by simpa using hjson, by simpa using hfits, by simpa using hjob, hkey⟩ h

theorem valid_addLog (h : db.Valid) {log : ImportLog} {jsonable : Bool}
    (haccepts : db.Accepts log jsonable) : (db.addLog log).Valid := by
  obtain ⟨-, -, hjob, hkey⟩ := haccepts
  refine ⟨h.jobIds, h.jobsNodup, ?_, ?_⟩
  · intro l hl jobId hjobId
    rcases List.mem_append.mp hl with hl | hl
    · exact h.logJobs l hl jobId hjobId
    · obtain rfl := List.mem_singleton.mp hl
      obtain ⟨j, hj, hid⟩ : ∃ j ∈ db.jobs, j.id = jobId := by
        simpa [Option.mem_def.mp hjobId, Db.hasJob] using hjob
      exact ⟨j, hj, hid⟩
  · have hsplit : (db.addLog log).logs.map ImportLog.key = db.logs.map ImportLog.key ++ [log.key] :=
      List.map_append
    rw [hsplit, ← List.concat_eq_append]
    exact h.unique.concat hkey

theorem valid_rollBack (h : db.Valid) (now : ℚ) (jobId count : ℕ) :
    (db.rollBack now jobId count).Valid := by
  have hkey : ImportLog.key ∘ (·.rollBack jobId) = ImportLog.key := by
    funext log
    simp only [Function.comp, ImportLog.rollBack]
    split <;> rfl
  have hlogs : Db.Valid { db with logs := db.logs.map (·.rollBack jobId) } := by
    refine ⟨h.jobIds, h.jobsNodup, ?_, ?_⟩
    · intro l' hl' id hid
      obtain ⟨l, hl, rfl⟩ := List.mem_map.mp hl'
      refine h.logJobs l hl id ?_
      unfold ImportLog.rollBack at hid
      split at hid <;> exact hid
    · rw [List.map_map, hkey]
      exact h.unique
  exact valid_updateJob hlogs jobId (f := (·.rollBack now count)) fun _ => rfl

theorem updateImportProgress_keeps {jobId : ℕ} {p : Progress} :
    (updateImportProgress jobId p).Keeps Db.Valid := by
  refine Session.Keeps.execute fun db a db' h hstatement => ?_
  cases hstatement
  exact valid_updateJob h jobId (f := (·.withProgress p)) fun _ => rfl

theorem logImportResult_keeps {jobId : ℕ} {externalId : String} {entityType : ImportType}
    {result : ImportResult} {errorMessage : Option String} {jsonable : Bool} :
    (logImportResult companyId provider jobId externalId entityType result errorMessage
      jsonable).Keeps Db.Valid := by
  refine Session.Keeps.execute fun db a db' h hstatement => ?_
  by_cases haccepts : db.Accepts
    ⟨companyId, some jobId, provider, externalId, entityType, result, errorMessage⟩ jsonable
  · rw [insertLog_of_accepts haccepts] at hstatement
    cases hstatement
    exact valid_addLog h haccepts
  · obtain ⟨e, he⟩ := insertLog_of_not_accepts haccepts
    rw [he] at hstatement
    cases hstatement

theorem tryRecord_keeps {jobId : ℕ} {entityType : ImportType} {c : Counts} {r : Record × ℕ} :
    (tryRecord companyId provider jobId entityType c r).Keeps Db.Valid := by
  refine Session.Keeps.bind (Session.Keeps.execute ?_) fun found => ?_
  · intro db a db' h hstatement
    cases hstatement
    exact h
  · split
    · exact logImportResult_keeps.bind fun _ => Session.Keeps.pure _
    · exact logImportResult_keeps.bind fun _ => Session.Keeps.pure _

theorem importRecord_keeps {jobId : ℕ} {entityType : ImportType} {total : ℕ} {c : Counts}
    {r : Record × ℕ} :
    (importRecord companyId provider jobId entityType total c r).Keeps Db.Valid := by
  refine Session.Keeps.bind (tryRecord_keeps.tryCatch fun e => ?_) fun c => ?_
  · exact logImportResult_keeps.bind fun _ => Session.Keeps.pure _
  · exact updateImportProgress_keeps.bind fun _ => Session.Keeps.pure _

theorem importFetched_keeps {jobId : ℕ} {importType : ImportType} {records : List Record}
    {batchSize : ℕ+} :
    (importFetched companyId provider jobId importType records batchSize).Keeps Db.Valid := by
  refine Session.Keeps.bind (Session.Keeps.execute ?_) fun _ =>
    updateImportProgress_keeps.bind fun _ =>
      Session.Keeps.bind ?_ fun c => updateImportProgress_keeps
  · intro db a db' h hstatement
    cases hstatement
    exact valid_updateJob h jobId (f := ({ · with totalRecords := records.length })) fun _ => rfl
  · exact Session.Keeps.foldlM (fun _ _ => Session.Keeps.foldlM (fun _ _ => importRecord_keeps) _ _)
      _ _

theorem runImportType_keeps {batchSize : ℕ+} (i : ImportType × Fetch) :
    (runImportType companyId provider batchSize i).Keeps Db.Valid := by
  refine Session.Keeps.bind (Session.Keeps.execute ?_) fun jobId => Session.Keeps.bind ?_ fun _ =>
    Session.Keeps.pure jobId
  · intro db a db' h hstatement
    cases hstatement
    exact valid_newJob h i.1
  · cases i.2 with
    | noFetcher => exact updateImportProgress_keeps
    | raises e => exact updateImportProgress_keeps
    | records rs => exact importFetched_keeps.tryCatch fun e => updateImportProgress_keeps

theorem runImport_keeps (batchSize : ℕ+) (imports : List (ImportType × Fetch)) :
    (runImport companyId provider batchSize imports).Keeps Db.Valid :=
  Session.Keeps.mapM runImportType_keeps imports

theorem rollbackImport_keeps (now : ℚ) (jobId : ℕ) :
    (rollbackImport now jobId).Keeps Db.Valid := by
  refine Session.Keeps.bind (Session.Keeps.execute ?_) fun job => ?_
  · intro db a db' h hstatement
    cases hstatement
    exact h
  split
  · exact Session.Keeps.throw _
  split
  · exact Session.Keeps.throw _
  · refine Session.Keeps.bind (Session.Keeps.execute ?_) fun count =>
      Session.Keeps.bind (Session.Keeps.execute ?_) fun _ => Session.Keeps.pure _
    · intro db a db' h hstatement
      cases hstatement
      exact h
    · intro db a db' h hstatement
      cases hstatement
      exact valid_rollBack h now jobId count

end

def Store.runImport (companyId : ℕ) (provider : String) (batchSize : ℕ+)
    (imports : List (ImportType × Fetch)) (s : Store) : Store :=
  ⟨(Integrations.runImport companyId provider batchSize imports).commitRun s.1,
    (runImport_keeps batchSize imports).commitRun s.2⟩

def Store.rollbackImport (now : ℚ) (jobId : ℕ) (s : Store) : Store :=
  ⟨(Integrations.rollbackImport now jobId).commitRun s.1,
    (rollbackImport_keeps now jobId).commitRun s.2⟩

end WorkTicket.Integrations
