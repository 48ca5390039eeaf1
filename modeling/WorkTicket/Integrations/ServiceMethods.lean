import WorkTicket.Foundation.Json
import WorkTicket.Foundation.TenantTables
import WorkTicket.Integrations.ImportService

/-! The methods of `ImportService`, each run in a transaction of its own, on the tables of all
companies. New rows get the next key; what a fetcher or a health check does is the connector's. -/

namespace WorkTicket.Integrations

open Transaction TenantTables

inductive ConnectionStatus
  | connected | disconnected | expired | error | pending
  deriving DecidableEq

structure IntegrationConnection where
  id : ℕ
  companyId : ℕ
  provider : String
  tenant : String
  connectionStatus : ConnectionStatus
  accessToken : Option String
  refreshToken : Option String
  tokenExpiresAt : Option ℚ
  lastSyncAt : Option ℚ
  metadataJson : List (String × Json)
  updatedAt : ℚ
  deriving DecidableEq

structure MappingRule where
  id : ℕ
  companyId : ℕ
  provider : String
  sourceField : String
  destinationField : String
  transformationRule : Option String
  entityType : ImportType
  deriving DecidableEq

def connectionColumns : Columns IntegrationConnection := ⟨(·.id), (·.companyId)⟩

def jobColumns : Columns ImportJob := ⟨(·.id), (·.companyId)⟩

def ruleColumns : Columns MappingRule := ⟨(·.id), (·.companyId)⟩

/-- The columns of `uq_connection_company_provider_tenant`. -/
def IntegrationConnection.key (c : IntegrationConnection) : ℕ × String × String :=
  (c.companyId, c.provider, c.tenant)

/-- The columns of `uq_mapping_rule`. -/
def MappingRule.key (r : MappingRule) : ℕ × String × String × String × ImportType :=
  (r.companyId, r.provider, r.sourceField, r.destinationField, r.entityType)

structure Tables where
  connections : List IntegrationConnection
  nextConnectionId : ℕ
  db : Db
  rules : List MappingRule
  nextRuleId : ℕ

/-- What the primary keys, the foreign key of the log and the unique constraints promise. -/
structure Tables.Valid (s : Tables) : Prop where
  connections : Keyed connectionColumns s.connections s.nextConnectionId
  connectionKeys : (s.connections.map IntegrationConnection.key).Nodup
  db : s.db.Valid
  rules : Keyed ruleColumns s.rules s.nextRuleId
  ruleKeys : (s.rules.map MappingRule.key).Nodup

/-- A content that the four tables can have. -/
abbrev TablesStore := {s : Tables // s.Valid}

/-- `VARCHAR(n)`, which takes no NUL. -/
def fitsVarchar (n : ℕ) (s : String) : Bool := s.length ≤ n && s.toList.all (·.val ≠ 0)

def Tables.hasConnection (s : Tables) (id : ℕ) : Bool := s.connections.any (·.id = id)

/-- Runs a program on the import tables and commits it. -/
def Tables.transact {α : Type} (x : Session Db α) (s : Tables) : Except String (α × Tables) :=
  match x.run (Transaction.begin s.db) with
  | (.ok a, t) => .ok (a, { s with db := t.commit })
  | (.error e, _) => .error e

theorem Tables.transact_execute {α : Type} (statement : Db → Except String (α × Db)) (s : Tables) :
    s.transact (Session.execute statement) =
      (statement s.db).map fun p => (p.1, { s with db := p.2 }) := by
  rw [Tables.transact, Session.run_execute]
  cases h : statement s.db with
  | ok p =>
    have hrun : (Transaction.begin s.db).execute statement = (.ok p.1, ⟨s.db, p.2, false⟩) := by
      simp [Transaction.execute, Transaction.begin, h]
    rw [hrun]
    rfl
  | error e =>
    have hrun : (Transaction.begin s.db).execute statement = (.error e, ⟨s.db, s.db, true⟩) := by
      simp [Transaction.execute, Transaction.begin, h]
    rw [hrun]
    rfl

inductive ConnectorStatus
  | stub | beta | production | internal
  deriving DecidableEq

inductive ConnectionHealth
  | healthy | tokenExpiring | disconnected | rateLimited | error | unknown
  deriving DecidableEq

structure ConnectorClass where
  status : ConnectorStatus
  displayName : String

def providers : List (String × ConnectorClass) :=
  [("quickbooks", ⟨.production, "QuickBooks Online"⟩), ("jobber", ⟨.production, "Jobber"⟩),
    ("housecall_pro", ⟨.production, "Housecall Pro"⟩), ("stripe", ⟨.production, "Stripe"⟩),
    ("xero", ⟨.stub, "Xero"⟩), ("lmn", ⟨.stub, "LMN (Landscape Management Network)"⟩),
    ("hubspot", ⟨.stub, "HubSpot"⟩), ("gusto", ⟨.stub, "Gusto"⟩),
    ("servicetitan", ⟨.stub, "ServiceTitan"⟩), ("aspire", ⟨.stub, "Aspire"⟩)]

def getConnector (provider : String) : Except String ConnectorClass :=
  match providers.lookup provider with
  | some cls => .ok cls
  | none =>
    let available := ", ".intercalate (providers.map fun p => s!"\x27{p.1}\x27")
    .error s!"Unknown provider: {provider}. Available: [{available}]"

/-- What a connector does; `fetch` is told how many types were fetched before. -/
structure Connector where
  authenticate : Except String Unit
  scan : Except String (List (String × ℤ))
  fetch : ℕ → ImportType → Fetch
  checkHealth : Except String ConnectionHealth
  lastError : Option String

def Connector.fetches (k : Connector) (importTypes : List ImportType) :
    List (ImportType × Fetch) :=
  importTypes.zipIdx.map fun i => (i.1, k.fetch i.2 i.1)

/-- `str(getattr(r, "external_id", str(getattr(r, "id", ""))))`, as the dry runs have it. -/
def Record.dryRunExternalId (r : Record) : String := r.externalId.getD (r.id.getD "")

section
variable (companyId : ℕ) (provider : String)

/-- What a dry run of `run_import` does with the job of one type; its count of the records that
are there already goes nowhere. -/
def dryRunJob (jobId : ℕ) (importType : ImportType) (fetch : Fetch) : Session Db Unit := do
  updateImportProgress jobId { status := .scanning, progressPct := some 0 }
  match fetch with
  | .noFetcher => updateImportProgress jobId (.failure ("No fetcher for " ++ importType.value))
  | .raises e => updateImportProgress jobId (.failure e)
  | .records rs =>
    tryCatch (do
        setTotalRecords jobId rs.length
        let _ ← rs.mapM fun r =>
          alreadyImported companyId provider r.dryRunExternalId importType
        updateImportProgress jobId (.counted .completed 100 ⟨0, 0, 0⟩)
        setTotalRecords jobId rs.length)
      fun e => updateImportProgress jobId (.failure e)

def dryRunImportType (i : ImportType × Fetch) : Session Db ℕ := do
  let jobId ← createImportJob companyId provider i.1
  dryRunJob companyId provider jobId i.1 i.2
  return jobId

def readJob (jobId : ℕ) : Session Db (Option ImportJob) :=
  Session.execute fun db => .ok (db.jobs.find? (·.id = jobId), db)

/-- The job of one type, as it is once its records are through. -/
def importJob (dryRun : Bool) (batchSize : ℕ+) (i : ImportType × Fetch) :
    Session Db (Option ImportJob) := do
  let jobId ← if dryRun then dryRunImportType companyId provider i
    else runImportType companyId provider batchSize i
  readJob jobId

end

structure DryRunEntry where
  total : ℤ
  new : ℕ
  duplicates : ℕ
  error : Option String
  deriving DecidableEq

/-- `results[key] = value`. -/
def setItem {α : Type} (results : List (ImportType × α)) (key : ImportType) (value : α) :
    List (ImportType × α) :=
  if results.any (·.1 = key) then results.map fun r => if r.1 = key then (key, value) else r
  else results ++ [(key, value)]

structure HealthReport where
  connectionId : ℕ
  provider : String
  tenant : String
  health : ConnectionHealth
  connectionStatus : ConnectionStatus
  lastSyncAt : Option ℚ
  lastError : Option String

structure ReportedLog where
  externalId : String
  entityType : ImportType
  result : ImportResult
  errorMessage : Option String

structure ImportReport where
  job : ImportJob
  logs : List ReportedLog

/-- The success rate is as it is before it is rounded. -/
structure MigrationMetrics where
  totalImports : ℕ
  completed : ℕ
  failed : ℕ
  inProgress : ℕ
  rolledBackCount : ℕ
  successRatePct : ℚ
  totalImported : ℕ
  totalSkipped : ℕ
  totalFailedRecords : ℕ

inductive Answer
  | done
  | connection (c : Option IntegrationConnection)
  | connections (cs : List IntegrationConnection)
  | job (j : Option ImportJob)
  | jobs (js : List ImportJob)
  | log (l : ImportLog)
  | imported (b : Bool)
  | rule (r : MappingRule)
  | rules (rs : List MappingRule)
  | unavailable (reason : String)
  | error (reason : String)
  | scan (provider displayName : String) (counts : List (String × ℤ))
  | dryRun (provider : String) (results : List (ImportType × DryRunEntry))
  | health (r : HealthReport)
  | report (r : ImportReport)
  | rolledBack (r : RollbackReport)
  | metrics (m : Option MigrationMetrics)

/-- The service of a company. Of the rows of the other companies its session is shown those that
`sees` lets through: none, where the row level security of the tables is in force. -/
structure ImportService where
  companyId : ℕ
  sees : ℕ → Bool
  connectors : String → Option IntegrationConnection → Connector
  now : ℚ

namespace ImportService

variable (self : ImportService)

def createConnection (provider tenant : String) (accessToken refreshToken : Option String)
    (metadataJson : Option (List (String × Json))) (s : Tables) :
    Except String (Answer × Tables) :=
  let c : IntegrationConnection :=
    { id := s.nextConnectionId
      companyId := self.companyId
      provider := provider
      tenant := tenant
      connectionStatus := if (accessToken.filter (· ≠ "")).isSome then .connected else .pending
      accessToken := accessToken
      refreshToken := refreshToken
      tokenExpiresAt := none
      lastSyncAt := none
      metadataJson := metadataJson.getD []
      updatedAt := self.now }
  if !fitsVarchar 255 tenant then .error "value too long for type character varying(255)"
  else if c.key ∈ s.connections.map IntegrationConnection.key then
    .error "duplicate key value violates unique constraint uq_connection_company_provider_tenant"
  else
    .ok (.connection (some c), { s with
      connections := s.connections ++ [c]
      nextConnectionId := s.nextConnectionId + 1 })

/-- The constraint leaves at most one row to find. -/
def getConnection (provider tenant : String) (s : Tables) : Except String (Answer × Tables) :=
  .ok (.connection (s.connections.find? fun c =>
    c.companyId = self.companyId && c.provider = provider && c.tenant = tenant), s)

def getConnections (s : Tables) : Except String (Answer × Tables) :=
  .ok (.connections (s.connections.filter fun c => c.companyId = self.companyId), s)

/-- `self.db.get(IntegrationConnection, connection_id)`. -/
def loadConnection (s : Tables) (id : ℕ) : Option IntegrationConnection :=
  lookup connectionColumns self.companyId self.sees s.connections id

def loadJob (s : Tables) (id : ℕ) : Option ImportJob :=
  lookup jobColumns self.companyId self.sees s.db.jobs id

/-- What both updates of a connection do with the row that they load, if there is one. -/
def updateConnection (connectionId : ℕ) (f : IntegrationConnection → IntegrationConnection)
    (s : Tables) : Except String (Answer × Tables) :=
  match self.loadConnection s connectionId with
  | none => .ok (.done, s)
  | some _ =>
    .ok (.done, { s with connections := update connectionColumns s.connections connectionId f })

def updateConnectionStatus (connectionId : ℕ) (status : ConnectionStatus) (s : Tables) :
    Except String (Answer × Tables) :=
  self.updateConnection connectionId
    (fun c => { c with connectionStatus := status, updatedAt := self.now }) s

def updateConnectionTokens (connectionId : ℕ) (accessToken refreshToken : Option String)
    (expiresAt : Option ℚ) (s : Tables) : Except String (Answer × Tables) :=
  self.updateConnection connectionId
    (fun c => { c with
      accessToken := accessToken
      refreshToken := (refreshToken.filter (· ≠ "")).or c.refreshToken
      tokenExpiresAt := expiresAt.or c.tokenExpiresAt
      connectionStatus := .connected
      updatedAt := self.now }) s

/-- The foreign key of the jobs; the check passes over the row level security. -/
def checkConnectionId (connectionId : Option ℕ) (s : Tables) : Except String Unit :=
  if connectionId.all s.hasConnection then .ok ()
  else .error "insert on table import_jobs violates foreign key constraint fk_import_jobs_connection"

def createImportJob (provider : String) (importType : ImportType) (connectionId : Option ℕ)
    (s : Tables) : Except String (Answer × Tables) := do
  checkConnectionId connectionId s
  let (id, s) ← s.transact (Integrations.createImportJob self.companyId provider importType)
  return (.job (some (newJob self.companyId provider importType id)), s)

def getImportJob (jobId : ℕ) (s : Tables) : Except String (Answer × Tables) :=
  .ok (.job (self.loadJob s jobId), s)

/-- The rows are in the order of their creation. -/
def getImportJobs (limit : ℤ) (s : Tables) : Except String (Answer × Tables) :=
  if limit < 0 then .error "LIMIT must not be negative"
  else
    let jobs := s.db.jobs.filter fun j => j.companyId = self.companyId
    .ok (.jobs (jobs.reverse.take limit.toNat), s)

def updateImportProgress (jobId : ℕ) (p : Progress) (s : Tables) :
    Except String (Answer × Tables) :=
  match self.loadJob s jobId with
  | none => .ok (.done, s)
  | some _ => do
    let (_, s) ← s.transact (Integrations.updateImportProgress jobId p)
    return (.done, s)

def logImportResult (importJobId : ℕ) (externalSystem externalId : String)
    (entityType : ImportType) (result : ImportResult) (errorMessage : Option String)
    (jsonable : Bool) (s : Tables) : Except String (Answer × Tables) :=
  if jsonable && !fitsVarchar 50 externalSystem then
    .error "value too long for type character varying(50)"
  else do
    let (_, s) ← s.transact (Integrations.logImportResult self.companyId externalSystem importJobId
      externalId entityType result errorMessage jsonable)
    return (.log ⟨self.companyId, some importJobId, externalSystem, externalId, entityType, result,
      errorMessage⟩, s)

def alreadyImported (externalSystem externalId : String) (entityType : ImportType) (s : Tables) :
    Except String (Answer × Tables) := do
  let (found, s) ← s.transact
    (Integrations.alreadyImported self.companyId externalSystem externalId entityType)
  return (.imported found, s)

def getMappingRules (provider : String) (entityType : Option ImportType) (s : Tables) :
    Except String (Answer × Tables) :=
  .ok (.rules (s.rules.filter fun r =>
    r.companyId = self.companyId && r.provider = provider &&
      entityType.all fun e => r.entityType = e), s)

def saveMappingRule (provider sourceField destinationField : String) (entityType : ImportType)
    (transformationRule : Option String) (s : Tables) : Except String (Answer × Tables) :=
  let r : MappingRule := ⟨s.nextRuleId, self.companyId, provider, sourceField, destinationField,
    transformationRule, entityType⟩
  if !fitsVarchar 50 provider then .error "value too long for type character varying(50)"
  else if !(fitsVarchar 255 sourceField && fitsVarchar 255 destinationField) then
    .error "value too long for type character varying(255)"
  else if r.key ∈ s.rules.map MappingRule.key then
    .error "duplicate key value violates unique constraint uq_mapping_rule"
  else .ok (.rule r, { s with rules := s.rules ++ [r], nextRuleId := s.nextRuleId + 1 })

def deleteMappingRule (ruleId : ℕ) (s : Tables) : Except String (Answer × Tables) :=
  match lookup ruleColumns self.companyId self.sees s.rules ruleId with
  | none => .ok (.done, s)
  | some _ => .ok (.done, { s with rules := erase ruleColumns s.rules ruleId })

def notYetAvailable (provider : String) : String := s!"{provider} connector is not yet available"

/-- The connector of a call that may name a connection. -/
def connectorOf (provider : String) (connectionId : Option ℕ) (s : Tables) : Connector :=
  self.connectors provider (connectionId.bind (self.loadConnection s))

def scanWith (connector : Connector) (provider displayName : String) (s : Tables) :
    Except String (Answer × Tables) := do
  connector.authenticate
  let counts ← connector.scan
  return (.scan provider displayName counts, s)

def scanProvider (provider : String) (connectionId : Option ℕ) (s : Tables) :
    Except String (Answer × Tables) := do
  let cls ← getConnector provider
  if cls.status = .stub then return (.unavailable (notYetAvailable provider), s)
  else scanWith (self.connectorOf provider connectionId s) provider cls.displayName s

/-- The first job that is inserted names the connection. -/
def importWith (connector : Connector) (provider : String) (importTypes : List ImportType)
    (connectionId : Option ℕ) (dryRun : Bool) (batchSize : ℕ+) (s : Tables) :
    Except String (Answer × Tables) := do
  connector.authenticate
  checkConnectionId (if importTypes = [] then none else connectionId) s
  let (jobs, s) ← s.transact ((connector.fetches importTypes).mapM
    (importJob self.companyId provider dryRun batchSize))
  return (.jobs jobs.reduceOption, s)

def runImport (provider : String) (importTypes : List ImportType) (connectionId : Option ℕ)
    (dryRun : Bool) (batchSize : ℕ+) (s : Tables) : Except String (Answer × Tables) := do
  let cls ← getConnector provider
  if cls.status = .stub then throw (notYetAvailable provider)
  else
    self.importWith (self.connectorOf provider connectionId s) provider importTypes connectionId
      dryRun batchSize s

/-- What a dry run tells of one type. -/
def dryRunEntry (provider : String) (importType : ImportType) (logs : List ImportLog) :
    Fetch → DryRunEntry
  | .noFetcher => ⟨0, 0, 0, none⟩
  | .raises e => ⟨-1, 0, 0, some e⟩
  | .records rs =>
    let isDuplicate (r : Record) : Bool := logs.any fun log =>
      log.key = ⟨self.companyId, provider, r.dryRunExternalId, importType⟩ && log.result = .success
    ⟨rs.length, rs.countP (!isDuplicate ·), rs.countP isDuplicate, none⟩

def dryRunWith (connector : Connector) (provider : String) (importTypes : List ImportType)
    (s : Tables) : Answer :=
  match connector.authenticate with
  | .error e => .error e
  | .ok _ => .dryRun provider ((connector.fetches importTypes).foldl (fun results i =>
      setItem results i.1 (self.dryRunEntry provider i.1 s.db.logs i.2)) [])

def dryRunScan (provider : String) (importTypes : List ImportType) (connectionId : Option ℕ)
    (s : Tables) : Except String (Answer × Tables) := do
  let cls ← getConnector provider
  if cls.status = .stub then return (.unavailable (notYetAvailable provider), s)
  else
    return (self.dryRunWith (self.connectorOf provider connectionId s) provider importTypes s, s)

def healthOf (c : IntegrationConnection) : Except String Answer :=
  match getConnector c.provider with
  | .error _ => .ok (.error s!"Unknown provider: {c.provider}")
  | .ok _ => do
    let connector := self.connectors c.provider (some c)
    let health ← connector.checkHealth
    return .health ⟨c.id, c.provider, c.tenant, health, c.connectionStatus, c.lastSyncAt,
      connector.lastError⟩

def checkConnectionHealth (connectionId : ℕ) (s : Tables) : Except String (Answer × Tables) :=
  match (self.loadConnection s connectionId).filter fun c => c.companyId = self.companyId with
  | none => .error "Connection not found"
  | some c => (self.healthOf c).map (·, s)

/-- The rows of the job that a query is shown; the query names no company. -/
def logsOf (jobId : ℕ) (s : Tables) : List ImportLog :=
  s.db.logs.filter fun l => l.importJobId = some jobId && shown self.companyId self.sees l.companyId

def getImportReport (jobId : ℕ) (s : Tables) : Except String (Answer × Tables) :=
  match self.loadJob s jobId with
  | none => .error s!"Import job {jobId} not found"
  | some job => .ok (.report ⟨job, (self.logsOf jobId s).map fun l =>
      ⟨l.externalId, l.entityType, l.result, l.errorMessage⟩⟩, s)

/-- The log rows as a rollback of the job leaves them, which finds those that it is shown. -/
def rolledBackLogs (jobId : ℕ) (logs : List ImportLog) : List ImportLog :=
  logs.map fun l => if shown self.companyId self.sees l.companyId then l.rollBack jobId else l

def rollbackImport (jobId : ℕ) (s : Tables) : Except String (Answer × Tables) :=
  match self.loadJob s jobId with
  | none => .error s!"Import job {jobId} not found"
  | some job =>
    if job.rolledBackAt.isSome then .error s!"Import job {jobId} already rolled back"
    else
      let count := (self.logsOf jobId s).countP (·.result = .success)
      .ok (.rolledBack ⟨jobId, self.now, count⟩, { s with
        db := Db.updateJob { s.db with logs := self.rolledBackLogs jobId s.db.logs } jobId
          (·.rollBack self.now count) })

def migrationMetrics (jobs : List ImportJob) : Option MigrationMetrics :=
  if jobs = [] then none
  else
    let completed := jobs.countP fun j => j.status ∈ [.completed, .partially]
    some
      { totalImports := jobs.length
        completed := completed
        failed := jobs.countP (·.status = .failed)
        inProgress := jobs.countP (·.status = .inProgress)
        rolledBackCount := jobs.countP (·.rolledBackAt.isSome)
        successRatePct := completed / jobs.length * 100
        totalImported := (jobs.map (·.importedCount)).sum
        totalSkipped := (jobs.map (·.skippedCount)).sum
        totalFailedRecords := (jobs.map (·.failedCount)).sum }

def getMigrationMetrics (s : Tables) : Except String (Answer × Tables) :=
  .ok (.metrics (migrationMetrics (s.db.jobs.filter fun j => j.companyId = self.companyId)), s)

section
variable {self} {s : Tables} {id : ℕ}

theorem updateConnection_none {f : IntegrationConnection → IntegrationConnection}
    (h : self.loadConnection s id = none) : self.updateConnection id f s = .ok (.done, s) := by
  rw [updateConnection, h]

theorem updateConnection_some {f : IntegrationConnection → IntegrationConnection}
    {c : IntegrationConnection} (h : self.loadConnection s id = some c) :
    self.updateConnection id f s =
      .ok (.done, { s with connections := update connectionColumns s.connections id f }) := by
  rw [updateConnection, h]

theorem updateImportProgress_none {p : Progress} (h : self.loadJob s id = none) :
    self.updateImportProgress id p s = .ok (.done, s) := by
  rw [updateImportProgress, h]

theorem updateImportProgress_some {p : Progress} {j : ImportJob} (h : self.loadJob s id = some j) :
    self.updateImportProgress id p s =
      .ok (.done, { s with db := s.db.updateJob id (·.withProgress p) }) := by
  rw [updateImportProgress, h]
  rfl

section
variable {externalSystem externalId : String} {entityType : ImportType} {result : ImportResult}
  {errorMessage : Option String} {jsonable : Bool}

theorem logImportResult_ok {db : Db} (hfits : ¬(jsonable && !fitsVarchar 50 externalSystem) = true)
    (h : insertLog ⟨self.companyId, some id, externalSystem, externalId, entityType, result,
      errorMessage⟩ jsonable s.db = .ok ((), db)) :
    self.logImportResult id externalSystem externalId entityType result errorMessage jsonable s =
      .ok (.log ⟨self.companyId, some id, externalSystem, externalId, entityType, result,
        errorMessage⟩, { s with db := db }) := by
  rw [logImportResult, if_neg hfits, Integrations.logImportResult, Tables.transact_execute, h]
  rfl

theorem logImportResult_error {e : String}
    (hfits : ¬(jsonable && !fitsVarchar 50 externalSystem) = true)
    (h : insertLog ⟨self.companyId, some id, externalSystem, externalId, entityType, result,
      errorMessage⟩ jsonable s.db = .error e) :
    self.logImportResult id externalSystem externalId entityType result errorMessage jsonable s =
      .error e := by
  rw [logImportResult, if_neg hfits, Integrations.logImportResult, Tables.transact_execute, h]
  rfl

end

theorem deleteMappingRule_none (h : lookup ruleColumns self.companyId self.sees s.rules id = none) :
    self.deleteMappingRule id s = .ok (.done, s) := by
  rw [deleteMappingRule, h]

theorem deleteMappingRule_some {r : MappingRule}
    (h : lookup ruleColumns self.companyId self.sees s.rules id = some r) :
    self.deleteMappingRule id s =
      .ok (.done, { s with rules := erase ruleColumns s.rules id }) := by
  rw [deleteMappingRule, h]

section
variable {provider : String} {cls : ConnectorClass} {importTypes : List ImportType}
  {connectionId : Option ℕ} {dryRun : Bool} {batchSize : ℕ+}

theorem scanProvider_of_connector (hcls : getConnector provider = .ok cls)
    (hstub : cls.status ≠ .stub) : self.scanProvider provider connectionId s =
      scanWith (self.connectorOf provider connectionId s) provider cls.displayName s := by
  rw [scanProvider, hcls]
  exact if_neg hstub

theorem runImport_of_connector (hcls : getConnector provider = .ok cls)
    (hstub : cls.status ≠ .stub) :
    self.runImport provider importTypes connectionId dryRun batchSize s =
      self.importWith (self.connectorOf provider connectionId s) provider importTypes connectionId
        dryRun batchSize s := by
  rw [runImport, hcls]
  exact if_neg hstub

theorem dryRunScan_of_connector (hcls : getConnector provider = .ok cls)
    (hstub : cls.status ≠ .stub) : self.dryRunScan provider importTypes connectionId s =
      .ok (self.dryRunWith (self.connectorOf provider connectionId s) provider importTypes s, s) := by
  rw [dryRunScan, hcls]
  exact if_neg hstub

end

theorem checkConnectionHealth_none
    (h : (self.loadConnection s id).filter (fun c => c.companyId = self.companyId) = none) :
    self.checkConnectionHealth id s = .error "Connection not found" := by
  rw [checkConnectionHealth, h]

theorem checkConnectionHealth_some {c : IntegrationConnection}
    (h : (self.loadConnection s id).filter (fun c => c.companyId = self.companyId) = some c) :
    self.checkConnectionHealth id s = (self.healthOf c).map (·, s) := by
  rw [checkConnectionHealth, h]

theorem getImportReport_none (h : self.loadJob s id = none) :
    self.getImportReport id s = .error s!"Import job {id} not found" := by
  rw [getImportReport, h]

theorem getImportReport_some {j : ImportJob} (h : self.loadJob s id = some j) :
    self.getImportReport id s = .ok (.report ⟨j, (self.logsOf id s).map fun l =>
      ⟨l.externalId, l.entityType, l.result, l.errorMessage⟩⟩, s) := by
  rw [getImportReport, h]

theorem rollbackImport_none (h : self.loadJob s id = none) :
    self.rollbackImport id s = .error s!"Import job {id} not found" := by
  rw [rollbackImport, h]

theorem rollbackImport_again {j : ImportJob} (h : self.loadJob s id = some j)
    (hrolled : j.rolledBackAt.isSome) :
    self.rollbackImport id s = .error s!"Import job {id} already rolled back" := by
  rw [rollbackImport, h]
  exact if_pos hrolled

theorem rollbackImport_some {j : ImportJob} (h : self.loadJob s id = some j)
    (hrolled : ¬j.rolledBackAt.isSome) :
    self.rollbackImport id s =
      .ok (.rolledBack ⟨id, self.now, (self.logsOf id s).countP (·.result = .success)⟩, { s with
        db := Db.updateJob { s.db with logs := self.rolledBackLogs id s.db.logs } id
          (·.rollBack self.now ((self.logsOf id s).countP (·.result = .success))) }) := by
  rw [rollbackImport, h]
  exact if_neg hrolled

end

/-- With a session that is shown every row it is the rollback of the import tables. -/
theorem rollbackImport_of_sees_all (hsees : ∀ b, self.sees b = true) (jobId : ℕ) (s : Tables) :
    self.rollbackImport jobId s = (s.transact (Integrations.rollbackImport self.now jobId)).map
      fun p => (.rolledBack p.1, p.2) := by
  have hshown : ∀ b, shown self.companyId self.sees b = true := by
    intro b
    rw [shown, hsees, Bool.or_true]
  have hload : self.loadJob s jobId = s.db.jobs.find? (·.id = jobId) := by
    simp only [loadJob, lookup, hshown, Bool.and_true]
    rfl
  have hcount : (self.logsOf jobId s).countP (·.result = .success) =
      s.db.logs.countP (·.isSuccessOf jobId) := by
    rw [logsOf, List.countP_filter]
    refine List.countP_congr fun l _ => ?_
    simp [hshown, ImportLog.isSuccessOf, and_comm]
  have hselect : (Session.execute fun db : Db => .ok (db.jobs.find? (·.id = jobId), db)).run
      (.begin s.db) = (.ok (s.db.jobs.find? (·.id = jobId)), .begin s.db) := rfl
  rw [rollbackImport, hload, Tables.transact, Integrations.rollbackImport,
    Session.run_bind_ok hselect]
  cases s.db.jobs.find? (·.id = jobId) with
  | none => rfl
  | some job =>
    by_cases hrolled : job.rolledBackAt.isSome = true
    · simp only [hrolled]
      rfl
    · simp only [hrolled, hcount, rolledBackLogs, hshown]
      rfl

end ImportService

inductive Call
  | createConnection (provider tenant : String) (accessToken refreshToken : Option String)
    (metadataJson : Option (List (String × Json)))
  | getConnection (provider tenant : String)
  | getConnections
  | updateConnectionStatus (connectionId : ℕ) (status : ConnectionStatus)
  | updateConnectionTokens (connectionId : ℕ) (accessToken refreshToken : Option String)
    (expiresAt : Option ℚ)
  | createImportJob (provider : String) (importType : ImportType) (connectionId : Option ℕ)
  | getImportJob (jobId : ℕ)
  | getImportJobs (limit : ℤ)
  | updateImportProgress (jobId : ℕ) (p : Progress)
  | logImportResult (importJobId : ℕ) (externalSystem externalId : String)
    (entityType : ImportType) (result : ImportResult) (errorMessage : Option String)
    (jsonable : Bool)
  | alreadyImported (externalSystem externalId : String) (entityType : ImportType)
  | getMappingRules (provider : String) (entityType : Option ImportType)
  | saveMappingRule (provider sourceField destinationField : String) (entityType : ImportType)
    (transformationRule : Option String)
  | deleteMappingRule (ruleId : ℕ)
  | scanProvider (provider : String) (connectionId : Option ℕ)
  | runImport (provider : String) (importTypes : List ImportType) (connectionId : Option ℕ)
    (dryRun : Bool) (batchSize : ℕ+)
  | dryRunScan (provider : String) (importTypes : List ImportType) (connectionId : Option ℕ)
  | checkConnectionHealth (connectionId : ℕ)
  | getImportReport (jobId : ℕ)
  | rollbackImport (jobId : ℕ)
  | getMigrationMetrics

def Call.perform (self : ImportService) : Call → Tables → Except String (Answer × Tables)
  | .createConnection provider tenant accessToken refreshToken metadataJson =>
    self.createConnection provider tenant accessToken refreshToken metadataJson
  | .getConnection provider tenant => self.getConnection provider tenant
  | .getConnections => self.getConnections
  | .updateConnectionStatus connectionId status => self.updateConnectionStatus connectionId status
  | .updateConnectionTokens connectionId accessToken refreshToken expiresAt =>
    self.updateConnectionTokens connectionId accessToken refreshToken expiresAt
  | .createImportJob provider importType connectionId =>
    self.createImportJob provider importType connectionId
  | .getImportJob jobId => self.getImportJob jobId
  | .getImportJobs limit => self.getImportJobs limit
  | .updateImportProgress jobId p => self.updateImportProgress jobId p
  | .logImportResult importJobId externalSystem externalId entityType result errorMessage
      jsonable =>
    self.logImportResult importJobId externalSystem externalId entityType result errorMessage
      jsonable
  | .alreadyImported externalSystem externalId entityType =>
    self.alreadyImported externalSystem externalId entityType
  | .getMappingRules provider entityType => self.getMappingRules provider entityType
  | .saveMappingRule provider sourceField destinationField entityType transformationRule =>
    self.saveMappingRule provider sourceField destinationField entityType transformationRule
  | .deleteMappingRule ruleId => self.deleteMappingRule ruleId
  | .scanProvider provider connectionId => self.scanProvider provider connectionId
  | .runImport provider importTypes connectionId dryRun batchSize =>
    self.runImport provider importTypes connectionId dryRun batchSize
  | .dryRunScan provider importTypes connectionId =>
    self.dryRunScan provider importTypes connectionId
  | .checkConnectionHealth connectionId => self.checkConnectionHealth connectionId
  | .getImportReport jobId => self.getImportReport jobId
  | .rollbackImport jobId => self.rollbackImport jobId
  | .getMigrationMetrics => self.getMigrationMetrics

attribute [grind =] Call.perform

end WorkTicket.Integrations
