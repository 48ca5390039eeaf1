import WorkTicket.Integrations.PairedRuns

/-! What a call of the service for one company can tell, and change, of the rows of the others. -/

namespace WorkTicket.Integrations

open Transaction TenantTables

def Tables.own (A : ℕ) (s : Tables) : Tables where
  connections := TenantTables.own (·.companyId) A s.connections
  nextConnectionId := s.nextConnectionId
  db := s.db.own A
  rules := TenantTables.own (·.companyId) A s.rules
  nextRuleId := s.nextRuleId

def Tables.others (A : ℕ) (s : Tables) :
    List IntegrationConnection × (List ImportJob × List ImportLog) × List MappingRule :=
  (TenantTables.others (·.companyId) A s.connections, s.db.others A,
    TenantTables.others (·.companyId) A s.rules)

abbrev Method := Tables → Except String (Answer × Tables)

def answerOf (m : Method) (s : Tables) : Except String Answer := (m s).map Prod.fst

/-- An exception rolls the transaction back. -/
def after (m : Method) (s : Tables) : Tables :=
  match m s with
  | .ok (_, s') => s'
  | .error _ => s

/-- Contents with the same rows of the company; the new keys are the same too. -/
structure SameFor (A : ℕ) (s s' : Tables) : Prop where
  valid : s.Valid
  valid' : s'.Valid
  own : s.own A = s'.own A

/-- The method gives the same answer on both contents, and leaves the rows of the others of the
second alone. -/
structure Agree (A : ℕ) (m : Method) (s s' : Tables) : Prop where
  answer : answerOf m s' = answerOf m s
  others : (after m s').others A = s'.others A

/-- Whatever rows other companies have, and whatever the connectors do: the call answers as it does
on `s`, and writes no row of theirs. -/
def Isolated (A : ℕ) (sees : ℕ → Bool) (call : Call) (s : TablesStore) : Prop :=
  ∀ connectors now (s' : TablesStore), s.1.own A = s'.1.own A →
    Agree A (call.perform ⟨A, sees, connectors, now⟩) s.1 s'.1

/-- No connector is made for the provider. -/
def Unavailable (provider : String) : Prop :=
  ∀ cls, getConnector provider = .ok cls → cls.status = .stub

def OwnJob (A : ℕ) (s : Tables) (id : ℕ) (p : ImportJob → Prop) : Prop :=
  ∃ j ∈ s.db.jobs, j.id = id ∧ j.companyId = A ∧ p j

/-- The ids of the call are the company's own as far as it matters. -/
def Call.OwnIds (A : ℕ) (sees : ℕ → Bool) (s : Tables) : Call → Prop
  | .updateConnectionStatus id _ | .updateConnectionTokens id _ _ _ =>
    Safe connectionColumns A sees s.connections id s.nextConnectionId
  | .createImportJob _ _ connectionId =>
    ∀ id ∈ connectionId, Known connectionColumns A s.connections id s.nextConnectionId
  | .getImportJob id | .updateImportProgress id _ =>
    Safe jobColumns A sees s.db.jobs id s.db.nextJobId
  | .logImportResult id externalSystem externalId entityType _ _ jsonable =>
    jsonable = true → fitsVarchar 50 externalSystem = true → fitsExternalId externalId = true →
      ⟨A, externalSystem, externalId, entityType⟩ ∉ s.db.logs.map ImportLog.key →
      Known jobColumns A s.db.jobs id s.db.nextJobId ∨
        ∃ l ∈ s.db.logs, l.companyId = A ∧ l.importJobId = some id
  | .deleteMappingRule id => Safe ruleColumns A sees s.rules id s.nextRuleId
  | .scanProvider provider connectionId | .dryRunScan provider _ connectionId =>
    Unavailable provider ∨
      ∀ id ∈ connectionId, Safe connectionColumns A sees s.connections id s.nextConnectionId
  | .runImport provider importTypes connectionId _ _ =>
    Unavailable provider ∨
      ∀ id ∈ connectionId, Known connectionColumns A s.connections id s.nextConnectionId ∨
        importTypes = [] ∧ Hidden A sees
  | .getImportReport id => Hidden A sees ∨ s.db.nextJobId ≤ id
  | .rollbackImport id => Hidden A sees ∨ s.db.nextJobId ≤ id ∨
      OwnJob A s id fun j => j.rolledBackAt.isSome
  | _ => True

section
variable {A : ℕ} {m : Method} {s s' : Tables}

theorem SameFor.paired (h : SameFor A s s') :
    Paired A (s.db.others A) (s'.db.others A) s.db s'.db :=
  ⟨h.valid.db, h.valid'.db, congrArg Tables.db h.own, rfl, rfl⟩

theorem SameFor.connections_own (h : SameFor A s s') :
    TenantTables.own (·.companyId) A s.connections =
      TenantTables.own (·.companyId) A s'.connections :=
  congrArg Tables.connections h.own

theorem SameFor.nextConnectionId_eq (h : SameFor A s s') :
    s.nextConnectionId = s'.nextConnectionId :=
  (congrArg Tables.nextConnectionId h.own : (s.own A).nextConnectionId = (s'.own A).nextConnectionId)

theorem SameFor.rules_own (h : SameFor A s s') :
    TenantTables.own (·.companyId) A s.rules = TenantTables.own (·.companyId) A s'.rules :=
  congrArg Tables.rules h.own

theorem SameFor.nextRuleId_eq (h : SameFor A s s') : s.nextRuleId = s'.nextRuleId :=
  (congrArg Tables.nextRuleId h.own : (s.own A).nextRuleId = (s'.own A).nextRuleId)

theorem SameFor.connections_keyed' (h : SameFor A s s') :
    Keyed connectionColumns s'.connections s.nextConnectionId :=
  h.nextConnectionId_eq ▸ h.valid'.connections

theorem SameFor.jobs_keyed' (h : SameFor A s s') :
    Keyed jobColumns s'.db.jobs s.db.nextJobId :=
  h.paired.nextJobId_eq ▸ h.valid'.db.keyed

theorem SameFor.rules_keyed' (h : SameFor A s s') : Keyed ruleColumns s'.rules s.nextRuleId :=
  h.nextRuleId_eq ▸ h.valid'.rules

theorem Tables.others_of_connections (s : Tables) {connections : List IntegrationConnection} {n : ℕ}
    (h : TenantTables.others (·.companyId) A connections =
      TenantTables.others (·.companyId) A s.connections) :
    Tables.others A { s with connections := connections, nextConnectionId := n } = s.others A := by
  rw [Tables.others, Tables.others, h]

theorem Tables.others_of_db (s : Tables) {db : Db} (h : db.others A = s.db.others A) :
    Tables.others A { s with db := db } = s.others A := by
  rw [Tables.others, Tables.others, h]

theorem Tables.others_of_rules (s : Tables) {rules : List MappingRule} {n : ℕ}
    (h : TenantTables.others (·.companyId) A rules = TenantTables.others (·.companyId) A s.rules) :
    Tables.others A { s with rules := rules, nextRuleId := n } = s.others A := by
  rw [Tables.others, Tables.others, h]

/-! ## How a method agrees -/

theorem Agree.error (e : String) : Agree A (fun _ => .error e) s s' := ⟨rfl, rfl⟩

theorem Agree.ok {a : Tables → Answer} {t : Tables → Tables} (ha : a s = a s')
    (hothers : (t s').others A = s'.others A) : Agree A (fun s => .ok (a s, t s)) s s' :=
  ⟨congrArg Except.ok ha.symm, hothers⟩

/-- A method that writes nothing. -/
theorem Agree.reads {a : Tables → Answer} (ha : a s = a s') :
    Agree A (fun s => .ok (a s, s)) s s' :=
  .ok ha rfl

theorem Agree.of_ok {a : Answer} {t t' : Tables} (hm : m s = .ok (a, t)) (hm' : m s' = .ok (a, t'))
    (hothers : t'.others A = s'.others A) : Agree A m s s' := by
  refine ⟨?_, ?_⟩
  · rw [answerOf, answerOf, hm, hm']
    rfl
  · rw [after, hm']
    exact hothers

variable {α : Type} {m' : Method}

theorem Agree.answers (x : Except String Answer) : Agree A (fun s => x.map (·, s)) s s' := by
  cases x <;> exact ⟨rfl, rfl⟩

/-- What a method does elsewhere does not matter. -/
theorem Agree.congr (h : Agree A m s s') (hm : m' s = m s) (hm' : m' s' = m s') :
    Agree A m' s s' := by
  refine ⟨?_, ?_⟩
  · rw [answerOf, answerOf, hm, hm']
    exact h.answer
  · rw [after, hm']
    exact h.others

theorem Agree.ite {b : Tables → Prop} [DecidablePred b] (hb : b s ↔ b s')
    (htrue : b s → Agree A m s s') (hfalse : ¬b s → Agree A m' s s') :
    Agree A (fun s => if b s then m s else m' s) s s' := by
  by_cases h : b s
  · exact (htrue h).congr (if_pos h) (if_pos (hb.mp h))
  · exact (hfalse h).congr (if_neg h) (if_neg fun h' => h (hb.mpr h'))

theorem Agree.bind {x : Tables → Except String α} {f : α → Method} (hx : x s = x s')
    (hf : ∀ a, x s = .ok a → Agree A (f a) s s') :
    Agree A (fun s => x s >>= fun a => f a s) s s' := by
  cases h : x s with
  | error e =>
    have h' : x s' = .error e := hx.symm.trans h
    exact (Agree.error e).congr (congrArg (· >>= fun a => f a s) h)
      (congrArg (· >>= fun a => f a s') h')
  | ok a =>
    have h' : x s' = .ok a := hx.symm.trans h
    exact (hf a h).congr (congrArg (· >>= fun a => f a s) h) (congrArg (· >>= fun a => f a s') h')

/-- A program on the import tables that two runs agree on. -/
theorem Agree.transact (h : SameFor A s s') {x : Session Db α} {f : α → Answer}
    (hx : AgreesOn A (s.db.others A) (s'.db.others A) x) :
    Agree A (fun s => do let (a, s) ← s.transact x; return (f a, s)) s s' := by
  obtain ⟨hsame, hafter⟩ := hx (.begin s.db) (.begin s'.db) ⟨rfl, h.paired, h.paired⟩
  cases hrun : x.run (.begin s.db) with
  | mk r t =>
    cases hrun' : x.run (.begin s'.db) with
    | mk r' t' =>
      rw [hrun, hrun'] at hsame hafter
      obtain rfl : r = r' := hsame
      cases r with
      | error e =>
        refine (Agree.error e).congr ?_ ?_
        · simp only [Tables.transact, hrun]
          rfl
        · simp only [Tables.transact, hrun']
          rfl
      | ok a =>
        have hcommit : Paired A (s.db.others A) (s'.db.others A) t.commit t'.commit :=
          Session.Alike.commit hafter
        refine ⟨?_, ?_⟩
        · simp only [answerOf, Tables.transact, hrun, hrun']
          rfl
        · simp only [after, Tables.transact, hrun']
          exact s'.others_of_db hcommit.others'

end

/-! ## The methods -/

section
variable {self : ImportService} {s s' : Tables}

theorem loadConnection_eq (h : SameFor self.companyId s s') {id : ℕ}
    (hsafe : Safe connectionColumns self.companyId self.sees s.connections id s.nextConnectionId) :
    self.loadConnection s id = self.loadConnection s' id :=
  hsafe.lookup_eq h.valid.connections h.connections_keyed' h.connections_own

theorem loadJob_eq (h : SameFor self.companyId s s') {id : ℕ}
    (hsafe : Safe jobColumns self.companyId self.sees s.db.jobs id s.db.nextJobId) :
    self.loadJob s id = self.loadJob s' id :=
  hsafe.lookup_eq h.valid.db.keyed h.jobs_keyed' h.paired.jobs_own

theorem createConnection_agree (h : SameFor self.companyId s s') (provider tenant : String)
    (accessToken refreshToken : Option String) (metadataJson : Option (List (String × Json))) :
    Agree self.companyId
      (self.createConnection provider tenant accessToken refreshToken metadataJson) s s' := by
  have hkey : (self.companyId, provider, tenant) ∈ s.connections.map IntegrationConnection.key ↔
      (self.companyId, provider, tenant) ∈ s'.connections.map IntegrationConnection.key :=
    mem_map_iff h.connections_own fun c hc => congrArg Prod.fst hc
  refine .ite Iff.rfl (fun _ => .error _) fun _ => .ite hkey (fun _ => .error _) fun _ => .ok ?_ ?_
  · rw [h.nextConnectionId_eq]
  · exact s'.others_of_connections (others_append IntegrationConnection.companyId rfl)

theorem getConnection_agree (h : SameFor self.companyId s s') (provider tenant : String) :
    Agree self.companyId (self.getConnection provider tenant) s s' := by
  refine .reads (congrArg Answer.connection (find_eq h.connections_own ?_))
  intro c hc
  simp only [Bool.and_eq_true, decide_eq_true_eq] at hc
  exact hc.1.1

theorem getConnections_agree (h : SameFor self.companyId s s') :
    Agree self.companyId self.getConnections s s' :=
  .reads (congrArg Answer.connections h.connections_own)

theorem updateConnection_agree (h : SameFor self.companyId s s') {id : ℕ}
    (hsafe : Safe connectionColumns self.companyId self.sees s.connections id s.nextConnectionId)
    {f : IntegrationConnection → IntegrationConnection} (hf : ∀ c, (f c).companyId = c.companyId) :
    Agree self.companyId (self.updateConnection id f) s s' := by
  have hsame := loadConnection_eq h hsafe
  cases hload : self.loadConnection s id with
  | none =>
    have hload' := hsame.symm.trans hload
    exact .of_ok (ImportService.updateConnection_none hload)
      (ImportService.updateConnection_none hload') rfl
  | some c =>
    have hload' := hsame.symm.trans hload
    have howns := (owns_iff h.connections_own).mp (hsafe.owns h.valid.connections hload)
    exact .of_ok (ImportService.updateConnection_some hload)
      (ImportService.updateConnection_some hload')
      (s'.others_of_connections (others_update h.valid'.connections howns hf))

theorem checkConnectionId_eq (h : SameFor self.companyId s s') {connectionId : Option ℕ}
    (hknown : ∀ id ∈ connectionId,
      Known connectionColumns self.companyId s.connections id s.nextConnectionId) :
    ImportService.checkConnectionId connectionId s =
      ImportService.checkConnectionId connectionId s' := by
  have hhas : connectionId.all s.hasConnection = connectionId.all s'.hasConnection := by
    cases connectionId with
    | none => rfl
    | some id =>
      exact (hknown id rfl).any_eq h.valid.connections h.connections_keyed' h.connections_own
  rw [ImportService.checkConnectionId, ImportService.checkConnectionId, hhas]

theorem createImportJob_agree (h : SameFor self.companyId s s') (provider : String)
    (importType : ImportType) {connectionId : Option ℕ}
    (hknown : ∀ id ∈ connectionId,
      Known connectionColumns self.companyId s.connections id s.nextConnectionId) :
    Agree self.companyId (self.createImportJob provider importType connectionId) s s' :=
  .bind (checkConnectionId_eq h hknown) fun _ _ =>
    .transact (f := fun id => .job (some (newJob self.companyId provider importType id))) h
      (createImportJob_agrees.conseq fun _ _ _ h => h.toPaired)

theorem getImportJob_agree (h : SameFor self.companyId s s') {id : ℕ}
    (hsafe : Safe jobColumns self.companyId self.sees s.db.jobs id s.db.nextJobId) :
    Agree self.companyId (self.getImportJob id) s s' :=
  .reads (congrArg Answer.job (loadJob_eq h hsafe))

theorem getImportJobs_agree (h : SameFor self.companyId s s') (limit : ℤ) :
    Agree self.companyId (self.getImportJobs limit) s s' :=
  .ite Iff.rfl (fun _ => .error _) fun _ =>
    .reads (congrArg (fun jobs => Answer.jobs (jobs.reverse.take limit.toNat)) h.paired.jobs_own)

theorem updateImportProgress_agree (h : SameFor self.companyId s s') {id : ℕ}
    (hsafe : Safe jobColumns self.companyId self.sees s.db.jobs id s.db.nextJobId) (p : Progress) :
    Agree self.companyId (self.updateImportProgress id p) s s' := by
  have hsame := loadJob_eq h hsafe
  cases hload : self.loadJob s id with
  | none =>
    have hload' := hsame.symm.trans hload
    exact .of_ok (ImportService.updateImportProgress_none hload)
      (ImportService.updateImportProgress_none hload') rfl
  | some j =>
    have hload' := hsame.symm.trans hload
    have howns := (owns_iff h.paired.jobs_own).mp (hsafe.owns h.valid.db.keyed hload)
    exact .of_ok (ImportService.updateImportProgress_some hload)
      (ImportService.updateImportProgress_some hload')
      (s'.others_of_db (others_updateJob h.valid'.db howns fun _ => rfl))

theorem logImportResult_agree (h : SameFor self.companyId s s') {id : ℕ}
    {externalSystem externalId : String} {entityType : ImportType} (result : ImportResult)
    (errorMessage : Option String) {jsonable : Bool}
    (hids : (Call.logImportResult id externalSystem externalId entityType result errorMessage
      jsonable).OwnIds self.companyId self.sees s) :
    Agree self.companyId (self.logImportResult id externalSystem externalId entityType result
      errorMessage jsonable) s s' := by
  by_cases hlong : (jsonable && !fitsVarchar 50 externalSystem) = true
  · exact (Agree.error _).congr (if_pos hlong) (if_pos hlong)
  have hhas : jsonable = true → fitsExternalId externalId = true →
      ⟨self.companyId, externalSystem, externalId, entityType⟩ ∉ s.db.logs.map ImportLog.key →
      (some id).all s.db.hasJob = (some id).all s'.db.hasJob := by
    intro hjson hfits hkey
    have hsystem : fitsVarchar 50 externalSystem = true := by simpa [hjson] using hlong
    rcases hids hjson hsystem hfits hkey with hknown | ⟨l, hl, hcompany, hjob⟩
    · exact hknown.any_eq h.valid.db.keyed h.jobs_keyed' h.paired.jobs_own
    · -- a row of the company's log names the job, so the job is there, whosever it is
      have hl' : l ∈ s'.db.logs := by
        have hown := mem_own.mpr ⟨hl, hcompany⟩
        rw [h.paired.logs_own] at hown
        exact (mem_own.mp hown).1
      have hhas : ∀ d : Db, d.Valid → l ∈ d.logs → d.hasJob id = true := by
        intro d hvalid hmem
        obtain ⟨j, hj, hid⟩ := hvalid.logJobs l hmem id hjob
        exact List.any_eq_true.mpr ⟨j, hj, decide_eq_true hid⟩
      rw [Option.all_some, Option.all_some, hhas _ h.valid.db hl, hhas _ h.valid'.db hl']
  rcases insertLog_same
    ⟨self.companyId, some id, externalSystem, externalId, entityType, result, errorMessage⟩
    (key_mem_iff h.paired rfl) hhas with ⟨haccepts, haccepts'⟩ | ⟨e, he, he'⟩
  · have hothers : ∀ log : ImportLog, log.companyId = self.companyId →
        (s'.db.addLog log).others self.companyId = s'.db.others self.companyId :=
      fun log hcompany => Prod.ext rfl (others_append ImportLog.companyId hcompany)
    exact .of_ok (ImportService.logImportResult_ok hlong (insertLog_of_accepts haccepts))
      (ImportService.logImportResult_ok hlong (insertLog_of_accepts haccepts'))
      (s'.others_of_db (hothers _ rfl))
  · exact (Agree.error e).congr (ImportService.logImportResult_error hlong he)
      (ImportService.logImportResult_error hlong he')

theorem connectorOf_eq (h : SameFor self.companyId s s') {connectionId : Option ℕ}
    (hsafe : ∀ id ∈ connectionId,
      Safe connectionColumns self.companyId self.sees s.connections id s.nextConnectionId)
    (provider : String) :
    self.connectorOf provider connectionId s = self.connectorOf provider connectionId s' := by
  have hload : connectionId.bind (self.loadConnection s) =
      connectionId.bind (self.loadConnection s') := by
    cases connectionId with
    | none => rfl
    | some id => exact loadConnection_eq h (hsafe id rfl)
  rw [ImportService.connectorOf, ImportService.connectorOf, hload]

theorem scanWith_agree (connector : Connector) (provider displayName : String) :
    Agree self.companyId (ImportService.scanWith connector provider displayName) s s' :=
  .bind rfl fun _ _ => .bind rfl fun _ _ => .reads rfl

theorem scanProvider_agree (h : SameFor self.companyId s s') {provider : String}
    {connectionId : Option ℕ}
    (hids : (Call.scanProvider provider connectionId).OwnIds self.companyId self.sees s) :
    Agree self.companyId (self.scanProvider provider connectionId) s s' := by
  refine .bind rfl fun cls hcls => .ite Iff.rfl (fun _ => .reads rfl) fun hstub => ?_
  have hsafe := hids.resolve_left fun hnone => hstub (hnone cls hcls)
  have hsame := connectorOf_eq h hsafe provider
  exact (scanWith_agree (self.connectorOf provider connectionId s) provider cls.displayName).congr
    rfl (by rw [hsame])

theorem importWith_agree (h : SameFor self.companyId s s') (connector : Connector)
    (provider : String) {importTypes : List ImportType} {connectionId : Option ℕ}
    (hknown : importTypes = [] ∨ ∀ id ∈ connectionId,
      Known connectionColumns self.companyId s.connections id s.nextConnectionId)
    (dryRun : Bool) (batchSize : ℕ+) :
    Agree self.companyId (self.importWith connector provider importTypes connectionId dryRun
      batchSize) s s' := by
  have hcheck : ∀ id ∈ (if importTypes = [] then none else connectionId),
      Known connectionColumns self.companyId s.connections id s.nextConnectionId := by
    intro id hid
    split at hid
    · cases hid
    · rename_i hne
      exact hknown.resolve_left hne id hid
  exact .bind rfl fun _ _ => .bind (checkConnectionId_eq h hcheck) fun _ _ =>
    .transact (f := fun jobs => .jobs jobs.reduceOption) h
      (.mapM (fun i => importJob_agrees dryRun batchSize i) _)

theorem runImport_agree (h : SameFor self.companyId s s') {provider : String}
    {importTypes : List ImportType} {connectionId : Option ℕ} (dryRun : Bool) (batchSize : ℕ+)
    (hids : (Call.runImport provider importTypes connectionId dryRun batchSize).OwnIds
      self.companyId self.sees s) :
    Agree self.companyId (self.runImport provider importTypes connectionId dryRun batchSize) s s' := by
  refine .bind rfl fun cls hcls => .ite Iff.rfl (fun _ => .error _) fun hstub => ?_
  have hknown := hids.resolve_left fun hnone => hstub (hnone cls hcls)
  have hsame := connectorOf_eq h
    (fun id hid => (hknown id hid).elim .inr fun hnone => .inl hnone.2) provider
  refine (importWith_agree h (self.connectorOf provider connectionId s) provider ?_ dryRun
    batchSize).congr rfl (by rw [hsame])
  by_cases htypes : importTypes = []
  · exact .inl htypes
  · exact .inr fun id hid => (hknown id hid).resolve_right fun hnone => htypes hnone.1

theorem dryRunWith_eq (h : SameFor self.companyId s s') (connector : Connector) (provider : String)
    (importTypes : List ImportType) :
    self.dryRunWith connector provider importTypes s =
      self.dryRunWith connector provider importTypes s' := by
  have hentry : ∀ importType fetch, self.dryRunEntry provider importType s.db.logs fetch =
      self.dryRunEntry provider importType s'.db.logs fetch := by
    intro importType fetch
    cases fetch with
    | noFetcher => rfl
    | raises e => rfl
    | records rs =>
      have hany : ∀ r : Record, _ := fun r => h.paired.any_key_eq
        (k := ⟨self.companyId, provider, r.dryRunExternalId, importType⟩) rfl
      simp only [ImportService.dryRunEntry, hany]
  simp only [ImportService.dryRunWith, hentry]

theorem dryRunScan_agree (h : SameFor self.companyId s s') {provider : String}
    {importTypes : List ImportType} {connectionId : Option ℕ}
    (hids : (Call.dryRunScan provider importTypes connectionId).OwnIds self.companyId self.sees s) :
    Agree self.companyId (self.dryRunScan provider importTypes connectionId) s s' := by
  refine .bind rfl fun cls hcls => .ite Iff.rfl (fun _ => .reads rfl) fun hstub => .reads ?_
  have hsafe := hids.resolve_left fun hnone => hstub (hnone cls hcls)
  rw [connectorOf_eq h hsafe provider]
  exact dryRunWith_eq h _ provider importTypes

theorem checkConnectionHealth_agree (h : SameFor self.companyId s s') (id : ℕ) :
    Agree self.companyId (self.checkConnectionHealth id) s s' := by
  have hsame : (self.loadConnection s id).filter (fun c => c.companyId = self.companyId) =
      (self.loadConnection s' id).filter fun c => c.companyId = self.companyId :=
    lookup_filter_eq h.valid.connections h.connections_keyed' h.connections_own
  cases hload : (self.loadConnection s id).filter fun c => c.companyId = self.companyId with
  | none =>
    exact (Agree.error _).congr (ImportService.checkConnectionHealth_none hload)
      (ImportService.checkConnectionHealth_none (hsame.symm.trans hload))
  | some c =>
    exact (Agree.answers (self.healthOf c)).congr (ImportService.checkConnectionHealth_some hload)
      (ImportService.checkConnectionHealth_some (hsame.symm.trans hload))

theorem logsOf_eq (h : SameFor self.companyId s s') (hhidden : Hidden self.companyId self.sees)
    (id : ℕ) : self.logsOf id s = self.logsOf id s' := by
  refine filter_eq h.paired.logs_own fun l hl => ?_
  rw [Bool.and_eq_true, hhidden.shown_eq, decide_eq_true_eq] at hl
  exact of_decide_eq_true hl.2

theorem getImportReport_agree (h : SameFor self.companyId s s') {id : ℕ}
    (hids : (Call.getImportReport id).OwnIds self.companyId self.sees s) :
    Agree self.companyId (self.getImportReport id) s s' := by
  have hsame := loadJob_eq h (hids.imp_right .inl)
  cases hload : self.loadJob s id with
  | none =>
    have hload' := hsame.symm.trans hload
    exact (Agree.error _).congr (ImportService.getImportReport_none hload)
      (ImportService.getImportReport_none hload')
  | some j =>
    have hload' := hsame.symm.trans hload
    have hhidden : Hidden self.companyId self.sees := by
      refine hids.resolve_right fun hunissued => ?_
      obtain ⟨hj, hid, -⟩ := lookup_mem hload
      exact absurd (h.valid.db.keyed.issued j hj) (by rw [hid]; omega)
    refine .of_ok (ImportService.getImportReport_some hload) ?_ rfl
    rw [ImportService.getImportReport_some hload', logsOf_eq h hhidden]

/-- A rollback of the company's job that is shown its rows only leaves the others' alone. -/
theorem others_rolledBack (hhidden : Hidden self.companyId self.sees) (hvalid : s.db.Valid) {id : ℕ}
    (howns : Owns jobColumns self.companyId s.db.jobs id) (f : ImportJob → ImportJob)
    (hf : ∀ j, (f j).companyId = j.companyId) :
    (Db.updateJob { s.db with logs := self.rolledBackLogs id s.db.logs } id f).others
      self.companyId = s.db.others self.companyId := by
  refine Prod.ext (others_update hvalid.keyed howns hf) ?_
  have hcompany : ∀ l : ImportLog, (if shown self.companyId self.sees l.companyId then l.rollBack id
      else l).companyId = l.companyId := by
    intro l
    unfold ImportLog.rollBack
    split_ifs <;> rfl
  have hstays : ∀ l ∈ TenantTables.others ImportLog.companyId self.companyId s.db.logs,
      (if shown self.companyId self.sees l.companyId then l.rollBack id else l) = l := by
    intro l hl
    have hother : l.companyId ≠ self.companyId := by simpa using (List.mem_filter.mp hl).2
    rw [hhidden.shown_eq, if_neg (by simpa using hother)]
  have hmapped : TenantTables.others ImportLog.companyId self.companyId
      (self.rolledBackLogs id s.db.logs) =
      (TenantTables.others ImportLog.companyId self.companyId s.db.logs).map fun l =>
        if shown self.companyId self.sees l.companyId then l.rollBack id else l := by
    rw [TenantTables.others, ImportService.rolledBackLogs, TenantTables.others, List.filter_map]
    refine congrArg _ (List.filter_congr fun l _ => ?_)
    rw [Function.comp_apply, hcompany]
  exact hmapped.trans ((List.map_congr_left hstays).trans (List.map_id _))

theorem rollbackImport_agree (h : SameFor self.companyId s s') {id : ℕ}
    (hids : (Call.rollbackImport id).OwnIds self.companyId self.sees s) :
    Agree self.companyId (self.rollbackImport id) s s' := by
  have hsafe : Safe jobColumns self.companyId self.sees s.db.jobs id s.db.nextJobId := by
    refine hids.imp_right fun hknown => hknown.imp_right ?_
    rintro ⟨j, hj, hid, hcompany, -⟩
    exact ⟨j, hj, hid, hcompany⟩
  have hsame := loadJob_eq h hsafe
  cases hload : self.loadJob s id with
  | none =>
    have hload' := hsame.symm.trans hload
    exact (Agree.error _).congr (ImportService.rollbackImport_none hload)
      (ImportService.rollbackImport_none hload')
  | some j =>
    have hload' := hsame.symm.trans hload
    obtain ⟨hj, hid, -⟩ := lookup_mem hload
    by_cases hrolled : j.rolledBackAt.isSome = true
    · exact (Agree.error _).congr (ImportService.rollbackImport_again hload hrolled)
        (ImportService.rollbackImport_again hload' hrolled)
    · have hhidden : Hidden self.companyId self.sees := by
        refine hids.resolve_right ?_
        rintro (hunissued | ⟨j', hj', hid', -, hrolled'⟩)
        · exact absurd (h.valid.db.keyed.issued j hj) (by rw [hid]; omega)
        · rw [h.valid.db.keyed.eq_of_id_eq hj hj' (hid.trans hid'.symm)] at hrolled
          exact hrolled hrolled'
      have howns := (owns_iff h.paired.jobs_own).mp (hsafe.owns h.valid.db.keyed hload)
      refine .of_ok (ImportService.rollbackImport_some hload hrolled) ?_
        (s'.others_of_db (others_rolledBack hhidden h.valid'.db howns (·.rollBack self.now
          ((self.logsOf id s).countP (·.result = .success))) fun _ => rfl))
      rw [ImportService.rollbackImport_some hload' hrolled, logsOf_eq h hhidden]

theorem getMigrationMetrics_agree (h : SameFor self.companyId s s') :
    Agree self.companyId self.getMigrationMetrics s s' :=
  .reads (congrArg (fun jobs => Answer.metrics (ImportService.migrationMetrics jobs))
    h.paired.jobs_own)

theorem alreadyImported_agree (h : SameFor self.companyId s s')
    (externalSystem externalId : String) (entityType : ImportType) :
    Agree self.companyId (self.alreadyImported externalSystem externalId entityType) s s' :=
  .reads (congrArg Answer.imported (h.paired.any_key_eq rfl))

theorem getMappingRules_agree (h : SameFor self.companyId s s') (provider : String)
    (entityType : Option ImportType) :
    Agree self.companyId (self.getMappingRules provider entityType) s s' := by
  refine .reads (congrArg Answer.rules (filter_eq h.rules_own ?_))
  intro r hr
  simp only [Bool.and_eq_true, decide_eq_true_eq] at hr
  exact hr.1.1

theorem saveMappingRule_agree (h : SameFor self.companyId s s')
    (provider sourceField destinationField : String) (entityType : ImportType)
    (transformationRule : Option String) :
    Agree self.companyId (self.saveMappingRule provider sourceField destinationField entityType
      transformationRule) s s' := by
  have hkey : (self.companyId, provider, sourceField, destinationField, entityType) ∈
        s.rules.map MappingRule.key ↔
      (self.companyId, provider, sourceField, destinationField, entityType) ∈
        s'.rules.map MappingRule.key :=
    mem_map_iff h.rules_own fun r hr => congrArg Prod.fst hr
  refine .ite Iff.rfl (fun _ => .error _) fun _ => .ite Iff.rfl (fun _ => .error _) fun _ =>
    .ite hkey (fun _ => .error _) fun _ => .ok ?_ ?_
  · rw [h.nextRuleId_eq]
  · exact s'.others_of_rules (others_append MappingRule.companyId rfl)

theorem deleteMappingRule_agree (h : SameFor self.companyId s s') {id : ℕ}
    (hsafe : Safe ruleColumns self.companyId self.sees s.rules id s.nextRuleId) :
    Agree self.companyId (self.deleteMappingRule id) s s' := by
  have hsame := hsafe.lookup_eq h.valid.rules h.rules_keyed' h.rules_own
  cases hload : lookup ruleColumns self.companyId self.sees s.rules id with
  | none =>
    have hload' := hsame.symm.trans hload
    exact .of_ok (ImportService.deleteMappingRule_none hload)
      (ImportService.deleteMappingRule_none hload') rfl
  | some r =>
    have hload' := hsame.symm.trans hload
    have howns := (owns_iff h.rules_own).mp (hsafe.owns h.valid.rules hload)
    exact .of_ok (ImportService.deleteMappingRule_some hload)
      (ImportService.deleteMappingRule_some hload')
      (s'.others_of_rules (others_erase h.valid'.rules howns))

theorem perform_agree (h : SameFor self.companyId s s') (call : Call)
    (hids : call.OwnIds self.companyId self.sees s) :
    Agree self.companyId (call.perform self) s s' := by
  cases call with
  | createConnection provider tenant accessToken refreshToken metadataJson =>
    exact createConnection_agree h provider tenant accessToken refreshToken metadataJson
  | getConnection provider tenant => exact getConnection_agree h provider tenant
  | getConnections => exact getConnections_agree h
  | updateConnectionStatus id status => exact updateConnection_agree h hids fun _ => rfl
  | updateConnectionTokens id accessToken refreshToken expiresAt =>
    exact updateConnection_agree h hids fun _ => rfl
  | createImportJob provider importType connectionId =>
    exact createImportJob_agree h provider importType hids
  | getImportJob id => exact getImportJob_agree h hids
  | getImportJobs limit => exact getImportJobs_agree h limit
  | updateImportProgress id p => exact updateImportProgress_agree h hids p
  | logImportResult id externalSystem externalId entityType result errorMessage jsonable =>
    exact logImportResult_agree h result errorMessage hids
  | alreadyImported externalSystem externalId entityType =>
    exact alreadyImported_agree h externalSystem externalId entityType
  | getMappingRules provider entityType => exact getMappingRules_agree h provider entityType
  | saveMappingRule provider sourceField destinationField entityType transformationRule =>
    exact saveMappingRule_agree h provider sourceField destinationField entityType
      transformationRule
  | deleteMappingRule id => exact deleteMappingRule_agree h hids
  | scanProvider provider connectionId => exact scanProvider_agree h hids
  | runImport provider importTypes connectionId dryRun batchSize =>
    exact runImport_agree h dryRun batchSize hids
  | dryRunScan provider importTypes connectionId => exact dryRunScan_agree h hids
  | checkConnectionHealth id => exact checkConnectionHealth_agree h id
  | getImportReport id => exact getImportReport_agree h hids
  | rollbackImport id => exact rollbackImport_agree h hids
  | getMigrationMetrics => exact getMigrationMetrics_agree h

end

end WorkTicket.Integrations
