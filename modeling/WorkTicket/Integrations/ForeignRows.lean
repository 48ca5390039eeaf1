import WorkTicket.Integrations.TenantIsolation

/-! Rows of another company under the id that a call names, and what the call then tells of them
or does to them. -/

namespace WorkTicket.Integrations

open Transaction TenantTables

section
variable (id b : ℕ)

def foreignConnection : IntegrationConnection :=
  ⟨id, b, "", "", .pending, none, none, none, none, [], 1⟩

def foreignJob (status : ImportStatus) (totalRecords : ℕ) : ImportJob :=
  ⟨id, b, "", .customers, status, 0, totalRecords, 0, 0, 0, none, none⟩

def foreignRule : MappingRule := ⟨id, b, "", "", "", none, .customers⟩

def foreignLog : ImportLog := ⟨b, some id, "", "", .customers, .success, none⟩

end

section
variable {A b id : ℕ} {s : Tables}

/-! ## Contents that differ in rows of others -/

theorem valid_ownConnections (h : s.Valid) :
    Tables.Valid { s with connections := TenantTables.own (·.companyId) A s.connections } :=
  ⟨h.connections.own, nodup_map_own h.connectionKeys, h.db, h.rules, h.ruleKeys⟩

theorem own_ownConnections :
    s.own A = Tables.own A { s with
      connections := TenantTables.own (·.companyId) A s.connections } := by
  simp only [Tables.own, own_own]

theorem valid_withConnection (h : s.Valid) (hb : b ≠ A) (hid : id < s.nextConnectionId)
    (hnot : ¬Owns connectionColumns A s.connections id) :
    Tables.Valid { s with
      connections := foreignConnection id b :: TenantTables.own (·.companyId) A s.connections } :=
  ⟨h.connections.cons_own hnot hid,
    nodup_map_cons_own h.connectionKeys (fun _ hkey => congrArg Prod.fst hkey) hb, h.db, h.rules,
    h.ruleKeys⟩

theorem own_withConnection (hb : b ≠ A) :
    s.own A = Tables.own A { s with
      connections := foreignConnection id b :: TenantTables.own (·.companyId) A s.connections } := by
  have hcons : TenantTables.own (·.companyId) A
      (foreignConnection id b :: TenantTables.own (·.companyId) A s.connections) = _ := own_cons hb
  simp only [Tables.own, hcons, own_own]

theorem valid_withRule (h : s.Valid) (hb : b ≠ A) (hid : id < s.nextRuleId)
    (hnot : ¬Owns ruleColumns A s.rules id) :
    Tables.Valid { s with
      rules := foreignRule id b :: TenantTables.own (·.companyId) A s.rules } :=
  ⟨h.connections, h.connectionKeys, h.db, h.rules.cons_own hnot hid,
    nodup_map_cons_own h.ruleKeys (fun _ hkey => congrArg Prod.fst hkey) hb⟩

theorem own_withRule (hb : b ≠ A) :
    s.own A = Tables.own A { s with
      rules := foreignRule id b :: TenantTables.own (·.companyId) A s.rules } := by
  have hcons : TenantTables.own (·.companyId) A
      (foreignRule id b :: TenantTables.own (·.companyId) A s.rules) = _ := own_cons hb
  simp only [Tables.own, hcons, own_own]

theorem valid_withDb (h : s.Valid) {db : Db} (hdb : db.Valid) : Tables.Valid { s with db := db } :=
  ⟨h.connections, h.connectionKeys, hdb, h.rules, h.ruleKeys⟩

theorem own_withDb {db : Db} (hdb : s.db.own A = db.own A) :
    s.own A = Tables.own A { s with db := db } := by
  simp only [Tables.own, hdb]

/-! ## The import tables -/

variable {db : Db}

theorem valid_withJob (h : db.Valid) (hid : id < db.nextJobId) (b : ℕ) (status : ImportStatus)
    (totalRecords : ℕ) :
    Db.Valid { db with jobs := put jobColumns db.jobs (foreignJob id b status totalRecords) } := by
  have hkeyed : Keyed jobColumns (put jobColumns db.jobs (foreignJob id b status totalRecords))
      db.nextJobId := h.keyed.put hid
  refine ⟨hkeyed.issued, hkeyed.nodup, ?_, h.unique⟩
  intro l hl jobId hjob
  obtain ⟨j, hj, hjid⟩ := h.logJobs l hl jobId hjob
  by_cases hsame : j.id = id
  · exact ⟨_, List.mem_cons_self, hsame.symm.trans hjid⟩
  · refine ⟨j, List.mem_cons_of_mem _ (List.mem_filter.mpr ⟨hj, ?_⟩), hjid⟩
    exact decide_eq_true hsame

theorem own_withJob (hb : b ≠ A) (hnot : ¬Owns jobColumns A db.jobs id) {status : ImportStatus}
    {totalRecords : ℕ} :
    db.own A =
      Db.own A { db with jobs := put jobColumns db.jobs (foreignJob id b status totalRecords) } := by
  have hput : TenantTables.own (·.companyId) A
      (put jobColumns db.jobs (foreignJob id b status totalRecords)) =
      TenantTables.own (·.companyId) A db.jobs := own_put (c := jobColumns) hb hnot
  simp only [Db.own, hput]

theorem valid_withLogs (h : db.Valid) :
    Db.Valid { db with logs := TenantTables.own (·.companyId) A db.logs } :=
  ⟨h.jobIds, h.jobsNodup, fun l hl => h.logJobs l (List.mem_of_mem_filter hl),
    nodup_map_own h.unique⟩

theorem own_withLogs :
    db.own A = Db.own A { db with logs := TenantTables.own (·.companyId) A db.logs } := by
  simp only [Db.own, own_own]

theorem valid_withLog (h : db.Valid) (hb : b ≠ A) (hjob : ∃ j ∈ db.jobs, j.id = id) :
    Db.Valid { db with
      logs := foreignLog id b :: TenantTables.own (·.companyId) A db.logs } := by
  refine ⟨h.jobIds, h.jobsNodup, ?_,
    nodup_map_cons_own h.unique (fun _ hkey => congrArg LogKey.companyId hkey) hb⟩
  intro l hl jobId hid
  rcases List.mem_cons.mp hl with rfl | hl
  · cases hid
    exact hjob
  · exact h.logJobs l (List.mem_of_mem_filter hl) jobId hid

theorem own_withLog (hb : b ≠ A) :
    db.own A = Db.own A { db with
      logs := foreignLog id b :: TenantTables.own (·.companyId) A db.logs } := by
  have hcons : TenantTables.own (·.companyId) A
      (foreignLog id b :: TenantTables.own (·.companyId) A db.logs) = _ := own_cons hb
  simp only [Db.own, hcons, own_own]

/-- A job that no row of the company's log names can be missing. -/
theorem valid_withoutJob (h : db.Valid)
    (hfree : ∀ l ∈ db.logs, l.companyId = A → l.importJobId ≠ some id) :
    Db.Valid { db with
      jobs := erase jobColumns db.jobs id
      logs := TenantTables.own (·.companyId) A db.logs } := by
  have hkeyed : Keyed jobColumns (erase jobColumns db.jobs id) db.nextJobId := h.keyed.erase
  refine ⟨hkeyed.issued, hkeyed.nodup, ?_, nodup_map_own h.unique⟩
  intro l hl jobId hjob
  obtain ⟨hmem, hcompany⟩ := mem_own.mp hl
  obtain ⟨j, hj, hid⟩ := h.logJobs l hmem jobId hjob
  refine ⟨j, List.mem_filter.mpr ⟨hj, decide_eq_true ?_⟩, hid⟩
  intro hsame
  exact hfree l hmem hcompany (hjob.trans (congrArg some (hid.symm.trans hsame)))

theorem own_withoutJob (hnot : ¬Owns jobColumns A db.jobs id) :
    db.own A = Db.own A { db with
      jobs := erase jobColumns db.jobs id
      logs := TenantTables.own (·.companyId) A db.logs } := by
  have herase : TenantTables.own (·.companyId) A (erase jobColumns db.jobs id) =
      TenantTables.own (·.companyId) A db.jobs := own_erase (c := jobColumns) hnot
  simp only [Db.own, herase, own_own]

end

/-! ## What the calls do with them -/

/-- Connectors of one behaviour, that authenticate with no connection only. -/
def connectionless (_ : String) (connection : Option IntegrationConnection) : Connector where
  authenticate := if connection.isSome then .error "authenticated with a connection" else .ok ()
  scan := .ok []
  fetch _ _ := .noFetcher
  checkHealth := .ok .unknown
  lastError := none

section
variable {A : ℕ} {sees : ℕ → Bool} {s : TablesStore} {id : ℕ}

/-- A call that is isolated gives one answer on all contents with these rows of the company. -/
theorem Isolated.answer_eq {call : Call} (h : Isolated A sees call s) {t t' : Tables}
    (ht : t.Valid) (hown : s.1.own A = t.own A) (ht' : t'.Valid) (hown' : s.1.own A = t'.own A)
    (now : ℚ) :
    answerOf (call.perform ⟨A, sees, connectionless, now⟩) t =
      answerOf (call.perform ⟨A, sees, connectionless, now⟩) t' :=
  (h connectionless now ⟨t, ht⟩ hown).answer.trans
    (h connectionless now ⟨t', ht'⟩ hown').answer.symm

theorem safe_of_updates {now : ℚ} {f : IntegrationConnection → IntegrationConnection}
    (h : ∀ t : Tables, t.Valid → s.1.own A = t.own A →
      (after (ImportService.updateConnection ⟨A, sees, connectionless, now⟩ id f) t).others A =
        t.others A)
    (hcompany : ∀ c, (f c).companyId = c.companyId)
    (hmoves : ∀ b, f (foreignConnection id b) ≠ foreignConnection id b) :
    Safe connectionColumns A sees s.1.connections id s.1.nextConnectionId := by
  by_contra hunsafe
  obtain ⟨⟨b, hb, hseen⟩, hid, hnot⟩ := of_not_safe hunsafe
  have hothers := h _ (valid_withConnection s.2 hb hid hnot) (own_withConnection hb)
  have hload : ImportService.loadConnection ⟨A, sees, connectionless, now⟩
      { s.1 with connections :=
        foreignConnection id b :: TenantTables.own (·.companyId) A s.1.connections } id =
      some (foreignConnection id b) := lookup_cons (c := connectionColumns) hseen
  rw [after, ImportService.updateConnection_some hload] at hothers
  refine hmoves b (eq_of_others_update (c := connectionColumns) (congrArg Prod.fst hothers) hb ?_)
  exact (hcompany _).trans_ne hb

theorem safe_of_updateConnectionStatus {status : ConnectionStatus}
    (h : Isolated A sees (.updateConnectionStatus id status) s) :
    Safe connectionColumns A sees s.1.connections id s.1.nextConnectionId :=
  safe_of_updates (fun t ht hown => (h connectionless 0 ⟨t, ht⟩ hown).others) (fun _ => rfl)
    fun _ hsame => zero_ne_one (congrArg IntegrationConnection.updatedAt hsame)

theorem safe_of_updateConnectionTokens {accessToken refreshToken : Option String}
    {expiresAt : Option ℚ}
    (h : Isolated A sees (.updateConnectionTokens id accessToken refreshToken expiresAt) s) :
    Safe connectionColumns A sees s.1.connections id s.1.nextConnectionId :=
  safe_of_updates (fun t ht hown => (h connectionless 0 ⟨t, ht⟩ hown).others) (fun _ => rfl)
    fun _ hsame => zero_ne_one (congrArg IntegrationConnection.updatedAt hsame)

/-! ### Calls that look for a connection -/

theorem checkConnectionId_with (b : ℕ) (t : Tables) :
    ImportService.checkConnectionId (some id) { t with
      connections := foreignConnection id b :: TenantTables.own (·.companyId) A t.connections } =
      .ok () := by
  have hhas : (some id).all (Tables.hasConnection { t with
      connections := foreignConnection id b :: TenantTables.own (·.companyId) A t.connections }) =
      true := List.any_eq_true.mpr ⟨_, List.mem_cons_self, decide_eq_true rfl⟩
  rw [ImportService.checkConnectionId, if_pos hhas]

theorem checkConnectionId_without {t : Tables} (hnot : ¬Owns connectionColumns A t.connections id) :
    ImportService.checkConnectionId (some id) { t with
      connections := TenantTables.own (·.companyId) A t.connections } =
      .error
        "insert on table import_jobs violates foreign key constraint fk_import_jobs_connection" := by
  refine if_neg fun hhas => hnot ?_
  obtain ⟨c, hc, hid⟩ := List.any_eq_true.mp hhas
  exact owns_own.mp ⟨c, hc, of_decide_eq_true hid, (mem_own.mp hc).2⟩

theorem loadConnection_with {b : ℕ} (hseen : sees b = true) (now : ℚ) (t : Tables) :
    ImportService.loadConnection ⟨A, sees, connectionless, now⟩ { t with
      connections := foreignConnection id b :: TenantTables.own (·.companyId) A t.connections } id =
      some (foreignConnection id b) :=
  lookup_cons (c := connectionColumns) hseen

theorem loadConnection_without {t : Tables} (hnot : ¬Owns connectionColumns A t.connections id)
    (now : ℚ) :
    ImportService.loadConnection ⟨A, sees, connectionless, now⟩ { t with
      connections := TenantTables.own (·.companyId) A t.connections } id = none :=
  lookup_own_eq_none (c := connectionColumns) hnot

theorem loadConnection_hidden {b : ℕ} {t : Tables} (hhidden : Hidden A sees) (hb : b ≠ A)
    (hnot : ¬Owns connectionColumns A t.connections id) (now : ℚ) :
    ImportService.loadConnection ⟨A, sees, connectionless, now⟩ { t with
      connections := foreignConnection id b :: TenantTables.own (·.companyId) A t.connections } id =
      none := by
  have hother : connectionColumns.company (foreignConnection id b) ≠ A := hb
  exact (lookup_cons_hidden hhidden hother).trans (lookup_own_eq_none (c := connectionColumns) hnot)

/-- The three contents lead to different connectors. -/
theorem connectorOf_with {b : ℕ} (hseen : sees b = true) (provider : String) (now : ℚ)
    (t : Tables) :
    ImportService.connectorOf ⟨A, sees, connectionless, now⟩ provider (some id) { t with
      connections := foreignConnection id b :: TenantTables.own (·.companyId) A t.connections } =
      connectionless provider (some (foreignConnection id b)) := by
  rw [ImportService.connectorOf, Option.bind_some, loadConnection_with hseen]

theorem connectorOf_without {t : Tables} (hnot : ¬Owns connectionColumns A t.connections id)
    (provider : String) (now : ℚ) :
    ImportService.connectorOf ⟨A, sees, connectionless, now⟩ provider (some id) { t with
      connections := TenantTables.own (·.companyId) A t.connections } =
      connectionless provider none := by
  rw [ImportService.connectorOf, Option.bind_some, loadConnection_without hnot]

theorem connectorOf_hidden {b : ℕ} {t : Tables} (hhidden : Hidden A sees) (hb : b ≠ A)
    (hnot : ¬Owns connectionColumns A t.connections id) (provider : String) (now : ℚ) :
    ImportService.connectorOf ⟨A, sees, connectionless, now⟩ provider (some id) { t with
      connections := foreignConnection id b :: TenantTables.own (·.companyId) A t.connections } =
      connectionless provider none := by
  rw [ImportService.connectorOf, Option.bind_some, loadConnection_hidden hhidden hb hnot]

theorem known_of_createImportJob {provider : String} {importType : ImportType}
    (h : Isolated A sees (.createImportJob provider importType (some id)) s) :
    Known connectionColumns A s.1.connections id s.1.nextConnectionId := by
  by_contra hunknown
  obtain ⟨hid, hnot⟩ := of_not_known hunknown
  have hsame := h.answer_eq (valid_withConnection s.2 (Nat.succ_ne_self A) hid hnot)
    (own_withConnection (Nat.succ_ne_self A)) (valid_ownConnections s.2) own_ownConnections 0
  simp only [answerOf, Call.perform, ImportService.createImportJob, checkConnectionId_with,
    checkConnectionId_without hnot] at hsame
  cases hsame

theorem exists_connector {provider : String} (h : ¬Unavailable provider) :
    ∃ cls, getConnector provider = .ok cls ∧ cls.status ≠ .stub := by
  by_contra hnone
  exact h fun cls hcls => by_contra fun hstub => hnone ⟨cls, hcls, hstub⟩

/-- A call that shows whether there is a connection that its session sees. -/
theorem Isolated.safe {call : Call} (h : Isolated A sees call s)
    (hdiffer : ∀ b, sees b = true → ¬Owns connectionColumns A s.1.connections id →
      answerOf (call.perform ⟨A, sees, connectionless, 0⟩) { s.1 with
        connections := foreignConnection id b :: TenantTables.own (·.companyId) A s.1.connections } ≠
        answerOf (call.perform ⟨A, sees, connectionless, 0⟩) { s.1 with
          connections := TenantTables.own (·.companyId) A s.1.connections }) :
    Safe connectionColumns A sees s.1.connections id s.1.nextConnectionId := by
  by_contra hunsafe
  obtain ⟨⟨b, hb, hseen⟩, hid, hnot⟩ := of_not_safe hunsafe
  apply hdiffer b hseen hnot
  exact h.answer_eq (valid_withConnection s.2 hb hid hnot) (own_withConnection hb)
    (valid_ownConnections s.2) own_ownConnections 0

theorem safe_of_scanProvider {provider : String} (havailable : ¬Unavailable provider)
    (h : Isolated A sees (.scanProvider provider (some id)) s) :
    Safe connectionColumns A sees s.1.connections id s.1.nextConnectionId := by
  obtain ⟨cls, hcls, hstub⟩ := exists_connector havailable
  apply h.safe
  intro b hseen hnot hsame
  rw [answerOf, answerOf, Call.perform, ImportService.scanProvider_of_connector hcls hstub,
    ImportService.scanProvider_of_connector hcls hstub, connectorOf_with hseen,
    connectorOf_without hnot] at hsame
  cases hsame

theorem safe_of_dryRunScan {provider : String} {importTypes : List ImportType}
    (havailable : ¬Unavailable provider)
    (h : Isolated A sees (.dryRunScan provider importTypes (some id)) s) :
    Safe connectionColumns A sees s.1.connections id s.1.nextConnectionId := by
  obtain ⟨cls, hcls, hstub⟩ := exists_connector havailable
  apply h.safe
  intro b hseen hnot hsame
  rw [answerOf, answerOf, Call.perform, ImportService.dryRunScan_of_connector hcls hstub,
    ImportService.dryRunScan_of_connector hcls hstub, connectorOf_with hseen,
    connectorOf_without hnot] at hsame
  cases hsame

theorem importJob_succeeds {provider : String} (dryRun : Bool) (batchSize : ℕ+)
    (importType : ImportType) :
    (importJob A provider dryRun batchSize (importType, .noFetcher)).Succeeds := by
  have hstatement : ∀ {α : Type} (g : Db → α × Db),
      (Session.execute fun db => .ok (g db)).Succeeds :=
    fun g => .execute fun db => ⟨g db, rfl⟩
  have hprogress : ∀ jobId p, (updateImportProgress jobId p).Succeeds := fun _ _ => hstatement _
  have hfill : ∀ jobId,
      (fillJob A provider batchSize jobId importType .noFetcher).Succeeds :=
    fun jobId => hprogress jobId _
  cases dryRun with
  | true =>
    exact .bind (.bind (hstatement _) fun _ => .bind (.bind (hstatement _) fun _ => hstatement _)
      fun _ => .pure _) fun _ => hstatement _
  | false =>
    exact .bind (.bind (hstatement _) fun jobId => .bind (hfill jobId) fun _ => .pure _)
      fun _ => hstatement _

theorem importWith_ok {self : ImportService} {provider : String} {importTypes : List ImportType}
    {connectionId : Option ℕ} {t : Tables} (dryRun : Bool) (batchSize : ℕ+)
    (hcheck : ImportService.checkConnectionId (if importTypes = [] then none else connectionId) t =
      .ok ()) :
    ∃ a, self.importWith (connectionless provider none) provider importTypes connectionId dryRun
      batchSize t = .ok a := by
  have hsucceeds : (((connectionless provider none).fetches importTypes).mapM
      (importJob self.companyId provider dryRun batchSize)).Succeeds := by
    refine .mapM fun i hi => ?_
    obtain ⟨p, -, rfl⟩ := List.mem_map.mp hi
    exact importJob_succeeds dryRun batchSize p.1
  obtain ⟨rows, u, hrun, -⟩ := hsucceeds (.begin t.db) rfl
  have htransact : t.transact (((connectionless provider none).fetches importTypes).mapM
      (importJob self.companyId provider dryRun batchSize)) =
      .ok (rows, { t with db := u.commit }) := by
    rw [Tables.transact, hrun]
  refine ⟨(.jobs rows.reduceOption, { t with db := u.commit }), ?_⟩
  simp only [ImportService.importWith, hcheck, htransact]
  rfl

theorem importWith_error {self : ImportService} {provider : String} {importTypes : List ImportType}
    {connectionId : Option ℕ} {t : Tables} {e : String} (dryRun : Bool) (batchSize : ℕ+)
    (hcheck : ImportService.checkConnectionId (if importTypes = [] then none else connectionId) t =
      .error e) :
    self.importWith (connectionless provider none) provider importTypes connectionId dryRun
      batchSize t = .error e := by
  simp only [ImportService.importWith, hcheck]
  rfl

theorem known_of_runImport {provider : String} {importTypes : List ImportType} {dryRun : Bool}
    {batchSize : ℕ+} (havailable : ¬Unavailable provider)
    (h : Isolated A sees (.runImport provider importTypes (some id) dryRun batchSize) s) :
    Known connectionColumns A s.1.connections id s.1.nextConnectionId ∨
      importTypes = [] ∧ Hidden A sees := by
  by_contra hnone
  obtain ⟨hunknown, hopen⟩ := not_or.mp hnone
  obtain ⟨hid, hnot⟩ := of_not_known hunknown
  obtain ⟨cls, hcls, hstub⟩ := exists_connector havailable
  by_cases hhidden : Hidden A sees
  · have htypes : importTypes ≠ [] := fun htypes => hopen ⟨htypes, hhidden⟩
    have hb : A + 1 ≠ A := Nat.succ_ne_self A
    have hsame := h.answer_eq (valid_withConnection s.2 hb hid hnot) (own_withConnection hb)
      (valid_ownConnections s.2) own_ownConnections 0
    rw [answerOf, answerOf, Call.perform, ImportService.runImport_of_connector hcls hstub,
      ImportService.runImport_of_connector hcls hstub, connectorOf_hidden hhidden hb hnot,
      connectorOf_without hnot] at hsame
    obtain ⟨a, ha⟩ := importWith_ok dryRun batchSize
      ((congrArg (ImportService.checkConnectionId · _) (if_neg htypes)).trans
        (checkConnectionId_with (A + 1) s.1))
    rw [ha, importWith_error dryRun batchSize
      ((congrArg (ImportService.checkConnectionId · _) (if_neg htypes)).trans
        (checkConnectionId_without hnot))] at hsame
    cases hsame
  · obtain ⟨b, hb, hseen⟩ := exists_of_not_hidden hhidden
    have hsame := h.answer_eq (valid_withConnection s.2 hb hid hnot) (own_withConnection hb)
      (valid_ownConnections s.2) own_ownConnections 0
    rw [answerOf, answerOf, Call.perform, ImportService.runImport_of_connector hcls hstub,
      ImportService.runImport_of_connector hcls hstub, connectorOf_with hseen,
      connectorOf_without hnot] at hsame
    by_cases htypes : importTypes = []
    · obtain ⟨a, ha⟩ := importWith_ok dryRun batchSize
        (congrArg (ImportService.checkConnectionId · _) (if_pos htypes))
      rw [ha] at hsame
      cases hsame
    · rw [importWith_error dryRun batchSize
        ((congrArg (ImportService.checkConnectionId · _) (if_neg htypes)).trans
          (checkConnectionId_without hnot))] at hsame
      exact absurd (Except.error.inj hsame) (by decide)

/-! ### Calls that look for a job -/

theorem loadJob_with {b : ℕ} {status : ImportStatus} {totalRecords : ℕ} (hseen : sees b = true)
    (now : ℚ) (t : Tables) :
    ImportService.loadJob ⟨A, sees, connectionless, now⟩ { t with db := { t.db with
      jobs := put jobColumns t.db.jobs (foreignJob id b status totalRecords) } } id =
      some (foreignJob id b status totalRecords) :=
  lookup_cons (c := jobColumns) hseen

theorem safe_of_getImportJob (h : Isolated A sees (.getImportJob id) s) :
    Safe jobColumns A sees s.1.db.jobs id s.1.db.nextJobId := by
  by_contra hunsafe
  obtain ⟨⟨b, hb, hseen⟩, hid, hnot⟩ := of_not_safe hunsafe
  have hvalid : ∀ totalRecords, Tables.Valid { s.1 with db := { s.1.db with
      jobs := put jobColumns s.1.db.jobs (foreignJob id b .pending totalRecords) } } :=
    fun totalRecords => valid_withDb s.2 (valid_withJob s.2.db hid b .pending totalRecords)
  have hsame := h.answer_eq (hvalid 0) (own_withDb (own_withJob hb hnot)) (hvalid 1)
    (own_withDb (own_withJob hb hnot)) 0
  simp only [answerOf, Call.perform, ImportService.getImportJob, loadJob_with hseen] at hsame
  cases hsame

theorem safe_of_updateImportProgress {p : Progress}
    (h : Isolated A sees (.updateImportProgress id p) s) :
    Safe jobColumns A sees s.1.db.jobs id s.1.db.nextJobId := by
  by_contra hunsafe
  obtain ⟨⟨b, hb, hseen⟩, hid, hnot⟩ := of_not_safe hunsafe
  obtain ⟨status, hstatus⟩ : ∃ status : ImportStatus, p.status ≠ status := by
    by_cases hpending : p.status = .pending
    · exact ⟨.ready, by rw [hpending]; decide⟩
    · exact ⟨.pending, hpending⟩
  have hothers := (h connectionless 0
    ⟨_, valid_withDb s.2 (valid_withJob s.2.db hid b status 0)⟩
    (own_withDb (own_withJob hb hnot))).others
  rw [after, Call.perform, ImportService.updateImportProgress_some (loadJob_with hseen 0 s.1)]
    at hothers
  have hother : jobColumns.company (foreignJob id b status 0) ≠ A := hb
  have hmoved : (foreignJob id b status 0).withProgress p = foreignJob id b status 0 :=
    eq_of_others_update (f := ImportJob.withProgress p) (congrArg (fun o => o.2.1.1) hothers) hother hb
  exact hstatus (congrArg ImportJob.status hmoved)

theorem ownIds_of_logImportResult {externalSystem externalId : String} {entityType : ImportType}
    {result : ImportResult} {errorMessage : Option String} {jsonable : Bool}
    (h : Isolated A sees (.logImportResult id externalSystem externalId entityType result
      errorMessage jsonable) s) :
    (Call.logImportResult id externalSystem externalId entityType result errorMessage
      jsonable).OwnIds A sees s.1 := by
  intro hjson hsystem hfits hkey
  by_contra hnone
  obtain ⟨hunknown, hfree⟩ := not_or.mp hnone
  obtain ⟨hid, hnot⟩ := of_not_known hunknown
  have hb : A + 1 ≠ A := Nat.succ_ne_self A
  have hlong : ¬(jsonable && !fitsVarchar 50 externalSystem) = true := by simp [hsystem]
  have hkey' : (⟨A, externalSystem, externalId, entityType⟩ : LogKey) ∉
      (TenantTables.own (·.companyId) A s.1.db.logs).map ImportLog.key := by
    intro hmem
    obtain ⟨l, hl, hlkey⟩ := List.mem_map.mp hmem
    exact hkey (List.mem_map.mpr ⟨l, (mem_own.mp hl).1, hlkey⟩)
  -- the job is there as another company's, or not at all
  have hthere : Db.Accepts { s.1.db with
      jobs := put jobColumns s.1.db.jobs (foreignJob id (A + 1) .pending 0)
      logs := TenantTables.own (·.companyId) A s.1.db.logs }
      ⟨A, some id, externalSystem, externalId, entityType, result, errorMessage⟩ jsonable :=
    ⟨hjson, hfits, List.any_eq_true.mpr ⟨_, List.mem_cons_self, decide_eq_true rfl⟩, hkey'⟩
  have hmissing : ¬Db.Accepts { s.1.db with
      jobs := erase jobColumns s.1.db.jobs id
      logs := TenantTables.own (·.companyId) A s.1.db.logs }
      ⟨A, some id, externalSystem, externalId, entityType, result, errorMessage⟩ jsonable := by
    rintro ⟨-, -, hhas, -⟩
    obtain ⟨j, hj, hjid⟩ := List.any_eq_true.mp hhas
    exact of_decide_eq_true (List.mem_filter.mp hj).2 (of_decide_eq_true hjid)
  obtain ⟨e, he⟩ := insertLog_of_not_accepts hmissing
  have hsame := h.answer_eq
    (valid_withDb s.2 (valid_withLogs (valid_withJob s.2.db hid (A + 1) .pending 0)))
    (own_withDb ((own_withJob hb hnot).trans own_withLogs))
    (valid_withDb s.2 (valid_withoutJob s.2.db fun l hl hcompany hjob =>
      hfree ⟨l, hl, hcompany, hjob⟩))
    (own_withDb (own_withoutJob hnot)) 0
  rw [answerOf, answerOf, Call.perform,
    ImportService.logImportResult_ok hlong (insertLog_of_accepts hthere),
    ImportService.logImportResult_error hlong he] at hsame
  cases hsame

theorem safe_of_deleteMappingRule (h : Isolated A sees (.deleteMappingRule id) s) :
    Safe ruleColumns A sees s.1.rules id s.1.nextRuleId := by
  by_contra hunsafe
  obtain ⟨⟨b, hb, hseen⟩, hid, hnot⟩ := of_not_safe hunsafe
  have hload : lookup ruleColumns A sees
      (foreignRule id b :: TenantTables.own (·.companyId) A s.1.rules) id =
      some (foreignRule id b) := lookup_cons (c := ruleColumns) hseen
  have hothers := (h connectionless 0 ⟨_, valid_withRule s.2 hb hid hnot⟩ (own_withRule hb)).others
  rw [after, Call.perform, ImportService.deleteMappingRule_some hload] at hothers
  have hrules : TenantTables.others MappingRule.companyId A (erase ruleColumns
      (foreignRule id b :: TenantTables.own (·.companyId) A s.1.rules) id) =
      TenantTables.others MappingRule.companyId A
        (foreignRule id b :: TenantTables.own (·.companyId) A s.1.rules) :=
    congrArg (fun o => o.2.2) hothers
  have hmem : foreignRule id b ∈ TenantTables.others MappingRule.companyId A
      (foreignRule id b :: TenantTables.own (·.companyId) A s.1.rules) :=
    List.mem_filter.mpr ⟨List.mem_cons_self, decide_eq_true hb⟩
  rw [← hrules] at hmem
  have herased := (List.mem_filter.mp (List.mem_of_mem_filter hmem)).2
  exact of_decide_eq_true herased rfl

/-! ### Calls that read the log of a job -/

/-- The tables can have a job under the id that the session is shown, the company's own one if it
has one. -/
theorem exists_job (hid : id < s.1.db.nextJobId) {b : ℕ} (hb : b ≠ A) (hseen : sees b = true) :
    ∃ db : Db, db.Valid ∧ s.1.db.own A = db.own A ∧ ∃ j ∈ db.jobs, j.id = id ∧
      lookup jobColumns A sees db.jobs id = some j ∧
      (j.companyId = A ∧ j ∈ s.1.db.jobs ∨ j.rolledBackAt = none) := by
  by_cases howns : Owns jobColumns A s.1.db.jobs id
  · obtain ⟨j, hj, hload, hcompany⟩ := howns.lookup s.2.db.keyed sees
    exact ⟨s.1.db, s.2.db, rfl, j, hj, (lookup_mem hload).2.1, hload, .inl ⟨hcompany, hj⟩⟩
  · exact ⟨_, valid_withJob s.2.db hid b .pending 0, own_withJob hb howns, _, List.mem_cons_self, rfl,
      lookup_cons (c := jobColumns) hseen, .inr rfl⟩

theorem ownIds_of_getImportReport (h : Isolated A sees (.getImportReport id) s) :
    Hidden A sees ∨ s.1.db.nextJobId ≤ id := by
  by_contra hnone
  obtain ⟨hopen, hissued⟩ := not_or.mp hnone
  obtain ⟨b, hb, hseen⟩ := exists_of_not_hidden hopen
  obtain ⟨db, hdb, hown, j, hj, hid, hload, -⟩ := exists_job (Nat.lt_of_not_le hissued) hb hseen
  have hsame := h.answer_eq (valid_withDb s.2 (valid_withLog hdb hb ⟨j, hj, hid⟩))
    (own_withDb (hown.trans (own_withLog hb))) (valid_withDb s.2 (valid_withLogs hdb))
    (own_withDb (hown.trans own_withLogs)) 0
  have hload' : ∀ logs, ImportService.loadJob ⟨A, sees, connectionless, 0⟩
      { s.1 with db := { db with logs := logs } } id = some j := fun _ => hload
  rw [answerOf, answerOf, Call.perform, ImportService.getImportReport_some (hload' _),
    ImportService.getImportReport_some (hload' _)] at hsame
  have hlogs := congrArg ImportReport.logs (Answer.report.inj (Except.ok.inj hsame))
  have hmore : ImportService.logsOf ⟨A, sees, connectionless, 0⟩ id { s.1 with db := { db with
      logs := foreignLog id b :: TenantTables.own (·.companyId) A db.logs } } =
      foreignLog id b :: ImportService.logsOf ⟨A, sees, connectionless, 0⟩ id { s.1 with
        db := { db with logs := TenantTables.own (·.companyId) A db.logs } } :=
    List.filter_cons_of_pos (by simp [foreignLog, shown, hseen])
  have hlength := congrArg List.length hlogs
  rw [List.length_map, List.length_map, hmore, List.length_cons] at hlength
  omega

theorem ownIds_of_rollbackImport (h : Isolated A sees (.rollbackImport id) s) :
    (Call.rollbackImport id).OwnIds A sees s.1 := by
  by_contra hnone
  obtain ⟨hopen, hrest⟩ := not_or.mp hnone
  obtain ⟨hissued, hnotRolled⟩ := not_or.mp hrest
  obtain ⟨b, hb, hseen⟩ := exists_of_not_hidden hopen
  obtain ⟨db, hdb, hown, j, hj, hid, hload, hwhose⟩ :=
    exists_job (Nat.lt_of_not_le hissued) hb hseen
  have hrolled : ¬j.rolledBackAt.isSome = true := by
    intro hrolled
    rcases hwhose with ⟨hcompany, hj'⟩ | hnever
    · exact hnotRolled ⟨j, hj', hid, hcompany, hrolled⟩
    · rw [hnever] at hrolled
      cases hrolled
  have hothers := (h connectionless 0 ⟨_, valid_withDb s.2 (valid_withLog hdb hb ⟨j, hj, hid⟩)⟩
    (own_withDb (hown.trans (own_withLog hb)))).others
  have hload' : ImportService.loadJob ⟨A, sees, connectionless, 0⟩ { s.1 with db := { db with
      logs := foreignLog id b :: TenantTables.own (·.companyId) A db.logs } } id = some j := hload
  rw [after, Call.perform, ImportService.rollbackImport_some hload' hrolled] at hothers
  have hlogs : TenantTables.others ImportLog.companyId A
      (ImportService.rolledBackLogs ⟨A, sees, connectionless, 0⟩ id
        (foreignLog id b :: TenantTables.own (·.companyId) A db.logs)) =
      TenantTables.others ImportLog.companyId A
        (foreignLog id b :: TenantTables.own (·.companyId) A db.logs) :=
    congrArg (fun o => o.2.1.2) hothers
  have hmem : foreignLog id b ∈ TenantTables.others ImportLog.companyId A
      (foreignLog id b :: TenantTables.own (·.companyId) A db.logs) :=
    List.mem_filter.mpr ⟨List.mem_cons_self, decide_eq_true hb⟩
  rw [← hlogs] at hmem
  obtain ⟨l, hl, hrow⟩ := List.mem_map.mp (List.mem_of_mem_filter hmem)
  -- no row of the job that the session is shown stays a success
  have hshown : shown A sees l.companyId = true := by
    have hcompany : l.companyId = b := by
      have hsame := congrArg ImportLog.companyId hrow
      unfold ImportLog.rollBack at hsame
      split_ifs at hsame <;> exact hsame
    simp [shown, hcompany, hseen]
  rw [if_pos hshown, ImportLog.rollBack] at hrow
  split at hrow
  · have hresult : ImportResult.rolledBack = .success := congrArg ImportLog.result hrow
    cases hresult
  · rename_i hnot
    exact hnot (by rw [hrow]; simp [ImportLog.isSuccessOf, foreignLog])

end

/-- A call of the service is isolated from the other companies exactly when its ids are the
company's own as far as it matters. -/
theorem isolated_iff_ownIds (A : ℕ) (sees : ℕ → Bool) (call : Call) (s : TablesStore) :
    Isolated A sees call s ↔ call.OwnIds A sees s.1 := by
  refine ⟨fun h => ?_, fun hids connectors now s' hown => ?_⟩
  · cases call with
    | updateConnectionStatus id status => exact safe_of_updateConnectionStatus h
    | updateConnectionTokens id accessToken refreshToken expiresAt =>
      exact safe_of_updateConnectionTokens h
    | createImportJob provider importType connectionId =>
      rintro id rfl
      exact known_of_createImportJob h
    | getImportJob id => exact safe_of_getImportJob h
    | updateImportProgress id p => exact safe_of_updateImportProgress h
    | logImportResult => exact ownIds_of_logImportResult h
    | deleteMappingRule id => exact safe_of_deleteMappingRule h
    | scanProvider provider connectionId =>
      by_cases havailable : Unavailable provider
      · exact .inl havailable
      · refine .inr ?_
        rintro id rfl
        exact safe_of_scanProvider havailable h
    | runImport provider importTypes connectionId dryRun batchSize =>
      by_cases havailable : Unavailable provider
      · exact .inl havailable
      · refine .inr ?_
        rintro id rfl
        exact known_of_runImport havailable h
    | dryRunScan provider importTypes connectionId =>
      by_cases havailable : Unavailable provider
      · exact .inl havailable
      · refine .inr ?_
        rintro id rfl
        exact safe_of_dryRunScan havailable h
    | getImportReport id => exact ownIds_of_getImportReport h
    | rollbackImport id => exact ownIds_of_rollbackImport h
    | createConnection | getConnection | getConnections | getImportJobs | alreadyImported
      | getMappingRules | saveMappingRule | checkConnectionHealth | getMigrationMetrics =>
      exact trivial
  · exact @perform_agree ⟨A, sees, connectors, now⟩ s.1 s'.1 ⟨s.2, s'.2, hown⟩ call hids

/-- One connection, one job and one row of its log, all of company 2. -/
def othersRows : TablesStore where
  val :=
    { connections := [foreignConnection 0 2]
      nextConnectionId := 1
      db := ⟨[foreignJob 0 2 .completed 1], [foreignLog 0 2], 1⟩
      rules := []
      nextRuleId := 0 }
  property := by
    refine ⟨⟨List.nodup_singleton _, ?_⟩, List.nodup_singleton _, ⟨?_, List.nodup_singleton _, ?_,
      List.nodup_singleton _⟩, ⟨List.nodup_nil, ?_⟩, List.nodup_nil⟩
    · simp [connectionColumns, foreignConnection]
    · simp [foreignJob]
    · simp [foreignLog, foreignJob]
    · simp

/-- Company 1 sees from the foreign key whether company 2 has the connection, whatever the row level
security; without it, company 1 rolls the job of company 2 back. -/
theorem not_isolated_othersRows :
    ¬Isolated 1 (fun _ => false) (.createImportJob "stripe" .customers (some 0)) othersRows ∧
      ¬Isolated 1 (fun _ => true) (.rollbackImport 0) othersRows := by
  constructor
  · intro h
    rcases known_of_createImportJob h with hunissued | ⟨c, hc, -, hcompany⟩
    · exact absurd hunissued (by decide)
    · rw [List.mem_singleton.mp hc] at hcompany
      exact absurd hcompany (by decide)
  · intro h
    rcases ownIds_of_rollbackImport h with hhidden | hunissued | ⟨j, hj, -, hcompany, -⟩
    · exact absurd (hhidden 2 (by decide)) (by decide)
    · exact absurd hunissued (by decide)
    · rw [List.mem_singleton.mp hj] at hcompany
      exact absurd hcompany (by decide)

end WorkTicket.Integrations
