import WorkTicket.Integrations.ImportService

/-! The books of a run: a row that the log cannot take aborts the transaction, the handler
that would log the failure fails with it, and the run raises. Only a run all of whose rows
are new ends with its jobs. -/

namespace WorkTicket.Integrations

open Transaction

def Fetch.fetched : Fetch → List Record
  | .records rs => rs
  | _ => []

def externalIds (rs : List Record) : List String := rs.zipIdx.map fun r => r.1.externalIdAt r.2

/-- The records of a run, each with its type and its position in its list. -/
def entries (imports : List (ImportType × Fetch)) : List (ImportType × Record × ℕ) :=
  imports.flatMap fun i => i.2.fetched.zipIdx.map (i.1, ·)

def Record.storableAt (r : Record) (idx : ℕ) : Bool :=
  r.jsonable && fitsExternalId (r.externalIdAt idx)

def ImportJob.started (n : ℕ) (j : ImportJob) : ImportJob :=
  { j with totalRecords := n, status := .inProgress, progressPct := 0 }

def ImportJob.finished (n : ℕ) (j : ImportJob) : ImportJob :=
  { j with
    status := .completed, progressPct := 100
    totalRecords := n, importedCount := n, skippedCount := 0, failedCount := 0 }

section
variable (companyId : ℕ) (provider : String)

def entryKey (e : ImportType × Record × ℕ) : LogKey :=
  ⟨companyId, provider, e.2.1.externalIdAt e.2.2, e.1⟩

def successLog (jobId : ℕ) (e : ImportType × Record × ℕ) : ImportLog :=
  ⟨companyId, some jobId, provider, e.2.1.externalIdAt e.2.2, e.1, .success, none⟩

/-- The external ids are distinct, the log has no row for them yet, and their own rows fit
their columns. -/
structure Importable (logs : List ImportLog) (es : List (ImportType × Record × ℕ)) : Prop where
  distinct : (es.map (entryKey companyId provider)).Nodup
  notLogged : ∀ e ∈ es, entryKey companyId provider e ∉ logs.map ImportLog.key
  storable : ∀ e ∈ es, e.2.1.storableAt e.2.2

def jobAfter (i : ImportType × Fetch) (jobId : ℕ) : ImportJob :=
  match i.2 with
  | .noFetcher => (newJob companyId provider i.1 jobId).withProgress
      (.failure ("No fetcher for " ++ i.1.value))
  | .raises e => (newJob companyId provider i.1 jobId).withProgress (.failure e)
  | .records rs => (newJob companyId provider i.1 jobId).finished rs.length

def rowsAfter (i : ImportType × Fetch) (jobId : ℕ) : List ImportLog :=
  (entries [i]).map (successLog companyId provider jobId)

def newRows (imports : List (ImportType × Fetch)) (next : ℕ) : List ImportLog :=
  (imports.zipIdx next).flatMap fun i => rowsAfter companyId provider i.1 i.2

/-- The books of one import: a job that has ended, whose counts sum to the records fetched,
and a row of the log for each of these. -/
structure JobAccounted (db : Db) (i : ImportType × Fetch) (jobId : ℕ) : Prop where
  job : ∃ j ∈ db.jobs, j.id = jobId ∧ j.status.isTerminal ∧
    j.importedCount + j.skippedCount + j.failedCount = j.totalRecords ∧
    j.totalRecords = i.2.fetched.length
  rows : (db.logs.filter (·.importJobId = some jobId)).map ImportLog.externalId =
    externalIds i.2.fetched

/-- The run ends with a job for each import and its books, and each external id has
exactly one success. -/
structure Accounted (imports : List (ImportType × Fetch)) (result : Except String (List ℕ))
    (db : Db) : Prop where
  jobs : ∃ jobIds, result = .ok jobIds ∧ List.Forall₂ (JobAccounted db) imports jobIds
  successes : ∀ i ∈ imports, ∀ externalId ∈ externalIds i.2.fetched,
    db.logs.countP (fun log => log.key = ⟨companyId, provider, externalId, i.1⟩ &&
      log.result = .success) = 1

end

section
variable {companyId : ℕ} {provider : String} {logs : List ImportLog}

theorem map_key_successLog (jobId : ℕ) (es : List (ImportType × Record × ℕ)) :
    (es.map (successLog companyId provider jobId)).map ImportLog.key =
      es.map (entryKey companyId provider) := List.map_map

theorem id_jobAfter (i : ImportType × Fetch) (jobId : ℕ) :
    (jobAfter companyId provider i jobId).id = jobId := by
  unfold jobAfter
  split <;> rfl

theorem newRows_cons (i : ImportType × Fetch) (imports : List (ImportType × Fetch)) (next : ℕ) :
    newRows companyId provider (i :: imports) next =
      rowsAfter companyId provider i next ++ newRows companyId provider imports (next + 1) := rfl

theorem importable_append (jobId : ℕ) (es es' : List (ImportType × Record × ℕ)) :
    Importable companyId provider logs (es ++ es') ↔
      Importable companyId provider logs es ∧
        Importable companyId provider (logs ++ es.map (successLog companyId provider jobId)) es' := by
  have hlogged : ∀ e, entryKey companyId provider e ∉
      (logs ++ es.map (successLog companyId provider jobId)).map ImportLog.key ↔
      entryKey companyId provider e ∉ logs.map ImportLog.key ∧
        entryKey companyId provider e ∉ es.map (entryKey companyId provider) := by
    intro e
    rw [List.map_append, List.mem_append, not_or, map_key_successLog]
  constructor
  · intro h
    have hsplit := h.distinct
    rw [List.map_append, List.nodup_append'] at hsplit
    obtain ⟨hleft, hright, hdisjoint⟩ := hsplit
    refine ⟨⟨hleft, fun e he => h.notLogged e (List.mem_append_left _ he),
        fun e he => h.storable e (List.mem_append_left _ he)⟩,
      ⟨hright, fun e he => ?_, fun e he => h.storable e (List.mem_append_right _ he)⟩⟩
    refine (hlogged e).mpr ⟨h.notLogged e (List.mem_append_right _ he), fun hmem => ?_⟩
    exact hdisjoint hmem (List.mem_map_of_mem he)
  · rintro ⟨hleft, hright⟩
    refine ⟨?_, ?_, ?_⟩
    · rw [List.map_append, List.nodup_append']
      refine ⟨hleft.distinct, hright.distinct, fun k hk hk' => ?_⟩
      obtain ⟨e, he, rfl⟩ := List.mem_map.mp hk'
      exact ((hlogged e).mp (hright.notLogged e he)).2 hk
    · intro e he
      rcases List.mem_append.mp he with he | he
      · exact hleft.notLogged e he
      · exact ((hlogged e).mp (hright.notLogged e he)).1
    · intro e he
      rcases List.mem_append.mp he with he | he
      · exact hleft.storable e he
      · exact hright.storable e he

theorem importable_cons {db : Db} {jobId : ℕ} (hjob : db.hasJob jobId)
    (e : ImportType × Record × ℕ) (es : List (ImportType × Record × ℕ)) :
    Importable companyId provider db.logs (e :: es) ↔
      db.Accepts (successLog companyId provider jobId e) e.2.1.jsonable ∧
        Importable companyId provider (db.addLog (successLog companyId provider jobId e)).logs es := by
  rw [← List.singleton_append, importable_append jobId]
  refine and_congr_left' ?_
  constructor
  · intro h
    have hstorable : e.2.1.jsonable ∧ fitsExternalId (e.2.1.externalIdAt e.2.2) := by
      simpa [Record.storableAt] using h.storable e (List.mem_singleton_self e)
    exact ⟨hstorable.1, hstorable.2, hjob, h.notLogged e (List.mem_singleton_self e)⟩
  · rintro ⟨hjson, hfits, -, hkey⟩
    refine ⟨List.nodup_singleton _, ?_, ?_⟩
    · intro e' he'
      rw [List.mem_singleton.mp he']
      exact hkey
    · intro e' he'
      rw [List.mem_singleton.mp he']
      simpa [Record.storableAt] using ⟨hjson, hfits⟩

end

section
variable {companyId : ℕ} {provider : String} {db₀ db : Db} {jobId : ℕ} {importType : ImportType}

theorem run_updateImportProgress (p : Progress) :
    (updateImportProgress jobId p).run ⟨db₀, db, false⟩ =
      (.ok (), ⟨db₀, db.updateJob jobId (·.withProgress p), false⟩) := rfl

theorem run_updateImportProgress_aborted (p : Progress) :
    (updateImportProgress jobId p).run ⟨db₀, db, true⟩ =
      (.error abortedError, ⟨db₀, db, true⟩) := rfl

theorem run_alreadyImported (externalId : String) :
    (alreadyImported companyId provider externalId importType).run ⟨db₀, db, false⟩ =
      (.ok (db.logs.any fun log => log.key = ⟨companyId, provider, externalId, importType⟩ &&
        log.result = .success), ⟨db₀, db, false⟩) := rfl

theorem run_logImportResult_ok {externalId : String} {result : ImportResult}
    {errorMessage : Option String} {jsonable : Bool}
    (h : db.Accepts ⟨companyId, some jobId, provider, externalId, importType, result, errorMessage⟩
      jsonable) :
    (logImportResult companyId provider jobId externalId importType result errorMessage
      jsonable).run ⟨db₀, db, false⟩ =
      (.ok (), ⟨db₀, db.addLog ⟨companyId, some jobId, provider, externalId, importType, result,
        errorMessage⟩, false⟩) := by
  rw [logImportResult, Session.run_execute, Transaction.execute, if_neg Bool.false_ne_true,
    insertLog_of_accepts h]

theorem run_logImportResult_error (db₀ : Db) {externalId : String} {result : ImportResult}
    {errorMessage : Option String} {jsonable : Bool}
    (h : ¬db.Accepts
      ⟨companyId, some jobId, provider, externalId, importType, result, errorMessage⟩ jsonable) :
    ∃ e, (logImportResult companyId provider jobId externalId importType result errorMessage
      jsonable).run ⟨db₀, db, false⟩ = (.error e, ⟨db₀, db, true⟩) := by
  obtain ⟨e, he⟩ := insertLog_of_not_accepts h
  refine ⟨e, ?_⟩
  rw [logImportResult, Session.run_execute, Transaction.execute, if_neg Bool.false_ne_true, he]

theorem run_logImportResult_aborted (externalId : String) (result : ImportResult)
    (errorMessage : Option String) (jsonable : Bool) :
    (logImportResult companyId provider jobId externalId importType result errorMessage
      jsonable).run ⟨db₀, db, true⟩ = (.error abortedError, ⟨db₀, db, true⟩) := rfl

theorem run_tryRecord_ok {c : Counts} {r : Record × ℕ}
    (h : db.Accepts (successLog companyId provider jobId (importType, r)) r.1.jsonable) :
    (tryRecord companyId provider jobId importType c r).run ⟨db₀, db, false⟩ =
      (.ok { c with imported := c.imported + 1 },
        ⟨db₀, db.addLog (successLog companyId provider jobId (importType, r)), false⟩) := by
  have hfound : (db.logs.any fun log =>
      log.key = ⟨companyId, provider, r.1.externalIdAt r.2, importType⟩ &&
        log.result = .success) = false := by
    refine List.any_eq_false.mpr fun log hlog => ?_
    have hkey : log.key ≠ ⟨companyId, provider, r.1.externalIdAt r.2, importType⟩ :=
      fun hkey => h.2.2.2 (List.mem_map.mpr ⟨log, hlog, hkey⟩)
    simp [hkey]
  rw [tryRecord, Session.run_bind_ok (run_alreadyImported _), hfound, if_neg Bool.false_ne_true]
  exact Session.run_bind_ok (run_logImportResult_ok h)

/-- The row of a duplicate has the key that made it one. -/
theorem run_tryRecord_error (db₀ : Db) (c : Counts) {r : Record × ℕ}
    (h : ¬db.Accepts (successLog companyId provider jobId (importType, r)) r.1.jsonable) :
    ∃ e, (tryRecord companyId provider jobId importType c r).run ⟨db₀, db, false⟩ =
      (.error e, ⟨db₀, db, true⟩) := by
  rw [tryRecord, Session.run_bind_ok (run_alreadyImported _)]
  by_cases hfound : db.logs.any fun log =>
      log.key = ⟨companyId, provider, r.1.externalIdAt r.2, importType⟩ && log.result = .success
  · have hrefused : ¬db.Accepts ⟨companyId, some jobId, provider, r.1.externalIdAt r.2, importType,
        .duplicate, none⟩ true := by
      rintro ⟨-, -, -, hkey⟩
      obtain ⟨log, hlog, hsame⟩ := List.any_eq_true.mp hfound
      have hlogKey : log.key = ⟨companyId, provider, r.1.externalIdAt r.2, importType⟩ :=
        of_decide_eq_true (Bool.and_eq_true_iff.mp hsame).1
      exact hkey (List.mem_map.mpr ⟨log, hlog, hlogKey⟩)
    obtain ⟨e, he⟩ := run_logImportResult_error db₀ hrefused
    rw [hfound, if_pos rfl]
    exact ⟨e, Session.run_bind_error he⟩
  · obtain ⟨e, he⟩ := run_logImportResult_error db₀ h
    rw [Bool.eq_false_iff.mpr hfound, if_neg Bool.false_ne_true]
    exact ⟨e, Session.run_bind_error he⟩

theorem run_importRecord_ok (db₀ : Db) (total : ℕ) (c : Counts) {r : Record × ℕ}
    (h : db.Accepts (successLog companyId provider jobId (importType, r)) r.1.jsonable) :
    (importRecord companyId provider jobId importType total c r).run ⟨db₀, db, false⟩ =
      (.ok { c with imported := c.imported + 1 },
        ⟨db₀, (db.addLog (successLog companyId provider jobId (importType, r))).updateJob jobId
          (·.withProgress (.counted .inProgress (progressAt r.2 total)
            { c with imported := c.imported + 1 })), false⟩) := by
  rw [importRecord, Session.run_bind_ok (Session.run_tryCatch_ok (run_tryRecord_ok h))]
  rfl

/-- A record whose row the log refuses: the handler's own row comes too late. -/
theorem run_importRecord_error {total : ℕ} {c : Counts} {r : Record × ℕ}
    (h : ¬db.Accepts (successLog companyId provider jobId (importType, r)) r.1.jsonable) :
    (importRecord companyId provider jobId importType total c r).run ⟨db₀, db, false⟩ =
      (.error abortedError, ⟨db₀, db, true⟩) := by
  obtain ⟨e, he⟩ := run_tryRecord_error db₀ c h
  refine Session.run_bind_error ((Session.run_tryCatch_error he).trans ?_)
  exact Session.run_bind_error (run_logImportResult_aborted ..)

end

section
variable {companyId : ℕ} {provider : String} {db₀ : Db} {earlier : List ImportJob}
  {j : ImportJob} {logs : List ImportLog} {next : ℕ} {importType : ImportType}

/-- The newest job is the one that is written. -/
theorem updateJob_last (hearlier : ∀ p ∈ earlier, p.id ≠ j.id) (f : ImportJob → ImportJob) :
    Db.updateJob ⟨earlier ++ [j], logs, next⟩ j.id f = ⟨earlier ++ [f j], logs, next⟩ := by
  have hsame : earlier.map (fun p => if p.id = j.id then f p else p) = earlier :=
    (List.map_congr_left fun p hp => if_neg (hearlier p hp)).trans (List.map_id _)
  simp [Db.updateJob, hsame]

theorem run_updateImportProgress_last (hearlier : ∀ p ∈ earlier, p.id ≠ j.id) (p : Progress) :
    (updateImportProgress j.id p).run ⟨db₀, ⟨earlier ++ [j], logs, next⟩, false⟩ =
      (.ok (), ⟨db₀, ⟨earlier ++ [j.withProgress p], logs, next⟩, false⟩) := by
  rw [run_updateImportProgress, updateJob_last hearlier]

theorem hasJob_last (earlier : List ImportJob) (j : ImportJob) (logs : List ImportLog) (next : ℕ) :
    Db.hasJob ⟨earlier ++ [j], logs, next⟩ j.id := by
  simp [Db.hasJob]

/-- Two states of a job that the next count makes the same. -/
def CountedAlike (j j' : ImportJob) : Prop :=
  j'.id = j.id ∧ ∀ status pct c,
    j'.withProgress (.counted status pct c) = j.withProgress (.counted status pct c)

theorem run_loop_ok (db₀ : Db) (next total : ℕ) (c : Counts) {rs : List (Record × ℕ)}
    (hearlier : ∀ p ∈ earlier, p.id ≠ j.id)
    (h : Importable companyId provider logs (rs.map (importType, ·))) :
    ∃ j', CountedAlike j j' ∧
      Session.run (rs.foldlM (importRecord companyId provider j.id importType total) c)
          ⟨db₀, ⟨earlier ++ [j], logs, next⟩, false⟩ =
        (.ok { c with imported := c.imported + rs.length },
          ⟨db₀, ⟨earlier ++ [j'], logs ++ (rs.map (importType, ·)).map
            (successLog companyId provider j.id), next⟩, false⟩) := by
  induction rs generalizing j logs c with
  | nil => exact ⟨j, ⟨rfl, fun _ _ _ => rfl⟩, by simp [Session.run_pure]⟩
  | cons r rs ih =>
    obtain ⟨haccepts, hrest⟩ := (importable_cons (hasJob_last earlier j logs next) _ _).mp h
    have hstep := run_importRecord_ok db₀ total c haccepts
    rw [Db.addLog, updateJob_last hearlier] at hstep
    obtain ⟨j', hj', hrun⟩ := ih { c with imported := c.imported + 1 }
      (j := j.withProgress (.counted .inProgress (progressAt r.2 total)
        { c with imported := c.imported + 1 })) hearlier hrest
    refine ⟨j', hj', ?_⟩
    rw [List.foldlM_cons, Session.run_bind_ok hstep]
    refine hrun.trans ?_
    simp [Db.addLog, ImportJob.withProgress, Nat.add_assoc, Nat.add_comm 1]

theorem run_loop_error (db₀ : Db) (next total : ℕ) (c : Counts) {rs : List (Record × ℕ)}
    (hearlier : ∀ p ∈ earlier, p.id ≠ j.id)
    (h : ¬Importable companyId provider logs (rs.map (importType, ·))) :
    ∃ db, Session.run (rs.foldlM (importRecord companyId provider j.id importType total) c)
        ⟨db₀, ⟨earlier ++ [j], logs, next⟩, false⟩ = (.error abortedError, ⟨db₀, db, true⟩) := by
  induction rs generalizing j logs c with
  | nil => exact absurd ⟨List.nodup_nil, by simp, by simp⟩ h
  | cons r rs ih =>
    rw [List.map_cons, importable_cons (hasJob_last earlier j logs next)] at h
    rw [List.foldlM_cons]
    by_cases haccepts : Db.Accepts ⟨earlier ++ [j], logs, next⟩
        (successLog companyId provider j.id (importType, r)) r.1.jsonable
    · have hstep := run_importRecord_ok db₀ total c haccepts
      rw [Db.addLog, updateJob_last hearlier] at hstep
      rw [Session.run_bind_ok hstep]
      exact ih _ (j := j.withProgress _) hearlier fun hrest => h ⟨haccepts, hrest⟩
    · exact ⟨_, Session.run_bind_error (run_importRecord_error haccepts)⟩

theorem run_importFetched {rs : List Record} {batchSize : ℕ+}
    (hearlier : ∀ p ∈ earlier, p.id ≠ j.id) :
    (importFetched companyId provider j.id importType rs batchSize).run
        ⟨db₀, ⟨earlier ++ [j], logs, next⟩, false⟩ =
      Session.run (rs.zipIdx.foldlM (importRecord companyId provider j.id importType rs.length)
            ⟨0, 0, 0⟩ >>= fun c => updateImportProgress j.id (.counted (finalStatus c) 100 c))
        ⟨db₀, ⟨earlier ++ [j.started rs.length], logs, next⟩, false⟩ := by
  have htotal : (setTotalRecords j.id rs.length).run ⟨db₀, ⟨earlier ++ [j], logs, next⟩, false⟩ =
      (.ok (), ⟨db₀, ⟨earlier ++ [{ j with totalRecords := rs.length }], logs, next⟩, false⟩) := by
    rw [← updateJob_last hearlier ({ · with totalRecords := rs.length })]
    rfl
  have hstart : (updateImportProgress j.id { status := .inProgress, progressPct := some 0 }).run
      ⟨db₀, ⟨earlier ++ [{ j with totalRecords := rs.length }], logs, next⟩, false⟩ =
      (.ok (), ⟨db₀, ⟨earlier ++ [j.started rs.length], logs, next⟩, false⟩) :=
    run_updateImportProgress_last (j := { j with totalRecords := rs.length }) hearlier _
  rw [importFetched, Session.run_bind_ok htotal, Session.run_bind_ok hstart, importRecords,
    Batches.foldlM_batches]

theorem run_importFetched_ok {rs : List Record} {batchSize : ℕ+}
    (hearlier : ∀ p ∈ earlier, p.id ≠ j.id)
    (h : Importable companyId provider logs (rs.zipIdx.map (importType, ·))) :
    (importFetched companyId provider j.id importType rs batchSize).run
        ⟨db₀, ⟨earlier ++ [j], logs, next⟩, false⟩ =
      (.ok (), ⟨db₀, ⟨earlier ++ [j.finished rs.length], logs ++
        (rs.zipIdx.map (importType, ·)).map (successLog companyId provider j.id), next⟩, false⟩) := by
  obtain ⟨j', ⟨hid, halike⟩, hloop⟩ := run_loop_ok db₀ next rs.length ⟨0, 0, 0⟩
    (j := j.started rs.length) hearlier h
  replace hid : j'.id = j.id := hid
  have hearlier' : ∀ p ∈ earlier, p.id ≠ j'.id := fun p hp => hid ▸ hearlier p hp
  rw [run_importFetched hearlier]
  refine (Session.run_bind_ok hloop).trans ?_
  rw [← hid, run_updateImportProgress_last hearlier', halike]
  simp [ImportJob.withProgress, ImportJob.started, ImportJob.finished, Progress.counted,
    finalStatus, hid]

theorem run_importFetched_error (db₀ : Db) (next : ℕ) {rs : List Record} (batchSize : ℕ+)
    (hearlier : ∀ p ∈ earlier, p.id ≠ j.id)
    (h : ¬Importable companyId provider logs (rs.zipIdx.map (importType, ·))) :
    ∃ db, (importFetched companyId provider j.id importType rs batchSize).run
      ⟨db₀, ⟨earlier ++ [j], logs, next⟩, false⟩ = (.error abortedError, ⟨db₀, db, true⟩) := by
  obtain ⟨db, hloop⟩ := run_loop_error db₀ next rs.length ⟨0, 0, 0⟩
    (j := j.started rs.length) hearlier h
  rw [run_importFetched hearlier]
  exact ⟨db, Session.run_bind_error hloop⟩

theorem entries_records (rs : List Record) :
    entries [(importType, .records rs)] = rs.zipIdx.map (importType, ·) :=
  List.append_nil _

/-- What the loop does with a type whose records the log can take. -/
theorem run_runImportType_ok {jobs : List ImportJob} {batchSize : ℕ+} {i : ImportType × Fetch}
    (hjobs : ∀ p ∈ jobs, p.id < next) (h : Importable companyId provider logs (entries [i])) :
    (runImportType companyId provider batchSize i).run ⟨db₀, ⟨jobs, logs, next⟩, false⟩ =
      (.ok next, ⟨db₀, ⟨jobs ++ [jobAfter companyId provider i next],
        logs ++ rowsAfter companyId provider i next, next + 1⟩, false⟩) := by
  have hearlier : ∀ p ∈ jobs, p.id ≠ (newJob companyId provider i.1 next).id :=
    fun p hp => (hjobs p hp).ne
  have hcreate : (createImportJob companyId provider i.1).run ⟨db₀, ⟨jobs, logs, next⟩, false⟩ =
      (.ok next, ⟨db₀, ⟨jobs ++ [newJob companyId provider i.1 next], logs, next + 1⟩, false⟩) := rfl
  have hfill : (fillJob companyId provider batchSize next i.1 i.2).run
      ⟨db₀, ⟨jobs ++ [newJob companyId provider i.1 next], logs, next + 1⟩, false⟩ =
      (.ok (), ⟨db₀, ⟨jobs ++ [jobAfter companyId provider i next],
        logs ++ rowsAfter companyId provider i next, next + 1⟩, false⟩) := by
    obtain ⟨importType, fetch⟩ := i
    cases fetch with
    | noFetcher =>
      rw [show rowsAfter companyId provider _ next = [] from rfl, List.append_nil]
      exact run_updateImportProgress_last hearlier _
    | raises e =>
      rw [show rowsAfter companyId provider _ next = [] from rfl, List.append_nil]
      exact run_updateImportProgress_last hearlier _
    | records rs =>
      rw [entries_records] at h
      refine Session.run_tryCatch_ok ((run_importFetched_ok hearlier h).trans ?_)
      rw [rowsAfter, entries_records]
      rfl
  rw [runImportType, Session.run_bind_ok hcreate, Session.run_bind_ok hfill, Session.run_pure]

theorem run_runImportType_error (db₀ : Db) {jobs : List ImportJob} (batchSize : ℕ+) {i : ImportType × Fetch}
    (hjobs : ∀ p ∈ jobs, p.id < next) (h : ¬Importable companyId provider logs (entries [i])) :
    ∃ db, (runImportType companyId provider batchSize i).run ⟨db₀, ⟨jobs, logs, next⟩, false⟩ =
      (.error abortedError, ⟨db₀, db, true⟩) := by
  have hearlier : ∀ p ∈ jobs, p.id ≠ (newJob companyId provider i.1 next).id :=
    fun p hp => (hjobs p hp).ne
  have hcreate : (createImportJob companyId provider i.1).run ⟨db₀, ⟨jobs, logs, next⟩, false⟩ =
      (.ok next, ⟨db₀, ⟨jobs ++ [newJob companyId provider i.1 next], logs, next + 1⟩, false⟩) := rfl
  rw [runImportType, Session.run_bind_ok hcreate]
  obtain ⟨importType, fetch⟩ := i
  cases fetch with
  | noFetcher => exact absurd ⟨List.nodup_nil, by simp [entries, Fetch.fetched],
      by simp [entries, Fetch.fetched]⟩ h
  | raises e => exact absurd ⟨List.nodup_nil, by simp [entries, Fetch.fetched],
      by simp [entries, Fetch.fetched]⟩ h
  | records rs =>
    rw [entries_records] at h
    obtain ⟨db, hfetched⟩ := run_importFetched_error db₀ (next + 1) batchSize hearlier h
    refine ⟨db, Session.run_bind_error ((Session.run_tryCatch_error hfetched).trans ?_)⟩
    exact run_updateImportProgress_aborted _

theorem entries_cons (i : ImportType × Fetch) (imports : List (ImportType × Fetch)) :
    entries (i :: imports) = entries [i] ++ entries imports := by
  simp [entries]

theorem importable_entries_cons {i : ImportType × Fetch} {imports : List (ImportType × Fetch)}
    (jobId : ℕ) :
    Importable companyId provider logs (entries (i :: imports)) ↔
      Importable companyId provider logs (entries [i]) ∧
        Importable companyId provider (logs ++ rowsAfter companyId provider i jobId)
          (entries imports) := by
  rw [entries_cons]
  exact importable_append jobId (entries [i]) (entries imports)

theorem jobs_lt_succ {jobs : List ImportJob} (hjobs : ∀ p ∈ jobs, p.id < next)
    (i : ImportType × Fetch) :
    ∀ p ∈ jobs ++ [jobAfter companyId provider i next], p.id < next + 1 := by
  intro p hp
  rcases List.mem_append.mp hp with hp | hp
  · exact Nat.lt_succ_of_lt (hjobs p hp)
  · rw [List.mem_singleton.mp hp, id_jobAfter]
    exact Nat.lt_succ_self next

/-- A run whose rows are all new: its jobs are numbered on from the last one. -/
theorem run_runImport_ok {jobs : List ImportJob} {batchSize : ℕ+}
    {imports : List (ImportType × Fetch)} (hjobs : ∀ p ∈ jobs, p.id < next)
    (h : Importable companyId provider logs (entries imports)) :
    (runImport companyId provider batchSize imports).run ⟨db₀, ⟨jobs, logs, next⟩, false⟩ =
      (.ok (List.range' next imports.length),
        ⟨db₀, ⟨jobs ++ (imports.zipIdx next).map fun i => jobAfter companyId provider i.1 i.2,
          logs ++ newRows companyId provider imports next, next + imports.length⟩, false⟩) := by
  unfold runImport
  induction imports generalizing jobs logs next with
  | nil => simp [Session.run_pure, newRows]
  | cons i imports ih =>
    obtain ⟨hfirst, hrest⟩ := (importable_entries_cons next).mp h
    rw [List.mapM_cons, Session.run_bind_ok (run_runImportType_ok hjobs hfirst),
      Session.run_bind_ok (ih (jobs_lt_succ hjobs i) hrest), Session.run_pure]
    simp [newRows_cons, List.range'_succ, List.zipIdx_cons, Nat.add_assoc, Nat.add_comm 1]

theorem run_runImport_error (db₀ : Db) {jobs : List ImportJob} (batchSize : ℕ+)
    {imports : List (ImportType × Fetch)} (hjobs : ∀ p ∈ jobs, p.id < next)
    (h : ¬Importable companyId provider logs (entries imports)) :
    ∃ db, (runImport companyId provider batchSize imports).run ⟨db₀, ⟨jobs, logs, next⟩, false⟩ =
      (.error abortedError, ⟨db₀, db, true⟩) := by
  unfold runImport
  induction imports generalizing jobs logs next with
  | nil => exact absurd ⟨List.nodup_nil, by simp [entries], by simp [entries]⟩ h
  | cons i imports ih =>
    rw [importable_entries_cons next] at h
    rw [List.mapM_cons]
    by_cases hfirst : Importable companyId provider logs (entries [i])
    · obtain ⟨db, hrest⟩ := ih (jobs_lt_succ hjobs i) fun hrest => h ⟨hfirst, hrest⟩
      rw [Session.run_bind_ok (run_runImportType_ok hjobs hfirst)]
      exact ⟨db, Session.run_bind_error hrest⟩
    · obtain ⟨db, hstop⟩ := run_runImportType_error db₀ batchSize hjobs hfirst
      exact ⟨db, Session.run_bind_error hstop⟩

end

section
variable {companyId : ℕ} {provider : String} {imports : List (ImportType × Fetch)}

theorem map_key_newRows (next : ℕ) :
    (newRows companyId provider imports next).map ImportLog.key =
      (entries imports).map (entryKey companyId provider) := by
  induction imports generalizing next with
  | nil => rfl
  | cons i imports ih =>
    rw [newRows_cons, List.map_append, ih, rowsAfter, map_key_successLog, ← List.map_append,
      ← entries_cons]

theorem exists_of_mem_newRows {next : ℕ} {log : ImportLog}
    (h : log ∈ newRows companyId provider imports next) :
    log.result = .success ∧ ∃ jobId ≥ next, log.importJobId = some jobId := by
  obtain ⟨⟨i, jobId⟩, hi, hlog⟩ := List.mem_flatMap.mp h
  obtain ⟨e, -, rfl⟩ := List.mem_map.mp hlog
  exact ⟨rfl, jobId, List.le_snd_of_mem_zipIdx hi, rfl⟩

theorem filter_rowsAfter (i : ImportType × Fetch) (jobId : ℕ) :
    (rowsAfter companyId provider i jobId).filter (·.importJobId = some jobId) =
      rowsAfter companyId provider i jobId := by
  refine List.filter_eq_self.mpr fun log hlog => ?_
  obtain ⟨e, -, rfl⟩ := List.mem_map.mp hlog
  exact decide_eq_true rfl

theorem filter_newRows {next k : ℕ} {i : ImportType × Fetch} (hi : imports[k]? = some i) :
    (newRows companyId provider imports next).filter (·.importJobId = some (next + k)) =
      rowsAfter companyId provider i (next + k) := by
  induction imports generalizing next k with
  | nil => cases hi
  | cons first imports ih =>
    rw [newRows_cons, List.filter_append]
    cases k with
    | zero =>
      obtain rfl : first = i := Option.some.inj hi
      have hlater : (newRows companyId provider imports (next + 1)).filter
          (·.importJobId = some (next + 0)) = [] := by
        refine List.filter_eq_nil_iff.mpr fun log hlog hid => ?_
        obtain ⟨-, jobId, hle, hjobId⟩ := exists_of_mem_newRows hlog
        have hsame : some jobId = some (next + 0) := hjobId.symm.trans (of_decide_eq_true hid)
        have : jobId = next + 0 := Option.some.inj hsame
        omega
      rw [hlater, List.append_nil]
      exact filter_rowsAfter first next
    | succ k =>
      have hfirst : (rowsAfter companyId provider first next).filter
          (·.importJobId = some (next + (k + 1))) = [] := by
        refine List.filter_eq_nil_iff.mpr fun log hlog hid => ?_
        obtain ⟨e, -, rfl⟩ := List.mem_map.mp hlog
        have : next = next + (k + 1) := Option.some.inj (of_decide_eq_true hid)
        omega
      rw [hfirst, List.nil_append, ← Nat.add_assoc, Nat.add_right_comm, ih hi]

theorem externalId_rowsAfter (i : ImportType × Fetch) (jobId : ℕ) :
    (rowsAfter companyId provider i jobId).map ImportLog.externalId = externalIds i.2.fetched := by
  simp [rowsAfter, entries, externalIds, successLog]

theorem jobAfter_counts (i : ImportType × Fetch) (jobId : ℕ) :
    (jobAfter companyId provider i jobId).status.isTerminal ∧
      (jobAfter companyId provider i jobId).importedCount +
          (jobAfter companyId provider i jobId).skippedCount +
          (jobAfter companyId provider i jobId).failedCount =
        (jobAfter companyId provider i jobId).totalRecords ∧
      (jobAfter companyId provider i jobId).totalRecords = i.2.fetched.length := by
  obtain ⟨importType, fetch⟩ := i
  cases fetch with
  | noFetcher => exact ⟨rfl, rfl, rfl⟩
  | raises e => exact ⟨rfl, rfl, rfl⟩
  | records rs => exact ⟨rfl, rfl, rfl⟩

/-- The rows of the store are those of its own jobs. -/
theorem filter_store (s : Store) {jobId : ℕ} (h : s.1.nextJobId ≤ jobId) :
    s.1.logs.filter (·.importJobId = some jobId) = [] := by
  refine List.filter_eq_nil_iff.mpr fun log hlog hid => ?_
  obtain ⟨j, hj, rfl⟩ := s.2.logJobs log hlog jobId (of_decide_eq_true hid)
  exact absurd (s.2.jobIds j hj) (by omega)

/-- The tables after a run whose rows are all new. -/
def dbAfter (companyId : ℕ) (provider : String) (imports : List (ImportType × Fetch)) (db : Db) :
    Db where
  jobs := db.jobs ++ (imports.zipIdx db.nextJobId).map fun i => jobAfter companyId provider i.1 i.2
  logs := db.logs ++ newRows companyId provider imports db.nextJobId
  nextJobId := db.nextJobId + imports.length

theorem jobAccounted_dbAfter (s : Store) {k : ℕ} {i : ImportType × Fetch}
    (hi : imports[k]? = some i) :
    JobAccounted (dbAfter companyId provider imports s.1) i (s.1.nextJobId + k) := by
  refine ⟨⟨jobAfter companyId provider i (s.1.nextJobId + k), ?_, id_jobAfter _ _,
    jobAfter_counts _ _⟩, ?_⟩
  · refine List.mem_append_right _ (List.mem_map.mpr ⟨(i, s.1.nextJobId + k), ?_, rfl⟩)
    exact List.mk_add_mem_zipIdx_iff_getElem?.mpr hi
  · rw [dbAfter, List.filter_append, filter_store s (Nat.le_add_right _ _), List.nil_append,
      filter_newRows hi, externalId_rowsAfter]

theorem successes_dbAfter (s : Store)
    (h : Importable companyId provider s.1.logs (entries imports)) {e : ImportType × Record × ℕ}
    (he : e ∈ entries imports) :
    (dbAfter companyId provider imports s.1).logs.countP (fun log =>
      log.key = entryKey companyId provider e && log.result = .success) = 1 := by
  have hbefore : s.1.logs.countP (fun log =>
      log.key = entryKey companyId provider e && log.result = .success) = 0 := by
    refine List.countP_eq_zero.mpr fun log hlog hkey => ?_
    have hlogged : log.key = entryKey companyId provider e :=
      of_decide_eq_true (Bool.and_eq_true_iff.mp hkey).1
    exact h.notLogged e he (hlogged ▸ List.mem_map_of_mem hlog)
  have hnew : (newRows companyId provider imports s.1.nextJobId).countP (fun log =>
      log.key = entryKey companyId provider e && log.result = .success) =
      ((newRows companyId provider imports s.1.nextJobId).map ImportLog.key).count
        (entryKey companyId provider e) := by
    rw [List.count, List.countP_map]
    refine List.countP_congr fun log hlog => ?_
    simp [(exists_of_mem_newRows hlog).1]
  rw [dbAfter, List.countP_append, hbefore, hnew, map_key_newRows, Nat.zero_add]
  exact List.count_eq_one_of_mem h.distinct (List.mem_map_of_mem he)

theorem run_of_importable {s : Store} {batchSize : ℕ+}
    (h : Importable companyId provider s.1.logs (entries imports)) :
    (runImport companyId provider batchSize imports).run (.begin s.1) =
      (.ok (List.range' s.1.nextJobId imports.length),
        ⟨s.1, dbAfter companyId provider imports s.1, false⟩) :=
  run_runImport_ok s.2.jobIds h

theorem runImport_of_importable {s : Store} {batchSize : ℕ+}
    (h : Importable companyId provider s.1.logs (entries imports)) :
    (s.runImport companyId provider batchSize imports).1 = dbAfter companyId provider imports s.1 :=
  Session.commitRun_of_ok (run_of_importable h)

/-- Only a run whose rows are all new returns. -/
theorem run_ok_iff {s : Store} {batchSize : ℕ+} {jobIds : List ℕ} :
    ((runImport companyId provider batchSize imports).run (.begin s.1)).1 = .ok jobIds ↔
      Importable companyId provider s.1.logs (entries imports) ∧
        jobIds = List.range' s.1.nextJobId imports.length := by
  by_cases h : Importable companyId provider s.1.logs (entries imports)
  · rw [run_of_importable h, Except.ok.injEq, eq_comm]
    exact (and_iff_right h).symm
  · obtain ⟨db, hrun⟩ := run_runImport_error s.1 batchSize s.2.jobIds h
    have herror : ((runImport companyId provider batchSize imports).run (.begin s.1)).1 =
        .error abortedError := congrArg Prod.fst hrun
    rw [herror]
    exact iff_of_false (fun hok => by cases hok) fun hok => h hok.1

/-- The books of a run balance exactly when all of its rows are new. -/
theorem accounted_iff (companyId : ℕ) (provider : String) (batchSize : ℕ+)
    (imports : List (ImportType × Fetch)) (s : Store) :
    Accounted companyId provider imports
        ((runImport companyId provider batchSize imports).run (.begin s.1)).1
        (s.runImport companyId provider batchSize imports).1 ↔
      Importable companyId provider s.1.logs (entries imports) := by
  constructor
  · intro h
    obtain ⟨jobIds, hok, -⟩ := h.jobs
    exact (run_ok_iff.mp hok).1
  · intro h
    rw [run_of_importable h, runImport_of_importable h]
    refine ⟨⟨_, rfl, ?_⟩, ?_⟩
    · refine List.forall₂_iff_get.mpr ⟨by simp, fun k hk hk' => ?_⟩
      have hi : imports[k]? = some (imports.get ⟨k, hk⟩) := List.getElem?_eq_getElem hk
      simpa using jobAccounted_dbAfter s hi
    · intro i hi externalId hid
      obtain ⟨r, hr, rfl⟩ := List.mem_map.mp hid
      have he : (i.1, r) ∈ entries imports :=
        List.mem_flatMap.mpr ⟨i, hi, List.mem_map_of_mem hr⟩
      exact successes_dbAfter s h he

def emptyStore : Store where
  val := ⟨[], [], 1⟩
  property := ⟨by simp, by simp, by simp, by simp⟩

/-- One list that names one customer twice. -/
def sameCustomerTwice : List (ImportType × Fetch) :=
  [(.customers, .records [⟨some "cus_1", none, true⟩, ⟨some "cus_1", none, true⟩])]

/-- The second row raises, and the run leaves no job. -/
theorem sameCustomerTwice_not_accounted :
    ¬Accounted 1 "stripe" sameCustomerTwice
      ((runImport 1 "stripe" 500 sameCustomerTwice).run (.begin emptyStore.1)).1
      (emptyStore.runImport 1 "stripe" 500 sameCustomerTwice).1 := by
  intro h
  obtain ⟨jobIds, hok, -⟩ := h.jobs
  have hraises : ((runImport 1 "stripe" 500 sameCustomerTwice).run (.begin emptyStore.1)).1.toBool =
      false := by decide
  rw [hok] at hraises
  cases hraises

end

end WorkTicket.Integrations
