import WorkTicket.Integrations.ImportAccounting

/-! What a rollback leaves of an import: its rows stay in the log as `ROLLED_BACK`, and
their keys with them, so that the same records can not be imported again. -/

namespace WorkTicket.Integrations

open Transaction

inductive Operation
  | run (companyId : ℕ) (provider : String) (batchSize : ℕ+) (imports : List (ImportType × Fetch))
  | rollback (now : ℚ) (jobId : ℕ)

def Store.apply (s : Store) : Operation → Store
  | .run companyId provider batchSize imports => s.runImport companyId provider batchSize imports
  | .rollback now jobId => s.rollbackImport now jobId

def Store.after (later : List Operation) (s : Store) : Store := later.foldl Store.apply s

/-- The external ids with a success. -/
def successIds (companyId : ℕ) (provider : String) (importType : ImportType) (db : Db) :
    Set String :=
  {externalId | ∃ log ∈ db.logs,
    log.key = ⟨companyId, provider, externalId, importType⟩ ∧ log.result = .success}

/-- `rolledBack` is `before` after the rollback of the job, and `after` is `rolledBack` after
a run of the same list, which has answered `result`. -/
structure Undone (companyId : ℕ) (provider : String) (importType : ImportType) (jobId : ℕ)
    (before rolledBack after : Db) (result : Except String (List ℕ)) : Prop where
  again : ∃ newId, result = .ok [newId] ∧
    (∃ j ∈ after.jobs, j.id = newId ∧ j.status = .completed ∧
      j.importedCount = before.logs.countP (·.isSuccessOf jobId)) ∧
    ∀ log ∈ before.logs, log.isSuccessOf jobId →
      ∃ log' ∈ after.logs, log'.isSuccessOf newId ∧ log'.key = log.key
  successes : successIds companyId provider importType after =
    successIds companyId provider importType before
  counts : ∃ j ∈ rolledBack.jobs, j.id = jobId ∧
    j.importedCount + j.skippedCount + j.failedCount = j.totalRecords

/-- What the operations that follow keep of an import: the keys of its records are logged,
its rows have no other keys, and its counts sum and cover its successes. -/
structure Kept (keys : List LogKey) (jobId : ℕ) (db : Db) : Prop where
  logged : ∀ k ∈ keys, k ∈ db.logs.map ImportLog.key
  rows : ∀ log ∈ db.logs, log.importJobId = some jobId → log.key ∈ keys
  job : ∃ j ∈ db.jobs, j.id = jobId ∧ db.logs.countP (·.isSuccessOf jobId) ≤ j.importedCount ∧
    j.importedCount + j.skippedCount + j.failedCount = j.totalRecords

section
variable {companyId : ℕ} {provider : String} {batchSize : ℕ+} {imports : List (ImportType × Fetch)}
  {s : Store} {now : ℚ} {keys : List LogKey} {jobId : ℕ}

theorem runImport_eq_or (s : Store) :
    (s.runImport companyId provider batchSize imports).1 = s.1 ∨
    (s.runImport companyId provider batchSize imports).1 =
      dbAfter companyId provider imports s.1 := by
  by_cases h : Importable companyId provider s.1.logs (entries imports)
  · exact .inr (runImport_of_importable h)
  · obtain ⟨db, hrun⟩ := run_runImport_error s.1 batchSize s.2.jobIds h
    exact .inl (Session.commitRun_of_error hrun)

theorem rollbackImport_eq_or (s : Store) (now : ℚ) (jobId : ℕ) :
    (s.rollbackImport now jobId).1 = s.1 ∨
    (s.rollbackImport now jobId).1 =
      s.1.rollBack now jobId (s.1.logs.countP (·.isSuccessOf jobId)) := by
  have hselect : (Session.execute fun db : Db => .ok (db.jobs.find? (·.id = jobId), db)).run
      (.begin s.1) = (.ok (s.1.jobs.find? (·.id = jobId)), .begin s.1) := rfl
  cases hfound : s.1.jobs.find? (·.id = jobId) with
  | none =>
    have hrun : (Integrations.rollbackImport now jobId).run (.begin s.1) =
        (.error s!"Import job {jobId} not found", .begin s.1) := by
      rw [rollbackImport, Session.run_bind_ok hselect, hfound]
      rfl
    exact .inl (Session.commitRun_of_error hrun)
  | some job =>
    by_cases hrolled : job.rolledBackAt.isSome
    · have hrun : (Integrations.rollbackImport now jobId).run (.begin s.1) =
          (.error s!"Import job {jobId} already rolled back", .begin s.1) := by
        rw [rollbackImport, Session.run_bind_ok hselect, hfound]
        exact (congrArg (Session.run · _) (if_pos hrolled)).trans rfl
      exact .inl (Session.commitRun_of_error hrun)
    · have hrun : (Integrations.rollbackImport now jobId).run (.begin s.1) =
          (.ok ⟨jobId, now, s.1.logs.countP (·.isSuccessOf jobId)⟩,
            ⟨s.1, s.1.rollBack now jobId (s.1.logs.countP (·.isSuccessOf jobId)), false⟩) := by
        rw [rollbackImport, Session.run_bind_ok hselect, hfound]
        exact (congrArg (Session.run · _) (if_neg hrolled)).trans rfl
      exact .inr (Session.commitRun_of_ok hrun)

theorem key_rollBack (log : ImportLog) : (log.rollBack jobId).key = log.key := by
  unfold ImportLog.rollBack
  split <;> rfl

theorem importJobId_rollBack (log : ImportLog) :
    (log.rollBack jobId).importJobId = log.importJobId := by
  unfold ImportLog.rollBack
  split <;> rfl

/-- A rollback takes its own successes, and no others. -/
theorem isSuccessOf_rollBack (jobId' : ℕ) (log : ImportLog) :
    (log.rollBack jobId').isSuccessOf jobId = (jobId ≠ jobId' && log.isSuccessOf jobId) := by
  by_cases hsuccess : log.isSuccessOf jobId'
  · have hid : log.importJobId = some jobId' := by
      simp only [ImportLog.isSuccessOf, Bool.and_eq_true, decide_eq_true_eq] at hsuccess
      exact hsuccess.1
    rw [ImportLog.rollBack, if_pos hsuccess]
    simp only [ImportLog.isSuccessOf, hid]
    by_cases hsame : jobId = jobId'
    · simp [hsame]
    · simp [Ne.symm hsame]
  · rw [ImportLog.rollBack, if_neg hsuccess]
    by_cases hsame : jobId = jobId'
    · simp [hsame, hsuccess]
    · simp [hsame]

theorem kept_dbAfter (h : Kept keys jobId s.1) :
    Kept keys jobId (dbAfter companyId provider imports s.1) := by
  obtain ⟨j, hj, hid, hcount, hsum⟩ := h.job
  have hold : jobId < s.1.nextJobId := hid ▸ s.2.jobIds j hj
  have hnew : ∀ log ∈ newRows companyId provider imports s.1.nextJobId,
      log.importJobId ≠ some jobId := by
    intro log hlog hjob
    obtain ⟨-, newId, hle, hnewId⟩ := exists_of_mem_newRows hlog
    have : newId = jobId := Option.some.inj (hnewId.symm.trans hjob)
    omega
  have hnone : (newRows companyId provider imports s.1.nextJobId).countP
      (·.isSuccessOf jobId) = 0 := by
    refine List.countP_eq_zero.mpr fun log hlog hsuccess => hnew log hlog ?_
    simp only [ImportLog.isSuccessOf, Bool.and_eq_true, decide_eq_true_eq] at hsuccess
    exact hsuccess.1
  refine ⟨fun k hk => ?_, fun log hlog hjob => ?_, j, List.mem_append_left _ hj, hid, ?_, hsum⟩
  · rw [dbAfter, List.map_append]
    exact List.mem_append_left _ (h.logged k hk)
  · rcases List.mem_append.mp hlog with hlog | hlog
    · exact h.rows log hlog hjob
    · exact absurd hjob (hnew log hlog)
  · rw [dbAfter, List.countP_append, hnone]
    exact hcount

theorem kept_rollBack {db : Db} (h : Kept keys jobId db) (now : ℚ) (jobId' : ℕ) :
    Kept keys jobId (db.rollBack now jobId' (db.logs.countP (·.isSuccessOf jobId'))) := by
  have hkeys : (db.logs.map (·.rollBack jobId')).map ImportLog.key = db.logs.map ImportLog.key := by
    rw [List.map_map]
    exact List.map_congr_left fun log _ => key_rollBack log
  refine ⟨fun k hk => ?_, ?_, ?_⟩
  · rw [Db.rollBack, Db.updateJob, hkeys]
    exact h.logged k hk
  · intro log' hlog' hjob
    obtain ⟨log, hlog, rfl⟩ := List.mem_map.mp hlog'
    rw [importJobId_rollBack] at hjob
    rw [key_rollBack]
    exact h.rows log hlog hjob
  · obtain ⟨j, hj, hid, hcount, hsum⟩ := h.job
    refine ⟨_, List.mem_map_of_mem hj, ?_⟩
    have hcountP : (db.logs.map (·.rollBack jobId')).countP (·.isSuccessOf jobId) =
        db.logs.countP fun log => jobId ≠ jobId' && log.isSuccessOf jobId := by
      rw [List.countP_map]
      exact List.countP_congr fun log _ => by simp [isSuccessOf_rollBack]
    rw [Db.rollBack, Db.updateJob, hcountP]
    by_cases hsame : jobId = jobId'
    · subst hsame
      rw [if_pos hid]
      refine ⟨hid, by simp, ?_⟩
      simp only [ImportJob.rollBack]
      omega
    · rw [if_neg (fun hid' => hsame (hid.symm.trans hid'))]
      exact ⟨hid, by simpa [hsame] using hcount, hsum⟩

/-- One more operation: a run adds rows of its own jobs, a rollback rewrites results. -/
theorem kept_apply (h : Kept keys jobId s.1) (op : Operation) : Kept keys jobId (s.apply op).1 := by
  cases op with
  | run companyId provider batchSize imports =>
    rcases runImport_eq_or s with hafter | hafter
    · exact hafter ▸ h
    · exact hafter ▸ kept_dbAfter h
  | rollback now jobId' =>
    rcases rollbackImport_eq_or s now jobId' with hafter | hafter
    · exact hafter ▸ h
    · exact hafter ▸ kept_rollBack h now jobId'

theorem kept_after (h : Kept keys jobId s.1) (later : List Operation) :
    Kept keys jobId (s.after later).1 := by
  induction later generalizing s with
  | nil => exact h
  | cons op later ih => exact ih (kept_apply h op)

def recordKeys (companyId : ℕ) (provider : String) (importType : ImportType) (rs : List Record) :
    List LogKey :=
  (entries [(importType, .records rs)]).map (entryKey companyId provider)

theorem kept_import (batchSize : ℕ+) {importType : ImportType} {rs : List Record} {k : ℕ}
    (h : Importable companyId provider s.1.logs (entries imports))
    (hi : imports[k]? = some (importType, .records rs)) :
    Kept (recordKeys companyId provider importType rs) (s.1.nextJobId + k)
      (s.runImport companyId provider batchSize imports).1 := by
  rw [runImport_of_importable h]
  have hrows : (dbAfter companyId provider imports s.1).logs.filter
      (·.importJobId = some (s.1.nextJobId + k)) =
      rowsAfter companyId provider (importType, .records rs) (s.1.nextJobId + k) := by
    rw [dbAfter, List.filter_append, filter_store s (Nat.le_add_right _ _), List.nil_append,
      filter_newRows hi]
  refine ⟨fun key hkey => ?_, fun log hlog hjob => ?_, ?_⟩
  · obtain ⟨e, he, rfl⟩ := List.mem_map.mp hkey
    have hlog : successLog companyId provider (s.1.nextJobId + k) e ∈
        (dbAfter companyId provider imports s.1).logs.filter
          (·.importJobId = some (s.1.nextJobId + k)) := hrows ▸ List.mem_map_of_mem he
    exact List.mem_map.mpr ⟨_, (List.mem_filter.mp hlog).1, rfl⟩
  · have hmem : log ∈ rowsAfter companyId provider (importType, .records rs) (s.1.nextJobId + k) :=
      hrows ▸ List.mem_filter.mpr ⟨hlog, decide_eq_true hjob⟩
    obtain ⟨e, he, rfl⟩ := List.mem_map.mp hmem
    exact List.mem_map_of_mem he
  · have hjob : jobAfter companyId provider (importType, .records rs) (s.1.nextJobId + k) ∈
        (dbAfter companyId provider imports s.1).jobs :=
      List.mem_append_right _
        (List.mem_map.mpr ⟨_, List.mk_add_mem_zipIdx_iff_getElem?.mpr hi, rfl⟩)
    refine ⟨_, hjob, id_jobAfter _ _, ?_, rfl⟩
    calc (dbAfter companyId provider imports s.1).logs.countP (·.isSuccessOf (s.1.nextJobId + k))
        ≤ (dbAfter companyId provider imports s.1).logs.countP
            (·.importJobId = some (s.1.nextJobId + k)) := by
          refine List.countP_mono_left fun log _ hsuccess => ?_
          exact (Bool.and_eq_true_iff.mp hsuccess).1
      _ = rs.length := by
          rw [List.countP_eq_length_filter, hrows, rowsAfter, entries_records]
          simp

theorem not_importable {importType : ImportType} {rs : List Record}
    (h : Kept (recordKeys companyId provider importType rs) jobId s.1) (hrs : rs ≠ []) :
    ¬Importable companyId provider s.1.logs (entries [(importType, .records rs)]) := by
  intro hnew
  cases rs with
  | nil => exact hrs rfl
  | cons r rs =>
    have hfirst : (importType, r, 0) ∈ entries [(importType, .records (r :: rs))] := by
      simp [entries_records]
    exact hnew.notLogged _ hfirst (h.logged _ (List.mem_map_of_mem hfirst))

/-- The import of no record is undone: there is nothing to take back, nor to write again. -/
theorem undone_nil {importType : ImportType} {batchSize : ℕ+} {now : ℚ}
    (h : Kept [] jobId s.1) :
    Undone companyId provider importType jobId s.1 (s.rollbackImport now jobId).1
      ((s.rollbackImport now jobId).runImport companyId provider batchSize
        [(importType, .records [])]).1
      ((runImport companyId provider batchSize [(importType, .records [])]).run
        (.begin (s.rollbackImport now jobId).1)).1 := by
  have hnone : ∀ log ∈ s.1.logs, log.isSuccessOf jobId = false := by
    intro log hlog
    refine Bool.eq_false_iff.mpr fun hsuccess => ?_
    have hjob : log.importJobId = some jobId :=
      of_decide_eq_true (Bool.and_eq_true_iff.mp hsuccess).1
    exact List.not_mem_nil (h.rows log hlog hjob)
  have hlogs : (s.rollbackImport now jobId).1.logs = s.1.logs := by
    rcases rollbackImport_eq_or s now jobId with hafter | hafter
    · rw [hafter]
    · rw [hafter, Db.rollBack, Db.updateJob]
      refine (List.map_congr_left fun log hlog => ?_).trans (List.map_id _)
      rw [ImportLog.rollBack, hnone log hlog]
      rfl
  have himportable : Importable companyId provider (s.rollbackImport now jobId).1.logs
      (entries [(importType, .records [])]) :=
    ⟨List.nodup_nil, by simp [entries_records], by simp [entries_records]⟩
  rw [run_of_importable himportable, runImport_of_importable himportable]
  have hsame : (dbAfter companyId provider [(importType, .records [])]
      (s.rollbackImport now jobId).1).logs = s.1.logs := (List.append_nil _).trans hlogs
  obtain ⟨j, hj, hid, -, hsum⟩ := (kept_apply h (.rollback now jobId)).job
  refine ⟨⟨_, rfl, ⟨jobAfter companyId provider (importType, .records [])
      (s.rollbackImport now jobId).1.nextJobId, List.mem_append_right _ List.mem_cons_self,
      id_jobAfter _ _, rfl, ?_⟩, ?_⟩, ?_, j, hj, hid, hsum⟩
  · exact (List.countP_eq_zero.mpr fun log hlog => by simp [hnone log hlog]).symm
  · intro log hlog hsuccess
    rw [hnone log hlog] at hsuccess
    cases hsuccess
  · rw [successIds, hsame]
    rfl

/-- However long after an import its job is rolled back, a run of its records undoes that
exactly when there are none. -/
theorem undone_iff (companyId : ℕ) (provider : String) (batchSize batchSize' : ℕ+)
    (imports : List (ImportType × Fetch)) (s : Store) {jobIds : List ℕ}
    (hrun : ((runImport companyId provider batchSize imports).run (.begin s.1)).1 = .ok jobIds)
    {k jobId : ℕ} {importType : ImportType} {rs : List Record}
    (hi : imports[k]? = some (importType, .records rs)) (hjob : jobIds[k]? = some jobId)
    (later : List Operation) (now : ℚ) :
    Undone companyId provider importType jobId
        ((s.runImport companyId provider batchSize imports).after later).1
        (((s.runImport companyId provider batchSize imports).after later).rollbackImport now
          jobId).1
        ((((s.runImport companyId provider batchSize imports).after later).rollbackImport now
          jobId).runImport companyId provider batchSize' [(importType, .records rs)]).1
        ((runImport companyId provider batchSize' [(importType, .records rs)]).run (.begin
          (((s.runImport companyId provider batchSize imports).after later).rollbackImport now
            jobId).1)).1 ↔
      rs = [] := by
  obtain ⟨himportable, rfl⟩ := run_ok_iff.mp hrun
  have hk : k < imports.length := (List.getElem?_eq_some_iff.mp hi).1
  obtain rfl : s.1.nextJobId + k = jobId := by simpa [List.getElem?_range' hk] using hjob
  have hkept := kept_after (kept_import batchSize himportable hi) later
  constructor
  · intro h
    by_contra hrs
    obtain ⟨newId, hok, -⟩ := h.again
    exact not_importable (kept_apply hkept (.rollback now _)) hrs (run_ok_iff.mp hok).1
  · rintro rfl
    exact undone_nil hkept

end

def oneCustomer : List Record := [⟨some "cus_1", none, true⟩]

/-- The jobs of a run of one customer and of no jobs. -/
theorem undone_noJobs :
    Undone 1 "stripe" .jobs 2
      (emptyStore.runImport 1 "stripe" 500
        [(.customers, .records oneCustomer), (.jobs, .records [])]).1
      ((emptyStore.runImport 1 "stripe" 500
        [(.customers, .records oneCustomer), (.jobs, .records [])]).rollbackImport 7 2).1
      (((emptyStore.runImport 1 "stripe" 500
        [(.customers, .records oneCustomer), (.jobs, .records [])]).rollbackImport 7 2).runImport 1
          "stripe" 500 [(.jobs, .records [])]).1
      ((runImport 1 "stripe" 500 [(.jobs, .records [])]).run (.begin
        ((emptyStore.runImport 1 "stripe" 500
          [(.customers, .records oneCustomer), (.jobs, .records [])]).rollbackImport 7 2).1)).1 :=
  have hrun : ((runImport 1 "stripe" 500
      [(.customers, .records oneCustomer), (.jobs, .records [])]).run (.begin emptyStore.1)).1 =
      .ok [1, 2] := by decide
  (undone_iff 1 "stripe" 500 500 [(.customers, .records oneCustomer), (.jobs, .records [])]
    emptyStore hrun (k := 1) rfl rfl [] 7).mpr rfl

/-- One customer is imported and rolled back, and the next run of the list raises. -/
theorem oneCustomer_not_undone :
    ¬Undone 1 "stripe" .customers 1
      (emptyStore.runImport 1 "stripe" 500 [(.customers, .records oneCustomer)]).1
      ((emptyStore.runImport 1 "stripe" 500
        [(.customers, .records oneCustomer)]).rollbackImport 7 1).1
      (((emptyStore.runImport 1 "stripe" 500
        [(.customers, .records oneCustomer)]).rollbackImport 7 1).runImport 1 "stripe" 500
          [(.customers, .records oneCustomer)]).1
      ((runImport 1 "stripe" 500 [(.customers, .records oneCustomer)]).run (.begin
        ((emptyStore.runImport 1 "stripe" 500
          [(.customers, .records oneCustomer)]).rollbackImport 7 1).1)).1 := by
  intro h
  obtain ⟨newId, hok, -⟩ := h.again
  have hraises : ((runImport 1 "stripe" 500 [(.customers, .records oneCustomer)]).run (.begin
      ((emptyStore.runImport 1 "stripe" 500
        [(.customers, .records oneCustomer)]).rollbackImport 7 1).1)).1.toBool = false := by
    decide
  rw [hok] at hraises
  cases hraises

end WorkTicket.Integrations
