import WorkTicket.Integrations.ServiceMethods

/-! Two runs of an import on tables that hold the same rows of the company: they write the same
rows for it and leave the rows of the others alone. -/

namespace WorkTicket.Integrations

open Transaction TenantTables

def Db.own (A : ℕ) (db : Db) : Db where
  jobs := TenantTables.own (·.companyId) A db.jobs
  logs := TenantTables.own (·.companyId) A db.logs
  nextJobId := db.nextJobId

def Db.others (A : ℕ) (db : Db) : List ImportJob × List ImportLog :=
  (TenantTables.others (·.companyId) A db.jobs, TenantTables.others (·.companyId) A db.logs)

/-- What the two runs have when they started with the rows `O` and `O'` of other companies. -/
structure Paired (A : ℕ) (O O' : List ImportJob × List ImportLog) (s s' : Db) : Prop where
  valid : s.Valid
  valid' : s'.Valid
  own : s.own A = s'.own A
  others : s.others A = O
  others' : s'.others A = O'

/-- The same, where the job is the company's. -/
structure PairedAt (A : ℕ) (O O' : List ImportJob × List ImportLog) (jobId : ℕ) (s s' : Db) : Prop
    extends Paired A O O' s s' where
  owns : Owns jobColumns A s.jobs jobId

section
variable {A : ℕ} {O O' : List ImportJob × List ImportLog} {s s' : Db} {jobId : ℕ}

theorem Db.Valid.keyed (h : s.Valid) : Keyed jobColumns s.jobs s.nextJobId :=
  ⟨h.jobsNodup, h.jobIds⟩

theorem Paired.jobs_own (h : Paired A O O' s s') :
    TenantTables.own (·.companyId) A s.jobs = TenantTables.own (·.companyId) A s'.jobs :=
  congrArg Db.jobs h.own

theorem Paired.logs_own (h : Paired A O O' s s') :
    TenantTables.own (·.companyId) A s.logs = TenantTables.own (·.companyId) A s'.logs :=
  congrArg Db.logs h.own

theorem Paired.nextJobId_eq (h : Paired A O O' s s') : s.nextJobId = s'.nextJobId :=
  (congrArg Db.nextJobId h.own : (s.own A).nextJobId = (s'.own A).nextJobId)

theorem PairedAt.owns' (h : PairedAt A O O' jobId s s') : Owns jobColumns A s'.jobs jobId := by
  have howns := owns_own.mpr h.owns
  rw [show TenantTables.own jobColumns.company A s.jobs =
    TenantTables.own jobColumns.company A s'.jobs from h.jobs_own] at howns
  exact owns_own.mp howns

theorem hasJob_of_owns (h : Owns jobColumns A s.jobs jobId) : s.hasJob jobId = true := by
  obtain ⟨j, hj, hid, -⟩ := h
  exact List.any_eq_true.mpr ⟨j, hj, decide_eq_true hid⟩

/-! ## One statement -/

theorem owns_updateJob {id : ℕ} {f : ImportJob → ImportJob} (hid : ∀ j, (f j).id = j.id)
    (hcompany : ∀ j, (f j).companyId = j.companyId) (h : Owns jobColumns A s.jobs jobId) :
    Owns jobColumns A (s.updateJob id f).jobs jobId := by
  obtain ⟨j, hj, hjid, hjcompany⟩ := h
  refine ⟨_, List.mem_map_of_mem hj, ?_, ?_⟩
  · rw [← hjid]
    split
    · exact hid j
    · rfl
  · rw [← hjcompany]
    split
    · exact hcompany j
    · rfl

theorem others_updateJob {f : ImportJob → ImportJob} (hvalid : s.Valid)
    (howns : Owns jobColumns A s.jobs jobId) (hcompany : ∀ j, (f j).companyId = j.companyId) :
    (s.updateJob jobId f).others A = s.others A :=
  Prod.ext (others_update hvalid.keyed howns hcompany) rfl

theorem PairedAt.updateJob (h : PairedAt A O O' jobId s s') {f : ImportJob → ImportJob}
    (hid : ∀ j, (f j).id = j.id) (hcompany : ∀ j, (f j).companyId = j.companyId) :
    PairedAt A O O' jobId (s.updateJob jobId f) (s'.updateJob jobId f) := by
  have hown : ∀ d : Db, (d.updateJob jobId f).own A =
      { d.own A with jobs := update jobColumns (d.own A).jobs jobId f } := by
    intro d
    exact congrArg (fun jobs => { d.own A with jobs := jobs }) (own_update (c := jobColumns) hcompany)
  refine ⟨⟨valid_updateJob h.valid jobId hid, valid_updateJob h.valid' jobId hid, ?_, ?_, ?_⟩,
    owns_updateJob hid hcompany h.owns⟩
  · rw [hown, hown, h.own]
  · exact (others_updateJob h.valid h.owns hcompany).trans h.others
  · exact (others_updateJob h.valid' h.owns' hcompany).trans h.others'

theorem own_newJob (provider : String) (importType : ImportType) (d : Db) :
    Db.own A { d with
      jobs := d.jobs ++ [newJob A provider importType d.nextJobId]
      nextJobId := d.nextJobId + 1 } =
    { d.own A with
      jobs := (d.own A).jobs ++ [newJob A provider importType (d.own A).nextJobId]
      nextJobId := (d.own A).nextJobId + 1 } :=
  congrArg (fun jobs => Db.mk jobs (d.own A).logs (d.nextJobId + 1))
    (own_append ImportJob.companyId rfl)

theorem others_newJob (provider : String) (importType : ImportType) (d : Db) :
    Db.others A { d with
      jobs := d.jobs ++ [newJob A provider importType d.nextJobId]
      nextJobId := d.nextJobId + 1 } = d.others A :=
  Prod.ext (others_append ImportJob.companyId rfl) rfl

/-- The new job has the same key in both runs. -/
theorem Paired.newJob (h : Paired A O O' s s') (provider : String) (importType : ImportType) :
    PairedAt A O O' s.nextJobId
      { s with
        jobs := s.jobs ++ [newJob A provider importType s.nextJobId]
        nextJobId := s.nextJobId + 1 }
      { s' with
        jobs := s'.jobs ++ [Integrations.newJob A provider importType s'.nextJobId]
        nextJobId := s'.nextJobId + 1 } := by
  refine ⟨⟨valid_newJob h.valid importType, valid_newJob h.valid' importType, ?_, ?_, ?_⟩, ?_⟩
  · rw [own_newJob, own_newJob, h.own]
  · exact (others_newJob provider importType s).trans h.others
  · exact (others_newJob provider importType s').trans h.others'
  · exact ⟨_, List.mem_append_right _ (List.mem_singleton_self _), rfl, rfl⟩

theorem key_mem_iff (h : Paired A O O' s s') {k : LogKey} (hk : k.companyId = A) :
    k ∈ s.logs.map ImportLog.key ↔ k ∈ s'.logs.map ImportLog.key := by
  refine mem_map_iff h.logs_own fun l hl => ?_
  rw [← hk, ← hl]
  rfl

theorem PairedAt.addLog (h : PairedAt A O O' jobId s s') {log : ImportLog} {jsonable : Bool}
    (hcompany : log.companyId = A) (haccepts : s.Accepts log jsonable)
    (haccepts' : s'.Accepts log jsonable) :
    PairedAt A O O' jobId (s.addLog log) (s'.addLog log) := by
  have hown : ∀ d : Db, (d.addLog log).own A = { d.own A with logs := (d.own A).logs ++ [log] } :=
    fun d => congrArg (fun logs => { d.own A with logs := logs })
      (own_append ImportLog.companyId hcompany)
  have hothers : ∀ d : Db, (d.addLog log).others A = d.others A :=
    fun d => Prod.ext rfl (others_append ImportLog.companyId hcompany)
  refine ⟨⟨valid_addLog h.valid haccepts, valid_addLog h.valid' haccepts', ?_, ?_, ?_⟩, h.owns⟩
  · rw [hown, hown, h.own]
  · exact (hothers s).trans h.others
  · exact (hothers s').trans h.others'

/-- The insert takes the row in both runs, or finds the same wrong with it. -/
theorem insertLog_same (log : ImportLog) {jsonable : Bool}
    (hkey : log.key ∈ s.logs.map ImportLog.key ↔ log.key ∈ s'.logs.map ImportLog.key)
    (hhas : jsonable = true → fitsExternalId log.externalId = true →
      log.key ∉ s.logs.map ImportLog.key →
      log.importJobId.all s.hasJob = log.importJobId.all s'.hasJob) :
    (s.Accepts log jsonable ∧ s'.Accepts log jsonable) ∨
      ∃ e, insertLog log jsonable s = .error e ∧ insertLog log jsonable s' = .error e := by
  by_cases hjson : jsonable = true
  · by_cases hfits : fitsExternalId log.externalId = true
    · by_cases hmem : log.key ∈ s.logs.map ImportLog.key
      · have hmem' := hkey.mp hmem
        exact .inr ⟨_, by simp only [insertLog, hjson, hfits, if_pos hmem]; rfl,
          by simp only [insertLog, hjson, hfits, if_pos hmem']; rfl⟩
      · have hmem' := fun h => hmem (hkey.mpr h)
        have hsame := hhas hjson hfits hmem
        by_cases hjob : log.importJobId.all s.hasJob = true
        · exact .inl ⟨⟨hjson, hfits, hjob, hmem⟩, hjson, hfits, hsame ▸ hjob, hmem'⟩
        · have hjob' : ¬log.importJobId.all s'.hasJob = true := hsame ▸ hjob
          exact .inr ⟨_, by simp only [insertLog, hjson, hfits, if_neg hmem, hjob]; rfl,
            by simp only [insertLog, hjson, hfits, if_neg hmem', hjob']; rfl⟩
    · exact .inr ⟨_, by simp only [insertLog, hjson, hfits]; rfl,
        by simp only [insertLog, hjson, hfits]; rfl⟩
  · exact .inr ⟨_, by simp only [insertLog, hjson]; rfl, by simp only [insertLog, hjson]; rfl⟩

/-! ## The programs -/

/-- Two runs of the program that find the rows paired and the job there end alike, with the rows
paired. -/
abbrev AgreesAt {α : Type} (A : ℕ) (O O' : List ImportJob × List ImportLog) (jobId : ℕ)
    (x : Session Db α) : Prop :=
  x.Agrees (Paired A O O') (PairedAt A O O' jobId) fun _ => PairedAt A O O' jobId

variable {provider : String} {importType : ImportType}

theorem pure_agrees {α : Type} (a : α) : AgreesAt A O O' jobId (pure a) :=
  .pure fun _ _ h => h

theorem updateImportProgress_agrees (p : Progress) :
    AgreesAt A O O' jobId (updateImportProgress jobId p) :=
  .execute fun _ _ h => .inl ⟨(), _, _, rfl, rfl, h.updateJob (fun _ => rfl) fun _ => rfl⟩

theorem setTotalRecords_agrees (n : ℕ) : AgreesAt A O O' jobId (setTotalRecords jobId n) :=
  .execute fun _ _ h => .inl ⟨(), _, _, rfl, rfl, h.updateJob (fun _ => rfl) fun _ => rfl⟩

theorem logImportResult_agrees (externalId : String) (result : ImportResult)
    (errorMessage : Option String) (jsonable : Bool) :
    AgreesAt A O O' jobId
      (logImportResult A provider jobId externalId importType result errorMessage jsonable) := by
  refine .execute fun s s' h => ?_
  have hhas : (some jobId).all s.hasJob = (some jobId).all s'.hasJob := by
    rw [Option.all_some, Option.all_some, hasJob_of_owns h.owns, hasJob_of_owns h.owns']
  rcases insertLog_same
    ⟨A, some jobId, provider, externalId, importType, result, errorMessage⟩
    (key_mem_iff h.toPaired rfl) (fun _ _ _ => hhas) with ⟨haccepts, haccepts'⟩ | herror
  · exact .inl ⟨(), _, _, insertLog_of_accepts haccepts, insertLog_of_accepts haccepts',
      h.addLog rfl haccepts haccepts'⟩
  · exact .inr herror

theorem Paired.any_key_eq (h : Paired A O O' s s') {k : LogKey} (hk : k.companyId = A) :
    s.logs.any (fun log => log.key = k && log.result = .success) =
      s'.logs.any fun log => log.key = k && log.result = .success := by
  refine any_eq h.logs_own fun log hlog => ?_
  simp only [Bool.and_eq_true, decide_eq_true_eq] at hlog
  rw [← hk, ← hlog.1]
  rfl

theorem alreadyImported_agrees (externalId : String) :
    AgreesAt A O O' jobId (alreadyImported A provider externalId importType) :=
  .execute fun s s' h => .inl ⟨_, s, s', rfl, by rw [h.any_key_eq rfl], h⟩

theorem tryRecord_agrees (c : Counts) (r : Record × ℕ) :
    AgreesAt A O O' jobId (tryRecord A provider jobId importType c r) := by
  refine (alreadyImported_agrees _).seq fun found => ?_
  cases found with
  | true => exact (logImportResult_agrees _ _ _ _).seq fun _ => pure_agrees _
  | false => exact (logImportResult_agrees _ _ _ _).seq fun _ => pure_agrees _

theorem importRecord_agrees (total : ℕ) (c : Counts) (r : Record × ℕ) :
    AgreesAt A O O' jobId (importRecord A provider jobId importType total c r) := by
  refine .seq (.tryCatch (tryRecord_agrees c r) fun e => ?_) fun c => ?_
  · exact (logImportResult_agrees _ _ _ _).seq fun _ => pure_agrees _
  · exact (updateImportProgress_agrees _).seq fun _ => pure_agrees _

theorem importFetched_agrees (records : List Record) (batchSize : ℕ+) :
    AgreesAt A O O' jobId (importFetched A provider jobId importType records batchSize) := by
  refine (setTotalRecords_agrees _).seq fun _ => (updateImportProgress_agrees _).seq fun _ =>
    .seq ?_ fun c => updateImportProgress_agrees _
  exact .foldlM (fun c start => .foldlM (fun c r => importRecord_agrees _ c r) _ c) _ _

theorem fillJob_agrees (batchSize : ℕ+) (fetch : Fetch) :
    AgreesAt A O O' jobId (fillJob A provider batchSize jobId importType fetch) := by
  cases fetch with
  | noFetcher => exact updateImportProgress_agrees _
  | raises e => exact updateImportProgress_agrees _
  | records rs => exact (importFetched_agrees rs batchSize).tryCatch fun e =>
      updateImportProgress_agrees _

theorem dryRunJob_agrees (fetch : Fetch) :
    AgreesAt A O O' jobId (dryRunJob A provider jobId importType fetch) := by
  refine (updateImportProgress_agrees _).seq fun _ => ?_
  cases fetch with
  | noFetcher => exact updateImportProgress_agrees _
  | raises e => exact updateImportProgress_agrees _
  | records rs =>
    refine .tryCatch ?_ fun e => updateImportProgress_agrees _
    refine (setTotalRecords_agrees _).seq fun _ => .seq ?_ fun _ =>
      (updateImportProgress_agrees _).seq fun _ => setTotalRecords_agrees _
    exact .mapM (fun r => alreadyImported_agrees _) rs

theorem readJob_agrees : (readJob jobId).Agrees (Paired A O O') (PairedAt A O O' jobId)
    fun _ => Paired A O O' := by
  refine .execute fun s s' h => .inl ⟨_, s, s', rfl, ?_, h.toPaired⟩
  have hsame := Known.find_eq (.inr h.owns) h.valid.keyed (h.nextJobId_eq ▸ h.valid'.keyed)
    h.jobs_own
  exact congrArg (fun j => Except.ok (j, s')) hsame.symm

/-- The program of one type starts without its job. -/
abbrev AgreesOn {α : Type} (A : ℕ) (O O' : List ImportJob × List ImportLog) (x : Session Db α) :
    Prop :=
  x.Agrees (Paired A O O') (Paired A O O') fun _ => Paired A O O'

theorem createImportJob_agrees :
    (createImportJob A provider importType).Agrees (Paired A O O') (Paired A O O')
      fun jobId => PairedAt A O O' jobId :=
  .execute fun s s' h =>
    .inl ⟨s.nextJobId, _, _, rfl, by rw [h.nextJobId_eq], h.newJob provider importType⟩

theorem importJob_agrees (dryRun : Bool) (batchSize : ℕ+) (i : ImportType × Fetch) :
    AgreesOn A O O' (importJob A provider dryRun batchSize i) := by
  have hcreated : ∀ x : ℕ → Session Db Unit, (∀ jobId, AgreesAt A O O' jobId (x jobId)) →
      (do let jobId ← createImportJob A provider i.1; x jobId; return jobId : Session Db ℕ).Agrees
        (Paired A O O') (Paired A O O') fun jobId => PairedAt A O O' jobId := by
    intro x hx
    refine createImportJob_agrees.bind (fun jobId => (hx jobId).seq fun _ => ?_)
      fun _ _ _ h => h.toPaired
    exact .pure fun _ _ h => h
  cases dryRun with
  | true =>
    exact (hcreated _ fun jobId => dryRunJob_agrees i.2).bind (fun _ => readJob_agrees)
      fun _ _ _ h => h.toPaired
  | false =>
    exact (hcreated _ fun jobId => fillJob_agrees batchSize i.2).bind (fun _ => readJob_agrees)
      fun _ _ _ h => h.toPaired

end

end WorkTicket.Integrations
