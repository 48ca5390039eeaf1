import WorkTicket.Tasks.StaleJobs

/-! The beat task that completes the jobs whose AI output was stored although their state never
reached `completed`. It looks at a hundred outputs, whichever the database returns first. -/

namespace WorkTicket.Tasks.OrphanRecovery

open WorkTicket.Billing WorkTicket.Tasks.StaleJobs

/-- The columns of `ai_outputs` that the task reads. -/
structure AIOutput where
  id : ℕ
  jobId : JobId
  deriving DecidableEq, Repr

def scanLimit : ℕ := 100

inductive Report
  | skipped (reason : String)
  | recovered (count : ℕ)
  | error
  deriving DecidableEq, Repr

/-- What a run meets: the rows other transactions hold, the outputs for which a statement fails,
and whether the commit succeeds. -/
structure Env where
  locked : JobId → Bool
  raises : AIOutput → Bool
  commits : Bool

/-- The open transaction; a failed statement loses it, also when the exception is only logged. -/
structure Scan where
  db : Db
  recovered : ℕ
  lost : Bool

def inFlight (state : Option AIProcessingState) : Bool :=
  state ≠ some .completed && (state = some .processing || state = some .reserved)

def completeJob (now : Time) (db : Db) (job : Job) : Db :=
  let moved := transitionJobState now .completed false (db.accounts job.companyId)
    (db.job? job.id job.companyId)
  db.write job.companyId moved.2.1 moved.2.2

/-- The body of the loop. The result of the transition is not looked at. -/
def recoverOutput (now : Time) (env : Env) (s : Scan) (output : AIOutput) : Scan :=
  if s.lost || env.raises output then { s with lost := true }
  else match s.db.jobs.find? fun j => j.id = output.jobId && !env.locked j.id with
  | none => s
  | some job =>
    if inFlight job.aiProcessingState then
      { s with db := completeJob now s.db job, recovered := s.recovered + 1 }
    else s

def scanOutputs (now : Time) (env : Env) (db : Db) (outputs : List AIOutput) : Scan :=
  (outputs.take scanLimit).foldl (recoverOutput now env) ⟨db, 0, false⟩

def recoverOrphanedOutputs (aiDisabled acquired : Bool) (now : Time) (env : Env) (db : Db)
    (outputs : List AIOutput) : Db × Report :=
  if aiDisabled then (db, .skipped "ai_disabled")
  else if !acquired then (db, .skipped "concurrent_execution_locked")
  else
    let s := scanOutputs now env db outputs
    if s.recovered = 0 then (db, .recovered 0)
    else if !env.commits then (db, .error)
    -- the commit of a lost transaction rolls it back without an error
    else (if s.lost then db else s.db, .recovered s.recovered)

/-! ## What a successful run should do -/

def stateIn (db : Db) (id : JobId) : Option AIProcessingState :=
  (db.jobs.find? fun j => j.id = id).bind Job.aiProcessingState

/-- The jobs whose state differs after the run. -/
def changed (db db' : Db) : ℕ :=
  db.jobs.countP fun j => stateIn db' j.id ≠ j.aiProcessingState

def IsOrphan (outputs : List AIOutput) (j : Job) : Prop :=
  inFlight j.aiProcessingState = true ∧ ∃ o ∈ outputs, o.jobId = j.id

structure Recovered (outputs : List AIOutput) (db db' : Db) (count : ℕ) : Prop where
  complete : ∀ j ∈ db.jobs, IsOrphan outputs j → inFlight (stateIn db' j.id) = false
  counted : count = changed db db'

/-- A job that the scan can complete. -/
structure Recoverable (env : Env) (outputs : List AIOutput) (j : Job) : Prop where
  processing : j.aiProcessingState = some .processing
  unlocked : env.locked j.id = false
  listed : ∃ o ∈ outputs.take scanLimit, o.jobId = j.id
  smooth : ∀ o ∈ outputs.take scanLimit, env.raises o = false

/-! ## What the scan changes -/

section
variable {now : Time} {env : Env} {db : Db} {os outputs : List AIOutput} {o : AIOutput} {j : Job}

/-- The jobs that the outputs `os` complete. -/
def settles (env : Env) (os : List AIOutput) (j : Job) : Bool :=
  j.aiProcessingState = some .processing && !env.locked j.id && os.any fun o => o.jobId = j.id

def settled (now : Time) (j : Job) : Job :=
  Job.enter now .completed { j with stateCycleCounter := some 0, stateCycleResetAt := none }

def settle (now : Time) (env : Env) (os : List AIOutput) (j : Job) : Job :=
  if settles env os j then settled now j else j

theorem settle_id : (settle now env os j).id = j.id := by
  unfold settle
  split <;> rfl

theorem inFlight_iff {state : Option AIProcessingState} :
    inFlight state = true ↔ state = some .processing ∨ state = some .reserved := by
  rcases state with _ | _ | _ | _ | _ | _ | _ | _ <;> decide

/-- The transition table has no edge from `reserved` to `completed`. -/
theorem transition_completed (hflight : inFlight j.aiProcessingState = true)
    (account : Option BillingAccount) :
    (transitionJobState now .completed false account (some j)).2.2 =
      some (if j.aiProcessingState = some .processing then settled now j else j) := by
  rcases inFlight_iff.mp hflight with hstate | hstate
  · simp [transitionJobState, Job.current, hstate, validateTransition, allowedTransitions, settled]
  · simp [transitionJobState, Job.current, hstate, validateTransition, allowedTransitions]

theorem completeJob_jobs (hj : j ∈ db.jobs) (hflight : inFlight j.aiProcessingState = true) :
    (completeJob now db j).jobs = db.jobs.map fun i =>
      if i.id = j.id ∧ i.aiProcessingState = some .processing then settled now i else i := by
  unfold completeJob
  simp only [Db.job?_of_mem hj, Db.write, transition_completed hflight]
  apply List.map_congr_left
  intro i hi
  by_cases hid : i.id = j.id
  · obtain rfl := Db.eq_of_id hi hj hid
    by_cases hstate : i.aiProcessingState = some .processing
    · simp [hstate, settled, Job.enter, Option.filter]
    · simp [hstate, Option.filter]
  · have hne : ¬j.id = i.id := fun h => hid h.symm
    split <;> simp [settled, Job.enter, Option.filter, hne, hid]

/-- A lost transaction stays lost. -/
theorem foldl_lost (s : Scan) (h : s.lost = true) :
    os.foldl (recoverOutput now env) s = s := by
  induction os with
  | nil => rfl
  | cons o os ih =>
    have hone : recoverOutput now env s o = s := by
      cases s
      simp_all [recoverOutput]
    rw [List.foldl_cons, hone, ih]

/-- One output settles its job, and is counted if the job is in flight. -/
theorem recoverOutput_cases (now : Time) (s : Scan) (hlost : s.lost = false)
    (hraises : env.raises o = false) :
    (∃ j ∈ s.db.jobs, j.id = o.jobId ∧ env.locked j.id = false ∧
      inFlight j.aiProcessingState = true ∧ recoverOutput now env s o =
        { s with db := completeJob now s.db j, recovered := s.recovered + 1 }) ∨
      (∀ j ∈ s.db.jobs, j.id = o.jobId → env.locked j.id = false →
        inFlight j.aiProcessingState = false) ∧ recoverOutput now env s o = s := by
  have hopen : (s.lost || env.raises o) = false := by rw [hlost, hraises]; rfl
  unfold recoverOutput
  rw [hopen, if_neg Bool.false_ne_true]
  cases hfind : s.db.jobs.find? fun j => j.id = o.jobId && !env.locked j.id with
  | none =>
    refine .inr ⟨fun j hj hid hfree => ?_, rfl⟩
    have hnot := List.find?_eq_none.mp hfind j hj
    rw [hfree] at hnot
    simp only [Bool.not_false, Bool.and_true, decide_eq_true_eq] at hnot
    exact absurd hid hnot
  | some j =>
    have hj := List.mem_of_find?_eq_some hfind
    have hp := List.find?_some hfind
    simp only [Bool.and_eq_true, decide_eq_true_eq, Bool.not_eq_true'] at hp
    by_cases hflight : inFlight j.aiProcessingState = true
    · exact .inl ⟨j, hj, hp.1, hp.2, hflight, if_pos hflight⟩
    · refine .inr ⟨fun i hi hid _ => ?_, if_neg hflight⟩
      rw [Db.eq_of_id hi hj (hid.trans hp.1.symm)]
      exact Bool.eq_false_iff.mpr hflight

theorem settles_singleton : settles env [o] j = true ↔
    j.aiProcessingState = some .processing ∧ env.locked j.id = false ∧ o.jobId = j.id := by
  simp [settles, and_assoc]

/-- Where nothing in flight is listed, nothing is settled. -/
theorem not_settles_of_none {jobs : List Job} (hnone : ∀ j ∈ jobs, j.id = o.jobId →
    env.locked j.id = false → inFlight j.aiProcessingState = false) (hj : j ∈ jobs) :
    ¬settles env [o] j = true := by
  intro hsettles
  obtain ⟨hstate, hfree, hjob⟩ := settles_singleton.mp hsettles
  have hflight := hnone j hj hjob.symm hfree
  rw [hstate] at hflight
  cases hflight

/-- The output of `j` settles the jobs in processing that have the id of `j`. -/
theorem settles_iff_of_output {i : Job} (hid : j.id = o.jobId) (hfree : env.locked j.id = false) :
    settles env [o] i = true ↔ i.id = j.id ∧ i.aiProcessingState = some .processing := by
  rw [settles_singleton]
  constructor
  · rintro ⟨hstate, -, hjob⟩
    exact ⟨hjob.symm.trans hid.symm, hstate⟩
  · rintro ⟨hsame, hstate⟩
    exact ⟨hstate, hsame ▸ hfree, hid.symm.trans hsame.symm⟩

theorem recoverOutput_jobs (now : Time) (s : Scan) (hlost : s.lost = false)
    (hraises : env.raises o = false) :
    (recoverOutput now env s o).db.jobs = s.db.jobs.map (settle now env [o]) := by
  rcases recoverOutput_cases now s hlost hraises with
    ⟨j, hj, hid, hfree, hflight, hstep⟩ | ⟨hnone, hstep⟩
  · rw [hstep, completeJob_jobs hj hflight]
    apply List.map_congr_left
    intro i hi
    rw [settle, if_congr (settles_iff_of_output hid hfree) rfl rfl]
  · have hfix : ∀ i ∈ s.db.jobs, settle now env [o] i = i :=
      fun i hi => if_neg (not_settles_of_none hnone hi)
    rw [hstep, List.map_congr_left hfix, List.map_id']

theorem recoverOutput_lost (s : Scan) (hlost : s.lost = false) (hraises : env.raises o = false) :
    (recoverOutput now env s o).lost = false := by
  rcases recoverOutput_cases now s hlost hraises with ⟨_, _, _, _, _, hstep⟩ | ⟨_, hstep⟩
  · rw [hstep]
    exact hlost
  · rw [hstep]
    exact hlost

theorem settles_cons_of_pos (h : settles env [o] j = true) : settles env (o :: os) j = true := by
  obtain ⟨hstate, hfree, hjob⟩ := settles_singleton.mp h
  simp [settles, hstate, hfree, hjob]

theorem settles_cons_of_neg (h : ¬settles env [o] j = true) :
    settles env (o :: os) j = settles env os j := by
  rw [settles_singleton] at h
  by_cases hjob : o.jobId = j.id
  · by_cases hstate : j.aiProcessingState = some .processing <;> simp_all [settles]
  · simp [settles, hjob]

/-- A settled job is not settled again. -/
theorem settles_settled : settles env os (settled now j) = false := rfl

theorem settle_cons :
    settle now env os (settle now env [o] j) = settle now env (o :: os) j := by
  unfold settle
  by_cases hone : settles env [o] j = true
  · rw [if_pos hone, settles_settled, settles_cons_of_pos hone, if_neg Bool.false_ne_true,
      if_pos rfl]
  · rw [if_neg hone, settles_cons_of_neg hone]

theorem foldl_jobs (s : Scan) (hlost : s.lost = false) (hraises : ∀ o ∈ os, env.raises o = false) :
    (os.foldl (recoverOutput now env) s).lost = false ∧
      (os.foldl (recoverOutput now env) s).db.jobs = s.db.jobs.map (settle now env os) := by
  induction os generalizing s with
  | nil =>
    have hfix : settle now env [] = id := by
      funext j
      simp [settle, settles]
    exact ⟨hlost, by rw [hfix, List.map_id]; rfl⟩
  | cons o os ih =>
    have ho := hraises o List.mem_cons_self
    obtain ⟨hend, hjobs⟩ := ih (recoverOutput now env s o) (recoverOutput_lost s hlost ho)
      fun o ho => hraises o (List.mem_cons_of_mem _ ho)
    refine ⟨hend, ?_⟩
    rw [List.foldl_cons, hjobs, recoverOutput_jobs now s hlost ho, List.map_map]
    exact List.map_congr_left fun j _ => settle_cons

theorem foldl_raised (s : Scan) (h : ∃ o ∈ os, env.raises o = true) :
    (os.foldl (recoverOutput now env) s).lost = true := by
  induction os generalizing s with
  | nil => simp at h
  | cons o os ih =>
    rw [List.foldl_cons]
    obtain ⟨o', ho', hraises⟩ := h
    rcases List.mem_cons.mp ho' with rfl | hmem
    · have hone : (recoverOutput now env s o').lost = true := by simp [recoverOutput, hraises]
      rw [foldl_lost _ hone]
      exact hone
    · exact ih _ ⟨o', hmem, hraises⟩

/-! ## The count -/

theorem countP_id (db : Db) (hj : j ∈ db.jobs) (p : Job → Bool) :
    (db.jobs.countP fun i => i.id = j.id && p i) = if p j then 1 else 0 := by
  have hone : (db.jobs.countP fun i => i.id = j.id) = 1 := by
    have hcount := List.count_eq_one_of_mem db.ids (List.mem_map_of_mem (f := Job.id) hj)
    rw [List.count, List.countP_map] at hcount
    exact hcount
  have hat : ∀ i ∈ db.jobs, ((decide (i.id = j.id) && p i) = true ↔
      (decide (i.id = j.id) && p j) = true) := by
    intro i hi
    by_cases hid : i.id = j.id
    · rw [Db.eq_of_id hi hj hid]
    · simp [hid]
  rw [List.countP_congr hat]
  split
  · rename_i hp
    simpa [hp] using hone
  · rename_i hp
    simp [hp]

/-- Without reserved orphans an output is counted exactly when it settles a job. -/
theorem recoverOutput_recovered (now : Time) (s : Scan) (hlost : s.lost = false)
    (hraises : env.raises o = false)
    (hreserved : ∀ j ∈ s.db.jobs, j.id = o.jobId → env.locked j.id = false →
      j.aiProcessingState ≠ some .reserved) :
    (recoverOutput now env s o).recovered =
      s.recovered + s.db.jobs.countP (settles env [o]) := by
  rcases recoverOutput_cases now s hlost hraises with
    ⟨j, hj, hid, hfree, hflight, hstep⟩ | ⟨hnone, hstep⟩
  · have hstate : j.aiProcessingState = some .processing :=
      (inFlight_iff.mp hflight).resolve_right (hreserved j hj hid hfree)
    have hsettles : ∀ i ∈ s.db.jobs, (settles env [o] i = true ↔
        (decide (i.id = j.id) && decide (i.aiProcessingState = some .processing)) = true) := by
      intro i hi
      rw [settles_iff_of_output hid hfree, Bool.and_eq_true, decide_eq_true_eq, decide_eq_true_eq]
    rw [hstep, List.countP_congr hsettles, countP_id s.db hj, if_pos (decide_eq_true hstate)]
  · have hzero : s.db.jobs.countP (settles env [o]) = 0 :=
      List.countP_eq_zero.mpr fun i hi => not_settles_of_none hnone hi
    rw [hstep, hzero, Nat.add_zero]

theorem countP_settles_cons (jobs : List Job) :
    jobs.countP (settles env [o]) + (jobs.map (settle now env [o])).countP (settles env os) =
      jobs.countP (settles env (o :: os)) := by
  induction jobs with
  | nil => rfl
  | cons j jobs ih =>
    rw [List.map_cons, List.countP_cons, List.countP_cons, List.countP_cons, ← ih]
    by_cases hone : settles env [o] j = true
    · have hj : settle now env [o] j = settled now j := if_pos hone
      rw [hj, settles_settled, hone, settles_cons_of_pos hone, if_pos rfl,
        if_neg Bool.false_ne_true]
      omega
    · have hj : settle now env [o] j = j := if_neg hone
      have hall : settles env (o :: os) j = settles env os j := settles_cons_of_neg hone
      rw [hj, hall, if_neg hone]
      omega

theorem foldl_recovered (s : Scan) (hlost : s.lost = false)
    (hraises : ∀ o ∈ os, env.raises o = false)
    (hreserved : ∀ j ∈ s.db.jobs, (∃ o ∈ os, o.jobId = j.id) → env.locked j.id = false →
      j.aiProcessingState ≠ some .reserved) :
    (os.foldl (recoverOutput now env) s).recovered =
      s.recovered + s.db.jobs.countP (settles env os) := by
  induction os generalizing s with
  | nil =>
    have hzero : s.db.jobs.countP (settles env []) = 0 := by simp [settles]
    rw [List.foldl_nil, hzero, Nat.add_zero]
  | cons o os ih =>
    have ho := hraises o List.mem_cons_self
    have hjobs := recoverOutput_jobs now s hlost ho
    have hstep := recoverOutput_recovered now s hlost ho fun j hj hid =>
      hreserved j hj ⟨o, List.mem_cons_self, hid.symm⟩
    have hrest : ∀ j ∈ (recoverOutput now env s o).db.jobs, (∃ o ∈ os, o.jobId = j.id) →
        env.locked j.id = false → j.aiProcessingState ≠ some .reserved := by
      intro j hj hlisted hfree
      rw [hjobs] at hj
      obtain ⟨i, hi, rfl⟩ := List.mem_map.mp hj
      rw [settle_id] at hlisted hfree
      obtain ⟨o', ho', hjob⟩ := hlisted
      unfold settle
      split
      · exact nofun
      · exact hreserved i hi ⟨o', List.mem_cons_of_mem _ ho', hjob⟩ hfree
    rw [List.foldl_cons, ih _ (recoverOutput_lost s hlost ho)
      (fun o ho => hraises o (List.mem_cons_of_mem _ ho)) hrest, hstep, hjobs,
      Nat.add_assoc, countP_settles_cons]

/-! ## The database after a run -/

theorem stateIn_of_mem {db' : Db} (f : Job → Job) (hid : ∀ i, (f i).id = i.id)
    (hjobs : db'.jobs = db.jobs.map f) (hj : j ∈ db.jobs) :
    stateIn db' j.id = (f j).aiProcessingState := by
  have hp : (fun i : Job => decide (i.id = j.id)) ∘ f = fun i => decide (i.id = j.id) := by
    funext i
    rw [Function.comp_apply, hid]
  unfold stateIn
  rw [hjobs, List.find?_map, hp]
  cases hfind : db.jobs.find? fun i => i.id = j.id with
  | none => simpa using List.find?_eq_none.mp hfind j hj
  | some i =>
    have hsame := List.find?_some hfind
    rw [decide_eq_true_eq] at hsame
    rw [Db.eq_of_id (List.mem_of_find?_eq_some hfind) hj hsame]
    rfl

theorem stateIn_self (hj : j ∈ db.jobs) : stateIn db j.id = j.aiProcessingState :=
  stateIn_of_mem id (fun _ => rfl) (List.map_id _).symm hj

theorem changed_self (db : Db) : changed db db = 0 := by
  apply List.countP_eq_zero.mpr
  intro j hj hne
  exact of_decide_eq_true hne (stateIn_self hj)

theorem changed_of_settle {db' : Db} (hjobs : db'.jobs = db.jobs.map (settle now env os)) :
    changed db db' = db.jobs.countP (settles env os) := by
  apply List.countP_congr
  intro j hj
  rw [stateIn_of_mem _ (fun _ => settle_id) hjobs hj, decide_eq_true_eq, settle]
  by_cases hone : settles env os j = true
  · have hstate : j.aiProcessingState = some .processing := by
      simp only [settles, Bool.and_eq_true, decide_eq_true_eq] at hone
      exact hone.1.1
    simp [hone, hstate, settled, Job.enter]
  · simp [hone]

theorem foldl_idle (s : Scan)
    (h : ∀ j ∈ s.db.jobs, inFlight j.aiProcessingState = true → ∀ o ∈ os, o.jobId ≠ j.id) :
    (os.foldl (recoverOutput now env) s).recovered = s.recovered := by
  induction os generalizing s with
  | nil => rfl
  | cons o os ih =>
    have hone : recoverOutput now env s o = { s with lost := s.lost || env.raises o } := by
      by_cases hraises : (s.lost || env.raises o) = true
      · simp [recoverOutput, hraises]
      · obtain ⟨hlost, ho⟩ := Bool.or_eq_false_iff.mp (Bool.eq_false_iff.mpr hraises)
        rcases recoverOutput_cases now s hlost ho with ⟨j, hj, hid, _, hflight, _⟩ | ⟨_, hstep⟩
        · exact absurd hid.symm (h j hj hflight o List.mem_cons_self)
        · rw [hstep, hlost, ho]
          cases s
          cases hlost
          rfl
    rw [List.foldl_cons, hone]
    exact ih _ fun j hj hflight o ho => h j hj hflight o (List.mem_cons_of_mem _ ho)

/-- A run that reports a number has kept what it scanned, or nothing. -/
theorem recoverOrphanedOutputs_cases {aiDisabled acquired : Bool} {n : ℕ}
    (h : (recoverOrphanedOutputs aiDisabled acquired now env db outputs).2 = .recovered n) :
    n = (scanOutputs now env db outputs).recovered ∧
      (recoverOrphanedOutputs aiDisabled acquired now env db outputs).1 =
        if n = 0 ∨ (scanOutputs now env db outputs).lost = true then db
        else (scanOutputs now env db outputs).db := by
  unfold recoverOrphanedOutputs at h ⊢
  simp only at h ⊢
  split_ifs at h ⊢ <;> simp_all

theorem inFlight_settle (hflight : inFlight j.aiProcessingState = true) :
    inFlight (settle now env os j).aiProcessingState = false ↔ settles env os j = true := by
  unfold settle
  split
  · rename_i hone
    exact iff_of_true rfl hone
  · rename_i hone
    rw [hflight]
    exact iff_of_false nofun hone

theorem scanOutputs_smooth (now : Time) (db : Db)
    (hsmooth : ∀ o ∈ outputs.take scanLimit, env.raises o = false) :
    (scanOutputs now env db outputs).lost = false ∧ (scanOutputs now env db outputs).db.jobs =
      db.jobs.map (settle now env (outputs.take scanLimit)) :=
  foldl_jobs ⟨db, 0, false⟩ rfl hsmooth

theorem scanOutputs_idle (hnone : ∀ j ∈ db.jobs, ¬IsOrphan outputs j) :
    (scanOutputs now env db outputs).recovered = 0 := by
  apply foldl_idle (⟨db, 0, false⟩ : Scan)
  intro j hj hflight o ho hjob
  exact hnone j hj ⟨hflight, o, List.mem_of_mem_take ho, hjob⟩

theorem not_complete_self (hj : j ∈ db.jobs) (horphan : IsOrphan outputs j) :
    inFlight (stateIn db j.id) = true := by
  rw [stateIn_self hj]
  exact horphan.1

/-- What the scan has completed, it could complete. -/
theorem recoverable_of_settled (hlost : ¬(scanOutputs now env db outputs).lost = true)
    (hj : j ∈ db.jobs) (horphan : IsOrphan outputs j)
    (hstate : inFlight (stateIn (scanOutputs now env db outputs).db j.id) = false) :
    Recoverable env outputs j := by
  have hsmooth : ∀ o ∈ outputs.take scanLimit, env.raises o = false := by
    intro o ho
    by_contra hraises
    rw [Bool.not_eq_false] at hraises
    exact hlost (foldl_raised _ ⟨o, ho, hraises⟩)
  obtain ⟨-, hjobs⟩ := scanOutputs_smooth now db hsmooth
  rw [stateIn_of_mem _ (fun _ => settle_id) hjobs hj, inFlight_settle horphan.1] at hstate
  simp only [settles, Bool.and_eq_true, decide_eq_true_eq, Bool.not_eq_true',
    List.any_eq_true] at hstate
  exact ⟨hstate.1.1, hstate.1.2, hstate.2, hsmooth⟩

section
variable (hall : ∀ j ∈ db.jobs, IsOrphan outputs j → Recoverable env outputs j)
include hall

theorem settles_of_recoverable (hj : j ∈ db.jobs) (horphan : IsOrphan outputs j) :
    settles env (outputs.take scanLimit) j = true := by
  have hj := hall j hj horphan
  simp [settles, hj.processing, hj.unlocked, hj.listed]

theorem recovered_eq_countP (hsmooth : ∀ o ∈ outputs.take scanLimit, env.raises o = false) :
    (scanOutputs now env db outputs).recovered =
      db.jobs.countP (settles env (outputs.take scanLimit)) := by
  rw [scanOutputs, foldl_recovered _ rfl hsmooth, Nat.zero_add]
  rintro j hj ⟨o, ho, hjob⟩ - hreserved
  have hflight : inFlight j.aiProcessingState = true := inFlight_iff.mpr (.inr hreserved)
  have hprocessing := (hall j hj ⟨hflight, o, List.mem_of_mem_take ho, hjob⟩).processing
  rw [hreserved] at hprocessing
  cases hprocessing

theorem recovered_of_recoverable
    (hsmooth : ∀ o ∈ outputs.take scanLimit, env.raises o = false) :
    Recovered outputs db (scanOutputs now env db outputs).db
      (scanOutputs now env db outputs).recovered := by
  obtain ⟨-, hjobs⟩ := scanOutputs_smooth now db hsmooth
  refine ⟨fun j hj horphan => ?_, ?_⟩
  · rw [stateIn_of_mem _ (fun _ => settle_id) hjobs hj]
    exact (inFlight_settle horphan.1).mpr (settles_of_recoverable hall hj horphan)
  · rw [recovered_eq_countP hall hsmooth, changed_of_settle hjobs]

end

/-- A run that reports a number is complete, and the number right, exactly when the scan can
complete every orphan. -/
theorem recovered_iff_recoverable {aiDisabled acquired : Bool} {n : ℕ}
    (h : (recoverOrphanedOutputs aiDisabled acquired now env db outputs).2 = .recovered n) :
    Recovered outputs db (recoverOrphanedOutputs aiDisabled acquired now env db outputs).1 n ↔
      ∀ j ∈ db.jobs, IsOrphan outputs j → Recoverable env outputs j := by
  obtain ⟨hn, hdb⟩ := recoverOrphanedOutputs_cases h
  rw [hdb]
  by_cases hnone : ∀ j ∈ db.jobs, ¬IsOrphan outputs j
  · have hzero : n = 0 := hn.trans (scanOutputs_idle hnone)
    rw [if_pos (.inl hzero)]
    refine iff_of_true ⟨fun j hj horphan => absurd horphan (hnone j hj), ?_⟩ fun j hj horphan =>
      absurd horphan (hnone j hj)
    rw [hzero, changed_self]
  push Not at hnone
  obtain ⟨j₀, hj₀, horphan₀⟩ := hnone
  constructor
  · rintro ⟨hcomplete, -⟩ j hj horphan
    have hkept : ¬(n = 0 ∨ (scanOutputs now env db outputs).lost = true) := by
      intro hlost
      have hstate := hcomplete j hj horphan
      rw [if_pos hlost, not_complete_self hj horphan] at hstate
      cases hstate
    have hstate := hcomplete j hj horphan
    rw [if_neg hkept] at hstate
    exact recoverable_of_settled (not_or.mp hkept).2 hj horphan hstate
  · intro hall
    have hsmooth := (hall j₀ hj₀ horphan₀).smooth
    have hlost : (scanOutputs now env db outputs).lost = false := (scanOutputs_smooth now db hsmooth).1
    have hpos : n ≠ 0 := by
      rw [hn, recovered_eq_countP hall hsmooth]
      have hsettles := settles_of_recoverable hall hj₀ horphan₀
      exact (List.countP_pos_iff.mpr ⟨j₀, hj₀, hsettles⟩).ne'
    have hkept : ¬(n = 0 ∨ (scanOutputs now env db outputs).lost = true) := by
      rw [hlost]
      exact not_or.mpr ⟨hpos, Bool.false_ne_true⟩
    rw [if_neg hkept, hn]
    exact recovered_of_recoverable hall hsmooth

end

def job (id : JobId) (state : AIProcessingState) : Job :=
  ⟨id, 1, some state, none, none, none, none⟩

def quiet : Env := ⟨fun _ => false, fun _ => false, true⟩

/-- Two jobs whose output was stored while they were still in flight. -/
def twoJobs : Db := ⟨[job 7 .processing, job 8 .reserved], fun _ => none, by decide⟩

theorem recovered_iff_recoverable_twoJobs :
    Recovered [⟨1, 7⟩, ⟨2, 8⟩] twoJobs
      (recoverOrphanedOutputs false true 0 quiet twoJobs [⟨1, 7⟩, ⟨2, 8⟩]).1 2 ↔
      ∀ j ∈ twoJobs.jobs, IsOrphan [⟨1, 7⟩, ⟨2, 8⟩] j → Recoverable quiet [⟨1, 7⟩, ⟨2, 8⟩] j :=
  recovered_iff_recoverable (by decide)

/-- The reserved job is counted and stays reserved. -/
theorem not_recovered_twoJobs : ¬∀ aiDisabled acquired now env db outputs n,
    (recoverOrphanedOutputs aiDisabled acquired now env db outputs).2 = .recovered n →
      Recovered outputs db (recoverOrphanedOutputs aiDisabled acquired now env db outputs).1 n := by
  intro h
  have hrecovered := h false true 0 quiet twoJobs [⟨1, 7⟩, ⟨2, 8⟩] 2 (by decide)
  have hcount : changed twoJobs
      (recoverOrphanedOutputs false true 0 quiet twoJobs [⟨1, 7⟩, ⟨2, 8⟩]).1 = 1 := by
    decide
  exact absurd (hrecovered.counted.trans hcount) (by decide)

end WorkTicket.Tasks.OrphanRecovery
