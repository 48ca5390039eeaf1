import WorkTicket.Foundation.Transition

/-! The upload queue of the mobile app: a table on the device, which `processQueue` works through
whenever a timer, the network or the foreground calls it. Calls overlap: each awaits the network
between reading a row and writing it. -/

namespace WorkTicket.Mobile.OfflineQueue

inductive Status
  | pending
  | completed
  | failed
  deriving DecidableEq, Repr

structure Row where
  id : ℕ
  status : Status
  retryCount : ℕ
  deriving DecidableEq, Repr

def maxConcurrentUploads : ℕ := 3
def maxRetries : ℕ := 3
def maxTotalReplays : ℕ := 50

/-- The condition of `getPendingUploads`. -/
def Row.eligible (r : Row) : Bool := r.status = .pending && r.retryCount < maxRetries

def Row.complete (r : Row) : Row := { r with status := .completed }

/-- The `UPDATE` of `markFailed`. It does not look at the status that it replaces. -/
def Row.fail (r : Row) : Row :=
  { r with
    retryCount := r.retryCount + 1
    status := if maxRetries ≤ r.retryCount + 1 then .failed else .pending }

/-- `upload_queue`, whose ids are its primary key. -/
structure Queue where
  rows : List Row
  distinct : (rows.map Row.id).Nodup

def Queue.ids (q : Queue) : List ℕ := q.rows.map Row.id

def Queue.eligible (q : Queue) : List ℕ := (q.rows.filter Row.eligible).map Row.id

/-- The next id, larger than any in the table. -/
def Queue.nextId (q : Queue) : ℕ := q.ids.foldr max 0 + 1

theorem Queue.nextId_not_mem (q : Queue) : q.nextId ∉ q.ids := by
  have hle : ∀ ids : List ℕ, ∀ id ∈ ids, id ≤ ids.foldr max 0 := by
    intro ids
    induction ids with
    | nil => exact fun _ hid => absurd hid List.not_mem_nil
    | cons a ids ih =>
      intro id hid
      rcases List.mem_cons.mp hid with rfl | hid
      · exact le_max_left _ _
      · exact (ih id hid).trans (le_max_right _ _)
  intro hmem
  have h := hle _ _ hmem
  exact absurd h (Nat.not_succ_le_self _)

/-- `enqueueUpload`. -/
def Queue.enqueue (q : Queue) : Queue where
  rows := q.rows ++ [⟨q.nextId, .pending, 0⟩]
  distinct := by
    rw [List.map_append, List.nodup_append]
    refine ⟨q.distinct, List.nodup_singleton _, fun id hid id' hid' => ?_⟩
    obtain rfl : id' = q.nextId := by simpa using hid'
    rintro rfl
    exact q.nextId_not_mem hid

theorem map_id_update (rows : List Row) (id : ℕ) {f : Row → Row} (hf : ∀ r, (f r).id = r.id) :
    (rows.map fun r => if r.id = id then f r else r).map Row.id = rows.map Row.id := by
  rw [List.map_map]
  congr 1
  funext r
  by_cases hr : r.id = id
  · simp only [Function.comp_apply, if_pos hr, hf]
  · simp only [Function.comp_apply, if_neg hr]

/-- An `UPDATE` of one row. -/
def Queue.update (q : Queue) (id : ℕ) (f : Row → Row) (hf : ∀ r, (f r).id = r.id) : Queue where
  rows := q.rows.map fun r => if r.id = id then f r else r
  distinct := by
    rw [map_id_update _ _ hf]
    exact q.distinct

theorem Queue.ids_update {q : Queue} {id : ℕ} (f : Row → Row) (hf : ∀ r, (f r).id = r.id) :
    (q.update id f hf).ids = q.ids := map_id_update _ _ hf

theorem Queue.mem_update {q : Queue} {id : ℕ} {f : Row → Row} {hf : ∀ r, (f r).id = r.id} {r : Row}
    (hr : r ∈ (q.update id f hf).rows) :
    (r ∈ q.rows ∧ r.id ≠ id) ∨ ∃ r₀ ∈ q.rows, r₀.id = id ∧ r = f r₀ := by
  obtain ⟨r₀, hr₀, rfl⟩ := List.mem_map.mp hr
  by_cases hid : r₀.id = id
  · exact .inr ⟨r₀, hr₀, hid, if_pos hid⟩
  · rw [if_neg hid]
    exact .inl ⟨hr₀, hid⟩

def Queue.markComplete (q : Queue) (id : ℕ) : Queue := q.update id Row.complete fun _ => rfl
def Queue.markFailed (q : Queue) (id : ℕ) : Queue := q.update id Row.fail fun _ => rfl

/-! ## Attempts -/

/-- What an attempt awaits. `inTry` tells the `markFailed` of a missing file, whose error the
handler of `uploadSingle` gets, from the one in the handler. -/
inductive Stage
  | queued
  | getInfo
  | getUploadUrl
  | put
  | confirm (put2xx : Bool)
  | markComplete (put2xx : Bool)
  | markFailed (inTry : Bool)
  deriving DecidableEq, Repr

/-- How what an attempt awaits ends. `good` is whether the file exists, and whether the `PUT` is
answered with a 2xx status. -/
inductive Answer
  | resolved (good : Bool)
  | rejected
  deriving DecidableEq, Repr

/-- The course of `uploadSingle`; `none` when it has settled. The status of the `PUT` is not
looked at. -/
def Stage.next : Stage → Answer → Option Stage
  | .queued, _ => some .queued
  | .getInfo, .resolved exists? => some (if exists? then .getUploadUrl else .markFailed true)
  | .getUploadUrl, .resolved _ => some .put
  | .put, .resolved put2xx => some (.confirm put2xx)
  | .confirm put2xx, .resolved _ => some (.markComplete put2xx)
  | .markComplete _, .resolved _ => none
  | .markFailed _, .resolved _ => none
  | .markFailed false, .rejected => none
  | _, .rejected => some (.markFailed false)

/-- What the answer has written to the row. -/
def Stage.write (id : ℕ) (q : Queue) : Stage → Answer → Queue
  | .markComplete _, .resolved _ => q.markComplete id
  | .markFailed _, .resolved _ => q.markFailed id
  | _, _ => q

/-- The attempt on a row by a call of `processQueue`; `queued` is a row of a later batch. -/
structure Attempt where
  call : ℕ
  id : ℕ
  stage : Stage
  deriving DecidableEq, Repr

/-- The next batch of a call: `n` of its queued rows, in their order. -/
def startBatch (call : ℕ) : ℕ → List Attempt → List Attempt
  | 0, as => as
  | _ + 1, [] => []
  | n + 1, a :: as =>
    if a.call = call ∧ a.stage = .queued then
      { a with stage := .getInfo } :: startBatch call n as
    else a :: startBatch call (n + 1) as

/-- The other attempts, when one of them has its answer. -/
theorem exists_rest {as : List Attempt} {k : ℕ} {a : Attempt} (h : as[k]? = some a) :
    ∃ rest, as.Perm (a :: rest) ∧ (∀ b, (as.set k b).Perm (b :: rest)) ∧
      (as.eraseIdx k).Perm rest := by
  induction as generalizing k with
  | nil => cases h
  | cons a' as ih =>
    cases k with
    | zero =>
      obtain rfl : a' = a := Option.some.inj h
      exact ⟨as, .refl _, fun _ => .refl _, .refl _⟩
    | succ k =>
      obtain ⟨rest, hperm, hset, herase⟩ := ih h
      refine ⟨a' :: rest, ?_, fun b => ?_, herase.cons _⟩
      · exact (hperm.cons _).trans (.swap _ _ _)
      · exact ((hset b).cons _).trans (.swap _ _ _)

/-! ## Runs of the app -/

/-- `initPromise` with the database it opens. A promise that was rejected stays. -/
inductive Database
  | closed
  | opened
  | failed
  deriving DecidableEq, Repr

/-- Where a call of `processQueue` is. `attempted` is not read by any step. -/
inductive Call
  | begun
  | uploading (selected attempted : List ℕ)
  | analytics (selected attempted : List ℕ)
  deriving DecidableEq, Repr

/-- A call that has ended, with the rows it found eligible when it looked, or was refused. -/
structure Report where
  online : Bool
  authenticated : Bool
  eligible : List ℕ
  attempted : List ℕ
  deriving DecidableEq, Repr

/-- `succeeded` counts the attempts on a row whose `PUT` was answered with a 2xx status and whose
confirm call succeeded; it and the reports are not read by any step. -/
structure World where
  queue : Queue
  database : Database
  totalReplayCount : ℕ
  attempts : List Attempt
  calls : ℕ → Option Call
  succeeded : ℕ → ℕ
  reports : List Report

/-- An app that has just been installed or started. A row that is completed by then counts as one
that has succeeded. -/
def start (q : Queue) : World where
  queue := q
  database := .closed
  totalReplayCount := 0
  attempts := []
  calls := fun _ => none
  succeeded := fun id => if ∃ r ∈ q.rows, r.id = id ∧ r.status = .completed then 1 else 0
  reports := []

inductive Event
  | appStart
  | openDatabase (opens : Bool)
  | enqueueUpload
  | processQueue (call : ℕ) (online authenticated : Bool)
  | select (call : ℕ) (authenticated checkFails read : Bool)
  | nextBatch (call : ℕ)
  | answer (k : ℕ) (a : Answer)
  | endLoop (call : ℕ)
  | finish (call : ℕ) (analytics : Bool)
  deriving DecidableEq, Repr

def World.report (s : World) (r : Report) : World := { s with reports := s.reports ++ [r] }

def World.setCall (s : World) (call : ℕ) (c : Option Call) : World :=
  { s with calls := Function.update s.calls call c }

/-- The gates of `processQueue` before its first await. -/
def World.processQueue (s : World) (call : ℕ) (online authenticated : Bool) : World :=
  if !online || maxTotalReplays ≤ s.totalReplayCount then
    s.report ⟨online, authenticated, s.queue.eligible, []⟩
  else s.setCall call (some .begun)

/-- The check of the user, whose errors are only logged, and `getPendingUploads`. -/
def World.select (s : World) (call : ℕ) (authenticated checkFails read : Bool) : World :=
  let selected := s.queue.eligible
  if !checkFails && !authenticated then (s.setCall call none).report ⟨true, false, selected, []⟩
  else if s.database = .opened ∧ read = true then
    { s.setCall call (some (.uploading selected [])) with
      attempts := s.attempts ++ selected.map fun id => ⟨call, id, .queued⟩ }
  else (s.setCall call none).report ⟨true, authenticated, selected, []⟩

def World.nextBatch (s : World) (call : ℕ) (selected attempted : List ℕ) : World :=
  let started := (s.attempts.filter fun a => a.call = call ∧ a.stage = .queued).take
    maxConcurrentUploads
  { s.setCall call (some (.uploading selected (attempted ++ started.map Attempt.id))) with
    attempts := startBatch call maxConcurrentUploads s.attempts }

def World.answer (s : World) (k : ℕ) (attempt : Attempt) (a : Answer) : World :=
  { s with
    queue := attempt.stage.write attempt.id s.queue a
    attempts := match attempt.stage.next a with
      | some stage => s.attempts.set k { attempt with stage := stage }
      | none => s.attempts.eraseIdx k
    succeeded := match attempt.stage, a with
      | .confirm true, .resolved _ =>
        Function.update s.succeeded attempt.id (s.succeeded attempt.id + 1)
      | _, _ => s.succeeded }

def step (s : World) : Event → Option World
  | .appStart => some
    { s with database := .closed, totalReplayCount := 0, attempts := [], calls := fun _ => none }
  | .openDatabase opens =>
    if s.database = .closed then
      some { s with database := if opens then .opened else .failed, totalReplayCount := 0 }
    else none
  | .enqueueUpload =>
    if s.database = .opened then some { s with queue := s.queue.enqueue } else none
  | .processQueue call online authenticated =>
    if s.calls call = none then some (s.processQueue call online authenticated) else none
  | .select call authenticated checkFails read =>
    if s.calls call = some .begun ∧ s.database ≠ .closed then
      some (s.select call authenticated checkFails read)
    else none
  | .nextBatch call =>
    match s.calls call with
    | some (.uploading selected attempted) =>
      if (∀ a ∈ s.attempts, a.call = call → a.stage = .queued) ∧ ∃ a ∈ s.attempts, a.call = call
      then some (s.nextBatch call selected attempted) else none
    | _ => none
  | .answer k a =>
    match s.attempts[k]? with
    | some attempt => if attempt.stage = .queued then none else some (s.answer k attempt a)
    | none => none
  | .endLoop call =>
    match s.calls call with
    | some (.uploading selected attempted) =>
      if ∀ a ∈ s.attempts, a.call ≠ call then
        some (s.setCall call (some (.analytics selected attempted)))
      else none
    | _ => none
  | .finish call analytics =>
    match s.calls call with
    | some (.analytics selected attempted) => some
      { (s.setCall call none).report ⟨true, true, selected, attempted⟩ with
        totalReplayCount := if analytics then s.totalReplayCount + 1 else s.totalReplayCount }
    | _ => none

end WorkTicket.Mobile.OfflineQueue
