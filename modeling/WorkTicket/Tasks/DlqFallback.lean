import WorkTicket.Foundation.Files
import WorkTicket.Foundation.Json
import WorkTicket.Foundation.Transition

/-! The files that take the dead-letter entries which the database does not: who writes them, and
which of them the beat tasks read. The lock of the tasks expires on its own and is passed over
when Redis is away, so that they overlap with each other; the writer and the cleanup take none. -/

namespace WorkTicket.Tasks.DlqFallback

open WorkTicket.Transition WorkTicket.Files

/-! ## Names -/

/-- `glob.glob`, for patterns whose only wildcard is the star. -/
def glob : List Char → List Char → Bool
  | [], name => name.isEmpty
  | '*' :: pattern, name => name.tails.any (glob pattern)
  | c :: pattern, name =>
    match name with
    | [] => false
    | c' :: name => c = c' && glob pattern name

theorem head_of_glob {c : Char} {pattern name : List Char} (hc : c ≠ '*')
    (h : glob (c :: pattern) name = true) : name.head? = some c := by
  unfold glob at h
  split at h
  · rename_i hcons
    cases hcons
  · rename_i hcons
    exact absurd (List.cons.inj hcons).1 hc
  · rename_i hcons
    obtain ⟨rfl, -⟩ := List.cons.inj hcons
    split at h
    · cases h
    · simp only [Bool.and_eq_true, decide_eq_true_eq] at h
      rw [h.1]
      rfl

def fallbackPath (pid : ℕ) : String := "dlq_fallback_" ++ toString pid ++ ".jsonl"

def mainPath : String := "workticket_dlq_fallback.merged.jsonl"

def isPidFile (name : String) : Bool :=
  glob "workticket_dlq_fallback.*.*.jsonl".toList name.toList

/-- The files that `cleanup_dlq_fallback_files` looks at. -/
def isFallbackFile (name : String) : Bool :=
  "workticket_dlq_fallback.".isPrefixOf name && name.endsWith ".jsonl"

/-- The name of a file of the writer. -/
def IsWriters (name : String) : Prop := ∃ pid, name = fallbackPath pid

theorem head_fallbackPath (pid : ℕ) : (fallbackPath pid).toList.head? = some 'd' := by
  simp [fallbackPath, String.toList_append]

/-- The writer's files are none of those the collector looks for. -/
theorem not_isWriters_of_isPidFile {name : String} (h : isPidFile name = true) :
    ¬IsWriters name := by
  rintro ⟨pid, rfl⟩
  have hhead := head_of_glob (by decide) h
  rw [head_fallbackPath] at hhead
  exact absurd hhead (by decide)

theorem not_isWriters_mainPath : ¬IsWriters mainPath := by
  rintro ⟨pid, hpath⟩
  have hhead := head_fallbackPath pid
  rw [← hpath] at hhead
  exact absurd hhead (by decide)

/-! ## Entries -/

/-- `_fallback_entry`, what `_move_to_dead_letter` writes when the database does not answer. -/
structure FallbackEntry where
  timestamp : String
  jobId : String
  companyId : String
  userId : Option String
  taskName : String
  errorMessage : String
  failureCategory : String
  lastState : String
  retryCount : ℕ
  traceId : Option String

/-- `json.dumps` with its keys sorted. -/
def FallbackEntry.toJson (e : FallbackEntry) : Json :=
  .obj [("company_id", .str e.companyId), ("error_message", .str e.errorMessage),
    ("failure_category", .str e.failureCategory), ("job_id", .str e.jobId),
    ("last_state", .str e.lastState), ("retry_count", .num e.retryCount),
    ("task_name", .str e.taskName), ("timestamp", .str e.timestamp),
    ("trace_id", (e.traceId.map Json.str).getD .null),
    ("user_id", (e.userId.map Json.str).getD .null)]

/-- A row of `dead_letter_jobs`. -/
structure DeadLetterJob where
  jobId : Json
  companyId : Json
  userId : Json
  taskName : Json
  errorMessage : Json
  failureCategory : Json
  lastState : Json
  retryCount : Json
  traceId : Json

/-- `j[:500]`, which only a text and a list have. -/
def slice500 : Json → Option Json
  | .str s => some (.str (String.ofList (s.toList.take 500)))
  | .arr items => some (.arr (items.take 500))
  | _ => none

def deadLetterJob (entry : Json) : Option DeadLetterJob := do
  let errorMessage ← slice500 (← entry.get "error_message" (.str ""))
  return {
    jobId := ← entry.get "job_id" (.str "")
    companyId := ← entry.get "company_id" (.str "")
    userId := ← entry.get "user_id" .null
    taskName := ← entry.get "task_name" (.str "")
    errorMessage := errorMessage
    failureCategory := ← entry.get "failure_category" (.str "")
    lastState := ← entry.get "last_state" (.str "failed")
    retryCount := ← entry.get "retry_count" (.num 0)
    traceId := ← entry.get "trace_id" .null }

/-- A value as a member of a set: `True` is `1` there, and a list or a dictionary has no hash. -/
def hashed : Json → Option Json
  | .bool b => some (.num (if b then 1 else 0))
  | .arr _ | .obj _ => none
  | j => some j

abbrev Key := Json × Json × Json

def dedupKey (entry : Json) : Option Key := do
  let jobId ← hashed (← entry.get "job_id" (.str ""))
  let taskName ← hashed (← entry.get "task_name" (.str ""))
  let failureCategory ← hashed (← entry.get "failure_category" (.str ""))
  return (jobId, taskName, failureCategory)

inductive Text
  | blank
  | broken
  | json (entry : Json)

/-- `origin` is the write of the fallback that the line or the row comes from. No step reads it. -/
structure Line where
  text : Text
  origin : Option ℕ

structure Row where
  job : DeadLetterJob
  origin : Option ℕ

/-! ## Tasks -/

/-- Where a task is: between two files, at a line of one, or after its commit. -/
inductive Task
  | merging (files : List String) (seen : List Key)
  | reading (name : String) (inode k : ℕ) (files : List String) (seen : List Key)
  | replaying (inode k : ℕ) (added : List Row) (remaining : List Line)
  | replayed (remaining : List Line)
  | cleaning (files : List String) (cutoff : ℕ)

structure World where
  now : ℕ
  disk : Disk String Line
  table : List Row
  tasks : ℕ → Option Task
  written : ℕ

/-- Nothing of the fallback has been written yet. -/
def start (disk : Disk String Text) (table : List DeadLetterJob) : World where
  now := 0
  disk := disk.map fun text => ⟨text, none⟩
  table := table.map fun job => ⟨job, none⟩
  tasks := fun _ => none
  written := 0

inductive Event
  | tick (seconds : ℕ)
  | write (pid : ℕ) (entry : FallbackEntry)
  | store (job : DeadLetterJob)
  | merge (task : ℕ)
  | replay (task : ℕ)
  | cleanup (task : ℕ)
  | resume (task : ℕ) (fails : Bool)

def World.names (s : World) : List String := s.disk.dir.map Prod.fst

def World.lines (s : World) (inode : ℕ) : List Line := (s.disk.data inode).lines

/-- `os.path.getmtime`. -/
def World.mtime (s : World) (name : String) : ℕ :=
  ((s.disk.find? name).map fun inode => (s.disk.data inode).mtime).getD 0

def World.write (s : World) (pid : ℕ) (entry : FallbackEntry) : World :=
  { s with
    disk := s.disk.append s.now (fallbackPath pid) ⟨.json entry.toJson, some s.written⟩
    written := s.written + 1 }

/-- `_scan_dlq_fallback_files`. -/
def World.scan (s : World) : List String :=
  (s.names.filter isPidFile).mergeSort fun a b => s.mtime a ≤ s.mtime b

/-- The merge at a line of a file, or at its end, where the file is removed. A line that is no JSON
is passed over; another exception leaves the file and goes on with the next. The key is taken as
seen before the entry is written. -/
def World.mergeLine (s : World) (name : String) (inode k : ℕ) (files : List String)
    (seen : List Key) (fails : Bool) : World × Option Task :=
  match (s.lines inode)[k]? with
  | none => (if fails then s else { s with disk := s.disk.remove name }, some (.merging files seen))
  | some line =>
    match line.text with
    | .blank | .broken => (s, some (.reading name inode (k + 1) files seen))
    | .json entry =>
      match dedupKey entry with
      | none => (s, some (.merging files seen))
      | some key =>
        if key ∈ seen then (s, some (.reading name inode (k + 1) files seen))
        else if fails then (s, some (.merging files (key :: seen)))
        else ({ s with disk := s.disk.append s.now mainPath line },
          some (.reading name inode (k + 1) files (key :: seen)))

/-- The replay at a line of the merged file, or at its end, where it commits. A job that has a row
already is passed over, whatever the entry; an exception ends the task. -/
def World.replayLine (s : World) (inode k : ℕ) (added : List Row) (remaining : List Line)
    (fails : Bool) : World × Option Task :=
  match (s.lines inode)[k]? with
  | none =>
    if added.isEmpty || fails then (s, none)
    else ({ s with table := s.table ++ added }, some (.replayed remaining))
  | some line =>
    match line.text with
    | .blank => (s, some (.replaying inode (k + 1) added remaining))
    | .broken => (s, some (.replaying inode (k + 1) added (remaining ++ [line])))
    | .json entry =>
      match entry.get "job_id" (.str "") with
      | none => (s, none)
      | some jobId =>
        if fails then (s, none)
        else if ∃ row ∈ s.table ++ added, row.job.jobId = jobId then
          (s, some (.replaying inode (k + 1) added remaining))
        else
          match deadLetterJob entry with
          | none => (s, none)
          | some job => (s, some (.replaying inode (k + 1) (added ++ [⟨job, line.origin⟩]) remaining))

/-- The next step of a task, and what is left of it. -/
def World.resume (s : World) (fails : Bool) : Task → World × Option Task
  | .merging [] _ => (s, none)
  | .merging (name :: files) seen =>
    match s.disk.find? name with
    | some inode =>
      (s, some (if fails then .merging files seen else .reading name inode 0 files seen))
    | none => (s, some (.merging files seen))
  | .reading name inode k files seen => s.mergeLine name inode k files seen fails
  | .replaying inode k added remaining => s.replayLine inode k added remaining fails
  | .replayed remaining =>
    (if remaining.isEmpty && !fails then { s with disk := s.disk.remove mainPath } else s, none)
  | .cleaning [] _ => (s, none)
  | .cleaning (name :: files) cutoff =>
    (if isFallbackFile name && !fails && s.mtime name < cutoff then
      { s with disk := s.disk.remove name } else s, some (.cleaning files cutoff))

def World.begin (s : World) (task : ℕ) (t : Option Task) : Option World :=
  if s.tasks task = none then some { s with tasks := Function.update s.tasks task t } else none

def step (s : World) : Event → Option World
  | .tick seconds => some { s with now := s.now + seconds }
  | .write pid entry => some (s.write pid entry)
  | .store job => some { s with table := s.table ++ [⟨job, none⟩] }
  | .merge task => s.begin task (some (.merging s.scan []))
  | .replay task => s.begin task ((s.disk.find? mainPath).map fun inode => .replaying inode 0 [] [])
  | .cleanup task => s.begin task (some (.cleaning s.names (s.now - 3600)))
  | .resume task fails =>
    match s.tasks task with
    | none => none
    | some t =>
      let (s', t') := s.resume fails t
      some { s' with tasks := Function.update s.tasks task t' }

/-! ## Entries that are kept -/

/-- The entry is in the table, or in the file that the replay reads. -/
def World.Keeps (s : World) (w : ℕ) : Prop :=
  (∃ row ∈ s.table, row.origin = some w) ∨
    ∃ inode, s.disk.find? mainPath = some inode ∧ ∃ line ∈ s.lines inode, line.origin = some w

/-- Each entry written is kept now, or could still come to be after some further steps. -/
def Conserved (s : World) : Prop := ∀ w < s.written, ∃ s', Reached step s s' ∧ s'.Keeps w

def NothingWritten (_ : World) : Event → Prop
  | .write _ _ => False
  | _ => True

/-! ## What has been written stays in the files of the writer -/

def Line.Old (line : Line) : Prop := line.origin = none

def Row.Old (row : Row) : Prop := row.origin = none

abbrev ApartFromWriters (d : Disk String Line) (inode : ℕ) : Prop := Apart IsWriters Line.Old d inode

/-- What a task has read or is about to read is not the writer's. -/
def Task.Old (d : Disk String Line) : Task → Prop
  | .merging files _ => ∀ name ∈ files, ¬IsWriters name
  | .reading _ inode _ files _ => ApartFromWriters d inode ∧ ∀ name ∈ files, ¬IsWriters name
  | .replaying inode _ added _ => ApartFromWriters d inode ∧ ∀ row ∈ added, row.Old
  | .replayed _ => True
  | .cleaning _ _ => True

structure Inv (s : World) : Prop where
  disk : Separated IsWriters Line.Old s.disk
  table : ∀ row ∈ s.table, row.Old
  tasks : ∀ n, ∀ t ∈ s.tasks n, t.Old s.disk

variable {s s' : World} {t : Task}

theorem inv_start (disk : Disk String Text) (table : List DeadLetterJob) :
    Inv (start disk table) where
  disk := by
    refine separated_of_clean fun i line hline => ?_
    obtain ⟨text, -, rfl⟩ := List.mem_map.mp hline
    rfl
  table := by
    intro row hrow
    obtain ⟨job, -, rfl⟩ := List.mem_map.mp hrow
    rfl
  tasks := fun _ _ ht => nomatch ht

theorem Task.Old.mono {d d' : Disk String Line} (h : t.Old d)
    (hd : ∀ inode, ApartFromWriters d inode → ApartFromWriters d' inode) : t.Old d' := by
  cases t with
  | merging files seen => exact h
  | reading name inode k files seen => exact ⟨hd inode h.1, h.2⟩
  | replaying inode k added remaining => exact ⟨hd inode h.1, h.2⟩
  | replayed remaining => trivial
  | cleaning files cutoff => trivial

/-- The table and the files, when a step leaves the files of the writer alone. -/
structure Quiet (s s' : World) : Prop where
  disk : Separated IsWriters Line.Old s'.disk
  apart : ∀ inode, ApartFromWriters s.disk inode → ApartFromWriters s'.disk inode
  table : ∀ row ∈ s'.table, row.Old
  written : s'.written = s.written

theorem Inv.quiet (h : Inv s) : Quiet s s := ⟨h.disk, fun _ => id, h.table, rfl⟩

theorem Inv.quiet_remove (h : Inv s) (name : String) :
    Quiet s { s with disk := s.disk.remove name } :=
  ⟨h.disk.remove, fun _ => Apart.remove, h.table, rfl⟩

theorem Inv.quiet_append (h : Inv s) {line : Line} (hline : line.Old) (name : String) :
    Quiet s { s with disk := s.disk.append s.now name line } :=
  ⟨h.disk.append_clean hline, fun _ hi => hi.append_clean hline, h.table, rfl⟩

theorem Inv.quiet_insert (h : Inv s) {added : List Row} (hadded : ∀ row ∈ added, row.Old) :
    Quiet s { s with table := s.table ++ added } := by
  refine ⟨h.disk, fun _ => id, fun row hrow => ?_, rfl⟩
  rcases List.mem_append.mp hrow with hold | hnew
  · exact h.table row hold
  · exact hadded row hnew

/-- The invariant after a step of one task. -/
theorem Inv.setTask (h : Inv s) (hquiet : Quiet s s') {n : ℕ} {t' : Option Task}
    (ht' : ∀ t ∈ t', t.Old s'.disk) :
    Inv { s' with tasks := Function.update s.tasks n t' } where
  disk := hquiet.disk
  table := hquiet.table
  tasks := by
    intro m t ht
    by_cases hm : m = n
    · subst hm
      exact ht' t (by simpa using ht)
    · have hbefore : t ∈ s.tasks m := by simpa [hm] using ht
      exact (h.tasks m t hbefore).mono hquiet.apart

theorem old_of_getElem? {inode k : ℕ} {line : Line} (h : ApartFromWriters s.disk inode)
    (hk : (s.lines inode)[k]? = some line) : line.Old :=
  h.lines line (List.mem_of_getElem? hk)

/-- A step of the merge takes on only what is not the writer's. -/
theorem Inv.mergeLine (h : Inv s) {name : String} {inode k : ℕ} {files : List String}
    {seen : List Key} {fails : Bool} (hinode : ApartFromWriters s.disk inode)
    (hfiles : ∀ name ∈ files, ¬IsWriters name) :
    Quiet s (s.mergeLine name inode k files seen fails).1 ∧
      ∀ t ∈ (s.mergeLine name inode k files seen fails).2,
        t.Old (s.mergeLine name inode k files seen fails).1.disk := by
  unfold World.mergeLine
  split
  · cases fails with
    | false => exact ⟨h.quiet_remove name, by rintro t ⟨⟩; exact hfiles⟩
    | true => exact ⟨h.quiet, by rintro t ⟨⟩; exact hfiles⟩
  · rename_i line hline
    have hold := old_of_getElem? hinode hline
    split
    · exact ⟨h.quiet, by rintro t ⟨⟩; exact ⟨hinode, hfiles⟩⟩
    · exact ⟨h.quiet, by rintro t ⟨⟩; exact ⟨hinode, hfiles⟩⟩
    · split
      · exact ⟨h.quiet, by rintro t ⟨⟩; exact hfiles⟩
      · split
        · exact ⟨h.quiet, by rintro t ⟨⟩; exact ⟨hinode, hfiles⟩⟩
        · split
          · exact ⟨h.quiet, by rintro t ⟨⟩; exact hfiles⟩
          · have hquiet := h.quiet_append hold mainPath
            exact ⟨hquiet, by rintro t ⟨⟩; exact ⟨hquiet.apart inode hinode, hfiles⟩⟩

theorem Inv.replayLine (h : Inv s) {inode k : ℕ} {added : List Row} {remaining : List Line}
    {fails : Bool} (hinode : ApartFromWriters s.disk inode) (hadded : ∀ row ∈ added, row.Old) :
    Quiet s (s.replayLine inode k added remaining fails).1 ∧
      ∀ t ∈ (s.replayLine inode k added remaining fails).2,
        t.Old (s.replayLine inode k added remaining fails).1.disk := by
  unfold World.replayLine
  split
  · split
    · exact ⟨h.quiet, by rintro t ⟨⟩⟩
    · exact ⟨h.quiet_insert hadded, by rintro t ⟨⟩; trivial⟩
  · rename_i line hline
    have hold := old_of_getElem? hinode hline
    split
    · exact ⟨h.quiet, by rintro t ⟨⟩; exact ⟨hinode, hadded⟩⟩
    · exact ⟨h.quiet, by rintro t ⟨⟩; exact ⟨hinode, hadded⟩⟩
    · split
      · exact ⟨h.quiet, by rintro t ⟨⟩⟩
      · split
        · exact ⟨h.quiet, by rintro t ⟨⟩⟩
        · split
          · exact ⟨h.quiet, by rintro t ⟨⟩; exact ⟨hinode, hadded⟩⟩
          · split
            · exact ⟨h.quiet, by rintro t ⟨⟩⟩
            · refine ⟨h.quiet, ?_⟩
              rintro t ⟨⟩
              refine ⟨hinode, fun row hrow => ?_⟩
              rcases List.mem_append.mp hrow with hbefore | hnew
              · exact hadded row hbefore
              · rw [List.mem_singleton.mp hnew]
                exact hold

theorem Inv.resume (h : Inv s) (ht : t.Old s.disk) (fails : Bool) :
    Quiet s (s.resume fails t).1 ∧
      ∀ t' ∈ (s.resume fails t).2, t'.Old (s.resume fails t).1.disk := by
  cases t with
  | merging files seen =>
    cases files with
    | nil => exact ⟨h.quiet, by rintro t' ⟨⟩⟩
    | cons name files =>
      have hfiles : ∀ name ∈ files, ¬IsWriters name := fun name' hname' =>
        ht name' (List.mem_cons_of_mem _ hname')
      simp only [World.resume]
      split
      · rename_i inode hfound
        have hinode : ApartFromWriters s.disk inode :=
          h.disk name inode (Disk.mem_of_find? hfound) (ht name List.mem_cons_self)
        refine ⟨h.quiet, ?_⟩
        rintro t' ⟨⟩
        cases fails with
        | false => exact ⟨hinode, hfiles⟩
        | true => exact hfiles
      · refine ⟨h.quiet, ?_⟩
        rintro t' ⟨⟩
        exact hfiles
  | reading name inode k files seen => exact h.mergeLine ht.1 ht.2
  | replaying inode k added remaining => exact h.replayLine ht.1 ht.2
  | replayed remaining =>
    simp only [World.resume]
    split
    · exact ⟨h.quiet_remove mainPath, by rintro t' ⟨⟩⟩
    · exact ⟨h.quiet, by rintro t' ⟨⟩⟩
  | cleaning files cutoff =>
    cases files with
    | nil => exact ⟨h.quiet, by rintro t' ⟨⟩⟩
    | cons name files =>
      simp only [World.resume]
      split
      · exact ⟨h.quiet_remove name, by rintro t' ⟨⟩; trivial⟩
      · exact ⟨h.quiet, by rintro t' ⟨⟩; trivial⟩

theorem Inv.begin (h : Inv s) {n : ℕ} {t' : Option Task} (ht' : ∀ t ∈ t', t.Old s.disk)
    (hs : s.begin n t' = some s') : Inv s' := by
  obtain ⟨-, hbegun⟩ := Option.ite_none_right_eq_some.mp hs
  cases hbegun
  exact h.setTask h.quiet ht'

theorem inv_step {e : Event} (h : Inv s) (hs : step s e = some s') : Inv s' := by
  cases e with
  | tick seconds =>
    cases hs
    exact ⟨h.disk, h.table, h.tasks⟩
  | write pid entry =>
    cases hs
    have hwriters : IsWriters (fallbackPath pid) := ⟨pid, rfl⟩
    refine ⟨h.disk.append_other hwriters, h.table, fun n t ht => ?_⟩
    exact (h.tasks n t ht).mono fun _ hi => hi.append_other hwriters
  | store job =>
    cases hs
    have hrow : ∀ row ∈ [(⟨job, none⟩ : Row)], row.Old := by
      intro row hrow
      rw [List.mem_singleton.mp hrow]
      rfl
    have hquiet := h.quiet_insert hrow
    exact ⟨hquiet.disk, hquiet.table, h.tasks⟩
  | merge task =>
    refine h.begin ?_ hs
    rintro t ⟨⟩ name hname
    have hpid := (List.mem_filter.mp (List.mem_mergeSort.mp hname)).2
    exact not_isWriters_of_isPidFile hpid
  | replay task =>
    refine h.begin ?_ hs
    intro t ht
    obtain ⟨inode, hfound, rfl⟩ := Option.map_eq_some_iff.mp ht
    refine ⟨?_, fun _ hrow => absurd hrow List.not_mem_nil⟩
    exact h.disk mainPath inode (Disk.mem_of_find? hfound) not_isWriters_mainPath
  | cleanup task =>
    refine h.begin ?_ hs
    rintro t ⟨⟩
    trivial
  | resume task fails =>
    simp only [step] at hs
    split at hs
    · cases hs
    · rename_i t ht
      cases hs
      obtain ⟨hquiet, ht'⟩ := h.resume (h.tasks task t ht) fails
      exact h.setTask hquiet ht'

theorem Inv.not_keeps (h : Inv s) (w : ℕ) : ¬s.Keeps w := by
  rintro (⟨row, hrow, horigin⟩ | ⟨inode, hfound, line, hline, horigin⟩)
  · have hold : row.origin = none := h.table row hrow
    rw [hold] at horigin
    cases horigin
  · have hapart := h.disk mainPath inode (Disk.mem_of_find? hfound) not_isWriters_mainPath
    have hold : line.origin = none := hapart.lines line hline
    rw [hold] at horigin
    cases horigin

/-- Nothing that is done after a write brings its entry to the table or to the merged file. -/
theorem Inv.conserved_iff (h : Inv s) : Conserved s ↔ s.written = 0 := by
  constructor
  · intro hconserved
    by_contra hwritten
    obtain ⟨s', hreached, hkeeps⟩ := hconserved 0 (Nat.pos_of_ne_zero hwritten)
    have hinv : Inv s' := hreached.invariant h fun _ _ _ h _ hs => inv_step h hs
    exact hinv.not_keeps 0 hkeeps
  · intro hnone w hw
    rw [hnone] at hw
    exact absurd hw (Nat.not_lt_zero w)

theorem begin_written {n : ℕ} {t' : Option Task} (hs : s.begin n t' = some s') :
    s'.written = s.written := by
  obtain ⟨-, hbegun⟩ := Option.ite_none_right_eq_some.mp hs
  cases hbegun
  rfl

theorem Inv.written_step (h : Inv s) {e : Event} (hok : NothingWritten s e)
    (hs : step s e = some s') : s'.written = s.written := by
  cases e with
  | tick seconds => cases hs; rfl
  | write pid entry => exact hok.elim
  | store job => cases hs; rfl
  | merge task => exact begin_written hs
  | replay task => exact begin_written hs
  | cleanup task => exact begin_written hs
  | resume task fails =>
    simp only [step] at hs
    split at hs
    · cases hs
    · rename_i t ht
      cases hs
      exact (h.resume (h.tasks task t ht) fails).1.written

theorem Inv.nothingWritten (h : Inv s) {e : Event} (hs : step s e = some s')
    (hconserved : Conserved s') : NothingWritten s e := by
  cases e with
  | write pid entry =>
    have hnone := (inv_step h hs).conserved_iff.mp hconserved
    cases hs
    exact absurd hnone (Nat.succ_ne_zero s.written)
  | _ => trivial

/-- From any files and any table: the entries are conserved along a run exactly if it writes none to
the fallback. -/
theorem conserved_along_iff (disk : Disk String Text) (table : List DeadLetterJob)
    (es : List Event) :
    Along step Conserved (start disk table) es ↔
      EachStep step NothingWritten (start disk table) es :=
  along_iff_eachStep (I := fun s => Inv s ∧ s.written = 0)
    (fun _ ⟨h, hnone⟩ => h.conserved_iff.mpr hnone)
    (fun _ _ _ ⟨h, hnone⟩ hok hs => ⟨inv_step h hs, (h.written_step hok hs).trans hnone⟩)
    (fun _ _ _ ⟨h, _⟩ hs hconserved => h.nothingWritten hs hconserved)
    ⟨inv_start disk table, rfl⟩ es

def noFiles : Disk String Text where
  dir := []
  data := fun _ => ⟨[], 0⟩
  next := 0
  names := List.nodup_nil
  inodes := List.nodup_nil
  linked := fun _ hp => absurd hp List.not_mem_nil

def timedOut : FallbackEntry where
  timestamp := "2026-01-01T00:00:00+00:00"
  jobId := "5f0c7a52-8a3e-4f35-9d0a-6a3f0d1b2c3d"
  companyId := "0b7e2f14-1c9d-4b6a-8f4e-2d5c6b7a8e9f"
  userId := none
  taskName := "process_job_task"
  errorMessage := "timeout"
  failureCategory := "infra"
  lastState := "processing"
  retryCount := 3
  traceId := none

/-- The one entry that a worker writes is never seen again. -/
theorem lone_entry_lost : ¬∀ disk table es, Along step Conserved (start disk table) es := by
  intro h
  have hrun := h noFiles [] [.write 7 timedOut]
  have hwritten := inv_step (inv_start noFiles []) (e := .write 7 timedOut) rfl
  exact absurd (hwritten.conserved_iff.mp (hrun.2 _ rfl)) Nat.one_ne_zero

end WorkTicket.Tasks.DlqFallback
