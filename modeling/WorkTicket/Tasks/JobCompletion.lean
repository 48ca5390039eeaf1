import WorkTicket.Foundation.Transition
import WorkTicket.Tasks.AttemptEnd
import WorkTicket.Tasks.JobReservations

/-! The state that attempts of `process_job_task` leave their job in. The attempts run one
after the other on the rows of the job and its output; between their sessions others may
write these. The compensation of a failed job is never committed. -/

namespace WorkTicket.Tasks.JobCompletion

open WorkTicket.Transition WorkTicket.Billing WorkTicket.Tasks.JobTask
open WorkTicket.Tasks.AttemptEnd
open WorkTicket.Tasks.AttemptBooks (abortedAfter)
open WorkTicket.Tasks.JobReservations (usesSession fallback)

/-- The job, and whether it has a row in `ai_outputs`. -/
structure Rows where
  job : Job
  output : Bool
  deriving DecidableEq, Repr

/-- How an attempt ended, and the committed rows at its end. -/
structure End where
  how : Except Fault Ending
  skipped : Bool
  rows : Rows
  deriving Repr

/-- `opened` tells whether a session of the attempt is open, and `seen` how the session has the
rows; `standing` and `ends` are read by no step. -/
structure World where
  rows : Rows
  seen : Rows
  opened : Bool
  aborted : Bool
  task : Option (Attempt × Prog Ending)
  standing : Standing
  ends : List End

inductive Event
  | receive (a : Attempt)
  | answer (now : Time) (answers : (c : Command) → Answer c)
  | fail (fault : Fault)
  | elsewhere (rows : Rows)

def World.next? (s : World) :
    Option (Attempt × (c : Command) × (Except Fault (Answer c) → Prog Ending)) :=
  match s.task with
  | some (a, .call c next) => some (a, ⟨c, next⟩)
  | _ => none

/-- What the database answers to the statements on the job and its output; the other answers
are those of the surroundings. -/
def World.answerOf (s : World) (now : Time) (answers : (c : Command) → Answer c) :
    (c : Command) → Answer c
  | .selectJob => some s.seen.job
  | .reconcileJobState expected target => (reconcileJobState now expected target (some s.seen.job)).1
  | .transitionFailed => (transitionJobState now .failed true none (some s.seen.job)).1
  | .insertOutput => !s.seen.output
  | c => answers c

def World.seenAfter (s : World) (now : Time) : Command → Rows
  | .reconcileJobState expected target =>
    { s.seen with
      job := (reconcileJobState now expected target (some s.seen.job)).2.getD s.seen.job }
  | .transitionFailed =>
    { s.seen with
      job := (transitionJobState now .failed true none (some s.seen.job)).2.2.getD s.seen.job }
  | .countRetry =>
    { s.seen with job := { s.seen.job with retryCount := some (s.seen.job.retryCount.getD 0 + 1) } }
  | .insertOutput => { s.seen with output := true }
  | _ => s.seen

def World.perform (s : World) (now : Time) : Command → World
  | .commit => { s with rows := s.seen, opened := true }
  | .close => { s with seen := s.rows, opened := false }
  | c => { s with seen := s.seenAfter now c, opened := usesSession c || s.opened }

def World.resume (s : World) (a : Attempt) (p : Prog Ending) : World :=
  match p with
  | .ret ending =>
    { s with task := none, ends := ⟨.ok ending, s.standing.skipped, s.rows⟩ :: s.ends }
  | .raise e => { s with task := none, ends := ⟨.error e, s.standing.skipped, s.rows⟩ :: s.ends }
  | .call c next => { s with task := some (a, .call c next) }

def World.reply (s : World) (a : Attempt) (c : Command) (r : Except Fault (Answer c))
    (next : Except Fault (Answer c) → Prog Ending) : World :=
  { s with
    standing := s.standing.after a c r
    aborted := abortedAfter s.aborted c r }.resume a (next r)

def step (s : World) : Event → Option World
  | .receive a =>
    match s.task with
    | none => some ({ s with
        seen := s.rows
        opened := false
        aborted := false
        standing := .initial a }.resume a (processJobTask a))
    | some _ => none
  | .answer now answers =>
    s.next?.bind fun ⟨a, c, next⟩ =>
      if s.aborted && usesSession c then none
      else some ((s.perform now c).reply a c (.ok (s.answerOf now answers c)) next)
  | .fail fault =>
    s.next?.bind fun ⟨a, c, next⟩ =>
      if c = .close then none
      else some ({ s with opened := usesSession c || s.opened }.reply a c (.error fault) next)
  | .elsewhere rows => if s.opened then none else some { s with rows := rows, seen := rows }

def start (rows : Rows) : World := ⟨rows, rows, false, false, none, .fresh, []⟩

/-! ## No job is left stuck -/

def failed (r : Rows) : Bool := r.job.current = .failed

def settled (r : Rows) : Bool := failed r || (r.job.current = .completed && r.output)

/-- The states `_retry_dead_letter_job` dispatches a job in. -/
def retryAccepts (state : AIProcessingState) : Bool := state = .failed || state = .reserved

/-- Without a retry, and unless another worker has the lock, the job is settled, and a dead
letter is one that can be retried. -/
def End.well (e : End) : Bool :=
  e.skipped || match e.how with
    | .ok ending => ending = .retried ||
        (settled e.rows && (!writesDeadLetter ending || retryAccepts e.rows.job.current))
    | .error _ => settled e.rows

def NoJobStuck (s : World) : Prop := ∀ e ∈ s.ends, e.well = true

/-- A dead letter only comes of a failed job, a refusal only of a settled one, and a job is
only completed from `processing`. -/
def permits (s : World) (a : Attempt) (c : Command) (r : Except Fault (Answer c)) : Bool :=
  (!dooms a c r || failed s.rows) && (!refuses c r || settled s.rows) &&
    match c, r with
    | .reconcileJobState .processing .completed, .ok _ =>
      s.seen.job.current = .processing || s.seen.job.current = .completed
    | _, _ => true

/-- The state before a step does not let an attempt end with its job left stuck. -/
def Completing (s : World) : Event → Bool
  | .receive a => supported a || failed s.rows
  | .answer now answers => s.standing.skipped || s.next?.all fun ⟨a, c, _⟩ =>
      permits s a c (.ok (s.answerOf now answers c))
  | .fail fault => s.standing.skipped || s.next?.all fun ⟨a, c, _⟩ => permits s a c (.error fault)
  | .elsewhere rows => s.task.isNone || s.standing.skipped ||
      ((!s.standing.doomed || failed rows) && (!s.standing.concluded || settled rows))

/-! ## What one answer changes -/

/-- The rows and the session's view of them are as the standing of the attempt tells. -/
structure Faithful (s : World) : Prop where
  clean : s.standing.dirty = false → s.seen = s.rows
  closed : s.opened = false → s.standing.close = s.standing
  completing : s.standing.skipped = false → s.standing.completing = true →
    s.seen.job.current = .completed
  stored : s.standing.stored = true → s.seen.output = true
  doomed : s.standing.skipped = false → s.standing.doomed = true → failed s.rows = true
  concluded : s.standing.skipped = false → s.standing.concluded = true → settled s.rows = true

section
variable {s : World} {a : Attempt}

theorem settled_of_failed {r : Rows} (h : failed r = true) : settled r = true := by
  simp [settled, h]

theorem Faithful.decided (h : Faithful s) {c : Command} {r : Except Fault (Answer c)}
    (hok : s.standing.skipped = true ∨ permits s a c r = true) :
    Faithful { s with standing := s.standing.decided a c r } where
  clean := h.clean
  closed := by
    intro hopened
    have hclosed := h.closed hopened
    rw [← hclosed]
    rfl
  completing := fun hskipped => h.completing (Bool.or_eq_false_iff.mp hskipped).1
  stored := h.stored
  doomed := by
    intro hskipped hdoomed
    have hnot : s.standing.skipped = false := (Bool.or_eq_false_iff.mp hskipped).1
    obtain hdoomed | hdooms := Bool.or_eq_true_iff.mp hdoomed
    · exact h.doomed hnot hdoomed
    · have hpermits := hok.resolve_left (by simp [hnot])
      simp only [permits, hdooms, Bool.not_true, Bool.false_or, Bool.and_eq_true] at hpermits
      exact hpermits.1.1
  concluded := by
    intro hskipped hconcluded
    have hnot : s.standing.skipped = false := (Bool.or_eq_false_iff.mp hskipped).1
    obtain hconcluded | hrefuses := Bool.or_eq_true_iff.mp hconcluded
    · exact h.concluded hnot hconcluded
    · have hpermits := hok.resolve_left (by simp [hnot])
      simp only [permits, hrefuses, Bool.not_true, Bool.false_or, Bool.and_eq_true] at hpermits
      exact hpermits.1.2

/-- The session is open and has written to its view of the rows. -/
theorem Faithful.write (h : Faithful s) {seen : Rows} {completing stored : Bool}
    (hcompleting : s.standing.skipped = false → completing = true → seen.job.current = .completed)
    (hstored : stored = true → seen.output = true) : Faithful { s with
      seen := seen
      opened := true
      standing := { s.standing with dirty := true, completing := completing, stored := stored } }
    where
  clean := fun hdirty => nomatch hdirty
  closed := fun hopened => nomatch hopened
  completing := hcompleting
  stored := hstored
  doomed := h.doomed
  concluded := h.concluded

theorem Faithful.opening (h : Faithful s) (opened : Bool) :
    Faithful { s with opened := opened || s.opened } where
  clean := h.clean
  closed := fun hopened => h.closed (Bool.or_eq_false_iff.mp hopened).2
  completing := h.completing
  stored := h.stored
  doomed := h.doomed
  concluded := h.concluded

theorem Faithful.abort (h : Faithful s) (aborted : Bool) :
    Faithful { s with aborted := aborted } where
  clean := h.clean
  closed := h.closed
  completing := h.completing
  stored := h.stored
  doomed := h.doomed
  concluded := h.concluded

/-- What the session has completed is settled once it is committed; if the end was decided
before, there is nothing to commit. -/
theorem Faithful.commit (h : Faithful s)
    (hneeds : s.standing.skipped = false → (s.standing.doomed || s.standing.concluded) = true →
      s.standing.dirty = false) : Faithful { s with
        rows := s.seen
        opened := true
        standing := { s.standing with
          dirty := false
          concluded := s.standing.concluded || (s.standing.completing && s.standing.stored) } }
    where
  clean := fun _ => rfl
  closed := fun hopened => nomatch hopened
  completing := h.completing
  stored := h.stored
  doomed := by
    intro hskipped hdoomed
    -- a decided attempt has written nothing since, so its commit leaves the failed row
    have hclean := h.clean (hneeds hskipped (by simp [show s.standing.doomed = true from hdoomed]))
    show failed s.seen = true
    rw [hclean]
    exact h.doomed hskipped hdoomed
  concluded := by
    intro hskipped hconcluded
    obtain hconcluded | hdone := Bool.or_eq_true_iff.mp hconcluded
    · have hclean := h.clean (hneeds hskipped (by simp [hconcluded]))
      show settled s.seen = true
      rw [hclean]
      exact h.concluded hskipped hconcluded
    · obtain ⟨hcompleting, hstored⟩ := Bool.and_eq_true_iff.mp hdone
      show settled s.seen = true
      simp [settled, h.completing hskipped hcompleting, h.stored hstored]

theorem Faithful.close (h : Faithful s) : Faithful { s with
    seen := s.rows
    opened := false
    standing := s.standing.close } where
  clean := fun _ => rfl
  closed := fun _ => rfl
  completing := fun _ hcompleting => nomatch hcompleting
  stored := fun hstored => nomatch hstored
  doomed := h.doomed
  concluded := h.concluded

/-- From `processing`, `_reconcile_job_state` completes the job, and a completed one it keeps. -/
theorem reconcile_completed {now : Time} {j : Job}
    (h : j.current = .processing ∨ j.current = .completed) :
    ((reconcileJobState now .processing .completed (some j)).2.getD j).current = .completed := by
  unfold reconcileJobState
  rcases h with h | h
  · simp only [h, reduceCtorEq, if_false, if_true, true_or]
    rfl
  · simp only [h, if_true]
    exact h

theorem Faithful.perform (h : Faithful s) {now : Time} {answers : (c : Command) → Answer c}
    {c : Command} (hneeds : needs s.standing c)
    (hok : s.standing.skipped = true ∨ permits s a c (.ok (s.answerOf now answers c)) = true) :
    Faithful { s.perform now c with
      standing := s.standing.after a c (.ok (s.answerOf now answers c)) } := by
  have hdecided := h.decided hok
  cases c with
  | reconcileJobState expected target =>
    refine hdecided.write (fun hskipped hcompleting => ?_) h.stored
    obtain ⟨hexpected, htarget⟩ := Bool.and_eq_true_iff.mp hcompleting
    obtain rfl := of_decide_eq_true hexpected
    obtain rfl := of_decide_eq_true htarget
    have hpermits := hok.resolve_left fun hnot => by
      simp [Standing.decided, hnot] at hskipped
    simp only [permits, Bool.and_eq_true, Bool.or_eq_true, decide_eq_true_eq] at hpermits
    exact reconcile_completed hpermits.2
  | transitionFailed =>
    refine hdecided.write (fun _ hcompleting => ?_) h.stored
    exact absurd hcompleting Bool.false_ne_true
  | countRetry => exact hdecided.write hdecided.completing h.stored
  | insertOutput => exact hdecided.write hdecided.completing fun _ => rfl
  | commit =>
    refine hdecided.commit fun hskipped hend => hneeds (Bool.or_eq_false_iff.mp hskipped).1 ?_
    simpa [Standing.decided, dooms, refuses] using hend
  | close => exact hdecided.close
  | selectJob | heartbeatReservation | selectOutput => exact hdecided.opening true
  | bill c => exact hdecided.opening true
  | _ => exact hdecided.opening false

theorem Faithful.fail (h : Faithful s) {c : Command} {fault : Fault} (hc : c ≠ .close)
    (hok : s.standing.skipped = true ∨ permits s a c (.error fault) = true) :
    Faithful { s with
      opened := usesSession c || s.opened
      standing := s.standing.after a c (.error fault) } := by
  have hsame : s.standing.after a c (.error fault) = s.standing.decided a c (.error fault) := by
    cases c with
    | close => exact absurd rfl hc
    | _ => rfl
  rw [hsame]
  exact (h.decided hok).opening _

theorem faithful_receive (hok : supported a = true ∨ failed s.rows = true) :
    Faithful { s with
      seen := s.rows
      opened := false
      aborted := false
      standing := .initial a } where
  clean := fun _ => rfl
  closed := fun _ => rfl
  completing := fun _ hcompleting => nomatch hcompleting
  stored := fun hstored => nomatch hstored
  doomed := by
    intro _ hdoomed
    have hunsupported : supported a = false := by
      simpa [Standing.initial] using hdoomed
    exact hok.resolve_left (by simp [hunsupported])
  concluded := fun _ hconcluded => nomatch hconcluded

theorem Faithful.elsewhere (h : Faithful s) {rows : Rows} (hopened : s.opened = false)
    (hok : s.standing.skipped = true ∨ (s.standing.doomed = true → failed rows = true) ∧
      (s.standing.concluded = true → settled rows = true)) :
    Faithful { s with rows := rows, seen := rows } where
  clean := fun _ => rfl
  closed := h.closed
  completing := by
    intro _ hcompleting
    have hnot : s.standing.completing = false :=
      (congrArg Standing.completing (h.closed hopened)).symm
    exact absurd (hcompleting.symm.trans hnot) (by decide)
  stored := by
    intro hstored
    have hnot : s.standing.stored = false := (congrArg Standing.stored (h.closed hopened)).symm
    exact absurd (hstored.symm.trans hnot) (by decide)
  doomed := by
    intro hskipped hdoomed
    exact (hok.resolve_left (by rw [hskipped]; decide)).1 hdoomed
  concluded := by
    intro hskipped hconcluded
    exact (hok.resolve_left (by rw [hskipped]; decide)).2 hconcluded

/-- An attempt that ends as it was decided leaves its job well. -/
theorem Faithful.well (h : Faithful s) {r : Except Fault Ending} (hr : Decided r s.standing) :
    (⟨r, s.standing.skipped, s.rows⟩ : End).well = true := by
  cases hskipped : s.standing.skipped with
  | true => rfl
  | false =>
    have hr := hr.resolve_left (by simp [hskipped])
    cases r with
    | error e =>
      have hsettled := h.concluded hskipped hr
      simp [End.well, hsettled]
    | ok ending =>
      obtain rfl | hend := hr
      · rfl
      · cases hletter : writesDeadLetter ending with
        | true =>
          rw [if_pos hletter] at hend
          have hfailed := h.doomed hskipped hend
          have hstate : s.rows.job.current = .failed := of_decide_eq_true hfailed
          simp [End.well, settled_of_failed hfailed, retryAccepts, hstate]
        | false =>
          rw [if_neg (by simp [hletter])] at hend
          simp [End.well, h.concluded hskipped hend, hletter]

/-! ## Runs -/

structure Inv (s : World) : Prop where
  ends : NoJobStuck s
  faithful : ∀ a p, s.task = some (a, p) → Faithful s
  program : ∀ a p, s.task = some (a, p) → p.wp (ghost a) Decided s.standing

theorem inv_resume (h : Faithful s) (hends : NoJobStuck s) {p : Prog Ending}
    (hp : p.wp (ghost a) Decided s.standing) : Inv (s.resume a p) := by
  cases p with
  | ret ending =>
    refine ⟨fun e he => ?_, fun _ _ htask => (nomatch htask), fun _ _ htask => (nomatch htask)⟩
    obtain rfl | he := List.mem_cons.mp he
    · exact h.well hp
    · exact hends e he
  | raise fault =>
    refine ⟨fun e he => ?_, fun _ _ htask => (nomatch htask), fun _ _ htask => (nomatch htask)⟩
    obtain rfl | he := List.mem_cons.mp he
    · exact h.well hp
    · exact hends e he
  | call c next =>
    refine ⟨hends, fun _ _ _ => ?_, fun a' p' htask => ?_⟩
    · exact ⟨h.clean, h.closed, h.completing, h.stored, h.doomed, h.concluded⟩
    · obtain ⟨rfl, rfl⟩ := Prod.mk.inj (Option.some.inj htask)
      exact hp

theorem task_of_next? {c : Command} {next : Except Fault (Answer c) → Prog Ending}
    (h : s.next? = some (a, ⟨c, next⟩)) : s.task = some (a, .call c next) := by
  unfold World.next? at h
  split at h
  · rename_i htask
    cases Option.some.inj h
    exact htask
  · cases h

/-- An attempt gets the answer to its next command, after the world has changed for it. -/
theorem Inv.reply (h : Inv s) {c : Command} {next : Except Fault (Answer c) → Prog Ending}
    (hnext : s.next? = some (a, ⟨c, next⟩)) {r : Except Fault (Answer c)} (hexpects : expects c r)
    {t : World} (hends : t.ends = s.ends) (hstanding : t.standing = s.standing)
    (ht : Faithful { t with standing := s.standing.after a c r }) : Inv (t.reply a c r next) := by
  have hp := (h.program a _ (task_of_next? hnext)).2 r hexpects
  unfold World.reply
  rw [hstanding]
  refine inv_resume (ht.abort _) ?_ hp
  show ∀ e ∈ t.ends, e.well = true
  rw [hends]
  exact h.ends

theorem inv_step {s' : World} {e : Event} (h : Inv s) (hok : Completing s e = true)
    (hs : step s e = some s') : Inv s' := by
  cases e with
  | receive a =>
    simp only [step] at hs
    split at hs
    · obtain rfl := Option.some.inj hs
      refine inv_resume (faithful_receive ?_) h.ends (wp_processJobTask a)
      simpa [Completing] using hok
    · cases hs
  | answer now answers =>
    obtain ⟨⟨a, c, next⟩, hnext, hs⟩ := Option.bind_eq_some_iff.mp hs
    obtain ⟨-, ⟨⟩⟩ := Option.ite_none_left_eq_some.mp hs
    have hf := h.faithful a _ (task_of_next? hnext)
    have hneeds : needs s.standing c := (h.program a _ (task_of_next? hnext)).1
    simp only [Completing, hnext, Option.all_some, Bool.or_eq_true] at hok
    -- the world answers the statements on the job, and the job is there
    have hexpects : expects c (.ok (s.answerOf now answers c)) := by
      cases c with
      | selectJob => exact fun hnone => nomatch hnone
      | _ => trivial
    refine h.reply hnext hexpects ?_ ?_ (hf.perform hneeds hok)
    · cases c <;> rfl
    · cases c <;> rfl
  | fail fault =>
    obtain ⟨⟨a, c, next⟩, hnext, hs⟩ := Option.bind_eq_some_iff.mp hs
    obtain ⟨hclose, ⟨⟩⟩ := Option.ite_none_left_eq_some.mp hs
    have hf := h.faithful a _ (task_of_next? hnext)
    simp only [Completing, hnext, Option.all_some, Bool.or_eq_true] at hok
    have hexpects : expects c (.error fault) := by cases c <;> trivial
    exact h.reply hnext hexpects rfl rfl (hf.fail hclose hok)
  | elsewhere rows =>
    -- others write only between the sessions, when nothing is held of the old rows
    obtain ⟨hopened, ⟨⟩⟩ := Option.ite_none_left_eq_some.mp hs
    refine ⟨h.ends, fun a p htask => ?_, h.program⟩
    refine (h.faithful a p htask).elsewhere (by simpa using hopened) ?_
    have hrunning : s.task.isNone = false := by rw [show s.task = some (a, p) from htask]; rfl
    simp only [Completing, hrunning, Bool.false_or, Bool.or_eq_true, Bool.and_eq_true,
      Bool.not_eq_true'] at hok
    refine hok.imp id fun hrows => ⟨fun hdoomed => ?_, fun hconcluded => ?_⟩
    · exact hrows.1.resolve_left (by simp [hdoomed])
    · exact hrows.2.resolve_left (by simp [hconcluded])

/-- In every run whose steps complete their jobs, no attempt leaves its job stuck. -/
theorem noJobStuck_of_completing {rows : Rows}
    (h : ReachedBy step (fun s e => Completing s e) (start rows) s) : NoJobStuck s :=
  (h.invariant ⟨fun _ he => (nomatch he), fun _ _ htask => (nomatch htask),
    fun _ _ htask => (nomatch htask)⟩ fun _ _ _ hi hok hs => inv_step hi hok hs).ends

end

/-! ## A job whose output is a fallback -/

def queued : Rows := ⟨queuedJob, false⟩

def firstAttempt : Attempt := ⟨1, none, 0, false, 24 / 10000, 0, 1, 0⟩

def answered (n : ℕ) : List Event := List.replicate n (.answer 0 good)

theorem noJobStuck_answered : NoJobStuck ((runWhile step (fun s e => Completing s e) (start queued)
    (.receive firstAttempt :: answered 21)).get (by decide)) :=
  noJobStuck_of_completing (ReachedBy.of_runWhile (Option.some_get _).symm)

/-- The gateway answers the first attempt with a fallback, everything else goes well. -/
def afterFallback : World :=
  (run step (start queued) (.receive firstAttempt :: answered 12 ++ [.answer 0 fallback] ++
    answered 7)).get (by decide +kernel)

/-- The attempt has failed for good, its dead letter is written, and the job is `processing`. -/
theorem afterFallback_stuck :
    Reached step (start queued) afterFallback ∧ ¬ NoJobStuck afterFallback := by
  refine ⟨Reached.of_run (Option.some_get _).symm, fun h => ?_⟩
  have hstuck : afterFallback.ends.all End.well = false := by decide +kernel
  have hwell : afterFallback.ends.all End.well = true := List.all_eq_true.mpr h
  rw [hstuck] at hwell
  cases hwell

end WorkTicket.Tasks.JobCompletion
