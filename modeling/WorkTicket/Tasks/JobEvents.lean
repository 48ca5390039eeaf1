import WorkTicket.Tasks.JobCompletion

/-! The events that attempts of `process_job_task` write to the channel and the stream of their job
in Redis. They are written beside the transaction: the completion before its commit, the failure by
the handler of `_run`. -/

namespace WorkTicket.Tasks.JobEvents

open WorkTicket.Transition WorkTicket.Billing WorkTicket.Tasks.JobTask
open WorkTicket.Tasks.JobCompletion (Rows)
open WorkTicket.Tasks.JobReservations (usesSession)
open WorkTicket.Tasks.AttemptBooks (abortedAfter)
open Program (Both Extends CallsOnly raiseIf onlyIf extends_lift callsOnly_ask)

/-! ## The programs with their events -/

/-- The `status` of an event; a failure has the text of its exception beside it. -/
inductive JobEvent
  | complete
  | failed (fault : Fault)
  deriving DecidableEq, Repr

inductive Announcement
  | pubRedis
  | publish (e : JobEvent)
  | xadd (e : JobEvent)
  deriving DecidableEq, Repr

/-- How Redis deals with an event: an exception may come although it was `written`. -/
structure Delivery where
  written : Bool
  exception : Option Fault
  deriving DecidableEq, Repr

@[reducible] def Reply : Announcement → Type
  | .pubRedis => Bool
  | .publish _ | .xadd _ => Delivery

abbrev Script := Program (Both Answer Reply) Fault

abbrev ask (c : Command) : Script (Answer c) := Program.ask (R := Both Answer Reply) (.inl c)

abbrev send (d : Announcement) : Script (Reply d) := Program.ask (R := Both Answer Reply) (.inr d)

/-- What the calls of Redis return is not looked at. -/
def raiseException (d : Delivery) : Script Unit :=
  match d.exception with
  | some e => .raise e
  | none => pure ()

/-- `publish` and `xadd`, whose errors are only logged. -/
def announce (e : JobEvent) : Script Unit := do
  let _ ← Program.outcome do
    let pubRedis ← send .pubRedis
    onlyIf pubRedis do
      raiseException (← send (.publish e))
      raiseException (← send (.xadd e))
  return ()

def session {α : Type} (body : Script α) : Script (Except Fault α) := do
  let r ← body.outcome
  let _ ← (ask .close).outcome
  return r

/-- The completion is announced whatever the reconciliation of the state has answered. -/
def phase3PostAi (a : Attempt) (l : Locals) (output : GatewayOutput) :
    Script (Except Fault Unit) := session do
  let job ← ask .selectJob
  raiseIf (job = none) (.jobGone a.jobId)
  ask .heartbeatReservation
  let inserted ← ask .insertOutput
  onlyIf (!inserted) (ask .selectOutput)
  let _ ← (ask (.bill (.reconcileCost a.jobId (settlement a l output (!inserted))))).outcome
  let _ ← ask (.reconcileJobState .processing .completed)
  announce .complete
  onlyIf l.redisLock deleteLock.lift
  ask .commit

def onFailure (a : Attempt) (l : Locals) (e : Fault) : Script Unit := do
  onlyIf (0 < l.reservedAcu)
    (releaseReservationWithRetry a l.reservedAcu releaseTries none).lift
  onlyIf l.redisLock deleteLock.lift
  announce (.failed e)
  .raise e

def afterGateway (a : Attempt) (l : Locals) : Option GatewayOutput → Script Unit
  | none => do
    (releaseReservationWithRetry a l.reservedAcu releaseTries none).lift
    .raise .aiUnavailable
  | some output => do
    match ← phase3PostAi a l output with
    | .ok () => return ()
    | .error e => .raise e

def gatewayAndAfter (a : Attempt) (l : Locals) : Script Unit := do
  let output ← phase2AiGateway.lift
  afterGateway a l output

def afterFirstSession (a : Attempt) : Except Fault (Option Locals) → Script Unit
  | .error e => onFailure a (Locals.initial a) e
  | .ok none => return ()
  | .ok (some l) => do
    match ← (gatewayAndAfter a l).outcome with
    | .error e => onFailure a l e
    | .ok () => return ()

def runPhases (a : Attempt) : Script Unit := do
  let phase1 ← (firstSession a).lift
  afterFirstSession a phase1

def processJobTask (a : Attempt) : Script Ending := do
  match ← (guards a).lift with
  | some ending => return ending
  | none =>
    match ← (runPhases a).outcome with
    | .ok () => return .finished
    | .error e => return endingOf a e

/-! ## Nothing but the events is new -/

theorem extends_ask (c : Command) : (ask c).Extends (JobTask.ask c) := by
  refine .call fun r => ?_
  cases r with
  | ok a => exact .ret a
  | error e => exact .raise e

theorem callsOnly_raiseException {S : Command ⊕ Announcement → Prop} (d : Delivery) :
    (raiseException d).CallsOnly S := by
  unfold raiseException
  split <;> trivial

theorem extends_announce (e : JobEvent) : (announce e).Extends (pure ()) := by
  refine Extends.outcome_bind ?_ fun _ => .ret ()
  refine (callsOnly_ask.mpr (by rfl)).bind fun pubRedis => ?_
  refine CallsOnly.onlyIf ?_
  refine (callsOnly_ask.mpr (by rfl)).bind fun published => ?_
  refine (callsOnly_raiseException published).bind fun _ => ?_
  exact (callsOnly_ask.mpr (by rfl)).bind fun added => callsOnly_raiseException added

theorem extends_announce_bind {α : Type} (e : JobEvent) {f : Unit → Script α} {q : Prog α}
    (h : (f ()).Extends q) : (announce e >>= f).Extends q :=
  (extends_announce e).bind (g := fun _ => q) fun _ => h

theorem extends_session {α : Type} {body : Script α} {body' : Prog α} (h : body.Extends body') :
    (session body).Extends (JobTask.session body') :=
  h.outcome.bind fun _ => (extends_ask .close).outcome.bind fun _ => .ret _

theorem extends_phase3PostAi (a : Attempt) (l : Locals) (output : GatewayOutput) :
    (phase3PostAi a l output).Extends (JobTask.phase3PostAi a l output) := by
  refine extends_session ?_
  refine (extends_ask _).bind fun job => (Extends.raiseIf _ _).bind fun _ => ?_
  refine (extends_ask _).bind fun _ => (extends_ask _).bind fun inserted => ?_
  refine (extends_ask _).onlyIf.bind fun _ => (extends_ask _).outcome.bind fun _ => ?_
  refine (extends_ask _).bind fun _ => ?_
  -- the announcement stands where the original goes on at once
  refine extends_announce_bind .complete ?_
  exact (extends_lift _).onlyIf.bind fun _ => extends_ask _

theorem extends_onFailure (a : Attempt) (l : Locals) (e : Fault) :
    (onFailure a l e).Extends (JobTask.onFailure a l e) := by
  refine (extends_lift _).onlyIf.bind fun _ => (extends_lift _).onlyIf.bind fun _ => ?_
  exact extends_announce_bind (.failed e) (.raise e)

theorem extends_afterGateway (a : Attempt) (l : Locals) (output : Option GatewayOutput) :
    (afterGateway a l output).Extends (JobTask.afterGateway a l output) := by
  cases output with
  | none => exact (extends_lift _).bind fun _ => .raise _
  | some output =>
    refine (extends_phase3PostAi a l output).bind fun r => ?_
    cases r with
    | ok u => exact .ret ()
    | error e => exact .raise e

theorem extends_afterFirstSession (a : Attempt) (r : Except Fault (Option Locals)) :
    (afterFirstSession a r).Extends (JobTask.afterFirstSession a r) := by
  cases r with
  | error e => exact extends_onFailure a _ e
  | ok l? =>
    cases l? with
    | none => exact .ret ()
    | some l =>
      have hgateway : (gatewayAndAfter a l).Extends (JobTask.gatewayAndAfter a l) :=
        (extends_lift _).bind fun output => extends_afterGateway a l output
      refine hgateway.outcome.bind fun r => ?_
      cases r with
      | ok u => exact .ret ()
      | error e => exact extends_onFailure a l e

theorem extends_processJobTask (a : Attempt) :
    (processJobTask a).Extends (JobTask.processJobTask a) := by
  refine (extends_lift _).bind fun ending? => ?_
  cases ending? with
  | some ending => exact .ret ending
  | none =>
    have hrun : (runPhases a).Extends (JobTask.runPhases a) :=
      (extends_lift _).bind fun r => extends_afterFirstSession a r
    refine hrun.outcome.bind fun r => ?_
    cases r with
    | ok u => exact .ret _
    | error e => exact .ret _

/-- Whatever Redis answers to the events, the attempt sends the commands and ends as without. -/
theorem processJobTask_eq (a : Attempt)
    (answers : (d : Command ⊕ Announcement) → Except Fault (Both Answer Reply d)) :
    (processJobTask a).result answers =
        (JobTask.processJobTask a).result (fun c => answers (.inl c)) ∧
      ((processJobTask a).calls answers).filterMap Sum.getLeft? =
        (JobTask.processJobTask a).calls fun c => answers (.inl c) :=
  ⟨(extends_processJobTask a).result_eq, (extends_processJobTask a).calls_eq⟩

/-! ## Runs -/

/-- An event as it was written, with the rows that were committed by then. -/
structure Published where
  attempt : ℕ
  event : JobEvent
  rows : Rows
  deriving DecidableEq, Repr

/-- `found` are the committed rows as the open session found them when its transaction began; like
the rows beside an event no step reads it. -/
structure World where
  rows : Rows
  seen : Rows
  found : Rows
  opened : Bool
  aborted : Bool
  task : Option (Script Ending)
  attempt : ℕ
  channel : List Published
  stream : List Published

inductive Event
  | receive (a : Attempt)
  | answer (now : Time) (answers : (d : Command ⊕ Announcement) → Both Answer Reply d)
  | fail (fault : Fault)
  | crash
  | elsewhere (rows : Rows)

def start (rows : Rows) : World := ⟨rows, rows, rows, false, false, none, 0, [], []⟩

abbrev Next : Type :=
  (d : Command ⊕ Announcement) × (Except Fault (Both Answer Reply d) → Script Ending)

def World.next? (s : World) : Option Next :=
  match s.task with
  | some (.call d next) => some ⟨d, next⟩
  | _ => none

/-- A statement opens the session, if it is not open yet. -/
def World.use (s : World) (c : Command) : World :=
  { s with
    found := if usesSession c && !s.opened then s.rows else s.found
    opened := usesSession c || s.opened }

def World.perform (s : World) (now : Time) : Command → World
  | .commit => { s with rows := s.seen, found := s.seen, opened := true }
  | .close => { s with seen := s.rows, opened := false }
  | c => { s.use c with seen := (JobCompletion.start s.seen).seenAfter now c }

def World.write (s : World) (written : Bool) : Announcement → World
  | .pubRedis => s
  | .publish e => if written then { s with channel := s.channel ++ [⟨s.attempt, e, s.rows⟩] } else s
  | .xadd e => if written then { s with stream := s.stream ++ [⟨s.attempt, e, s.rows⟩] } else s

def World.resume (s : World) : Script Ending → World
  | .ret _ | .raise _ => { s with task := none }
  | .call d next => { s with task := some (.call d next) }

def wasWritten : (d : Announcement) → Reply d → Bool
  | .pubRedis, _ => false
  | .publish _, d | .xadd _, d => d.written

def World.answer (s : World) (now : Time)
    (answers : (d : Command ⊕ Announcement) → Both Answer Reply d) : Next → Option World
  | ⟨.inl c, next⟩ =>
    if s.aborted && usesSession c then none
    else
      let answer := (JobCompletion.start s.seen).answerOf now (fun c => answers (.inl c)) c
      some ({ s.perform now c with aborted := abortedAfter s.aborted c (.ok answer) }.resume
        (next (.ok answer)))
  | ⟨.inr d, next⟩ =>
    some ((s.write (wasWritten d (answers (.inr d))) d).resume (next (.ok (answers (.inr d)))))

/-- The command has no effect. -/
def World.fail (s : World) (fault : Fault) : Next → Option World
  | ⟨.inl c, next⟩ =>
    if c = .close then none
    else
      some ({ s.use c with aborted := abortedAfter s.aborted c (.error fault) }.resume
        (next (.error fault)))
  | ⟨.inr _, next⟩ => some (s.resume (next (.error fault)))

def step (s : World) : Event → Option World
  | .receive a =>
    match s.task with
    | none => some ({ s with
        seen := s.rows
        opened := false
        aborted := false
        attempt := s.attempt + 1 }.resume (processJobTask a))
    | some _ => none
  | .answer now answers => s.next?.bind (s.answer now answers)
  | .fail fault => s.next?.bind (s.fail fault)
  | .crash => some { s with task := none, seen := s.rows, opened := false }
  | .elsewhere rows => if s.opened then none else some { s with rows := rows, seen := rows }

/-! ## Events that agree with the database -/

/-- The output of the job and its completed state. -/
def done (r : Rows) : Bool := r.job.current = .completed && r.output

/-- A completion is written when it has been committed, and no failure of the attempt follows it in
the stream. -/
structure Agrees (s : World) : Prop where
  complete : ∀ p ∈ s.channel ++ s.stream, p.event = .complete → done p.rows = true
  failed : s.stream.Pairwise fun p q => p.attempt = q.attempt → p.event = .complete →
    ∀ fault, q.event ≠ .failed fault

/-- The running attempt has written its completion to the stream. -/
def World.announced (s : World) : Bool :=
  s.stream.any fun p => p.attempt = s.attempt && p.event = .complete

def completes : (d : Command ⊕ Announcement) → Both Answer Reply d → Bool
  | .inr (.publish .complete), d | .inr (.xadd .complete), d => d.written
  | _, _ => false

/-- A session in which a completion is written has found the job completed and its output stored,
and its commit does not fail after that. -/
def Repeats (s : World) : Event → Bool
  | .answer _ answers => s.next?.all fun ⟨d, _⟩ => !completes d (answers d) || done s.found
  | .fail _ => s.next?.all fun ⟨d, _⟩ => d ≠ .inl .commit || !s.announced
  | _ => true

/-! ## No failure after a completion -/

structure Standing where
  opened : Bool
  announced : Bool

def needs (g : Standing) : Command ⊕ Announcement → Prop
  | .inr (.publish .complete) | .inr (.xadd .complete) => g.opened = true
  | .inr (.xadd (.failed _)) => g.announced = false
  | _ => True

def expects (g : Standing) : (d : Command ⊕ Announcement) → Except Fault (Both Answer Reply d) → Prop
  | .inl .commit, .error _ => g.announced = false
  | _, _ => True

def Standing.after (g : Standing) :
    (d : Command ⊕ Announcement) → Except Fault (Both Answer Reply d) → Standing
  | .inl .close, _ => { g with opened := false }
  | .inl c, _ => { g with opened := usesSession c || g.opened }
  | .inr (.xadd .complete), .ok d => { g with announced := g.announced || d.written }
  | _, _ => g

def ghost : Program.Ghost Standing (Both Answer Reply) Fault := ⟨needs, expects, Standing.after⟩

section
open Program (wp wp_bind wp_ask wp_outcome wp_mono)

variable {α β : Type} {g : Standing}

theorem announced_after (c : Command) (r : Except Fault (Answer c)) :
    (g.after (.inl c) r).announced = g.announced := by
  cases c <;> rfl

/-- What the attempt did before there were events writes none. -/
theorem wp_lift {p : Prog α} {Q : Except Fault α → Standing → Prop}
    (hQ : ∀ r opened, Q r ⟨opened, g.announced⟩) : wp ghost (p.lift : Script α) Q g := by
  induction p generalizing g with
  | ret a => exact hQ _ g.opened
  | raise e => exact hQ _ g.opened
  | call c next ih =>
    refine ⟨trivial, fun r _ => ih r fun r' opened => ?_⟩
    have hsame := announced_after (g := g) c r
    show Q r' ⟨opened, (g.after (.inl c) r).announced⟩
    rw [hsame]
    exact hQ r' opened

theorem wp_raiseException {d : Delivery} {Q : Except Fault Unit → Standing → Prop}
    (hQ : ∀ r, Q r g) : wp ghost (raiseException d) Q g := by
  unfold raiseException
  split
  · exact hQ _
  · exact hQ _

theorem wp_announce {e : JobEvent} {Q : Except Fault Unit → Standing → Prop}
    (hpublish : needs g (.inr (.publish e))) (hxadd : needs g (.inr (.xadd e)))
    (hQ : ∀ announced, (e ≠ .complete → announced = g.announced) →
      Q (.ok ()) ⟨g.opened, announced⟩) : wp ghost (announce e) Q g := by
  unfold announce
  rw [wp_bind, wp_outcome]
  have hsame : ∀ r : Except Fault Unit, (fun (_ : Except Fault Unit) g' => Q (.ok ()) g') r g :=
    fun _ => hQ g.announced fun _ => rfl
  rw [wp_bind, wp_ask]
  refine ⟨trivial, fun pubRedis _ => ?_⟩
  cases pubRedis with
  | error f => exact hsame (.error f)
  | ok pubRedis =>
    change wp ghost (onlyIf (pubRedis = true) _) _ g
    unfold onlyIf
    split
    · rw [wp_bind, wp_ask]
      refine ⟨hpublish, fun published _ => ?_⟩
      cases published with
      | error f => exact hsame (.error f)
      | ok published =>
        change wp ghost (raiseException published >>= _) _ g
        rw [wp_bind]
        refine wp_raiseException fun r => ?_
        cases r with
        | error f => exact hsame (.error f)
        | ok u =>
          change wp ghost (send (.xadd e) >>= _) _ g
          rw [wp_bind, wp_ask]
          refine ⟨hxadd, fun added _ => ?_⟩
          cases added with
          | error f => cases e <;> exact hsame (.error f)
          | ok added =>
            change wp ghost (raiseException added) _ (g.after (.inr (.xadd e)) (.ok added))
            refine wp_raiseException fun _ => ?_
            cases e with
            | complete => exact hQ _ fun hne => absurd rfl hne
            | failed fault => exact hsame (.ok ())
    · exact hsame (.ok ())

theorem wp_ask_of {c : Command} {Q : Except Fault (Answer c) → Standing → Prop}
    (hopen : usesSession c = true)
    (hQ : ∀ r, ((∃ e, r = .error e) → c = .commit → g.announced = false) →
      Q r ⟨true, g.announced⟩) : wp ghost (ask c) Q g := by
  rw [wp_ask]
  refine ⟨trivial, fun r hexpects => ?_⟩
  have hafter : g.after (.inl c) r = ⟨true, g.announced⟩ := by
    cases c with
    | close => cases hopen
    | _ => simp [Standing.after, hopen]
  show Q r (g.after (.inl c) r)
  rw [hafter]
  refine hQ r ?_
  rintro ⟨e, rfl⟩ rfl
  exact hexpects

/-- A statement of phase 3 before the completion is announced. -/
theorem wp_statement {c : Command} (hopen : usesSession c = true) {f : Answer c → Script β}
    {Q : Except Fault β → Standing → Prop} (herror : ∀ e, Q (.error e) ⟨true, g.announced⟩)
    (hok : ∀ x, wp ghost (f x) Q ⟨true, g.announced⟩) : wp ghost (ask c >>= f) Q g := by
  rw [wp_bind]
  refine wp_ask_of hopen fun r _ => ?_
  cases r with
  | ok x => exact hok x
  | error e => exact herror e

theorem wp_session {body : Script α} {Q : Except Fault (Except Fault α) → Standing → Prop}
    (hbody : wp ghost body (fun r g' => Q (.ok r) ⟨false, g'.announced⟩) g) :
    wp ghost (session body) Q g := by
  unfold session
  rw [wp_bind, wp_outcome]
  refine wp_mono hbody fun r g' hQ => ?_
  change wp ghost ((ask .close).outcome >>= fun _ => pure r) Q g'
  rw [wp_bind, wp_outcome, wp_ask]
  exact ⟨trivial, fun _ _ => hQ⟩

theorem wp_raiseIf_bind {p : Prop} [Decidable p] {e : Fault} {f : Unit → Script β}
    {Q : Except Fault β → Standing → Prop} (herror : Q (.error e) g) (hok : wp ghost (f ()) Q g) :
    wp ghost (raiseIf p e >>= f) Q g := by
  unfold raiseIf
  split
  · exact herror
  · exact hok

theorem wp_onlyIf_bind {p : Prop} [Decidable p] {x : Script Unit} {f : Unit → Script β}
    {Q : Except Fault β → Standing → Prop} (hx : wp ghost (x >>= f) Q g)
    (hok : wp ghost (f ()) Q g) : wp ghost (onlyIf p x >>= f) Q g := by
  unfold onlyIf
  split
  · exact hx
  · exact hok

/-- The errors of the deletion are caught. -/
theorem wp_deleteLock_bind {f : Unit → Script β} {Q : Except Fault β → Standing → Prop}
    (hok : wp ghost (f ()) Q g) : wp ghost (deleteLock.lift >>= f) Q g := by
  refine ⟨trivial, fun r _ => ?_⟩
  have hsame : g.after (.inl .deleteLock) r = g := rfl
  show wp ghost _ Q (g.after (.inl .deleteLock) r)
  rw [hsame]
  cases r <;> exact hok

def FailsUnannounced (r : Except Fault Unit) (g : Standing) : Prop :=
  (∃ e, r = .error e) → g.announced = false

/-- Phase 3 fails only as long as it has not announced the completion. -/
theorem wp_phase3PostAi (a : Attempt) (l : Locals) (output : GatewayOutput)
    (hnot : g.announced = false) : wp ghost (phase3PostAi a l output)
      (fun r g' => ∃ r', r = .ok r' ∧ FailsUnannounced r' g') g := by
  have hbefore : ∀ (e : Fault) opened, ∃ r', Except.ok (.error e) = (.ok r' : Except Fault _) ∧
      FailsUnannounced r' ⟨opened, g.announced⟩ := fun e _ => ⟨.error e, rfl, fun _ => hnot⟩
  refine wp_session ?_
  refine wp_statement rfl (hbefore · _) fun job => wp_raiseIf_bind (hbefore _ _) ?_
  refine wp_statement rfl (hbefore · _) fun _ => wp_statement rfl (hbefore · _) fun inserted => ?_
  have hrest : wp ghost (do
      let _ ← (ask (.bill (.reconcileCost a.jobId (settlement a l output (!inserted))))).outcome
      let _ ← ask (.reconcileJobState .processing .completed)
      announce .complete
      onlyIf l.redisLock deleteLock.lift
      ask .commit) (fun r g' => ∃ r', Except.ok r = (.ok r' : Except Fault _) ∧
        FailsUnannounced r' ⟨false, g'.announced⟩) ⟨true, g.announced⟩ := by
    rw [wp_bind, wp_outcome]
    refine wp_ask_of rfl fun _ _ => wp_statement rfl (hbefore · _) fun _ => ?_
    rw [wp_bind]
    refine wp_announce rfl rfl fun announced _ => ?_
    -- from here on only the commit can fail, and it is not expected to when it is announced
    have hcommit : wp ghost (ask .commit) (fun r g' => ∃ r', Except.ok r = (.ok r' : Except Fault _) ∧
        FailsUnannounced r' ⟨false, g'.announced⟩) ⟨true, announced⟩ :=
      wp_ask_of rfl fun r hexpects => ⟨r, rfl, fun herror => hexpects herror rfl⟩
    exact wp_onlyIf_bind (wp_deleteLock_bind hcommit) hcommit
  exact wp_onlyIf_bind (wp_statement rfl (hbefore · _) fun _ => hrest) hrest

theorem wp_lift_bind {p : Prog α} {f : α → Script β} {Q : Except Fault β → Standing → Prop}
    (herror : ∀ e opened, Q (.error e) ⟨opened, g.announced⟩)
    (hok : ∀ x opened, wp ghost (f x) Q ⟨opened, g.announced⟩) :
    wp ghost (p.lift >>= f) Q g := by
  rw [wp_bind]
  refine wp_lift fun r opened => ?_
  cases r with
  | ok x => exact hok x opened
  | error e => exact herror e opened

theorem wp_onFailure (a : Attempt) (l : Locals) (e : Fault) (hnot : g.announced = false) :
    wp ghost (onFailure a l e) (fun _ _ => True) g := by
  have hraise : ∀ opened, wp ghost (announce (.failed e) >>= fun _ => (.raise e : Script Unit))
      (fun _ _ => True) ⟨opened, g.announced⟩ := by
    intro opened
    rw [wp_bind]
    exact wp_announce trivial hnot fun _ _ => trivial
  have hdelete : ∀ opened, wp ghost (onlyIf l.redisLock deleteLock.lift >>= fun _ =>
      announce (.failed e) >>= fun _ => (.raise e : Script Unit)) (fun _ _ => True)
      ⟨opened, g.announced⟩ := fun opened =>
    wp_onlyIf_bind (wp_deleteLock_bind (hraise opened)) (hraise opened)
  refine wp_onlyIf_bind ?_ (hdelete g.opened)
  exact wp_lift_bind (fun _ _ => trivial) fun _ opened => hdelete opened

theorem wp_gatewayAndAfter (a : Attempt) (l : Locals) (hnot : g.announced = false) :
    wp ghost (gatewayAndAfter a l) FailsUnannounced g := by
  refine wp_lift_bind (fun _ _ _ => hnot) fun output opened => ?_
  cases output with
  | none => exact wp_lift_bind (fun _ _ _ => hnot) fun _ _ _ => hnot
  | some output =>
    refine (wp_bind _ _ _).mpr (wp_mono (wp_phase3PostAi a l output hnot) ?_)
    rintro r g' ⟨r', rfl, hr'⟩
    cases r' with
    | ok u => exact fun ⟨_, herror⟩ => nomatch herror
    | error e => exact hr'

theorem wp_runPhases (a : Attempt) (hnot : g.announced = false) :
    wp ghost (runPhases a) (fun _ _ => True) g := by
  refine wp_lift_bind (fun _ _ => trivial) fun phase1 opened => ?_
  cases phase1 with
  | error e => exact wp_onFailure a _ e hnot
  | ok l? =>
    cases l? with
    | none => trivial
    | some l =>
      refine (wp_bind _ _ _).mpr ((wp_outcome _ _).mpr ?_)
      refine wp_mono (wp_gatewayAndAfter a l hnot) fun r g' hr => ?_
      cases r with
      | ok u => trivial
      | error e => exact wp_onFailure a l e (hr ⟨e, rfl⟩)

theorem wp_processJobTask (a : Attempt) (hnot : g.announced = false) :
    wp ghost (processJobTask a) (fun _ _ => True) g := by
  refine wp_lift_bind (fun _ _ => trivial) fun ending? opened => ?_
  cases ending? with
  | some ending => trivial
  | none =>
    refine (wp_bind _ _ _).mpr ((wp_outcome _ _).mpr ?_)
    refine wp_mono (wp_runPhases a hnot) fun r g' _ => ?_
    cases r <;> trivial

end

/-! ## Every run -/

structure Inv (s : World) : Prop where
  agrees : Agrees s
  found : s.opened = true → s.found = s.rows
  numbers : ∀ p ∈ s.stream, p.attempt ≤ s.attempt
  script : ∀ p, s.task = some p → p.wp ghost (fun _ _ => True) ⟨s.opened, s.announced⟩

section
variable {s s' : World}

theorem inv_start (rows : Rows) : Inv (start rows) where
  agrees := ⟨fun _ hp => absurd hp List.not_mem_nil, .nil⟩
  found := fun _ => rfl
  numbers := fun _ hp => absurd hp List.not_mem_nil
  script := fun _ htask => nomatch htask

theorem Inv.resume (hagrees : Agrees s) (hfound : s.opened = true → s.found = s.rows)
    (hnumbers : ∀ p ∈ s.stream, p.attempt ≤ s.attempt) {p : Script Ending}
    (hp : p.wp ghost (fun _ _ => True) ⟨s.opened, s.announced⟩) : Inv (s.resume p) := by
  cases p with
  | ret ending => exact ⟨⟨hagrees.1, hagrees.2⟩, hfound, hnumbers, fun _ htask => nomatch htask⟩
  | raise e => exact ⟨⟨hagrees.1, hagrees.2⟩, hfound, hnumbers, fun _ htask => nomatch htask⟩
  | call d next =>
    refine ⟨⟨hagrees.1, hagrees.2⟩, hfound, hnumbers, fun p htask => ?_⟩
    obtain rfl := Option.some.inj htask
    exact hp

theorem task_of_next? {n : Next} (h : s.next? = some n) : s.task = some (.call n.1 n.2) := by
  unfold World.next? at h
  split at h
  · rename_i htask
    cases Option.some.inj h
    exact htask
  · cases h

theorem Agrees.publish (h : Agrees s) {e : JobEvent} (he : e = .complete → done s.rows = true) :
    Agrees (s.write true (.publish e)) where
  complete := by
    intro p hp hcomplete
    rcases List.mem_append.mp hp with hchannel | hstream
    · rcases List.mem_append.mp hchannel with hold | hnew
      · exact h.complete p (List.mem_append_left _ hold) hcomplete
      · obtain rfl := List.mem_singleton.mp hnew
        exact he hcomplete
    · exact h.complete p (List.mem_append_right _ hstream) hcomplete
  failed := h.failed

theorem Agrees.xadd (h : Agrees s) {e : JobEvent} (he : e = .complete → done s.rows = true)
    (hfails : ∀ fault, e = .failed fault → s.announced = false) :
    Agrees (s.write true (.xadd e)) where
  complete := by
    intro p hp hcomplete
    rcases List.mem_append.mp hp with hchannel | hstream
    · exact h.complete p (List.mem_append_left _ hchannel) hcomplete
    · rcases List.mem_append.mp hstream with hold | hnew
      · exact h.complete p (List.mem_append_right _ hold) hcomplete
      · obtain rfl := List.mem_singleton.mp hnew
        exact he hcomplete
  failed := by
    refine List.pairwise_append.mpr ⟨h.failed, List.pairwise_singleton _ _, fun p hp q hq => ?_⟩
    obtain rfl := List.mem_singleton.mp hq
    intro hattempt hcomplete fault hfault
    have hnone := List.any_eq_false.mp (hfails fault hfault) p hp
    simp [hattempt, hcomplete] at hnone

theorem announced_write (s : World) (d : Announcement) (r : Reply d) :
    (s.write (wasWritten d r) d).opened = s.opened ∧
      (⟨s.opened, (s.write (wasWritten d r) d).announced⟩ : Standing) =
        Standing.after ⟨s.opened, s.announced⟩ (.inr d) (.ok r) := by
  cases d with
  | pubRedis => exact ⟨rfl, rfl⟩
  | publish e =>
    cases hwritten : r.written <;> simp [World.write, wasWritten, hwritten, World.announced,
      Standing.after]
  | xadd e =>
    cases e <;> cases hwritten : r.written <;> simp [World.write, wasWritten, hwritten,
      World.announced, Standing.after]

theorem write_frame (s : World) (written : Bool) (d : Announcement) :
    (s.write written d).rows = s.rows ∧ (s.write written d).found = s.found ∧
      (s.write written d).attempt = s.attempt := by
  cases d <;> cases written <;> exact ⟨rfl, rfl, rfl⟩

theorem numbers_write (h : ∀ p ∈ s.stream, p.attempt ≤ s.attempt) (written : Bool)
    (d : Announcement) : ∀ p ∈ (s.write written d).stream, p.attempt ≤ s.attempt := by
  intro p hp
  cases d with
  | pubRedis => exact h p hp
  | publish e => cases written <;> exact h p hp
  | xadd e =>
    cases written with
    | false => exact h p hp
    | true =>
      rcases List.mem_append.mp hp with hold | hnew
      · exact h p hold
      · exact (List.mem_singleton.mp hnew ▸ le_rfl)

theorem Inv.answerAnnouncement (h : Inv s) {d : Announcement}
    {next : Except Fault (Reply d) → Script Ending} (hnext : s.next? = some ⟨.inr d, next⟩)
    (r : Reply d) (hok : completes (.inr d) r = true → done s.found = true) :
    Inv ((s.write (wasWritten d r) d).resume (next (.ok r))) := by
  have hp := h.script _ (task_of_next? hnext)
  obtain ⟨hrows, hfound, hattempt⟩ := write_frame s (wasWritten d r) d
  obtain ⟨hopened, hstanding⟩ := announced_write s d r
  refine Inv.resume ?_ ?_ ?_ ?_
  · cases hwritten : wasWritten d r with
    | false => cases d <;> exact h.agrees
    | true =>
      cases d with
      | pubRedis => exact h.agrees
      | publish e =>
        refine h.agrees.publish ?_
        rintro rfl
        exact h.found hp.1 ▸ hok hwritten
      | xadd e =>
        refine h.agrees.xadd ?_ ?_
        · rintro rfl
          exact h.found hp.1 ▸ hok hwritten
        · rintro fault rfl
          exact hp.1
  · rw [hopened, hfound, hrows]
    exact h.found
  · rw [hattempt]
    exact numbers_write h.numbers _ d
  · rw [hopened, hstanding]
    exact hp.2 (.ok r) trivial

/-! The rows that are committed change only with a commit and while no session is open. -/

theorem found_use (h : s.opened = true → s.found = s.rows) (c : Command) :
    (s.use c).opened = true → (s.use c).found = (s.use c).rows := by
  intro hopened
  cases huses : usesSession c with
  | false =>
    have hbefore : s.opened = true := by simpa [World.use, huses] using hopened
    simpa [World.use, huses] using h hbefore
  | true =>
    cases hbefore : s.opened with
    | false => simp [World.use, huses, hbefore]
    | true => simpa [World.use, huses, hbefore] using h hbefore

theorem perform_of_ne (now : Time) {c : Command} (hcommit : c ≠ .commit) (hclose : c ≠ .close) :
    s.perform now c = { s.use c with seen := (JobCompletion.start s.seen).seenAfter now c } := by
  cases c with
  | commit => exact absurd rfl hcommit
  | close => exact absurd rfl hclose
  | _ => rfl

theorem found_perform (h : s.opened = true → s.found = s.rows) (now : Time) (c : Command) :
    (s.perform now c).opened = true → (s.perform now c).found = (s.perform now c).rows := by
  by_cases hcommit : c = .commit
  · subst hcommit
    exact fun _ => rfl
  · by_cases hclose : c = .close
    · subst hclose
      exact fun hopened => nomatch hopened
    · rw [perform_of_ne now hcommit hclose]
      exact found_use h c

theorem standing_perform (now : Time) (c : Command) (r : Except Fault (Answer c)) :
    (⟨(s.perform now c).opened, s.announced⟩ : Standing) =
      Standing.after ⟨s.opened, s.announced⟩ (.inl c) r := by
  cases c <;> rfl

theorem perform_frame (now : Time) (c : Command) : (s.perform now c).channel = s.channel ∧
    (s.perform now c).stream = s.stream ∧ (s.perform now c).attempt = s.attempt := by
  cases c <;> exact ⟨rfl, rfl, rfl⟩

theorem Inv.answerCommand (h : Inv s) {c : Command}
    {next : Except Fault (Answer c) → Script Ending} (hnext : s.next? = some ⟨.inl c, next⟩)
    (now : Time) (aborted : Bool) (r : Answer c) :
    Inv ({ s.perform now c with aborted := aborted }.resume (next (.ok r))) := by
  have hp := h.script _ (task_of_next? hnext)
  obtain ⟨hchannel, hstream, hattempt⟩ := perform_frame (s := s) now c
  refine Inv.resume (s := { s.perform now c with aborted := aborted }) ⟨?_, ?_⟩
    (found_perform h.found now c) ?_ ?_
  · rw [hchannel, hstream]
    exact h.agrees.complete
  · rw [hstream]
    exact h.agrees.failed
  · rw [hstream, hattempt]
    exact h.numbers
  · have hannounced : World.announced { s.perform now c with aborted := aborted } = s.announced := by
      simp only [World.announced, hstream, hattempt]
    rw [hannounced]
    have hstanding := standing_perform (s := s) now c (.ok r)
    rw [hstanding]
    exact hp.2 (.ok r) (by cases c <;> trivial)

theorem inv_step {e : Event} (h : Inv s) (hok : Repeats s e = true) (hs : step s e = some s') :
    Inv s' := by
  cases e with
  | receive a =>
    simp only [step] at hs
    split at hs
    · cases hs
      refine Inv.resume (s := { s with
        seen := s.rows
        opened := false
        aborted := false
        attempt := s.attempt + 1 }) ⟨h.agrees.1, h.agrees.2⟩ (fun hopened => (nomatch hopened))
        (fun p hp => (h.numbers p hp).trans (Nat.le_succ _)) (wp_processJobTask a ?_)
      -- the number of the attempt is new
      refine List.any_eq_false.mpr fun p hp => ?_
      have hne : p.attempt ≠ s.attempt + 1 := (Nat.lt_succ_of_le (h.numbers p hp)).ne
      simp [hne]
    · cases hs
  | answer now answers =>
    obtain ⟨⟨d, next⟩, hnext, hs⟩ := Option.bind_eq_some_iff.mp hs
    simp only [Repeats, hnext, Option.all_some, Bool.or_eq_true, Bool.not_eq_true'] at hok
    cases d with
    | inl c =>
      obtain ⟨-, hanswered⟩ := Option.ite_none_left_eq_some.mp hs
      cases hanswered
      exact h.answerCommand hnext now _ _
    | inr d =>
      cases hs
      exact h.answerAnnouncement hnext _ fun hcompletes => hok.resolve_left (by simp [hcompletes])
  | fail fault =>
    obtain ⟨⟨d, next⟩, hnext, hs⟩ := Option.bind_eq_some_iff.mp hs
    have hp := h.script _ (task_of_next? hnext)
    simp only [Repeats, hnext, Option.all_some] at hok
    cases d with
    | inl c =>
      obtain ⟨hclose, hfailed⟩ := Option.ite_none_left_eq_some.mp hs
      cases hfailed
      refine Inv.resume (s := { s.use c with aborted := abortedAfter s.aborted c (.error fault) })
        ⟨h.agrees.1, h.agrees.2⟩ (found_use h.found c) h.numbers ?_
      have hstanding : (⟨(s.use c).opened, s.announced⟩ : Standing) =
          Standing.after ⟨s.opened, s.announced⟩ (.inl c) (.error fault) := by
        cases c with
        | close => exact absurd rfl hclose
        | _ => rfl
      have hexpects : expects ⟨s.opened, s.announced⟩ (.inl c) (.error fault) := by
        cases c with
        | commit =>
          have hnot : s.announced = false := by simpa using hok
          exact hnot
        | _ => trivial
      show (next (.error fault)).wp ghost _ ⟨(s.use c).opened, s.announced⟩
      rw [hstanding]
      exact hp.2 (.error fault) hexpects
    | inr d =>
      cases hs
      refine Inv.resume ⟨h.agrees.1, h.agrees.2⟩ h.found h.numbers ?_
      have hnext := hp.2 (.error fault) trivial
      cases d with
      | xadd e => cases e <;> exact hnext
      | _ => exact hnext
  | crash =>
    cases hs
    exact ⟨⟨h.agrees.1, h.agrees.2⟩, fun hopened => (nomatch hopened), h.numbers,
      fun _ htask => (nomatch htask)⟩
  | elsewhere rows =>
    obtain ⟨hclosed, hwritten⟩ := Option.ite_none_left_eq_some.mp hs
    cases hwritten
    exact ⟨⟨h.agrees.1, h.agrees.2⟩, fun hopened => absurd hopened hclosed, h.numbers, h.script⟩

/-- In every run of attempts whose completions are repeated ones and then committed, the events
agree with the database. -/
theorem agrees_of_repeats {rows : Rows}
    (h : ReachedBy step (fun s e => Repeats s e) (start rows) s) : Agrees s :=
  (h.invariant (inv_start rows) fun _ _ _ h hok hs => inv_step h hok hs).agrees

end

/-! ## A commit that fails -/

def redisUp : (d : Command ⊕ Announcement) → Both Answer Reply d
  | .inl c => good c
  | .inr .pubRedis => true
  | .inr (.publish _) | .inr (.xadd _) => ⟨true, none⟩

def answered (n : ℕ) : List Event := List.replicate n (.answer 0 redisUp)

def completed : Rows := ⟨{ queuedJob with aiProcessingState := some .completed }, true⟩

/-- An attempt of a job that is completed already. -/
theorem agrees_repeated : Agrees ((runWhile step (fun s e => Repeats s e) (start completed)
    (.receive JobCompletion.firstAttempt :: answered 25)).get (by decide)) :=
  agrees_of_repeats (ReachedBy.of_runWhile (Option.some_get _).symm)

def commitFault : Fault := .database "connection lost" false

def afterFailedCommit : World :=
  (run step (start JobCompletion.queued) (.receive JobCompletion.firstAttempt :: answered 22 ++
    [.fail commitFault] ++ answered 8)).get (by decide +kernel)

/-- The stream tells of a completion that was never committed, and then of the failure. -/
theorem afterFailedCommit_disagrees :
    Reached step (start JobCompletion.queued) afterFailedCommit ∧ ¬Agrees afterFailedCommit := by
  refine ⟨Reached.of_run (Option.some_get _).symm, fun h => ?_⟩
  have hstream : afterFailedCommit.stream =
      [⟨1, .complete, ⟨queuedJob.enter 0 .processing, false⟩⟩,
        ⟨1, .failed commitFault, ⟨queuedJob.enter 0 .processing, false⟩⟩] := by decide +kernel
  have hfailed := h.failed
  rw [hstream] at hfailed
  exact (List.pairwise_cons.mp hfailed).1 _ (List.mem_singleton_self _) rfl rfl commitFault rfl

end WorkTicket.Tasks.JobEvents
