import WorkTicket.Tasks.JobTask

/-! How an attempt of `process_job_task` comes to end without a retry: the answers that lead
to a dead letter or refuse the attempt, and the commit that completes its job. -/

namespace WorkTicket.Tasks.AttemptEnd

open WorkTicket.Billing WorkTicket.Billing.ConcurrentCalls WorkTicket.Tasks.JobTask
open Program hiding ask

/-- The endings for which `_move_to_dead_letter` is called. -/
def writesDeadLetter : Ending → Bool
  | .refused error => error = "payload_version_mismatch"
  | .rejected | .failed _ => true
  | .finished | .retried => false

def supported (a : Attempt) : Bool :=
  minSupportedVersion ≤ a.payloadVersion && a.payloadVersion ≤ maxSupportedVersion &&
    a.payloadVersion ≤ workerVersion

/-! ## Answers that decide the end -/

def isGuard : Command → Bool
  | .signingKey | .verifyTaskPayload | .checkRetryStorm | .aiDisabled => true
  | _ => false

/-- The exceptions of these commands are caught where the command is called. -/
def isCaught : Command → Bool
  | .bill (.reconcileCost _ _) | .deleteLock | .close => true
  | _ => false

/-- The answer leads to a dead letter. -/
def dooms (a : Attempt) : (c : Command) → Except Fault (Answer c) → Bool
  | .verifyTaskPayload, .ok verified => !verified
  | .processJob, .ok output => !output.accepted
  | .reconcileJobState _ target, .ok r => target ≠ .completed && r = .inconsistent &&
      endingOf a (.inconsistent a.jobId target) ≠ .retried
  | _, .ok _ => false
  | c, .error f => !isGuard c && !isCaught c && endingOf a f ≠ .retried

/-- The answer ends the attempt before it has begun; nobody catches an exception of a guard. -/
def refuses : (c : Command) → Except Fault (Answer c) → Bool
  | .signingKey, .ok configured => !configured
  | .checkRetryStorm, .ok allowed => !allowed
  | .aiDisabled, .ok disabled => disabled
  | _, .ok _ => false
  | c, .error _ => isGuard c

/-- The answer tells that another worker holds the lock of the job. -/
def showsHolder : (c : Command) → Except Fault (Answer c) → Bool
  | .setLock, .ok acquired => !acquired
  | .getHeartbeat, .ok beating => !beating
  | .lockTtl, .ok ttl => 30 < ttl
  | .takeOver, .ok acquired => !acquired
  | _, _ => false

attribute [grind =] isGuard isCaught dooms refuses showsHolder

/-- Where an attempt stands: whether its session has written to the job or its output, has
brought the job to `completed` and has found or stored an output, and whether the end of the
attempt is decided, by a dead letter to come, by a refusal or by the commit of the completion,
or another worker holds the lock. -/
structure Standing where
  dirty : Bool
  completing : Bool
  stored : Bool
  doomed : Bool
  concluded : Bool
  skipped : Bool
  deriving DecidableEq, Repr

namespace Standing

def fresh : Standing := ⟨false, false, false, false, false, false⟩

def initial (a : Attempt) : Standing := { fresh with doomed := !supported a }

def fault (t : Standing) (a : Attempt) (f : Fault) : Standing :=
  { t with doomed := t.doomed || endingOf a f ≠ .retried }

def close (t : Standing) : Standing :=
  { t with dirty := false, completing := false, stored := false }

/-- What an answer decides. -/
def decided (t : Standing) (a : Attempt) (c : Command) (r : Except Fault (Answer c)) : Standing :=
  { t with
    doomed := t.doomed || dooms a c r
    concluded := t.concluded || refuses c r
    skipped := t.skipped || showsHolder c r }

def after (t : Standing) (a : Attempt) (c : Command) (r : Except Fault (Answer c)) : Standing :=
  let t := t.decided a c r
  match c, r with
  | .reconcileJobState expected target, .ok _ =>
    { t with dirty := true, completing := expected = .processing && target = .completed }
  | .transitionFailed, .ok _ => { t with dirty := true, completing := false }
  | .countRetry, .ok _ => { t with dirty := true }
  | .insertOutput, .ok _ => { t with dirty := true, stored := true }
  | .commit, .ok _ =>
    { t with dirty := false, concluded := t.concluded || (t.completing && t.stored) }
  | .close, _ => t.close
  | _, _ => t

end Standing

/-- A commit after the end is decided commits nothing. -/
def needs (t : Standing) : Command → Prop
  | .commit => t.skipped = false → (t.doomed || t.concluded) = true → t.dirty = false
  | _ => True

/-- The job exists. -/
def expects : (c : Command) → Except Fault (Answer c) → Prop
  | .selectJob, .ok job => job ≠ none
  | _, _ => True

def ghost (a : Attempt) : Ghost Standing Answer Fault where
  needs := needs
  expects := fun _ => expects
  after := fun t => t.after a

/-- The exception is retried, or was known to lead to a dead letter. -/
def Fine (a : Attempt) (f : Fault) (t : Standing) : Prop :=
  endingOf a f = .retried ∨ t.doomed = true

/-- How the end must have been decided. -/
def Decided (r : Except Fault Ending) (t : Standing) : Prop :=
  t.skipped = true ∨ match r with
    | .ok ending => ending = .retried ∨
        (if writesDeadLetter ending then t.doomed = true else t.concluded = true)
    | .error _ => t.concluded = true

/-! ## Pieces of the program -/

section
variable {a : Attempt} {t : Standing}

theorem fault_fine (t : Standing) (f : Fault) : Fine a f (t.fault a f) := by
  by_cases h : endingOf a f = .retried
  · exact .inl h
  · exact .inr (by simp [Standing.fault, h])

theorem after_error {c : Command} (hguard : isGuard c = false) (hcaught : isCaught c = false)
    (f : Fault) : t.after a c (.error f) = t.fault a f := by
  have hdecided : t.decided a c (.error f) = t.fault a f := by
    have hdooms : dooms a c (.error f) = (!isGuard c && !isCaught c && endingOf a f ≠ .retried) := by
      cases c <;> rfl
    have hrefuses : refuses c (.error f) = isGuard c := by cases c <;> rfl
    have hholder : showsHolder c (.error f) = false := by cases c <;> rfl
    simp [Standing.decided, Standing.fault, hdooms, hrefuses, hholder, hguard, hcaught]
  rw [← hdecided]
  cases c with
  | close => cases hcaught
  | _ => rfl

/-- A command whose exceptions reach the handler of the attempt. -/
theorem wp_handled {c : Command} (hguard : isGuard c = false) (hcaught : isCaught c = false)
    {Q : Except Fault (Answer c) → Standing → Prop} (hneeds : needs t c)
    (hok : ∀ v, expects c (.ok v) → Q (.ok v) (t.after a c (.ok v)))
    (herror : ∀ e, Q (.error e) (t.fault a e)) : wp (ghost a) (ask c) Q t := by
  rw [wp_ask]
  refine ⟨hneeds, fun r hr => ?_⟩
  cases r with
  | ok v => exact hok v hr
  | error e =>
    show Q (.error e) (t.after a c (.error e))
    rw [after_error hguard hcaught]
    exact herror e

theorem wp_skipped {α : Type} {p : Prog α} {Q : Except Fault α → Standing → Prop}
    (h : t.skipped = true) (hQ : ∀ r t', t'.skipped = true → Q r t') : wp (ghost a) p Q t := by
  induction p generalizing t with
  | ret v => exact hQ _ _ h
  | raise e => exact hQ _ _ h
  | call c next ih =>
    have hneeds : needs t c := by
      cases c with
      | commit => exact fun hnot => absurd (h.symm.trans hnot) (by decide)
      | _ => trivial
    refine ⟨hneeds, fun r _ => ih r ?_⟩
    show (t.after a c r).skipped = true
    have hdecided : (t.decided a c r).skipped = true := by simp [Standing.decided, h]
    unfold Standing.after
    simp only
    split <;> exact hdecided

/-- An answer of these commands decides nothing, an exception of theirs reaches the handler. -/
def Quiet : Command → Prop
  | .setHeartbeat | .getLock | .heartbeatReservation | .selectOutput => True
  | .bill c => ∀ jobId r, c ≠ .reconcileCost jobId r
  | _ => False

theorem after_quiet {c : Command} (hc : Quiet c) (v : Answer c) : t.after a c (.ok v) = t := by
  cases c <;> first
    | exact hc.elim
    | simp [Standing.after, Standing.decided, dooms, refuses, showsHolder]

theorem after_quiet_error {c : Command} (hc : Quiet c) (f : Fault) :
    t.after a c (.error f) = t.fault a f := by
  cases c with
  | bill c =>
    cases c with
    | reconcileCost jobId r => exact absurd rfl (hc jobId r)
    | _ => exact after_error rfl rfl f
  | setHeartbeat | getLock | heartbeatReservation | selectOutput => exact after_error rfl rfl f
  | _ => exact hc.elim

theorem wp_quiet {α : Type} {p : Prog α} (hp : p.CallsOnly Quiet) (hpass : p.PassesOn)
    {Q : Except Fault α → Standing → Prop} (hok : ∀ v, Q (.ok v) t)
    (herror : ∀ f, Q (.error f) (t.fault a f)) : wp (ghost a) p Q t := by
  induction p with
  | ret v => exact hok v
  | raise e => exact hpass.elim
  | call c next ih =>
    have hneeds : needs t c := by
      cases c <;> first | trivial | exact hp.1.elim
    refine ⟨hneeds, fun r _ => ?_⟩
    cases r with
    | ok v =>
      show wp (ghost a) (next (.ok v)) Q (t.after a c (.ok v))
      rw [after_quiet hp.1]
      exact ih (.ok v) (hp.2 (.ok v)) (hpass.1 v)
    | error f =>
      show wp (ghost a) (next (.error f)) Q (t.after a c (.error f))
      rw [hpass.2 f, after_quiet_error hp.1]
      exact herror f

theorem wp_quiet_bind {α β : Type} {p : Prog α} {f : α → Prog β} (hp : p.CallsOnly Quiet)
    (hpass : p.PassesOn) {Q : Except Fault β → Standing → Prop} (hok : ∀ v, wp (ghost a) (f v) Q t)
    (herror : ∀ e, Q (.error e) (t.fault a e)) : wp (ghost a) (p >>= f) Q t := by
  rw [wp_bind]
  exact wp_quiet hp hpass hok herror

theorem wp_selectJob_bind {β : Type} {f : Option Job → Prog β}
    {Q : Except Fault β → Standing → Prop} (hok : ∀ job, wp (ghost a) (f (some job)) Q t)
    (herror : ∀ e, Q (.error e) (t.fault a e)) : wp (ghost a) (ask .selectJob >>= f) Q t := by
  rw [wp_bind]
  refine wp_handled rfl rfl trivial (fun job hjob => ?_) herror
  cases job with
  | none => exact absurd rfl hjob
  | some job =>
    have hsame : t.after a .selectJob (.ok (some job)) = t := by
      simp [Standing.after, Standing.decided, dooms, refuses, showsHolder]
    rw [hsame]
    exact hok job

theorem wp_session {α : Type} {body : Prog α} {Q : Except Fault (Except Fault α) → Standing → Prop}
    (h : wp (ghost a) body (fun r t' => Q (.ok r) t'.close) t) : wp (ghost a) (session body) Q t := by
  unfold session
  rw [wp_bind, wp_outcome]
  refine wp_mono h fun r t' hr => ?_
  simp only [wp_bind, wp_outcome, wp_ask]
  refine ⟨trivial, fun r' _ => ?_⟩
  have hclose : t'.after a .close r' = t'.close := by
    cases r' <;> simp [Standing.after, Standing.decided, Standing.close, dooms, refuses,
      showsHolder, isGuard, isCaught]
  show Q (.ok r) (t'.after a .close r')
  rw [hclose]
  exact hr

/-- An exception of `redis_lock.delete` is only logged. -/
theorem wp_deleteLock_bind {β : Type} {l : Locals} {f : Unit → Prog β}
    {Q : Except Fault β → Standing → Prop} (h : wp (ghost a) (f ()) Q t) :
    wp (ghost a) (onlyIf l.redisLock deleteLock >>= f) Q t := by
  unfold Program.onlyIf
  split
  · simp only [deleteLock, wp_bind, wp_outcome, wp_ask]
    refine ⟨trivial, fun r _ => ?_⟩
    have hsame : t.after a .deleteLock r = t := by
      cases r <;> simp [Standing.after, Standing.decided, dooms, refuses, showsHolder, isGuard,
        isCaught]
    show wp (ghost a) (f ()) Q (t.after a .deleteLock r)
    rw [hsame]
    exact h
  · exact h

/-! ## Releasing and failing -/

/-- No session is open, and whoever was doomed still is. -/
def Keeps (t t' : Standing) : Prop := t'.close = t' ∧ (t.doomed = true → t'.doomed = true)

theorem Keeps.trans {t₁ t₂ t₃ : Standing} (h : Keeps t₁ t₂) (h' : Keeps t₂ t₃) : Keeps t₁ t₃ :=
  ⟨h'.1, fun hd => h'.2 (h.2 hd)⟩

theorem after_commit (h : t.close = t) : t.after a .commit (.ok ()) = t := by
  rw [← h]
  simp [Standing.after, Standing.decided, Standing.close, dooms, refuses, showsHolder]

theorem keeps_fault (f : Fault) : Keeps t (t.fault a f).close := by
  refine ⟨rfl, fun hd => ?_⟩
  simp [Standing.close, Standing.fault, hd]

/-- A session of a billing call on its own. -/
theorem wp_billingSession {α : Type} {p : Prog α} (hp : p.CallsOnly Quiet) (hpass : p.PassesOn)
    (h : t.close = t) : wp (ghost a) (session (p >>= fun _ => ask .commit))
      (fun r t' => (∃ released, r = .ok released) ∧ Keeps t t') t := by
  refine wp_session (wp_quiet_bind hp hpass (fun _ => ?_) fun f => ⟨⟨_, rfl⟩, keeps_fault f⟩)
  refine wp_handled rfl rfl (fun _ _ => (congrArg Standing.dirty h).symm) (fun u _ => ?_)
    fun f => ⟨⟨_, rfl⟩, keeps_fault f⟩
  rw [after_commit h]
  exact ⟨⟨_, rfl⟩, h.symm ▸ ⟨h, id⟩⟩

theorem quiet_bill {c : Call} (hc : ∀ jobId r, c ≠ .reconcileCost jobId r) :
    (ask (.bill c)).CallsOnly Quiet ∧ (ask (.bill c)).PassesOn :=
  ⟨callsOnly_ask.mpr hc, passesOn_ask⟩

theorem quiet_releaseIn (acu : ℚ) : (releaseIn acu).CallsOnly Quiet ∧ (releaseIn acu).PassesOn := by
  obtain ⟨hcalls, hpass⟩ := quiet_bill (c := .releaseReserved acu) (fun _ _ hc => nomatch hc)
  exact ⟨hcalls.bind fun _ => trivial, hpass.bind fun _ => trivial⟩

theorem wp_releaseReservationWithRetry {acu : ℚ} {tries : ℕ} {lastErr : Option Fault}
    (h : t.close = t) : wp (ghost a) (releaseReservationWithRetry a acu tries lastErr)
      (fun r t' => r = .ok () ∧ Keeps t t') t := by
  induction tries generalizing t lastErr with
  | zero =>
    obtain ⟨hcalls, hpass⟩ := quiet_bill (c := .grantCredit a.jobId acu (autoCompensateReason lastErr))
      (fun _ _ hc => nomatch hc)
    rw [releaseReservationWithRetry, wp_bind]
    refine wp_mono (wp_billingSession hcalls hpass h) fun r t' hr => ?_
    obtain ⟨⟨_, rfl⟩, hkeeps⟩ := hr
    exact ⟨rfl, hkeeps⟩
  | succ tries ih =>
    obtain ⟨hcalls, hpass⟩ := quiet_releaseIn acu
    rw [releaseReservationWithRetry, wp_bind]
    refine wp_mono (wp_billingSession hcalls hpass h) fun r t' hr => ?_
    obtain ⟨⟨released, rfl⟩, hkeeps⟩ := hr
    cases released with
    | ok u => exact ⟨rfl, hkeeps⟩
    | error e => exact wp_mono (ih hkeeps.1) fun r t'' hr => ⟨hr.1, hkeeps.trans hr.2⟩

/-- The handler ends with the exception it was called for. -/
theorem wp_onFailure {l : Locals} {e : Fault} (hfine : Fine a e t) (h : t.close = t) :
    wp (ghost a) (onFailure a l e) (fun r t' => r = .error e ∧ Fine a e t') t := by
  have hend : ∀ t' : Standing, Keeps t t' →
      wp (ghost a) (onlyIf l.redisLock deleteLock >>= fun _ => (raise e : Prog Unit))
        (fun r t' => r = .error e ∧ Fine a e t') t' := fun t' hkeeps =>
    wp_deleteLock_bind ⟨rfl, hfine.imp id hkeeps.2⟩
  unfold onFailure
  rw [wp_bind]
  unfold Program.onlyIf
  split
  · refine wp_mono (wp_releaseReservationWithRetry h) fun r t' hr => ?_
    obtain ⟨rfl, hkeeps⟩ := hr
    exact hend t' hkeeps
  · exact hend t ⟨h, id⟩

/-! ## Phases 2 and 3 -/

/-- The end of phase 3 is decided by its commit. -/
theorem wp_complete {l : Locals} : wp (ghost a) (do
      let _ ← ask (.reconcileJobState .processing .completed)
      onlyIf l.redisLock deleteLock
      ask .commit) (fun r t' => match r with
        | .ok () => t'.concluded = true
        | .error e => Fine a e t') { Standing.fresh with dirty := true, stored := true } := by
  rw [wp_bind]
  refine wp_handled rfl rfl trivial (fun r _ => ?_) (fault_fine _)
  refine wp_deleteLock_bind ?_
  refine wp_handled rfl rfl (fun _ hdecided => (nomatch hdecided)) (fun u _ => ?_) (fault_fine _)
  exact rfl

theorem wp_phase3PostAi {l : Locals} {output : GatewayOutput} :
    wp (ghost a) (phase3PostAi a l output) (fun r t' => t'.close = t' ∧ match r with
      | .ok (.ok ()) => t'.concluded = true
      | .ok (.error e) => Fine a e t'
      | .error _ => False) Standing.fresh := by
  have hfault : ∀ (t : Standing) (e : Fault),
      (t.fault a e).close.close = (t.fault a e).close ∧ Fine a e (t.fault a e).close :=
    fun t e => ⟨rfl, fault_fine t e⟩
  unfold phase3PostAi
  refine wp_session (wp_selectJob_bind (fun job => ?_) (hfault _))
  simp only [raiseIf, reduceCtorEq, if_false]
  refine wp_quiet_bind (callsOnly_ask.mpr (by trivial)) passesOn_ask (fun _ => ?_) (hfault _)
  rw [wp_bind]
  refine wp_handled rfl rfl trivial (fun inserted _ => ?_) (hfault _)
  refine wp_quiet_bind (CallsOnly.onlyIf (callsOnly_ask.mpr (by trivial)))
    (PassesOn.onlyIf passesOn_ask) (fun _ => ?_) (hfault _)
  rw [wp_bind, wp_outcome, wp_ask]
  refine ⟨trivial, fun r _ => ?_⟩
  have hcomplete : wp (ghost a) (do
      let _ ← ask (.reconcileJobState .processing .completed)
      onlyIf l.redisLock deleteLock
      ask .commit) (fun r t' => t'.close.close = t'.close ∧ match r with
        | .ok () => t'.close.concluded = true
        | .error e => Fine a e t'.close) { Standing.fresh with dirty := true, stored := true } :=
    wp_mono wp_complete fun r t' hr => ⟨rfl, by cases r <;> exact hr⟩
  -- whatever the reconciliation of the costs answers, the attempt goes on
  cases r <;> exact wp_mono hcomplete fun r t' hr => by cases r <;> exact hr

theorem wp_afterGateway {l : Locals} {output : Option GatewayOutput} (h : t.close = t)
    (hnone : output = none → t.doomed = true) (hsome : output ≠ none → t = Standing.fresh) :
    wp (ghost a) (afterGateway a l output) (fun r t' => t'.close = t' ∧ match r with
      | .ok () => t'.concluded = true
      | .error e => Fine a e t') t := by
  cases output with
  | none =>
    unfold afterGateway
    rw [wp_bind]
    refine wp_mono (wp_releaseReservationWithRetry h) fun r t' hr => ?_
    obtain ⟨rfl, hkeeps⟩ := hr
    exact ⟨hkeeps.1, .inr (hkeeps.2 (hnone rfl))⟩
  | some output =>
    obtain rfl := hsome (by simp)
    unfold afterGateway
    rw [wp_bind]
    refine wp_mono wp_phase3PostAi fun r t' hr => ?_
    cases r with
    | error e => exact hr.2.elim
    | ok r => cases r <;> exact hr

theorem wp_gatewayAndAfter {l : Locals} :
    wp (ghost a) (gatewayAndAfter a l) (fun r t' => t'.close = t' ∧ match r with
      | .ok () => t'.concluded = true
      | .error e => Fine a e t') Standing.fresh := by
  unfold gatewayAndAfter phase2AiGateway
  simp only [wp_bind, wp_pure]
  refine wp_handled rfl rfl trivial (fun output _ => ?_) fun e => ⟨rfl, fault_fine _ e⟩
  refine wp_afterGateway rfl (fun hnone => ?_) fun hsome => ?_
  · have hrejected : output.accepted = false := by
      by_contra haccepted
      rw [if_pos (Bool.of_not_eq_false haccepted)] at hnone
      cases hnone
    show (!output.accepted) = true
    rw [hrejected]
    rfl
  · have haccepted : output.accepted = true := by
      by_contra hrejected
      rw [if_neg hrejected] at hsome
      exact hsome rfl
    have hsame : Standing.fresh.after a .processJob (.ok output) = Standing.fresh := by
      simp [Standing.after, Standing.decided, Standing.fresh, dooms, refuses, showsHolder,
        haccepted]
    exact hsame

/-! ## Phase 1 -/

/-- Nothing is decided yet, or another worker holds the lock. -/
def Undecided (a : Attempt) {α : Type} (r : Except Fault α) (t : Standing) : Prop :=
  t.skipped = true ∨ match r with
    | .ok _ => t = .fresh
    | .error e => Fine a e t

theorem needs_fresh (c : Command) : needs .fresh c := by
  cases c <;> first | trivial | exact fun _ hdecided => (nomatch hdecided)

theorem wp_ask_bind {c : Command} (hguard : isGuard c = false) (hcaught : isCaught c = false)
    {β : Type} {f : Answer c → Prog β}
    (hf : ∀ v, wp (ghost a) (f v) (Undecided a) (Standing.fresh.after a c (.ok v))) :
    wp (ghost a) (ask c >>= f) (Undecided a) .fresh := by
  rw [wp_bind]
  exact wp_handled hguard hcaught (needs_fresh c) (fun v _ => hf v) fun e => .inr (fault_fine _ e)

theorem wp_ask_undecided {c : Command} (hguard : isGuard c = false) (hcaught : isCaught c = false)
    (hc : ∀ v, Undecided a (.ok v) (Standing.fresh.after a c (.ok v))) :
    wp (ghost a) (ask c) (Undecided a) .fresh :=
  wp_handled hguard hcaught (needs_fresh c) (fun v _ => hc v) fun e => .inr (fault_fine _ e)

theorem wp_takeOverLock : wp (ghost a) takeOverLock (Undecided a) .fresh := by
  unfold takeOverLock
  refine wp_ask_bind rfl rfl fun held => ?_
  cases held with
  | false => exact .inr rfl
  | true =>
    refine wp_ask_bind rfl rfl fun beating => ?_
    cases beating with
    | false => exact .inl rfl
    | true =>
      refine wp_ask_bind rfl rfl fun ttl => ?_
      by_cases httl : 30 < ttl
      · rw [if_pos httl]
        refine .inl ?_
        show (false || decide (30 < ttl)) = true
        rw [decide_eq_true httl]
        rfl
      · have hfresh : Standing.fresh.after a .lockTtl (.ok ttl) = .fresh := by
          simp [Standing.after, Standing.decided, Standing.fresh, dooms, refuses, showsHolder, httl]
        rw [if_neg httl, hfresh]
        refine wp_ask_undecided rfl rfl fun acquired => ?_
        cases acquired with
        | true => exact .inr rfl
        | false => exact .inl rfl

theorem wp_acquireLock : wp (ghost a) (acquireLock a) (Undecided a) .fresh := by
  have hlock : wp (ghost a) (if 0 < a.retries then takeOverLock else ask .setLock : Prog Bool)
      (Undecided a) .fresh := by
    split
    · exact wp_takeOverLock
    · refine wp_ask_undecided rfl rfl fun acquired => ?_
      cases acquired with
      | true => exact .inr rfl
      | false => exact .inl rfl
  unfold acquireLock
  rw [wp_bind]
  refine wp_mono hlock fun r t' hr => ?_
  cases r with
  | error e => exact hr
  | ok acquired =>
    obtain hskipped | rfl := hr
    · exact wp_skipped hskipped fun _ _ h => .inl h
    · exact wp_quiet_bind (CallsOnly.onlyIf (callsOnly_ask.mpr (by trivial)))
        (PassesOn.onlyIf passesOn_ask) (fun _ => .inr rfl) fun e => .inr (fault_fine _ e)

/-- Nothing is decided, and the session has stored no output. -/
def Early (t : Standing) : Prop := t.close = .fresh ∧ t.stored = false

/-- Phase 1 returns a tuple with nothing decided. -/
def Phase1Post (a : Attempt) (r : Except Fault Phase1Result) (t : Standing) : Prop :=
  t.skipped = true ∨ match r with
    | .ok r => (∃ slot l, r = .tuple slot l) ∧ Early t
    | .error e => Fine a e t

theorem Early.after (h : Early t) {c : Command} {v : Answer c} (hdooms : dooms a c (.ok v) = false)
    (hrefuses : refuses c (.ok v) = false) (hholder : showsHolder c (.ok v) = false)
    (hstored : c ≠ .insertOutput) : Early (t.after a c (.ok v)) := by
  have hdecided : t.decided a c (.ok v) = t := by
    simp [Standing.decided, hdooms, hrefuses, hholder]
  obtain ⟨hclose, hnot⟩ := h
  have hconcluded : t.concluded = false := congrArg Standing.concluded hclose
  unfold Standing.after
  rw [hdecided]
  cases c with
  | insertOutput => exact absurd rfl hstored
  | commit =>
    refine ⟨?_, hnot⟩
    rw [← hclose]
    simp [Standing.close, hnot]
  | close => exact ⟨hclose, rfl⟩
  | _ => exact ⟨hclose, hnot⟩

theorem Early.needs (h : Early t) (c : Command) : needs t c := by
  have hdoomed : t.doomed = false := congrArg Standing.doomed h.1
  have hconcluded : t.concluded = false := congrArg Standing.concluded h.1
  cases c with
  | commit => exact fun _ hdecided => by simp [hdoomed, hconcluded] at hdecided
  | _ => trivial

/-- A command of phase 1 whose answer decides nothing. -/
theorem wp_early_bind {c : Command} (hguard : isGuard c = false) (hcaught : isCaught c = false)
    {f : Answer c → Prog Phase1Result} (ht : Early t)
    (hf : ∀ v, wp (ghost a) (f v) (Phase1Post a) (t.after a c (.ok v))) :
    wp (ghost a) (ask c >>= f) (Phase1Post a) t := by
  rw [wp_bind]
  exact wp_handled hguard hcaught (ht.needs c) (fun v _ => hf v) fun e => .inr (fault_fine _ e)

/-- `_reconcile_job_state` in phase 1, where an inconsistent state is raised. -/
theorem wp_reconcile_bind {expected target : AIProcessingState} (htarget : target ≠ .completed)
    {p : Prog Phase1Result} (ht : Early t)
    (hp : ∀ t' : Standing, Early t' → wp (ghost a) p (Phase1Post a) t') :
    wp (ghost a) (do
      let transResult ← ask (.reconcileJobState expected target)
      raiseIf (transResult = .inconsistent) (.inconsistent a.jobId target)
      p) (Phase1Post a) t := by
  refine wp_early_bind rfl rfl ht fun r => ?_
  unfold raiseIf
  by_cases hr : r = .inconsistent
  · rw [if_pos hr]
    refine .inr ?_
    by_cases hretried : endingOf a (.inconsistent a.jobId target) = .retried
    · exact .inl hretried
    · exact .inr (by simp [Standing.after, Standing.decided, dooms, htarget, hr, hretried])
  · rw [if_neg hr]
    exact hp _ (ht.after (by simp [dooms, hr]) rfl rfl (by simp))

theorem wp_enterProcessing {estimatedCostUsd acu : ℚ} (ht : Early t) :
    wp (ghost a) (enterProcessing a estimatedCostUsd acu) (Phase1Post a) t := by
  unfold enterProcessing
  refine wp_reconcile_bind (by decide) ht fun t' ht' => ?_
  refine wp_early_bind rfl rfl ht' fun _ => ?_
  have hbeat := ht'.after (c := .heartbeatReservation) (a := a) (v := ()) rfl rfl rfl (by simp)
  refine wp_early_bind rfl rfl hbeat fun _ => .inr ⟨⟨_, _, rfl⟩, ?_⟩
  exact hbeat.after rfl rfl rfl (by simp)

theorem wp_reserveQuota {cost : ℚ} (ht : Early t) :
    wp (ghost a) (reserveQuota a cost) (Phase1Post a) t := by
  unfold reserveQuota
  refine wp_early_bind rfl rfl ht fun report => ?_
  have hreserve : Early (t.after a (.bill (.checkAndReserve cost)) (.ok report)) :=
    ht.after rfl rfl rfl (by simp)
  split
  · exact wp_enterProcessing hreserve
  · refine wp_early_bind rfl rfl hreserve fun _ => .inr ⟨⟨_, _, rfl⟩, ?_⟩
    exact hreserve.after rfl rfl rfl (by simp)

theorem wp_reserveForJob (ht : Early t) :
    wp (ghost a) (reserveForJob a) (Phase1Post a) t := by
  unfold reserveForJob
  split
  · split
    · exact wp_enterProcessing ht
    · exact wp_reserveQuota ht
  · exact wp_reserveQuota ht

theorem wp_claimJob (ht : Early t) : wp (ghost a) (claimJob a) (Phase1Post a) t := by
  unfold claimJob
  refine wp_reconcile_bind (by decide) ht fun t' ht' => ?_
  unfold Program.onlyIf
  split
  · refine wp_early_bind rfl rfl ht' fun _ => wp_reserveForJob ?_
    exact ht'.after rfl rfl rfl (by simp)
  · exact wp_reserveForJob ht'

theorem wp_phase1PreAi : wp (ghost a) (phase1PreAi a) (Phase1Post a) .fresh := by
  have hearly : Early .fresh := ⟨rfl, rfl⟩
  unfold phase1PreAi
  refine wp_selectJob_bind (fun job => ?_) fun e => .inr (fault_fine _ e)
  simp only [raiseIf, reduceCtorEq, if_false]
  show wp (ghost a) (acquireLock a >>= _) _ _
  rw [wp_bind]
  refine wp_mono wp_acquireLock fun r t' hr => ?_
  cases r with
  | error e => exact hr
  | ok acquired =>
    obtain hskipped | rfl := hr
    · exact wp_skipped hskipped fun _ _ h => .inl h
    · show wp (ghost a) (if acquired then claimJob a else _) _ _
      split
      · exact wp_claimJob hearly
      · obtain ⟨hcalls, hpass⟩ := quiet_releaseIn a.reservedAcu
        exact wp_quiet_bind (CallsOnly.onlyIf hcalls) (PassesOn.onlyIf hpass)
          (fun _ => .inr ⟨⟨_, _, rfl⟩, hearly⟩) fun e => .inr (fault_fine _ e)

/-! ## The task -/

theorem wp_firstSession : wp (ghost a) (firstSession a) (fun r t' => t'.skipped = true ∨ match r with
    | .ok (.ok l) => l ≠ none ∧ t' = .fresh
    | .ok (.error e) => t'.close = t' ∧ Fine a e t'
    | .error _ => False) .fresh := by
  refine wp_session ?_
  rw [wp_bind]
  refine wp_mono wp_phase1PreAi fun r t' hr => ?_
  cases r with
  | error e => exact hr.imp id fun hfine => ⟨rfl, hfine⟩
  | ok r =>
    obtain hskipped | ⟨⟨slot, l, rfl⟩, hearly⟩ := hr
    · exact wp_skipped hskipped fun _ _ h => .inl h
    · exact .inr ⟨by simp, hearly.1⟩

theorem wp_runPhases : wp (ghost a) (runPhases a) (fun r t' => t'.skipped = true ∨ match r with
    | .ok () => t'.concluded = true
    | .error e => Fine a e t') .fresh := by
  unfold runPhases
  rw [wp_bind]
  refine wp_mono wp_firstSession fun r t' hr => ?_
  -- whatever an attempt does without the lock, it ends as skipped
  obtain hskipped | hr := hr
  · cases r with
    | error e => exact .inl hskipped
    | ok r => exact wp_skipped hskipped fun _ _ h => .inl h
  cases r with
  | error e => exact hr.elim
  | ok r =>
    cases r with
    | error e =>
      refine wp_mono (wp_onFailure hr.2 hr.1) fun r t'' hr => ?_
      obtain ⟨rfl, hfine⟩ := hr
      exact .inr hfine
    | ok l =>
      obtain ⟨hl, rfl⟩ := hr
      obtain ⟨l, rfl⟩ := Option.ne_none_iff_exists'.mp hl
      show wp (ghost a) (afterFirstSession a (.ok (some l))) _ _
      rw [afterFirstSession, wp_bind, wp_outcome]
      refine wp_mono wp_gatewayAndAfter fun r t'' hr => ?_
      cases r with
      | ok u => exact .inr hr.2
      | error e =>
        refine wp_mono (wp_onFailure hr.2 hr.1) fun r t₃ hr => ?_
        obtain ⟨rfl, hfine⟩ := hr
        exact .inr hfine

theorem endingOf_cases (a : Attempt) (e : Fault) :
    endingOf a e = .retried ∨ endingOf a e = .failed e.text := by
  unfold endingOf
  split_ifs
  · exact .inl rfl
  · exact .inr rfl
  · exact .inl rfl

theorem Fine.decided {e : Fault} (h : Fine a e t) : Decided (.ok (endingOf a e)) t := by
  refine .inr ?_
  obtain hretried | hfailed := endingOf_cases a e
  · exact .inl hretried
  · obtain hretried | hdoomed := h
    · exact .inl hretried
    · exact .inr (by simpa [hfailed, writesDeadLetter] using hdoomed)

def GuardsPost (r : Except Fault (Option Ending)) (t : Standing) : Prop :=
  match r with
  | .ok none => t = .fresh
  | .ok (some ending) => Decided (.ok ending) t
  | .error e => Decided (.error e) t

theorem wp_guard_bind {c : Command} (hguard : isGuard c = true) {f : Answer c → Prog (Option Ending)}
    (hf : ∀ v, wp (ghost a) (f v) GuardsPost (Standing.fresh.after a c (.ok v))) :
    wp (ghost a) (ask c >>= f) GuardsPost .fresh := by
  rw [wp_bind, wp_ask]
  refine ⟨needs_fresh c, fun r _ => ?_⟩
  cases r with
  | ok v => exact hf v
  | error e =>
    cases c with
    | signingKey | verifyTaskPayload | checkRetryStorm | aiDisabled => exact .inr rfl
    | _ => cases hguard

theorem wp_guards (hsupported : supported a = true) : wp (ghost a) (guards a) GuardsPost .fresh := by
  have haiDisabled : wp (ghost a) (do
      if ← ask .aiDisabled then return some (.refused "ai_disabled")
      return none) GuardsPost .fresh := by
    refine wp_guard_bind rfl fun disabled => ?_
    cases disabled with
    | true => exact .inr (.inr rfl)
    | false => exact rfl
  simp only [supported, Bool.and_eq_true, decide_eq_true_eq] at hsupported
  obtain ⟨⟨hmin, hmax⟩, hworker⟩ := hsupported
  unfold guards
  rw [if_neg (by omega), if_neg (by omega)]
  refine wp_guard_bind rfl fun configured => ?_
  cases configured with
  | false => exact .inr (.inr rfl)
  | true =>
    refine wp_guard_bind rfl fun verified => ?_
    cases verified with
    | false => exact .inr (.inr rfl)
    | true =>
      by_cases hretry : 0 < a.retries
      · simp only [if_pos hretry]
        refine wp_guard_bind rfl fun allowed => ?_
        cases allowed with
        | false => exact .inr (.inr rfl)
        | true => exact haiDisabled
      · simp only [if_neg hretry]
        exact haiDisabled

/-- Every attempt ends as it was decided on the way. -/
theorem wp_processJobTask (a : Attempt) :
    wp (ghost a) (processJobTask a) Decided (.initial a) := by
  unfold processJobTask
  cases hsupported : supported a with
  | false =>
    have hdoomed : (Standing.initial a).doomed = true := by simp [Standing.initial, hsupported]
    have hrefused : guards a = return some (.refused "payload_version_mismatch") := by
      unfold guards
      by_cases hrange : a.payloadVersion < minSupportedVersion ∨
          maxSupportedVersion < a.payloadVersion
      · rw [if_pos hrange]
      · have hworker : workerVersion < a.payloadVersion := by
          simp only [supported, Bool.and_eq_false_iff, decide_eq_false_iff_not] at hsupported
          omega
        rw [if_neg hrange, if_pos hworker]
    rw [hrefused]
    exact .inr (.inr hdoomed)
  | true =>
    have hfresh : Standing.initial a = .fresh := by
      simp [Standing.initial, Standing.fresh, hsupported]
    rw [hfresh, wp_bind]
    refine wp_mono (wp_guards hsupported) fun r t' hr => ?_
    cases r with
    | error e => exact hr
    | ok ending =>
      cases ending with
      | some ending => exact hr
      | none =>
        obtain rfl := hr
        simp only [wp_bind, wp_outcome]
        refine wp_mono wp_runPhases fun r t'' hr => ?_
        cases r with
        | ok u => exact hr.imp id .inr
        | error e =>
          obtain hskipped | hfine := hr
          · exact .inl hskipped
          · exact hfine.decided

end

end WorkTicket.Tasks.AttemptEnd
