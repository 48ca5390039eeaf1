import WorkTicket.Ai.Gateway
import WorkTicket.Foundation.Interleaving
import WorkTicket.Foundation.TaskCounts

/-! Any number of jobs that the gateway processes side by side, over the same breakers, which run
without Redis. A breaker is told the outcome of every call that it grants, so that it is not left
half-open with its probes used up. -/

namespace WorkTicket.Ai.Gateway

open Program hiding ask
open Interleaving Transition
open WorkTicket.Ai.GatewayText (Text)
open WorkTicket.Ai.CircuitBreaker (Breaker CircuitState)
open WorkTicket.Ai.StructuredOutput hiding Text

/-- The breakers of the gateway, and the books of what was asked of them and reported. -/
structure World where
  now : ℚ
  breaker : Circuit → Breaker
  asked : ℕ
  granted : Circuit → ℕ
  settled : Circuit → ℕ
  successes : ℕ
  attempted : List Record
  stored : List Record

/-- What a call meets that the breakers do not decide. -/
inductive Outcome
  | done
  | text (t : Text)
  | replies (f : ℕ → Reply)
  | pressure (n : ℤ)
  | fails (e : Fault)

/-- `CircuitBreaker(name, failure_threshold=3, cooldown_seconds=120.0)`. -/
def breakerSettings : CircuitBreaker.Settings := ⟨3, 120, 1, 600, 3⟩

def set {α : Type} (f : Circuit → α) (c : Circuit) (a : α) : Circuit → α :=
  fun d => if d = c then a else f d

namespace World

variable (s : World)

def isAvailable (c : Circuit) : (Bool × CircuitState) × World :=
  let available := (s.breaker c).isAvailable breakerSettings s.now
  ((available.1, available.2.state),
    { s with
      breaker := set s.breaker c available.2
      asked := s.asked + 1
      granted := if available.1 then set s.granted c (s.granted c + 1) else s.granted })

def recordSuccess (c : Circuit) : World :=
  { s with
    breaker := set s.breaker c ((s.breaker c).recordSuccess breakerSettings)
    settled := set s.settled c (s.settled c + 1)
    successes := s.successes + 1 }

def recordFailure (c : Circuit) : World :=
  { s with
    breaker := set s.breaker c ((s.breaker c).recordFailure breakerSettings s.now)
    settled := set s.settled c (s.settled c + 1) }

/-- The try to store a record, and whether it is stored. -/
def insertRecord (r : Record) (stored : Bool) : World :=
  { s with
    attempted := s.attempted ++ [r]
    stored := if stored then s.stored ++ [r] else s.stored }

/-- A cancellation can come at each call that waits. The breakers, the clock and the limiters raise
nothing by themselves. -/
def answer : (c : Command) → Outcome → Option (Except Fault (Answer c) × World)
  | .isAvailable c, .done => some (.ok (s.isAvailable c).1, (s.isAvailable c).2)
  | .recordSuccess c, .done => some (.ok (), s.recordSuccess c)
  | .recordFailure c, .done => some (.ok (), s.recordFailure c)
  | .enter _, .done | .leave _, .done | .insertTrace _, .done => some (.ok (), s)
  | .call (.transcribeAudio _), .text t => some (.ok t, s)
  | .call (.analyzeImages _), .text t => some (.ok t, s)
  | .call (.generateStructuredOutput _ _ _ _), .replies f => some (.ok f, s)
  | .call _, .fails e => some (.error e, s)
  | .monotonic, .done => some (.ok s.now, s)
  | .queuePressure, .pressure n => some (.ok n, s)
  | .insertRecord r, .done => some (.ok (), s.insertRecord r true)
  | .insertRecord r, .fails e => some (.error e, s.insertRecord r false)
  | .insertTrace _, .fails e => some (.error e, s)
  | .isAvailable _, .fails .cancelled | .recordSuccess _, .fails .cancelled
  | .recordFailure _, .fails .cancelled | .enter _, .fails .cancelled
  | .leave _, .fails .cancelled => some (.error .cancelled, s)
  | _, _ => none

end World

/-- A job to be processed, or time that passes. -/
def system (settings : Settings) :
    Interleaving.System World Answer Fault AIOutputSchema (Caller × JobData) Outcome ℚ≥0 where
  program := fun (x, job) => processJob settings x job
  answer := World.answer
  outside := fun s seconds => some { s with now := s.now + seconds }

def World.start (now : ℚ) : World where
  now := now
  breaker := fun _ => .initial breakerSettings
  asked := 0
  granted := fun _ => 0
  settled := fun _ => 0
  successes := 0
  attempted := []
  stored := []

def Outcome.isCancellation : Outcome → Bool
  | .fails .cancelled => true
  | _ => false

/-- No call is cancelled. -/
def Uncancelled (_ : World) (_ : Command) (o : Outcome) : Prop := o.isCancellation = false

/-! ## What is owed -/

/-- Where a job is between the question whether a circuit is available and the record of the route:
nothing is open, the outcome of a granted call is still to be reported, or the record is to be
written of a success or of anything else. -/
inductive Phase
  | free
  | owes (c : Circuit)
  | succeeded
  | unsuccessful
  deriving DecidableEq

def ghost : Ghost Phase Answer Fault where
  needs t
    | .isAvailable _ => t = .free
    | .recordSuccess c | .recordFailure c => t = .owes c
    | .insertRecord r => t = if r.success then .succeeded else .unsuccessful
    | _ => True
  expects _ c r := r ≠ .error .cancelled ∧ (fallible c = false → ∃ a, r = .ok a)
  after t c r :=
    match c, r with
    | .isAvailable c, .ok (true, _) => .owes c
    | .isAvailable _, .ok (false, _) => .unsuccessful
    | .recordSuccess _, .ok _ => .succeeded
    | .recordFailure _, .ok _ => .unsuccessful
    | .insertRecord _, _ => .free
    | _, _ => t

/-- The program answers, with nothing left open. -/
def Answers {α : Type} (o : Except Fault α) (t : Phase) : Prop := (∃ a, o = .ok a) ∧ t = .free

section
variable {α : Type} {t : Phase}

theorem wp_steady {c : Command} {Q : Except Fault (Answer c) → Phase → Prop}
    (hc : fallible c = false) (hneeds : ghost.needs t c)
    (hQ : ∀ a, Q (.ok a) (ghost.after t c (.ok a))) : wp ghost (ask c) Q t := by
  rw [ask, wp_ask]
  refine ⟨hneeds, fun r hr => ?_⟩
  obtain ⟨a, rfl⟩ := hr.2 hc
  exact hQ a

theorem wp_logged_record {r : Record} {Q : Except Fault Unit → Phase → Prop}
    (ht : t = if r.success then .succeeded else .unsuccessful) (hQ : Q (.ok ()) .free) :
    wp ghost (logged (ask (.insertRecord r))) Q t := by
  rw [logged, wp_bind, wp_outcome, ask, wp_ask]
  refine ⟨ht, fun o ho => ?_⟩
  cases o with
  | ok u => exact hQ
  | error e =>
    cases e with
    | cancelled => exact absurd rfl ho.1
    | timeout => exact hQ
    | exception text => exact hQ

theorem wp_logged_trace {r : Trace} {Q : Except Fault Unit → Phase → Prop} (hQ : Q (.ok ()) t) :
    wp ghost (logged (ask (.insertTrace r))) Q t := by
  rw [logged, wp_bind, wp_outcome, ask, wp_ask]
  refine ⟨trivial, fun o ho => ?_⟩
  cases o with
  | ok u => exact hQ
  | error e =>
    cases e with
    | cancelled => exact absurd rfl ho.1
    | timeout => exact hQ
    | exception text => exact hQ

variable {settings : Settings} {x : Service} {r : Route x α} {state : CircuitState} {started : ℚ}

theorem wp_failed {message : String} :
    wp ghost (r.failed state started message) Answers (.owes r.circuit) := by
  rw [Route.failed, wp_bind]
  refine wp_steady rfl trivial fun now => ?_
  dsimp only
  rw [wp_bind]
  refine wp_steady rfl rfl fun _ => ?_
  dsimp only
  rw [wp_bind]
  refine wp_steady rfl trivial fun pressure => ?_
  dsimp only
  rw [wp_bind]
  exact wp_logged_record rfl ⟨⟨_, rfl⟩, rfl⟩

/-- The `try` block answers, or raises before the outcome is reported. -/
theorem wp_attempt : wp ghost (r.attempt state started) (fun o t =>
    Answers o t ∨ t = .owes r.circuit ∧ ∃ e, o = .error e ∧ e ≠ .cancelled) (.owes r.circuit) := by
  rw [Route.attempt, wp_bind, ask, wp_ask]
  refine ⟨trivial, fun o ho => ?_⟩
  have hphase : ghost.after (.owes r.circuit) (.call x) o = .owes r.circuit := rfl
  rw [hphase]
  cases o with
  | error e => exact .inr ⟨rfl, e, rfl, fun he => ho.1 (congrArg _ he)⟩
  | ok result =>
    dsimp only
    rw [wp_bind]
    refine wp_steady rfl trivial fun now => ?_
    dsimp only
    rw [wp_bind]
    refine wp_steady rfl rfl fun _ => ?_
    dsimp only
    rw [wp_bind]
    refine wp_steady rfl trivial fun pressure => ?_
    dsimp only
    rw [wp_bind]
    exact wp_logged_record rfl (.inl ⟨⟨_, rfl⟩, rfl⟩)

theorem wp_guarded : wp ghost (r.guarded settings state started) Answers (.owes r.circuit) := by
  rw [Route.guarded, wp_bind, wp_outcome]
  refine wp_mono wp_attempt ?_
  rintro o t (⟨⟨a, rfl⟩, rfl⟩ | ⟨rfl, e, rfl, he⟩)
  · exact ⟨⟨a, rfl⟩, rfl⟩
  · cases e with
    | cancelled => exact absurd rfl he
    | timeout => exact wp_failed
    | exception text => exact wp_failed

theorem wp_limited : wp ghost (r.limited settings state) Answers (.owes r.circuit) := by
  rw [Route.limited, wp_bind]
  refine wp_steady rfl trivial fun started => ?_
  dsimp only
  rw [wp_bind]
  refine wp_steady rfl trivial fun _ => ?_
  dsimp only
  rw [wp_bind, wp_outcome]
  refine wp_mono wp_guarded ?_
  rintro o t ⟨⟨a, rfl⟩, rfl⟩
  dsimp only
  rw [wp_bind]
  exact wp_steady rfl trivial fun _ => ⟨⟨a, rfl⟩, rfl⟩

/-- A route answers, and has reported and recorded what it was granted. -/
theorem wp_run : wp ghost (r.run settings) Answers .free := by
  rw [Route.run, wp_bind]
  refine wp_steady rfl rfl fun availability => ?_
  obtain ⟨admitted, state⟩ := availability
  cases admitted with
  | false =>
    show wp ghost (logged _ >>= fun _ => pure r.fallback) Answers .unsuccessful
    rw [wp_bind]
    exact wp_logged_record rfl ⟨⟨_, rfl⟩, rfl⟩
  | true => exact wp_limited

end

section
variable {α : Type} {settings : Settings} {x : Caller} {job : JobData} {t : Phase}

theorem wp_traced {name : String} {started : ℚ} {metadata : Metadata} :
    wp ghost (traced x name started metadata) (fun o t' => o = .ok () ∧ t' = t) t := by
  unfold traced
  split
  · exact ⟨rfl, rfl⟩
  · exact ⟨rfl, rfl⟩
  · rw [wp_bind]
    refine wp_steady rfl trivial fun now => ?_
    dsimp only
    unfold onlyIf
    split
    · exact wp_logged_trace ⟨rfl, rfl⟩
    · exact ⟨rfl, rfl⟩

/-- A step of a job runs its route between two looks at the clock. -/
theorem wp_measured {β : Type} {y : Service} (r : Route y α) (name : String)
    (metadata : α → Metadata) (f : α → β) :
    wp ghost (do
      let started ← ask .monotonic
      let a ← r.run settings
      traced x name started (metadata a)
      return f a) Answers .free := by
  rw [wp_bind]
  refine wp_steady rfl trivial fun started => ?_
  dsimp only
  rw [wp_bind]
  refine wp_mono wp_run ?_
  rintro o t ⟨⟨a, rfl⟩, rfl⟩
  dsimp only
  rw [wp_bind]
  refine wp_mono wp_traced ?_
  rintro o t ⟨rfl, rfl⟩
  exact ⟨⟨_, rfl⟩, rfl⟩

theorem wp_audioStep : wp ghost (audioStep settings x job) Answers .free := by
  unfold audioStep
  split
  · exact ⟨⟨_, rfl⟩, rfl⟩
  · exact ⟨⟨_, rfl⟩, rfl⟩
  · exact wp_measured _ _ (fun transcript => .audio (transcript ≠ [])) id

theorem wp_visionStep {urls : List Text} : wp ghost (visionStep settings x urls) Answers .free := by
  unfold visionStep
  split
  · exact ⟨⟨_, rfl⟩, rfl⟩
  · exact wp_measured _ _ (fun _ => .vision _) id

theorem wp_textStep {transcript analysis : Text} {urls : List Text} :
    wp ghost (textStep settings x job transcript urls analysis) Answers .free := by
  let finish (output : AIOutputSchema) : AIOutputSchema :=
    finished settings (partialFailures job transcript urls analysis output) output
  exact wp_measured (textRoute settings x _ _ _ _) "ai_text"
    (fun output => .text (finish output).confidence (finish output).isFallback
      (partialFailures job transcript urls analysis output)) finish

/-- A job leaves nothing open, even if it raises because its list of images is null. -/
theorem wp_processJob : wp ghost (processJob settings x job) (fun _ t => t = .free) .free := by
  unfold processJob
  rw [wp_bind]
  refine wp_mono wp_audioStep ?_
  rintro o t ⟨⟨transcript, rfl⟩, rfl⟩
  dsimp only
  rw [wp_bind]
  unfold images
  split
  · rw [wp_pure]
    dsimp only
    rw [wp_bind]
    refine wp_mono wp_visionStep ?_
    rintro o t ⟨⟨analysis, rfl⟩, rfl⟩
    exact wp_mono wp_textStep fun _ _ h => h.2
  · rfl
  · rw [wp_pure]
    dsimp only
    rw [wp_bind]
    refine wp_mono wp_visionStep ?_
    rintro o t ⟨⟨analysis, rfl⟩, rfl⟩
    exact wp_mono wp_textStep fun _ _ h => h.2

end

/-! ## The books -/

/-- What is granted and not yet reported is owed by a job, and so is a record of what was asked. A
half-open breaker whose probes are not free has one on its way. -/
structure Balanced (s : World) (ts : List Phase) : Prop where
  granted : ∀ c, s.granted c = s.settled c + ts.countP (· = .owes c)
  asked : s.asked = s.attempted.length + ts.countP (· ≠ .free)
  successes : s.successes = s.attempted.countP (·.success) + ts.countP (· = .succeeded)
  probes : ∀ c, (s.breaker c).state = .halfOpen → 0 < (s.breaker c).halfOpenAttempts →
    0 < ts.countP (· = .owes c)

section
variable {s s' : World} {ts : List Phase} {i : ℕ} {t : Phase} {o : Outcome} {c : Circuit}

/-- What a call that is not cancelled does, but for those of the breakers and the records. -/
def Bystander : Command → Prop
  | .isAvailable _ | .recordSuccess _ | .recordFailure _ | .insertRecord _ => False
  | _ => True

theorem answer_bystander {k : Command} {r : Except Fault (Answer k)} (hk : Bystander k)
    (hfair : o.isCancellation = false) (h : s.answer k o = some (r, s')) :
    s' = s ∧ ghost.expects t k r ∧ ghost.after t k r = t := by
  have hsteady : ∀ a : Answer k, ghost.expects t k (.ok a) := by
    refine fun a => ⟨?_, fun _ => ⟨a, rfl⟩⟩
    rintro ⟨⟩
  have hraised : ∀ e : Fault, Outcome.isCancellation (.fails e) = false → fallible k = true →
      ghost.expects t k (.error e) := by
    intro e he hk
    refine ⟨?_, fun h => absurd (hk.symm.trans h) (by decide)⟩
    rintro ⟨⟩
    cases he
  cases k with
  | isAvailable | recordSuccess | recordFailure | insertRecord => exact hk.elim
  | call y =>
    cases y <;> cases o <;> cases h
    all_goals first | exact ⟨rfl, hsteady _, rfl⟩ | exact ⟨rfl, hraised _ hfair rfl, rfl⟩
  | enter | leave =>
    cases o with
    | done =>
      cases h
      exact ⟨rfl, hsteady _, rfl⟩
    | fails e => cases e <;> cases h; cases hfair
    | text | replies | pressure => cases h
  | monotonic =>
    cases o <;> cases h
    exact ⟨rfl, hsteady _, rfl⟩
  | queuePressure =>
    cases o <;> cases h
    exact ⟨rfl, hsteady _, rfl⟩
  | insertTrace =>
    cases o <;> cases h
    · exact ⟨rfl, hsteady _, rfl⟩
    · exact ⟨rfl, hraised _ hfair rfl, rfl⟩

theorem answer_isAvailable {r : Except Fault (Answer (.isAvailable c))}
    (hfair : o.isCancellation = false) (h : s.answer (.isAvailable c) o = some (r, s')) :
    r = .ok (s.isAvailable c).1 ∧ s' = (s.isAvailable c).2 := by
  cases o with
  | done =>
    cases h
    exact ⟨rfl, rfl⟩
  | fails e => cases e <;> cases h; cases hfair
  | text | replies | pressure => cases h

theorem answer_recordSuccess {r : Except Fault (Answer (.recordSuccess c))}
    (hfair : o.isCancellation = false) (h : s.answer (.recordSuccess c) o = some (r, s')) :
    r = .ok () ∧ s' = s.recordSuccess c := by
  cases o with
  | done =>
    cases h
    exact ⟨rfl, rfl⟩
  | fails e => cases e <;> cases h; cases hfair
  | text | replies | pressure => cases h

theorem answer_recordFailure {r : Except Fault (Answer (.recordFailure c))}
    (hfair : o.isCancellation = false) (h : s.answer (.recordFailure c) o = some (r, s')) :
    r = .ok () ∧ s' = s.recordFailure c := by
  cases o with
  | done =>
    cases h
    exact ⟨rfl, rfl⟩
  | fails e => cases e <;> cases h; cases hfair
  | text | replies | pressure => cases h

theorem answer_insertRecord {k : Record} {r : Except Fault (Answer (.insertRecord k))}
    (hfair : o.isCancellation = false) (h : s.answer (.insertRecord k) o = some (r, s')) :
    r ≠ .error .cancelled ∧ ∃ stored, s' = s.insertRecord k stored := by
  cases o <;> cases h
  · refine ⟨?_, true, rfl⟩
    rintro ⟨⟩
  · refine ⟨?_, false, rfl⟩
    rintro ⟨⟩
    cases hfair

/-! ## What each answer does to the books -/

theorem set_self {α : Type} (f : Circuit → α) (c : Circuit) (a : α) : set f c a c = a := if_pos rfl

theorem set_ne {α : Type} {f : Circuit → α} {c d : Circuit} {a : α} (h : d ≠ c) :
    set f c a d = f d := if_neg h

/-- Only a half-open breaker that has a probe left uses one up. -/
theorem isAvailable_halfOpen {b : Breaker} {now : ℚ}
    (hstate : (b.isAvailable breakerSettings now).2.state = .halfOpen)
    (hused : 0 < (b.isAvailable breakerSettings now).2.halfOpenAttempts) :
    (b.isAvailable breakerSettings now).1 = true ∨ b.state = .halfOpen ∧ 0 < b.halfOpenAttempts := by
  obtain ⟨state, failures, successes, time, attempts, cooldown⟩ := b
  cases state with
  | closed => exact .inl rfl
  | opened =>
    unfold Breaker.isAvailable at hstate hused ⊢
    dsimp only at hstate hused ⊢
    split at hstate
    · rename_i hcooled
      exact .inl (by rw [if_pos hcooled])
    · cases hstate
  | halfOpen =>
    unfold Breaker.isAvailable at hused ⊢
    dsimp only at hused ⊢
    split at hused
    · rename_i hfree
      exact .inl (by rw [if_pos hfree])
    · exact .inr ⟨rfl, hused⟩

theorem recordFailure_not_halfOpen (b : Breaker) (now : ℚ) :
    (b.recordFailure breakerSettings now).state ≠ .halfOpen := by
  unfold Breaker.recordFailure
  dsimp only
  split
  · rintro ⟨⟩
  · split
    · rintro ⟨⟩
    · assumption

/-- The counts after a job has gone from one phase to another. -/
theorem count_owes (ht : ts[i]? = some t) (new : Phase) (d : Circuit) :
    (ts.set i new).countP (· = .owes d) + (decide (t = .owes d)).toNat =
      ts.countP (· = .owes d) + (decide (new = .owes d)).toNat :=
  TaskCounts.countP_set_add (fun x => decide (x = .owes d)) new ht

theorem count_open (ht : ts[i]? = some t) (new : Phase) :
    (ts.set i new).countP (· ≠ .free) + (decide (t ≠ .free)).toNat =
      ts.countP (· ≠ .free) + (decide (new ≠ .free)).toNat :=
  TaskCounts.countP_set_add (fun x => decide (x ≠ .free)) new ht

theorem count_succeeded (ht : ts[i]? = some t) (new : Phase) :
    (ts.set i new).countP (· = .succeeded) + (decide (t = .succeeded)).toNat =
      ts.countP (· = .succeeded) + (decide (new = .succeeded)).toNat :=
  TaskCounts.countP_set_add (fun x => decide (x = .succeeded)) new ht

/-- The caller owes the outcome of what it is granted, and a record in any case. -/
theorem Balanced.isAvailable (h : Balanced s ts) (ht : ts[i]? = some .free) :
    Balanced (s.isAvailable c).2
      (ts.set i (if (s.isAvailable c).1.1 then .owes c else .unsuccessful)) := by
  have hgranted : (s.isAvailable c).1.1 =
      ((s.breaker c).isAvailable breakerSettings s.now).1 := rfl
  rw [hgranted]
  cases hadmitted : ((s.breaker c).isAvailable breakerSettings s.now).1 with
  | true =>
    rw [if_pos rfl]
    constructor
    · intro d
      have hbefore := h.granted d
      have hcount := count_owes ht (.owes c) d
      by_cases hd : d = c
      · subst hd
        simp [World.isAvailable, hadmitted, set_self] at hcount ⊢
        omega
      · simp [World.isAvailable, hadmitted, set_ne hd, Ne.symm hd] at hcount ⊢
        omega
    · have hbefore := h.asked
      have hcount := count_open ht (.owes c)
      simp only [World.isAvailable, ne_eq, not_true, reduceCtorEq, not_false_eq_true, decide_true,
        decide_false, Bool.toNat_true, Bool.toNat_false] at hbefore hcount ⊢
      omega
    · have hbefore := h.successes
      have hcount := count_succeeded ht (.owes c)
      simp only [World.isAvailable, reduceCtorEq, decide_false, Bool.toNat_false] at hcount ⊢
      omega
    · intro d hstate hused
      have hcount := count_owes ht (.owes c) d
      by_cases hd : d = c
      · subst hd
        simp only [reduceCtorEq, decide_true, decide_false, Bool.toNat_true,
          Bool.toNat_false] at hcount
        omega
      · simp only [World.isAvailable, set_ne hd] at hstate hused
        have hbefore := h.probes d hstate hused
        simp only [reduceCtorEq, decide_false, Bool.toNat_false] at hcount
        omega
  | false =>
    rw [if_neg Bool.false_ne_true]
    have howes : ∀ d, (ts.set i .unsuccessful).countP (· = .owes d) = ts.countP (· = .owes d) :=
      fun d => count_owes ht .unsuccessful d
    constructor
    · intro d
      rw [howes]
      simpa [World.isAvailable, hadmitted] using h.granted d
    · have hbefore := h.asked
      have hcount := count_open ht .unsuccessful
      simp only [World.isAvailable, ne_eq, not_true, reduceCtorEq, not_false_eq_true, decide_true,
        decide_false, Bool.toNat_true, Bool.toNat_false] at hbefore hcount ⊢
      omega
    · have hbefore := h.successes
      have hcount := count_succeeded ht .unsuccessful
      simp only [World.isAvailable, reduceCtorEq, decide_false, Bool.toNat_false] at hcount ⊢
      omega
    · intro d hstate hused
      rw [howes]
      by_cases hd : d = c
      · subst hd
        simp only [World.isAvailable, set_self] at hstate hused
        have hearlier := (isAvailable_halfOpen hstate hused).resolve_left (by simp [hadmitted])
        exact h.probes d hearlier.1 hearlier.2
      · simp only [World.isAvailable, set_ne hd] at hstate hused
        exact h.probes d hstate hused

/-- A breaker that is told an outcome has its probes free, if it is still half-open. -/
theorem Balanced.report (h : Balanced s ts) (ht : ts[i]? = some (.owes c)) {b : Breaker}
    (hb : b.state = .halfOpen → b.halfOpenAttempts = 0) (success : Bool) :
    Balanced { s with
        breaker := set s.breaker c b
        settled := set s.settled c (s.settled c + 1)
        successes := s.successes + success.toNat }
      (ts.set i (if success then .succeeded else .unsuccessful)) := by
  have howes : ∀ d, (ts.set i (if success then Phase.succeeded else .unsuccessful)).countP
      (· = .owes d) + (decide (c = d)).toNat = ts.countP (· = .owes d) := by
    intro d
    have hcount := count_owes ht (if success then .succeeded else .unsuccessful) d
    cases success <;> simpa using hcount
  constructor
  · intro d
    have hbefore := h.granted d
    have hcount := howes d
    by_cases hd : d = c
    · subst hd
      simp [set_self] at hcount ⊢
      omega
    · simp [set_ne hd, Ne.symm hd] at hcount ⊢
      omega
  · have hbefore := h.asked
    have hcount := count_open ht (if success then .succeeded else .unsuccessful)
    cases success <;> simp at hbefore hcount ⊢ <;> omega
  · have hbefore := h.successes
    have hcount := count_succeeded ht (if success then .succeeded else .unsuccessful)
    cases success <;> simp at hcount ⊢ <;> omega
  · intro d hstate hused
    have hcount := howes d
    by_cases hd : d = c
    · subst hd
      simp only [set_self] at hstate hused
      exact absurd (hb hstate) (by omega)
    · simp only [set_ne hd] at hstate hused
      have hbefore := h.probes d hstate hused
      simp only [Ne.symm hd, decide_false, Bool.toNat_false] at hcount
      omega

theorem Balanced.insertRecord (h : Balanced s ts) {r : Record} {stored : Bool}
    (ht : ts[i]? = some (if r.success then .succeeded else .unsuccessful)) :
    Balanced (s.insertRecord r stored) (ts.set i .free) := by
  have howes : ∀ d, (ts.set i .free).countP (· = .owes d) = ts.countP (· = .owes d) := by
    intro d
    have hcount := count_owes ht .free d
    cases hsuccess : r.success <;> simpa [hsuccess] using hcount
  constructor
  · exact fun d => (howes d).symm ▸ h.granted d
  · have hbefore := h.asked
    have hcount := count_open ht .free
    cases hsuccess : r.success <;> simp [hsuccess, World.insertRecord] at hbefore hcount ⊢ <;> omega
  · have hbefore := h.successes
    have hcount := count_succeeded ht .free
    cases hsuccess : r.success <;> simp [hsuccess, World.insertRecord] at hcount ⊢ <;> omega
  · exact fun d hstate hused => (howes d).symm ▸ h.probes d hstate hused

theorem Balanced.arrive (h : Balanced s ts) : Balanced s (ts ++ [.free]) := by
  constructor
  · exact fun c => by simpa using h.granted c
  · simpa using h.asked
  · simpa using h.successes
  · exact fun c hstate hused => by simpa using h.probes c hstate hused

/-- The parts of the system fit together. -/
theorem system_sound (settings : Settings) :
    Sound (system settings) Uncancelled ghost (fun _ => .free) (fun _ t => t = .free) Balanced := by
  constructor
  · rintro ⟨x, job⟩
    exact wp_processJob
  · exact fun s ts _ h => h.arrive
  · intro s ts i t k o r s' h ht hneeds hfair hanswer
    cases k with
    | isAvailable c =>
      obtain ⟨rfl, rfl⟩ := answer_isAvailable hfair hanswer
      have ht : t = .free := hneeds
      subst ht
      refine ⟨⟨by rintro ⟨⟩, fun _ => ⟨_, rfl⟩⟩, ?_⟩
      have hafter : ghost.after .free (.isAvailable c) (.ok (s.isAvailable c).1) =
          if (s.isAvailable c).1.1 then .owes c else .unsuccessful := by
        obtain ⟨admitted, state⟩ := (s.isAvailable c).1
        cases admitted <;> rfl
      rw [hafter]
      exact h.isAvailable ‹_›
    | recordSuccess c =>
      obtain ⟨rfl, rfl⟩ := answer_recordSuccess hfair hanswer
      have ht : t = .owes c := hneeds
      subst ht
      exact ⟨⟨by rintro ⟨⟩, fun _ => ⟨_, rfl⟩⟩, h.report ‹_› (fun _ => rfl) true⟩
    | recordFailure c =>
      obtain ⟨rfl, rfl⟩ := answer_recordFailure hfair hanswer
      have ht : t = .owes c := hneeds
      subst ht
      refine ⟨⟨by rintro ⟨⟩, fun _ => ⟨_, rfl⟩⟩, h.report ‹_› ?_ false⟩
      exact fun hstate => absurd hstate (recordFailure_not_halfOpen _ _)
    | insertRecord k =>
      obtain ⟨hraised, stored, rfl⟩ := answer_insertRecord hfair hanswer
      have hphase : t = if k.success then .succeeded else .unsuccessful := hneeds
      subst hphase
      refine ⟨⟨hraised, ?_⟩, h.insertRecord ht⟩
      rintro ⟨⟩
    | call | enter | leave | monotonic | queuePressure | insertTrace =>
      have hbystander := answer_bystander (t := t) (by trivial) hfair hanswer
      obtain ⟨rfl, hexpects, hafter⟩ := hbystander
      refine ⟨hexpects, ?_⟩
      obtain ⟨hlt, rfl⟩ := List.getElem?_eq_some_iff.mp ht
      rw [hafter, List.set_getElem_self]
      exact h
  · intro s ts seconds s' h hs
    cases hs
    exact ⟨h.granted, h.asked, h.successes, h.probes⟩

end

/-! ## Runs -/

/-- Nothing is open: every granted call has been reported, every question is on record, with the
success that the breaker was told, and a half-open breaker has a probe free. -/
structure Settled (s : World) : Prop where
  granted : s.granted = s.settled
  asked : s.attempted.length = s.asked
  successes : s.attempted.countP (·.success) = s.successes
  probes : ∀ c, (s.breaker c).state = .halfOpen →
    ((s.breaker c).isAvailable breakerSettings s.now).1 = true

theorem Balanced.settled {s : World} {ts : List Phase} (h : Balanced s ts)
    (hfree : ∀ t ∈ ts, t = .free) : Settled s := by
  have hnone : ∀ p : Phase → Bool, p .free = false → ts.countP p = 0 := by
    intro p hp
    rw [List.countP_eq_zero]
    intro t ht
    rw [hfree t ht, hp]
    exact Bool.false_ne_true
  constructor
  · funext c
    rw [h.granted c, hnone _ rfl, add_zero]
  · rw [h.asked, hnone _ rfl, add_zero]
  · rw [h.successes, hnone _ rfl, add_zero]
  · intro c hstate
    have hunused : ¬0 < (s.breaker c).halfOpenAttempts := by
      intro hused
      have howed := h.probes c hstate hused
      rw [hnone _ rfl] at howed
      exact absurd howed (lt_irrefl 0)
    have hfree : (s.breaker c).halfOpenAttempts < breakerSettings.halfOpenMaxRetries :=
      Nat.lt_one_iff.mpr (Nat.eq_zero_of_not_pos hunused)
    rw [Breaker.isAvailable, hstate]
    dsimp only
    rw [if_pos hfree]

def running (q : Prog AIOutputSchema) : Bool :=
  match q with
  | .ret _ | .raise _ => false
  | .call _ _ => true

/-- Only a job that runs owes anything. -/
theorem count_owes_le {qs : List (Prog AIOutputSchema)} {ts : List Phase}
    (h : List.Forall₂ (fun q t => wp ghost q (fun _ t => t = .free) t) qs ts) (c : Circuit) :
    ts.countP (· = .owes c) ≤ qs.countP running := by
  induction h with
  | nil => exact le_rfl
  | @cons q t qs ts hq _ ih =>
    rw [List.countP_cons, List.countP_cons]
    cases q with
    | call k next =>
      rw [if_pos (show running (.call k next) = true from rfl)]
      split <;> omega
    | ret a =>
      have ht : t = .free := hq
      subst ht
      exact Nat.add_le_add ih le_rfl
    | raise e =>
      have ht : t = .free := hq
      subst ht
      exact Nat.add_le_add ih le_rfl

/-- However the calls of the jobs come in between one another, if none is cancelled the breakers
miss no more outcomes than there are jobs running, and once all have ended nothing is open. -/
theorem books_balance (settings : Settings) (now : ℚ)
    {p : Pool World Answer Fault AIOutputSchema}
    (h : ReachedBy (step (system settings)) (Fair Uncancelled) (start (.start now)) p) :
    (∀ c, p.server.settled c ≤ p.server.granted c ∧
      p.server.granted c ≤ p.server.settled c + p.programs.countP running) ∧
    ((∀ q ∈ p.programs, Ended q) → Settled p.server) := by
  have hstart : Balanced (.start now) [] :=
    ⟨fun _ => rfl, rfl, rfl, fun _ hstate => by cases hstate⟩
  obtain ⟨ts, hserver, hprograms⟩ := (system_sound settings).reached hstart h
  constructor
  · intro c
    have howed := count_owes_le hprograms c
    rw [hserver.granted c]
    omega
  · intro hended
    apply hserver.settled
    intro t ht
    obtain ⟨o, hfree⟩ := Holds.post ⟨hserver, hprograms⟩ hended ht
    exact hfree

/-- A job without audio and images. -/
def textJob : Caller × JobData := (⟨some "7", none, some "1", none⟩, ⟨none, none, some [], some []⟩)

/-- Its call of the text service takes too long. -/
def timedOut : List (Event (Caller × JobData) Outcome ℚ≥0) :=
  [.arrive textJob, .call 0 .done, .call 0 .done, .call 0 .done, .call 0 .done,
    .call 0 (.fails .timeout), .call 0 .done, .call 0 .done, .call 0 (.pressure 1), .call 0 .done,
    .call 0 .done]

def undisturbed : Event (Caller × JobData) Outcome ℚ≥0 → Bool
  | .call _ o => !o.isCancellation
  | .arrive _ | .outside _ => true

theorem timedOut_uncancelled (i : ℕ) (o : Outcome) (h : .call i o ∈ timedOut) :
    o.isCancellation = false := by
  have hall : timedOut.all undisturbed = true := rfl
  simpa [undisturbed] using List.all_eq_true.mp hall _ h

theorem books_balance_timedOut :
    ∃ p, run (step (system plainSettings)) (start (.start 0)) timedOut = some p ∧
      Settled p.server ∧ p.server.attempted.length = 1 := by
  have hfair : ∀ i o, .call i o ∈ timedOut → ∀ s c, Uncancelled s c o :=
    fun i o h _ _ => timedOut_uncancelled i o h
  refine ⟨_, rfl, (books_balance plainSettings 0 (reachedBy_of_run timedOut rfl hfair)).2 ?_, rfl⟩
  intro q hq
  rw [List.mem_singleton.mp hq]
  trivial

end WorkTicket.Ai.Gateway
