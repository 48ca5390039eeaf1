import WorkTicket.Db.CircuitScripts

/-! The database circuit breaker of a single process, which is all there is without Redis. An
open breaker lets one probe pass after its cooldown and remembers in a flag that it has; the flag
is taken back by the reports on requests, and not every request ends with a report. -/

namespace WorkTicket.Db.LocalBreaker

open WorkTicket.Transition
open WorkTicket.Db.CircuitScripts (baseCooldown errorThreshold cooldownAt)

/-- The variables `_POOL_CIRCUIT_*`; times are those of the monotonic clock. -/
structure Breaker where
  opened : Bool
  lastFailure : ℚ
  consecutiveErrors : ℕ
  currentCooldown : ℚ
  backoffLevel : ℕ
  halfOpen : Bool
  halfOpenProbed : Bool
  deriving DecidableEq, Repr

def Breaker.initial : Breaker := ⟨false, 0, 0, baseCooldown, 0, false, false⟩

/-- `_get_cooldown_with_jitter`, from a random number between 0 and 1. -/
def Breaker.cooldownWithJitter (b : Breaker) (random : ℚ) : ℚ :=
  b.currentCooldown + random * (b.currentCooldown / 4)

inductive Check
  | passed
  | probe
  | refused
  deriving DecidableEq, Repr

/-- The part of `_check_db_circuit` that runs without Redis. A refusal after the cooldown starts
the cooldown anew. -/
def Breaker.checkDbCircuit (b : Breaker) (now random : ℚ) : Check × Breaker :=
  if !b.opened then (.passed, b)
  else if b.cooldownWithJitter random < now - b.lastFailure then
    let b := if b.halfOpen then b else { b with halfOpen := true, halfOpenProbed := false }
    if !b.halfOpenProbed then (.probe, { b with halfOpenProbed := true })
    else (.refused, { b with lastFailure := now })
  else (.refused, b)

/-! ## Reports -/

def Breaker.resetCircuitBreaker (b : Breaker) : Breaker :=
  { b with
    opened := false
    consecutiveErrors := 0
    currentCooldown := baseCooldown
    backoffLevel := 0
    halfOpen := false
    halfOpenProbed := false }

def Breaker.recordPoolExhaustion (b : Breaker) (now : ℚ) : Breaker :=
  { b with
    backoffLevel := b.backoffLevel + 1
    currentCooldown := cooldownAt (b.backoffLevel + 1)
    opened := true
    lastFailure := now
    halfOpen := false
    halfOpenProbed := false }

def Breaker.recordDbError (b : Breaker) (now : ℚ) : Breaker :=
  let b := { b with consecutiveErrors := b.consecutiveErrors + 1 }
  if errorThreshold ≤ b.consecutiveErrors then b.recordPoolExhaustion now else b

inductive Report
  | reset
  | poolExhaustion
  | dbError
  deriving DecidableEq, Repr

def Breaker.report (b : Breaker) (now : ℚ) : Option Report → Breaker
  | some .reset => b.resetCircuitBreaker
  | some .poolExhaustion => b.recordPoolExhaustion now
  | some .dbError => b.recordDbError now
  | none => b

/-! ## Requests -/

/-- What asks the breaker for admission. The last one stands for the health routes and the beat
tasks, which ask it and never tell it how they end. -/
inductive Caller
  | getDb
  | getDbWithRefresh
  | getDbReadonly
  | transactional
  | checkOnly
  deriving DecidableEq, Repr

/-- How an attempt ends: with a commit; with an exception whose text has both "timeout" and
"pool"; with one that names a retryable code; with any other one, a cancellation and a failed
rollback included. -/
inductive Outcome
  | success
  | poolTimeout
  | retryable
  | other
  deriving DecidableEq, Repr

/-- What a caller reports at the end of an attempt. -/
def Caller.report : Caller → Outcome → Option Report
  | .checkOnly, _ => none
  | _, .poolTimeout => some .poolExhaustion
  | .transactional, .success => none
  | _, .success => some .reset
  | .getDb, .retryable => some .dbError
  | _, _ => none

def maxRetries : ℕ := 2

structure Request where
  caller : Caller
  attempt : ℕ
  probe : Bool
  deriving DecidableEq, Repr

/-- The request goes on to its next attempt. -/
def Request.again (r : Request) (outcome : Outcome) : Bool :=
  r.caller ≠ .checkOnly && outcome = .retryable && r.attempt < maxRetries

/-- `probe` of a request is not read by any step. -/
structure World where
  now : ℚ
  breaker : Breaker
  requests : ℕ → Option Request

def start : World := ⟨0, .initial, fun _ => none⟩

inductive Event
  | tick (seconds : ℚ≥0)
  | check (id : ℕ) (caller : Caller) (random : ℚ)
  | finish (id : ℕ) (outcome : Outcome)

def World.enter (s : World) (id : ℕ) (caller : Caller) : Check × Breaker → World
  | (.refused, b) => { s with breaker := b }
  | (.passed, b) =>
    { s with breaker := b, requests := Function.update s.requests id (some ⟨caller, 0, false⟩) }
  | (.probe, b) =>
    { s with breaker := b, requests := Function.update s.requests id (some ⟨caller, 0, true⟩) }

def World.finish (s : World) (id : ℕ) (r : Request) (outcome : Outcome) : World :=
  { s with
    breaker := s.breaker.report s.now (r.caller.report outcome)
    requests := Function.update s.requests id
      (if r.again outcome then some { r with attempt := r.attempt + 1 } else none) }

def step (s : World) : Event → Option World
  | .tick seconds => some { s with now := s.now + seconds }
  | .check id caller random =>
    if s.requests id = none ∧ 0 ≤ random ∧ random ≤ 1 then
      some (s.enter id caller (s.breaker.checkDbCircuit s.now random))
    else none
  | .finish id outcome => (s.requests id).map fun r => s.finish id r outcome

/-! ## Recovery -/

def World.ProbeInFlight (s : World) : Prop := ∃ id, ∃ r ∈ s.requests id, r.probe = true

/-- With no probe in flight, and whenever the cooldown has elapsed, the next check admits. -/
def Recovers (s : World) : Prop :=
  ∀ (wait : ℚ≥0) (random : ℚ), 0 ≤ random → random ≤ 1 →
    s.breaker.cooldownWithJitter random < s.now + wait - s.breaker.lastFailure →
    ¬s.ProbeInFlight → (s.breaker.checkDbCircuit (s.now + wait) random).1 ≠ .refused

def Breaker.probeUsed (b : Breaker) : Bool := b.opened && b.halfOpen && b.halfOpenProbed

/-- The report takes the flag back. -/
def Breaker.cleared (b : Breaker) : Option Report → Prop
  | some .reset => True
  | some .poolExhaustion => True
  | some .dbError => errorThreshold ≤ b.consecutiveErrors + 1
  | none => False

/-- The last probe in flight does not leave a breaker that still counts it without a report that
takes the flag back. -/
def ReportsProbe (s : World) : Event → Prop
  | .finish id outcome => ∀ r ∈ s.requests id, r.probe = true → s.breaker.probeUsed = true →
      (∀ id' ≠ id, ∀ r' ∈ s.requests id', r'.probe = false) → r.again outcome = false →
      s.breaker.cleared (r.caller.report outcome)
  | _ => True

section
variable {s s' : World} {e : Event} {b : Breaker}

theorem Breaker.checkDbCircuit_refused {now random : ℚ}
    (helapsed : b.cooldownWithJitter random < now - b.lastFailure) :
    (b.checkDbCircuit now random).1 = .refused ↔ b.probeUsed = true := by
  cases hopened : b.opened <;> cases hhalf : b.halfOpen <;> cases hprobed : b.halfOpenProbed <;>
    simp [Breaker.checkDbCircuit, Breaker.probeUsed, hopened, hhalf, hprobed, helapsed]

/-- Some time after the last failure the cooldown has elapsed, without jitter. -/
theorem exists_elapsed (s : World) :
    ∃ wait : ℚ≥0, s.breaker.cooldownWithJitter 0 < s.now + wait - s.breaker.lastFailure := by
  have hlong : 0 ≤ |s.breaker.currentCooldown + s.breaker.lastFailure - s.now| + 1 := by positivity
  refine ⟨⟨_, hlong⟩, ?_⟩
  have hle := le_abs_self (s.breaker.currentCooldown + s.breaker.lastFailure - s.now)
  simp only [Breaker.cooldownWithJitter, zero_mul, add_zero, NNRat.coe_mk]
  linarith

theorem recovers_iff : Recovers s ↔ (s.breaker.probeUsed = true → s.ProbeInFlight) := by
  constructor
  · intro h hused
    by_contra hnone
    obtain ⟨wait, helapsed⟩ := exists_elapsed s
    have hadmits := h wait 0 le_rfl zero_le_one helapsed hnone
    exact hadmits ((Breaker.checkDbCircuit_refused helapsed).mpr hused)
  · intro h wait random _ _ helapsed hnone hrefused
    have hused := (Breaker.checkDbCircuit_refused helapsed).mp hrefused
    exact hnone (h hused)

theorem Breaker.probeUsed_report (b : Breaker) (now : ℚ) (report : Option Report) :
    (b.report now report).probeUsed = true ↔ b.probeUsed = true ∧ ¬b.cleared report := by
  rcases report with _ | report
  · simp [Breaker.report, Breaker.cleared]
  · cases report with
    | reset => simp [Breaker.report, Breaker.cleared, resetCircuitBreaker, probeUsed]
    | poolExhaustion => simp [Breaker.report, Breaker.cleared, recordPoolExhaustion, probeUsed]
    | dbError =>
      by_cases herrors : errorThreshold ≤ b.consecutiveErrors + 1
      · simp [Breaker.report, Breaker.cleared, recordDbError, herrors, recordPoolExhaustion,
          probeUsed]
      · simp [Breaker.report, Breaker.cleared, recordDbError, herrors, probeUsed]

/-- A check that sets the flag admits a probe. -/
theorem Breaker.probeUsed_check {now random : ℚ} {result : Check} {b' : Breaker}
    (h : b.checkDbCircuit now random = (result, b')) (hused : b'.probeUsed = true) :
    result = .probe ∨ b.probeUsed = true := by
  unfold Breaker.checkDbCircuit at h
  cases hopened : b.opened <;> cases hhalf : b.halfOpen <;> cases hprobed : b.halfOpenProbed <;>
    by_cases helapsed : b.cooldownWithJitter random < now - b.lastFailure <;>
    simp [hopened, hhalf, hprobed, helapsed] at h <;>
    obtain ⟨rfl, rfl⟩ := h <;> simp_all [Breaker.probeUsed]

theorem ProbeInFlight.update {id : ℕ} (hfree : s.requests id = none) (h : s.ProbeInFlight)
    (b : Breaker) (r : Option Request) :
    World.ProbeInFlight { s with
      breaker := b, requests := Function.update s.requests id r } := by
  obtain ⟨id', r', hr', hprobe⟩ := h
  have hne : id' ≠ id := by
    rintro rfl
    rw [hfree] at hr'
    cases hr'
  exact ⟨id', r', by simpa [Function.update_of_ne hne] using hr', hprobe⟩

theorem World.enter_requests_of_ne {id id' : ℕ} (hne : id' ≠ id) (s : World) (caller : Caller)
    (result : Check × Breaker) : (s.enter id caller result).requests id' = s.requests id' := by
  rcases result with ⟨result, b⟩
  cases result <;> simp [World.enter, Function.update_of_ne hne]

theorem recovers_step (h : Recovers s) (hok : ReportsProbe s e) (hs : step s e = some s') :
    Recovers s' := by
  rw [recovers_iff] at h ⊢
  cases e with
  | tick seconds =>
    cases hs
    exact h
  | check id caller random =>
    obtain ⟨⟨hfree, -, -⟩, hadmit⟩ := Option.ite_none_right_eq_some.mp hs
    cases hadmit
    rcases hcheck : s.breaker.checkDbCircuit s.now random with ⟨result, b⟩
    intro hused
    cases result with
    | probe => exact ⟨id, ⟨caller, 0, true⟩, by simp [World.enter], rfl⟩
    | passed =>
      have hbefore : s.ProbeInFlight := by
        rcases Breaker.probeUsed_check hcheck hused with hprobe | hbefore
        · cases hprobe
        · exact h hbefore
      exact ProbeInFlight.update hfree hbefore _ _
    | refused =>
      rcases Breaker.probeUsed_check hcheck hused with hprobe | hbefore
      · cases hprobe
      · exact h hbefore
  | finish id outcome =>
    obtain ⟨r, hr, hfinish⟩ := Option.map_eq_some_iff.mp hs
    cases hfinish
    intro hused
    obtain ⟨hbefore, hclear⟩ := (Breaker.probeUsed_report _ _ _).mp hused
    -- another probe stays in flight, or this request is the last one and goes on
    by_contra hnone
    have hothers : ∀ id' ≠ id, ∀ r' ∈ s.requests id', r'.probe = false := by
      intro id' hne r' hr'
      by_contra hprobe
      refine hnone ⟨id', r', ?_, by simpa using hprobe⟩
      simpa [World.finish, Function.update_of_ne hne] using hr'
    obtain ⟨id', r', hr', hprobe⟩ := h hbefore
    have hid : id' = id := by
      by_contra hne
      rw [hothers id' hne r' hr'] at hprobe
      cases hprobe
    subst hid
    obtain rfl : r' = r := Option.some.inj (hr'.symm.trans hr)
    have hleaves : r'.again outcome = false := by
      by_contra hagain
      refine hnone ⟨id', { r' with attempt := r'.attempt + 1 }, ?_, hprobe⟩
      simp [World.finish, hagain]
    exact hclear (hok r' hr hprobe hbefore hothers hleaves)

theorem step_finish {id : ℕ} {r : Request} (hr : r ∈ s.requests id) (outcome : Outcome) :
    step s (.finish id outcome) = some (s.finish id r outcome) := by
  simp [step, Option.mem_def.mp hr]

/-- A last probe that leaves without such a report leaves a breaker that admits nothing more. -/
theorem reportsProbe_of_recovers (hs : step s e = some s') (h : Recovers s') :
    ReportsProbe s e := by
  cases e with
  | finish id outcome =>
    intro r hr hprobe hused hothers hleaves
    obtain rfl : s' = s.finish id r outcome :=
      Option.some.inj (hs.symm.trans (step_finish hr outcome))
    by_contra hclear
    have hstuck := (Breaker.probeUsed_report _ s.now _).mpr ⟨hused, hclear⟩
    obtain ⟨id', r', hr', hprobe'⟩ := recovers_iff.mp h hstuck
    by_cases hid : id' = id
    · subst hid
      simp [World.finish, hleaves] at hr'
    · have hbefore : r' ∈ s.requests id' := by
        simpa [World.finish, Function.update_of_ne hid] using hr'
      rw [hothers id' hid r' hbefore] at hprobe'
      cases hprobe'
  | _ => trivial

theorem recovers_start : Recovers start := by
  rw [recovers_iff]
  intro hused
  cases hused

/-- For every run of requests: the breaker recovers in every state it goes through exactly if no
last probe leaves it unreported. -/
theorem recovers_along_iff (es : List Event) :
    Along step Recovers start es ↔ EachStep step ReportsProbe start es :=
  along_iff_eachStep (fun _ h => h) (fun _ _ _ h hok hs => recovers_step h hok hs)
    (fun _ _ _ _ hs h => reportsProbe_of_recovers hs h) recovers_start es

/-- The pool runs out, and after the cooldown the probe's route answers with an error of its
own. -/
theorem probe_lost : ¬∀ es, Along step Recovers start es := by
  intro h
  have hrun := h [.check 0 .getDb 0, .finish 0 .poolTimeout, .tick 31, .check 1 .getDb 0,
    .finish 1 .other]
  have hexhausted := (hrun.2 _ rfl).2 _ rfl
  have hprobe := (hexhausted.2 _ rfl).2 _ rfl
  have hlost := hprobe.2 _ (step_finish (r := ⟨.getDb, 0, true⟩) (by decide +kernel) _)
  obtain ⟨id, r, hr, -⟩ := recovers_iff.mp hlost.head (by decide +kernel)
  by_cases hid : id = 1
  · simp [hid, World.finish, Request.again] at hr
  · by_cases hid' : id = 0
    · simp [hid', World.finish, World.enter_requests_of_ne, Request.again] at hr
    · simp [hid, hid', World.finish, World.enter_requests_of_ne, start] at hr

end

end WorkTicket.Db.LocalBreaker
