import WorkTicket.Foundation.Transition

/-! The circuit breaker of an AI service or of Stripe as it runs without Redis: an open breaker
becomes half-open at the first question after its cooldown, and a success report takes back the
time of the last failure in whatever state it comes. -/

namespace WorkTicket.Ai.CircuitBreaker

open WorkTicket.Transition

structure Settings where
  failureThreshold : ℕ
  cooldownSeconds : ℚ
  halfOpenMaxRetries : ℕ
  maxCooldownSeconds : ℚ
  stabilityGate : ℕ
  deriving DecidableEq, Repr

inductive CircuitState
  | closed
  | opened
  | halfOpen
  deriving DecidableEq, Repr

/-- Times are those of the monotonic clock. -/
structure Breaker where
  state : CircuitState
  failureCount : ℕ
  consecutiveSuccesses : ℕ
  lastFailureTime : Option ℚ
  halfOpenAttempts : ℕ
  cooldownSeconds : ℚ
  deriving DecidableEq, Repr

section
variable (c : Settings)

def Breaker.initial : Breaker := ⟨.closed, 0, 0, none, 0, c.cooldownSeconds⟩

/-- `self._last_failure_time and now - self._last_failure_time >= self.cooldown_seconds`; a time
that is zero counts as none. -/
def Breaker.cooledDown (b : Breaker) (now : ℚ) : Bool :=
  b.lastFailureTime.any fun t => t ≠ 0 && b.cooldownSeconds ≤ now - t

def Breaker.isAvailable (b : Breaker) (now : ℚ) : Bool × Breaker :=
  match b.state with
  | .closed => (true, b)
  | .opened =>
    if b.cooledDown now then (true, { b with state := .halfOpen, halfOpenAttempts := 0 })
    else (false, b)
  | .halfOpen =>
    if b.halfOpenAttempts < c.halfOpenMaxRetries then
      (true, { b with halfOpenAttempts := b.halfOpenAttempts + 1 })
    else (false, b)

def Breaker.recordSuccess (b : Breaker) : Breaker :=
  let successes := b.consecutiveSuccesses + 1
  { state := if c.stabilityGate ≤ successes then .closed else b.state
    failureCount := 0
    consecutiveSuccesses := successes
    lastFailureTime := none
    halfOpenAttempts := 0
    cooldownSeconds :=
      if c.stabilityGate ≤ successes ∧ 5 ≤ successes then c.cooldownSeconds
      else b.cooldownSeconds }

def Breaker.recordFailure (b : Breaker) (now : ℚ) : Breaker :=
  let b := { b with
    failureCount := b.failureCount + 1
    consecutiveSuccesses := 0
    lastFailureTime := some now }
  if b.state = .halfOpen then { b with state := .opened }
  else if c.failureThreshold ≤ b.failureCount then
    { b with
      cooldownSeconds := min (b.cooldownSeconds * 2) c.maxCooldownSeconds
      state := .opened }
  else b

end

def Breaker.reset (b : Breaker) : Breaker :=
  { b with state := .closed, failureCount := 0, lastFailureTime := none, halfOpenAttempts := 0 }

/-! ## Calls -/

/-- The breaker with what its callers can tell: the time of the last failure they have reported,
and how many calls have been admitted since the breaker became half-open, until the next report. -/
structure World where
  now : ℚ
  breaker : Breaker
  reported : Option ℚ
  probes : Option ℕ
  deriving DecidableEq, Repr

inductive Event
  | tick (seconds : ℚ≥0)
  | isAvailable
  | recordSuccess
  | recordFailure
  | reset
  deriving DecidableEq

/-- The lock makes each call a single step. -/
def step (c : Settings) (s : World) : Event → Option World
  | .tick seconds => some { s with now := s.now + seconds }
  | .isAvailable =>
    let (admitted, b) := s.breaker.isAvailable c s.now
    let probes := if s.breaker.state = .opened ∧ admitted then some 1
      else if admitted then s.probes.map (· + 1) else s.probes
    some { s with breaker := b, probes := probes }
  | .recordSuccess => some { s with breaker := s.breaker.recordSuccess c, probes := none }
  | .recordFailure =>
    some { s with
      breaker := s.breaker.recordFailure c s.now
      reported := some s.now
      probes := none }
  | .reset => some { s with breaker := s.breaker.reset, probes := none }

def start (c : Settings) (now : ℚ) : World := ⟨now, .initial c, none, none⟩

/-! ## Recovery -/

/-- `wait` seconds from now the cooldown has passed since the last failure that was reported. -/
def World.Due (s : World) (wait : ℚ≥0) : Prop :=
  ∃ t ∈ s.reported, s.breaker.cooldownSeconds ≤ s.now + wait - t

/-- Whenever the cooldown of an open breaker has passed, the next call is admitted. -/
def Recovers (c : Settings) (s : World) : Prop :=
  ∀ wait : ℚ≥0, s.breaker.state = .opened → s.Due wait →
    (s.breaker.isAvailable c (s.now + wait)).1 = true

/-- A report that leaves the breaker open leaves it with the time of the failure. -/
def KeepsTime (c : Settings) (s : World) : Event → Prop
  | .recordSuccess => (s.breaker.recordSuccess c).state ≠ .opened
  | .recordFailure => (s.breaker.recordFailure c s.now).state = .opened → s.now ≠ 0
  | .tick _ | .isAvailable | .reset => True

section
variable {c : Settings} {s s' : World} {e : Event}

/-- Waiting is a step of its own. -/
theorem recovers_iff_now : Recovers c s ↔ ∀ (wait : ℚ≥0) (s' : World),
    step c s (.tick wait) = some s' → s'.breaker.state = .opened → s'.Due 0 →
      (s'.breaker.isAvailable c s'.now).1 = true := by
  have hdue : ∀ wait : ℚ≥0, s.Due wait ↔ World.Due { s with now := s.now + wait } 0 := by
    intro wait
    simp [World.Due]
  constructor
  · rintro h wait s' hs hopen helapsed
    cases hs
    exact h wait hopen ((hdue wait).mpr helapsed)
  · intro h wait hopen helapsed
    exact h wait _ rfl hopen ((hdue wait).mp helapsed)

/-- What every run keeps: a breaker opens at a failure, whose time is kept or taken back. -/
structure Opened (s : World) : Prop where
  reported : s.breaker.state = .opened → s.reported.isSome
  lastFailureTime : s.breaker.lastFailureTime = none ∨ s.breaker.lastFailureTime = s.reported

theorem isAvailable_of_opened {b : Breaker} {now : ℚ} (hopen : b.state = .opened) :
    (b.isAvailable c now).1 = b.cooledDown now := by
  rw [Breaker.isAvailable, hopen]
  dsimp only
  split <;> simp_all

theorem exists_due {t : ℚ} (ht : s.reported = some t) : ∃ wait : ℚ≥0, s.Due wait := by
  have hlong : 0 ≤ |s.breaker.cooldownSeconds + t - s.now| := abs_nonneg _
  refine ⟨⟨_, hlong⟩, t, ht, ?_⟩
  have hle := le_abs_self (s.breaker.cooldownSeconds + t - s.now)
  simp only [NNRat.coe_mk]
  linarith

/-- An open breaker recovers exactly if it knows when it failed. -/
theorem recovers_iff (h : Opened s) :
    Recovers c s ↔ (s.breaker.state = .opened → ∃ t ≠ 0, s.breaker.lastFailureTime = some t) := by
  constructor
  · intro hrecovers hopen
    obtain ⟨t, ht⟩ := Option.isSome_iff_exists.mp (h.reported hopen)
    obtain ⟨wait, hdue⟩ := exists_due ht
    have havailable := hrecovers wait hopen hdue
    rw [isAvailable_of_opened hopen, Breaker.cooledDown, Option.any_eq_true] at havailable
    obtain ⟨t', ht', hcooled⟩ := havailable
    simp only [Bool.and_eq_true, decide_eq_true_eq] at hcooled
    exact ⟨t', hcooled.1, ht'⟩
  · intro hknown wait hopen hdue
    obtain ⟨t, hne, ht⟩ := hknown hopen
    obtain ⟨t', ht', helapsed⟩ := hdue
    obtain hnone | hsame := h.lastFailureTime
    · rw [ht] at hnone
      cases hnone
    · obtain rfl : t = t' := Option.some.inj (ht.symm.trans (hsame.trans ht'))
      rw [isAvailable_of_opened hopen, Breaker.cooledDown, ht]
      simpa [hne] using helapsed

/-! ## What a call does to the state and to the time -/

theorem isAvailable_opened {b : Breaker} {now : ℚ}
    (h : (b.isAvailable c now).2.state = .opened) : (b.isAvailable c now).2 = b := by
  obtain ⟨state, failures, successes, time, attempts, cooldown⟩ := b
  cases state with
  | closed => rfl
  | opened =>
    simp only [Breaker.isAvailable] at h ⊢
    split at h
    · cases h
    · rename_i hcooled
      rw [if_neg hcooled]
  | halfOpen =>
    simp only [Breaker.isAvailable] at h
    split at h <;> cases h

theorem isAvailable_lastFailureTime (b : Breaker) (now : ℚ) :
    (b.isAvailable c now).2.lastFailureTime = b.lastFailureTime := by
  unfold Breaker.isAvailable
  split
  · rfl
  · split <;> rfl
  · split <;> rfl

theorem recordSuccess_opened {b : Breaker} (h : (b.recordSuccess c).state = .opened) :
    b.state = .opened := by
  simp only [Breaker.recordSuccess] at h
  split at h
  · cases h
  · exact h

theorem recordFailure_lastFailureTime (b : Breaker) (now : ℚ) :
    (b.recordFailure c now).lastFailureTime = some now := by
  simp only [Breaker.recordFailure]
  split
  · rfl
  · split <;> rfl

theorem opened_step (h : Opened s) (hs : step c s e = some s') : Opened s' := by
  obtain ⟨hreported, htime⟩ := h
  cases e with
  | tick seconds =>
    cases hs
    exact ⟨hreported, htime⟩
  | isAvailable =>
    cases hs
    constructor
    · intro hopen
      have hkept := isAvailable_opened hopen
      exact hreported (hkept ▸ hopen)
    · exact (isAvailable_lastFailureTime s.breaker s.now).symm ▸ htime
  | recordSuccess =>
    cases hs
    exact ⟨fun hopen => hreported (recordSuccess_opened hopen), .inl rfl⟩
  | recordFailure =>
    cases hs
    exact ⟨fun _ => rfl, .inr (recordFailure_lastFailureTime s.breaker s.now)⟩
  | reset =>
    cases hs
    constructor
    · intro hopen
      cases hopen
    · exact .inl rfl

theorem recovers_step (h : Opened s) (hrecovers : Recovers c s) (hok : KeepsTime c s e)
    (hs : step c s e = some s') : Recovers c s' := by
  have h' := opened_step h hs
  rw [recovers_iff h] at hrecovers
  rw [recovers_iff h']
  intro hopen
  cases e with
  | tick seconds =>
    cases hs
    exact hrecovers hopen
  | isAvailable =>
    cases hs
    have hkept := isAvailable_opened hopen
    obtain ⟨t, hne, ht⟩ := hrecovers (hkept ▸ hopen)
    exact ⟨t, hne, (isAvailable_lastFailureTime s.breaker s.now).trans ht⟩
  | recordSuccess =>
    cases hs
    exact absurd hopen hok
  | recordFailure =>
    cases hs
    exact ⟨s.now, hok hopen, recordFailure_lastFailureTime s.breaker s.now⟩
  | reset =>
    cases hs
    cases hopen

theorem keepsTime_of_recovers (h : Opened s) (hs : step c s e = some s')
    (hrecovers : Recovers c s') : KeepsTime c s e := by
  have h' := opened_step h hs
  rw [recovers_iff h'] at hrecovers
  cases e with
  | recordSuccess =>
    cases hs
    intro hopen
    obtain ⟨t, -, ht⟩ := hrecovers hopen
    cases ht
  | recordFailure =>
    cases hs
    intro hopen
    obtain ⟨t, hne, ht⟩ := hrecovers hopen
    rw [recordFailure_lastFailureTime] at ht
    exact Option.some.inj ht ▸ hne
  | _ => trivial

/-- In every sequence of calls: an open breaker whose cooldown has passed admits the next call in
each state, exactly if no success is reported that leaves the breaker open, and no failure that
leaves it open at the time zero of the clock. -/
theorem recovers_iff_keepsTime (c : Settings) (now : ℚ) (es : List Event) :
    Along (step c) (Recovers c) (start c now) es ↔
      EachStep (step c) (KeepsTime c) (start c now) es := by
  have hstart : Opened (start c now) := by
    constructor
    · intro hopen
      cases hopen
    · exact .inl rfl
  have hrecovers : Recovers c (start c now) := by
    rw [recovers_iff hstart]
    intro hopen
    cases hopen
  refine along_iff_eachStep (I := fun s => Opened s ∧ Recovers c s) (fun _ h => h.2) ?_ ?_
    ⟨hstart, hrecovers⟩ es
  · rintro s e s' ⟨h, hr⟩ hok hs
    exact ⟨opened_step h hs, recovers_step h hr hok hs⟩
  · rintro s e s' ⟨h, -⟩ hs hr
    exact keepsTime_of_recovers h hs hr

end

def llmSettings : Settings := ⟨3, 120, 1, 600, 3⟩

/-- Four calls are admitted; three of them fail, which opens the breaker, and the fourth comes
back with a success. -/
def lateSuccess : List Event :=
  [.isAvailable, .isAvailable, .isAvailable, .isAvailable, .recordFailure, .recordFailure,
    .recordFailure, .recordSuccess]

theorem lateSuccess_not_recovers :
    ¬Along (step llmSettings) (Recovers llmSettings) (start llmSettings 1000) lateSuccess := by
  intro halong
  have hruns : (run (step llmSettings) (start llmSettings 1000) lateSuccess).any (fun s =>
      s.breaker.state = .opened && s.reported = some 1000 && s.now = 1000 &&
        s.breaker.cooldownSeconds = 240 &&
        !(s.breaker.isAvailable llmSettings 1240).1) = true := by decide +kernel
  obtain ⟨s, hs, hstate⟩ := (Option.any_eq_true _ _).mp hruns
  simp only [Bool.and_eq_true, decide_eq_true_eq, Bool.not_eq_true'] at hstate
  obtain ⟨⟨⟨⟨hopen, hreported⟩, hnow⟩, hcooldown⟩, hrefused⟩ := hstate
  have hadmits := halong.last hs 240 hopen
    ⟨1000, hreported, by rw [hcooldown, hnow]; norm_num⟩
  have hlater : s.now + ((240 : ℚ≥0) : ℚ) = 1240 := by
    rw [hnow]
    norm_num
  rw [hlater, hrefused] at hadmits
  cases hadmits

/-! ## Probes -/

/-- Since the breaker became half-open, no more calls are admitted than there are retries. -/
def Probes (c : Settings) (s : World) : Prop := ∀ n ∈ s.probes, n ≤ c.halfOpenMaxRetries

/-- Until the next report a half-open breaker is not asked when it has one retry left, and a
breaker without retries does not become half-open. -/
def LeavesLast (c : Settings) (s : World) : Event → Prop
  | .isAvailable =>
    (s.breaker.state = .opened → s.breaker.cooledDown s.now = true → 1 ≤ c.halfOpenMaxRetries) ∧
      (s.probes.isSome → s.breaker.halfOpenAttempts + 1 ≠ c.halfOpenMaxRetries)
  | .tick _ | .recordSuccess | .recordFailure | .reset => True

/-- The call that makes the breaker half-open is not among the attempts. -/
structure Counted (s : World) : Prop where
  halfOpen : s.probes.isSome → s.breaker.state = .halfOpen
  attempts : ∀ n ∈ s.probes, n = s.breaker.halfOpenAttempts + 1

section
variable {c : Settings} {s s' : World} {e : Event}

theorem step_cooledDown (hopen : s.breaker.state = .opened)
    (hcooled : s.breaker.cooledDown s.now = true) :
    step c s .isAvailable = some { s with
      breaker := { s.breaker with state := .halfOpen, halfOpenAttempts := 0 }
      probes := some 1 } := by
  simp [step, Breaker.isAvailable, hopen, hcooled]

theorem step_halfOpen (hhalf : s.breaker.state = .halfOpen)
    (hleft : s.breaker.halfOpenAttempts < c.halfOpenMaxRetries) :
    step c s .isAvailable = some { s with
      breaker := { s.breaker with halfOpenAttempts := s.breaker.halfOpenAttempts + 1 }
      probes := s.probes.map (· + 1) } := by
  simp [step, Breaker.isAvailable, hhalf, hleft]

/-- The answers of `is_available`, each with what it leaves. -/
theorem isAvailable_cases (hs : step c s .isAvailable = some s') :
    s' = s ∨
      (s.breaker.state = .closed ∧ s' = { s with probes := s.probes.map (· + 1) }) ∨
      (s.breaker.state = .opened ∧ s.breaker.cooledDown s.now = true ∧
        s' = { s with
          breaker := { s.breaker with state := .halfOpen, halfOpenAttempts := 0 }
          probes := some 1 }) ∨
      (s.breaker.state = .halfOpen ∧ s.breaker.halfOpenAttempts < c.halfOpenMaxRetries ∧
        s' = { s with
          breaker := { s.breaker with halfOpenAttempts := s.breaker.halfOpenAttempts + 1 }
          probes := s.probes.map (· + 1) }) := by
  cases hstate : s.breaker.state with
  | closed =>
    simp only [step, Breaker.isAvailable, hstate] at hs
    cases hs
    exact .inr (.inl ⟨rfl, by simp⟩)
  | opened =>
    cases hcooled : s.breaker.cooledDown s.now with
    | false =>
      simp only [step, Breaker.isAvailable, hstate, hcooled] at hs
      cases hs
      exact .inl (by simp)
    | true =>
      rw [step_cooledDown hstate hcooled] at hs
      exact .inr (.inr (.inl ⟨rfl, rfl, (Option.some.inj hs).symm⟩))
  | halfOpen =>
    by_cases hleft : s.breaker.halfOpenAttempts < c.halfOpenMaxRetries
    · rw [step_halfOpen hstate hleft] at hs
      exact .inr (.inr (.inr ⟨rfl, hleft, (Option.some.inj hs).symm⟩))
    · simp only [step, Breaker.isAvailable, hstate, if_neg hleft] at hs
      cases hs
      exact .inl (by simp)

theorem counted_of_none (h : s.probes = none) : Counted s := by
  constructor
  · intro hsome
    rw [h] at hsome
    cases hsome
  · intro n hn
    rw [h] at hn
    cases hn

theorem probes_of_none (h : s.probes = none) : Probes c s := by
  intro n hn
  rw [h] at hn
  cases hn

theorem Counted.probes_eq_none (h : Counted s) (hstate : s.breaker.state ≠ .halfOpen) :
    s.probes = none :=
  Option.not_isSome_iff_eq_none.mp fun hsome => hstate (h.halfOpen hsome)

theorem counted_step (h : Counted s) (hs : step c s e = some s') : Counted s' := by
  cases e with
  | tick seconds =>
    cases hs
    exact ⟨h.halfOpen, h.attempts⟩
  | isAvailable =>
    obtain rfl | ⟨hclosed, rfl⟩ | ⟨-, -, rfl⟩ | ⟨hhalf, -, rfl⟩ := isAvailable_cases hs
    · exact h
    · apply counted_of_none
      rw [h.probes_eq_none (by simp [hclosed])]
      rfl
    · exact ⟨fun _ => rfl, fun n hn => (Option.some.inj hn).symm⟩
    · refine ⟨fun _ => hhalf, fun n hn => ?_⟩
      obtain ⟨m, hm, rfl⟩ := Option.mem_map.mp hn
      rw [h.attempts m hm]
  | recordSuccess =>
    cases hs
    exact counted_of_none rfl
  | recordFailure =>
    cases hs
    exact counted_of_none rfl
  | reset =>
    cases hs
    exact counted_of_none rfl

theorem probes_step (h : Counted s) (hprobes : Probes c s) (hok : LeavesLast c s e)
    (hs : step c s e = some s') : Probes c s' := by
  cases e with
  | tick seconds =>
    cases hs
    exact hprobes
  | isAvailable =>
    obtain rfl | ⟨hclosed, rfl⟩ | ⟨hopen, hcooled, rfl⟩ | ⟨-, hleft, rfl⟩ := isAvailable_cases hs
    · exact hprobes
    · intro n hn
      obtain ⟨m, hm, rfl⟩ := Option.mem_map.mp hn
      rw [h.probes_eq_none (by simp [hclosed])] at hm
      cases hm
    · intro n hn
      exact Option.some.inj hn ▸ hok.1 hopen hcooled
    · intro n hn
      obtain ⟨m, hm, rfl⟩ := Option.mem_map.mp hn
      have hne := hok.2 (Option.isSome_iff_exists.mpr ⟨m, hm⟩)
      rw [h.attempts m hm]
      omega
  | recordSuccess =>
    cases hs
    exact probes_of_none rfl
  | recordFailure =>
    cases hs
    exact probes_of_none rfl
  | reset =>
    cases hs
    exact probes_of_none rfl

theorem leavesLast_of_probes (h : Counted s) (hs : step c s e = some s')
    (hprobes : Probes c s') : LeavesLast c s e := by
  cases e with
  | isAvailable =>
    constructor
    · intro hopen hcooled
      rw [step_cooledDown hopen hcooled] at hs
      cases hs
      exact hprobes 1 rfl
    · intro hsome hlast
      obtain ⟨n, hn⟩ := Option.isSome_iff_exists.mp hsome
      have hleft : s.breaker.halfOpenAttempts < c.halfOpenMaxRetries := by omega
      rw [step_halfOpen (h.halfOpen hsome) hleft] at hs
      cases hs
      have hle := hprobes (n + 1) (Option.mem_map_of_mem _ hn)
      rw [h.attempts n hn] at hle
      omega
  | _ => trivial

/-- In every sequence of calls: from the moment the breaker becomes half-open to the next report
it admits no more calls than it has retries, exactly if it is not asked for the last of them. -/
theorem probes_iff_leavesLast (c : Settings) (now : ℚ) (es : List Event) :
    Along (step c) (Probes c) (start c now) es ↔
      EachStep (step c) (LeavesLast c) (start c now) es := by
  refine along_iff_eachStep (I := fun s => Counted s ∧ Probes c s) (fun _ h => h.2) ?_ ?_
    ⟨counted_of_none rfl, probes_of_none rfl⟩ es
  · rintro s e s' ⟨h, hp⟩ hok hs
    exact ⟨counted_step h hs, probes_step h hp hok hs⟩
  · rintro s e s' ⟨h, -⟩ hs hp
    exact leavesLast_of_probes h hs hp

end

/-- With one retry, the call that finds the cooldown over is admitted, and the next one too. -/
def twoProbes : List Event :=
  [.recordFailure, .recordFailure, .recordFailure, .tick 240, .isAvailable, .isAvailable]

theorem twoProbes_exceed :
    ¬Along (step llmSettings) (Probes llmSettings) (start llmSettings 1000) twoProbes := by
  intro halong
  have hruns : (run (step llmSettings) (start llmSettings 1000) twoProbes).any
      (fun s => s.probes = some 2) = true := by decide +kernel
  obtain ⟨s, hs, hprobes⟩ := (Option.any_eq_true _ _).mp hruns
  have hle := halong.last hs 2 (of_decide_eq_true hprobes)
  exact absurd hle (by decide)

end WorkTicket.Ai.CircuitBreaker
