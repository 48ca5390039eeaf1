import WorkTicket.Ai.CircuitBreaker

/-! The circuit breaker with Redis: a flag that the failure reports set and any success takes away
answers the question whether the service is available, and the state of the process is not asked.
The runs of the breaker with and without Redis are compared call by call. -/

namespace WorkTicket.Ai.RedisBreaker

open WorkTicket.Transition WorkTicket.Ai.CircuitBreaker

/-! ## The breaker with Redis -/

/-- The state of the process, and when the key under which `open` is `1` expires. The other fields
of the hash are read only by a script that nothing runs. -/
structure FlaggedBreaker where
  process : Breaker
  expires : Option ℚ
  deriving DecidableEq, Repr

namespace FlaggedBreaker

variable (c : Settings) (b : FlaggedBreaker) (now : ℚ)

def flagged : Bool := b.expires.any fun expires => now < expires

def isAvailable : Bool := !b.flagged now

/-- All fields of the hash are deleted, and the key with them. -/
def recordSuccess : FlaggedBreaker := ⟨b.process.recordSuccess c, none⟩

/-- `expire` with no seconds left deletes the key. -/
def recordFailure : FlaggedBreaker :=
  let process := b.process.recordFailure c now
  if b.process.state = .halfOpen ∨ c.failureThreshold ≤ process.failureCount then
    ⟨process, some (now + (⌊process.cooldownSeconds * 2⌋ : ℤ))⟩
  else { b with process }

def reset : FlaggedBreaker := ⟨b.process.reset, none⟩

end FlaggedBreaker

/-! ## Both at once -/

/-- The breaker without Redis, the breaker with it, and the answers of both. -/
structure Paired where
  now : ℚ
  alone : Breaker
  redis : FlaggedBreaker
  answers : List (Bool × Bool)
  deriving DecidableEq, Repr

def pairedStep (c : Settings) (s : Paired) : Event → Option Paired
  | .tick seconds => some { s with now := s.now + seconds }
  | .isAvailable =>
    let (admitted, alone) := s.alone.isAvailable c s.now
    some { s with alone, answers := (admitted, s.redis.isAvailable s.now) :: s.answers }
  | .recordSuccess =>
    some { s with alone := s.alone.recordSuccess c, redis := s.redis.recordSuccess c }
  | .recordFailure =>
    some { s with
      alone := s.alone.recordFailure c s.now
      redis := s.redis.recordFailure c s.now }
  | .reset => some { s with alone := s.alone.reset, redis := s.redis.reset }

def pair (c : Settings) (now : ℚ) : Paired := ⟨now, .initial c, ⟨.initial c, none⟩, []⟩

/-- Every question so far was answered the same. -/
def Agrees (s : Paired) : Prop := ∀ answer ∈ s.answers, answer.1 = answer.2

/-- An open breaker is not asked from the end of its cooldown to the expiry of the key, nor a
half-open one once its probes are used up; no probe fails, and no success is reported that leaves
the breaker open. -/
def Coordinated (c : Settings) (s : Paired) : Event → Prop
  | .isAvailable =>
    (s.alone.state = .opened → ∀ t ∈ s.alone.lastFailureTime,
      (s.alone.cooledDown s.now = true ↔ (⌊s.alone.cooldownSeconds * 2⌋ : ℤ) ≤ s.now - t)) ∧
      (s.alone.state = .halfOpen → s.alone.halfOpenAttempts < c.halfOpenMaxRetries)
  | .recordSuccess => (s.alone.recordSuccess c).state ≠ .opened
  | .recordFailure => s.alone.state ≠ .halfOpen
  | .tick _ | .reset => True

instance (c : Settings) (s : Paired) (e : Event) : Decidable (Coordinated c s e) := by
  cases e <;> unfold Coordinated <;> infer_instance

/-- The process with Redis knows the breaker, but takes a half-open one for open; the key lives on
for twice the cooldown of an open breaker, and is gone else. -/
structure Mirrored (c : Settings) (s : Paired) : Prop where
  same : s.alone.state ≠ .halfOpen → s.redis.process = s.alone
  half : s.alone.state = .halfOpen → s.redis.process =
    { s.alone with state := .opened, halfOpenAttempts := s.redis.process.halfOpenAttempts }
  tripped : s.alone.state = .opened → c.failureThreshold ≤ s.alone.failureCount ∧
    ∃ t, s.alone.lastFailureTime = some t ∧
      s.redis.expires = some (t + (⌊s.alone.cooldownSeconds * 2⌋ : ℤ))
  gone : s.alone.state ≠ .opened → s.redis.flagged s.now = false

section
variable {c : Settings} {s s' : Paired} {e : Event}

theorem flagged_mono {b : FlaggedBreaker} {now later : ℚ} (hle : now ≤ later)
    (h : b.flagged now = false) : b.flagged later = false := by
  unfold FlaggedBreaker.flagged at h ⊢
  cases hexpires : b.expires with
  | none => rfl
  | some expires =>
    rw [hexpires, Option.any_some, decide_eq_false_iff_not, not_lt] at h
    rw [Option.any_some, decide_eq_false_iff_not, not_lt]
    exact h.trans hle

theorem mirrored_pair (c : Settings) (now : ℚ) : Mirrored c (pair c now) :=
  ⟨fun _ => rfl, nofun, nofun, fun _ => rfl⟩

/-- An open breaker is asked when it is due on both sides, or on neither. -/
theorem Mirrored.flagged_eq (h : Mirrored c s) (hok : Coordinated c s .isAvailable)
    (hopen : s.alone.state = .opened) : s.redis.flagged s.now = !s.alone.cooledDown s.now := by
  obtain ⟨-, t, ht, hexpires⟩ := h.tripped hopen
  have hdue := hok.1 hopen t ht
  rw [FlaggedBreaker.flagged, hexpires, Option.any_some]
  cases hcooled : s.alone.cooledDown s.now with
  | true =>
    have hover := hdue.mp hcooled
    simp only [Bool.not_true, decide_eq_false_iff_not, not_lt]
    linarith
  | false =>
    have hrunning : ¬(⌊s.alone.cooldownSeconds * 2⌋ : ℤ) ≤ s.now - t := by
      rw [← hdue, hcooled]
      exact Bool.false_ne_true
    simp only [Bool.not_false, decide_eq_true_eq]
    linarith [not_le.mp hrunning]

/-- A question is answered alike. -/
theorem Mirrored.isAvailable_eq (h : Mirrored c s) (hok : Coordinated c s .isAvailable) :
    (s.alone.isAvailable c s.now).1 = s.redis.isAvailable s.now := by
  rw [FlaggedBreaker.isAvailable]
  cases hstate : s.alone.state with
  | closed =>
    rw [h.gone (by simp [hstate])]
    simp [Breaker.isAvailable, hstate]
  | opened =>
    rw [h.flagged_eq hok hstate, Bool.not_not]
    exact isAvailable_of_opened hstate
  | halfOpen =>
    rw [h.gone (by simp [hstate])]
    simp [Breaker.isAvailable, hstate, hok.2 hstate]

theorem Mirrored.isAvailable (h : Mirrored c s) (hok : Coordinated c s .isAvailable)
    (answers : List (Bool × Bool)) :
    Mirrored c { s with alone := (s.alone.isAvailable c s.now).2, answers } := by
  cases hstate : s.alone.state with
  | closed =>
    have hkept : (s.alone.isAvailable c s.now).2 = s.alone := by simp [Breaker.isAvailable, hstate]
    rw [hkept]
    exact ⟨h.same, h.half, h.tripped, h.gone⟩
  | opened =>
    have hflagged := h.flagged_eq hok hstate
    have hsame := h.same (by simp [hstate])
    cases hcooled : s.alone.cooledDown s.now with
    | false =>
      have hkept : (s.alone.isAvailable c s.now).2 = s.alone := by
        simp [Breaker.isAvailable, hstate, hcooled]
      rw [hkept]
      exact ⟨h.same, h.half, h.tripped, h.gone⟩
    | true =>
      have hhalf : (s.alone.isAvailable c s.now).2 =
          { s.alone with state := .halfOpen, halfOpenAttempts := 0 } := by
        simp [Breaker.isAvailable, hstate, hcooled]
      rw [hhalf]
      refine ⟨fun hne => absurd rfl hne, fun _ => ?_, fun hopen => ?_, fun _ => ?_⟩
      · simp [hsame, ← hstate]
      · cases hopen
      · simpa [hcooled] using hflagged
  | halfOpen =>
    have hprocess := h.half hstate
    have hcounted : (s.alone.isAvailable c s.now).2 =
        { s.alone with halfOpenAttempts := s.alone.halfOpenAttempts + 1 } := by
      simp [Breaker.isAvailable, hstate, hok.2 hstate]
    rw [hcounted]
    exact ⟨fun hne => absurd hstate hne, fun _ => hprocess, fun hopen => by simp [hstate] at hopen,
      fun _ => h.gone (by simp [hstate])⟩

theorem Mirrored.recordSuccess (h : Mirrored c s) (hok : Coordinated c s .recordSuccess) :
    Mirrored c { s with
      alone := s.alone.recordSuccess c, redis := s.redis.recordSuccess c } := by
  have hprocess : s.redis.process = s.alone ∨ s.alone.state = .halfOpen := by
    by_cases hhalf : s.alone.state = .halfOpen
    · exact .inr hhalf
    · exact .inl (h.same hhalf)
  refine ⟨fun hne => ?_, fun hhalf => ?_, fun hopen => absurd hopen hok, fun _ => rfl⟩
  · rcases hprocess with hsame | hhalf
    · exact congrArg (Breaker.recordSuccess c) hsame
    · -- the breaker is half-open unless it is closed now
      have hgate : c.stabilityGate ≤ s.alone.consecutiveSuccesses + 1 := by
        by_contra hgate
        simp [Breaker.recordSuccess, hgate, hhalf] at hne
      simp only [FlaggedBreaker.recordSuccess]
      rw [h.half hhalf]
      simp [Breaker.recordSuccess, hgate]
  · have hbefore : s.alone.state = .halfOpen := by
      simp only [Breaker.recordSuccess] at hhalf
      split at hhalf
      · cases hhalf
      · exact hhalf
    have hgate : ¬c.stabilityGate ≤ s.alone.consecutiveSuccesses + 1 := by
      intro hgate
      simp [Breaker.recordSuccess, hgate] at hhalf
    simp only [FlaggedBreaker.recordSuccess]
    rw [h.half hbefore]
    simp [Breaker.recordSuccess, hgate]

theorem Mirrored.recordFailure (h : Mirrored c s) (hok : Coordinated c s .recordFailure) :
    Mirrored c { s with
      alone := s.alone.recordFailure c s.now, redis := s.redis.recordFailure c s.now } := by
  have hnot : s.alone.state ≠ .halfOpen := hok
  have hsame := h.same hnot
  have hprocess : s.redis.process.recordFailure c s.now = s.alone.recordFailure c s.now := by
    rw [hsame]
  have hnothalf : (s.alone.recordFailure c s.now).state ≠ .halfOpen := by
    simp only [Breaker.recordFailure, if_neg hnot]
    split
    · intro hhalf
      cases hhalf
    · exact hnot
  have hcount : (s.alone.recordFailure c s.now).failureCount = s.alone.failureCount + 1 := by
    simp only [Breaker.recordFailure, if_neg hnot]
    split <;> rfl
  have htime := recordFailure_lastFailureTime (c := c) s.alone s.now
  by_cases htrips : c.failureThreshold ≤ s.alone.failureCount + 1
  · have hopened : (s.alone.recordFailure c s.now).state = .opened := by
      simp [Breaker.recordFailure, hnot, htrips]
    have hredis : s.redis.recordFailure c s.now = ⟨s.alone.recordFailure c s.now,
        some (s.now + (⌊(s.alone.recordFailure c s.now).cooldownSeconds * 2⌋ : ℤ))⟩ := by
      simp only [FlaggedBreaker.recordFailure, hprocess, hcount, htrips, or_true, if_true]
    rw [hredis]
    refine ⟨fun _ => rfl, fun hhalf => absurd hhalf hnothalf, fun _ => ?_,
      fun hne => absurd hopened hne⟩
    exact ⟨htrips.trans hcount.ge, s.now, htime, rfl⟩
  · have hkept : (s.alone.recordFailure c s.now).state = s.alone.state := by
      simp [Breaker.recordFailure, hnot, htrips]
    have hredis : s.redis.recordFailure c s.now =
        ⟨s.alone.recordFailure c s.now, s.redis.expires⟩ := by
      simp only [FlaggedBreaker.recordFailure, hcount, hsame, hnot, htrips, or_self, if_false]
    -- a breaker that is open has counted enough failures to trip again
    have hclosed : s.alone.state ≠ .opened := fun hopen =>
      htrips ((h.tripped hopen).1.trans (Nat.le_succ _))
    rw [hredis]
    exact ⟨fun _ => rfl, fun hhalf => absurd hhalf hnothalf,
      fun hopen => absurd (hkept ▸ hopen) hclosed, fun _ => h.gone hclosed⟩

theorem mirrored_step (h : Mirrored c s) (hok : Coordinated c s e)
    (hs : pairedStep c s e = some s') : Mirrored c s' := by
  cases e with
  | tick seconds =>
    cases hs
    exact ⟨h.same, h.half, h.tripped, fun hstate => flagged_mono (by simp) (h.gone hstate)⟩
  | isAvailable =>
    cases hs
    exact h.isAvailable hok _
  | recordSuccess =>
    cases hs
    exact h.recordSuccess hok
  | recordFailure =>
    cases hs
    exact h.recordFailure hok
  | reset =>
    cases hs
    refine ⟨fun _ => ?_, nofun, nofun, fun _ => rfl⟩
    by_cases hhalf : s.alone.state = .halfOpen
    · simp only [FlaggedBreaker.reset]
      rw [h.half hhalf]
      rfl
    · exact congrArg Breaker.reset (h.same hhalf)

theorem agrees_step (h : Mirrored c s) (hagrees : Agrees s) (hok : Coordinated c s e)
    (hs : pairedStep c s e = some s') : Agrees s' := by
  cases e with
  | isAvailable =>
    cases hs
    intro answer hanswer
    rcases List.mem_cons.mp hanswer with rfl | hanswer
    · exact h.isAvailable_eq hok
    · exact hagrees answer hanswer
  | tick | recordSuccess | recordFailure | reset =>
    cases hs
    exact hagrees

/-- With and without Redis the breaker answers the same in every run whose calls keep clear of
what only one of the two knows: half-open breakers, and the key that outlives the cooldown. -/
theorem agrees_of_coordinated {now : ℚ}
    (h : ReachedBy (pairedStep c) (Coordinated c) (pair c now) s) : Agrees s := by
  have hboth := h.invariant (I := fun s => Mirrored c s ∧ Agrees s) ⟨mirrored_pair c now, nofun⟩ ?_
  · exact hboth.2
  · rintro s e s' ⟨hmirrored, hagrees⟩ hok hs
    exact ⟨mirrored_step hmirrored hok hs, agrees_step hmirrored hagrees hok hs⟩

end

/-! ## A key that outlives the cooldown -/

def threeFailures : List Event := [.recordFailure, .recordFailure, .recordFailure]

/-- The breaker trips, is asked within its cooldown, and then once the key is gone, and three
probes succeed. -/
def recovery : List Event :=
  threeFailures ++ [.tick 100, .isAvailable, .tick 400, .isAvailable, .recordSuccess, .isAvailable,
    .recordSuccess, .isAvailable, .recordSuccess, .isAvailable]

theorem agrees_recovery :
    Agrees ((runWhile (pairedStep llmSettings) (Coordinated llmSettings) (pair llmSettings 1000)
      recovery).get (by decide +kernel)) :=
  agrees_of_coordinated (ReachedBy.of_runWhile (Option.some_get _).symm)

/-- When the cooldown of four minutes is over, only the breaker without Redis admits a probe. -/
theorem not_agrees_cooledDown :
    ¬∀ es s, run (pairedStep llmSettings) (pair llmSettings 1000) es = some s → Agrees s := by
  intro h
  have hsome : ((run (pairedStep llmSettings) (pair llmSettings 1000)
      (threeFailures ++ [.tick 240, .isAvailable])).any fun s =>
        s.answers == [(true, false)]) = true := by decide +kernel
  obtain ⟨s, hrun, hanswers⟩ := (Option.any_eq_true _ _).mp hsome
  have hagrees := h _ s hrun (true, false)
    (by rw [beq_iff_eq.mp hanswers]; exact List.mem_singleton_self _)
  cases hagrees

end WorkTicket.Ai.RedisBreaker
