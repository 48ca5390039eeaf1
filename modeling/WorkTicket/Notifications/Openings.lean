import WorkTicket.Notifications.Delivery

/-! When the breaker of a process opens, and for how long. Only the end of a cooldown resets the
count of failures, and it resets the cooldown too. -/

namespace WorkTicket.Notifications

open WorkTicket.Transition

/-! ## What an observer notes -/

/-- An opening of the breaker: how the last three completed sends ended, the latest first, its rank
among the openings since the last success, and its cooldown. -/
structure Opening where
  recent : List Bool
  rank : ℕ
  cooldown : ℚ
  deriving DecidableEq, Repr

/-- `outcomes` are the completed sends, the latest first; `streak` counts the openings since the
last success. -/
structure Watched (μ : Type) where
  world : World μ
  outcomes : List Bool
  streak : ℕ
  openings : List Opening

def watch {μ : Type} (world : World μ) : Watched μ := ⟨world, [], 0, []⟩

section
variable {μ : Type} (acceptedStatus process : ℕ) (w : Watched μ) (c : Call μ)

/-- A call of the process. A message that the breaker refuses is not sent. -/
def observe : Option (Watched μ) :=
  if c.process = process then
    (step acceptedStatus w.world c).map fun world =>
      if Refused w.world c then { w with world }
      else if c.outcome = .response acceptedStatus then
        { world, outcomes := true :: w.outcomes, streak := 0, openings := w.openings }
      else
        let b := world.breakers process
        let outcomes := false :: w.outcomes
        if b.opened then
          { world
            outcomes
            streak := w.streak + 1
            openings := ⟨outcomes.take 3, w.streak + 1, b.cooldown⟩ :: w.openings }
        else { w with world, outcomes }
  else none

/-- The breaker opens on three failures in a row, and the cooldowns of a streak double. -/
def Opening.Lawful (o : Opening) : Prop :=
  o.recent = [false, false, false] ∧
    o.cooldown = min (circuitCooldown * 2 ^ o.rank) circuitMaxCooldown

def Lawful (w : Watched μ) : Prop := ∀ o ∈ w.openings, o.Lawful

/-- The breaker with which a call that is not refused goes on. -/
def Breaker.resumed (b : Breaker) : Breaker := if b.opened then b.reopen else b

/-- A send that succeeds finds no failures counted, nor in the copy if it cannot read it, and a
failure that opens the breaker is the first to do so since the last success. -/
structure Consecutive : Prop where
  success : ¬Refused w.world c → c.outcome = .response acceptedStatus →
    (w.world.loadCircuitBreaker c).resumed.failures = 0 ∧
      (c.redis = false → ∀ x ∈ w.world.copy, c.finish < x.2 → x.1.opened = false →
        x.1.failures = 0)
  opening : ¬Refused w.world c → c.outcome ≠ .response acceptedStatus →
    AboutToTrip w.world c → w.streak = 0

instance : Decidable (Consecutive acceptedStatus w c) :=
  decidable_of_iff
    ((¬Refused w.world c → c.outcome = .response acceptedStatus →
        (w.world.loadCircuitBreaker c).resumed.failures = 0 ∧
          (c.redis = false → ∀ x ∈ w.world.copy, c.finish < x.2 → x.1.opened = false →
            x.1.failures = 0)) ∧
      (¬Refused w.world c → c.outcome ≠ .response acceptedStatus →
        AboutToTrip w.world c → w.streak = 0))
    ⟨fun h => ⟨h.1, h.2⟩, fun h => ⟨h.success, h.opening⟩⟩

end

/-! ## What a call does to the breaker -/

section
variable {μ : Type} {acceptedStatus process : ℕ} {s s' : World μ} {c : Call μ} {b : Breaker}

theorem Breaker.resumed_opened (b : Breaker) : b.resumed.opened = false := by
  unfold Breaker.resumed
  split
  · rfl
  · rename_i hopened
    simpa using hopened

theorem Breaker.resumed_trips_iff : b.resumed.trips = true ↔
    b.opened = false ∧ circuitThreshold ≤ b.failures + 1 := by
  unfold Breaker.resumed
  cases hopened : b.opened with
  | true => simp [Breaker.trips_reopen]
  | false => simp [Breaker.trips_iff, hopened]

theorem Breaker.fail_opened (hclosed : b.opened = false) (now : ℚ) :
    (b.fail now).opened = b.trips := by
  unfold Breaker.fail
  cases htrips : b.trips with
  | true => rfl
  | false => simpa using hclosed

theorem handleFailure_breaker (b : Breaker) :
    (s.handleFailure c b).breakers c.process = b.fail c.finish := by
  unfold World.handleFailure World.saveCircuitBreaker
  exact Function.update_self ..

theorem handleFailure_copy (b : Breaker) : (s.handleFailure c b).copy =
    if c.redis then some (b.fail c.finish, c.finish + (⌊(b.fail c.finish).cooldown * 4⌋ : ℤ))
    else s.copy := by
  unfold World.handleFailure World.saveCircuitBreaker World.enqueueDlq
  cases b.trips with
  | true => rfl
  | false => rfl

/-- A call that is not refused goes on with the breaker resumed, which it has saved if it was
open. -/
theorem send_of_passed (acceptedStatus : ℕ) (h : ¬Refused s c) : ∃ s₁ : World μ,
    s₁.breakers c.process = (s.loadCircuitBreaker c).resumed ∧
    (s₁.copy = s.copy ∧ (c.redis = true → (s.loadCircuitBreaker c).opened = false) ∨
      c.redis = true ∧
        ∃ expires, s₁.copy = some ((s.loadCircuitBreaker c).resumed, expires)) ∧
    s.send acceptedStatus c =
      if c.outcome = .response acceptedStatus then (true, s₁.post acceptedStatus c, c.finish)
      else (false, (s₁.post acceptedStatus c).handleFailure c (s.loadCircuitBreaker c).resumed,
        c.finish) := by
  have hcools : (s.loadCircuitBreaker c).cools c.start = false := by simpa [Refused] using h
  cases hopened : (s.loadCircuitBreaker c).opened with
  | true =>
    have hresumed : (s.loadCircuitBreaker c).resumed = (s.loadCircuitBreaker c).reopen :=
      if_pos hopened
    refine ⟨s.saveCircuitBreaker c c.start (s.loadCircuitBreaker c).reopen, ?_, ?_, ?_⟩
    · rw [hresumed]
      exact Function.update_self ..
    · rw [hresumed]
      cases hredis : c.redis with
      | true => exact .inr ⟨rfl, _, by simp only [World.saveCircuitBreaker, hredis, if_true]; rfl⟩
      | false =>
        exact .inl ⟨by simp [World.saveCircuitBreaker, hredis],
          fun h => absurd h Bool.false_ne_true⟩
    · simp [World.send, hcools, hopened, hresumed]
  | false =>
    have hresumed : (s.loadCircuitBreaker c).resumed = s.loadCircuitBreaker c :=
      if_neg (by simp [hopened])
    refine ⟨{ s with breakers := Function.update s.breakers c.process (s.loadCircuitBreaker c) },
      ?_, .inl ⟨rfl, fun _ => rfl⟩, ?_⟩
    · rw [hresumed]
      exact Function.update_self ..
    · simp [World.send, hcools, hopened, hresumed]

/-- The breaker that a call leaves in its process, and what is then in Redis. -/
theorem step_breaker (hs : step acceptedStatus s c = some s') :
    (s.clock ≤ c.start ∧ c.start ≤ c.finish) ∧
    s'.breakers c.process =
      (if Refused s c then s.loadCircuitBreaker c
      else if c.outcome = .response acceptedStatus then (s.loadCircuitBreaker c).resumed
      else (s.loadCircuitBreaker c).resumed.fail c.finish) ∧
    (s'.copy = s.copy ∧
        (c.redis = true → ¬Refused s c → (s.loadCircuitBreaker c).opened = false) ∨
      ∃ expires, s'.copy = some (s'.breakers c.process, expires)) := by
  simp only [step] at hs
  split at hs
  · rename_i hclock
    obtain rfl := Option.some.inj hs
    refine ⟨hclock, ?_⟩
    by_cases hrefused : Refused s c
    · have hcools : (s.loadCircuitBreaker c).cools c.start = true := hrefused
      simp [World.send, hcools, hrefused, World.enqueueDlq]
    · obtain ⟨s₁, hbreaker, hcopy, hsend⟩ := send_of_passed acceptedStatus hrefused
      by_cases houtcome : c.outcome = .response acceptedStatus
      · rw [hsend, if_pos houtcome, if_neg hrefused, if_pos houtcome, post_accepted houtcome]
        refine ⟨hbreaker, ?_⟩
        rcases hcopy with ⟨hcopy, hclosed⟩ | ⟨-, expires, hcopy⟩
        · exact .inl ⟨hcopy, fun hredis _ => hclosed hredis⟩
        · exact .inr ⟨expires, hcopy.trans (by rw [← hbreaker])⟩
      · rw [hsend, if_neg houtcome, if_neg hrefused, if_neg houtcome, post_not_accepted houtcome]
        refine ⟨handleFailure_breaker _, ?_⟩
        simp only [handleFailure_breaker, handleFailure_copy]
        rcases hcopy with ⟨hcopy, -⟩ | ⟨hredis, -⟩
        · cases c.redis with
          | true => exact .inr ⟨_, rfl⟩
          | false => exact .inl ⟨hcopy, fun hredis => absurd hredis Bool.false_ne_true⟩
        · exact .inr ⟨_, if_pos hredis⟩
  · cases hs

/-! ## The count of the breaker -/

/-- How many of the last sends failed in a row. -/
def trailing (outcomes : List Bool) : ℕ := (outcomes.takeWhile (· = false)).length

/-- A closed breaker counts no more than `n` failures, and has the cooldown of a new one. -/
def Breaker.CountsAtMost (n : ℕ) (b : Breaker) : Prop :=
  b.opened = false → b.failures ≤ n ∧ b.cooldown = circuitCooldown

theorem Breaker.CountsAtMost.resumed {n : ℕ} (h : b.CountsAtMost n) :
    b.resumed.failures ≤ n ∧ b.resumed.cooldown = circuitCooldown := by
  unfold Breaker.resumed
  split
  · exact ⟨Nat.zero_le n, rfl⟩
  · rename_i hopened
    exact h (by simpa using hopened)

theorem Breaker.CountsAtMost.fail {n : ℕ} (h : b.CountsAtMost n) (now : ℚ) :
    (b.resumed.fail now).CountsAtMost (n + 1) := by
  intro hclosed
  unfold Breaker.fail at hclosed ⊢
  split at hclosed
  · cases hclosed
  · rename_i htrips
    rw [if_neg htrips]
    exact ⟨Nat.succ_le_succ h.resumed.1, h.resumed.2⟩

theorem Breaker.CountsAtMost.mono {n m : ℕ} (h : b.CountsAtMost n) (hle : n ≤ m) :
    b.CountsAtMost m := fun hclosed => ⟨(h hclosed).1.trans hle, (h hclosed).2⟩

theorem trailing_failed (outcomes : List Bool) :
    trailing (false :: outcomes) = trailing outcomes + 1 := by
  simp [trailing]

theorem take_of_le_trailing {outcomes : List Bool} {n : ℕ} (h : n ≤ trailing outcomes) :
    outcomes.take n = List.replicate n false := by
  induction outcomes generalizing n with
  | nil =>
    obtain rfl := Nat.le_zero.mp h
    rfl
  | cons ok outcomes ih =>
    cases n with
    | zero => rfl
    | succ n =>
      cases ok with
      | true => simp [trailing] at h
      | false =>
        rw [trailing_failed] at h
        rw [List.take_succ_cons, ih (Nat.le_of_succ_le_succ h), List.replicate_succ]

/-- Neither the breaker nor the copy that it may load counts more than the last sends have
failed. -/
structure Counting (process : ℕ) (w : Watched μ) : Prop where
  breaker : (w.world.breakers process).CountsAtMost (trailing w.outcomes)
  copy : ∀ x ∈ w.world.copy, w.world.clock < x.2 → x.1.CountsAtMost (trailing w.outcomes)
  lawful : Lawful w

variable {w w' : Watched μ}

theorem Counting.start (process : ℕ) :
    Counting process (watch (Notifications.start (fun _ => .initial) none) : Watched μ) :=
  ⟨fun _ => ⟨Nat.zero_le _, rfl⟩, nofun, nofun⟩

theorem Counting.load (h : Counting process w) (hprocess : c.process = process)
    (hclock : w.world.clock ≤ c.start) :
    (w.world.loadCircuitBreaker c).CountsAtMost (trailing w.outcomes) := by
  unfold World.loadCircuitBreaker
  rw [hprocess]
  simp only
  split
  · cases hcopy : w.world.copy.filter (c.start < ·.2) with
    | none => exact h.breaker
    | some x =>
      obtain ⟨hmem, hlive⟩ := Option.filter_eq_some_iff.mp hcopy
      exact h.copy x hmem (hclock.trans_lt (of_decide_eq_true hlive))
  · exact h.breaker

/-- What is in Redis after the call was there before, or is the breaker of the process. -/
theorem Counting.copy_step (h : Counting process w) {n : ℕ} (hclock : w.world.clock ≤ s'.clock)
    (hcopy : s'.copy = w.world.copy ∨ ∃ expires, s'.copy = some (s'.breakers process, expires))
    (hbreaker : (s'.breakers process).CountsAtMost n) (hle : trailing w.outcomes ≤ n) :
    ∀ x ∈ s'.copy, s'.clock < x.2 → x.1.CountsAtMost n := by
  intro x hx hlive
  rcases hcopy with hsame | ⟨expires, hsaved⟩
  · rw [hsame] at hx
    exact (h.copy x hx (hclock.trans_lt hlive)).mono hle
  · rw [hsaved] at hx
    obtain rfl := Option.some.inj hx
    exact hbreaker

/-- A success leaves no count in Redis that a later send could load. -/
theorem Consecutive.copy_counts (h : Consecutive acceptedStatus w c) (hrefused : ¬Refused w.world c)
    (houtcome : c.outcome = .response acceptedStatus) (hfinish : c.start ≤ c.finish)
    (hclosed : c.redis = true → (w.world.loadCircuitBreaker c).opened = false)
    {x : Breaker × ℚ} (hx : x ∈ w.world.copy) (hlive : c.finish < x.2)
    (hopen : x.1.opened = false) :
    x.1.failures = 0 := by
  obtain ⟨hnone, hcopied⟩ := h.success hrefused houtcome
  cases hredis : c.redis with
  | false => exact hcopied hredis x hx hlive hopen
  | true =>
    have hresumed : (w.world.loadCircuitBreaker c).resumed = w.world.loadCircuitBreaker c :=
      if_neg (by simp [hclosed hredis])
    have hload : (w.world.copy.filter (c.start < ·.2)) = some x :=
      Option.filter_eq_some_iff.mpr ⟨hx, decide_eq_true (hfinish.trans_lt hlive)⟩
    rw [hresumed] at hnone
    -- with nothing counted, the process has loaded the copy
    have hshut := hclosed hredis
    unfold World.loadCircuitBreaker at hnone hshut
    simp only [hredis, Bool.and_true] at hnone hshut
    split at hnone
    · rwa [hload] at hnone
    · rename_i hcounts
      rw [if_neg hcounts] at hshut
      simp [hnone, hshut] at hcounts

theorem counting_step (h : Counting process w) (hc : Consecutive acceptedStatus w c)
    (hs : observe acceptedStatus process w c = some w') : Counting process w' := by
  unfold observe at hs
  split at hs
  · rename_i hprocess
    obtain ⟨s', hstep, rfl⟩ := Option.map_eq_some_iff.mp hs
    obtain ⟨⟨hstart, hfinish⟩, hbreaker, hcopy⟩ := step_breaker hstep
    have hload := h.load hprocess hstart
    have hend := (step_ends hstep).1
    rw [hprocess] at hbreaker hcopy
    have hsaved := hcopy.imp And.left id
    by_cases hrefused : Refused w.world c
    · rw [if_pos hrefused] at hbreaker ⊢
      rw [endOf, if_pos hrefused] at hend
      have hcounts : (s'.breakers process).CountsAtMost (trailing w.outcomes) := hbreaker ▸ hload
      exact ⟨hcounts, h.copy_step (hend ▸ hstart) hsaved hcounts le_rfl, h.lawful⟩
    rw [endOf, if_neg hrefused] at hend
    have hclock : w.world.clock ≤ s'.clock := hend ▸ hstart.trans hfinish
    rw [if_neg hrefused] at hbreaker ⊢
    by_cases houtcome : c.outcome = .response acceptedStatus
    · rw [if_pos houtcome] at hbreaker ⊢
      have hnone := (hc.success hrefused houtcome).1
      have hcounts : (s'.breakers process).CountsAtMost 0 := by
        rw [hbreaker]
        exact fun _ => ⟨hnone.le, hload.resumed.2⟩
      refine ⟨hcounts, ?_, h.lawful⟩
      intro x hx hlive hopen
      rcases hcopy with ⟨hsame, hclosed⟩ | ⟨expires, hnew⟩
      · rw [hsame] at hx
        have hold := h.copy x hx (hclock.trans_lt hlive) hopen
        have hzero := hc.copy_counts hrefused houtcome hfinish (hclosed · hrefused) hx
          (hend ▸ hlive) hopen
        exact ⟨hzero.le, hold.2⟩
      · rw [hnew] at hx
        obtain rfl := Option.some.inj hx
        exact hcounts hopen
    · rw [if_neg houtcome] at hbreaker ⊢
      have hcounts : (s'.breakers process).CountsAtMost (trailing (false :: w.outcomes)) := by
        rw [hbreaker, trailing_failed]
        exact hload.fail c.finish
      have hcopies := h.copy_step hclock hsaved hcounts
        (by rw [trailing_failed]; exact Nat.le_succ _)
      simp only
      split
      · rename_i hopened
        rw [hbreaker, Breaker.fail_opened (Breaker.resumed_opened _)] at hopened
        refine ⟨hcounts, hcopies, ?_⟩
        intro o ho
        rcases List.mem_cons.mp ho with rfl | ho
        · have htrips := Breaker.resumed_trips_iff.mp hopened
          have hstreak := hc.opening hrefused houtcome htrips
          have hthree : 3 ≤ trailing (false :: w.outcomes) := by
            rw [trailing_failed]
            exact htrips.2.trans (Nat.succ_le_succ (hload htrips.1).1)
          refine ⟨take_of_le_trailing hthree, ?_⟩
          simp only [hbreaker, Breaker.fail, hopened, if_true, hload.resumed.2, hstreak]
          norm_num
        · exact h.lawful o ho
      · exact ⟨hcounts, hcopies, h.lawful⟩
  · cases hs

/-- Every opening is lawful in a run whose successes find nothing counted, and in which a success
lies between any two openings. -/
theorem lawful_of_consecutive
    (h : ReachedBy (observe acceptedStatus process) (Consecutive acceptedStatus)
      (watch (Notifications.start (fun _ => .initial) none)) w) : Lawful w := by
  have hcounting := h.invariant (Counting.start process) fun _ _ _ hi hok hs =>
    counting_step hi hok hs
  exact hcounting.lawful

end

/-! ## Failures with successes between them -/

/-- A message to Ada that the provider answers with `status`. -/
def mailAt (start : ℚ) (status : ℕ) : Call EmailMessage :=
  ⟨0, ⟨"ada@example.com", "Quote", "Your quote is ready.", none⟩, true, start, start + 1,
    .response status⟩

def freshEmail : Watched EmailMessage := watch (start (fun _ => .initial) none)

def twoStreaks : List (Call EmailMessage) :=
  [mailAt 10 500, mailAt 20 500, mailAt 30 500, mailAt 100 200, mailAt 110 500, mailAt 120 500,
    mailAt 130 500]

/-- The breaker opens twice, with a success between. -/
theorem lawful_twoStreaks :
    Lawful ((runWhile (observe 200 0) (Consecutive 200) freshEmail twoStreaks).get
      (by decide +kernel)) :=
  lawful_of_consecutive (ReachedBy.of_runWhile (Option.some_get _).symm)

/-- The third failure opens the breaker although every other send succeeds. -/
theorem not_lawful_alternating :
    ¬∀ calls w, run (observe 200 0) freshEmail calls = some w → Lawful w := by
  intro h
  have hsome : ((run (observe 200 0) freshEmail
      [mailAt 10 500, mailAt 20 200, mailAt 30 500, mailAt 40 200, mailAt 50 500]).any fun w =>
        w.openings == [⟨[false, true, false], 1, 60⟩]) = true := by
    decide +kernel
  obtain ⟨w, hrun, hopenings⟩ := (Option.any_eq_true _ _).mp hsome
  have hlawful := h _ w hrun ⟨[false, true, false], 1, 60⟩
    (by rw [beq_iff_eq.mp hopenings]; exact List.mem_singleton_self _)
  exact absurd hlawful.1 (by decide)

/-- A cooldown that is over resets the doubling: the second opening in a row lasts a minute
again. -/
example : ((run (observe 200 0) freshEmail
    [mailAt 10 500, mailAt 20 500, mailAt 30 500, mailAt 100 500, mailAt 110 500,
      mailAt 120 500]).map fun w => w.openings.map fun o => (o.rank, o.cooldown)) =
    some [(2, 60), (1, 60)] := by
  decide +kernel

end WorkTicket.Notifications
