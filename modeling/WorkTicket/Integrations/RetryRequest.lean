import Mathlib

/-! The retries of a connector. The loop awaits the same object at each attempt; whether that makes
a new request depends on what the object is, and a coroutine can be awaited only once. -/

namespace WorkTicket.Integrations.RetryRequest

/-! ## The remote call -/

/-- How a request ends. A connection error is a `ConnectError`, a `TimeoutException` or a
`RemoteProtocolError` of the HTTP client. -/
inductive Outcome (ρ : Type)
  | success (response : ρ)
  | statusError (status : ℕ) (retryAfter : Option String)
  | connectionError (text : String)
  | other (text : String)
  deriving DecidableEq, Repr

inductive ConnectionHealth
  | rateLimited
  | error
  deriving DecidableEq, Repr

structure RateLimitConfig (F : Type) where
  maxRetries : ℤ
  baseDelay : F
  maxDelay : F
  respectRetryAfter : Bool

/-- Python's floats as far as the delays use them (`none` where it raises), and what
`asyncio.sleep` raises. -/
structure Clock (F : Type) where
  str : F → String
  float : String → Option F
  min : F → F → F
  scaled : F → ℕ → Option F
  sleep : F → Option String

/-- What can be awaited: a coroutine runs once and raises when it is awaited again, a future or a
task keeps its outcome, and another awaitable may make a new request each time. -/
inductive Form
  | coroutine
  | future
  | renewed
  deriving DecidableEq, Repr

def reused : String := "cannot reuse already awaited coroutine"

section
variable {ρ F : Type}

/-- `await request_coro`, after `requests` requests; `outcomes n` is how request `n` would end. -/
def await (outcomes : ℕ → Outcome ρ) (requests : ℕ) : Form → Outcome ρ × ℕ
  | .coroutine => if requests = 0 then (outcomes 0, 1) else (.other reused, requests)
  | .future => (outcomes 0, 1)
  | .renewed => (outcomes requests, requests + 1)

/-! ## The code -/

inductive Result (ρ : Type)
  | returned (response : Option ρ)
  | raised (e : Outcome ρ)
  deriving DecidableEq, Repr

/-- With the values that `health` and `_last_error` of the connector are given. -/
structure Answer (ρ : Type) where
  result : Result ρ
  requests : ℕ
  health : Option ConnectionHealth
  lastError : Option String
  deriving DecidableEq, Repr

inductive Turn (ρ : Type)
  | again
  | ended (result : Result ρ) (health : Option ConnectionHealth) (lastError : Option String)

section
variable (clock : Clock F) (config : RateLimitConfig F)

def sleeping (delay : F) : Turn ρ :=
  match clock.sleep delay with
  | some text => .ended (.raised (.other text)) none none
  | none => .again

/-- The delay that the server asks for, or the base delay. -/
def retryDelay (retryAfter : Option String) : F :=
  match clock.float (retryAfter.getD (clock.str config.baseDelay)) with
  | some seconds => clock.min seconds config.maxDelay
  | none => config.baseDelay

/-- One turn of the loop, with the outcome of its `await`. -/
def turn (attempt : ℕ) : Outcome ρ → Turn ρ
  | .success response => .ended (.returned (some response)) none none
  | .statusError status retryAfter =>
    if status = 429 ∧ config.respectRetryAfter = true ∧ (attempt : ℤ) < config.maxRetries then
      sleeping clock (retryDelay clock config retryAfter)
    else .ended (.raised (.statusError status retryAfter)) (some .rateLimited) none
  | .connectionError text =>
    if (attempt : ℤ) < config.maxRetries then
      match clock.scaled config.baseDelay attempt with
      | none => .ended (.raised (.other "int too large to convert to float")) none none
      | some delay => sleeping clock (clock.min delay config.maxDelay)
    else .ended (.raised (.connectionError text)) (some .error) (some text)
  | .other text => .ended (.raised (.other text)) none none

/-- The loop with `more` attempts to come, and the raise after it. -/
def attemptsFrom (form : Form) (outcomes : ℕ → Outcome ρ) :
    ℕ → ℕ → ℕ → Option (Outcome ρ) → Answer ρ
  | 0, _, requests, lastExc =>
    ⟨match lastExc with
      | some e => .raised e
      | none => .returned none, requests, none, none⟩
  | more + 1, attempt, requests, _ =>
    match turn clock config attempt (await outcomes requests form).1 with
    | .again => attemptsFrom form outcomes more (attempt + 1) (await outcomes requests form).2
        (some (await outcomes requests form).1)
    | .ended result health lastError =>
      ⟨result, (await outcomes requests form).2, health, lastError⟩

attribute [grind =] attemptsFrom

def retryRequest (form : Form) (outcomes : ℕ → Outcome ρ) : Answer ρ :=
  attemptsFrom clock config form outcomes (config.maxRetries + 1).toNat 0 0 none

/-! ## What is claimed -/

/-- A rate limit that is respected, or a connection error. -/
def Retryable : Outcome ρ → Prop
  | .statusError status _ => status = 429 ∧ config.respectRetryAfter = true
  | .connectionError _ => True
  | _ => False

/-- The attempts end with this one: it succeeds, fails for good or is the last that is allowed. -/
structure IsLast (outcomes : ℕ → Outcome ρ) (k : ℕ) : Prop where
  allowed : (k : ℤ) ≤ config.maxRetries
  earlier : ∀ j < k, Retryable config (outcomes j)
  final : Retryable config (outcomes k) → (k : ℤ) = config.maxRetries

/-- What the outcome of the last attempt makes of the call. -/
def settled : Outcome ρ → Result ρ
  | .success response => .returned (some response)
  | e => .raised e

/-- Each attempt makes one request, and the last one settles the call. -/
def Meets (form : Form) (outcomes : ℕ → Outcome ρ) : Prop :=
  ∀ k, IsLast config outcomes k →
    (retryRequest clock config form outcomes).result = settled (outcomes k) ∧
      (retryRequest clock config form outcomes).requests = k + 1

/-- The wait after a failed attempt raises nothing. -/
def Waits (attempt : ℕ) : Outcome ρ → Prop
  | .statusError _ retryAfter => clock.sleep (retryDelay clock config retryAfter) = none
  | .connectionError _ => ∃ delay, clock.scaled config.baseDelay attempt = some delay ∧
      clock.sleep (clock.min delay config.maxDelay) = none
  | _ => True

/-- Every attempt before the last one can be followed by another. -/
def Renews (form : Form) (outcomes : ℕ → Outcome ρ) : Prop :=
  ∀ k, IsLast config outcomes k → ∀ j < k, form = .renewed ∧ Waits clock config j (outcomes j)

end

section
variable {clock : Clock F} {config : RateLimitConfig F} {form : Form} {outcomes : ℕ → Outcome ρ}
  {lastExc : Option (Outcome ρ)} {attempt k j : ℕ} {o : Outcome ρ}

theorem sleeping_eq_again {delay : F} :
    (sleeping clock delay : Turn ρ) = .again ↔ clock.sleep delay = none := by
  unfold sleeping
  cases clock.sleep delay <;> simp

theorem turn_eq_again (hretry : Retryable config o) (hmore : (attempt : ℤ) < config.maxRetries) :
    turn clock config attempt o = .again ↔ Waits clock config attempt o := by
  cases o with
  | success response => exact hretry.elim
  | other text => exact hretry.elim
  | statusError status retryAfter =>
    rw [turn, if_pos ⟨hretry.1, hretry.2, hmore⟩, sleeping_eq_again]
    rfl
  | connectionError text =>
    rw [turn, if_pos hmore, Waits]
    cases clock.scaled config.baseDelay attempt with
    | none => simp
    | some delay => simp [sleeping_eq_again]

theorem turn_last (h : IsLast config outcomes k) :
    ∃ health lastError, turn clock config k (outcomes k) =
      .ended (settled (outcomes k)) health lastError := by
  have hlast : Retryable config (outcomes k) → ¬(k : ℤ) < config.maxRetries := fun hretry =>
    (h.final hretry).not_lt
  cases ho : outcomes k with
  | success response => exact ⟨none, none, rfl⟩
  | other text => exact ⟨none, none, rfl⟩
  | statusError status retryAfter =>
    rw [ho] at hlast
    have hno : ¬(status = 429 ∧ config.respectRetryAfter = true ∧
        (k : ℤ) < config.maxRetries) := fun hagain => hlast ⟨hagain.1, hagain.2.1⟩ hagain.2.2
    exact ⟨_, _, by rw [turn, if_neg hno]; rfl⟩
  | connectionError text =>
    rw [ho] at hlast
    exact ⟨_, _, by rw [turn, if_neg (hlast trivial)]; rfl⟩

/-- What cannot be awaited anew makes one request. -/
theorem requests_le_one (hform : form ≠ .renewed) {more requests : ℕ} (h : requests ≤ 1) :
    (attemptsFrom clock config form outcomes more attempt requests lastExc).requests ≤ 1 := by
  have hawait : ∀ n ≤ 1, (await outcomes n form).2 ≤ 1 := by
    intro n hn
    cases form with
    | coroutine =>
      unfold await
      split_ifs
      · exact le_rfl
      · exact hn
    | future => exact le_rfl
    | renewed => exact absurd rfl hform
  induction more generalizing attempt requests lastExc with
  | zero => exact h
  | succ more ih =>
    rw [attemptsFrom]
    split
    · exact ih (hawait _ h)
    · exact hawait _ h

/-- No request is made after an attempt that ends the loop. -/
theorem requests_le_of_ended (hended : turn clock config j (outcomes j) ≠ .again) {more : ℕ}
    (hle : attempt ≤ j) :
    (attemptsFrom clock config .renewed outcomes more attempt attempt lastExc).requests ≤ j + 1 := by
  induction more generalizing attempt lastExc with
  | zero => exact hle.trans (Nat.le_succ j)
  | succ more ih =>
    rw [attemptsFrom]
    split
    · rename_i hagain
      have hne : attempt ≠ j := by
        rintro rfl
        exact hended hagain
      exact ih (Nat.lt_of_le_of_ne hle hne)
    · exact Nat.succ_le_succ hle

/-- The loop comes to the first attempt that ends it. -/
theorem attemptsFrom_renewed {result : Result ρ} {health : Option ConnectionHealth}
    {lastError : Option String} {n more : ℕ} (hmore : n < more)
    (hagain : ∀ i < n, turn clock config (attempt + i) (outcomes (attempt + i)) = .again)
    (hended : turn clock config (attempt + n) (outcomes (attempt + n)) =
      .ended result health lastError) :
    attemptsFrom clock config .renewed outcomes more attempt attempt lastExc =
      ⟨result, attempt + n + 1, health, lastError⟩ := by
  induction n generalizing attempt more lastExc with
  | zero =>
    obtain ⟨more, rfl⟩ := Nat.exists_eq_succ_of_ne_zero (Nat.ne_zero_of_lt hmore)
    rw [attemptsFrom]
    simp only [await, add_zero] at hended ⊢
    rw [hended]
  | succ n ih =>
    obtain ⟨more, rfl⟩ := Nat.exists_eq_succ_of_ne_zero (Nat.ne_zero_of_lt hmore)
    have hfirst : turn clock config attempt (outcomes attempt) = .again := hagain 0 n.succ_pos
    have hnext : ∀ i < n,
        turn clock config (attempt + 1 + i) (outcomes (attempt + 1 + i)) = .again := by
      intro i hi
      have hsucc := hagain (i + 1) (Nat.succ_lt_succ hi)
      rwa [← add_assoc, add_right_comm] at hsucc
    rw [← add_assoc, add_right_comm] at hended
    rw [attemptsFrom]
    simp only [await]
    rw [hfirst]
    simp only
    rw [ih (Nat.lt_of_succ_lt_succ hmore) hnext hended]
    congr 1
    omega

/-- With one attempt it does not matter what is awaited. -/
theorem retryRequest_first {result : Result ρ} {health : Option ConnectionHealth}
    {lastError : Option String} (hallowed : 0 ≤ config.maxRetries)
    (hended : turn clock config 0 (outcomes 0) = .ended result health lastError) :
    retryRequest clock config form outcomes = ⟨result, 1, health, lastError⟩ := by
  have hmore : ∃ more, (config.maxRetries + 1).toNat = more + 1 := ⟨config.maxRetries.toNat, by omega⟩
  obtain ⟨more, hmore⟩ := hmore
  have hawait : await outcomes 0 form = (outcomes 0, 1) := by cases form <;> rfl
  rw [retryRequest, hmore, attemptsFrom, hawait, hended]

/-- A call meets what is claimed exactly if each attempt before the last one is made with something
that can be awaited anew, and the wait after it raises nothing. -/
theorem meets_iff_renews (clock : Clock F) (config : RateLimitConfig F) (form : Form)
    (outcomes : ℕ → Outcome ρ) :
    Meets clock config form outcomes ↔ Renews clock config form outcomes := by
  constructor
  · intro hmeets k hk j hj
    have hrequests := (hmeets k hk).2
    have hmore : (j : ℤ) < config.maxRetries := by
      have hallowed := hk.allowed
      omega
    by_contra hnot
    by_cases hform : form = .renewed
    · subst hform
      have hwaits : ¬Waits clock config j (outcomes j) := fun hwaits => hnot ⟨rfl, hwaits⟩
      have hended := mt (turn_eq_again (hk.earlier j hj) hmore).mp hwaits
      have hle : (retryRequest clock config .renewed outcomes).requests ≤ j + 1 :=
        requests_le_of_ended hended (Nat.zero_le j)
      omega
    · have hle : (retryRequest clock config form outcomes).requests ≤ 1 :=
        requests_le_one hform (Nat.zero_le 1)
      omega
  · intro hrenews k hk
    obtain ⟨health, lastError, hended⟩ := turn_last hk
    rcases Nat.eq_zero_or_pos k with rfl | hpos
    · rw [retryRequest_first hk.allowed hended]
      exact ⟨rfl, rfl⟩
    · obtain rfl := (hrenews k hk 0 hpos).1
      have hagain : ∀ i < k, turn clock config (0 + i) (outcomes (0 + i)) = .again := by
        intro i hi
        rw [zero_add]
        have hallowed := hk.allowed
        exact (turn_eq_again (hk.earlier i hi) (by omega)).mpr (hrenews k hk i hi).2
      have hmore : k < (config.maxRetries + 1).toNat := by
        have hallowed := hk.allowed
        omega
      rw [← zero_add k] at hended
      rw [retryRequest, attemptsFrom_renewed hmore hagain hended, zero_add]
      exact ⟨rfl, rfl⟩

end

end

/-- Exact delays, and a clock that waits. -/
def exactClock : Clock ℚ := ⟨fun _ => "1.0", fun _ => some 1, min, fun d n => some (d * 2 ^ n),
  fun _ => none⟩

/-- A coroutine that fails to connect, where a second request would succeed. -/
theorem not_meets_coroutine :
    ¬Meets exactClock ⟨3, 1, 60, true⟩ .coroutine
      (fun n => if n = 0 then .connectionError "connection refused" else .success 200) := by
  intro hmeets
  have hlast : IsLast (⟨3, 1, 60, true⟩ : RateLimitConfig ℚ)
      (fun n => if n = 0 then Outcome.connectionError "connection refused" else .success 200) 1 := by
    constructor
    · decide
    · intro j hj
      obtain rfl : j = 0 := by omega
      trivial
    · exact fun h => h.elim
  have hrequests := (hmeets 1 hlast).2
  have hone : (retryRequest exactClock ⟨3, 1, 60, true⟩ .coroutine
      (fun n => if n = 0 then .connectionError "connection refused" else .success 200)).requests =
        1 := rfl
  rw [hone] at hrequests
  cases hrequests

end WorkTicket.Integrations.RetryRequest
