import WorkTicket.Ai.LocalRateLimiter
import WorkTicket.Foundation.AnsweredRuns

/-! The rate limiter that all processes share: token buckets in Redis, each consumed from by one
script, and the limiter of the process in place of them while Redis does not answer. -/

namespace WorkTicket.Ai

open WorkTicket.AnsweredRuns

/-- The times a call reads: the wall clock of its process, the monotonic clock of its process and
the clock of Redis, by which keys expire. -/
structure Moment where
  time : ℚ
  monotonic : ℚ
  redis : ℚ
  deriving DecidableEq

/-- The hash of a bucket, and when its key expires. -/
structure RedisBucket where
  tokens : ℚ
  ts : ℚ
  expires : ℚ
  deriving DecidableEq

abbrev Redis := String → Option RedisBucket

namespace Redis

def live (r : Redis) (clock : ℚ) (key : String) : Option RedisBucket :=
  (r key).filter fun b => clock < b.expires

end Redis

/-- The script of `RedisTokenBucket.consume`, from the `tokens` and `ts` stored. -/
def consumeScript (now rate burst tokens : ℚ) : Option (ℚ × ℚ) → Bool × ℚ × ℚ
  | some (last_tokens, last_refill) =>
    let elapsed := now - last_refill
    let new_tokens := min burst (last_tokens + elapsed * rate)
    if new_tokens ≥ tokens then (true, new_tokens - tokens, now) else (false, new_tokens, now)
  | none => (true, burst - tokens, now)

structure RedisTokenBucket where
  keyPrefix : String
  rate : ℚ
  burst : ℤ

namespace RedisTokenBucket

def redisKey (rb : RedisTokenBucket) (key : String) : String := rb.keyPrefix ++ ":" ++ key

/-- One token off the bucket found, which from then on has an hour to live. -/
def take (rb : RedisTokenBucket) (m : Moment) (stored : Option RedisBucket) :
    Bool × RedisBucket :=
  let (ok, tokens, ts) :=
    consumeScript m.time rb.rate rb.burst 1 (stored.map fun b => (b.tokens, b.ts))
  (ok, { tokens, ts, expires := m.redis + 3600 })

def consume (rb : RedisTokenBucket) (m : Moment) (key : String) (r : Redis) : Bool × Redis :=
  let (ok, b) := rb.take m (r.live m.redis (rb.redisKey key))
  (ok, Function.update r (rb.redisKey key) (some b))

attribute [grind =] consumeScript take consume

end RedisTokenBucket

/-! ## The limiter -/

/-- The limits come from the environment, and so does the number of workers. -/
structure RateLimiter where
  userRate : ℚ := 1
  userBurst : ℤ := 3
  tenantRate : ℚ := 5
  tenantBurst : ℤ := 15
  globalRate : ℚ := 5
  globalBurst : ℤ := 10
  estimatedWorkers : ℕ := 5

def safetyMultiplier : ℚ := 3 / 2

/-- What the limiter of a process works on: the shared Redis and the table of its own. -/
structure Limiters where
  redis : Redis
  process : LocalRateLimiter

namespace RateLimiter

variable (rl : RateLimiter) (m : Moment) (up : Bool)

/-- `up` says that Redis answers the call; else the client is missing or `consume` raises. -/
def checkWithFallback (checkFn localKey : String) (rate : ℚ) (burst : ℤ) (w : Limiters) :
    Bool × Limiters :=
  if up then
    let rb : RedisTokenBucket := ⟨"rl:" ++ localKey, rate, burst⟩
    let (ok, redis) := rb.consume m (if localKey = "global" then "global" else localKey) w.redis
    (ok, { w with redis })
  else
    let scaledRate := rate / (rl.estimatedWorkers * safetyMultiplier)
    let scaledBurst := max 1 (burst / ((rl.estimatedWorkers : ℤ) * 2))
    let (ok, process) :=
      if localKey = "global" then w.process.checkGlobal m.monotonic scaledRate scaledBurst
      else if localKey = "user" then
        w.process.checkUser m.monotonic checkFn scaledRate scaledBurst
      else if localKey = "ip" then w.process.checkIp m.monotonic checkFn scaledRate scaledBurst
      else w.process.checkTenant m.monotonic checkFn scaledRate scaledBurst
    (ok, { w with process })

def checkUser (userId : String) : Limiters → Bool × Limiters :=
  rl.checkWithFallback m up userId "user" rl.userRate rl.userBurst

def checkTenant (companyId : String) : Limiters → Bool × Limiters :=
  rl.checkWithFallback m up companyId "tenant" rl.tenantRate rl.tenantBurst

def checkGlobal : Limiters → Bool × Limiters :=
  rl.checkWithFallback m up "global" "global" rl.globalRate rl.globalBurst

def checkIp (clientIp : String) : Limiters → Bool × Limiters :=
  rl.checkWithFallback m up clientIp "ip" 10 20

def checkAll (userId companyId clientIp : String) (w : Limiters) : (Bool × String) × Limiters :=
  let (ok, w) := rl.checkGlobal m up w
  if !ok then ((false, "global rate limit exceeded"), w) else
  let (ok, w) := if companyId ≠ "" then rl.checkTenant m up companyId w else (true, w)
  if !ok then ((false, "tenant rate limit exceeded"), w) else
  let (ok, w) := if userId ≠ "" then rl.checkUser m up userId w else (true, w)
  if !ok then ((false, "user rate limit exceeded"), w) else
  let (ok, w) := if clientIp ≠ "" then rl.checkIp m up clientIp w else (true, w)
  if !ok then ((false, "IP rate limit exceeded"), w) else
  ((true, ""), w)

end RateLimiter

/-! ## The bound of one bucket -/

namespace RedisTokenBucket

variable (rb : RedisTokenBucket) (key : String)

/-- The calls of all processes on the bucket at `key`, in the order in which Redis runs them. -/
abbrev consumed : Redis → List Moment → List (Moment × Bool) :=
  answers fun m => rb.consume m key

/-- No two calls are an hour apart by the clock of Redis, so that the key does not expire. -/
def Alive : List Moment → Prop := List.IsChain fun m m' => m'.redis < m.redis + 3600

variable {rb key} {m : Moment} {r : Redis} {b : RedisBucket}

variable (rb key m r) in
theorem consume_snd_self :
    (rb.consume m key r).2 (rb.redisKey key) =
      some (rb.take m (r.live m.redis (rb.redisKey key))).2 :=
  Function.update_self ..

theorem take_expires (stored : Option RedisBucket) :
    (rb.take m stored).2.expires = m.redis + 3600 := rfl

theorem take_ts (stored : Option RedisBucket) : (rb.take m stored).2.ts = m.time := by
  cases stored with
  | none => rfl
  | some b =>
    simp only [take, consumeScript, Option.map_some]
    split <;> rfl

/-- The tokens a call finds and does not leave are the one it is given: what was stored and has
come in since is never exceeded, whichever way the clock went. -/
theorem take_tokens_le (rb : RedisTokenBucket) (m : Moment) (b : RedisBucket) :
    ((rb.take m (some b)).1.toNat : ℚ) + (rb.take m (some b)).2.tokens ≤
      b.tokens + (m.time - b.ts) * rb.rate := by
  simp only [take, consumeScript, Option.map_some]
  split
  · simp
  · simp

theorem one_le_of_take (h : (rb.take m (some b)).1 = true) :
    1 ≤ b.tokens + (m.time - b.ts) * rb.rate := by
  simp only [take, consumeScript, Option.map_some] at h
  split at h
  · rename_i hle
    exact hle.trans (min_le_right _ _)
  · cases h

theorem live_of_lt (h : r (rb.redisKey key) = some b) (hlt : m.redis < b.expires) :
    r.live m.redis (rb.redisKey key) = some b := by
  simp [Redis.live, h, hlt]

theorem countP_snd_cons (a : Moment × Bool) (l : List (Moment × Bool)) :
    ((a :: l).countP Prod.snd : ℚ) = a.2.toNat + l.countP Prod.snd := by
  obtain ⟨m, ok⟩ := a
  cases ok <;> simp [add_comm]

theorem countP_le_of_stored {ms : List Moment} {last : Moment} {n : ℕ}
    (hb : r (rb.redisKey key) = some b) (hexp : b.expires = last.redis + 3600)
    (halive : Alive (last :: ms)) (hn : (rb.consumed key r ms)[n]? = some (m, true)) :
    (((rb.consumed key r ms).take (n + 1)).countP Prod.snd : ℚ) ≤
      b.tokens + (m.time - b.ts) * rb.rate := by
  induction ms generalizing r b last n with
  | nil => simp [answers] at hn
  | cons m' ms ih =>
    obtain ⟨hsoon, hrest⟩ := List.isChain_cons_cons.mp halive
    have hlive : r.live m'.redis (rb.redisKey key) = some b :=
      live_of_lt hb (by rw [hexp]; exact hsoon)
    have hstored := consume_snd_self rb key m' r
    have hans : (rb.consume m' key r).1 = (rb.take m' (some b)).1 := by
      rw [← hlive]; rfl
    rw [hlive] at hstored
    rw [consumed, answers] at hn ⊢
    cases n with
    | zero =>
      obtain ⟨rfl, hadm⟩ := Prod.mk.inj (Option.some.inj hn)
      rw [hans] at hadm
      simpa [hans, hadm] using one_le_of_take hadm
    | succ n =>
      -- the potential of the bucket and the calls admitted since do not grow
      have hcount := ih hstored (take_expires _) hrest hn
      have hle := take_tokens_le rb m' b
      rw [take_ts] at hcount
      rw [List.take_succ_cons, countP_snd_cons, hans]
      linarith

theorem countP_admitted_le (hburst : 1 ≤ rb.burst) {m₀ : Moment} {ms : List Moment} {n : ℕ}
    (hnew : r.live m₀.redis (rb.redisKey key) = none) (halive : Alive (m₀ :: ms))
    (hn : (rb.consumed key r (m₀ :: ms))[n]? = some (m, true)) :
    (((rb.consumed key r (m₀ :: ms)).take (n + 1)).countP Prod.snd : ℚ) ≤
      rb.burst + rb.rate * (m.time - m₀.time) := by
  have hans : (rb.consume m₀ key r).1 = true := by
    simp only [consume, hnew]
    rfl
  have hstored := consume_snd_self rb key m₀ r
  rw [hnew] at hstored
  rw [consumed, answers] at hn ⊢
  cases n with
  | zero =>
    obtain ⟨rfl, -⟩ := Prod.mk.inj (Option.some.inj hn)
    have hburst' : (1 : ℚ) ≤ rb.burst := by exact_mod_cast hburst
    simpa [hans] using hburst'
  | succ n =>
    have hcount := countP_le_of_stored hstored (take_expires _) halive hn
    have hfull : (rb.take m₀ none).2.tokens = rb.burst - 1 := rfl
    rw [take_ts, hfull] at hcount
    rw [List.take_succ_cons, countP_snd_cons, hans, Bool.toNat_true, Nat.cast_one]
    linarith

/-- A second call whose clock is a second behind the first: the bound is met with equality. -/
theorem countP_admitted_le_behind :
    let rb : RedisTokenBucket := ⟨"rl:user", 1, 3⟩
    (((rb.consumed "user" (fun _ => none) [⟨0, 0, 0⟩, ⟨-1, 0, 1⟩]).take 2).countP Prod.snd : ℚ) ≤
      (3 : ℤ) + 1 * ((-1 : ℚ) - 0) := by
  refine @countP_admitted_le ⟨"rl:user", 1, 3⟩ "user" ⟨-1, 0, 1⟩ _ (by decide) ⟨0, 0, 0⟩ _ 1 rfl
    ?_ ?_
  · exact List.isChain_cons_cons.mpr ⟨by norm_num, List.isChain_singleton _⟩
  · norm_num [consumed, answers, consume, take, consumeScript, Redis.live, Option.filter]

end RedisTokenBucket
end WorkTicket.Ai
