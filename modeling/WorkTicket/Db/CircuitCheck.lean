import WorkTicket.Db.LocalBreaker
import WorkTicket.Foundation.Fallible

/-! How the check of the database circuit ends: it asks the breaker in Redis, and the one of the
process when that fails. Both of its handlers name the class of a function where they mean the
class of an error, and Python refuses to match an exception with such a class. -/

namespace WorkTicket.Db.CircuitCheck

open WorkTicket.Fallible
open WorkTicket.Db.LocalBreaker (Breaker)

/-! ## What a check meets -/

inductive Exc
  | dbUnavailable (detail : String)
  | typeError
  | other (name : String)
  deriving DecidableEq, Repr

/-- An element of a reply: whether it equals 1, and its text with `:.0f` if it has one. -/
structure Item where
  isOne : Bool
  seconds : Option String
  deriving DecidableEq, Repr

/-- What the check script returns: something that counts as false, or something of which
`result[i]` is an element or raises. -/
inductive Reply
  | falsy
  | items (item : ℕ → Option Item)

/-- The calls of a check, each with its answer or what it raises. `syncRedis` tells whether there is
a client, `replicaLag` is `_read_replica_lag_seconds`. -/
structure Env where
  syncRedis : Except Exc Bool
  replicaLag : ℚ
  loadScripts : Except Exc Unit
  evalsha : Except Exc Reply
  pool : Except Exc Unit
  checkedin : Except Exc ℤ
  overflow : Except Exc ℤ
  total : Except Exc ℤ
  checkedout : Except Exc ℤ
  now : ℚ
  random : ℚ

/-- What `_get_circuit_redis` returns other than a client or something that counts as false. -/
inductive Handle
  | client
  | number

/-! ## The code -/

/-- `_get_circuit_redis`. Without an import of a client it goes on to the last line, which returns
the lag of the read replica. -/
def circuitRedis (env : Env) : Option Handle :=
  match env.syncRedis with
  | .ok client => if client then some .client else none
  | .error _ => if env.replicaLag ≠ 0 then some .number else none

/-- A script run on a handle; a number has neither `script_load` nor `evalsha`. -/
def runScript (env : Env) : Handle → Except Exc Reply
  | .client => do
    env.loadScripts
    env.evalsha
  | .number => .error (.other "AttributeError")

def element (item : ℕ → Option Item) (i : ℕ) : Except Exc Item :=
  match item i with
  | some x => .ok x
  | none => .error (.other "IndexError")

structure Verdict where
  circuitOpen : Bool
  allowProbe : Bool
  cooldownRemaining : Item
  halfOpen : Bool

/-- The four elements of the reply; without a client or a reply there is nothing to go by. -/
def globalVerdict (env : Env) : Except Exc (Option Verdict) :=
  match circuitRedis env with
  | none => .ok none
  | some handle => do
    match ← runScript env handle with
    | .falsy => .ok none
    | .items item =>
      let circuitOpen ← element item 0
      let allowProbe ← element item 1
      let cooldownRemaining ← element item 2
      let halfOpen ← element item 3
      .ok (some ⟨circuitOpen.isOne, allowProbe.isOne, cooldownRemaining, halfOpen.isOne⟩)

/-- A computation that may raise, on the variables of the process. -/
abbrev Call := ExceptT Exc (StateM Breaker)

def Call.result {α : Type} (x : Call α) (b : Breaker) : Except Exc α × Breaker := x.run.run b

/-- `except _db_unavailable.__class__`: what is named there is no class of exceptions. -/
def isDbUnavailableClass (_ : Exc) : Call Bool := throw .typeError

/-- A `try` with that clause and an `except Exception` after it. -/
def guarded {α : Type} (body otherwise : Call α) : Call α :=
  tryCatch body fun e => do
    if ← isDbUnavailableClass e then throw e else otherwise

/-- Every connection of the pool is in use. -/
def poolExhausted (env : Env) : Except Exc Bool := do
  env.pool
  if (← env.checkedin) ≠ 0 then return false
  if (← env.overflow) < 0 then return false
  let total ← env.total
  let checkedout ← env.checkedout
  return decide (total ≤ checkedout)

/-- The look at the connection pool before a probe. -/
def probePool (env : Env) : Call Unit := do
  if ← poolExhausted env then
    modify fun b => { b with lastFailure := env.now }
    throw (.dbUnavailable "Pool exhausted — skipping half-open probe")

/-- `f"{x:.0f}"`. -/
def formatSeconds (x : Item) : Except Exc String :=
  match x.seconds with
  | some s => .ok s
  | none => .error (.other "ValueError")

/-- The body of the outer `try`; the answer tells whether the check returns there. -/
def globalCheck (env : Env) : Call Bool := do
  match ← globalVerdict env with
  | none => return false
  | some v =>
    if !v.circuitOpen then return true
    if v.allowProbe then
      guarded (probePool env) (pure ())
      return true
    let seconds ← formatSeconds v.cooldownRemaining
    throw (.dbUnavailable
      ("Database circuit breaker open (global, cooldown=" ++ seconds ++ "s remaining)."))

/-- The rest of the check, which is `Breaker.checkDbCircuit`. -/
def localCheck (env : Env) : Call Unit := do
  let b ← get
  let (result, b') := b.checkDbCircuit env.now env.random
  set b'
  if result = .refused then
    if b.cooldownWithJitter env.random < env.now - b.lastFailure then
      throw (.dbUnavailable ("Database pool exhausted or consecutive errors — circuit breaker open "
        ++ "(probe used, local). Retry later."))
    else
      throw (.dbUnavailable ("Database pool exhausted or consecutive errors — circuit breaker open "
        ++ "(local). Retry later."))

def checkDbCircuit (env : Env) : Call Unit := do
  let returned ← guarded (globalCheck env) (pure false)
  if !returned then localCheck env

/-! ## The two ways out -/

/-- It returns, or raises the service-unavailable error. -/
def Ends : Except Exc Unit → Prop
  | .ok _ => True
  | .error (.dbUnavailable _) => True
  | .error _ => False

/-- There is no verdict from Redis. -/
def RedisFails (env : Env) : Prop :=
  match globalVerdict env with
  | .ok (some _) => False
  | _ => True

structure Meets (env : Env) (b : Breaker) : Prop where
  ends : Ends ((checkDbCircuit env).result b).1
  fallback : RedisFails env → (checkDbCircuit env).result b = (localCheck env).result b

/-- The pool answers and has a connection for the probe. -/
def ConnectionFree (env : Env) : Prop :=
  env.pool = .ok () ∧ ∃ idle, env.checkedin = .ok idle ∧ (idle = 0 →
    ∃ extra, env.overflow = .ok extra ∧ (0 ≤ extra →
      ∃ total out, env.total = .ok total ∧ env.checkedout = .ok out ∧ out < total))

/-- Nothing is raised on the way through Redis: there is no client or its reply counts as false, the
circuit is closed, or a probe is allowed and there is a connection for it. -/
def Smooth (env : Env) : Prop :=
  match globalVerdict env with
  | .error _ => False
  | .ok none => True
  | .ok (some v) => v.circuitOpen = true → v.allowProbe = true ∧ ConnectionFree env

section
variable {α : Type} {env : Env} {b : Breaker}

/-- Whatever is raised under such a handler leaves it as a TypeError. -/
theorem result_guarded (body otherwise : Call α) (b : Breaker) :
    (guarded body otherwise).result b =
      match body.result b with
      | (.ok a, b') => (.ok a, b')
      | (.error _, b') => (.error .typeError, b') := by
  simp only [guarded, Call.result, tryCatch, tryCatchThe, MonadExceptOf.tryCatch, ExceptT.tryCatch,
    ExceptT.mk, ExceptT.run, StateT.run, bind, StateT.bind]
  rcases body b with ⟨result, b'⟩
  cases result <;> rfl

theorem result_lift {β : Type} (x : Except Exc α) (f : α → Call β) (b : Breaker) :
    ((do f (← x)) : Call β).result b =
      match x with
      | .ok a => (f a).result b
      | .error e => (.error e, b) := by
  cases x <;> rfl

theorem result_bind {β : Type} (x : Call α) (f : α → Call β) (b : Breaker) :
    (x >>= f).result b =
      match x.result b with
      | (.ok a, b') => (f a).result b'
      | (.error e, b') => (.error e, b') := by
  change (ExceptT.bindCont f (x b).1) (x b).2 = _
  simp only [Call.result, ExceptT.run, StateT.run]
  rcases x b with ⟨result, b'⟩
  cases result <;> rfl

theorem ends_localCheck (env : Env) (b : Breaker) : Ends ((localCheck env).result b).1 := by
  have hget : (get : Call Breaker).result b = (.ok b, b) := rfl
  have hset : ∀ b' : Breaker, (set b' : Call PUnit).result b = (.ok (), b') := fun _ => rfl
  simp only [localCheck, result_bind, hget, hset]
  split_ifs <;> trivial

theorem poolExhausted_eq_false : poolExhausted env = .ok false ↔ ConnectionFree env := by
  unfold poolExhausted ConnectionFree
  constructor
  · intro h
    obtain ⟨_, hpool, h⟩ := bind_eq_ok.mp h
    obtain ⟨idle, hidle, h⟩ := bind_eq_ok.mp h
    refine ⟨hpool, idle, hidle, fun hzero => ?_⟩
    rw [if_neg (not_not.mpr hzero)] at h
    obtain ⟨extra, hextra, h⟩ := bind_eq_ok.mp h
    refine ⟨extra, hextra, fun hfull => ?_⟩
    rw [if_neg (not_lt.mpr hfull)] at h
    obtain ⟨total, htotal, h⟩ := bind_eq_ok.mp h
    obtain ⟨out, hout, h⟩ := bind_eq_ok.mp h
    have hfree : ¬total ≤ out := of_decide_eq_false (Except.ok.inj h)
    exact ⟨total, out, htotal, hout, not_le.mp hfree⟩
  · rintro ⟨hpool, idle, hidle, h⟩
    refine bind_eq_ok.mpr ⟨(), hpool, bind_eq_ok.mpr ⟨idle, hidle, ?_⟩⟩
    by_cases hzero : idle = 0
    · obtain ⟨extra, hextra, h⟩ := h hzero
      rw [if_neg (not_not.mpr hzero)]
      refine bind_eq_ok.mpr ⟨extra, hextra, ?_⟩
      by_cases hfull : 0 ≤ extra
      · obtain ⟨total, out, htotal, hout, hfree⟩ := h hfull
        rw [if_neg (not_lt.mpr hfull)]
        refine bind_eq_ok.mpr ⟨total, htotal, bind_eq_ok.mpr ⟨out, hout, ?_⟩⟩
        exact congrArg _ (decide_eq_false (not_le.mpr hfree))
      · rw [if_pos (not_le.mp hfull)]
        rfl
    · rw [if_pos hzero]
      rfl

theorem result_probePool (env : Env) (b : Breaker) :
    (probePool env).result b = match poolExhausted env with
      | .ok true => (.error (.dbUnavailable "Pool exhausted — skipping half-open probe"),
          { b with lastFailure := env.now })
      | .ok false => (.ok (), b)
      | .error e => (.error e, b) := by
  rw [probePool, result_lift]
  cases poolExhausted env with
  | error e => rfl
  | ok exhausted => cases exhausted <;> rfl

theorem globalCheck_of_error {e : Exc} (h : globalVerdict env = .error e) :
    (globalCheck env).result b = (.error e, b) := by
  rw [globalCheck, result_lift, h]

theorem globalCheck_of_none (h : globalVerdict env = .ok none) :
    (globalCheck env).result b = (.ok false, b) := by
  rw [globalCheck, result_lift, h]
  rfl

section
variable {v : Verdict}

theorem globalCheck_closed (h : globalVerdict env = .ok (some v)) (hclosed : v.circuitOpen = false) :
    (globalCheck env).result b = (.ok true, b) := by
  rw [globalCheck, result_lift, h]
  simp only [hclosed]
  rfl

theorem globalCheck_probe (h : globalVerdict env = .ok (some v)) (hopen : v.circuitOpen = true)
    (hprobe : v.allowProbe = true) : (globalCheck env).result b =
      match (guarded (probePool env) (pure ())).result b with
      | (.ok _, b') => (.ok true, b')
      | (.error e, b') => (.error e, b') := by
  rw [globalCheck, result_lift, h]
  simp only [hopen, hprobe, Bool.not_true, Bool.false_eq_true, if_false, if_true]
  rw [result_bind]
  rcases (guarded (probePool env) (pure ())).result b with ⟨result, b'⟩
  cases result <;> rfl

theorem globalCheck_refused (h : globalVerdict env = .ok (some v)) (hopen : v.circuitOpen = true)
    (hprobe : v.allowProbe = false) : ∃ e, (globalCheck env).result b = (.error e, b) := by
  rw [globalCheck, result_lift, h]
  simp only [hopen, hprobe]
  cases hseconds : formatSeconds v.cooldownRemaining with
  | error e => exact ⟨e, by rfl⟩
  | ok seconds => exact ⟨_, rfl⟩

theorem globalCheck_smooth (h : globalVerdict env = .ok (some v))
    (hsmooth : v.circuitOpen = true → v.allowProbe = true ∧ ConnectionFree env) :
    (globalCheck env).result b = (.ok true, b) := by
  cases hopen : v.circuitOpen with
  | false => exact globalCheck_closed h hopen
  | true =>
    obtain ⟨hprobe, hfree⟩ := hsmooth hopen
    rw [globalCheck_probe h hopen hprobe, result_guarded, result_probePool,
      poolExhausted_eq_false.mpr hfree]

theorem globalCheck_rough (h : globalVerdict env = .ok (some v))
    (hrough : ¬(v.circuitOpen = true → v.allowProbe = true ∧ ConnectionFree env)) :
    ∃ e b', (globalCheck env).result b = (.error e, b') := by
  obtain ⟨hopen, hrough⟩ := Classical.not_imp.mp hrough
  cases hprobe : v.allowProbe with
  | false =>
    obtain ⟨e, he⟩ := globalCheck_refused (b := b) h hopen hprobe
    exact ⟨e, b, he⟩
  | true =>
    have hfree : poolExhausted env ≠ .ok false := fun hok =>
      hrough ⟨hprobe, poolExhausted_eq_false.mp hok⟩
    rw [globalCheck_probe h hopen hprobe, result_guarded, result_probePool]
    cases hpool : poolExhausted env with
    | error e => exact ⟨_, _, rfl⟩
    | ok exhausted =>
      cases exhausted with
      | false => exact absurd hpool hfree
      | true => exact ⟨_, _, rfl⟩

end

theorem result_checkDbCircuit (env : Env) (b : Breaker) : (checkDbCircuit env).result b =
    match (globalCheck env).result b with
    | (.ok true, b') => (.ok (), b')
    | (.ok false, b') => (localCheck env).result b'
    | (.error _, b') => (.error .typeError, b') := by
  rw [checkDbCircuit, result_bind, result_guarded]
  rcases (globalCheck env).result b with ⟨result, b'⟩
  cases result with
  | error e => rfl
  | ok returned => cases returned <;> rfl

/-- An exception on the way through Redis ends the check with a TypeError. -/
theorem not_meets_of_error {e : Exc} {b' : Breaker}
    (h : (globalCheck env).result b = (.error e, b')) : ¬Meets env b := by
  intro hmeets
  have hends := hmeets.ends
  rw [result_checkDbCircuit, h] at hends
  exact hends

/-- The check ends in one of the two ways, and as the breaker of the process does when Redis fails,
exactly if nothing is raised on the way through Redis. -/
theorem meets_iff_smooth (env : Env) (b : Breaker) : Meets env b ↔ Smooth env := by
  unfold Smooth
  cases hverdict : globalVerdict env with
  | error e => exact iff_of_false (not_meets_of_error (globalCheck_of_error hverdict)) id
  | ok verdict =>
    cases verdict with
    | none =>
      have hlocal : (checkDbCircuit env).result b = (localCheck env).result b := by
        rw [result_checkDbCircuit, globalCheck_of_none hverdict]
      refine iff_of_true ⟨?_, fun _ => hlocal⟩ trivial
      rw [hlocal]
      exact ends_localCheck env b
    | some v =>
      constructor
      · intro hmeets
        by_contra hrough
        obtain ⟨e, b', he⟩ := globalCheck_rough (b := b) hverdict hrough
        exact not_meets_of_error he hmeets
      · intro hsmooth
        have hreturns : (checkDbCircuit env).result b = (.ok (), b) := by
          rw [result_checkDbCircuit, globalCheck_smooth hverdict hsmooth]
        refine ⟨?_, fun hfails => ?_⟩
        · rw [hreturns]
          trivial
        · simp only [RedisFails, hverdict] at hfails

end

/-- Redis is not reached, and the breaker of the process is closed. -/
def unreachable : Env where
  syncRedis := .ok true
  replicaLag := 0
  loadScripts := .ok ()
  evalsha := .error (.other "ConnectionError")
  pool := .ok ()
  checkedin := .ok 1
  overflow := .ok (-4)
  total := .error (.other "AttributeError")
  checkedout := .ok 0
  now := 10
  random := 0

theorem not_meets_unreachable : ¬Meets unreachable Breaker.initial := by
  intro hmeets
  have hends := hmeets.ends
  have hraised : ((checkDbCircuit unreachable).result Breaker.initial).1 = .error .typeError := rfl
  rw [hraised] at hends
  exact hends

end WorkTicket.Db.CircuitCheck
