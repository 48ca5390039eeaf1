import Mathlib

/-! The in-memory rate limiter of one process: a table of token buckets that are made by the
first caller to name them, with that caller's limits, and made anew after thirty seconds. -/

namespace WorkTicket.Ai

/-- A bucket with the moment at which the table took it in. Its rate, its burst and its tokens
may be infinite; the clock is the monotonic one. -/
structure LocalTokenBucket where
  rate : WithTop ℚ
  burst : WithTop ℚ
  tokens : WithTop ℚ
  lastRefill : ℚ
  created : ℚ
  deriving DecidableEq

/-- `min(burst, tokens + elapsed * rate)` -/
def refilled (rate burst tokens : WithTop ℚ) (elapsed : ℚ) : WithTop ℚ :=
  match rate with
  -- `elapsed * rate` is `inf` or, when no time has passed, `nan`: `min` answers the burst
  | ⊤ => burst
  | (rate : ℚ) => min burst (tokens + (elapsed * rate : ℚ))

namespace LocalTokenBucket

variable (b : LocalTokenBucket) (now : ℚ)

def init (rate burst : WithTop ℚ) (now : ℚ) : LocalTokenBucket :=
  { rate, burst, tokens := burst, lastRefill := now, created := now }

/-- The tokens in the bucket at `now`. -/
def available : WithTop ℚ := refilled b.rate b.burst b.tokens (now - b.lastRefill)

def consume : Bool × LocalTokenBucket :=
  if 1 ≤ b.available now then
    (true, { b with tokens := (b.available now).map (· - 1), lastRefill := now })
  else (false, { b with tokens := b.available now, lastRefill := now })

end LocalTokenBucket

structure LocalRateLimiter where
  buckets : String → Option LocalTokenBucket := fun _ => none
  cleanupTtl : ℚ := 30
  userRate : ℚ := 1
  userBurst : ℤ := 3
  tenantRate : ℚ := 5
  tenantBurst : ℤ := 15
  globalRate : ℚ := 5
  globalBurst : ℤ := 10

def userKey (userId : String) : String := "user:" ++ userId

def tenantKey (companyId : String) : String := "tenant:" ++ companyId

def ipKey (clientIp : String) : String := "ip:" ++ clientIp

namespace LocalRateLimiter

variable (l : LocalRateLimiter) (now : ℚ)

def setBucket (key : String) (b : LocalTokenBucket) : LocalRateLimiter :=
  { l with buckets := Function.update l.buckets key (some b) }

/-- The bucket that the table has under `key`, unless it is older than the clean-up time. -/
def fresh (key : String) : Option LocalTokenBucket :=
  (l.buckets key).filter fun b => now - b.created < l.cleanupTtl

def getBucket (key : String) (rate burst : WithTop ℚ) : LocalTokenBucket × LocalRateLimiter :=
  match l.fresh now key with
  | some bucket => (bucket, l)
  | none => (.init rate burst now, l.setBucket key (.init rate burst now))

/-- `_get_bucket(key, rate, burst).consume()`; the bucket in the table is the one consumed from. -/
def consume (key : String) (rate burst : WithTop ℚ) : Bool × LocalRateLimiter :=
  let (bucket, l) := l.getBucket now key rate burst
  let (ok, bucket) := bucket.consume now
  (ok, l.setBucket key bucket)

def checkUser (userId : String) (rate : Option ℚ) (burst : Option ℤ) :
    Bool × LocalRateLimiter :=
  l.consume now (userKey userId) (rate.getD l.userRate) ((burst.getD l.userBurst : ℤ) : ℚ)

def checkTenant (companyId : String) (rate : Option ℚ) (burst : Option ℤ) :
    Bool × LocalRateLimiter :=
  l.consume now (tenantKey companyId) (rate.getD l.tenantRate)
    ((burst.getD l.tenantBurst : ℤ) : ℚ)

def checkGlobal (rate : Option ℚ) (burst : Option ℤ) : Bool × LocalRateLimiter :=
  l.consume now "global" (rate.getD l.globalRate) ((burst.getD l.globalBurst : ℤ) : ℚ)

def checkIp (clientIp : String) (rate : Option ℚ) (burst : Option ℤ) :
    Bool × LocalRateLimiter :=
  l.consume now (ipKey clientIp) (rate.getD 10) ((burst.getD 20 : ℤ) : ℚ)

def checkAll (userId companyId clientIp : String) : (Bool × String) × LocalRateLimiter :=
  let (ok, l) := l.checkGlobal now none none
  if !ok then ((false, "global rate limit exceeded"), l) else
  let (ok, l) := if companyId ≠ "" then l.checkTenant now companyId none none else (true, l)
  if !ok then ((false, "tenant rate limit exceeded"), l) else
  let (ok, l) := if userId ≠ "" then l.checkUser now userId none none else (true, l)
  if !ok then ((false, "user rate limit exceeded"), l) else
  let (ok, l) := if clientIp ≠ "" then l.checkIp now clientIp none none else (true, l)
  if !ok then ((false, "IP rate limit exceeded"), l) else
  ((true, ""), l)

def cleanup : LocalRateLimiter :=
  { l with buckets := fun key => (l.buckets key).filter fun b => ¬l.cleanupTtl < now - b.created }

def reset : LocalRateLimiter := { l with buckets := fun _ => none }

end LocalRateLimiter
end WorkTicket.Ai
