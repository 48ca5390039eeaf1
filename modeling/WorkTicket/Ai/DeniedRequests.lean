import WorkTicket.Ai.RateLimiter
import WorkTicket.Foundation.KeyedBuckets

/-! What the requests of other tenants do to the answers of one tenant. `check_all` takes from the
global bucket before it looks at the tenant, the user and the address, so that a request denied
there has used up a token that all tenants share. -/

namespace WorkTicket.Ai.DeniedRequests

open WorkTicket.AnsweredRuns WorkTicket.KeyedBuckets

structure Request where
  userId : String
  companyId : String
  clientIp : String
  moment : Moment
  deriving DecidableEq

def ofTenant (a : String) (r : Request) : Bool := r.companyId = a

def inProcess (r : Request) (l : LocalRateLimiter) : (Bool × String) × LocalRateLimiter :=
  l.checkAll r.moment.monotonic r.userId r.companyId r.clientIp

def shared (rl : RateLimiter) (r : Request) (w : Limiters) : (Bool × String) × Limiters :=
  rl.checkAll r.moment true r.userId r.companyId r.clientIp w

def DeniedBehindGlobal (answer : Bool × String) : Prop :=
  answer.1 = false ∧ answer.2 ≠ "global rate limit exceeded"

instance : DecidablePred DeniedBehindGlobal := fun _ => inferInstanceAs (Decidable (_ ∧ _))

/-- The tenant is answered as in the run without the requests of the others. -/
def Unaffected {σ : Type*} (step : Request → σ → (Bool × String) × σ) (a : String) (s : σ)
    (requests : List Request) : Prop :=
  (answers step s requests).filter (fun x => ofTenant a x.1) =
    answers step s (requests.filter (ofTenant a))

def OthersDenied {σ : Type*} (step : Request → σ → (Bool × String) × σ) (a : String) (s : σ)
    (requests : List Request) : Prop :=
  ∀ x ∈ answers step s requests, ofTenant a x.1 = false → DeniedBehindGlobal x.2

/-! ## The checks of a request -/

def answerOf : Option (String × String) → Bool × String
  | none => (true, "")
  | some (_, reason) => (false, reason)

/-- The last three checks are made if there is somebody to check. -/
def fourChecks {β : Type*} (global tenant user ip : Check String β String) (r : Request) :
    List (Check String β String) :=
  (if True then [global] else []) ++ ((if r.companyId ≠ "" then [tenant] else []) ++
    ((if r.userId ≠ "" then [user] else []) ++ ((if r.clientIp ≠ "" then [ip] else []) ++ [])))

def localCheck (l : LocalRateLimiter) (now : ℚ) (key : String) (rate : ℚ) (burst : ℤ)
    (reason : String) : Check String LocalTokenBucket String where
  key := key
  take stored :=
    ((stored.filter fun b => now - b.created < l.cleanupTtl).getD
      (.init rate (burst : ℚ) now)).consume now
  reason := reason

def localGlobal (l : LocalRateLimiter) (r : Request) : Check String LocalTokenBucket String :=
  localCheck l r.moment.monotonic "global" l.globalRate l.globalBurst "global rate limit exceeded"

def localTenant (l : LocalRateLimiter) (r : Request) : Check String LocalTokenBucket String :=
  localCheck l r.moment.monotonic (tenantKey r.companyId) l.tenantRate l.tenantBurst
    "tenant rate limit exceeded"

def localUser (l : LocalRateLimiter) (r : Request) : Check String LocalTokenBucket String :=
  localCheck l r.moment.monotonic (userKey r.userId) l.userRate l.userBurst
    "user rate limit exceeded"

def localIp (l : LocalRateLimiter) (r : Request) : Check String LocalTokenBucket String :=
  localCheck l r.moment.monotonic (ipKey r.clientIp) 10 20 "IP rate limit exceeded"

def localChecks (l : LocalRateLimiter) (r : Request) :
    List (Check String LocalTokenBucket String) :=
  fourChecks (localGlobal l r) (localTenant l r) (localUser l r) (localIp l r) r

variable {l : LocalRateLimiter} {now : ℚ} {key : String} {rate : ℚ} {burst : ℤ} {reason : String}

theorem consume_eq (s : Table String LocalTokenBucket) :
    ({ l with buckets := s } : LocalRateLimiter).consume now key rate (burst : ℚ) =
      (((localCheck l now key rate burst reason).take (s key)).1,
        { l with buckets := (localCheck l now key rate burst reason).left s }) := by
  simp only [LocalRateLimiter.consume, LocalRateLimiter.getBucket, LocalRateLimiter.fresh,
    localCheck, Check.left]
  cases hs : (s key).filter fun b => now - b.created < l.cleanupTtl with
  | none => simp [LocalRateLimiter.setBucket]
  | some b => simp [LocalRateLimiter.setBucket]

/-- `check_all` of either limiter, over what it does with one bucket. -/
theorem guards_eq_walk {σ β : Type*} (mk : Table String β → σ) (r : Request)
    (global tenant user ip : Check String β String) (opG opT opU opI : σ → Bool × σ)
    (hG : ∀ s, opG (mk s) = ((global.take (s global.key)).1, mk (global.left s)))
    (hT : ∀ s, opT (mk s) = ((tenant.take (s tenant.key)).1, mk (tenant.left s)))
    (hU : ∀ s, opU (mk s) = ((user.take (s user.key)).1, mk (user.left s)))
    (hI : ∀ s, opI (mk s) = ((ip.take (s ip.key)).1, mk (ip.left s))) (s : Table String β) :
    guarded True opG (false, global.reason)
      (guarded (r.companyId ≠ "") opT (false, tenant.reason)
        (guarded (r.userId ≠ "") opU (false, user.reason)
          (guarded (r.clientIp ≠ "") opI (false, ip.reason) fun w => ((true, ""), w)))) (mk s) =
      (answerOf (walk (fourChecks global tenant user ip r) s).1,
        mk (walk (fourChecks global tenant user ip r) s).2) := by
  have hlast : ∀ s, ((true, ""), mk s) = (answerOf (walk ([] : List (Check String β String)) s).1,
      mk (walk ([] : List (Check String β String)) s).2) := fun _ => rfl
  have h₄ := guarded_eq_walk answerOf (fun w => ((true, ""), w)) (r.clientIp ≠ "") hI hlast
  have h₃ := guarded_eq_walk answerOf _ (r.userId ≠ "") hU h₄
  have h₂ := guarded_eq_walk answerOf _ (r.companyId ≠ "") hT h₃
  exact guarded_eq_walk answerOf _ True hG h₂ s

theorem inProcess_eq (r : Request) (s : Table String LocalTokenBucket) :
    inProcess r { l with buckets := s } =
      (answerOf (walk (localChecks l r) s).1,
        { l with buckets := (walk (localChecks l r) s).2 }) :=
  guards_eq_walk (fun s => ({ l with buckets := s } : LocalRateLimiter)) r
    (localGlobal l r) (localTenant l r) (localUser l r) (localIp l r)
    (fun l => l.checkGlobal r.moment.monotonic none none)
    (fun l => l.checkTenant r.moment.monotonic r.companyId none none)
    (fun l => l.checkUser r.moment.monotonic r.userId none none)
    (fun l => l.checkIp r.moment.monotonic r.clientIp none none)
    (fun s => consume_eq s) (fun s => consume_eq s) (fun s => consume_eq s)
    (fun s => consume_eq s) s

def sharedCheck (kind : String) (rate : ℚ) (burst : ℤ) (m : Moment) (reason : String) :
    Check String RedisBucket String where
  key := RedisTokenBucket.redisKey ⟨"rl:" ++ kind, rate, burst⟩ kind
  take stored :=
    RedisTokenBucket.take ⟨"rl:" ++ kind, rate, burst⟩ m
      (stored.filter fun b => m.redis < b.expires)
  reason := reason

def sharedGlobal (rl : RateLimiter) (r : Request) : Check String RedisBucket String :=
  sharedCheck "global" rl.globalRate rl.globalBurst r.moment "global rate limit exceeded"

def sharedTenant (rl : RateLimiter) (r : Request) : Check String RedisBucket String :=
  sharedCheck "tenant" rl.tenantRate rl.tenantBurst r.moment "tenant rate limit exceeded"

def sharedUser (rl : RateLimiter) (r : Request) : Check String RedisBucket String :=
  sharedCheck "user" rl.userRate rl.userBurst r.moment "user rate limit exceeded"

def sharedIp (r : Request) : Check String RedisBucket String :=
  sharedCheck "ip" 10 20 r.moment "IP rate limit exceeded"

def sharedChecks (rl : RateLimiter) (r : Request) : List (Check String RedisBucket String) :=
  fourChecks (sharedGlobal rl r) (sharedTenant rl r) (sharedUser rl r) (sharedIp r) r

theorem shared_eq (rl : RateLimiter) (w : Limiters) (r : Request) (s : Redis) :
    shared rl r { w with redis := s } =
      (answerOf (walk (sharedChecks rl r) s).1,
        { w with redis := (walk (sharedChecks rl r) s).2 }) :=
  guards_eq_walk (fun s => ({ w with redis := s } : Limiters)) r
    (sharedGlobal rl r) (sharedTenant rl r) (sharedUser rl r) (sharedIp r)
    (fun w => rl.checkGlobal r.moment true w)
    (fun w => rl.checkTenant r.moment true r.companyId w)
    (fun w => rl.checkUser r.moment true r.userId w)
    (fun w => rl.checkIp r.moment true r.clientIp w)
    (fun _ => rfl) (fun _ => rfl) (fun _ => rfl) (fun _ => rfl) s

/-- The answers of a limiter are those of the walks over its table. -/
theorem answers_eq_map {σ β : Type*} {mk : Table String β → σ}
    {step : Request → σ → (Bool × String) × σ} {checks : Request → List (Check String β String)}
    (h : ∀ r s, step r (mk s) = (answerOf (walk (checks r) s).1, mk (walk (checks r) s).2))
    (s : Table String β) (requests : List Request) :
    answers step (mk s) requests =
      (answers (request checks) s requests).map fun x => (x.1, answerOf x.2) := by
  induction requests generalizing s with
  | nil => rfl
  | cons r requests ih => simp only [answers, List.map_cons, h, ih, request]

theorem unaffected_of_walks {σ β : Type*} (mk : Table String β → σ)
    {step : Request → σ → (Bool × String) × σ} {checks : Request → List (Check String β String)}
    (h : ∀ r s, step r (mk s) = (answerOf (walk (checks r) s).1, mk (walk (checks r) s).2))
    {a : String} {s : Table String β} {requests : List Request}
    (hwalks : (answers (request checks) s requests).filter (fun x => ofTenant a x.1) =
      answers (request checks) s (requests.filter (ofTenant a))) :
    Unaffected step a (mk s) requests := by
  rw [Unaffected, answers_eq_map h, answers_eq_map h, ← hwalks, List.filter_map]
  rfl

/-! ## Buckets that hold less -/

/-- `b` is the bucket `b'`, with no more tokens in it at any time. -/
structure Below (b b' : LocalTokenBucket) : Prop where
  rate : b.rate = b'.rate
  burst : b.burst = b'.burst
  created : b.created = b'.created
  available : ∀ now, b.available now ≤ b'.available now

theorem Below.refl (b : LocalTokenBucket) : Below b b := ⟨rfl, rfl, rfl, fun _ => le_rfl⟩

theorem map_sub_one_le (x : WithTop ℚ) : x.map (· - 1) ≤ x := by
  induction x with
  | top => exact le_top
  | coe q => exact WithTop.coe_le_coe.mpr (by simp)

theorem map_sub_one_mono {x y : WithTop ℚ} (h : x ≤ y) : x.map (· - 1) ≤ y.map (· - 1) :=
  WithTop.monotone_map_iff.mpr (fun _ _ h => sub_le_sub_right h 1) h

theorem consume_tokens_le (b : LocalTokenBucket) (now : ℚ) :
    (b.consume now).2.tokens ≤ b.available now := by
  rw [LocalTokenBucket.consume]
  split
  · exact map_sub_one_le _
  · exact le_rfl

theorem refilled_mono {rate burst tokens tokens' : WithTop ℚ} (h : tokens ≤ tokens')
    (elapsed : ℚ) : refilled rate burst tokens elapsed ≤ refilled rate burst tokens' elapsed := by
  cases rate with
  | top => exact le_rfl
  | coe rate => exact min_le_min le_rfl (add_le_add_left h _)

theorem refilled_le {rate burst tokens kept : WithTop ℚ} {x y : ℚ}
    (h : kept ≤ refilled rate burst tokens x) :
    refilled rate burst kept y ≤ refilled rate burst tokens (x + y) := by
  cases rate with
  | top => exact le_rfl
  | coe rate =>
    have hsum : (((x + y) * rate : ℚ) : WithTop ℚ) = (x * rate : ℚ) + (y * rate : ℚ) := by
      rw [← WithTop.coe_add, add_mul]
    simp only [refilled, hsum] at h ⊢
    exact refill_le h

theorem consume_snd (b : LocalTokenBucket) (now : ℚ) :
    (b.consume now).2 = { b with tokens := (b.consume now).2.tokens, lastRefill := now } := by
  rw [LocalTokenBucket.consume]
  split <;> rfl

theorem Below.consume_left {b b' : LocalTokenBucket} (h : Below b b') (now : ℚ) :
    Below (b.consume now).2 b' := by
  rw [consume_snd]
  refine ⟨h.rate, h.burst, h.created, fun t => ?_⟩
  have hkept := refilled_le (y := t - now) (consume_tokens_le b now)
  rw [sub_add_sub_cancel'] at hkept
  exact hkept.trans (h.available t)

theorem Below.consume {b b' : LocalTokenBucket} (h : Below b b') {now : ℚ}
    (hok : (b.consume now).1 = true) :
    (b'.consume now).1 = true ∧ Below (b.consume now).2 (b'.consume now).2 := by
  have hle := h.available now
  have hone : 1 ≤ b.available now := by
    rw [LocalTokenBucket.consume] at hok
    split at hok
    · assumption
    · cases hok
  simp only [LocalTokenBucket.consume, if_pos hone, if_pos (hone.trans hle)]
  refine ⟨trivial, h.rate, h.burst, h.created, fun t => ?_⟩
  change refilled b.rate b.burst _ _ ≤ refilled b'.rate b'.burst _ _
  rw [h.rate, h.burst]
  exact refilled_mono (map_sub_one_mono hle) _

/-! ## The limiter of a process -/

def BelowIfThere (o o' : Option LocalTokenBucket) : Prop :=
  o = o' ∨ ∃ b b', o = some b ∧ o' = some b' ∧ Below b b'

theorem mem_fourChecks {β : Type*} {global tenant user ip c : Check String β String} {r : Request}
    (h : c ∈ fourChecks global tenant user ip r) :
    c = global ∨ c = tenant ∨ c = user ∨ c = ip := by
  simp only [fourChecks, List.mem_append] at h
  rcases h with h | h | h | h | h
  · exact .inl (by simpa using h)
  · exact .inr (.inl (by split at h <;> simp_all))
  · exact .inr (.inr (.inl (by split at h <;> simp_all)))
  · exact .inr (.inr (.inr (by split at h <;> simp_all)))
  · cases h

theorem mem_localChecks {c : Check String LocalTokenBucket String} {r : Request}
    (h : c ∈ localChecks l r) :
    ∃ key rate burst reason, c = localCheck l r.moment.monotonic key rate burst reason := by
  rcases mem_fourChecks h with rfl | rfl | rfl | rfl <;> exact ⟨_, _, _, _, rfl⟩

theorem localCheck_own {o o' : Option LocalTokenBucket} (h : BelowIfThere o o')
    (hok : ((localCheck l now key rate burst reason).take o).1 = true ∨ o = o') :
    ((localCheck l now key rate burst reason).take o').1 =
        ((localCheck l now key rate burst reason).take o).1 ∧
      BelowIfThere (some ((localCheck l now key rate burst reason).take o).2)
        (some ((localCheck l now key rate burst reason).take o').2) := by
  rcases h with rfl | ⟨b, b', rfl, rfl, hbelow⟩
  · exact ⟨rfl, .inl rfl⟩
  rcases hok with hok | heq
  · simp only [localCheck, Option.filter, hbelow.created] at hok ⊢
    by_cases hfresh : now - b'.created < l.cleanupTtl
    · simp only [hfresh, decide_true, if_true, Option.getD_some] at hok ⊢
      obtain ⟨hok', hnext⟩ := hbelow.consume hok
      exact ⟨hok'.trans hok.symm, .inr ⟨_, _, rfl, rfl, hnext⟩⟩
    · simp only [hfresh, decide_false, Bool.false_eq_true, if_false]
      exact ⟨trivial, .inl rfl⟩
  · cases heq
    exact ⟨rfl, .inl rfl⟩

/-- The bucket that the request found in the table, which it does not make anew. -/
def FoundFresh (l : LocalRateLimiter) (r : Request) (_ : Check String LocalTokenBucket String)
    (stored : Option LocalTokenBucket) : Prop :=
  ∃ b, stored = some b ∧ r.moment.monotonic - b.created < l.cleanupTtl

theorem localCheck_others {o o' : Option LocalTokenBucket} {b : LocalTokenBucket} (hb : o = some b)
    (hfresh : now - b.created < l.cleanupTtl) (h : BelowIfThere o o') :
    BelowIfThere (some ((localCheck l now key rate burst reason).take o).2) o' := by
  subst hb
  have htake : ((localCheck l now key rate burst reason).take (some b)).2 = (b.consume now).2 := by
    simp [localCheck, Option.filter, hfresh]
  rw [htake]
  rcases h with rfl | ⟨_, b', hb, rfl, hbelow⟩
  · exact .inr ⟨_, b, rfl, rfl, (Below.refl b).consume_left now⟩
  · cases hb
    exact .inr ⟨_, b', rfl, rfl, hbelow.consume_left now⟩

/-- The keys of the buckets that the tenant's requests of the run take from. -/
def NamedBy {β : Type*} (checks : Request → List (Check String β String)) (a : String)
    (requests : List Request) (key : String) : Prop :=
  ∃ r ∈ requests, ofTenant a r = true ∧ ∃ c ∈ checks r, c.key = key

/-- Of the buckets that the tenant's requests take from, the others make none, and none that
denies the tenant have they used before. -/
def UndisturbedInProcess (a : String) (l : LocalRateLimiter) (requests : List Request) : Prop :=
  EachCall (watched (localChecks l) (fun _ => ()) (ofTenant a))
    (Undisturbing (localChecks l) (fun _ => ()) (ofTenant a)
      (NamedBy (localChecks l) a requests) (FoundFresh l)) ⟨l.buckets, [], ()⟩ requests

theorem inProcess_unaffected {a : String} {requests : List Request}
    (hrun : UndisturbedInProcess a l requests) : Unaffected inProcess a l requests := by
  refine unaffected_of_walks (fun s => ({ l with buckets := s } : LocalRateLimiter))
    (fun r s => inProcess_eq r s) ?_
  refine answers_request (R := fun _ _ => BelowIfThere) (fun _ _ _ _ _ _ h => h) ?_ ?_
    (fun _ _ => .inl rfl) hrun
  · intro r hr ho c hc
    refine ⟨⟨r, hr, ho, c, hc, rfl⟩, fun o o' h hok => ?_⟩
    obtain ⟨key, rate, burst, reason, rfl⟩ := mem_localChecks hc
    exact localCheck_own h hok
  · rintro r - c hc o o' ⟨b, hb, hfresh⟩ h
    obtain ⟨key, rate, burst, reason, rfl⟩ := mem_localChecks hc
    exact localCheck_others hb hfresh h

/-! ## The limiter in Redis -/

/-- The rate and the burst with which the buckets of a key are taken from. -/
def limitsAt (rl : RateLimiter) (key : String) : ℚ × ℤ :=
  if key = "rl:global:global" then (rl.globalRate, rl.globalBurst)
  else if key = "rl:tenant:tenant" then (rl.tenantRate, rl.tenantBurst)
  else if key = "rl:user:user" then (rl.userRate, rl.userBurst)
  else (10, 20)

def level (limits : ℚ × ℤ) (b : RedisBucket) (now : ℚ) : ℚ :=
  min (limits.2 : ℚ) (b.tokens + (now - b.ts) * limits.1)

/-- What `o'` has left to live at `clock` it has in `o` too, with no more tokens at any time. -/
def Behind (limits : ℚ × ℤ) (clock : ℚ) (o o' : Option RedisBucket) : Prop :=
  ∀ b', o' = some b' → b'.expires ≤ clock + 3600 ∧ (clock < b'.expires →
    ∃ b, o = some b ∧ b'.expires ≤ b.expires ∧ ∀ now, level limits b now ≤ level limits b' now)

theorem Behind.mono {limits : ℚ × ℤ} {clock clock' : ℚ} {o o' : Option RedisBucket}
    (h : Behind limits clock o o') (hle : clock ≤ clock') : Behind limits clock' o o' := by
  intro b' hb'
  obtain ⟨hexpires, hlive⟩ := h b' hb'
  exact ⟨by linarith, fun hlt => hlive (hle.trans_lt hlt)⟩

theorem behind_self {limits : ℚ × ℤ} {clock : ℚ} {o : Option RedisBucket}
    (h : ∀ b, o = some b → b.expires ≤ clock + 3600) : Behind limits clock o o :=
  fun b hb => ⟨h b hb, fun _ => ⟨b, hb, le_rfl, fun _ => le_rfl⟩⟩

theorem behind_of_tokens_le {limits : ℚ × ℤ} {clock ts : ℚ} {kept kept' : ℚ} (h : kept ≤ kept') :
    Behind limits clock (some ⟨kept, ts, clock + 3600⟩) (some ⟨kept', ts, clock + 3600⟩) := by
  rintro _ ⟨⟩
  refine ⟨le_rfl, fun _ => ⟨_, rfl, le_rfl, fun now => ?_⟩⟩
  exact min_le_min le_rfl (add_le_add_left h _)

section Take

variable {kind : String} {m : Moment} {b : RedisBucket} {o o' : Option RedisBucket}

theorem sharedCheck_take_none (h : o.filter (fun b => m.redis < b.expires) = none) :
    (sharedCheck kind rate burst m reason).take o =
      (true, ⟨burst - 1, m.time, m.redis + 3600⟩) := by
  simp only [sharedCheck, h]
  rfl

theorem sharedCheck_take_some (h : o.filter (fun b => m.redis < b.expires) = some b) :
    (sharedCheck kind rate burst m reason).take o =
      (decide (1 ≤ level (rate, burst) b m.time),
        ⟨level (rate, burst) b m.time - if 1 ≤ level (rate, burst) b m.time then 1 else 0,
          m.time, m.redis + 3600⟩) := by
  simp only [sharedCheck, h, RedisTokenBucket.take, consumeScript, Option.map_some, level,
    ge_iff_le]
  split <;> simp [*]

theorem live_of_behind {limits : ℚ × ℤ} {b' : RedisBucket} (h : Behind limits m.redis o o')
    (hlive : o'.filter (fun b => m.redis < b.expires) = some b') :
    ∃ b, o.filter (fun b => m.redis < b.expires) = some b ∧
      ∀ now, level limits b now ≤ level limits b' now := by
  obtain ⟨ho', hlt⟩ := Option.filter_eq_some_iff.mp hlive
  have hlt' : m.redis < b'.expires := of_decide_eq_true hlt
  obtain ⟨b, ho, hle, hlevel⟩ := (h b' ho').2 hlt'
  exact ⟨b, Option.filter_eq_some_iff.mpr ⟨ho, decide_eq_true (hlt'.trans_le hle)⟩, hlevel⟩

theorem sharedCheck_own (h : Behind (rate, burst) m.redis o o')
    (hok : ((sharedCheck kind rate burst m reason).take o).1 = true ∨ o = o') :
    ((sharedCheck kind rate burst m reason).take o').1 =
        ((sharedCheck kind rate burst m reason).take o).1 ∧
      Behind (rate, burst) m.redis (some ((sharedCheck kind rate burst m reason).take o).2)
        (some ((sharedCheck kind rate burst m reason).take o').2) := by
  rcases hok with hok | rfl
  · cases hlive' : o'.filter (fun b => m.redis < b.expires) with
    | none =>
      -- an expired bucket is a full one
      cases hlive : o.filter (fun b => m.redis < b.expires) with
      | none =>
        rw [sharedCheck_take_none hlive, sharedCheck_take_none hlive']
        exact ⟨rfl, behind_of_tokens_le le_rfl⟩
      | some b =>
        rw [sharedCheck_take_some hlive] at hok ⊢
        rw [sharedCheck_take_none hlive']
        have hone := of_decide_eq_true hok
        refine ⟨hok.symm, behind_of_tokens_le ?_⟩
        rw [if_pos hone]
        exact sub_le_sub_right (min_le_left _ _) 1
    | some b' =>
      obtain ⟨b, hlive, hlevel⟩ := live_of_behind h hlive'
      rw [sharedCheck_take_some hlive] at hok ⊢
      rw [sharedCheck_take_some hlive']
      have hone := of_decide_eq_true hok
      have hone' := hone.trans (hlevel m.time)
      refine ⟨(decide_eq_true hone').trans hok.symm, behind_of_tokens_le ?_⟩
      rw [if_pos hone, if_pos hone']
      exact sub_le_sub_right (hlevel m.time) 1
  · refine ⟨rfl, behind_self ?_⟩
    rintro _ ⟨⟩
    exact le_rfl

theorem sharedCheck_others (h : Behind (rate, burst) m.redis o o') :
    Behind (rate, burst) m.redis (some ((sharedCheck kind rate burst m reason).take o).2) o' := by
  intro b' ho'
  obtain ⟨hexpires, hthere⟩ := h b' ho'
  refine ⟨hexpires, fun hlt => ?_⟩
  have hlive' : o'.filter (fun b => m.redis < b.expires) = some b' :=
    Option.filter_eq_some_iff.mpr ⟨ho', decide_eq_true hlt⟩
  obtain ⟨b, hlive, hlevel⟩ := live_of_behind h hlive'
  rw [sharedCheck_take_some hlive]
  refine ⟨_, rfl, hexpires, fun now => ?_⟩
  have hkept : level (rate, burst) b m.time - (if 1 ≤ level (rate, burst) b m.time then 1 else 0) ≤
      level (rate, burst) b m.time := by
    split <;> simp
  have hlater := refill_le (y := (now - m.time) * rate) hkept
  rw [← add_mul, sub_add_sub_cancel'] at hlater
  exact hlater.trans (hlevel now)

end Take

theorem mem_sharedChecks {rl : RateLimiter} {c : Check String RedisBucket String} {r : Request}
    (h : c ∈ sharedChecks rl r) : ∃ kind rate burst reason,
      c = sharedCheck kind rate burst r.moment reason ∧ limitsAt rl c.key = (rate, burst) := by
  rcases mem_fourChecks h with rfl | rfl | rfl | rfl <;> exact ⟨_, _, _, _, rfl, rfl⟩

/-- No bucket has longer to live than the hour it was given by `clock`. -/
def GivenHour (r : Redis) (clock : ℚ) : Prop := ∀ key b, r key = some b → b.expires ≤ clock + 3600

/-- Redis runs the requests in the order of its clock, and none of the buckets that deny the
tenant have the others used before. -/
def UndisturbedShared (rl : RateLimiter) (a : String) (w : Limiters) (clock : ℚ)
    (requests : List Request) : Prop :=
  EachCall (watched (sharedChecks rl) (·.moment.redis) (ofTenant a))
    (Undisturbing (sharedChecks rl) (·.moment.redis) (ofTenant a)
      (NamedBy (sharedChecks rl) a requests) (fun _ _ _ => True)) ⟨w.redis, [], clock⟩ requests

theorem shared_unaffected {rl : RateLimiter} {w : Limiters} {clock : ℚ} {a : String}
    {requests : List Request} (hw : GivenHour w.redis clock)
    (hrun : UndisturbedShared rl a w clock requests) : Unaffected (shared rl) a w requests := by
  refine unaffected_of_walks (fun s => ({ w with redis := s } : Limiters))
    (fun r s => shared_eq rl w r s) ?_
  refine answers_request (R := fun t key => Behind (limitsAt rl key) t)
    (fun _ _ _ _ _ hle h => h.mono hle) ?_ ?_ (fun key _ => behind_self (hw key)) hrun
  · intro r hr ho c hc
    refine ⟨⟨r, hr, ho, c, hc, rfl⟩, fun o o' h hok => ?_⟩
    obtain ⟨kind, rate, burst, reason, rfl, hlimits⟩ := mem_sharedChecks hc
    rw [hlimits] at h ⊢
    exact sharedCheck_own h hok
  · intro r _ c hc o o' _ h
    obtain ⟨kind, rate, burst, reason, rfl, hlimits⟩ := mem_sharedChecks hc
    rw [hlimits] at h ⊢
    exact sharedCheck_others h

theorem unaffected_of_undisturbed (a : String) :
    (∀ l requests, UndisturbedInProcess a l requests → Unaffected inProcess a l requests) ∧
    (∀ rl w clock requests, GivenHour w.redis clock → UndisturbedShared rl a w clock requests →
      Unaffected (shared rl) a w requests) :=
  ⟨fun _ _ => inProcess_unaffected, fun _ _ _ _ => shared_unaffected⟩

def requestAt (now : ℚ) (companyId userId : String) : Request :=
  ⟨userId, companyId, "", ⟨now, now, now⟩⟩

/-- The limiter after the three requests that user `b` has at once. -/
def drainedUser : LocalRateLimiter := after inProcess {} (List.replicate 3 (requestAt 0 "B" "b"))

/-- A request denied to user `b` leaves tokens enough for tenant `A`. -/
theorem unaffected_of_undisturbed_once :
    Unaffected inProcess "A" drainedUser [requestAt 0 "B" "b", requestAt 0 "A" "a"] := by
  refine (unaffected_of_undisturbed "A").1 _ _ ⟨⟨le_rfl, ?_, ?_⟩, ⟨le_rfl, ?_, ?_⟩, trivial⟩
  · intro h
    exact absurd h (by decide)
  · intro _ x hx _
    have hall : ((made (localChecks drainedUser (requestAt 0 "B" "b"))
        drainedUser.buckets).all fun x => x.2.any fun b =>
          (requestAt 0 "B" "b").moment.monotonic - b.created < drainedUser.cleanupTtl) = true := by
      decide +kernel
    obtain ⟨b, hb, hfresh⟩ := (Option.any_eq_true _ _).mp (List.all_eq_true.mp hall x hx)
    exact ⟨b, hb, of_decide_eq_true hfresh⟩
  · intro _ k reason hdenied
    exact absurd (hdenied.symm.trans (by decide +kernel)) (Option.some_ne_none _)
  · intro h
    exact absurd h (by decide)

/-- Seven requests denied to user `b` take the seven tokens that are left to all tenants; and one
denied to user `b` makes the global bucket anew, which is then full again a second too early. -/
theorem not_unaffected_deniedUser :
    (¬ ∀ earlier requests, OthersDenied inProcess "A" (after inProcess {} earlier) requests →
      Unaffected inProcess "A" (after inProcess {} earlier) requests) ∧
    ∃ earlier later, OthersDenied inProcess "A" (after inProcess {} earlier)
        (requestAt 30 "B" "b" :: later) ∧
      (∀ r ∈ later, r.companyId = "A") ∧
      ¬ Unaffected inProcess "A" (after inProcess {} earlier) (requestAt 30 "B" "b" :: later) := by
  refine ⟨fun h => ?_, requestAt 0 "C" "c" :: List.replicate 3 (requestAt (59 / 2) "B" "b"),
    (List.range 10).map (fun n => requestAt 59 "A" (toString n)) ++
      (List.range 6).map (fun n => requestAt 60 "A" (toString (n + 10))), ?_⟩
  · have hrun := h (List.replicate 3 (requestAt 0 "B" "b"))
      (List.replicate 7 (requestAt 0 "B" "b") ++ [requestAt 0 "A" "a"])
    unfold OthersDenied Unaffected at hrun
    revert hrun
    decide +kernel
  · unfold OthersDenied Unaffected
    decide +kernel

end WorkTicket.Ai.DeniedRequests
