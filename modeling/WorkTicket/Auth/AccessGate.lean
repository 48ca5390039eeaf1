import WorkTicket.Auth.Owners
import WorkTicket.Foundation.TimedCopies

/-! Who gets in: `get_current_user` checks a token under a key of the issuer, which it keeps in the
process for an hour and in Redis for another, and then looks at the user's row. Any number of
requests run side by side in several processes, between them users are deactivated or erased. -/

namespace WorkTicket.Auth.AccessGate

open Transition TimedCopies
open WorkTicket.Auth.Owners (User RowUpdate)

structure Payload where
  sub : Option String
  kid : Option String
  tokenVersion : Option ℤ
  deriving DecidableEq

inductive JwtError
  | expiredSignature
  | immatureSignature
  | invalidToken
  | other
  deriving DecidableEq

/-- What is used of PyJWT: `jwt.decode` without and with the signature (of the issuer and the
audience, at a time), and `RSAAlgorithm.from_jwk`. -/
structure Jwt (Token Jwk Key : Type) where
  unverified : Token → Except JwtError Payload
  decode : String → String → ℚ → Key → Token → Except JwtError Payload
  fromJwk : Jwk → Option Key

structure Settings where
  clerkJwtIssuer : String
  clerkJwtAudience : String

structure ClerkIdentity where
  userId : String
  tokenVersion : ℤ
  deriving DecidableEq

inductive Failure
  | http (statusCode : ℕ) (detail : String)
  | unhandled
  deriving DecidableEq

def unauthorized (detail : String) : Failure := .http 401 detail

def JwtError.failure : JwtError → Failure
  | .expiredSignature => unauthorized "Token expired"
  | .immatureSignature => unauthorized "Token not yet valid"
  | .invalidToken => unauthorized "Invalid token"
  | .other => .unhandled

/-- The key that a token was found valid under, and when. -/
structure Verified (Jwk Key : Type) where
  kid : String
  data : Jwk
  key : Key
  payload : Payload
  time : ℚ
  deriving DecidableEq

/-- Where a request waits: for the key in Redis, for its removal there, before it looks at the keys
of its process, for the issuer's keys, for its key to be written to Redis, for the blacklist, and
for the user's row. How the token was verified is only recorded. -/
inductive Stage (Jwk Key : Type)
  | received
  | discarding (kid : String)
  | missed
  | fetching (kid : String)
  | caching (kid : String) (data : Jwk) (key : Key) (readAt : ℚ)
  | checking (v : Verified Jwk Key) (identity : ClerkIdentity)
  | selecting (v : Verified Jwk Key) (identity : ClerkIdentity)
  | admitted (v : Verified Jwk Key) (user : User)
  | refused (e : Failure)
  deriving DecidableEq

/-- A list of the issuer's keys, and when it came. -/
structure Fetch (Jwk : Type) where
  time : ℚ
  keys : List (String × Jwk)

/-- `fetches` only records what has happened. -/
structure World (ι ω Jwk Key : Type) where
  now : ℚ
  cachedSigningKeys : ω → List (String × Jwk)
  lastJwksFetch : ω → ℚ
  redisKeys : Shelf String Jwk
  blacklist : Shelf String Unit
  users : List User
  stage : ι → Stage Jwk Key
  fetches : List (Fetch Jwk)

/-- How a use of Redis goes: there is no client, asking for it raises, or the command does. -/
inductive Redis
  | unavailable
  | connectFails
  | commandFails
  | answers
  deriving DecidableEq

/-- What a request meets when it goes on. -/
inductive Outcome (Jwk : Type)
  | process
  | redis (r : Redis)
  | issuer (keys : Option (List (String × Jwk)))
  | database (reached : Bool)

inductive Event (ι Jwk : Type)
  | proceed (i : ι) (o : Outcome Jwk)
  | pass (seconds : ℚ≥0)
  | evict (kid : String)
  | takeOut (w : RowUpdate) (blacklistedFor : Option ℚ)
  | register (user : User)
  | deleteTenant (companyId : ℕ)

def JWKS_CACHE_TTL : ℚ := 3600
def REDIS_JWKS_TTL : ℚ := 3600

section
variable {ι ω Token Jwk Key : Type}

/-- `{k["kid"]: k for k in keys}` at `kid`: of two keys with one id the last counts. -/
def keyOf (keys : List (String × Jwk)) (kid : String) : Option Jwk :=
  (keys.reverse.find? (·.1 = kid)).map (·.2)

/-- The key id of a payload that is not empty. -/
def Payload.kid? (p : Payload) : Option String := p.kid.filter (· ≠ "")

def rstrip (text : String) : String := String.ofList (text.toList.rdropWhile (· = '/'))

def blacklistKey (identity : ClerkIdentity) : String :=
  "session_blacklist:" ++ identity.userId ++ ":" ++ toString identity.tokenVersion

def getCurrentUser (identity : ClerkIdentity) : Option User → Except Failure User
  | none => .error (unauthorized "User not found")
  | some user =>
    if !user.isActive then
      .error (unauthorized "Account has been deactivated. Please contact your administrator.")
    else if identity.tokenVersion < user.tokenVersion then
      .error (unauthorized "Token has been revoked. Please sign in again.")
    else .ok user

section
variable (settings : Settings) (jwt : Jwt Token Jwk Key) (token : Token) (s : World ι ω Jwk Key)

/-- The token is checked under the key, and whose it is read from it. -/
def verifyUnder (kid : String) (data : Jwk) (key : Key) : Stage Jwk Key :=
  match jwt.decode (rstrip settings.clerkJwtIssuer) settings.clerkJwtAudience s.now key token with
  | .error e => .refused e.failure
  | .ok payload =>
    match payload.sub.filter (· ≠ "") with
    | none => .refused (unauthorized "Invalid token payload")
    | some userId =>
      .checking ⟨kid, data, key, payload, s.now⟩ ⟨userId, payload.tokenVersion.getD 0⟩

def getSigningKeyFromRedis (r : Redis) : Stage Jwk Key :=
  if settings.clerkJwtIssuer = "" then .refused (unauthorized "JWT verification not configured")
  else
    match jwt.unverified token with
    | .error e => .refused e.failure
    | .ok payload =>
      match payload.kid?, r with
      | none, _ => .missed
      | some _, .unavailable => .missed
      | some kid, .connectFails | some kid, .commandFails => .discarding kid
      | some kid, .answers =>
        match s.redisKeys.get kid s.now with
        | none => .missed
        | some data =>
          match jwt.fromJwk data with
          | none => .discarding kid
          | some key => verifyUnder settings jwt token s kid data key

/-- A key of the process is used, and then written to Redis. -/
def useCached (p : ω) (kid : String) : Stage Jwk Key :=
  match keyOf (s.cachedSigningKeys p) kid with
  | none => .refused (unauthorized "Invalid token")
  | some data =>
    match jwt.fromJwk data with
    | none => .refused .unhandled
    | some key => .caching kid data key s.now

def getSigningKeyFromJwt (p : ω) : Stage Jwk Key :=
  match jwt.unverified token with
  | .error e => .refused e.failure
  | .ok payload =>
    match payload.kid? with
    | none => .refused (unauthorized "Invalid token")
    | some kid =>
      if s.cachedSigningKeys p = [] ∨ s.now - s.lastJwksFetch p > JWKS_CACHE_TTL then .fetching kid
      else useCached jwt s p kid

def checkBlacklist (v : Verified Jwk Key) (identity : ClerkIdentity) : Redis → Stage Jwk Key
  | .unavailable | .commandFails =>
    .refused (unauthorized "Unable to verify session. Please try again.")
  | .connectFails => .refused .unhandled
  | .answers =>
    match s.blacklist.get (blacklistKey identity) s.now with
    | some _ => .refused (unauthorized "Token has been revoked. Please sign in again.")
    | none => .selecting v identity

/-- The user's row is read, unless the database cannot be reached. -/
def selectUser (v : Verified Jwk Key) (identity : ClerkIdentity) (reached : Bool) :
    Stage Jwk Key :=
  if reached then
    match getCurrentUser identity (s.users.find? (·.id = identity.userId)) with
    | .ok user => .admitted v user
    | .error e => .refused e
  else .refused .unhandled

end

section
variable [DecidableEq ι] [DecidableEq ω] (settings : Settings) (jwt : Jwt Token Jwk Key)
  (token : ι → Token) (process : ι → ω) (s : World ι ω Jwk Key)

def World.set (i : ι) (p : Stage Jwk Key) : World ι ω Jwk Key :=
  { s with stage := Function.update s.stage i p }

def World.fetchJwks (p : ω) : Option (List (String × Jwk)) → World ι ω Jwk Key
  | none => s
  | some keys => { s with
      cachedSigningKeys := Function.update s.cachedSigningKeys p keys
      lastJwksFetch := Function.update s.lastJwksFetch p s.now
      fetches := s.fetches ++ [⟨s.now, keys⟩] }

def World.dropKey (kid : String) : World ι ω Jwk Key :=
  { s with redisKeys := s.redisKeys.drop kid }

def World.cacheKey (kid : String) (data : Jwk) (r : Redis) : World ι ω Jwk Key :=
  { s with
    redisKeys := if r = .answers then s.redisKeys.put kid data s.now REDIS_JWKS_TTL
      else s.redisKeys }

/-- A user is deactivated or erased, and the new version blacklisted if Redis can be reached. -/
def World.takeOut (w : RowUpdate) (blacklistedFor : Option ℚ) : World ι ω Jwk Key :=
  { s with
    users := s.users.map w.apply
    blacklist := match blacklistedFor with
      | none => s.blacklist
      | some life => s.blacklist.put (blacklistKey ⟨w.id, w.tokenVersion⟩) () s.now life }

/-- What a request does next, and what the others find changed then. -/
def turn (i : ι) : Stage Jwk Key → Outcome Jwk → Option (Stage Jwk Key × World ι ω Jwk Key)
  | .received, .redis r => some (getSigningKeyFromRedis settings jwt (token i) s r, s)
  | .discarding kid, .redis r => some (.missed, if r = .answers then s.dropKey kid else s)
  | .missed, .process => some (getSigningKeyFromJwt jwt (token i) s (process i), s)
  | .fetching kid, .issuer keys =>
    some (useCached jwt (s.fetchJwks (process i) keys) (process i) kid,
      s.fetchJwks (process i) keys)
  | .caching kid data key _, .redis r =>
    some (verifyUnder settings jwt (token i) s kid data key, s.cacheKey kid data r)
  | .checking v identity, .redis r => some (checkBlacklist s v identity r, s)
  | .selecting v identity, .database reached => some (selectUser s v identity reached, s)
  | _, _ => none

def step : Event ι Jwk → Option (World ι ω Jwk Key)
  | .proceed i o => (turn settings jwt token process s i (s.stage i) o).map fun (p, s') => s'.set i p
  | .pass seconds => some { s with now := s.now + seconds }
  | .evict kid => some (s.dropKey kid)
  | .takeOut w blacklistedFor => some (s.takeOut w blacklistedFor)
  | .register user =>
    if s.users.any (·.id = user.id) then none
    else some { s with
      users := { user with role := "owner", isActive := true, isDeleted := false } :: s.users }
  | .deleteTenant companyId =>
    some { s with users := s.users.filter (·.companyId ≠ companyId) }

end

/-- At the start nothing has been fetched. -/
def World.start (now : ℚ) (users : List User) : World ι ω Jwk Key where
  now := now
  cachedSigningKeys := fun _ => []
  lastJwksFetch := fun _ => 0
  redisKeys := Shelf.empty
  blacklist := Shelf.empty
  users := users
  stage := fun _ => .received
  fetches := []

/-- The issuer had the key under the id. -/
def World.served (s : World ι ω Jwk Key) (t : ℚ) (kid : String) (data : Jwk) : Prop :=
  ∃ f ∈ s.fetches, f.time = t ∧ keyOf f.keys kid = some data

/-- The issuer answers, and a key that is used reaches Redis within the delay. -/
def prompt (delay : ℚ) (s : World ι ω Jwk Key) : Event ι Jwk → Bool
  | .proceed i o =>
    match s.stage i, o with
    | .fetching _, .issuer keys => keys.isSome
    | .caching _ _ _ readAt, .redis _ => s.now ≤ readAt + delay
    | _, _ => true
  | _ => true

/-- The user's row is not deleted, after which the user may register again. -/
def spares (user : User) : Event ι Jwk → Bool
  | .deleteTenant companyId => user.companyId ≠ companyId
  | _ => true

end

section
variable {ι ω Token Jwk Key : Type} {settings : Settings} {jwt : Jwt Token Jwk Key}
  {token : ι → Token} {process : ι → ω} {delay : ℚ} {s s' : World ι ω Jwk Key} {i : ι}
  {kid : String} {data : Jwk} {key : Key} {v : Verified Jwk Key} {identity : ClerkIdentity}
  {user : User}

/-! ## The key of an admitted token -/

/-- The row let the identity in. -/
def Admits (user : User) (identity : ClerkIdentity) : Prop :=
  user.id = identity.userId ∧ user.isActive = true ∧ user.tokenVersion ≤ identity.tokenVersion

/-- The token was found valid under a key that the issuer had not long before. -/
structure Sound (settings : Settings) (jwt : Jwt Token Jwk Key) (token : Token) (delay : ℚ)
    (served : ℚ → String → Jwk → Prop) (v : Verified Jwk Key) (identity : ClerkIdentity) :
    Prop where
  aged : Aged (fun t kid data => t ≤ v.time ∧ served t kid data)
    (JWKS_CACHE_TTL + REDIS_JWKS_TTL + delay) v.kid v.data v.time
  fromJwk : jwt.fromJwk v.data = some v.key
  decode : jwt.decode (rstrip settings.clerkJwtIssuer) settings.clerkJwtAudience v.time v.key
    token = .ok v.payload
  sub : v.payload.sub = some identity.userId
  tokenVersion : v.payload.tokenVersion.getD 0 = identity.tokenVersion

variable (settings jwt delay) in
def StageWell (served : ℚ → String → Jwk → Prop) (token : Token) : Stage Jwk Key → Prop
  | .caching kid data key readAt =>
    Aged served JWKS_CACHE_TTL kid data readAt ∧ jwt.fromJwk data = some key
  | .checking v identity | .selecting v identity =>
    Sound settings jwt token delay served v identity
  | .admitted v user =>
    ∃ identity, Sound settings jwt token delay served v identity ∧ Admits user identity
  | _ => True

variable (settings jwt token delay s) in
structure Inv : Prop where
  past : ∀ t kid data, s.served t kid data → t ≤ s.now
  redisKeys : Within s.served (JWKS_CACHE_TTL + REDIS_JWKS_TTL + delay) s.redisKeys
  cached : ∀ p kid data, keyOf (s.cachedSigningKeys p) kid = some data →
    s.served (s.lastJwksFetch p) kid data
  stage : ∀ i, StageWell settings jwt delay s.served (token i) (s.stage i)

theorem Sound.mono {served served' : ℚ → String → Jwk → Prop} {t : Token}
    (h : Sound settings jwt t delay served v identity)
    (hserved : ∀ t kid data, served t kid data → served' t kid data) :
    Sound settings jwt t delay served' v identity :=
  { h with aged := h.aged.mono fun t ht => ⟨ht.1, hserved t _ _ ht.2⟩ }

/-- What is known of a request stays known when more is fetched. -/
theorem StageWell.mono {served served' : ℚ → String → Jwk → Prop} {t : Token} {p : Stage Jwk Key}
    (h : StageWell settings jwt delay served t p)
    (hserved : ∀ t kid data, served t kid data → served' t kid data) :
    StageWell settings jwt delay served' t p := by
  cases p with
  | caching kid data key readAt => exact ⟨h.1.mono fun t => hserved t kid data, h.2⟩
  | checking v identity => exact Sound.mono h hserved
  | selecting v identity => exact Sound.mono h hserved
  | admitted v user =>
    obtain ⟨identity, hsound, hadmits⟩ := h
    exact ⟨identity, hsound.mono hserved, hadmits⟩
  | received | discarding | missed | fetching | refused => trivial

theorem inv_start (now : ℚ) (users : List User) :
    Inv settings jwt token delay (World.start now users : World ι ω Jwk Key) where
  past := by
    rintro t kid data ⟨f, hf, -⟩
    cases hf
  redisKeys := within_empty
  cached p kid data h := by cases h
  stage _ := trivial

theorem Inv.set [DecidableEq ι] (h : Inv settings jwt token delay s) {p : Stage Jwk Key}
    (hp : StageWell settings jwt delay s.served (token i) p) :
    Inv settings jwt token delay (s.set i p) where
  past := h.past
  redisKeys := h.redisKeys
  cached := h.cached
  stage := (Function.forall_update_iff _ _).mpr ⟨hp, fun j _ => h.stage j⟩

/-- A copy of Redis may be gone. -/
theorem Inv.dropKey (h : Inv settings jwt token delay s) (kid : String) :
    Inv settings jwt token delay (s.dropKey kid) :=
  { h with redisKeys := h.redisKeys.drop }

/-- The copy in Redis lives an hour from now on, and the key had an hour in the process. -/
theorem Inv.cacheKey (h : Inv settings jwt token delay s) {readAt : ℚ} (r : Redis)
    (haged : Aged s.served JWKS_CACHE_TTL kid data readAt) (hprompt : s.now ≤ readAt + delay) :
    Inv settings jwt token delay (s.cacheKey kid data r) := by
  refine ⟨h.past, ?_, h.cached, h.stage⟩
  simp only [World.cacheKey]
  split_ifs
  · exact h.redisKeys.put (haged.later (by linarith))
  · exact h.redisKeys

/-- The keys that were fetched are those of the process from now on. -/
theorem Inv.fetchJwks [DecidableEq ω] (h : Inv settings jwt token delay s) (p : ω)
    (keys : List (String × Jwk)) : Inv settings jwt token delay (s.fetchJwks p (some keys)) := by
  have hmono : ∀ t kid data, s.served t kid data →
      (s.fetchJwks p (some keys)).served t kid data := by
    rintro t kid data ⟨f, hf, hserved⟩
    exact ⟨f, List.mem_append_left _ hf, hserved⟩
  refine ⟨?_, h.redisKeys.mono hmono, ?_, fun j => (h.stage j).mono hmono⟩
  · rintro t kid data ⟨f, hf, rfl, hkey⟩
    rcases List.mem_append.mp hf with hf | hf
    · exact h.past _ kid data ⟨f, hf, rfl, hkey⟩
    · obtain rfl := List.mem_singleton.mp hf
      exact le_rfl
  · intro q kid data hdata
    by_cases hq : q = p
    · subst hq
      simp only [World.fetchJwks, Function.update_self] at hdata ⊢
      exact ⟨_, List.mem_append_right _ (List.mem_singleton_self _), rfl, hdata⟩
    · simp only [World.fetchJwks, Function.update_of_ne hq] at hdata ⊢
      exact hmono _ _ _ (h.cached q kid data hdata)

/-- A token is verified under a key that is recent enough. -/
theorem Inv.verifyUnder (h : Inv settings jwt token delay s)
    (haged : Aged s.served (JWKS_CACHE_TTL + REDIS_JWKS_TTL + delay) kid data s.now)
    (hkey : jwt.fromJwk data = some key) :
    StageWell settings jwt delay s.served (token i)
      (verifyUnder settings jwt (token i) s kid data key) := by
  unfold AccessGate.verifyUnder
  split
  · trivial
  · rename_i payload hdecode
    split
    · trivial
    · rename_i userId hsub
      refine ⟨haged.mono fun t ht => ⟨h.past t kid data ht, ht⟩, hkey, hdecode, ?_, rfl⟩
      exact (Option.filter_eq_some_iff.mp hsub).1

theorem Inv.getSigningKeyFromRedis (h : Inv settings jwt token delay s) (r : Redis) :
    StageWell settings jwt delay s.served (token i)
      (getSigningKeyFromRedis settings jwt (token i) s r) := by
  unfold AccessGate.getSigningKeyFromRedis
  split_ifs
  · trivial
  · split
    · trivial
    · split
      · trivial
      · trivial
      · trivial
      · trivial
      · split
        · trivial
        · rename_i data hdata
          split
          · trivial
          · rename_i key hkey
            exact h.verifyUnder (h.redisKeys.aged hdata) hkey

/-- A key of the process that is not older than an hour. -/
theorem Inv.useCached (h : Inv settings jwt token delay s) {p : ω}
    (hage : s.now ≤ s.lastJwksFetch p + JWKS_CACHE_TTL) :
    StageWell settings jwt delay s.served (token i) (useCached jwt s p kid) := by
  unfold AccessGate.useCached
  split
  · trivial
  · rename_i data hdata
    split
    · trivial
    · rename_i key hkey
      exact ⟨⟨_, h.cached _ _ _ hdata, hage⟩, hkey⟩

theorem Inv.getSigningKeyFromJwt (h : Inv settings jwt token delay s) {p : ω} :
    StageWell settings jwt delay s.served (token i) (getSigningKeyFromJwt jwt (token i) s p) := by
  unfold AccessGate.getSigningKeyFromJwt
  split
  · trivial
  · split
    · trivial
    · split_ifs with hold
      · trivial
      · push Not at hold
        exact h.useCached (by linarith [hold.2])

theorem stageWell_checkBlacklist {served : ℚ → String → Jwk → Prop} {t : Token}
    (hsound : Sound settings jwt t delay served v identity) (r : Redis) :
    StageWell settings jwt delay served t (checkBlacklist s v identity r) := by
  unfold checkBlacklist
  split
  · trivial
  · trivial
  · trivial
  · split
    · trivial
    · exact hsound

/-- The row that lets a request in. -/
theorem selectUser_eq_admitted {reached : Bool} {v' : Verified Jwk Key}
    (h : selectUser s v identity reached = .admitted v' user) :
    v' = v ∧ user ∈ s.users ∧ Admits user identity := by
  unfold selectUser at h
  split_ifs at h
  split at h
  · rename_i row hrow
    cases h
    unfold getCurrentUser at hrow
    split at hrow
    · cases hrow
    · rename_i found hfound
      split_ifs at hrow with hactive hversion
      cases hrow
      have hid : user.id = identity.userId := by simpa using List.find?_some hfound
      exact ⟨rfl, List.mem_of_find?_eq_some hfound, hid, by simpa using hactive, not_lt.mp hversion⟩
  · cases h

theorem stageWell_selectUser {served : ℚ → String → Jwk → Prop} {t : Token}
    (hsound : Sound settings jwt t delay served v identity) (reached : Bool) :
    StageWell settings jwt delay served t (selectUser s v identity reached) := by
  cases hp : selectUser s v identity reached with
  | admitted v' user =>
    obtain ⟨rfl, -, hadmits⟩ := selectUser_eq_admitted hp
    exact ⟨identity, hsound, hadmits⟩
  | refused e => trivial
  | received | discarding | missed | fetching | caching | checking | selecting =>
    unfold selectUser at hp
    split_ifs at hp
    split at hp <;> cases hp

variable [DecidableEq ω]

theorem Inv.turn (h : Inv settings jwt token delay s) {o : Outcome Jwk} {p : Stage Jwk Key}
    (hok : prompt delay s (.proceed i o))
    (hs : turn settings jwt token process s i (s.stage i) o = some (p, s')) :
    Inv settings jwt token delay s' ∧ StageWell settings jwt delay s'.served (token i) p := by
  have hstage := h.stage i
  simp only [prompt] at hok
  generalize s.stage i = q at hs hstage hok
  unfold AccessGate.turn at hs
  split at hs
  · cases hs
    exact ⟨h, h.getSigningKeyFromRedis _⟩
  · cases hs
    refine ⟨?_, trivial⟩
    split_ifs
    · exact h.dropKey _
    · exact h
  · cases hs
    exact ⟨h, h.getSigningKeyFromJwt⟩
  · rename_i kid keys
    cases hs
    cases keys with
    | none => cases hok
    | some keys =>
      have hfetched := h.fetchJwks (process i) keys
      refine ⟨hfetched, hfetched.useCached ?_⟩
      simp only [World.fetchJwks, Function.update_self]
      exact le_add_of_nonneg_right (by decide)
  · rename_i kid data key readAt r
    cases hs
    obtain ⟨haged, hkey⟩ := hstage
    have hprompt : s.now ≤ readAt + delay := of_decide_eq_true hok
    refine ⟨h.cacheKey r haged hprompt, h.verifyUnder (haged.later ?_) hkey⟩
    have hlife : 0 ≤ REDIS_JWKS_TTL := by decide
    linarith
  · cases hs
    exact ⟨h, stageWell_checkBlacklist hstage _⟩
  · cases hs
    exact ⟨h, stageWell_selectUser hstage _⟩
  · cases hs

variable [DecidableEq ι]

theorem Inv.step {e : Event ι Jwk} (h : Inv settings jwt token delay s) (hok : prompt delay s e)
    (hs : step settings jwt token process s e = some s') : Inv settings jwt token delay s' := by
  cases e with
  | proceed i o =>
    obtain ⟨⟨p, t⟩, hturn, rfl⟩ := Option.map_eq_some_iff.mp hs
    obtain ⟨ht, hp⟩ := h.turn hok hturn
    exact ht.set hp
  | pass seconds =>
    cases hs
    refine { h with past := fun t kid data ht => (h.past t kid data ht).trans ?_ }
    exact le_add_of_nonneg_right seconds.2
  | evict kid =>
    cases hs
    exact h.dropKey kid
  | register user =>
    simp only [AccessGate.step] at hs
    split_ifs at hs
    cases hs
    exact { h with }
  | takeOut | deleteTenant =>
    cases hs
    exact { h with }

section
variable {v' : Verified Jwk Key}

omit [DecidableEq ι] [DecidableEq ω]

theorem verifyUnder_ne_admitted {t : Token} :
    verifyUnder settings jwt t s kid data key ≠ .admitted v user := by
  unfold verifyUnder
  split
  · rintro ⟨⟩
  · split <;> rintro ⟨⟩

theorem getSigningKeyFromRedis_ne_admitted {t : Token} {r : Redis} :
    getSigningKeyFromRedis settings jwt t s r ≠ .admitted v user := by
  unfold getSigningKeyFromRedis
  split_ifs
  · rintro ⟨⟩
  · split
    · rintro ⟨⟩
    · split
      · rintro ⟨⟩
      · rintro ⟨⟩
      · rintro ⟨⟩
      · rintro ⟨⟩
      · split
        · rintro ⟨⟩
        · split
          · rintro ⟨⟩
          · exact verifyUnder_ne_admitted

theorem useCached_ne_admitted {p : ω} : useCached jwt s p kid ≠ .admitted v user := by
  unfold useCached
  split
  · rintro ⟨⟩
  · split <;> rintro ⟨⟩

theorem getSigningKeyFromJwt_ne_admitted {t : Token} {p : ω} :
    getSigningKeyFromJwt jwt t s p ≠ .admitted v user := by
  unfold getSigningKeyFromJwt
  split
  · rintro ⟨⟩
  · split
    · rintro ⟨⟩
    · split_ifs
      · rintro ⟨⟩
      · exact useCached_ne_admitted

theorem checkBlacklist_ne_admitted {r : Redis} :
    checkBlacklist s v' identity r ≠ .admitted v user := by
  unfold checkBlacklist
  split
  · rintro ⟨⟩
  · rintro ⟨⟩
  · rintro ⟨⟩
  · split <;> rintro ⟨⟩

/-- A turn lets in whom an active row shows, and changes no row. -/
theorem admitted_of_turn [DecidableEq ω] {o : Outcome Jwk} {q p : Stage Jwk Key}
    (hs : turn settings jwt token process s i q o = some (p, s')) :
    s'.users = s.users ∧ s'.stage = s.stage ∧
      ∀ v u, p = .admitted v u → u ∈ s.users ∧ u.isActive = true := by
  unfold turn at hs
  split at hs
  · cases hs
    exact ⟨rfl, rfl, fun v u h => absurd h getSigningKeyFromRedis_ne_admitted⟩
  · cases hs
    refine ⟨?_, ?_, fun v u h => by cases h⟩
    · split_ifs <;> rfl
    · split_ifs <;> rfl
  · cases hs
    exact ⟨rfl, rfl, fun v u h => absurd h getSigningKeyFromJwt_ne_admitted⟩
  · rename_i kid keys
    cases hs
    refine ⟨?_, ?_, fun v u h => absurd h useCached_ne_admitted⟩
    · cases keys <;> rfl
    · cases keys <;> rfl
  · cases hs
    exact ⟨rfl, rfl, fun v u h => absurd h verifyUnder_ne_admitted⟩
  · cases hs
    exact ⟨rfl, rfl, fun v u h => absurd h checkBlacklist_ne_admitted⟩
  · cases hs
    refine ⟨rfl, rfl, fun v u h => ?_⟩
    obtain ⟨-, hmem, -, hactive, -⟩ := selectUser_eq_admitted h
    exact ⟨hmem, hactive⟩
  · cases hs

end

/-- The user's row stays, and inactive, and the request is not let in by it. -/
structure TakenOut (row : User) (i : ι) (s : World ι ω Jwk Key) : Prop where
  there : ∃ u ∈ s.users, u.id = row.id ∧ u.companyId = row.companyId
  inactive : ∀ u ∈ s.users, u.id = row.id → u.isActive = false
  kept : ∀ v u, s.stage i = .admitted v u → u.id ≠ row.id

omit [DecidableEq ι] [DecidableEq ω] in
/-- A row that is written is inactive then, and no row becomes active. -/
theorem takenOut_takeOut {row : User} {w : RowUpdate} {blacklistedFor : Option ℚ}
    (hthere : ∃ u ∈ s.users, u.id = row.id ∧ u.companyId = row.companyId)
    (hinactive : w.id = row.id ∨ ∀ u ∈ s.users, u.id = row.id → u.isActive = false)
    (hkept : ∀ v u, s.stage i = .admitted v u → u.id ≠ row.id) :
    TakenOut row i (s.takeOut w blacklistedFor) := by
  refine ⟨?_, ?_, hkept⟩
  · obtain ⟨u, hu, hid, hcompany⟩ := hthere
    obtain ⟨hid', -, hcompany'⟩ := w.apply_key u
    exact ⟨w.apply u, List.mem_map_of_mem hu, hid'.trans hid, hcompany'.trans hcompany⟩
  · rintro _ hmem hid
    obtain ⟨u, hu, rfl⟩ := List.mem_map.mp hmem
    rw [(w.apply_key u).1] at hid
    unfold RowUpdate.apply
    split_ifs with hw
    · rfl
    · refine (hinactive.resolve_left fun heq => hw ?_) u hu hid
      rw [hid, heq]

theorem TakenOut.step {row : User} {e : Event ι Jwk} (h : TakenOut row i s)
    (hok : spares row e) (hs : step settings jwt token process s e = some s') :
    TakenOut row i s' := by
  cases e with
  | proceed j o =>
    obtain ⟨⟨p, t⟩, hturn, rfl⟩ := Option.map_eq_some_iff.mp hs
    obtain ⟨husers, hstage, hadmitted⟩ := admitted_of_turn hturn
    refine ⟨husers ▸ h.there, husers ▸ h.inactive, ?_⟩
    intro v u hu
    by_cases hj : i = j
    · subst hj
      have hp : p = .admitted v u := by simpa only [World.set, Function.update_self] using hu
      obtain ⟨hmem, hactive⟩ := hadmitted v u hp
      intro hid
      exact absurd (hactive.symm.trans (h.inactive u hmem hid)) (by decide)
    · have hp : t.stage i = .admitted v u := by
        simpa only [World.set, Function.update_of_ne hj] using hu
      exact h.kept v u (hstage ▸ hp)
  | pass | evict =>
    cases hs
    exact ⟨h.there, h.inactive, h.kept⟩
  | takeOut w blacklistedFor =>
    cases hs
    exact takenOut_takeOut h.there (.inr h.inactive) h.kept
  | register user =>
    simp only [AccessGate.step] at hs
    split_ifs at hs with hfree
    cases hs
    obtain ⟨u, hu, hid, hcompany⟩ := h.there
    refine ⟨⟨u, List.mem_cons_of_mem _ hu, hid, hcompany⟩, ?_, h.kept⟩
    intro u' hu' hid'
    rcases List.mem_cons.mp hu' with rfl | hu'
    · -- the id is taken by the row that stays
      refine absurd (List.any_eq_true.mpr ⟨u, hu, ?_⟩) hfree
      exact decide_eq_true (hid.trans hid'.symm)
    · exact h.inactive u' hu' hid'
  | deleteTenant companyId =>
    cases hs
    obtain ⟨u, hu, hid, hcompany⟩ := h.there
    have hother : row.companyId ≠ companyId := by simpa [spares] using hok
    refine ⟨⟨u, List.mem_filter.mpr ⟨hu, ?_⟩, hid, hcompany⟩, ?_, h.kept⟩
    · rw [hcompany]
      exact decide_eq_true hother
    · exact fun u' hu' => h.inactive u' (List.mem_of_mem_filter hu')

/-- Who is deactivated or erased is not let in again, whatever token the request has and however
far it was, unless the row is deleted. -/
theorem never_admitted_again {row : User} {w : RowUpdate} {blacklistedFor : Option ℚ}
    (hrow : row ∈ s.users) (hw : w.id = row.id)
    (h : ReachedBy (step settings jwt token process) (fun _ e => spares row e)
      (s.takeOut w blacklistedFor) s')
    (hbefore : ∀ v u, s.stage i ≠ .admitted v u) (hi : s'.stage i = .admitted v user) :
    user.id ≠ row.id := by
  have hstart : TakenOut row i (s.takeOut w blacklistedFor) :=
    takenOut_takeOut ⟨row, hrow, rfl, rfl⟩ (.inl hw) fun v u hu => absurd hu (hbefore v u)
  have hend : TakenOut row i s' :=
    h.invariant hstart fun _ _ _ htaken hok hs => htaken.step hok hs
  exact hend.kept v user hi

end

/-! ## Three requests -/

/-- One process fetches the key, and an hour later has it written to Redis. Almost another hour later
another process takes it from there. -/
def lateRun : List (Event ℕ Unit) :=
  [.proceed 0 (.redis .answers), .proceed 0 .process, .proceed 0 (.issuer (some [("k", ())])),
    .proceed 0 (.redis .unavailable), .pass 3600,
    .proceed 1 (.redis .answers), .proceed 1 .process, .proceed 1 (.redis .answers), .pass 3599,
    .proceed 2 (.redis .answers), .proceed 2 (.redis .answers), .proceed 2 (.database true)]

def plainJwt : Jwt Unit Unit Unit where
  unverified _ := .ok ⟨some "u", some "k", some 2⟩
  decode _ _ _ _ _ := .ok ⟨some "u", some "k", some 2⟩
  fromJwk _ := some ()

def plainUser : User := ⟨"u", 1, "u@example.com", "U", "owner", true, false, 2⟩

def lateWorld : Option (World ℕ Bool Unit Unit) :=
  runWhile (step ⟨"https://issuer/", "app"⟩ plainJwt (fun _ => ()) fun i => decide (i = 2))
    (prompt 0 · ·) (World.start 0 [plainUser]) lateRun

def lateVerified : Verified Unit Unit :=
  ⟨"k", (), (), ⟨some "u", some "k", some 2⟩, 7199⟩

theorem lateWorld_isSome : lateWorld.isSome := by decide +kernel

/-- Another user is deactivated before the first request comes. -/
def goneUser : User := { plainUser with id := "v" }

def laterWorld : Option (World ℕ Bool Unit Unit) :=
  runWhile (step ⟨"https://issuer/", "app"⟩ plainJwt (fun _ => ()) fun i => decide (i = 2))
    (fun _ e => spares goneUser e)
    ((World.start 0 [goneUser, plainUser]).takeOut (Owners.deactivation goneUser) (some 86400))
    lateRun

theorem laterWorld_isSome : laterWorld.isSome := by decide +kernel

theorem never_admitted_again_later :
    (laterWorld.get laterWorld_isSome).stage 2 = .admitted lateVerified plainUser ∧
      plainUser.id ≠ goneUser.id := by
  have hrun := ReachedBy.of_runWhile (Option.some_get laterWorld_isSome).symm
  have hi : (laterWorld.get laterWorld_isSome).stage 2 = .admitted lateVerified plainUser := by
    decide +kernel
  refine ⟨hi, never_admitted_again List.mem_cons_self rfl hrun ?_ hi⟩
  rintro v u ⟨⟩

end WorkTicket.Auth.AccessGate
