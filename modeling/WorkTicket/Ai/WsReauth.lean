import WorkTicket.Foundation.TimedCopies
import WorkTicket.Foundation.Transition

/-! How a WebSocket connection finds out that its user has been taken out: a message that comes more
than a minute after the last check waits for another, which asks the cache of the process, then
Redis, then the database. -/

namespace WorkTicket.Ai.WsReauth

open Transition TimedCopies

/-- What the token says that a connection comes with. -/
structure Claims where
  userId : String
  tokenVersion : ℤ

/-- What is read of the user's row, and what the caches keep of it. -/
structure Row where
  isActive : Bool
  tokenVersion : ℕ
  deriving DecidableEq

/-- What the loop of a connection remembers. -/
structure Connection where
  authTokenVersion : ℕ
  lastAuthCheck : ℚ
  reauthInterval : ℚ
  deriving DecidableEq

/-- Where a connection is: its user was read, or it waits for a message, or the message that came at
`now` waits for the cache of the process, for Redis, for the database, or for what was read to be
kept in the cache and in Redis. -/
inductive Stage
  | connecting
  | accepting (row : Row) (readAt : ℚ)
  | waiting (c : Connection)
  | lookingUp (c : Connection) (now : ℚ)
  | askingRedis (c : Connection) (now : ℚ)
  | copying (c : Connection) (now : ℚ) (row : Row) (readAt : ℚ)
  | askingDatabase (c : Connection) (now : ℚ) (redis : Bool)
  | keeping (c : Connection) (now : ℚ) (row : Row) (readAt : ℚ) (redis : Bool)
  | sharing (c : Connection) (now : ℚ) (row : Row) (readAt : ℚ)
  | closed
  deriving DecidableEq

/-- `reads` and `answered` only record which rows were read and which messages were answered. -/
structure World (ι ω : Type) where
  now : ℚ
  rows : String → Option Row
  wsAuthCache : ω → Shelf String Row
  redisAuth : Shelf String Row
  stage : ι → Stage
  reads : List (ℚ × String × Row)
  answered : List (ι × ℚ)

/-- What a connection meets: it goes on by itself, the client sends a message or leaves, a use of
Redis (of which there may be no client) or of the database. `fails` is an exception. -/
inductive Outcome
  | goesOn
  | message
  | leaves
  | redis (available : Bool)
  | database
  | fails
  deriving DecidableEq

inductive Event (ι ω : Type)
  | proceed (i : ι) (o : Outcome)
  | pass (seconds : ℚ≥0)
  | forget (p : ω) (userId : String)
  | evict (userId : String)
  | takeOut (userId : String)
  | register (userId : String)
  | delete (userId : String)

def WS_AUTH_CACHE_TTL : ℚ := 120
def WS_AUTH_REDIS_TTL : ℚ := 120
def REAUTH_INTERVAL : ℚ := 60

/-- The connection may go on with this row. -/
def Row.keeps (row : Row) (authTokenVersion : ℕ) : Bool :=
  row.isActive && row.tokenVersion ≤ authTokenVersion

/-- The check was passed, or has raised: then the next one is later. -/
def Connection.checked (c : Connection) (now : ℚ) (errored : Bool) : Connection :=
  { c with
    lastAuthCheck := now
    reauthInterval := if errored then min 300 (c.reauthInterval * 2) else REAUTH_INTERVAL }

section
variable {ι ω : Type}

section
variable [DecidableEq ι] [DecidableEq ω] (claims : ι → Claims) (process : ι → ω)
  (s : World ι ω) (i : ι)

def World.set (p : Stage) : World ι ω := { s with stage := Function.update s.stage i p }

/-- The message is answered, and the connection waits for the next one. -/
def World.answer (c : Connection) : World ι ω :=
  { s.set i (.waiting c) with answered := s.answered ++ [(i, s.now)] }

/-- The check ends with a row, as the connection's version compares to it. -/
def World.judge (c : Connection) (now : ℚ) (row : Row) : World ι ω :=
  if row.keeps c.authTokenVersion then s.answer i (c.checked now false) else s.set i .closed

def World.keep (row : Row) : World ι ω :=
  { s with
    wsAuthCache := Function.update s.wsAuthCache (process i)
      ((s.wsAuthCache (process i)).put (claims i).userId row s.now WS_AUTH_CACHE_TTL) }

def World.share (row : Row) : World ι ω :=
  { s with redisAuth := s.redisAuth.put (claims i).userId row s.now WS_AUTH_REDIS_TTL }

def World.read (row : Row) : World ι ω :=
  { s with reads := s.reads ++ [(s.now, (claims i).userId, row)] }

/-- `_verify_ws_token`: an active row of a version that the token has is read. -/
def connect : World ι ω :=
  match s.rows (claims i).userId with
  | some row =>
    if row.isActive && row.tokenVersion ≤ (claims i).tokenVersion then
      (s.read claims i row).set i (.accepting row s.now)
    else s.set i .closed
  | none => s.set i .closed

def receive (c : Connection) : World ι ω :=
  if s.now - c.lastAuthCheck > c.reauthInterval then s.set i (.lookingUp c s.now)
  else s.answer i c

def lookUp (c : Connection) (now : ℚ) : World ι ω :=
  match (s.wsAuthCache (process i)).get (claims i).userId s.now with
  | some row => s.judge i c now row
  | none => s.set i (.askingRedis c now)

def askRedis (c : Connection) (now : ℚ) (available : Bool) : World ι ω :=
  if available then
    match s.redisAuth.get (claims i).userId s.now with
    | some row => s.set i (.copying c now row s.now)
    | none => s.set i (.askingDatabase c now true)
  else s.set i (.askingDatabase c now false)

def askDatabase (c : Connection) (now : ℚ) (redis : Bool) : World ι ω :=
  match s.rows (claims i).userId with
  | some row =>
    if row.keeps c.authTokenVersion then
      (s.read claims i row).set i (.keeping c now row s.now redis)
    else s.set i .closed
  | none => s.set i .closed

/-- An exception of a check lets the connection go on. -/
def turn : Stage → Outcome → Option (World ι ω)
  | .connecting, .database => some (connect claims s i)
  | .accepting row _, .goesOn =>
    some (s.set i (.waiting ⟨row.tokenVersion, s.now, REAUTH_INTERVAL⟩))
  | .waiting c, .message => some (receive s i c)
  | .connecting, .leaves | .accepting _ _, .leaves | .waiting _, .leaves => some (s.set i .closed)
  | .lookingUp c now, .goesOn => some (lookUp claims process s i c now)
  | .askingRedis c now, .redis available => some (askRedis claims s i c now available)
  | .copying c now row _, .goesOn => some ((s.keep claims process i row).judge i c now row)
  | .askingDatabase c now redis, .database => some (askDatabase claims s i c now redis)
  | .keeping c now row readAt redis, .goesOn =>
    some (if redis then (s.keep claims process i row).set i (.sharing c now row readAt)
      else (s.keep claims process i row).answer i (c.checked now false))
  | .sharing c now row _, .redis _ =>
    some ((s.share claims i row).answer i (c.checked now false))
  | .askingRedis c now, .fails | .askingDatabase c now _, .fails | .sharing c now _ _, .fails =>
    some (s.answer i (c.checked now true))
  | _, _ => none

def World.setRow (userId : String) (row : Option Row) : World ι ω :=
  { s with rows := Function.update s.rows userId row }

def World.takeOut (userId : String) : World ι ω :=
  s.setRow userId ((s.rows userId).map fun row => ⟨false, row.tokenVersion + 1⟩)

def step : Event ι ω → Option (World ι ω)
  | .proceed i o => turn claims process s i (s.stage i) o
  | .pass seconds => some { s with now := s.now + seconds }
  | .forget p userId => some { s with
      wsAuthCache := Function.update s.wsAuthCache p ((s.wsAuthCache p).drop userId) }
  | .evict userId => some { s with redisAuth := s.redisAuth.drop userId }
  | .takeOut userId => some (s.takeOut userId)
  | .register userId =>
    if (s.rows userId).isSome then none else some (s.setRow userId (some ⟨true, 0⟩))
  | .delete userId => some (s.setRow userId none)

end

def World.start (now : ℚ) (rows : String → Option Row) : World ι ω where
  now := now
  rows := rows
  wsAuthCache := fun _ => Shelf.empty
  redisAuth := Shelf.empty
  stage := fun _ => .connecting
  reads := []
  answered := []

/-- No check fails, and what was read is kept and shared within the delay. -/
def prompt (delay : ℚ) (s : World ι ω) : Event ι ω → Bool
  | .proceed i o => o ≠ .fails &&
    match s.stage i with
    | .accepting _ readAt | .copying _ _ _ readAt | .keeping _ _ _ readAt _ | .sharing _ _ _ readAt =>
      s.now ≤ readAt + delay
    | _ => true
  | _ => true

def spares (id : String) : Event ι ω → Bool
  | .delete userId => userId ≠ id
  | _ => true

end

section
variable {ι ω : Type} {claims : ι → Claims} {process : ι → ω} {delay : ℚ} {s s' : World ι ω}
  {i : ι} {c : Connection} {row : Row} {now readAt : ℚ}

/-- The row that was read of a user at a time. -/
def World.seen (s : World ι ω) (t : ℚ) (id : String) (row : Row) : Prop := (t, id, row) ∈ s.reads

/-! ## How old the row is -/

/-- The user had an active row at most `age` before. -/
def WasActive (seen : ℚ → String → Row → Prop) (age : ℚ) (id : String) (t : ℚ) : Prop :=
  ∃ row, row.isActive = true ∧ Aged seen age id row t

variable (delay) in
def StageWell (seen : ℚ → String → Row → Prop) (clock : ℚ) (id : String) : Stage → Prop
  | .accepting row readAt => row.isActive = true ∧ seen readAt id row
  | .waiting c => c.reauthInterval = REAUTH_INTERVAL ∧
    WasActive seen (WS_AUTH_REDIS_TTL + WS_AUTH_CACHE_TTL + 2 * delay) id c.lastAuthCheck
  | .lookingUp _ now | .askingRedis _ now | .askingDatabase _ now _ => now ≤ clock
  | .copying _ now row readAt =>
    now ≤ readAt ∧ readAt ≤ clock ∧ Aged seen (WS_AUTH_REDIS_TTL + delay) id row readAt
  | .keeping _ now row readAt _ | .sharing _ now row readAt =>
    now ≤ readAt ∧ row.isActive = true ∧ seen readAt id row
  | .connecting | .closed => True

variable (claims delay s) in
/-- What is kept of a row in Redis, and of that in a process, is as old as it lives there. -/
structure Inv : Prop where
  past : ∀ t id row, s.seen t id row → t ≤ s.now
  wsAuthCache : ∀ p, Within s.seen (WS_AUTH_REDIS_TTL + WS_AUTH_CACHE_TTL + 2 * delay)
    (s.wsAuthCache p)
  redisAuth : Within s.seen (WS_AUTH_REDIS_TTL + delay) s.redisAuth
  stage : ∀ i, StageWell delay s.seen s.now (claims i).userId (s.stage i)
  answered : ∀ i t, (i, t) ∈ s.answered → WasActive (fun t' id row => t' ≤ t ∧ s.seen t' id row)
    (300 + 2 * delay) (claims i).userId t

theorem WasActive.mono {seen seen' : ℚ → String → Row → Prop} {age : ℚ} {id : String} {t : ℚ}
    (h : WasActive seen age id t) (hseen : ∀ t id row, seen t id row → seen' t id row) :
    WasActive seen' age id t := by
  obtain ⟨row, hactive, haged⟩ := h
  exact ⟨row, hactive, haged.mono fun t => hseen t id row⟩

theorem WasActive.later {seen : ℚ → String → Row → Prop} {age age' : ℚ} {id : String} {t t' : ℚ}
    (h : WasActive seen age id t) (ht : t' + age ≤ t + age') : WasActive seen age' id t' := by
  obtain ⟨row, hactive, haged⟩ := h
  exact ⟨row, hactive, haged.later ht⟩

theorem StageWell.mono {seen seen' : ℚ → String → Row → Prop} {clock clock' : ℚ} {id : String}
    {p : Stage} (h : StageWell delay seen clock id p)
    (hseen : ∀ t id row, seen t id row → seen' t id row) (hclock : clock ≤ clock') :
    StageWell delay seen' clock' id p := by
  cases p with
  | accepting row readAt => exact ⟨h.1, hseen _ _ _ h.2⟩
  | waiting c => exact ⟨h.1, h.2.mono hseen⟩
  | lookingUp c now => exact le_trans h hclock
  | askingRedis c now => exact le_trans h hclock
  | askingDatabase c now redis => exact le_trans h hclock
  | copying c now row readAt =>
    exact ⟨h.1, h.2.1.trans hclock, h.2.2.mono fun t => hseen t id row⟩
  | keeping c now row readAt redis => exact ⟨h.1, h.2.1, hseen _ _ _ h.2.2⟩
  | sharing c now row readAt => exact ⟨h.1, h.2.1, hseen _ _ _ h.2.2⟩
  | connecting | closed => trivial

theorem inv_start (now : ℚ) (rows : String → Option Row) :
    Inv claims delay (World.start now rows : World ι ω) where
  past t id row h := by cases h
  wsAuthCache _ := within_empty
  redisAuth := within_empty
  stage _ := trivial
  answered i t h := by cases h

/-- A read of the row shows what the user is now. -/
theorem Inv.read (h : Inv claims delay s) (row : Row) : Inv claims delay (s.read claims i row) := by
  have hseen : ∀ t id row', s.seen t id row' → (s.read claims i row).seen t id row' :=
    fun _ _ _ hmem => List.mem_append_left _ hmem
  refine ⟨?_, fun p => (h.wsAuthCache p).mono hseen, h.redisAuth.mono hseen,
    fun j => (h.stage j).mono hseen le_rfl, ?_⟩
  · intro t id row' hmem
    rcases List.mem_append.mp hmem with hmem | hmem
    · exact h.past t id row' hmem
    · cases List.mem_singleton.mp hmem
      exact le_rfl
  · exact fun j t hmem => (h.answered j t hmem).mono fun t' id row' hs => ⟨hs.1, hseen _ _ _ hs.2⟩

theorem seen_read : (s.read claims i row).seen s.now (claims i).userId row :=
  List.mem_append_right _ (List.mem_singleton_self _)

theorem Inv.share (h : Inv claims delay s)
    (haged : Aged s.seen (WS_AUTH_REDIS_TTL + delay) (claims i).userId row
      (s.now + WS_AUTH_REDIS_TTL)) : Inv claims delay (s.share claims i row) :=
  { h with redisAuth := h.redisAuth.put haged }

section
variable [DecidableEq ω]

theorem Inv.keep (h : Inv claims delay s)
    (haged : Aged s.seen (WS_AUTH_REDIS_TTL + WS_AUTH_CACHE_TTL + 2 * delay) (claims i).userId row
      (s.now + WS_AUTH_CACHE_TTL)) : Inv claims delay (s.keep claims process i row) := by
  refine { h with wsAuthCache := ?_ }
  refine (Function.forall_update_iff _ fun p shelf => Within s.seen _ shelf).mpr ⟨?_, ?_⟩
  · exact (h.wsAuthCache (process i)).put haged
  · exact fun p _ => h.wsAuthCache p

end

section
variable [DecidableEq ι]

theorem Inv.set (h : Inv claims delay s) {p : Stage}
    (hp : StageWell delay s.seen s.now (claims i).userId p) : Inv claims delay (s.set i p) where
  past := h.past
  wsAuthCache := h.wsAuthCache
  redisAuth := h.redisAuth
  stage := (Function.forall_update_iff _ _).mpr ⟨hp, fun j _ => h.stage j⟩
  answered := h.answered

/-- A message is answered when the user's row was active not long before. -/
theorem Inv.answer (h : Inv claims delay s)
    (hactive : WasActive s.seen (300 + 2 * delay) (claims i).userId s.now)
    (hc : StageWell delay s.seen s.now (claims i).userId (.waiting c)) :
    Inv claims delay (s.answer i c) := by
  refine { h.set hc with answered := ?_ }
  intro j t hmem
  rcases List.mem_append.mp hmem with hmem | hmem
  · exact h.answered j t hmem
  · cases List.mem_singleton.mp hmem
    exact hactive.mono fun t id row hs => ⟨h.past t id row hs, hs⟩

/-- A check that is passed. -/
theorem Inv.answer_checked (h : Inv claims delay s) (hnow : now ≤ s.now)
    (hactive : WasActive s.seen (WS_AUTH_REDIS_TTL + WS_AUTH_CACHE_TTL + 2 * delay)
      (claims i).userId s.now) : Inv claims delay (s.answer i (c.checked now false)) := by
  refine h.answer (hactive.later ?_) ⟨rfl, hactive.later ?_⟩
  · norm_num [WS_AUTH_REDIS_TTL, WS_AUTH_CACHE_TTL]
  · exact add_le_add_left hnow _

theorem Inv.judge (h : Inv claims delay s) (hnow : now ≤ s.now)
    (haged : Aged s.seen (WS_AUTH_REDIS_TTL + WS_AUTH_CACHE_TTL + 2 * delay) (claims i).userId row
      s.now) : Inv claims delay (s.judge i c now row) := by
  unfold World.judge
  split_ifs with hkeeps
  · exact h.answer_checked hnow ⟨row, (Bool.and_eq_true _ _ ▸ hkeeps : _ ∧ _).1, haged⟩
  · exact h.set trivial

theorem Inv.connect (h : Inv claims delay s) : Inv claims delay (connect claims s i) := by
  unfold WsReauth.connect
  split
  · rename_i row hrow
    split_ifs with hin
    · have hactive : row.isActive = true := (Bool.and_eq_true _ _ ▸ hin : _ ∧ _).1
      exact (h.read row).set ⟨hactive, seen_read⟩
    · exact h.set trivial
  · exact h.set trivial

theorem Inv.receive (h : Inv claims delay s) (hi : s.stage i = .waiting c) :
    Inv claims delay (receive s i c) := by
  have hstage := h.stage i
  rw [hi] at hstage
  obtain ⟨hinterval, hactive⟩ := hstage
  unfold WsReauth.receive
  split_ifs with hold
  · exact h.set le_rfl
  · refine h.answer (hactive.later ?_) ⟨hinterval, hactive⟩
    rw [hinterval] at hold
    norm_num [REAUTH_INTERVAL, WS_AUTH_REDIS_TTL, WS_AUTH_CACHE_TTL] at hold ⊢
    linarith

theorem Inv.askRedis (h : Inv claims delay s) (hnow : now ≤ s.now) (available : Bool) :
    Inv claims delay (askRedis claims s i c now available) := by
  unfold WsReauth.askRedis
  split_ifs
  · split
    · rename_i row hrow
      exact h.set ⟨hnow, le_rfl, h.redisAuth.aged hrow⟩
    · exact h.set hnow
  · exact h.set hnow

theorem Inv.askDatabase (h : Inv claims delay s) (hnow : now ≤ s.now) (redis : Bool) :
    Inv claims delay (askDatabase claims s i c now redis) := by
  unfold WsReauth.askDatabase
  split
  · rename_i row hrow
    split_ifs with hkeeps
    · have hactive : row.isActive = true := (Bool.and_eq_true _ _ ▸ hkeeps : _ ∧ _).1
      exact (h.read row).set ⟨hnow, hactive, seen_read⟩
    · exact h.set trivial
  · exact h.set trivial

theorem Inv.lookUp (h : Inv claims delay s) (hnow : now ≤ s.now) :
    Inv claims delay (lookUp claims process s i c now) := by
  unfold WsReauth.lookUp
  split
  · rename_i row hrow
    exact h.judge hnow ((h.wsAuthCache (process i)).aged hrow)
  · exact h.set hnow

variable [DecidableEq ω]

theorem Inv.turn (h : Inv claims delay s) (hdelay : 0 ≤ delay) {o : Outcome}
    (hok : prompt delay s (.proceed i o))
    (hs : turn claims process s i (s.stage i) o = some s') : Inv claims delay s' := by
  have hstage := h.stage i
  simp only [prompt, Bool.and_eq_true, decide_eq_true_eq] at hok
  obtain ⟨hfails, hprompt⟩ := hok
  cases hi : s.stage i with
  | connecting =>
    rw [hi] at hs
    cases o <;> cases hs
    · exact h.set trivial
    · exact h.connect
  | accepting row readAt =>
    rw [hi] at hs hstage hprompt
    have hnow : s.now ≤ readAt + delay := of_decide_eq_true hprompt
    cases o <;> cases hs
    · refine h.set ⟨rfl, row, hstage.1, readAt, hstage.2, ?_⟩
      norm_num [WS_AUTH_REDIS_TTL, WS_AUTH_CACHE_TTL]
      linarith
    · exact h.set trivial
  | waiting c =>
    rw [hi] at hs
    cases o <;> cases hs
    · exact h.receive hi
    · exact h.set trivial
  | lookingUp c now =>
    rw [hi] at hs hstage
    cases o <;> cases hs
    exact h.lookUp hstage
  | askingRedis c now =>
    rw [hi] at hs hstage
    cases o <;> cases hs
    · exact h.askRedis hstage _
    · exact absurd rfl hfails
  | copying c now row readAt =>
    rw [hi] at hs hstage hprompt
    have hnow : s.now ≤ readAt + delay := of_decide_eq_true hprompt
    obtain ⟨hbefore, hread, haged⟩ := hstage
    cases o <;> cases hs
    refine (h.keep (haged.later ?_)).judge (hbefore.trans hread) (haged.later ?_)
    · linarith
    · have hlife : 0 ≤ WS_AUTH_CACHE_TTL := by decide
      show s.now + _ ≤ _
      linarith
  | askingDatabase c now redis =>
    rw [hi] at hs hstage
    cases o <;> cases hs
    · exact h.askDatabase hstage _
    · exact absurd rfl hfails
  | keeping c now row readAt redis =>
    rw [hi] at hs hstage hprompt
    have hnow : s.now ≤ readAt + delay := of_decide_eq_true hprompt
    obtain ⟨hbefore, hactive, hseen⟩ := hstage
    have hread : readAt ≤ s.now := h.past _ _ _ hseen
    have hlife : 0 ≤ WS_AUTH_CACHE_TTL ∧ 0 ≤ WS_AUTH_REDIS_TTL := by decide
    cases o <;> cases hs
    have hkept : Inv claims delay (s.keep claims process i row) :=
      h.keep ⟨readAt, hseen, by linarith [hlife.2]⟩
    split_ifs
    · exact hkept.set ⟨hbefore, hactive, hseen⟩
    · refine hkept.answer_checked (hbefore.trans hread) ⟨row, hactive, readAt, hseen, ?_⟩
      show s.now ≤ _
      linarith
  | sharing c now row readAt =>
    rw [hi] at hs hstage hprompt
    have hnow : s.now ≤ readAt + delay := of_decide_eq_true hprompt
    obtain ⟨hbefore, hactive, hseen⟩ := hstage
    have hread : readAt ≤ s.now := h.past _ _ _ hseen
    have hlife : 0 ≤ WS_AUTH_CACHE_TTL ∧ 0 ≤ WS_AUTH_REDIS_TTL := by decide
    cases o <;> cases hs
    · have hshared : Inv claims delay (s.share claims i row) :=
        h.share ⟨readAt, hseen, by linarith⟩
      refine hshared.answer_checked (hbefore.trans hread) ⟨row, hactive, readAt, hseen, ?_⟩
      show s.now ≤ _
      linarith
    · exact absurd rfl hfails
  | closed =>
    rw [hi] at hs
    cases o <;> cases hs

theorem Inv.step {e : Event ι ω} (h : Inv claims delay s) (hdelay : 0 ≤ delay)
    (hok : prompt delay s e) (hs : step claims process s e = some s') : Inv claims delay s' := by
  cases e with
  | proceed i o => exact h.turn hdelay hok hs
  | pass seconds =>
    cases hs
    have hlater : s.now ≤ s.now + seconds := le_add_of_nonneg_right seconds.2
    exact { h with
      past := fun t id row hmem => (h.past t id row hmem).trans hlater
      stage := fun i => (h.stage i).mono (fun _ _ _ => id) hlater }
  | forget p userId =>
    cases hs
    refine { h with wsAuthCache := ?_ }
    refine (Function.forall_update_iff _ fun p shelf => Within s.seen _ shelf).mpr ⟨?_, ?_⟩
    · exact (h.wsAuthCache p).drop
    · exact fun q _ => h.wsAuthCache q
  | evict userId =>
    cases hs
    exact { h with redisAuth := h.redisAuth.drop }
  | register userId =>
    simp only [WsReauth.step] at hs
    split_ifs at hs
    cases hs
    exact { h with }
  | takeOut | delete =>
    cases hs
    exact { h with }

end

/-! ## A user who was taken out -/

/-- The user's row is inactive, and was in every read since. -/
structure Gone (id : String) (since : ℚ) (s : World ι ω) : Prop where
  row : ∃ row, s.rows id = some row ∧ row.isActive = false
  seen : ∀ t row, s.seen t id row → since < t → row.isActive = false

/-- What a turn reads of a row is there, and otherwise it reads nothing. -/
def ReadsRow (claims : ι → Claims) (i : ι) (s s' : World ι ω) : Prop :=
  s'.rows = s.rows ∧ (s'.reads = s.reads ∨
    ∃ row, s.rows (claims i).userId = some row ∧
      s'.reads = s.reads ++ [(s.now, (claims i).userId, row)])

theorem ReadsRow.of_eq (hrows : s'.rows = s.rows) (hreads : s'.reads = s.reads) :
    ReadsRow claims i s s' := ⟨hrows, .inl hreads⟩

section
variable [DecidableEq ι]

theorem readsRow_judge {t : World ι ω} (hrows : t.rows = s.rows) (hreads : t.reads = s.reads) :
    ReadsRow claims i s (t.judge i c now row) := by
  unfold World.judge
  split_ifs <;> exact .of_eq hrows hreads

theorem readsRow_connect : ReadsRow claims i s (connect claims s i) := by
  unfold connect
  split
  · rename_i row hrow
    split_ifs
    · exact ⟨rfl, .inr ⟨row, hrow, rfl⟩⟩
    · exact .of_eq rfl rfl
  · exact .of_eq rfl rfl

theorem readsRow_askDatabase {redis : Bool} :
    ReadsRow claims i s (askDatabase claims s i c now redis) := by
  unfold askDatabase
  split
  · rename_i row hrow
    split_ifs
    · exact ⟨rfl, .inr ⟨row, hrow, rfl⟩⟩
    · exact .of_eq rfl rfl
  · exact .of_eq rfl rfl

theorem readsRow_askRedis {available : Bool} :
    ReadsRow claims i s (askRedis claims s i c now available) := by
  unfold askRedis
  split_ifs
  · split <;> exact .of_eq rfl rfl
  · exact .of_eq rfl rfl

variable [DecidableEq ω]

theorem readsRow_turn {p : Stage} {o : Outcome}
    (hs : turn claims process s i p o = some s') : ReadsRow claims i s s' := by
  unfold turn at hs
  split at hs <;> cases hs
  · exact readsRow_connect
  · exact .of_eq rfl rfl
  · unfold receive
    split_ifs <;> exact .of_eq rfl rfl
  · exact .of_eq rfl rfl
  · exact .of_eq rfl rfl
  · exact .of_eq rfl rfl
  · unfold lookUp
    split
    · exact readsRow_judge rfl rfl
    · exact .of_eq rfl rfl
  · exact readsRow_askRedis
  · exact readsRow_judge rfl rfl
  · exact readsRow_askDatabase
  · split_ifs <;> exact .of_eq rfl rfl
  · exact .of_eq rfl rfl
  · exact .of_eq rfl rfl
  · exact .of_eq rfl rfl
  · exact .of_eq rfl rfl

theorem Gone.step {id : String} {since : ℚ} {e : Event ι ω} (h : Gone id since s)
    (hok : spares id e) (hs : step claims process s e = some s') : Gone id since s' := by
  obtain ⟨row, hrow, hinactive⟩ := h.row
  cases e with
  | proceed i o =>
    obtain ⟨hrows, hreads⟩ := readsRow_turn hs
    refine ⟨⟨row, hrows ▸ hrow, hinactive⟩, fun t row' hmem hlate => ?_⟩
    rcases hreads with hreads | ⟨found, hfound, hreads⟩
    · rw [World.seen, hreads] at hmem
      exact h.seen t row' hmem hlate
    · rw [World.seen, hreads] at hmem
      rcases List.mem_append.mp hmem with hmem | hmem
      · exact h.seen t row' hmem hlate
      · cases List.mem_singleton.mp hmem
        exact Option.some.inj (hrow.symm.trans hfound) ▸ hinactive
  | pass | forget | evict =>
    cases hs
    exact ⟨⟨row, hrow, hinactive⟩, h.seen⟩
  | takeOut userId =>
    cases hs
    refine ⟨?_, h.seen⟩
    by_cases hid : id = userId
    · subst hid
      exact ⟨⟨false, row.tokenVersion + 1⟩, by simp [World.takeOut, World.setRow, hrow], rfl⟩
    · refine ⟨row, ?_, hinactive⟩
      simpa only [World.takeOut, World.setRow, Function.update_of_ne hid] using hrow
  | register userId =>
    simp only [WsReauth.step] at hs
    split_ifs at hs with hfree
    cases hs
    refine ⟨⟨row, ?_, hinactive⟩, h.seen⟩
    have hid : id ≠ userId := by
      rintro rfl
      exact hfree (by rw [hrow]; rfl)
    simpa only [World.setRow, Function.update_of_ne hid] using hrow
  | delete userId =>
    cases hs
    have hid : id ≠ userId := fun heq => of_decide_eq_true hok heq.symm
    refine ⟨⟨row, ?_, hinactive⟩, h.seen⟩
    simpa only [World.setRow, Function.update_of_ne hid] using hrow

/-- As long as no check fails, no message of a user is answered later than five minutes, and twice
the delay of keeping what was read, after the user was taken out. -/
theorem answered_soon_after_takeOut {rows : String → Option Row} {id : String} {start t : ℚ}
    (hdelay : 0 ≤ delay)
    (h : ReachedBy (step claims process) (prompt delay · ·) (World.start start rows) s)
    (hrow : (s.rows id).isSome)
    (h' : ReachedBy (step claims process) (fun s e => prompt delay s e && spares id e)
      (s.takeOut id) s')
    (hi : (claims i).userId = id) (ht : (i, t) ∈ s'.answered) :
    t ≤ s.now + (300 + 2 * delay) := by
  have hinv : Inv claims delay s :=
    h.invariant (inv_start start rows) fun _ _ _ hinv hok hs => hinv.step hdelay hok hs
  obtain ⟨row, hrow⟩ := Option.isSome_iff_exists.mp hrow
  have hgone : Gone id s.now (s.takeOut id) := by
    refine ⟨⟨⟨false, row.tokenVersion + 1⟩, by simp [World.takeOut, World.setRow, hrow], rfl⟩, ?_⟩
    exact fun t row' hmem hlate => absurd (hinv.past t id row' hmem) (not_le.mpr hlate)
  have hboth : Inv claims delay s' ∧ Gone id s.now s' := by
    refine h'.invariant (I := fun s' => Inv claims delay s' ∧ Gone id s.now s')
      ⟨{ hinv with }, hgone⟩ ?_
    rintro u e u' ⟨hu, hgone⟩ hok hs
    obtain ⟨hprompt, hspares⟩ := (Bool.and_eq_true _ _).mp hok
    exact ⟨hu.step hdelay hprompt hs, hgone.step hspares hs⟩
  -- the row that the answer rests on was active, so that it was read before
  obtain ⟨row', hactive, t', ⟨-, hseen⟩, hage⟩ := hboth.1.answered i t ht
  rw [hi] at hseen
  have hearly : t' ≤ s.now := by
    by_contra hlate
    have hinactive := hboth.2.seen t' row' hseen (not_le.mp hlate)
    exact absurd (hactive.symm.trans hinactive) (by decide)
  linarith

end

end

/-! ## Two connections of a user -/

def bothClaims : Fin 2 → Claims := fun _ => ⟨"u", 0⟩

/-- Both connect, and a minute later the first one has the row read. -/
def connected : Option (World (Fin 2) (Fin 2)) :=
  runWhile (step bothClaims id) (prompt 0 · ·) (World.start 0 fun _ => some ⟨true, 0⟩)
    [.proceed 0 .database, .proceed 0 .goesOn, .proceed 1 .database, .proceed 1 .goesOn, .pass 61,
      .proceed 0 .message, .proceed 0 .goesOn, .proceed 0 (.redis true), .proceed 0 .database,
      .proceed 0 .goesOn, .proceed 0 (.redis true)]

theorem connected_isSome : connected.isSome := by decide +kernel

/-- Then the user is taken out, and the second one lives on what Redis kept, and then on what its
process did. -/
def outlived : Option (World (Fin 2) (Fin 2)) :=
  runWhile (step bothClaims id) (fun s e => prompt 0 s e && spares "u" e)
    ((connected.get connected_isSome).takeOut "u")
    [.pass 119, .proceed 1 .message, .proceed 1 .goesOn, .proceed 1 (.redis true),
      .proceed 1 .goesOn, .pass 119, .proceed 1 .message, .proceed 1 .goesOn, .pass 60,
      .proceed 1 .message]

theorem outlived_isSome : outlived.isSome := by decide +kernel

theorem answered_soon_after_takeOut_outlived :
    (1, 359) ∈ (outlived.get outlived_isSome).answered ∧
      (359 : ℚ) ≤ (connected.get connected_isSome).now + (300 + 2 * 0) := by
  have hanswered : (1, 359) ∈ (outlived.get outlived_isSome).answered := by decide +kernel
  exact ⟨hanswered, answered_soon_after_takeOut le_rfl
    (ReachedBy.of_runWhile (Option.some_get connected_isSome).symm) (by decide +kernel)
    (ReachedBy.of_runWhile (Option.some_get outlived_isSome).symm) rfl hanswered⟩

end WorkTicket.Ai.WsReauth
