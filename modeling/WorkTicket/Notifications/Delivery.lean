import WorkTicket.Foundation.Transition

/-! The sending of e-mails and text messages: a circuit breaker in every process with a copy in
Redis, and the list in Redis for the messages that could not be sent. The two services differ in
what a message is and in the status with which the provider accepts one. -/

namespace WorkTicket.Notifications

open WorkTicket.Transition

def circuitThreshold : ℕ := 3

def circuitCooldown : ℚ := 30

def circuitMaxCooldown : ℚ := 600

/-- The variables `_circuit_*` of a process. -/
structure Breaker where
  opened : Bool
  failures : ℕ
  lastFailure : ℚ
  cooldown : ℚ
  deriving DecidableEq, Repr

def Breaker.initial : Breaker := ⟨false, 0, 0, circuitCooldown⟩

def Breaker.cools (b : Breaker) (now : ℚ) : Bool := b.opened && now - b.lastFailure < b.cooldown

/-- An open breaker whose cooldown is over lets the call pass and starts anew. -/
def Breaker.reopen (b : Breaker) : Breaker :=
  { b with opened := false, failures := 0, cooldown := circuitCooldown }

/-- The failure trips the breaker. -/
def Breaker.trips (b : Breaker) : Bool := circuitThreshold ≤ b.failures + 1 && !b.opened

def Breaker.fail (b : Breaker) (now : ℚ) : Breaker :=
  if b.trips then
    { opened := true
      failures := b.failures + 1
      lastFailure := now
      cooldown := min (b.cooldown * 2) circuitMaxCooldown }
  else { b with failures := b.failures + 1 }

structure Entry (μ : Type) where
  message : μ
  enqueuedAt : ℚ
  retryCount : ℕ
  deriving DecidableEq, Repr

/-- The list under `_DLQ_KEY`, the newest entry first, and the time at which it expires. -/
structure Queue (μ : Type) where
  entries : List (Entry μ)
  expires : ℚ
  deriving DecidableEq, Repr

def Queue.live {μ : Type} (q : Queue μ) (now : ℚ) : List (Entry μ) :=
  if now < q.expires then q.entries else []

/-- `LPUSH`, `LTRIM 0 999` and `EXPIRE`. -/
def Queue.push {μ : Type} (q : Queue μ) (now : ℚ) (message : μ) : Queue μ :=
  ⟨(⟨message, now, 0⟩ :: q.live now).take 1000, now + 604800⟩

inductive Outcome
  | response (status : ℕ)
  | timeout
  | exception
  deriving DecidableEq, Repr

/-- A call in one of the processes. It starts and ends at times of its own, and Redis answers it or
not; `outcome` is what the provider would make of the message. -/
structure Call (μ : Type) where
  process : ℕ
  message : μ
  redis : Bool
  start : ℚ
  finish : ℚ
  outcome : Outcome
  deriving DecidableEq, Repr

/-- `copy` is the breaker saved in Redis with its expiry, `accepted` what the provider has taken,
`succeeded` and `failed` the messages whose calls have returned True and False. -/
structure World (μ : Type) where
  breakers : ℕ → Breaker
  copy : Option (Breaker × ℚ)
  dlq : Queue μ
  accepted : List μ
  clock : ℚ
  succeeded : List μ
  failed : List μ

section
variable {μ : Type} (acceptedStatus : ℕ) (s : World μ) (c : Call μ)

/-! ## A call -/

/-- `_load_circuit_breaker`, which a process does until its own breaker has something to say. -/
def World.loadCircuitBreaker : Breaker :=
  let b := s.breakers c.process
  if b.failures = 0 && !b.opened && c.redis then
    ((s.copy.filter (c.start < ·.2)).map Prod.fst).getD b
  else b

def World.saveCircuitBreaker (now : ℚ) (b : Breaker) : World μ :=
  { s with
    breakers := Function.update s.breakers c.process b
    copy := if c.redis then some (b, now + (⌊b.cooldown * 4⌋ : ℤ)) else s.copy }

def World.enqueueDlq (now : ℚ) : World μ :=
  { s with dlq := if c.redis then s.dlq.push now c.message else s.dlq }

def World.handleFailure (b : Breaker) : World μ :=
  let s := if b.trips then s.enqueueDlq c c.finish else s
  s.saveCircuitBreaker c c.finish (b.fail c.finish)

/-- The provider gets the message. -/
def World.post : World μ :=
  if c.outcome = .response acceptedStatus then { s with accepted := c.message :: s.accepted } else s

/-- The answer of the call, the state that it leaves, and when it ends. -/
def World.send : Bool × World μ × ℚ :=
  let b := s.loadCircuitBreaker c
  if b.cools c.start then
    let s := { s with breakers := Function.update s.breakers c.process b }
    (false, s.enqueueDlq c c.start, c.start)
  else
    let s :=
      if b.opened then s.saveCircuitBreaker c c.start b.reopen
      else { s with breakers := Function.update s.breakers c.process b }
    let b := if b.opened then b.reopen else b
    let s := s.post acceptedStatus c
    if c.outcome = .response acceptedStatus then (true, s, c.finish)
    else (false, s.handleFailure c b, c.finish)

def step (s : World μ) (c : Call μ) : Option (World μ) :=
  if s.clock ≤ c.start ∧ c.start ≤ c.finish then
    let (ok, s', clock) := s.send acceptedStatus c
    some { s' with
      clock := clock
      succeeded := if ok then c.message :: s.succeeded else s.succeeded
      failed := if ok then s.failed else c.message :: s.failed }
  else none

/-- Whatever the breakers have seen before; the list is empty. -/
def start (breakers : ℕ → Breaker) (copy : Option (Breaker × ℚ)) : World μ :=
  ⟨breakers, copy, ⟨[], 0⟩, [], 0, [], []⟩

end

structure EmailMessage where
  toAddress : String
  subject : String
  body : String
  companyId : Option String
  deriving DecidableEq, Repr

structure SmsMessage where
  toNumber : String
  body : String
  companyId : Option String
  deriving DecidableEq, Repr

def sendEmail : World EmailMessage → Call EmailMessage → Option (World EmailMessage) := step 200

def sendSms : World SmsMessage → Call SmsMessage → Option (World SmsMessage) := step 201

/-! ## What is claimed -/

section
variable {μ : Type} {acceptedStatus : ℕ} {s s' : World μ} {c : Call μ}

/-- The list holds just the messages whose calls returned False, each as often as that happened,
and the provider has accepted those whose calls returned True. -/
structure Conserved (s : World μ) : Prop where
  failed : ((s.dlq.live s.clock).map Entry.message).Perm s.failed
  succeeded : s.succeeded.Subperm s.accepted

def Refused (s : World μ) (c : Call μ) : Prop := (s.loadCircuitBreaker c).cools c.start = true

/-- The breaker is closed and has counted all failures but one that open it. -/
def AboutToTrip (s : World μ) (c : Call μ) : Prop :=
  (s.loadCircuitBreaker c).opened = false ∧ circuitThreshold ≤ (s.loadCircuitBreaker c).failures + 1

instance (s : World μ) (c : Call μ) : Decidable (Refused s c) := inferInstanceAs (Decidable (_ = _))

instance (s : World μ) (c : Call μ) : Decidable (AboutToTrip s c) :=
  inferInstanceAs (Decidable (_ ∧ _))

def endOf (s : World μ) (c : Call μ) : ℚ := if Refused s c then c.start else c.finish

/-- The entries of the list have not expired when the call ends, and if the call is to fail there
is room for one more, which it is to write. -/
structure Saved (acceptedStatus : ℕ) (s : World μ) (c : Call μ) : Prop where
  lasting : s.dlq.entries ≠ [] → endOf s c < s.dlq.expires
  queued : Refused s c ∨ c.outcome ≠ .response acceptedStatus →
    c.redis = true ∧ s.dlq.entries.length < 1000 ∧ (Refused s c ∨ AboutToTrip s c)

/-! ## What a call does to the list -/

theorem Breaker.trips_iff {b : Breaker} :
    b.trips = true ↔ b.opened = false ∧ circuitThreshold ≤ b.failures + 1 := by
  simp [Breaker.trips, and_comm]

/-- After a cooldown the next failure does not trip the breaker. -/
theorem Breaker.trips_reopen (b : Breaker) : b.reopen.trips = false := by
  simp [Breaker.trips, Breaker.reopen, circuitThreshold]

@[simp] theorem saveCircuitBreaker_dlq (now : ℚ) (b : Breaker) :
    (s.saveCircuitBreaker c now b).dlq = s.dlq := rfl

@[simp] theorem saveCircuitBreaker_accepted (now : ℚ) (b : Breaker) :
    (s.saveCircuitBreaker c now b).accepted = s.accepted := rfl

theorem handleFailure_dlq (b : Breaker) : (s.handleFailure c b).dlq =
    if b.trips ∧ c.redis = true then s.dlq.push c.finish c.message else s.dlq := by
  unfold World.handleFailure
  rw [saveCircuitBreaker_dlq]
  cases b.trips <;> cases hredis : c.redis <;> simp [World.enqueueDlq, hredis]

theorem handleFailure_accepted (b : Breaker) : (s.handleFailure c b).accepted = s.accepted := by
  unfold World.handleFailure
  rw [saveCircuitBreaker_accepted]
  cases b.trips <;> rfl

theorem post_accepted (h : c.outcome = .response acceptedStatus) :
    s.post acceptedStatus c = { s with accepted := c.message :: s.accepted } := if_pos h

theorem post_not_accepted (h : c.outcome ≠ .response acceptedStatus) :
    s.post acceptedStatus c = s := if_neg h

/-- The ways in which a call ends. -/
inductive Ends (acceptedStatus : ℕ) (s s' : World μ) (c : Call μ) : Prop
  | refused (h : Refused s c) (hfailed : s'.failed = c.message :: s.failed)
      (hsucceeded : s'.succeeded = s.succeeded) (haccepted : s'.accepted = s.accepted)
      (hdlq : s'.dlq = if c.redis then s.dlq.push c.start c.message else s.dlq)
  | sent (h : ¬Refused s c) (houtcome : c.outcome = .response acceptedStatus)
      (hfailed : s'.failed = s.failed) (hsucceeded : s'.succeeded = c.message :: s.succeeded)
      (haccepted : s'.accepted = c.message :: s.accepted) (hdlq : s'.dlq = s.dlq)
  | failed (h : ¬Refused s c) (houtcome : c.outcome ≠ .response acceptedStatus)
      (hfailed : s'.failed = c.message :: s.failed) (hsucceeded : s'.succeeded = s.succeeded)
      (haccepted : s'.accepted = s.accepted)
      (hdlq : s'.dlq = if AboutToTrip s c ∧ c.redis = true then s.dlq.push c.finish c.message
        else s.dlq)

variable (acceptedStatus) in
/-- A call that the breaker lets pass, with the breaker it goes on with. -/
theorem send_of_not_refused (h : ¬Refused s c) : ∃ (s₁ : World μ) (b : Breaker),
    s₁.dlq = s.dlq ∧ s₁.accepted = s.accepted ∧ (b.trips = true ↔ AboutToTrip s c) ∧
    s.send acceptedStatus c =
      if c.outcome = .response acceptedStatus then (true, s₁.post acceptedStatus c, c.finish)
      else (false, (s₁.post acceptedStatus c).handleFailure c b, c.finish) := by
  have hcools : (s.loadCircuitBreaker c).cools c.start = false := by simpa [Refused] using h
  cases hopened : (s.loadCircuitBreaker c).opened with
  | true =>
    refine ⟨s.saveCircuitBreaker c c.start (s.loadCircuitBreaker c).reopen,
      (s.loadCircuitBreaker c).reopen, rfl, rfl, ?_, ?_⟩
    · simp [Breaker.trips_reopen, AboutToTrip, hopened]
    · simp [World.send, hcools, hopened]
  | false =>
    refine ⟨{ s with breakers := Function.update s.breakers c.process (s.loadCircuitBreaker c) },
      s.loadCircuitBreaker c, rfl, rfl, Breaker.trips_iff, ?_⟩
    simp [World.send, hcools, hopened]

theorem step_ends (hs : step acceptedStatus s c = some s') :
    s'.clock = endOf s c ∧ Ends acceptedStatus s s' c := by
  simp only [step] at hs
  split at hs
  · obtain rfl := Option.some.inj hs
    by_cases hrefused : Refused s c
    · have hcools : (s.loadCircuitBreaker c).cools c.start = true := hrefused
      simp only [World.send, hcools, endOf, hrefused, if_true]
      refine ⟨trivial, .refused hrefused rfl rfl rfl ?_⟩
      rfl
    · obtain ⟨s₁, b, hdlq, haccepted, htrips, hsend⟩ :=
        send_of_not_refused acceptedStatus hrefused
      rw [hsend]
      by_cases houtcome : c.outcome = .response acceptedStatus
      · simp only [if_pos houtcome, post_accepted houtcome, endOf, if_neg hrefused]
        exact ⟨trivial, .sent hrefused houtcome rfl rfl (congrArg _ haccepted) hdlq⟩
      · simp only [if_neg houtcome, post_not_accepted houtcome, endOf, if_neg hrefused]
        refine ⟨trivial, .failed hrefused houtcome rfl rfl ?_ ?_⟩
        · exact (handleFailure_accepted b).trans haccepted
        · exact (handleFailure_dlq b).trans (by simp only [htrips, hdlq])
  · cases hs

/-! ## The list over a run -/

variable {q : Queue μ} {now : ℚ} {m : μ}

theorem Queue.live_eq (h : q.entries ≠ [] → now < q.expires) : q.live now = q.entries := by
  unfold Queue.live
  split
  · rfl
  · rename_i hexpired
    by_contra hne
    exact hexpired (h (Ne.symm hne))

theorem Queue.length_live_le : (q.live now).length ≤ q.entries.length := by
  unfold Queue.live
  split
  · exact le_rfl
  · exact Nat.zero_le _

/-- Entries that have all been kept have not expired. -/
theorem Queue.lasting (h : q.entries.length ≤ (q.live now).length) (hne : q.entries ≠ []) :
    now < q.expires := by
  by_contra hexpired
  rw [Queue.live, if_neg hexpired] at h
  exact hne (List.length_eq_zero_iff.mp (Nat.le_zero.mp h))

theorem Queue.live_push : (q.push now m).live now = (⟨m, now, 0⟩ :: q.live now).take 1000 := by
  rw [Queue.live, if_pos (by simp [Queue.push])]
  rfl

theorem Queue.push_entries (h : q.entries ≠ [] → now < q.expires)
    (hroom : q.entries.length < 1000) : (q.push now m).entries = ⟨m, now, 0⟩ :: q.entries := by
  rw [Queue.push, Queue.live_eq h]
  exact List.take_of_length_le (by simpa using hroom)

theorem Conserved.length_le (h : Conserved s) : s.failed.length ≤ s.dlq.entries.length := by
  rw [← h.failed.length_eq, List.length_map]
  exact Queue.length_live_le

structure Kept (s : World μ) : Prop where
  lasting : s.dlq.entries ≠ [] → s.clock < s.dlq.expires
  failed : s.dlq.entries.map Entry.message = s.failed
  succeeded : s.succeeded = s.accepted

theorem kept_start (breakers : ℕ → Breaker) (copy : Option (Breaker × ℚ)) :
    Kept (start breakers copy : World μ) :=
  ⟨fun h => absurd rfl h, rfl, rfl⟩

theorem Kept.conserved (h : Kept s) : Conserved s := by
  refine ⟨?_, ?_⟩
  · rw [Queue.live_eq h.lasting, h.failed]
  · rw [h.succeeded]

/-- A message that goes to the list. -/
theorem Kept.push (h : Kept s) (hsaved : s.dlq.entries ≠ [] → now < s.dlq.expires)
    (hroom : s.dlq.entries.length < 1000) (hclock : s'.clock = now)
    (hdlq : s'.dlq = s.dlq.push now m) (hfailed : s'.failed = m :: s.failed)
    (hsucceeded : s'.succeeded = s.succeeded) (haccepted : s'.accepted = s.accepted) : Kept s' := by
  refine ⟨fun _ => ?_, ?_, ?_⟩
  · rw [hclock, hdlq]
    simp [Queue.push]
  · rw [hdlq, Queue.push_entries hsaved hroom, hfailed, List.map_cons, h.failed]
  · rw [hsucceeded, haccepted, h.succeeded]

theorem Kept.step (h : Kept s) (hsaved : Saved acceptedStatus s c)
    (hs : Notifications.step acceptedStatus s c = some s') : Kept s' := by
  obtain ⟨hclock, hends⟩ := step_ends hs
  have hlasting := hsaved.lasting
  cases hends with
  | refused hrefused hfailed hsucceeded haccepted hdlq =>
    obtain ⟨hredis, hroom, -⟩ := hsaved.queued (.inl hrefused)
    rw [endOf, if_pos hrefused] at hclock hlasting
    rw [if_pos hredis] at hdlq
    exact h.push hlasting hroom hclock hdlq hfailed hsucceeded haccepted
  | sent hrefused houtcome hfailed hsucceeded haccepted hdlq =>
    refine ⟨?_, ?_, ?_⟩
    · rw [hdlq, hclock]
      exact hlasting
    · rw [hdlq, hfailed, h.failed]
    · rw [hsucceeded, haccepted, h.succeeded]
  | failed hrefused houtcome hfailed hsucceeded haccepted hdlq =>
    obtain ⟨hredis, hroom, htrips⟩ := hsaved.queued (.inr houtcome)
    rw [endOf, if_neg hrefused] at hclock hlasting
    rw [if_pos ⟨htrips.resolve_left hrefused, hredis⟩] at hdlq
    exact h.push hlasting hroom hclock hdlq hfailed hsucceeded haccepted

/-- A list that is to hold one message more has been written to, was live and had room. -/
theorem Kept.of_push (h : Kept s) (hconserved : Conserved s') (hclock : s'.clock = now)
    (hfailed : s'.failed = m :: s.failed) {p : Prop} [Decidable p]
    (hdlq : s'.dlq = if p then s.dlq.push now m else s.dlq) :
    p ∧ s.dlq.entries.length < 1000 ∧ (s.dlq.entries ≠ [] → now < s.dlq.expires) := by
  have hlength := hconserved.failed.length_eq
  have hsame : s.failed.length = s.dlq.entries.length := by
    rw [← h.failed, List.length_map]
  rw [List.length_map, hfailed, List.length_cons, hsame, hclock] at hlength
  have hle : (s.dlq.live now).length ≤ s.dlq.entries.length := Queue.length_live_le
  by_cases hp : p
  · -- an entry that had expired or was cut off would be missing now
    rw [hdlq, if_pos hp, Queue.live_push, List.length_take, List.length_cons] at hlength
    exact ⟨hp, by omega, Queue.lasting (by omega)⟩
  · rw [hdlq, if_neg hp] at hlength
    omega

theorem Kept.saved (h : Kept s) (hs : Notifications.step acceptedStatus s c = some s')
    (hconserved : Conserved s') : Saved acceptedStatus s c := by
  obtain ⟨hclock, hends⟩ := step_ends hs
  cases hends with
  | refused hrefused hfailed hsucceeded haccepted hdlq =>
    have hend : endOf s c = c.start := if_pos hrefused
    obtain ⟨hredis, hroom, hlasting⟩ := h.of_push hconserved (hclock.trans hend) hfailed hdlq
    exact ⟨hend ▸ hlasting, fun _ => ⟨hredis, hroom, .inl hrefused⟩⟩
  | sent hrefused houtcome hfailed hsucceeded haccepted hdlq =>
    -- the call writes nothing to the list, which must only have lasted until then
    refine ⟨Queue.lasting ?_, ?_⟩
    · have hlength := hconserved.failed.length_eq
      rw [hdlq, hfailed, ← h.failed, List.length_map, List.length_map, hclock] at hlength
      exact hlength.ge
    · rintro (hnot | hnot)
      · exact absurd hnot hrefused
      · exact absurd houtcome hnot
  | failed hrefused houtcome hfailed hsucceeded haccepted hdlq =>
    have hend : endOf s c = c.finish := if_neg hrefused
    obtain ⟨⟨htrips, hredis⟩, hroom, hlasting⟩ :=
      h.of_push hconserved (hclock.trans hend) hfailed hdlq
    exact ⟨hend ▸ hlasting, fun _ => ⟨hredis, hroom, .inr htrips⟩⟩

/-- No message is lost along a run exactly if each call that fails meets a breaker that is open, or
that it opens. -/
theorem along_conserved_iff (acceptedStatus : ℕ) (breakers : ℕ → Breaker)
    (copy : Option (Breaker × ℚ)) (calls : List (Call μ)) :
    Along (step acceptedStatus) Conserved (start breakers copy) calls ↔
      EachStep (step acceptedStatus) (Saved acceptedStatus) (start breakers copy) calls :=
  along_iff_eachStep (I := Kept) (fun _ h => h.conserved)
    (fun _ _ _ h hsaved hs => h.step hsaved hs) (fun _ _ _ h hs hconserved => h.saved hs hconserved)
    (kept_start breakers copy) calls

end

theorem conserved_iff_saved (breakers : ℕ → Breaker) (copy : Option (Breaker × ℚ)) :
    (∀ calls, Along sendEmail Conserved (start breakers copy) calls ↔
      EachStep sendEmail (Saved 200) (start breakers copy) calls) ∧
    ∀ calls, Along sendSms Conserved (start breakers copy) calls ↔
      EachStep sendSms (Saved 201) (start breakers copy) calls :=
  ⟨along_conserved_iff 200 breakers copy, along_conserved_iff 201 breakers copy⟩

/-- The first message of a fresh process, which the provider turns down. -/
def firstFailure {μ : Type} (message : μ) : Call μ := ⟨0, message, true, 10, 11, .response 500⟩

/-- A failed call whose message is not in the list. -/
theorem not_conserved_of_lost {μ : Type} {send : World μ → Call μ → Option (World μ)}
    {s₀ : World μ} {calls : List (Call μ)}
    (hrun : ((run send s₀ calls).map fun s => (s.dlq.entries.length, s.failed.length)) =
      some (0, 1)) : ¬∀ calls s, run send s₀ calls = some s → Conserved s := by
  intro h
  obtain ⟨s, hs, hlengths⟩ := Option.map_eq_some_iff.mp hrun
  obtain ⟨hqueued, hfailed⟩ := Prod.mk.inj hlengths
  have hle := (h _ s hs).length_le
  omega

/-- It is in neither list. -/
theorem not_conserved_firstFailure :
    (¬∀ calls s, run sendEmail (start (fun _ => .initial) none) calls = some s → Conserved s) ∧
      ¬∀ calls s, run sendSms (start (fun _ => .initial) none) calls = some s → Conserved s := by
  constructor
  · have hrun : ((run sendEmail (start (fun _ => .initial) none)
        [firstFailure ⟨"ada@example.com", "Quote", "Your quote is ready.", none⟩]).map fun s =>
          (s.dlq.entries.length, s.failed.length)) = some (0, 1) := by
      decide
    exact not_conserved_of_lost hrun
  · have hrun : ((run sendSms (start (fun _ => .initial) none)
        [firstFailure ⟨"+15550100", "Your quote is ready.", none⟩]).map fun s =>
          (s.dlq.entries.length, s.failed.length)) = some (0, 1) := by
      decide
    exact not_conserved_of_lost hrun

end WorkTicket.Notifications
