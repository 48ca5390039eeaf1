import WorkTicket.Billing.StripeWebhook
import WorkTicket.Foundation.Transition

/-! All deliveries of one Stripe event. A delivery that is rolled back takes its row in
`stripe_webhook_events` back, but not the Redis key it has set. -/

namespace WorkTicket.Billing.WebhookDelivery

open WorkTicket.Billing.StripeWebhook WorkTicket.Fallible WorkTicket.Transition

structure Delivered where
  answer : Answer
  before : Db
  after : Db

/-- The stores and the deliveries so far, the last one first. -/
structure State where
  stores : Stores
  history : List Delivered

variable (digest : Json → Json → String) (event : Json)

def delivery (s : State) (env : Env) : Delivered :=
  let out := deliver digest env event s.stores
  ⟨out.1, s.stores.db, out.2.db⟩

def step (s : State) (env : Env) : Option State :=
  some ⟨(deliver digest env event s.stores).2, delivery digest event s env :: s.history⟩

def start (stores : Stores) : State := ⟨stores, []⟩

def Delivered.applied (d : Delivered) : Bool := d.answer = .received false

def answered (history : List Delivered) : Bool := history.any fun d => d.answer.isSuccess

def NoLateChange : List Delivered → Prop
  | [] => True
  | d :: earlier => (answered earlier = true → SameRows d.before d.after) ∧ NoLateChange earlier

/-- The delivery would commit the effect if neither store knew the event. -/
def WouldApply (s : State) (env : Env) : Bool :=
  match verifiedKey digest env event with
  | .error _ => false
  | .ok (id, eventType) =>
    (applyEvent env eventType event (s.stores.db.recordEvent id)).toBool && env.commitOk

/-- The effect is committed once as soon as a delivery is answered with success, later
ones change nothing, and as long as all were answered with errors the effect can still
be applied. -/
structure ExactlyOnce (s : State) : Prop where
  once : answered s.history = true → s.history.countP Delivered.applied = 1
  noLateChange : NoLateChange s.history
  open_ : answered s.history = false → ∀ env, WouldApply digest event s env = true →
    (deliver digest env event s.stores).1 = .received false

/-- The delivery does not fail after it has set the Redis key: it does not reach Redis,
or it gets the advisory lock, its handler accepts the event and its commit holds. -/
def KeepsKeyHonest (s : State) (env : Env) : Bool :=
  match verifiedKey digest env event with
  | .error _ => true
  | .ok (id, _) => id ∈ s.stores.db.events || env.redis = .unavailable || WouldApply digest event s env

def Unknown (stores : Stores) : Prop :=
  ∀ id eventType, eventKey digest event = .ok (id, eventType) →
    id ∉ stores.db.events ∧ id ∉ stores.redisKeys

/-! ## One delivery -/

section
variable {digest event}

theorem verifiedKey_eq_ok {env : Env} {key : String × String}
    (h : verifiedKey digest env event = .ok key) : eventKey digest event = .ok key := by
  unfold verifiedKey at h
  split at h
  · cases h
  · simp only [bind_eq_ok] at h
    obtain ⟨created, -, time, -, -, -, key', hkey, -, -, h⟩ := h
    obtain rfl := Except.ok.inj h
    exact hkey

theorem mem_liveKeys {env : Env} {id i : String} {keys : List String}
    (h : i ∈ liveKeys env id keys) : i ∈ keys := by
  unfold liveKeys at h
  split at h
  · exact List.mem_of_mem_filter h
  · exact h

variable {s : State} {env : Env} {id eventType : String}

theorem deliver_new (hverified : verifiedKey digest env event = .ok (id, eventType))
    (hevents : id ∉ s.stores.db.events) (hkeys : id ∉ s.stores.redisKeys) :
    let db := applyEvent env eventType event (s.stores.db.recordEvent id)
    processWebhook digest env event s.stores =
      (db.map fun db => (false, db), (redisDedup env.redis id (liveKeys env id s.stores.redisKeys)).2) := by
  intro db
  have hlive : id ∉ liveKeys env id s.stores.redisKeys := fun h => hkeys (mem_liveKeys h)
  have hmiss : (redisDedup env.redis id (liveKeys env id s.stores.redisKeys)).1 = false := by
    cases env.redis <;> simp [redisDedup, hlive]
  simp only [processWebhook, hverified, if_neg hevents, hmiss, Bool.false_eq_true, if_false]
  rfl

/-- An event that is recorded is not applied again. -/
theorem deliver_recorded (hkey : eventKey digest event = .ok (id, eventType))
    (hevents : id ∈ s.stores.db.events) :
    (deliver digest env event s.stores).1 ≠ .received false ∧
      (deliver digest env event s.stores).2.db = s.stores.db := by
  cases hverified : verifiedKey digest env event with
  | error f =>
    simp only [deliver, processWebhook, hverified]
    cases f <;> exact ⟨fun h => (by cases h), rfl⟩
  | ok key =>
    obtain rfl := Except.ok.inj (hkey.symm.trans (verifiedKey_eq_ok hverified))
    simp only [deliver, processWebhook, hverified, if_pos hevents]
    cases env.commitOk <;> exact ⟨fun h => (by cases h), rfl⟩

theorem deliver_wouldApply (hkey : eventKey digest event = .ok (id, eventType))
    (hevents : id ∉ s.stores.db.events) (hkeys : id ∉ s.stores.redisKeys)
    (h : WouldApply digest event s env = true) :
    (deliver digest env event s.stores).1 = .received false ∧
      id ∈ (deliver digest env event s.stores).2.db.events := by
  cases hverified : verifiedKey digest env event with
  | error f => simp [WouldApply, hverified] at h
  | ok key =>
    obtain rfl := Except.ok.inj (hkey.symm.trans (verifiedKey_eq_ok hverified))
    simp only [WouldApply, hverified, Bool.and_eq_true] at h
    cases hdb : applyEvent env eventType event (s.stores.db.recordEvent id) with
    | error f => simp [hdb, Except.toBool] at h
    | ok db =>
      have hrun := deliver_new hverified hevents hkeys
      simp only [hdb, Except.map] at hrun
      obtain ⟨-, -, hhandle⟩ := bind_eq_ok.mp hdb
      have hrecorded : id ∈ db.events := by
        rw [(handleEvent_handled hhandle).events]
        exact List.mem_cons_self
      simp only [deliver, hrun, h.2, if_true]
      exact ⟨trivial, hrecorded⟩

/-- A delivery that fails without having set the key leaves both stores as they were. -/
theorem deliver_notApplied (hkey : eventKey digest event = .ok (id, eventType))
    (hevents : id ∉ s.stores.db.events) (hkeys : id ∉ s.stores.redisKeys)
    (hok : KeepsKeyHonest digest event s env = true) (h : WouldApply digest event s env = false) :
    (deliver digest env event s.stores).1.isSuccess = false ∧
      (deliver digest env event s.stores).2.db = s.stores.db ∧
      id ∉ (deliver digest env event s.stores).2.redisKeys := by
  cases hverified : verifiedKey digest env event with
  | error f =>
    simp only [deliver, processWebhook, hverified]
    cases f <;> exact ⟨rfl, rfl, hkeys⟩
  | ok key =>
    obtain rfl := Except.ok.inj (hkey.symm.trans (verifiedKey_eq_ok hverified))
    have hredis : env.redis = .unavailable := by
      simpa [KeepsKeyHonest, hverified, hevents, h] using hok
    have hlive : id ∉ liveKeys env id s.stores.redisKeys := fun h => hkeys (mem_liveKeys h)
    have hrun := deliver_new hverified hevents hkeys
    cases hdb : applyEvent env eventType event (s.stores.db.recordEvent id) with
    | error f =>
      simp only [hdb, Except.map, hredis, redisDedup] at hrun
      simp only [deliver, hrun]
      cases f <;> exact ⟨rfl, rfl, hlive⟩
    | ok db =>
      have hcommit : env.commitOk = false := by
        simpa [WouldApply, hverified, hdb, Except.toBool] using h
      simp only [hdb, Except.map, hredis, redisDedup] at hrun
      simp only [deliver, hrun, hcommit, Bool.false_eq_true, if_false]
      exact ⟨rfl, trivial, hlive⟩

theorem deliver_keyless {f : Failure} (hkey : eventKey digest event = .error f) :
    (deliver digest env event s.stores).1.isSuccess = false ∧
      WouldApply digest event s env = false := by
  cases hverified : verifiedKey digest env event with
  | error f =>
    refine ⟨?_, by simp [WouldApply, hverified]⟩
    simp only [deliver, processWebhook, hverified]
    cases f <;> rfl
  | ok key => cases hkey.symm.trans (verifiedKey_eq_ok hverified)

end

/-! ## All deliveries -/

/-- The event is recorded when a delivery was answered with success, Redis knows it only
then, and it was applied once. -/
structure Inv (s : State) : Prop where
  recorded : ∀ id eventType, eventKey digest event = .ok (id, eventType) →
    (answered s.history = true ↔ id ∈ s.stores.db.events) ∧
      (id ∈ s.stores.redisKeys → id ∈ s.stores.db.events)
  keyless : ∀ f, eventKey digest event = .error f → answered s.history = false
  count : s.history.countP Delivered.applied = if answered s.history then 1 else 0
  noLateChange : NoLateChange s.history

theorem inv_start {stores : Stores} (h : Unknown digest event stores) :
    Inv digest event (start stores) where
  recorded := fun id eventType hkey =>
    ⟨⟨fun ha => (by cases ha), fun hm => absurd hm (h id eventType hkey).1⟩,
      fun hm => absurd hm (h id eventType hkey).2⟩
  keyless := fun _ _ => rfl
  count := rfl
  noLateChange := trivial

section
variable {digest event}

theorem Delivered.not_applied {d : Delivered} (h : d.answer.isSuccess = false) :
    d.applied = false := by
  unfold Delivered.applied
  cases ha : d.answer with
  | received deduplicated => simp [ha, Answer.isSuccess] at h
  | error status detail => rfl

theorem history_failed {d : Delivered} (h : d.answer.isSuccess = false)
    (earlier : List Delivered) :
    answered (d :: earlier) = answered earlier ∧
      (d :: earlier).countP Delivered.applied = earlier.countP Delivered.applied := by
  refine ⟨by simp [answered, h], ?_⟩
  rw [List.countP_cons, Delivered.not_applied h]
  rfl

theorem inv_step {s s' : State} {env : Env} (h : Inv digest event s)
    (hok : KeepsKeyHonest digest event s env = true) (hs : step digest event s env = some s') :
    Inv digest event s' := by
  obtain rfl := Option.some.inj hs
  cases hkey : eventKey digest event with
  | error f =>
    have hfail : (delivery digest event s env).answer.isSuccess = false := (deliver_keyless hkey).1
    obtain ⟨hsame, hcount⟩ := history_failed hfail s.history
    have hearlier := h.keyless f hkey
    refine ⟨fun id eventType he => ?_, fun _ _ => hsame.trans hearlier, ?_, ?_, h.noLateChange⟩
    · cases hkey.symm.trans he
    · rw [hcount, hsame, h.count]
    · exact fun ha => by simp [hearlier] at ha
  | ok key =>
    obtain ⟨id, eventType⟩ := key
    obtain ⟨hiff, hkeys⟩ := h.recorded id eventType hkey
    by_cases hevents : id ∈ s.stores.db.events
    · -- the event was applied before: this delivery is a duplicate or an error
      obtain ⟨hanswer, hdb⟩ : (deliver digest env event s.stores).1 ≠ .received false ∧
        (deliver digest env event s.stores).2.db = s.stores.db := deliver_recorded hkey hevents
      have hearlier : answered s.history = true := hiff.mpr hevents
      have hall : answered (delivery digest event s env :: s.history) = true := by
        rw [answered, List.any_cons, ← answered, hearlier, Bool.or_true]
      have hrecorded : id ∈ (deliver digest env event s.stores).2.db.events := hdb ▸ hevents
      have hnot : (delivery digest event s env).applied = false :=
        decide_eq_false hanswer
      refine ⟨fun i t he => ?_, fun f he => ?_, ?_, fun _ => ?_, h.noLateChange⟩
      · obtain ⟨rfl, rfl⟩ := Prod.mk.inj (Except.ok.inj (hkey.symm.trans he))
        exact ⟨iff_of_true hall hrecorded, fun _ => hrecorded⟩
      · cases hkey.symm.trans he
      · rw [hall, List.countP_cons, hnot, h.count, hearlier]
        rfl
      · exact ⟨congrArg Db.companies hdb, congrArg Db.accounts hdb⟩
    · have hnew : id ∉ s.stores.redisKeys := fun hm => hevents (hkeys hm)
      have hearlier : answered s.history = false := by simpa [hevents] using hiff
      have hlate : answered s.history = true → SameRows s.stores.db
          (deliver digest env event s.stores).2.db := fun ha => by simp [hearlier] at ha
      cases happly : WouldApply digest event s env with
      | true =>
        obtain ⟨hanswer, hrecorded⟩ := deliver_wouldApply hkey hevents hnew happly
        have happlied : (delivery digest event s env).applied = true := decide_eq_true hanswer
        have hall : answered (delivery digest event s env :: s.history) = true := by
          simp [answered, delivery, hanswer, Answer.isSuccess]
        refine ⟨fun i t he => ?_, fun f he => ?_, ?_, hlate, h.noLateChange⟩
        · obtain ⟨rfl, rfl⟩ := Prod.mk.inj (Except.ok.inj (hkey.symm.trans he))
          exact ⟨iff_of_true hall hrecorded, fun _ => hrecorded⟩
        · cases hkey.symm.trans he
        · rw [hall, List.countP_cons, happlied, h.count, hearlier]
          rfl
      | false =>
        obtain ⟨hanswer, hdb, hkeys'⟩ := deliver_notApplied hkey hevents hnew hok happly
        have hfail : (delivery digest event s env).answer.isSuccess = false := hanswer
        obtain ⟨hsame, hcount⟩ := history_failed hfail s.history
        have hunrecorded : id ∉ (deliver digest env event s.stores).2.db.events := hdb ▸ hevents
        refine ⟨fun i t he => ?_, fun f he => ?_, ?_, hlate, h.noLateChange⟩
        · obtain ⟨rfl, rfl⟩ := Prod.mk.inj (Except.ok.inj (hkey.symm.trans he))
          refine ⟨?_, fun hm => absurd hm hkeys'⟩
          rw [hsame, hearlier]
          exact iff_of_false Bool.false_ne_true hunrecorded
        · cases hkey.symm.trans he
        · rw [hcount, hsame, h.count]

theorem Inv.toExactlyOnce {s : State} (h : Inv digest event s) : ExactlyOnce digest event s where
  once := fun ha => by rw [h.count, if_pos ha]
  noLateChange := h.noLateChange
  open_ := by
    intro ha env happly
    cases hkey : eventKey digest event with
    | error f => simp [(deliver_keyless hkey).2] at happly
    | ok key =>
      obtain ⟨hiff, hkeys⟩ := h.recorded key.1 key.2 hkey
      have hevents : key.1 ∉ s.stores.db.events := fun hm => by simp [hiff.mpr hm] at ha
      exact (deliver_wouldApply hkey hevents (fun hm => hevents (hkeys hm)) happly).1

/-- In every run whose deliveries do not fail after they have set the Redis key, the
event is applied exactly once. -/
theorem exactlyOnce {stores : Stores} {s : State} (hnew : Unknown digest event stores)
    (h : ReachedBy (step digest event) (fun s env => KeepsKeyHonest digest event s env)
      (start stores) s) : ExactlyOnce digest event s :=
  (h.invariant (inv_start digest event hnew) fun _ _ _ hi hok hs => inv_step hi hok hs).toExactlyOnce

end

/-! ## A failed payment of one customer -/

def paymentFailed : Json :=
  .obj [("id", .str "evt_1"), ("type", .str "invoice.payment_failed"), ("created", .num 1000),
    ("data", .obj [("object", .obj [("customer", .str "cus_1")])])]

def noDigest (_ _ : Json) : String := ""

def customer : Stores where
  db := ⟨[⟨7, "pro", "cus_1", "sub_1"⟩],
    fun c => if c = 7 then some (newAccount 0 7 "pro") else none, []⟩
  redisKeys := []

def handlerEnv : HandlerEnv := ⟨1010, true, fun _ => none, false, true, true⟩

def allWell : Env := ⟨none, 600, true, false, .answers, true, handlerEnv, true⟩

theorem unknown_customer : Unknown noDigest paymentFailed customer :=
  fun _ _ _ => ⟨List.not_mem_nil, List.not_mem_nil⟩

/-- A delivery without Redis whose commit fails, then two that go well. -/
def retried : List Env := [{ allWell with redis := .unavailable, commitOk := false }, allWell, allWell]

theorem exactlyOnce_retried :
    ExactlyOnce noDigest paymentFailed ((runWhile (step noDigest paymentFailed)
      (fun s env => KeepsKeyHonest noDigest paymentFailed s env) (start customer) retried).get
        (by decide +kernel)) :=
  exactlyOnce unknown_customer (ReachedBy.of_runWhile (Option.some_get _).symm)

def afterLostDelivery : State :=
  (run (step noDigest paymentFailed) (start customer)
    [{ allWell with commitOk := false }, allWell]).get (by decide)

/-- The commit of the first delivery fails; the second finds the Redis key and is answered
with success, and no delivery has disabled the company's AI. -/
theorem lostDelivery_not_exactlyOnce :
    Unknown noDigest paymentFailed customer ∧
      Reached (step noDigest paymentFailed) (start customer) afterLostDelivery ∧
      ¬ ExactlyOnce noDigest paymentFailed afterLostDelivery := by
  refine ⟨unknown_customer, Reached.of_run (Option.some_get _).symm, fun h => ?_⟩
  have hanswered : answered afterLostDelivery.history = true := by decide +kernel
  have hnever : afterLostDelivery.history.countP Delivered.applied = 0 := by decide +kernel
  exact absurd (h.once hanswered) (by rw [hnever]; decide)

end WorkTicket.Billing.WebhookDelivery
