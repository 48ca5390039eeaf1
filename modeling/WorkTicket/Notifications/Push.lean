import WorkTicket.Foundation.CappedLog
import WorkTicket.Foundation.Json
import WorkTicket.Foundation.Transition

/-! The push notifications of one process that has no Redis. Its sends overlap: what one does before
the request to the provider and what it does after it are two steps. -/

namespace WorkTicket.Notifications.Push

open WorkTicket.Transition CappedLog

/-! ## The provider's answer -/

inductive DeliveryStatus
  | unknown
  | rateLimited
  | sent
  | error (message : Json)
  | exception (text : String)
  deriving DecidableEq

/-- What a send returns: whether the provider took the message, or `"remove_token"`. -/
inductive Result
  | taken (ok : Bool)
  | removeToken
  deriving DecidableEq

/-- `message[:50]`, of a text or a list. -/
def firstFifty : Json → Option Json
  | .str s => some (.str (String.ofList (s.toList.take 50)))
  | .arr items => some (.arr (items.take 50))
  | _ => none

def deviceNotRegistered : String := "DeviceNotRegistered"

/-- `"DeviceNotRegistered" in message`, of a text or a list. -/
def notRegistered : Json → Option Bool
  | .str s => some (deviceNotRegistered.toList <:+: s.toList)
  | .arr items => some (items.any (· = .str deviceNotRegistered))
  | _ => none

/-- The loop over the tickets, which is left at a device that is not registered. -/
def readTickets (statusCode : ℕ) : List Json → DeliveryStatus → Json →
    Option (Result × DeliveryStatus × Json)
  | [], deliveryStatus, pushId => some (.taken (statusCode = 200), deliveryStatus, pushId)
  | ticket :: tickets, deliveryStatus, _ => do
    let status ← ticket.get "status" .null
    let pushId ← ticket.get "id" .null
    if status = .str "error" then do
      let message ← ticket.get "message" (.str "")
      let cut ← firstFifty message
      if ← notRegistered message then some (.removeToken, .error cut, pushId)
      else readTickets statusCode tickets (.error cut) pushId
    else if status = .str "ok" then readTickets statusCode tickets .sent pushId
    else readTickets statusCode tickets deliveryStatus pushId

/-- What follows from the answer, or nothing if reading it raises. -/
def readReply (statusCode : ℕ) (body : Option Json) : Option (Result × DeliveryStatus × Json) :=
  if statusCode = 429 then some (.taken false, .rateLimited, .null)
  else do
    let result ← body
    match ← result.get "data" .null with
    | .arr tickets => readTickets statusCode tickets .unknown .null
    | _ => some (.taken (statusCode = 200), .unknown, .null)

/-! ## The service -/

structure Message where
  token : String
  title : String
  companyId : Option String
  deriving DecidableEq

structure Delivery where
  tokenPrefix : String
  title : String
  status : DeliveryStatus
  pushId : Json
  sentAt : ℚ
  companyId : Option String
  deriving DecidableEq

/-- The answer of the provider, unless the token cannot be read or the request raises, and the text
of what is raised in the end, if anything is. -/
structure Attempt where
  reply : Option (ℕ × Option Json)
  raised : String

def Attempt.outcome (a : Attempt) : Option (Result × DeliveryStatus × Json) :=
  a.reply.bind fun r => readReply r.1 r.2

def circuitThreshold : ℕ := 3

def circuitCooldownBase : ℚ := 30

def circuitCooldownMax : ℚ := 600

/-- The variables `_push_circuit_*` and `_delivery_log`. -/
structure Service where
  circuitOpen : Bool
  failures : ℕ
  lastFailure : ℚ
  cooldown : ℚ
  deliveryLog : List Delivery

def Service.initial : Service := ⟨false, 0, 0, circuitCooldownBase, []⟩

section
variable (s : Service) (now : ℚ)

/-- What a send does first: whether it goes on. -/
def Service.begin : Bool × Service :=
  if s.circuitOpen then
    if now - s.lastFailure < s.cooldown then (false, s)
    else (true, { s with circuitOpen := false, failures := 0 })
  else (true, s)

/-- `_log_delivery`. -/
def Service.logDelivery (d : Delivery) : Service :=
  { s with deliveryLog := record 100 50 s.deliveryLog d }

/-- The failure trips the breaker, also one that is open. -/
def Service.trips : Bool := circuitThreshold ≤ s.failures + 1

def Service.fail : Service :=
  if s.trips then
    { s with
      circuitOpen := true
      failures := s.failures + 1
      lastFailure := now
      cooldown := min (s.cooldown * 2) circuitCooldownMax }
  else { s with failures := s.failures + 1 }

def delivery (m : Message) (status : DeliveryStatus) (pushId : Json) (sentAt : ℚ) : Delivery :=
  ⟨String.ofList (m.token.toList.take 8), m.title, status, pushId, sentAt, m.companyId⟩

/-- The entry that a send writes when it ends. -/
def deliveryOf (m : Message) (sentAt : ℚ) (a : Attempt) : Delivery :=
  match a.outcome with
  | some (_, status, pushId) => delivery m status pushId sentAt
  | none => delivery m (.exception (String.ofList (a.raised.toList.take 50))) .null now

/-- What a send does when it has the answer. -/
def Service.finish (m : Message) (sentAt : ℚ) (a : Attempt) : Result × Service :=
  match a.outcome with
  | some (result, _, _) => (result, s.logDelivery (deliveryOf now m sentAt a))
  | none => (.taken false, (s.fail now).logDelivery (deliveryOf now m sentAt a))

/-- `get_delivery_log`. -/
def Service.getDeliveryLog (limit : ℕ) : Option String → List Delivery
  | none => lastOf limit s.deliveryLog
  | some companyId => lastOf limit (s.deliveryLog.filter (·.companyId = some companyId))

end

/-! ## Overlapping sends -/

/-- The service beside what an observer notes: when the breaker was tripped, when each request was
made and how often the breaker had been tripped by then, how many sends raised, and all
deliveries. -/
structure World where
  service : Service
  clock : ℚ
  flying : List (Message × ℚ)
  trips : List ℚ
  starts : List (ℚ × ℕ)
  raised : ℕ
  deliveries : List Delivery

def start (clock : ℚ) : World := ⟨.initial, clock, [], [], [], 0, []⟩

inductive Event
  | begun (now : ℚ) (m : Message)
  | finished (now : ℚ) (m : Message) (sentAt : ℚ) (a : Attempt)

def begun (now : ℚ) (m : Message) (w : World) : World :=
  let (goesOn, service) := w.service.begin now
  if goesOn then
    { w with
      service := service, clock := now, flying := (m, now) :: w.flying
      starts := w.starts ++ [(now, w.trips.length)] }
  else { w with service := service, clock := now }

def finished (now : ℚ) (m : Message) (sentAt : ℚ) (a : Attempt) (w : World) : World :=
  { w with
    service := (w.service.finish now m sentAt a).2, clock := now
    flying := w.flying.erase (m, sentAt)
    trips := if a.outcome.isNone && w.service.trips then w.trips ++ [now] else w.trips
    raised := if a.outcome.isNone then w.raised + 1 else w.raised
    deliveries := w.deliveries ++ [deliveryOf now m sentAt a] }

def step (w : World) : Event → Option World
  | .begun now m => if now < w.clock then none else some (begun now m w)
  | .finished now m sentAt a =>
    if now < w.clock ∨ (m, sentAt) ∉ w.flying then none else some (finished now m sentAt a w)

/-! ## The breaker -/

/-- The cooldown after so many trips. It is never reset. -/
def pause (trips : ℕ) : ℚ := min (circuitCooldownBase * 2 ^ trips) circuitCooldownMax

/-- The time is past the pauses after the first trips. -/
def Past (trips : List ℚ) (n : ℕ) (t : ℚ) : Prop :=
  ∀ i < n, ∀ s, trips[i]? = some s → s + pause (i + 1) ≤ t

/-- Each request is made after the pauses of the trips before it, and of three failures one trips
the breaker, whatever is sent in between. -/
structure Spaced (w : World) : Prop where
  starts : ∀ r ∈ w.starts, Past w.trips r.2 r.1
  raised : w.raised ≤ 3 * w.trips.length + 2

/-- How the breaker stands to its past. -/
structure Faithful (w : World) : Prop where
  cooldown : w.service.cooldown = pause w.trips.length
  past : ∀ s ∈ w.trips, s ≤ w.clock
  counted : ∀ r ∈ w.starts, r.2 ≤ w.trips.length
  starts : ∀ r ∈ w.starts, Past w.trips r.2 r.1
  opened : w.service.circuitOpen = true →
    Past w.trips w.trips.length (w.service.lastFailure + w.service.cooldown) ∧
      circuitThreshold ≤ w.service.failures ∧ w.raised ≤ 3 * w.trips.length
  closed : w.service.circuitOpen = false → Past w.trips w.trips.length w.clock ∧
    w.service.failures < circuitThreshold ∧ w.raised ≤ 3 * w.trips.length + w.service.failures

theorem pause_succ (n : ℕ) : min (pause n * 2) circuitCooldownMax = pause (n + 1) := by
  unfold pause circuitCooldownBase circuitCooldownMax
  rcases le_total (30 * 2 ^ n : ℚ) 600 with h | h
  · rw [min_eq_left h, pow_succ, mul_assoc]
  · rw [min_eq_right h, min_eq_right (by norm_num), min_eq_right]
    calc (600 : ℚ) ≤ 30 * 2 ^ n := h
      _ ≤ 30 * 2 ^ (n + 1) := by gcongr <;> norm_num

theorem pause_mono {m n : ℕ} (h : m ≤ n) : pause m ≤ pause n := by
  unfold pause circuitCooldownBase
  gcongr
  norm_num

section
variable {w w' : World} {e : Event} {trips : List ℚ} {n : ℕ} {t t' now sentAt : ℚ} {m : Message}
  {a : Attempt}

theorem Past.later (h : Past trips n t) (ht : t ≤ t') : Past trips n t' :=
  fun i hi s hs => (h i hi s hs).trans ht

theorem Past.append (h : Past trips n t) (hn : n ≤ trips.length) (s : ℚ) :
    Past (trips ++ [s]) n t := by
  intro i hi s' hs'
  rw [List.getElem?_append_left (hi.trans_le hn)] at hs'
  exact h i hi s' hs'

/-- The pause after a new trip is past all those before it. -/
theorem past_trip (h : ∀ s ∈ trips, s ≤ now) :
    Past (trips ++ [now]) (trips ++ [now]).length (now + pause (trips ++ [now]).length) := by
  intro i hi s hs
  have hle : ∀ s ∈ trips ++ [now], s ≤ now := by
    intro s hs
    rcases List.mem_append.mp hs with hs | hs
    · exact h s hs
    · exact (List.mem_singleton.mp hs).le
  exact add_le_add (hle s (List.mem_of_getElem? hs)) (pause_mono hi)

theorem faithful_start (clock : ℚ) : Faithful (start clock) where
  cooldown := by norm_num [start, Service.initial, pause, circuitCooldownBase, circuitCooldownMax]
  past _ hs := absurd hs List.not_mem_nil
  counted _ hr := absurd hr List.not_mem_nil
  starts _ hr := absurd hr List.not_mem_nil
  opened h := absurd h Bool.false_ne_true
  closed _ := ⟨fun i hi => absurd hi i.not_lt_zero, Nat.zero_lt_succ 2, le_rfl⟩

theorem begun_refused (hopen : w.service.circuitOpen = true)
    (hcools : now - w.service.lastFailure < w.service.cooldown) :
    begun now m w = { w with clock := now } := by
  simp only [begun, Service.begin, if_pos hopen, if_pos hcools, Bool.false_eq_true, if_false]

theorem begun_again (hopen : w.service.circuitOpen = true)
    (hcools : ¬now - w.service.lastFailure < w.service.cooldown) :
    begun now m w = { w with
      service := { w.service with circuitOpen := false, failures := 0 }
      clock := now, flying := (m, now) :: w.flying
      starts := w.starts ++ [(now, w.trips.length)] } := by
  simp only [begun, Service.begin, if_pos hopen, if_neg hcools, if_true]

theorem begun_closed (hclosed : w.service.circuitOpen = false) :
    begun now m w = { w with
      clock := now, flying := (m, now) :: w.flying
      starts := w.starts ++ [(now, w.trips.length)] } := by
  simp only [begun, Service.begin, hclosed, Bool.false_eq_true, if_false, if_true]

theorem faithful_begun (h : Faithful w) (hnow : w.clock ≤ now) : Faithful (begun now m w) := by
  have hpast : ∀ s ∈ w.trips, s ≤ now := fun s hs => (h.past s hs).trans hnow
  have hstarts : Past w.trips w.trips.length now → ∀ r ∈ w.starts ++ [(now, w.trips.length)],
      r.2 ≤ w.trips.length ∧ Past w.trips r.2 r.1 := by
    intro hready r hr
    rcases List.mem_append.mp hr with hr | hr
    · exact ⟨h.counted r hr, h.starts r hr⟩
    · obtain rfl := List.mem_singleton.mp hr
      exact ⟨le_rfl, hready⟩
  cases hcircuit : w.service.circuitOpen with
  | false =>
    obtain ⟨hready, hfew, hraised⟩ := h.closed hcircuit
    have hready := hready.later hnow
    rw [begun_closed hcircuit]
    exact ⟨h.cooldown, hpast, fun r hr => (hstarts hready r hr).1,
      fun r hr => (hstarts hready r hr).2, h.opened, fun _ => ⟨hready, hfew, hraised⟩⟩
  | true =>
    obtain ⟨hready, hmany, hraised⟩ := h.opened hcircuit
    by_cases hcools : now - w.service.lastFailure < w.service.cooldown
    · rw [begun_refused hcircuit hcools]
      exact ⟨h.cooldown, hpast, h.counted, h.starts, h.opened,
        fun hclosed => absurd (hcircuit.symm.trans hclosed) Bool.noConfusion⟩
    · have hready := hready.later (show w.service.lastFailure + w.service.cooldown ≤ now by linarith)
      rw [begun_again hcircuit hcools]
      exact ⟨h.cooldown, hpast, fun r hr => (hstarts hready r hr).1,
        fun r hr => (hstarts hready r hr).2, fun hopened => absurd hopened Bool.noConfusion,
        fun _ => ⟨hready, Nat.zero_lt_succ 2, hraised⟩⟩

theorem finished_read {r : Result × DeliveryStatus × Json} (h : a.outcome = some r) :
    finished now m sentAt a w = { w with
      service := w.service.logDelivery (deliveryOf now m sentAt a), clock := now
      flying := w.flying.erase (m, sentAt)
      deliveries := w.deliveries ++ [deliveryOf now m sentAt a] } := by
  simp only [finished, Service.finish, h, Option.isNone_some, Bool.false_and, Bool.false_eq_true,
    if_false]

theorem finished_counted (h : a.outcome = none) (htrips : w.service.trips = false) :
    finished now m sentAt a w = { w with
      service := { w.service with failures := w.service.failures + 1 }.logDelivery
        (deliveryOf now m sentAt a)
      clock := now, flying := w.flying.erase (m, sentAt), raised := w.raised + 1
      deliveries := w.deliveries ++ [deliveryOf now m sentAt a] } := by
  simp only [finished, Service.finish, Service.fail, h, htrips, Option.isNone_none, Bool.and_false,
    Bool.false_eq_true, if_false, if_true]

theorem finished_tripped (h : a.outcome = none) (htrips : w.service.trips = true) :
    finished now m sentAt a w = { w with
      service := { w.service with
        circuitOpen := true, failures := w.service.failures + 1, lastFailure := now
        cooldown := min (w.service.cooldown * 2) circuitCooldownMax }.logDelivery
          (deliveryOf now m sentAt a)
      clock := now, flying := w.flying.erase (m, sentAt), trips := w.trips ++ [now]
      raised := w.raised + 1
      deliveries := w.deliveries ++ [deliveryOf now m sentAt a] } := by
  simp only [finished, Service.finish, Service.fail, h, htrips, Option.isNone_none, Bool.and_self,
    if_true]

theorem faithful_finished (h : Faithful w) (hnow : w.clock ≤ now) :
    Faithful (finished now m sentAt a w) := by
  have hpast : ∀ s ∈ w.trips, s ≤ now := fun s hs => (h.past s hs).trans hnow
  cases houtcome : a.outcome with
  | some r =>
    rw [finished_read houtcome]
    refine ⟨h.cooldown, hpast, h.counted, h.starts, h.opened, fun hclosed => ?_⟩
    obtain ⟨hready, hfew, hraised⟩ := h.closed hclosed
    exact ⟨hready.later hnow, hfew, hraised⟩
  | none =>
    cases htrips : w.service.trips with
    | false =>
      have hfew : w.service.failures + 1 < circuitThreshold :=
        not_le.mp (of_decide_eq_false htrips)
      rw [finished_counted houtcome htrips]
      refine ⟨h.cooldown, hpast, h.counted, h.starts, fun hopened => ?_, fun hclosed => ?_⟩
      · have hmany := (h.opened hopened).2.1
        omega
      · obtain ⟨hready, -, hraised⟩ := h.closed hclosed
        exact ⟨hready.later hnow, hfew, by dsimp only [Service.logDelivery]; omega⟩
    | true =>
      have hlength : (w.trips ++ [now]).length = w.trips.length + 1 := by
        rw [List.length_append, List.length_singleton]
      have hcooldown : min (w.service.cooldown * 2) circuitCooldownMax =
          pause (w.trips ++ [now]).length := by
        rw [h.cooldown, pause_succ, hlength]
      have hraised : w.raised + 1 ≤ 3 * (w.trips.length + 1) := by
        cases hcircuit : w.service.circuitOpen with
        | false =>
          obtain ⟨-, hfew, hraised⟩ := h.closed hcircuit
          unfold circuitThreshold at hfew
          omega
        | true =>
          obtain ⟨-, -, hraised⟩ := h.opened hcircuit
          omega
      rw [finished_tripped houtcome htrips]
      refine ⟨hcooldown, ?_, fun r hr => ?_, fun r hr => ?_, fun _ => ⟨?_, ?_, ?_⟩,
        fun hclosed => absurd hclosed Bool.noConfusion⟩
      · intro s hs
        rcases List.mem_append.mp hs with hs | hs
        · exact hpast s hs
        · exact (List.mem_singleton.mp hs).le
      · exact (h.counted r hr).trans (hlength ▸ Nat.le_succ _)
      · exact (h.starts r hr).append (h.counted r hr) now
      · dsimp only [Service.logDelivery]
        rw [hcooldown]
        exact past_trip hpast
      · exact of_decide_eq_true htrips
      · dsimp only
        rwa [hlength]

theorem step_eq (hs : step w e = some w') :
    (∃ now m, w.clock ≤ now ∧ w' = begun now m w) ∨
      ∃ now m sentAt a, w.clock ≤ now ∧ w' = finished now m sentAt a w := by
  cases e with
  | begun now m =>
    obtain ⟨hnow, rfl⟩ : ¬now < w.clock ∧ begun now m w = w' := by simpa [step] using hs
    exact .inl ⟨now, m, not_lt.mp hnow, rfl⟩
  | finished now m sentAt a =>
    obtain ⟨⟨hnow, -⟩, rfl⟩ : (w.clock ≤ now ∧ (m, sentAt) ∈ w.flying) ∧
        finished now m sentAt a w = w' := by simpa [step] using hs
    exact .inr ⟨now, m, sentAt, a, hnow, rfl⟩

theorem faithful_step (h : Faithful w) (hs : step w e = some w') : Faithful w' := by
  rcases step_eq hs with ⟨now, m, hnow, rfl⟩ | ⟨now, m, sentAt, a, hnow, rfl⟩
  · exact faithful_begun h hnow
  · exact faithful_finished h hnow

theorem Faithful.spaced (h : Faithful w) : Spaced w := by
  refine ⟨h.starts, ?_⟩
  cases hcircuit : w.service.circuitOpen with
  | false =>
    obtain ⟨-, hfew, hraised⟩ := h.closed hcircuit
    unfold circuitThreshold at hfew
    omega
  | true =>
    obtain ⟨-, -, hraised⟩ := h.opened hcircuit
    omega

def companyDeliveries (companyId : String) (deliveries : List Delivery) : List Delivery :=
  deliveries.filter (·.companyId = some companyId)

/-- The last deliveries, as many as the service still has. -/
def remembered (deliveries : List Delivery) : List Delivery :=
  deliveries.drop (deliveries.length - keptLength 100 50 deliveries.length)

/-- What the answers from the log leave out. -/
structure Answers (w : World) : Prop where
  all : ∀ limit, 0 < limit → limit ≤ 50 →
    w.service.getDeliveryLog limit none = lastOf limit w.deliveries
  own : ∀ limit companyId, 0 < limit →
    (w.service.getDeliveryLog limit (some companyId) =
        lastOf limit (companyDeliveries companyId w.deliveries) ↔
      min limit (companyDeliveries companyId w.deliveries).length ≤
        (companyDeliveries companyId (remembered w.deliveries)).length)

theorem remembered_suffix (deliveries : List Delivery) : remembered deliveries <:+ deliveries :=
  List.drop_suffix _ _

theorem length_remembered (deliveries : List Delivery) :
    (remembered deliveries).length = keptLength 100 50 deliveries.length := by
  have hle : keptLength 100 50 deliveries.length ≤ deliveries.length :=
    keptLength_le (by norm_num)
  rw [remembered, List.length_drop]
  omega

theorem deliveryLog_step (h : w.service.deliveryLog = kept 100 50 w.deliveries)
    (hs : step w e = some w') : w'.service.deliveryLog = kept 100 50 w'.deliveries := by
  rcases step_eq hs with ⟨now, m, hnow, rfl⟩ | ⟨now, m, sentAt, a, hnow, rfl⟩
  · unfold begun Service.begin
    split_ifs <;> exact h
  · have hlog : (finished now m sentAt a w).service.deliveryLog =
        record 100 50 w.service.deliveryLog (deliveryOf now m sentAt a) := by
      unfold finished Service.finish Service.fail
      cases a.outcome with
      | some r => rfl
      | none =>
        dsimp only
        split <;> rfl
    rw [hlog, h]
    exact (kept_append w.deliveries (deliveryOf now m sentAt a)).symm

theorem answers_of_reached {clock : ℚ} (h : Reached step (start clock) w) : Answers w := by
  have hlog : w.service.deliveryLog = remembered w.deliveries := by
    have hkept := ReachedBy.invariant
      (I := fun w : World => w.service.deliveryLog = kept 100 50 w.deliveries) h rfl
      fun _ _ _ hw _ hs => deliveryLog_step hw hs
    rw [hkept, kept_eq_drop (by norm_num), remembered]
  have hsuffix := remembered_suffix w.deliveries
  refine ⟨fun limit hpos hlimit => ?_, fun limit companyId hpos => ?_⟩
  · have hmany : min w.deliveries.length 50 ≤ keptLength 100 50 w.deliveries.length :=
      le_keptLength
    rw [Service.getDeliveryLog, hlog, lastOf_drop_eq_iff hpos hsuffix, length_remembered]
    omega
  · rw [Service.getDeliveryLog, hlog]
    exact lastOf_drop_eq_iff hpos (hsuffix.filter _)

end

/-! ## Two sends that overlap -/

def ping : Message := ⟨"ExponentPushToken[x]", "Quote Approved", some "c1"⟩

def unreachable : Attempt := ⟨none, "ConnectTimeout"⟩

/-- The third and the fourth failure trip the breaker, and the next request waits for two minutes. -/
def overlapping : List Event :=
  [.begun 0 ping, .begun 1 ping, .begun 2 ping, .begun 3 ping, .finished 4 ping 0 unreachable,
    .finished 5 ping 1 unreachable, .finished 6 ping 2 unreachable, .finished 7 ping 3 unreachable,
    .begun 126 ping, .begun 127 ping, .finished 128 ping 127 ⟨some (200, some (.obj [])), ""⟩]

def afterOverlap : World := (run step (start 0) overlapping).get (by decide +kernel)

theorem answers_overlap : Answers afterOverlap :=
  answers_of_reached (Reached.of_run (Option.some_get _).symm)

end WorkTicket.Notifications.Push
