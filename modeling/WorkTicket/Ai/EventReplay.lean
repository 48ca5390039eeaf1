import WorkTicket.Foundation.Transition

/-! What a client that reconnects to the status of a job is sent: the events of the Redis stream
after the last id it has, or else the traces in the database. -/

namespace WorkTicket.Ai.EventReplay

open WorkTicket.Transition

/-- The id that a message carries: a UUID, as its 128-bit number, or the id of an entry of the
stream. Clients may send any text. -/
inductive EventId
  | uuid (u : ℕ)
  | stream (ms seq : ℕ)
  | other (text : String)
  deriving DecidableEq, Repr

structure Message where
  version : ℕ
  eventId : EventId
  jobId : String
  status : String
  outputAvailable : Bool
  systemState : String
  timestamp : String
  replayed : Bool
  deriving DecidableEq, Repr

/-- An entry of `stream:job:{job_id}`; `XADD` takes at least one field. -/
structure Entry where
  ms : ℕ
  seq : ℕ
  fields : List (String × String)
  nonempty : fields ≠ []
  deriving DecidableEq, Repr

def Entry.id (e : Entry) : EventId := .stream e.ms e.seq

/-- What the replay reads of an `ExecutionTrace` of the job. -/
structure Trace where
  id : ℕ
  stepName : String
  startedAt : Option String
  deriving DecidableEq, Repr

/-! ## The writers -/

section
variable (jobId companyId : String)

def successFields (timestamp : String) : List (String × String) :=
  [("status", "complete"), ("job_id", jobId), ("company_id", companyId),
    ("timestamp", timestamp), ("system_state", "healthy")]

def failureFields (failureMsg timestamp : String) : List (String × String) :=
  [("status", "failed"), ("job_id", jobId), ("company_id", companyId),
    ("error", String.ofList (failureMsg.toList.take 200)), ("timestamp", timestamp),
    ("system_state", "healthy")]

/-- The message of the live path, with the `uuid4` it makes up. -/
def liveMessage (u : ℕ) (complete degraded : Bool) (timestamp : String) : Message where
  version := 1
  eventId := .uuid u
  jobId := jobId
  status := if complete then "complete" else "processing"
  outputAvailable := complete
  systemState := if degraded then "degraded" else "healthy"
  timestamp := timestamp
  replayed := false

end

/-! ## `_replay_missed_events` -/

/-- A key of a Python dict. -/
inductive Key
  | text (s : String)
  | position (n : ℕ)
  deriving DecidableEq, Repr

/-- The client library returns the fields of an entry as a dict. -/
def asDict (fields : List (String × String)) : List (Key × String) :=
  fields.map fun f => (.text f.1, f.2)

/-- The loop over `range(0, len(fields), 2)`; a key that is not there raises. -/
def eventData (fields : List (Key × String)) : Option (List (String × String)) :=
  (List.range ((fields.length + 1) / 2)).mapM fun i => do
    let key ← fields.lookup (.position (2 * i))
    let val ← fields.lookup (.position (2 * i + 1))
    some (key, val)

/-- `event_data.get(key)`: a later assignment stands. -/
def getData (data : List (String × String)) (key : String) : Option String :=
  data.reverse.lookup key

def streamMessage (jobId now : String) (id : EventId) (data : List (String × String)) :
    Message where
  version := 1
  eventId := id
  jobId := jobId
  status := (getData data "status").getD "unknown"
  outputAvailable := getData data "status" = some "complete"
  systemState := (getData data "system_state").getD "healthy"
  timestamp := (getData data "timestamp").getD now
  replayed := true

/-- `XRANGE key (last + COUNT 100`. A UUID is no id of a stream, which is an error. -/
def xrange (retained : List Entry) : EventId → Option (List Entry)
  | .stream ms seq =>
    some ((retained.filter fun e => ms < e.ms || (ms == e.ms && seq < e.seq)).take 100)
  | .uuid _ | .other _ => none

/-- The messages that are sent for the entries, and whether the loop came to its end. -/
def sendEntries (jobId now : String) : List (EventId × List (Key × String)) → List Message × Bool
  | [] => ([], true)
  | (id, fields) :: entries =>
    match eventData fields with
    | none => ([], false)
    | some data =>
      let sent := sendEntries jobId now entries
      (streamMessage jobId now id data :: sent.1, sent.2)

def statusMap : List (String × String) :=
  [("output_stored", "complete"), ("celery_start", "processing"), ("celery_failed", "failed")]

/-- `ExecutionTrace.id > last_event_id`, and the step is one of the three. -/
def Trace.missed (u : ℕ) (t : Trace) : Bool :=
  u < t.id && ["output_stored", "celery_start", "celery_failed"].contains t.stepName

def traceMessage (jobId now : String) (t : Trace) : Message where
  version := 1
  eventId := .uuid t.id
  jobId := jobId
  status := (statusMap.lookup t.stepName).getD "processing"
  outputAvailable := t.stepName = "output_stored"
  systemState := "healthy"
  timestamp := t.startedAt.getD now
  replayed := true

/-- The state of the services when a client reconnects. Redis is missing, fails or answers. -/
structure Services where
  redis : Option Bool
  database : Bool
  now : String
  deriving DecidableEq, Repr

/-- The fallback. The database refuses to compare with what is no UUID. -/
def dbReplay (jobId : String) (services : Services) (traces : List Trace) : EventId → List Message
  | .uuid u =>
    if services.database then
      (((traces.filter (Trace.missed u)).insertionSort (·.id ≤ ·.id)).take 50).map
        (traceMessage jobId services.now)
    else []
  | .stream _ _ | .other _ => []

section
variable (jobId : String)

def replayMissedEvents (services : Services) (retained : List Entry) (traces : List Trace)
    (lastEventId : EventId) : List Message :=
  if services.redis = some true then
    match xrange retained lastEventId with
    | none | some [] => dbReplay jobId services traces lastEventId
    | some streamEntries =>
      let sent := sendEntries jobId services.now
        (streamEntries.map fun e => (e.id, asDict e.fields))
      if sent.2 then sent.1 else sent.1 ++ dbReplay jobId services traces lastEventId
  else dbReplay jobId services traces lastEventId

/-! ## Runs -/

/-- A reconnection with an id that was delivered: the messages of the events after it, and
those that were sent. -/
structure Replay where
  due : List Message
  sent : List Message
  deriving DecidableEq, Repr

/-- `written` are the events of the stream from its start, `retained` those that are not
trimmed; `delivered` are the messages that clients have got. -/
structure World where
  written : List Entry
  retained : List Entry
  traces : List Trace
  delivered : List Message
  replays : List Replay
  deriving DecidableEq, Repr

/-- Entries are added with the number of old ones that the approximate `maxlen` trims. -/
inductive Event
  | success (ms seq : ℕ) (timestamp : String) (trimmed : ℕ)
  | failure (ms seq : ℕ) (failureMsg timestamp : String) (trimmed : ℕ)
  | trace (t : Trace)
  | cleanupOldTraces (ids : List ℕ)
  | live (u : ℕ) (complete degraded : Bool) (timestamp : String)
  | reconnect (lastEventId : EventId) (services : Services)
  deriving DecidableEq, Repr

def start : World := ⟨[], [], [], [], []⟩

/-- `XADD … MAXLEN ~ 1000`: the id grows, and a thousand entries stay. -/
def World.xadd (w : World) (e : Entry) (trimmed : ℕ) : Option World :=
  let entries := w.retained ++ [e]
  if w.written.all (fun old => old.ms < e.ms || (old.ms == e.ms && old.seq < e.seq)) ∧
      (trimmed = 0 ∨ 1000 + trimmed ≤ entries.length) then
    some { w with written := w.written ++ [e], retained := entries.drop trimmed }
  else none

def World.replay (w : World) (lastEventId : EventId) (services : Services) : List Message :=
  replayMissedEvents jobId services w.retained w.traces lastEventId

variable (companyId : String) (upTo : EventId → ℕ)

/-- The events of the stream after the one for which an id was delivered; `upTo` counts those
up to it. -/
def World.due (w : World) (lastEventId : EventId) (now : String) : List Message :=
  (w.written.drop (upTo lastEventId)).map fun e => streamMessage jobId now e.id e.fields

def step (w : World) : Event → Option World
  | .success ms seq timestamp trimmed =>
    w.xadd ⟨ms, seq, successFields jobId companyId timestamp, nofun⟩ trimmed
  | .failure ms seq failureMsg timestamp trimmed =>
    w.xadd ⟨ms, seq, failureFields jobId companyId failureMsg timestamp, nofun⟩ trimmed
  | .trace t => some { w with traces := w.traces ++ [t] }
  | .cleanupOldTraces ids => some { w with traces := w.traces.filter (·.id ∉ ids) }
  | .live u complete degraded timestamp =>
    some { w with delivered := w.delivered ++ [liveMessage jobId u complete degraded timestamp] }
  | .reconnect last services =>
    let sent := w.replay jobId last services
    some { w with
      delivered := w.delivered ++ sent
      replays :=
        if last ∈ w.delivered.map (·.eventId) then
          w.replays ++ [⟨w.due jobId upTo last services.now, sent⟩]
        else w.replays }

end

/-! ## Where the messages come from -/

theorem lookup_position_asDict (fields : List (String × String)) (n : ℕ) :
    (asDict fields).lookup (.position n) = none := by
  apply List.lookup_eq_none_iff.mpr
  intro entry hentry
  obtain ⟨f, -, rfl⟩ := List.mem_map.mp hentry
  rfl

/-- The positions are no keys of the dict. -/
theorem eventData_asDict {fields : List (String × String)} (h : fields ≠ []) :
    eventData (asDict fields) = none := by
  have hlength : 0 < fields.length := List.length_pos_iff.mpr h
  obtain ⟨n, hn⟩ : ∃ n, ((asDict fields).length + 1) / 2 = n + 1 :=
    Nat.exists_eq_succ_of_ne_zero (by simp only [asDict, List.length_map]; omega)
  rw [eventData, hn, List.range_succ_eq_map, List.mapM_cons, lookup_position_asDict]
  rfl

variable {jobId companyId : String} {upTo : EventId → ℕ}

/-- No event of the stream is ever replayed. -/
theorem replayMissedEvents_eq (services : Services) (retained : List Entry) (traces : List Trace)
    (last : EventId) :
    replayMissedEvents jobId services retained traces last =
      dbReplay jobId services traces last := by
  unfold replayMissedEvents
  split
  · rcases xrange retained last with _ | _ | ⟨e, entries⟩
    · rfl
    · rfl
    · simp [sendEntries, eventData_asDict e.nonempty]
  · rfl

theorem eventId_of_mem_dbReplay {services : Services} {traces : List Trace} {last : EventId}
    {m : Message} (hm : m ∈ dbReplay jobId services traces last) : ∃ u, m.eventId = .uuid u := by
  cases last with
  | uuid u =>
    rw [dbReplay] at hm
    split at hm
    · obtain ⟨t, -, rfl⟩ := List.mem_map.mp hm
      exact ⟨t.id, rfl⟩
    · exact absurd hm List.not_mem_nil
  | stream ms seq => exact absurd hm List.not_mem_nil
  | other text => exact absurd hm List.not_mem_nil

theorem dbReplay_uuid_eq_nil {services : Services} {traces : List Trace} {u : ℕ} :
    dbReplay jobId services traces (.uuid u) = [] ↔
      (services.database → ∀ t ∈ traces, ¬t.missed u) := by
  have hperm := List.perm_insertionSort (fun a b : Trace => a.id ≤ b.id)
    (traces.filter (Trace.missed u))
  cases hdatabase : services.database with
  | false => simp [dbReplay, hdatabase]
  | true =>
    simp only [dbReplay, hdatabase, if_true, List.map_eq_nil_iff, List.take_eq_nil_iff,
      OfNat.ofNat_ne_zero, false_or, forall_const]
    rw [← List.perm_nil, hperm.congr_left, List.perm_nil, List.filter_eq_nil_iff]

/-- What the database has instead of the events carries other ids. -/
theorem dbReplay_eq_due_iff {w : World} {services : Services} {last : EventId} {now : String} :
    dbReplay jobId services w.traces last = w.due jobId upTo last now ↔
      w.written.drop (upTo last) = [] ∧ dbReplay jobId services w.traces last = [] := by
  constructor
  · intro h
    rcases hdrop : w.written.drop (upTo last) with _ | ⟨e, entries⟩
    · exact ⟨rfl, by simpa [World.due, hdrop] using h⟩
    · have hfirst : streamMessage jobId now e.id e.fields ∈
          dbReplay jobId services w.traces last := by
        simp [h, World.due, hdrop]
      obtain ⟨u, hu⟩ := eventId_of_mem_dbReplay hfirst
      exact EventId.noConfusion hu
  · rintro ⟨hdrop, hnil⟩
    rw [hnil, World.due, hdrop, List.map_nil]

/-! ## Completeness -/

/-- Every reconnection was sent exactly the events after the id, in order. -/
def Complete (w : World) : Prop := ∀ r ∈ w.replays, r.sent = r.due

/-- Where a client reconnects with an id it got, nothing was written to the stream after its
event, and the database cannot be read or has no trace of the three steps with a greater id. -/
def Meets (upTo : EventId → ℕ) (w : World) : Event → Prop
  | .reconnect last services =>
    last ∈ w.delivered.map (·.eventId) →
      w.written.drop (upTo last) = [] ∧
        ∀ u, last = .uuid u → services.database → ∀ t ∈ w.traces, ¬t.missed u
  | _ => True

/-- Every id that was delivered is a UUID. -/
structure Sound (w : World) : Prop where
  uuids : ∀ m ∈ w.delivered, ∃ u, m.eventId = .uuid u
  complete : Complete w

theorem uuids_append {w : World} (h : ∀ m ∈ w.delivered, ∃ u, m.eventId = .uuid u)
    {sent : List Message} (hsent : ∀ m ∈ sent, ∃ u, m.eventId = .uuid u) :
    ∀ m ∈ w.delivered ++ sent, ∃ u, m.eventId = .uuid u := by
  intro m hm
  rcases List.mem_append.mp hm with hold | hnew
  · exact h m hold
  · exact hsent m hnew

theorem sound_xadd {w w' : World} {e : Entry} {trimmed : ℕ} (h : Sound w)
    (hs : w.xadd e trimmed = some w') : Sound w' := by
  simp only [World.xadd] at hs
  split at hs
  · cases hs
    exact ⟨h.uuids, h.complete⟩
  · cases hs

theorem complete_reconnect_iff {w w' : World} {last : EventId} {services : Services}
    (h : Sound w) (hs : step jobId companyId upTo w (.reconnect last services) = some w') :
    Complete w' ↔ Meets upTo w (.reconnect last services) := by
  cases hs
  by_cases hmem : last ∈ w.delivered.map (·.eventId)
  · obtain ⟨m, hm, rfl⟩ := List.mem_map.mp hmem
    obtain ⟨u, hu⟩ := h.uuids m hm
    have hsent : w.replay jobId m.eventId services = w.due jobId upTo m.eventId services.now ↔
        w.written.drop (upTo m.eventId) = [] ∧
          (services.database → ∀ t ∈ w.traces, ¬t.missed u) := by
      rw [World.replay, replayMissedEvents_eq, dbReplay_eq_due_iff, hu, dbReplay_uuid_eq_nil]
    simp only [Complete, Meets, hmem, if_true, List.forall_mem_append, List.forall_mem_singleton,
      true_implies]
    rw [hsent, hu]
    simp only [EventId.uuid.injEq, forall_eq']
    exact and_iff_right h.complete
  · simp only [Complete, Meets, hmem, if_false, false_implies, iff_true]
    exact h.complete

theorem step_sound {w w' : World} {e : Event} (h : Sound w)
    (hs : step jobId companyId upTo w e = some w') : Sound w' ↔ Meets upTo w e := by
  cases e with
  | success ms seq timestamp trimmed => exact iff_of_true (sound_xadd h hs) trivial
  | failure ms seq failureMsg timestamp trimmed => exact iff_of_true (sound_xadd h hs) trivial
  | trace t =>
    cases hs
    exact iff_of_true ⟨h.uuids, h.complete⟩ trivial
  | cleanupOldTraces ids =>
    cases hs
    exact iff_of_true ⟨h.uuids, h.complete⟩ trivial
  | live u complete degraded timestamp =>
    cases hs
    have hsent : ∀ m ∈ [liveMessage jobId u complete degraded timestamp], ∃ v,
        m.eventId = .uuid v := by
      simp [liveMessage]
    exact iff_of_true ⟨uuids_append h.uuids hsent, h.complete⟩ trivial
  | reconnect last services =>
    rw [← complete_reconnect_iff h hs]
    have hsent : ∀ m ∈ w.replay jobId last services, ∃ u, m.eventId = .uuid u := by
      intro m hm
      rw [World.replay, replayMissedEvents_eq] at hm
      exact eventId_of_mem_dbReplay hm
    constructor
    · exact fun h' => h'.complete
    · intro hcomplete
      cases hs
      exact ⟨uuids_append h.uuids hsent, hcomplete⟩

/-- In every run, whatever events the delivered ids stand for: every reconnection with a
delivered id is sent exactly the events after it, if and only if at every one the stream has
none and the database gives none. -/
theorem complete_along_iff (jobId companyId : String) (upTo : EventId → ℕ) (es : List Event) :
    Along (step jobId companyId upTo) Complete start es ↔
      EachStep (step jobId companyId upTo) (Meets upTo) start es := by
  have hstart : Sound start := ⟨nofun, nofun⟩
  exact along_iff_eachStep (fun _ h => h.complete)
    (fun _ _ _ h hmeets hs => (step_sound h hs).mpr hmeets)
    (fun w e w' h hs hcomplete => by
      cases e with
      | reconnect last services => exact (complete_reconnect_iff h hs).mp hcomplete
      | _ => trivial)
    hstart es

/-- A client has got the id 9 while the job ran. Then the job completes: the event is in the
stream, but nothing is sent, as the trace has the id 5. Where the live message was for the event
itself, and the trace has the id 12, it is sent again. -/
theorem not_complete_along :
    ¬Along (step "7" "1" fun _ => 0) Complete start
      [.live 9 false false "11:59", .success 1 0 "12:00" 0,
        .trace ⟨5, "output_stored", some "12:00"⟩,
        .reconnect (.uuid 9) ⟨some true, true, "12:01"⟩] ∧
    ¬Along (step "7" "1" fun _ => 1) Complete start
      [.live 9 true false "12:00", .success 1 0 "12:00" 0,
        .trace ⟨12, "output_stored", some "12:00"⟩,
        .reconnect (.uuid 9) ⟨some true, true, "12:01"⟩] := by
  have hlast : ∀ upTo es, (hrun : (run (step "7" "1" upTo) start es).isSome) →
      Along (step "7" "1" upTo) Complete start es →
      Complete ((run (step "7" "1" upTo) start es).get hrun) := by
    intro upTo es hrun halong
    exact halong.last (Option.some_get hrun).symm
  constructor
  · intro halong
    exact absurd (hlast _ _ (by decide) halong) (by unfold Complete; decide)
  · intro halong
    exact absurd (hlast _ _ (by decide) halong) (by unfold Complete; decide)

end WorkTicket.Ai.EventReplay
