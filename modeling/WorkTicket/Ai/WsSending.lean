import WorkTicket.Foundation.Transition

/-! The WebSocket connections of one worker: each has a queue for what is to be sent, a task that
sends it, and a handler that fills the queue and takes everything down in the end. -/

namespace WorkTicket.Ai.WsSending

open Transition

/-- `maxsize` of a queue. -/
def sendQueueSize : ℕ := 1024

/-- The task of `_ws_sender`. Once cancelled, it goes on to where the exception reaches it. -/
inductive Sender (μ : Type)
  | unmade
  | waiting
  | sending (m : μ)
  | cancelling
  | cancelled
  | ended
  deriving DecidableEq

/-- The handler has yet to let the connection in, is in its loop or about to enter it, waits for
room in the queue, or has left the loop. Then it waits for room for the `None`, or for the sender,
and comes to the end of its `finally` or is thrown out of it. -/
inductive Stage (μ : Type)
  | opening
  | serving
  | putting (m : μ)
  | leaving
  | joining
  | released
  | aborted
  deriving DecidableEq

inductive Task
  | sender
  | heartbeat
  deriving DecidableEq

/-- `pending` is the entry of `_pending_ws_tasks`, `counted` whether the connection has a slot of
its user and one of all, `active` whether it is in `_active_websockets`. The fields after these only
record what was sent, was put in the queue and reached the client, how many messages were given up
in three ways, and whether the handler waited too long for the sender. -/
structure Connection (μ : Type) where
  stage : Stage μ
  queue : List (Option μ)
  sender : Sender μ
  pending : List Task
  counted : Bool
  active : Bool
  sent : List μ
  kept : List μ
  delivered : List μ
  dropped : ℕ
  refused : ℕ
  lost : ℕ
  late : Bool

inductive Act (μ : Type)
  | accept
  | send (m : μ)
  | proceed
  | timeOut
  | take
  | deliver
  | fail
  | throw
  | discard
  | join (late : Bool)

section
variable {μ : Type}

/-- `task.cancel()`, which does nothing to a task that is done. -/
def Sender.cancel : Sender μ → Sender μ
  | .waiting | .sending _ => .cancelling
  | s => s

def Sender.inHand : Sender μ → List μ
  | .sending m => [m]
  | _ => []

def Sender.isDone : Sender μ → Bool
  | .cancelled | .ended => true
  | _ => false

/-- It has not been cancelled, and has not ended by itself. -/
def Sender.isAlive : Sender μ → Bool
  | .waiting | .sending _ => true
  | _ => false

/-- The message for which the queue has no room yet. -/
def Stage.waits : Stage μ → List μ
  | .putting m => [m]
  | _ => []

def Stage.isOpen : Stage μ → Bool
  | .serving | .putting _ => true
  | _ => false

def Connection.initial : Connection μ :=
  ⟨.opening, [], .unmade, [], false, false, [], [], [], 0, 0, 0, false⟩

section
variable (c : Connection μ)

/-- The connection is let in, and its sender made. -/
def Connection.accept : Connection μ :=
  { c with stage := .serving, counted := true, sender := .waiting, pending := [.sender] }

def Connection.put (m : μ) : Connection μ :=
  { c with queue := c.queue ++ [some m], kept := c.kept ++ [m] }

def Connection.hasRoom : Bool := c.queue.length < sendQueueSize

/-- `_send_ws_json_safe`, to where it first waits. -/
def Connection.send (m : μ) : Connection μ :=
  let c := { c with sent := c.sent ++ [m] }
  if c.hasRoom then c.put m else { c with stage := .putting m }

/-- The five seconds are over: the oldest message makes room, if there still is one. -/
def Connection.timeOut (m : μ) : Connection μ :=
  let c := { c with stage := .serving }
  match c.queue with
  -- `get_nowait` raises, and the message is given up
  | [] => { c with refused := c.refused + 1 }
  -- the second `put` finds the room
  | _ :: rest => { c with queue := rest, dropped := c.dropped + 1 }.put m

/-- The handler comes to the end of its `finally`. -/
def Connection.release : Connection μ :=
  { c with stage := .released, counted := false, active := false }

/-- `_cancel_all_ws_tasks`. -/
def Connection.cancelAll : Connection μ :=
  { c with
    pending := []
    sender := if .sender ∈ c.pending then c.sender.cancel else c.sender
    lost := if .sender ∈ c.pending then c.lost + c.sender.inHand.length else c.lost }

/-- `put(None)`, to where it waits. -/
def Connection.putNone : Connection μ :=
  if c.hasRoom then { c with queue := c.queue ++ [none], stage := .joining }
  else { c with stage := .leaving }

/-- The sender gets what is first in the queue. -/
def Connection.take : Option (Connection μ) :=
  match c.queue with
  | some m :: rest => some { c with queue := rest, sender := .sending m }
  | none :: rest => some { c with queue := rest, sender := .ended }
  | [] => none

/-- The wait for the sender ends. What a cancelled task raises is no `Exception`, so that it is not
caught, unless the two seconds are over too: then the handler raises a `TimeoutError`. -/
def Connection.join (late : Bool) : Option (Connection μ) :=
  match c.sender with
  | .ended => some c.release
  | .cancelled =>
    some (if late then { c.release with late := true } else { c with stage := .aborted })
  | _ => none

def act : Act μ → Option (Connection μ)
  | .accept =>
    match c.stage with
    | .opening => some c.accept
    | _ => none
  | .send m =>
    match c.stage with
    | .serving => some (c.send m)
    | _ => none
  | .proceed =>
    match c.stage with
    | .putting m => if c.hasRoom then some ({ c with stage := .serving }.put m) else none
    | .leaving => if c.hasRoom then some c.putNone else none
    | _ => none
  | .timeOut =>
    match c.stage with
    | .putting m => some (c.timeOut m)
    | _ => none
  | .take =>
    match c.sender with
    | .waiting => c.take
    | _ => none
  | .deliver =>
    match c.sender with
    | .sending m => some { c with sender := .waiting, delivered := c.delivered ++ [m] }
    | _ => none
  | .fail =>
    match c.sender with
    | .sending _ => some { c with sender := .ended, lost := c.lost + 1 }
    | _ => none
  | .throw =>
    match c.sender with
    | .cancelling => some { c with sender := .cancelled }
    | _ => none
  -- `_discard_ws_task`, some time after the sender is done
  | .discard =>
    if c.sender.isDone then some { c with pending := c.pending.filter (· ≠ .sender) } else none
  | .join late =>
    match c.stage with
    | .joining => c.join late
    | _ => none

/-- The handler is about to enter its loop: the heartbeat of the worker is started with the first
connection that comes here. -/
def register (startsHeartbeat : Bool) : Option (Connection μ) :=
  match c.stage with
  | .serving =>
    if c.active then none
    else some { c with
      active := true
      pending := if startsHeartbeat then c.pending ++ [.heartbeat] else c.pending }
  | _ => none

/-- The handler leaves its loop. The lock of the tasks is never held where another task can run, so
that all is done at once. -/
def close : Option (Connection μ) :=
  match c.stage with
  | .serving => if c.active then some c.cancelAll.putNone else none
  | _ => none

end

/-- `_start_ws_heartbeat`: it ends only if it is cancelled. -/
inductive Heartbeat
  | unstarted
  | running
  | cancelled
  deriving DecidableEq

/-- `registered` only records in which order the connections came to their loops. -/
structure Worker (ι μ : Type) where
  connection : ι → Connection μ
  heartbeat : Heartbeat
  registered : List ι

inductive Event (ι μ : Type)
  | act (i : ι) (a : Act μ)
  | register (i : ι)
  | close (i : ι)

def start {ι : Type} : Worker ι μ := ⟨fun _ => .initial, .unstarted, []⟩

variable {ι : Type} [DecidableEq ι]

def Worker.set (w : Worker ι μ) (i : ι) (c : Connection μ) : Worker ι μ :=
  { w with connection := Function.update w.connection i c }

def step (w : Worker ι μ) : Event ι μ → Option (Worker ι μ)
  | .act i a => (act (w.connection i) a).map (w.set i)
  | .register i =>
    (WsSending.register (w.connection i) (w.heartbeat = .unstarted)).map fun c =>
      { w.set i c with
        heartbeat := if w.heartbeat = .unstarted then .running else w.heartbeat
        registered := w.registered ++ [i] }
  | .close i =>
    (WsSending.close (w.connection i)).map fun c =>
      { w.set i c with
        heartbeat := if .heartbeat ∈ (w.connection i).pending then .cancelled else w.heartbeat }

end

/-! ## What a step does -/

section
variable {μ : Type}

/-- What can happen to a connection in itself. -/
inductive Acts : Connection μ → Connection μ → Prop
  | accept {c : Connection μ} (hstage : c.stage = .opening) : Acts c c.accept
  | put {c : Connection μ} {m : μ} (hstage : c.stage = .serving)
      (hroom : c.queue.length < sendQueueSize) : Acts c ({ c with sent := c.sent ++ [m] }.put m)
  | wait {c : Connection μ} {m : μ} (hstage : c.stage = .serving)
      (hfull : ¬ c.queue.length < sendQueueSize) :
      Acts c { c with sent := c.sent ++ [m], stage := .putting m }
  | putLater {c : Connection μ} {m : μ} (hstage : c.stage = .putting m)
      (hroom : c.queue.length < sendQueueSize) : Acts c ({ c with stage := .serving }.put m)
  | refuse {c : Connection μ} {m : μ} (hstage : c.stage = .putting m) (hqueue : c.queue = []) :
      Acts c { c with stage := .serving, refused := c.refused + 1 }
  | drop {c : Connection μ} {m : μ} {x : Option μ} {rest : List (Option μ)}
      (hstage : c.stage = .putting m) (hqueue : c.queue = x :: rest) :
      Acts c
        ({ c with stage := .serving, queue := rest, dropped := c.dropped + 1 }.put m)
  | take {c : Connection μ} {m : μ} {rest : List (Option μ)} (hsender : c.sender = .waiting)
      (hqueue : c.queue = some m :: rest) :
      Acts c { c with queue := rest, sender := .sending m }
  | takeNone {c : Connection μ} {rest : List (Option μ)} (hsender : c.sender = .waiting)
      (hqueue : c.queue = none :: rest) : Acts c { c with queue := rest, sender := .ended }
  | deliver {c : Connection μ} {m : μ} (hsender : c.sender = .sending m) :
      Acts c { c with sender := .waiting, delivered := c.delivered ++ [m] }
  | fail {c : Connection μ} {m : μ} (hsender : c.sender = .sending m) :
      Acts c { c with sender := .ended, lost := c.lost + 1 }
  | throw {c : Connection μ} (hsender : c.sender = .cancelling) :
      Acts c { c with sender := .cancelled }
  | discard {c : Connection μ} (hsender : c.sender.isDone = true) :
      Acts c { c with pending := c.pending.filter (· ≠ .sender) }
  | putNone {c : Connection μ} (hstage : c.stage = .leaving)
      (hroom : c.queue.length < sendQueueSize) : Acts c c.putNone
  | release {c : Connection μ} (hstage : c.stage = .joining) (hsender : c.sender = .ended) :
      Acts c c.release
  | releaseLate {c : Connection μ} (hstage : c.stage = .joining) (hsender : c.sender = .cancelled) :
      Acts c { c.release with late := true }
  | abort {c : Connection μ} (hstage : c.stage = .joining) (hsender : c.sender = .cancelled) :
      Acts c { c with stage := .aborted }

/-- What a step can do to a connection. -/
inductive Moves : Connection μ → Connection μ → Prop
  | act {c c' : Connection μ} (hacts : Acts c c') : Moves c c'
  | register {c : Connection μ} (hstage : c.stage = .serving) (hactive : c.active = false)
      (startsHeartbeat : Bool) :
      Moves c
        { c with
          active := true
          pending := if startsHeartbeat then c.pending ++ [.heartbeat] else c.pending }
  | close {c : Connection μ} (hstage : c.stage = .serving) (hactive : c.active = true) :
      Moves c c.cancelAll.putNone

variable {c c' : Connection μ}

theorem acts_of_send {m : μ} (hstage : c.stage = .serving) : Acts c (c.send m) := by
  by_cases hroom : c.queue.length < sendQueueSize
  · have hsend : c.send m = { c with sent := c.sent ++ [m] }.put m :=
      if_pos (decide_eq_true hroom)
    exact hsend ▸ .put hstage hroom
  · have hsend : c.send m = { c with sent := c.sent ++ [m], stage := .putting m } :=
      if_neg fun h => hroom (of_decide_eq_true h)
    exact hsend ▸ .wait hstage hroom

theorem acts_of_timeOut {m : μ} (hstage : c.stage = .putting m) : Acts c (c.timeOut m) := by
  cases hqueue : c.queue with
  | nil =>
    have htime : c.timeOut m = { c with stage := .serving, refused := c.refused + 1 } := by
      simp only [Connection.timeOut, hqueue]
    exact htime ▸ .refuse hstage hqueue
  | cons x rest =>
    have htime : c.timeOut m =
        { c with stage := .serving, queue := rest, dropped := c.dropped + 1 }.put m := by
      simp only [Connection.timeOut, hqueue]
    exact htime ▸ .drop hstage hqueue

theorem acts_of_take (hsender : c.sender = .waiting) (h : c.take = some c') : Acts c c' := by
  cases hqueue : c.queue with
  | nil => simp [Connection.take, hqueue] at h
  | cons x rest =>
    cases x with
    | none =>
      simp only [Connection.take, hqueue, Option.some.injEq] at h
      exact h ▸ .takeNone hsender hqueue
    | some m =>
      simp only [Connection.take, hqueue, Option.some.injEq] at h
      exact h ▸ .take hsender hqueue

theorem acts_of_join {late : Bool} (hstage : c.stage = .joining) (h : c.join late = some c') :
    Acts c c' := by
  simp only [Connection.join] at h
  split at h
  · rename_i hsender
    exact Option.some.inj h ▸ .release hstage hsender
  · rename_i hsender
    cases late with
    | false => exact Option.some.inj h ▸ .abort hstage hsender
    | true => exact Option.some.inj h ▸ .releaseLate hstage hsender
  · cases h

theorem acts_of_act {a : Act μ} (h : act c a = some c') : Acts c c' := by
  cases a with
  | accept =>
    simp only [act] at h
    split at h
    · exact Option.some.inj h ▸ .accept ‹_›
    · cases h
  | send m =>
    simp only [act] at h
    split at h
    · exact Option.some.inj h ▸ acts_of_send ‹_›
    · cases h
  | proceed =>
    simp only [act, Connection.hasRoom, decide_eq_true_eq] at h
    split at h
    · obtain ⟨hroom, ⟨⟩⟩ := Option.ite_none_right_eq_some.mp h
      exact .putLater ‹_› hroom
    · obtain ⟨hroom, ⟨⟩⟩ := Option.ite_none_right_eq_some.mp h
      exact .putNone ‹_› hroom
    · cases h
  | timeOut =>
    simp only [act] at h
    split at h
    · exact Option.some.inj h ▸ acts_of_timeOut ‹_›
    · cases h
  | take =>
    simp only [act] at h
    split at h
    · exact acts_of_take ‹_› h
    · cases h
  | deliver =>
    simp only [act] at h
    split at h
    · exact Option.some.inj h ▸ .deliver ‹_›
    · cases h
  | fail =>
    simp only [act] at h
    split at h
    · exact Option.some.inj h ▸ .fail ‹_›
    · cases h
  | throw =>
    simp only [act] at h
    split at h
    · exact Option.some.inj h ▸ .throw ‹_›
    · cases h
  | discard =>
    obtain ⟨hdone, ⟨⟩⟩ := Option.ite_none_right_eq_some.mp h
    exact .discard hdone
  | join late =>
    simp only [act] at h
    split at h
    · exact acts_of_join ‹_› h
    · cases h

theorem register_eq_some {startsHeartbeat : Bool} (h : register c startsHeartbeat = some c') :
    c.stage = .serving ∧ c.active = false ∧
      c' = { c with
        active := true
        pending := if startsHeartbeat then c.pending ++ [.heartbeat] else c.pending } := by
  simp only [register] at h
  split at h
  · obtain ⟨hactive, ⟨⟩⟩ := Option.ite_none_left_eq_some.mp h
    exact ⟨‹_›, Bool.eq_false_iff.mpr hactive, rfl⟩
  · cases h

theorem close_eq_some (h : close c = some c') :
    c.stage = .serving ∧ c.active = true ∧ c' = c.cancelAll.putNone := by
  simp only [close] at h
  split at h
  · obtain ⟨hactive, ⟨⟩⟩ := Option.ite_none_right_eq_some.mp h
    exact ⟨‹_›, hactive, rfl⟩
  · cases h

variable {ι : Type} [DecidableEq ι] {w w' : Worker ι μ} {i : ι}

/-- A step is about one connection. -/
theorem moves_of_step {e : Event ι μ} (h : step w e = some w') :
    ∃ i c, Moves (w.connection i) c ∧ w'.connection = Function.update w.connection i c := by
  cases e with
  | act i a =>
    obtain ⟨c, hact, rfl⟩ := Option.map_eq_some_iff.mp h
    exact ⟨i, c, .act (acts_of_act hact), rfl⟩
  | register i =>
    obtain ⟨c, hregister, rfl⟩ := Option.map_eq_some_iff.mp h
    obtain ⟨hstage, hactive, rfl⟩ := register_eq_some hregister
    exact ⟨i, _, .register hstage hactive _, rfl⟩
  | close i =>
    obtain ⟨c, hclose, rfl⟩ := Option.map_eq_some_iff.mp h
    obtain ⟨hstage, hactive, rfl⟩ := close_eq_some hclose
    exact ⟨i, _, .close hstage hactive, rfl⟩

/-- What holds of a connection and survives every move holds of it later. -/
theorem connection_invariant {w₀ : Worker ι μ} {I : Connection μ → Prop}
    (h : Reached step w₀ w) (h₀ : I (w₀.connection i))
    (hmoves : ∀ c c', I c → Moves c c' → I c') : I (w.connection i) := by
  refine h.invariant (I := fun w => I (w.connection i)) h₀ fun w e w' hI _ hs => ?_
  obtain ⟨j, c, hc, hw⟩ := moves_of_step hs
  show I (w'.connection i)
  rw [hw]
  by_cases hij : i = j
  · subst hij
    rw [Function.update_self]
    exact hmoves _ _ hI hc
  · rw [Function.update_of_ne hij]
    exact hI

/-! ## What holds of every connection -/

/-- The `None` is put in the queue after the loop only, and a sender that is alive is one that the
end of the loop will cancel: it never gets the `None`. -/
structure Orderly (c : Connection μ) : Prop where
  opening : c.stage = .opening → c = .initial
  serving : c.stage.isOpen = true → none ∉ c.queue ∧ (c.sender.isAlive = true ∨ c.sender = .ended)
  alive : c.sender.isAlive = true →
    c.stage.isOpen = true ∧ Task.sender ∈ c.pending ∧ c.lost = 0
  lost_le : c.lost ≤ 1

theorem orderly_initial : Orderly (.initial : Connection μ) where
  opening _ := rfl
  serving h := by cases h
  alive h := by cases h
  lost_le := Nat.zero_le 1

theorem Orderly.sender_ne_unmade (h : Orderly c) (hsender : c.sender ≠ .unmade) :
    c.stage ≠ .opening := by
  intro hstage
  rw [h.opening hstage] at hsender
  exact hsender rfl

theorem Orderly.not_alive_of_closed (h : Orderly c) (hstage : c.stage.isOpen = false) :
    c.sender.isAlive = false := by
  by_contra halive
  have hopen := (h.alive (Bool.not_eq_false _ ▸ halive)).1
  exact absurd hopen (hstage ▸ Bool.false_ne_true)

theorem cancel_isAlive (x : Sender μ) : x.cancel.isAlive = false := by
  cases x <;> rfl

theorem putNone_of_room (hroom : c.queue.length < sendQueueSize) :
    c.putNone = { c with queue := c.queue ++ [none], stage := .joining } :=
  if_pos (decide_eq_true hroom)

theorem putNone_of_full (hfull : ¬ c.queue.length < sendQueueSize) :
    c.putNone = { c with stage := .leaving } :=
  if_neg fun h => hfull (of_decide_eq_true h)

theorem inHand_length_le (x : Sender μ) : x.inHand.length ≤ 1 := by
  cases x <;> simp [Sender.inHand]

theorem inHand_of_not_alive {x : Sender μ} (h : x.isAlive = false) : x.inHand = [] := by
  cases x <;> first | rfl | cases h

/-- The handler goes on, and is still in its loop. -/
theorem Orderly.on_handler (h : Orderly c) (hopen : c.stage.isOpen = true)
    (hopen' : c'.stage.isOpen = true) (hqueue : none ∉ c'.queue) (hsender : c'.sender = c.sender)
    (hpending : Task.sender ∈ c.pending → Task.sender ∈ c'.pending) (hlost : c'.lost = c.lost) :
    Orderly c' where
  opening hstage := by
    rw [hstage] at hopen'
    cases hopen'
  serving _ := by
    rw [hsender]
    exact ⟨hqueue, (h.serving hopen).2⟩
  alive halive := by
    rw [hsender] at halive
    obtain ⟨-, htracked, hnone⟩ := h.alive halive
    exact ⟨hopen', hpending htracked, hlost.trans hnone⟩
  lost_le := hlost ▸ h.lost_le

/-- The handler goes on after its loop. -/
theorem Orderly.on_end (h : Orderly c) (hclosed : c.stage.isOpen = false)
    (hclosed' : c'.stage.isOpen = false) (hne : c'.stage ≠ .opening)
    (hsender : c'.sender = c.sender) (hlost : c'.lost = c.lost) : Orderly c' where
  opening hstage := absurd hstage hne
  serving hopen := by
    rw [hclosed'] at hopen
    cases hopen
  alive halive := by
    rw [hsender, h.not_alive_of_closed hclosed] at halive
    cases halive
  lost_le := hlost ▸ h.lost_le

/-- The sender goes on. -/
theorem Orderly.on_sender (h : Orderly c) (hmade : c.sender ≠ .unmade) (hstage : c'.stage = c.stage)
    (hqueue : c'.queue ⊆ c.queue)
    (hopen : c.stage.isOpen = true → c'.sender.isAlive = true ∨ c'.sender = .ended)
    (halive : c'.sender.isAlive = true →
      c.sender.isAlive = true ∧ c'.pending = c.pending ∧ c'.lost = c.lost)
    (hlost : c'.lost ≤ 1) : Orderly c' where
  opening hopening := absurd (hstage ▸ hopening) (h.sender_ne_unmade hmade)
  serving hserving := by
    rw [hstage] at hserving
    exact ⟨fun hnone => (h.serving hserving).1 (hqueue hnone), hopen hserving⟩
  alive hafter := by
    obtain ⟨hbefore, hpending, hsame⟩ := halive hafter
    obtain ⟨hserving, htracked, hnone⟩ := h.alive hbefore
    exact ⟨hstage ▸ hserving, hpending ▸ htracked, hsame.trans hnone⟩
  lost_le := hlost

theorem Orderly.cancelAll (h : Orderly c) :
    c.cancelAll.sender.isAlive = false ∧ c.cancelAll.lost ≤ 1 := by
  by_cases halive : c.sender.isAlive = true
  · obtain ⟨-, htracked, hnone⟩ := h.alive halive
    have hsender : c.cancelAll.sender = c.sender.cancel := if_pos htracked
    have hlost : c.cancelAll.lost = c.lost + c.sender.inHand.length := if_pos htracked
    rw [hsender, hlost, hnone, Nat.zero_add]
    exact ⟨cancel_isAlive _, inHand_length_le _⟩
  · have hdead := Bool.eq_false_iff.mpr halive
    have hlost : c.cancelAll.lost = c.lost := by
      simp [Connection.cancelAll, inHand_of_not_alive hdead]
    rw [hlost]
    refine ⟨?_, h.lost_le⟩
    show Sender.isAlive (if _ then _ else _) = false
    split
    · exact cancel_isAlive _
    · exact hdead

theorem Orderly.closed (h : Orderly c) : Orderly c.cancelAll.putNone := by
  have hafter : ∀ {c'}, c'.sender = c.cancelAll.sender → c'.lost = c.cancelAll.lost →
      c'.stage = .joining ∨ c'.stage = .leaving → Orderly c' := by
    intro c' hsender hlost hstage
    have hclosed : c'.stage.isOpen = false := by rcases hstage with hs | hs <;> rw [hs] <;> rfl
    refine ⟨fun hopening => ?_, fun hopen => ?_, fun halive => ?_, hlost ▸ h.cancelAll.2⟩
    · rcases hstage with hs | hs <;> cases hs.symm.trans hopening
    · exact absurd hopen (hclosed ▸ Bool.false_ne_true)
    · exact absurd halive (hsender ▸ h.cancelAll.1 ▸ Bool.false_ne_true)
  by_cases hroom : c.cancelAll.queue.length < sendQueueSize
  · rw [putNone_of_room hroom]
    exact hafter rfl rfl (.inl rfl)
  · rw [putNone_of_full hroom]
    exact hafter rfl rfl (.inr rfl)

theorem Orderly.acts (h : Orderly c) (hacts : Acts c c') : Orderly c' := by
  cases hacts with
  | accept hstage =>
    obtain rfl := h.opening hstage
    refine ⟨?_, fun _ => ⟨List.not_mem_nil, .inl rfl⟩,
      fun _ => ⟨rfl, List.mem_singleton.mpr rfl, rfl⟩, Nat.zero_le 1⟩
    rintro ⟨⟩
  | put hstage hroom =>
    have hopen : c.stage.isOpen = true := hstage ▸ rfl
    refine h.on_handler hopen hopen ?_ rfl id rfl
    simpa [Connection.put] using (h.serving hopen).1
  | wait hstage hfull =>
    have hopen : c.stage.isOpen = true := hstage ▸ rfl
    exact h.on_handler hopen rfl (h.serving hopen).1 rfl id rfl
  | putLater hstage hroom =>
    have hopen : c.stage.isOpen = true := hstage ▸ rfl
    refine h.on_handler hopen rfl ?_ rfl id rfl
    simpa [Connection.put] using (h.serving hopen).1
  | refuse hstage hqueue =>
    have hopen : c.stage.isOpen = true := hstage ▸ rfl
    exact h.on_handler hopen rfl (h.serving hopen).1 rfl id rfl
  | drop hstage hqueue =>
    have hopen : c.stage.isOpen = true := hstage ▸ rfl
    have hplain := (h.serving hopen).1
    rw [hqueue, List.mem_cons, not_or] at hplain
    refine h.on_handler hopen rfl ?_ rfl id rfl
    simpa [Connection.put] using hplain.2
  | take hsender hqueue =>
    have hmade : c.sender ≠ .unmade := fun hunmade => by cases hsender.symm.trans hunmade
    refine h.on_sender hmade rfl (hqueue ▸ List.subset_cons_self _ _) ?_ ?_ h.lost_le
    · exact fun _ => .inl rfl
    · exact fun _ => ⟨hsender ▸ rfl, rfl, rfl⟩
  | takeNone hsender hqueue =>
    have hmade : c.sender ≠ .unmade := fun hunmade => by cases hsender.symm.trans hunmade
    refine h.on_sender hmade rfl (hqueue ▸ List.subset_cons_self _ _) ?_ ?_ h.lost_le
    · exact fun _ => .inr rfl
    · rintro ⟨⟩
  | deliver hsender =>
    have hmade : c.sender ≠ .unmade := fun hunmade => by cases hsender.symm.trans hunmade
    refine h.on_sender hmade rfl (List.Subset.refl _) ?_ ?_ h.lost_le
    · exact fun _ => .inl rfl
    · exact fun _ => ⟨hsender ▸ rfl, rfl, rfl⟩
  | fail hsender =>
    have hmade : c.sender ≠ .unmade := fun hunmade => by cases hsender.symm.trans hunmade
    refine h.on_sender hmade rfl (List.Subset.refl _) (fun _ => .inr rfl) ?_ ?_
    · rintro ⟨⟩
    · have hnone := (h.alive (hsender ▸ rfl)).2.2
      exact (congrArg (· + 1) hnone).le
  | throw hsender =>
    have hmade : c.sender ≠ .unmade := fun hunmade => by cases hsender.symm.trans hunmade
    refine h.on_sender hmade rfl (List.Subset.refl _) (fun hopen => ?_) ?_ h.lost_le
    · rcases (h.serving hopen).2 with halive | hended
      · exact absurd halive (hsender ▸ Bool.false_ne_true)
      · cases hsender.symm.trans hended
    · rintro ⟨⟩
  | discard hsender =>
    refine h.on_sender ?_ rfl (List.Subset.refl _) (fun hopen => (h.serving hopen).2) ?_ h.lost_le
    · intro hunmade
      rw [hunmade] at hsender
      cases hsender
    · intro halive
      cases hx : c.sender <;> simp [hx, Sender.isAlive, Sender.isDone] at hsender halive
  | putNone hstage hroom =>
    rw [putNone_of_room hroom]
    exact h.on_end (hstage ▸ rfl) rfl (by rintro ⟨⟩) rfl rfl
  | release hstage hsender => exact h.on_end (hstage ▸ rfl) rfl (by rintro ⟨⟩) rfl rfl
  | releaseLate hstage hsender => exact h.on_end (hstage ▸ rfl) rfl (by rintro ⟨⟩) rfl rfl
  | abort hstage hsender => exact h.on_end (hstage ▸ rfl) rfl (by rintro ⟨⟩) rfl rfl

theorem Orderly.moves (h : Orderly c) (hmoves : Moves c c') : Orderly c' := by
  cases hmoves with
  | act hacts => exact h.acts hacts
  | register hstage hactive startsHeartbeat =>
    have hopen : c.stage.isOpen = true := hstage ▸ rfl
    refine h.on_handler hopen hopen (h.serving hopen).1 rfl (fun htracked => ?_) rfl
    show _ ∈ ite _ _ _
    split
    · exact List.mem_append_left _ htracked
    · exact htracked
  | close hstage hactive => exact h.closed

/-! ## The messages -/

/-- The messages in the queue. -/
def Connection.queued (c : Connection μ) : List μ := c.queue.reduceOption

/-- Where the messages are that were sent. The queue holds the newest of those that it has taken,
and what has left it for the client came out of the others, in the order in which it was sent. -/
structure Accounts (c : Connection μ) : Prop where
  bounded : c.queue.length ≤ sendQueueSize
  inOrder : List.Sublist (c.kept ++ c.stage.waits) c.sent
  newest : ∃ older, c.kept = older ++ c.queued ∧
    List.Sublist (c.delivered ++ c.sender.inHand) older
  asked : c.sent.length = c.kept.length + c.stage.waits.length + c.refused
  counted : c.kept.length =
    c.delivered.length + c.sender.inHand.length + c.queued.length + c.dropped + c.lost

theorem accounts_initial : Accounts (.initial : Connection μ) where
  bounded := Nat.zero_le _
  inOrder := List.Sublist.refl _
  newest := ⟨[], rfl, List.Sublist.refl _⟩
  asked := rfl
  counted := rfl

theorem queued_put (c : Connection μ) (m : μ) : (c.put m).queued = c.queued ++ [m] := by
  simp [Connection.queued, Connection.put, List.reduceOption_append]

theorem queued_append_none (queue : List (Option μ)) :
    (queue ++ [none]).reduceOption = queue.reduceOption := by
  simp [List.reduceOption_append]

/-- A message that there is room for is put behind the others. -/
theorem accounts_put {m : μ} (hroom : c.queue.length < sendQueueSize) (hwaits : c.stage.waits = [])
    (horder : List.Sublist (c.kept ++ [m]) c.sent)
    (hnewest : ∃ older, c.kept = older ++ c.queued ∧
      List.Sublist (c.delivered ++ c.sender.inHand) older)
    (hasked : c.sent.length = c.kept.length + 1 + c.refused)
    (hcounted : c.kept.length =
      c.delivered.length + c.sender.inHand.length + c.queued.length + c.dropped + c.lost) :
    Accounts (c.put m) where
  bounded := by
    show (c.queue ++ [some m]).length ≤ sendQueueSize
    rw [List.length_append]
    exact hroom
  inOrder := by
    show List.Sublist (c.kept ++ [m] ++ c.stage.waits) c.sent
    rwa [hwaits, List.append_nil]
  newest := by
    obtain ⟨older, hkept, hgone⟩ := hnewest
    refine ⟨older, ?_, hgone⟩
    rw [queued_put, ← List.append_assoc, ← hkept]
    rfl
  asked := by
    show c.sent.length = (c.kept ++ [m]).length + c.stage.waits.length + c.refused
    rw [hwaits, List.length_append]
    exact hasked
  counted := by
    rw [queued_put]
    show (c.kept ++ [m]).length = c.delivered.length + c.sender.inHand.length +
      (c.queued ++ [m]).length + c.dropped + c.lost
    simp only [List.length_append, List.length_singleton]
    omega

/-- The oldest message leaves the queue. -/
theorem Accounts.newest_cons {m : μ} {rest : List (Option μ)} (h : Accounts c)
    (hqueue : c.queue = some m :: rest) :
    ∃ older, c.kept = older ++ [m] ++ rest.reduceOption ∧
      List.Sublist (c.delivered ++ c.sender.inHand) older := by
  obtain ⟨older, hkept, hgone⟩ := h.newest
  refine ⟨older, ?_, hgone⟩
  rw [hkept, Connection.queued, hqueue, List.reduceOption_cons_of_some, List.append_assoc]
  rfl

theorem length_queued_cons {m : μ} {rest : List (Option μ)} (hqueue : c.queue = some m :: rest) :
    c.queued.length = rest.reduceOption.length + 1 := by
  rw [Connection.queued, hqueue, List.reduceOption_cons_of_some, List.length_cons]

theorem Accounts.drop {m x : μ} {rest : List (Option μ)} (h : Accounts c)
    (hstage : c.stage = .putting m) (hqueue : c.queue = some x :: rest) :
    Accounts ({ c with stage := .serving, queue := rest, dropped := c.dropped + 1 }.put m) := by
  have hbounded := h.bounded
  have hcounted := h.counted
  have horder := h.inOrder
  have hasked := h.asked
  rw [hstage] at horder hasked
  rw [hqueue, List.length_cons] at hbounded
  rw [length_queued_cons hqueue] at hcounted
  refine accounts_put hbounded rfl horder ?_ hasked ?_
  · obtain ⟨older, hkept, hgone⟩ := h.newest_cons hqueue
    exact ⟨older ++ [x], hkept, hgone.trans (List.sublist_append_left _ _)⟩
  · show c.kept.length = c.delivered.length + c.sender.inHand.length + rest.reduceOption.length +
      (c.dropped + 1) + c.lost
    omega

theorem Accounts.take {m : μ} {rest : List (Option μ)} (h : Accounts c)
    (hsender : c.sender = .waiting) (hqueue : c.queue = some m :: rest) :
    Accounts { c with queue := rest, sender := .sending m } where
  bounded := by
    have hbounded := h.bounded
    rw [hqueue, List.length_cons] at hbounded
    exact Nat.le_of_succ_le hbounded
  inOrder := h.inOrder
  newest := by
    obtain ⟨older, hkept, hgone⟩ := h.newest_cons hqueue
    rw [hsender] at hgone
    refine ⟨older ++ [m], hkept, ?_⟩
    exact (List.append_nil c.delivered ▸ hgone).append (List.Sublist.refl [m])
  asked := h.asked
  counted := by
    have hcounted := h.counted
    rw [length_queued_cons hqueue, hsender] at hcounted
    show c.kept.length = c.delivered.length + 1 + rest.reduceOption.length + c.dropped + c.lost
    rw [hcounted]
    show c.delivered.length + 0 + _ + _ + _ = _
    omega

/-- What is in hand is given up. -/
theorem Accounts.lose {x : Sender μ} (h : Accounts c) (hhand : x.inHand = []) :
    Accounts { c with sender := x, lost := c.lost + c.sender.inHand.length } where
  bounded := h.bounded
  inOrder := h.inOrder
  newest := by
    obtain ⟨older, hkept, hgone⟩ := h.newest
    refine ⟨older, hkept, ?_⟩
    show List.Sublist (c.delivered ++ x.inHand) older
    rw [hhand, List.append_nil]
    exact (List.sublist_append_left _ _).trans hgone
  asked := h.asked
  counted := by
    have hcounted := h.counted
    show c.kept.length = c.delivered.length + x.inHand.length + c.queued.length + c.dropped +
      (c.lost + c.sender.inHand.length)
    rw [hhand, List.length_nil]
    omega

/-- The handler moves on, and has no message to put in the queue. -/
theorem Accounts.on_stage {p : Stage μ} (h : Accounts c) (hwaits : c.stage.waits = p.waits) :
    Accounts { c with stage := p } :=
  ⟨h.bounded, hwaits ▸ h.inOrder, h.newest, hwaits ▸ h.asked, h.counted⟩

theorem Accounts.putNone (h : Accounts c) (hwaits : c.stage.waits = []) : Accounts c.putNone := by
  by_cases hroom : c.queue.length < sendQueueSize
  · have hqueued : (c.queue ++ [none]).reduceOption = c.queued := queued_append_none _
    have hstaged := h.on_stage (p := .joining) hwaits
    rw [putNone_of_room hroom]
    refine ⟨?_, hstaged.inOrder, ?_, hstaged.asked, ?_⟩
    · show (c.queue ++ [none]).length ≤ sendQueueSize
      rw [List.length_append]
      exact hroom
    · obtain ⟨older, hkept, hgone⟩ := h.newest
      exact ⟨older, hkept.trans (congrArg (older ++ ·) hqueued.symm), hgone⟩
    · show c.kept.length = _ + _ + (c.queue ++ [none]).reduceOption.length + _ + _
      rw [hqueued]
      exact h.counted
  · rw [putNone_of_full hroom]
    exact h.on_stage hwaits

theorem inHand_cancel (x : Sender μ) : x.cancel.inHand = [] := by
  cases x <;> rfl

theorem Accounts.cancelAll (h : Accounts c) : Accounts c.cancelAll := by
  by_cases hpending : .sender ∈ c.pending
  · have hlose := h.lose (inHand_cancel c.sender)
    have hcancel : c.cancelAll = { c with
        pending := []
        sender := c.sender.cancel
        lost := c.lost + c.sender.inHand.length } := by
      rw [Connection.cancelAll, if_pos hpending, if_pos hpending]
    rw [hcancel]
    exact ⟨hlose.bounded, hlose.inOrder, hlose.newest, hlose.asked, hlose.counted⟩
  · have hcancel : c.cancelAll = { c with pending := [] } := by
      rw [Connection.cancelAll, if_neg hpending, if_neg hpending]
    rw [hcancel]
    exact ⟨h.bounded, h.inOrder, h.newest, h.asked, h.counted⟩

theorem Accounts.acts (h : Accounts c) (ho : Orderly c) (hacts : Acts c c') : Accounts c' := by
  cases hacts with
  | accept hstage =>
    obtain rfl := ho.opening hstage
    exact ⟨h.bounded, h.inOrder, h.newest, h.asked, h.counted⟩
  | @put m hstage hroom =>
    have horder := h.inOrder
    have hasked := h.asked
    rw [hstage] at horder hasked
    refine accounts_put hroom (hstage ▸ rfl) ?_ h.newest ?_ h.counted
    · exact (List.append_nil c.kept ▸ horder).append (List.Sublist.refl [m])
    · show (c.sent ++ [m]).length = c.kept.length + 1 + c.refused
      rw [List.length_append, hasked]
      exact Nat.add_right_comm _ _ _
  | @wait m hstage hfull =>
    have horder := h.inOrder
    have hasked := h.asked
    rw [hstage] at horder hasked
    refine ⟨h.bounded, ?_, h.newest, ?_, h.counted⟩
    · exact (List.append_nil c.kept ▸ horder).append (List.Sublist.refl [m])
    · show (c.sent ++ [m]).length = c.kept.length + 1 + c.refused
      rw [List.length_append, hasked]
      exact Nat.add_right_comm _ _ _
  | @putLater m hstage hroom =>
    have horder := h.inOrder
    have hasked := h.asked
    rw [hstage] at horder hasked
    exact accounts_put hroom rfl horder h.newest hasked h.counted
  | @refuse m hstage hqueue =>
    have horder := h.inOrder
    have hasked := h.asked
    rw [hstage] at horder hasked
    refine ⟨h.bounded, ?_, h.newest, ?_, h.counted⟩
    · show List.Sublist (c.kept ++ []) c.sent
      rw [List.append_nil]
      exact (List.sublist_append_left _ _).trans horder
    · exact hasked.trans (Nat.add_right_comm _ _ _)
  | @drop m x rest hstage hqueue =>
    cases x with
    | some x => exact h.drop hstage hqueue
    | none =>
      -- the `None` comes after the loop
      have hplain := (ho.serving (hstage ▸ rfl)).1
      exact absurd (hqueue ▸ List.mem_cons_self) hplain
  | take hsender hqueue => exact h.take hsender hqueue
  | takeNone hsender hqueue =>
    have hopen := (ho.alive (hsender ▸ rfl)).1
    exact absurd (hqueue ▸ List.mem_cons_self) (ho.serving hopen).1
  | @deliver m hsender =>
    have hcounted := h.counted
    obtain ⟨older, hkept, hgone⟩ := h.newest
    rw [hsender] at hcounted hgone
    refine ⟨h.bounded, h.inOrder, ⟨older, hkept, ?_⟩, h.asked, ?_⟩
    · show List.Sublist (c.delivered ++ [m] ++ []) older
      rwa [List.append_nil]
    · show c.kept.length = (c.delivered ++ [m]).length + 0 + _ + _ + _
      rwa [List.length_append]
  | @fail m hsender =>
    have hlose := h.lose (x := .ended) rfl
    rwa [hsender] at hlose
  | throw hsender =>
    have hlose := h.lose (x := .cancelled) rfl
    rwa [hsender] at hlose
  | discard hsender => exact ⟨h.bounded, h.inOrder, h.newest, h.asked, h.counted⟩
  | putNone hstage hroom => exact h.putNone (hstage ▸ rfl)
  | release hstage hsender =>
    have hstaged := h.on_stage (p := .released) (hstage ▸ rfl)
    exact ⟨hstaged.bounded, hstaged.inOrder, hstaged.newest, hstaged.asked, hstaged.counted⟩
  | releaseLate hstage hsender =>
    have hstaged := h.on_stage (p := .released) (hstage ▸ rfl)
    exact ⟨hstaged.bounded, hstaged.inOrder, hstaged.newest, hstaged.asked, hstaged.counted⟩
  | abort hstage hsender => exact h.on_stage (hstage ▸ rfl)

theorem Accounts.moves (h : Accounts c) (ho : Orderly c) (hmoves : Moves c c') : Accounts c' := by
  cases hmoves with
  | act hacts => exact h.acts ho hacts
  | register hstage hactive startsHeartbeat =>
    exact ⟨h.bounded, h.inOrder, h.newest, h.asked, h.counted⟩
  | close hstage hactive =>
    have hwaits : c.cancelAll.stage.waits = [] := congrArg Stage.waits hstage
    exact h.cancelAll.putNone hwaits

theorem orderly_of_reached (h : Reached step start w) : Orderly (w.connection i) :=
  connection_invariant h orderly_initial fun _ _ h hmoves => h.moves hmoves

/-- In every run of a worker, whatever its connections do and in whatever order: the queue of a
connection is never longer than allowed, and holds the newest of the messages it has taken; what is
sent keeps its order and is never doubled; and each message is with the client, in hand, in the
queue, waiting for room, or given up, at most one of them with the sender. -/
theorem messages_accounted (h : Reached step start w) :
    Accounts (w.connection i) ∧ (w.connection i).lost ≤ 1 := by
  have hboth := connection_invariant (i := i) (I := fun c => Orderly c ∧ Accounts c) h
    ⟨orderly_initial, accounts_initial⟩
    fun _ _ hc hmoves => ⟨hc.1.moves hmoves, hc.2.moves hc.1 hmoves⟩
  exact ⟨hboth.2, hboth.1.lost_le⟩

end

/-- One message was delivered, and the next is taken by the sender when the loop ends. -/
def closedInHand : Worker Unit ℕ :=
  (run step start
    [.act () .accept, .register (), .act () (.send 1), .act () (.send 2), .act () .take,
      .act () .deliver, .act () .take, .act () (.send 3), .close ()]).get (by decide)

theorem messages_accounted_closedInHand :
    Accounts (closedInHand.connection ()) ∧ (closedInHand.connection ()).lost ≤ 1 :=
  messages_accounted (.of_run (Option.some_get _).symm)

end WorkTicket.Ai.WsSending
