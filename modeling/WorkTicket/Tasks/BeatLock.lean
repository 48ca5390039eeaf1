import Mathlib
import WorkTicket.Foundation.Transition

/-! The lock of a beat task, in the two forms that `_acquire_beat_lock` has in the backend. Both ask
for a key in Redis and fall back on a dictionary of the process, and neither tells the other store
what it has admitted. -/

namespace WorkTicket.Tasks.BeatLock

open WorkTicket.Transition

/-! ## The stores -/

structure Admission where
  time : ℚ
  byRedis : Bool
  deriving DecidableEq, Repr

/-- Until when the keys `beat:lock:..` live, the dictionary of the process, and the calls so far that
returned `True`, the last one first. -/
structure World where
  now : ℚ
  keys : String → Option ℚ
  memory : String → Option ℚ
  admitted : String → List Admission

inductive Event
  | tick (seconds : ℚ)
  | call (taskName : String) (available : Bool)
  | clear (taskName : String)
  deriving DecidableEq, Repr

def start (now : ℚ) : World := ⟨now, fun _ => none, fun _ => none, fun _ => []⟩

/-- Redis raises where it cannot be reached, and for an expiry of no seconds. -/
def reaches (ttl : String → ℕ) (taskName : String) (available : Bool) : Bool :=
  available && 0 < ttl taskName

namespace World

variable (ttl : String → ℕ) (w : World) (taskName : String) (available : Bool)

def held : Bool := (w.keys taskName).any (w.now < ·)

/-- `set(f"beat:lock:..", "1", nx=True, ex=ttl)`. -/
def setNx : Bool × World :=
  if w.held taskName then (false, w)
  else (true,
    { w with keys := Function.update w.keys taskName (some (w.now + (ttl taskName : ℚ))) })

def remember (t : ℚ) : World := { w with memory := Function.update w.memory taskName (some t) }

def note (byRedis : Bool) : World :=
  { w with
    admitted := Function.update w.admitted taskName (⟨w.now, byRedis⟩ :: w.admitted taskName) }

end World

/-! ## `celery_config.beat` -/

namespace CeleryBeat

variable (ttl : String → ℕ) (w : World) (taskName : String) (available : Bool)

/-- The dictionary says when the thread that takes the local lock away wakes up. -/
def acquireBeatLock : Bool × World :=
  if reaches ttl taskName available then w.setNx ttl taskName
  else if (w.memory taskName).isSome then (false, w)
  else (true, w.remember taskName (w.now + (ttl taskName : ℚ)))

end CeleryBeat

/-! ## `app.billing.tasks` -/

namespace BillingTasks

def localBeatLockCacheTtl : ℚ := 120

variable (ttl : String → ℕ) (w : World) (taskName : String) (available : Bool)

/-- The dictionary says when Redis last gave the lock to this process. -/
def acquireBeatLock : Bool × World :=
  if reaches ttl taskName available then
    let (locked, w) := w.setNx ttl taskName
    (locked, if locked then w.remember taskName w.now else w)
  else (!(w.memory taskName).any (w.now - · < localBeatLockCacheTtl), w)

end BillingTasks

/-! ## Runs -/

/-- A call beside the log of what was admitted. -/
def World.call (acquire : World → String → Bool → Bool × World) (ttl : String → ℕ) (w : World)
    (taskName : String) (available : Bool) : World :=
  let (ok, w') := acquire w taskName available
  if ok then w'.note taskName (reaches ttl taskName available) else w'

def World.tick (w : World) (seconds : ℚ) : Option World :=
  if 0 ≤ seconds then some { w with now := w.now + seconds } else none

/-- A thread may wake up later than it asked for, and not earlier. -/
def World.clear (w : World) (taskName : String) : Option World :=
  if (w.memory taskName).any (· ≤ w.now) then
    some { w with memory := Function.update w.memory taskName none }
  else none

def CeleryBeat.step (ttl : String → ℕ) (w : World) : Event → Option World
  | .tick seconds => w.tick seconds
  | .call taskName available => some (w.call (acquireBeatLock ttl) ttl taskName available)
  | .clear taskName => w.clear taskName

/-- No thread takes anything from this dictionary. -/
def BillingTasks.step (ttl : String → ℕ) (w : World) : Event → Option World
  | .tick seconds => w.tick seconds
  | .call taskName available => some (w.call (acquireBeatLock ttl) ttl taskName available)
  | .clear _ => none

/-- Two calls for a task that return `True` are `ttl` seconds apart. -/
def Exclusive (ttl : String → ℕ) (w : World) : Prop :=
  ∀ taskName, (w.admitted taskName).Pairwise fun later earlier =>
    earlier.time + (ttl taskName : ℚ) ≤ later.time

/-- A call that reaches Redis comes when the local lock was last given `ttl` seconds ago or more,
and one that is left with a free local lock when Redis last gave its own that long ago. -/
def CeleryBeat.Meets (ttl : String → ℕ) (w : World) : Event → Prop
  | .call taskName available =>
    (reaches ttl taskName available = true →
      ∀ a ∈ w.admitted taskName, a.byRedis = false → a.time + (ttl taskName : ℚ) ≤ w.now) ∧
    (reaches ttl taskName available = false → w.memory taskName = none →
      ∀ a ∈ w.admitted taskName, a.byRedis = true → a.time + (ttl taskName : ℚ) ≤ w.now)
  | _ => True

/-- Every call comes when the last one without Redis that returned `True` was `ttl` seconds ago or
more. A call that does not reach Redis comes when Redis last gave the lock that long ago too, or
less than 120 seconds. -/
def BillingTasks.Meets (ttl : String → ℕ) (w : World) : Event → Prop
  | .call taskName available =>
    (∀ a ∈ w.admitted taskName, a.byRedis = false → a.time + (ttl taskName : ℚ) ≤ w.now) ∧
      (reaches ttl taskName available = false →
        ∀ a ∈ w.admitted taskName, a.byRedis = true →
          a.time + (ttl taskName : ℚ) ≤ w.now ∨ w.now < a.time + localBeatLockCacheTtl)
  | _ => True

/-! ## One task -/

theorem or_of_pairwise {α : Type*} {R : α → α → Prop} {l : List α} (h : l.Pairwise R) {a b : α}
    (ha : a ∈ l) (hb : b ∈ l) (hne : a ≠ b) : R a b ∨ R b a := by
  have hsymm : Std.Symm fun x y => R x y ∨ R y x := ⟨fun _ _ => Or.symm⟩
  have heither : l.Pairwise fun x y => R x y ∨ R y x := h.imp .inl
  exact heither.forall ha hb hne

/-- What the log of a task has to do with its key. -/
structure Logged (ttl : ℕ) (now : ℚ) (key : Option ℚ) (log : List Admission) : Prop where
  exclusive : log.Pairwise fun later earlier => earlier.time + (ttl : ℚ) ≤ later.time
  past : ∀ a ∈ log, a.time ≤ now
  keyed : ∀ a ∈ log, a.byRedis = true → ∃ t ∈ key, a.time + (ttl : ℚ) ≤ t
  origin : ∀ t ∈ key, ∃ a ∈ log, a.byRedis = true ∧ a.time + (ttl : ℚ) = t

section
variable {ttl : ℕ} {now later : ℚ} {key : Option ℚ} {log : List Admission}

theorem Logged.mono (h : Logged ttl now key log) (hle : now ≤ later) : Logged ttl later key log :=
  ⟨h.exclusive, fun a ha => (h.past a ha).trans hle, h.keyed, h.origin⟩

theorem Logged.cons_redis (h : Logged ttl now key log) (hfree : ∀ t ∈ key, t ≤ now)
    (hother : ∀ a ∈ log, a.byRedis = false → a.time + (ttl : ℚ) ≤ now) :
    Logged ttl now (some (now + ttl)) (⟨now, true⟩ :: log) := by
  have hall : ∀ a ∈ log, a.time + (ttl : ℚ) ≤ now := by
    intro a ha
    cases hredis : a.byRedis with
    | false => exact hother a ha hredis
    | true =>
      obtain ⟨t, ht, hle⟩ := h.keyed a ha hredis
      exact hle.trans (hfree t ht)
  refine ⟨List.pairwise_cons.mpr ⟨hall, h.exclusive⟩, ?_, ?_, ?_⟩
  · rintro a (_ | ⟨_, ha⟩)
    · exact le_rfl
    · exact h.past a ha
  · rintro a (_ | ⟨_, ha⟩) -
    · exact ⟨_, rfl, le_rfl⟩
    · exact ⟨_, rfl, by linarith [h.past a ha]⟩
  · rintro t ⟨⟩
    exact ⟨_, List.mem_cons_self, rfl, rfl⟩

theorem Logged.cons_local (h : Logged ttl now key log)
    (hall : ∀ a ∈ log, a.time + (ttl : ℚ) ≤ now) : Logged ttl now key (⟨now, false⟩ :: log) := by
  refine ⟨List.pairwise_cons.mpr ⟨hall, h.exclusive⟩, ?_, ?_, ?_⟩
  · rintro a (_ | ⟨_, ha⟩)
    · exact le_rfl
    · exact h.past a ha
  · rintro a (_ | ⟨_, ha⟩) hredis
    · cases hredis
    · exact h.keyed a ha hredis
  · intro t ht
    obtain ⟨a, ha, hredis⟩ := h.origin t ht
    exact ⟨a, List.mem_cons_of_mem _ ha, hredis⟩

/-- Of two calls less than `ttl` seconds ago, only one was admitted. -/
theorem Logged.eq_of_recent (h : Logged ttl now key log) {a b : Admission} (ha : a ∈ log)
    (hb : b ∈ log) (harecent : now < a.time + (ttl : ℚ)) (hbrecent : now < b.time + (ttl : ℚ)) :
    a = b := by
  by_contra hne
  rcases or_of_pairwise h.exclusive ha hb hne with hle | hle
  · linarith [h.past a ha]
  · linarith [h.past b hb]

/-- After a fallback less than `ttl` seconds ago, Redis has no key. -/
theorem Logged.free_of_local (h : Logged ttl now key log) {a : Admission} (ha : a ∈ log)
    (hlocal : a.byRedis = false) (hrecent : now < a.time + (ttl : ℚ)) : ∀ t ∈ key, t ≤ now := by
  intro t ht
  obtain ⟨b, hb, hredis, rfl⟩ := h.origin t ht
  by_contra hlive
  have heq := h.eq_of_recent ha hb hrecent (not_le.mp hlive)
  rw [heq, hredis] at hlocal
  cases hlocal

end

/-! ## The step of a world -/

section
variable {ttl : String → ℕ} {w : World} {taskName : String} {available : Bool}

theorem held_eq_false_iff : w.held taskName = false ↔ ∀ t ∈ w.keys taskName, t ≤ w.now := by
  unfold World.held
  cases w.keys taskName with
  | none => simp
  | some t => simp

theorem tick_eq {w' : World} {seconds : ℚ} (hs : w.tick seconds = some w') :
    w.now ≤ w.now + seconds ∧ w' = { w with now := w.now + seconds } := by
  obtain ⟨hle, rfl⟩ : 0 ≤ seconds ∧ _ = w' := by simpa [World.tick] using hs
  exact ⟨by linarith, rfl⟩

/-- The world in which Redis gives a lock. -/
def World.lock (ttl : String → ℕ) (w : World) (taskName : String) : World :=
  { w with keys := Function.update w.keys taskName (some (w.now + (ttl taskName : ℚ))) }

theorem setNx_of_held (h : w.held taskName = true) : w.setNx ttl taskName = (false, w) := by
  rw [World.setNx, if_pos h]

theorem setNx_of_free (h : w.held taskName = false) :
    w.setNx ttl taskName = (true, w.lock ttl taskName) := by
  rw [World.setNx, if_neg (by simp [h]), World.lock]

/-- An admission that is noted is `ttl` seconds after the others. -/
theorem Exclusive.of_note {byRedis : Bool} (h : Exclusive ttl (w.note taskName byRedis)) :
    ∀ a ∈ w.admitted taskName, a.time + (ttl taskName : ℚ) ≤ w.now := by
  have hpairwise := h taskName
  simp only [World.note, Function.update_self] at hpairwise
  exact (List.pairwise_cons.mp hpairwise).1

end

/-! ## The lock of `celery_config.beat` -/

namespace CeleryBeat

/-- A local lock is in place for `ttl` seconds. -/
structure Kept (ttl : ℕ) (now : ℚ) (key memory : Option ℚ) (log : List Admission) : Prop extends
    Logged ttl now key log where
  locked : ∀ a ∈ log, a.byRedis = false →
    a.time + (ttl : ℚ) ≤ now ∨ ∃ t ∈ memory, a.time + (ttl : ℚ) ≤ t

def Inv (ttl : String → ℕ) (w : World) : Prop :=
  ∀ taskName, Kept (ttl taskName) w.now (w.keys taskName) (w.memory taskName) (w.admitted taskName)

section
variable {ttl : String → ℕ} {w w' : World} {taskName : String} {available : Bool}

theorem Inv.exclusive (h : Inv ttl w) : Exclusive ttl w := fun taskName => (h taskName).exclusive

theorem inv_start (now : ℚ) : Inv ttl (start now) :=
  fun _ => ⟨⟨.nil, nofun, nofun, nofun⟩, nofun⟩

theorem inv_tick {seconds : ℚ} (h : Inv ttl w) (hs : w.tick seconds = some w') : Inv ttl w' := by
  obtain ⟨hlater, rfl⟩ := tick_eq hs
  intro other
  refine ⟨(h other).mono hlater, fun a ha hlocal => ?_⟩
  exact ((h other).locked a ha hlocal).imp_left fun hover => hover.trans hlater

theorem inv_clear (h : Inv ttl w) (hs : w.clear taskName = some w') : Inv ttl w' := by
  obtain ⟨hover, rfl⟩ : (w.memory taskName).any (· ≤ w.now) = true ∧ _ = w' := by
    simpa only [World.clear, Option.ite_none_right_eq_some, Option.some.injEq] using hs
  intro other
  refine ⟨(h other).toLogged, fun a ha hlocal => ?_⟩
  rcases (h other).locked a ha hlocal with hold | ⟨t, ht, hle⟩
  · exact .inl hold
  · by_cases hother : other = taskName
    · subst hother
      rw [Option.mem_def.mp ht, Option.any_some, decide_eq_true_eq] at hover
      exact .inl (hle.trans hover)
    · exact .inr ⟨t, by simpa [hother] using ht, hle⟩

theorem call_of_free (hreaches : reaches ttl taskName available = true)
    (hheld : w.held taskName = false) :
    w.call (acquireBeatLock ttl) ttl taskName available =
      (w.lock ttl taskName).note taskName true := by
  simp [World.call, acquireBeatLock, hreaches, setNx_of_free hheld]

theorem call_of_unlocked (hreaches : reaches ttl taskName available = false)
    (hmemory : w.memory taskName = none) :
    w.call (acquireBeatLock ttl) ttl taskName available =
      (w.remember taskName (w.now + (ttl taskName : ℚ))).note taskName false := by
  simp [World.call, acquireBeatLock, hreaches, hmemory]

/-- What a call does. -/
theorem call_cases (ttl : String → ℕ) (w : World) (taskName : String) (available : Bool) :
    w.call (acquireBeatLock ttl) ttl taskName available = w ∨
    (reaches ttl taskName available = true ∧ w.held taskName = false ∧
      w.call (acquireBeatLock ttl) ttl taskName available =
        (w.lock ttl taskName).note taskName true) ∨
    (reaches ttl taskName available = false ∧ w.memory taskName = none ∧
      w.call (acquireBeatLock ttl) ttl taskName available =
        (w.remember taskName (w.now + (ttl taskName : ℚ))).note taskName false) := by
  cases hreaches : reaches ttl taskName available with
  | true =>
    cases hheld : w.held taskName with
    | true => simp [World.call, acquireBeatLock, hreaches, setNx_of_held hheld]
    | false => exact .inr (.inl ⟨rfl, rfl, call_of_free hreaches hheld⟩)
  | false =>
    cases hmemory : w.memory taskName with
    | some t => simp [World.call, acquireBeatLock, hreaches, hmemory]
    | none => exact .inr (.inr ⟨rfl, rfl, call_of_unlocked hreaches hmemory⟩)

theorem inv_call (h : Inv ttl w) (hok : Meets ttl w (.call taskName available)) :
    Inv ttl (w.call (acquireBeatLock ttl) ttl taskName available) := by
  obtain ⟨hup, hdown⟩ := hok
  rcases call_cases ttl w taskName available with heq | ⟨hreaches, hheld, heq⟩ |
    ⟨hreaches, hmemory, heq⟩
  · rw [heq]
    exact h
  · rw [heq]
    intro other
    by_cases hother : other = taskName
    · subst hother
      have hlogged := (h other).cons_redis (held_eq_false_iff.mp hheld) (hup hreaches)
      refine ⟨by simpa [World.lock, World.note] using hlogged, ?_⟩
      simpa [World.lock, World.note] using (h other).locked
    · simpa [World.lock, World.note, hother] using h other
  · rw [heq]
    have hall : ∀ a ∈ w.admitted taskName, a.time + (ttl taskName : ℚ) ≤ w.now := by
      intro a ha
      cases hredis : a.byRedis with
      | true => exact hdown hreaches hmemory a ha hredis
      | false =>
        rcases (h taskName).locked a ha hredis with hover | ⟨t, ht, -⟩
        · exact hover
        · rw [hmemory] at ht
          cases ht
    intro other
    by_cases hother : other = taskName
    · subst hother
      refine ⟨by simpa [World.remember, World.note] using (h other).cons_local hall, ?_⟩
      intro a ha hlocal
      refine .inr ⟨w.now + (ttl other : ℚ), by simp [World.remember, World.note], ?_⟩
      have hlogged := (h other).cons_local hall
      have hpast := hlogged.past a (by simpa [World.remember, World.note] using ha)
      linarith
    · simpa [World.remember, World.note, hother] using h other

theorem inv_step (h : Inv ttl w) {e : Event} (hok : Meets ttl w e) (hs : step ttl w e = some w') :
    Inv ttl w' := by
  cases e with
  | tick seconds => exact inv_tick h hs
  | call taskName available =>
    obtain rfl := Option.some.inj hs
    exact inv_call h hok
  | clear taskName => exact inv_clear h hs

/-- What is admitted now keeps its distance. -/
theorem meets_of_exclusive (h : Inv ttl w) {e : Event} (hs : step ttl w e = some w')
    (hexclusive : Exclusive ttl w') : Meets ttl w e := by
  cases e with
  | tick seconds => trivial
  | clear taskName => trivial
  | call taskName available =>
    obtain rfl := Option.some.inj hs
    refine ⟨fun hreaches a ha hlocal => ?_, fun hreaches hmemory a ha hredis => ?_⟩
    · by_contra hrecent
      have hfree := (h taskName).free_of_local ha hlocal (not_le.mp hrecent)
      rw [call_of_free hreaches (held_eq_false_iff.mpr hfree)] at hexclusive
      exact hrecent (hexclusive.of_note a ha)
    · rw [call_of_unlocked hreaches hmemory] at hexclusive
      exact hexclusive.of_note a ha

end

end CeleryBeat

/-! ## The lock of `app.billing.tasks` -/

namespace BillingTasks

/-- The cache has the last lock that Redis gave, and the fallback waited for 120 seconds after it. -/
structure Kept (ttl : ℕ) (now : ℚ) (key memory : Option ℚ) (log : List Admission) : Prop extends
    Logged ttl now key log where
  cached : ∀ a ∈ log, a.byRedis = true → ∃ t ∈ memory, a.time ≤ t
  stashed : ∀ t ∈ memory, ∃ a ∈ log, a.byRedis = true ∧ a.time = t
  waited : log.Pairwise fun later earlier => later.byRedis = false → earlier.byRedis = true →
    earlier.time + localBeatLockCacheTtl ≤ later.time

def Inv (ttl : String → ℕ) (w : World) : Prop :=
  ∀ taskName, Kept (ttl taskName) w.now (w.keys taskName) (w.memory taskName) (w.admitted taskName)

section
variable {ttl : String → ℕ} {w w' : World} {taskName : String} {available : Bool}

theorem Inv.exclusive (h : Inv ttl w) : Exclusive ttl w := fun taskName => (h taskName).exclusive

theorem inv_start (now : ℚ) : Inv ttl (start now) :=
  fun _ => ⟨⟨.nil, nofun, nofun, nofun⟩, nofun, nofun, .nil⟩

theorem inv_tick {seconds : ℚ} (h : Inv ttl w) (hs : w.tick seconds = some w') : Inv ttl w' := by
  obtain ⟨hlater, rfl⟩ := tick_eq hs
  intro other
  exact ⟨(h other).mono hlater, (h other).cached, (h other).stashed, (h other).waited⟩

/-- The cache does not stop a call without Redis. -/
def Allows (w : World) (taskName : String) : Prop :=
  ∀ t ∈ w.memory taskName, t + localBeatLockCacheTtl ≤ w.now

theorem allows_iff : Allows w taskName ↔
    (w.memory taskName).any (w.now - · < localBeatLockCacheTtl) = false := by
  unfold Allows
  cases w.memory taskName with
  | none => simp
  | some t =>
    simp only [Option.mem_def, Option.some.injEq, forall_eq', Option.any_some,
      decide_eq_false_iff_not, not_lt]
    constructor <;> intro h <;> linarith

theorem call_of_free (hreaches : reaches ttl taskName available = true)
    (hheld : w.held taskName = false) :
    w.call (acquireBeatLock ttl) ttl taskName available =
      ((w.lock ttl taskName).remember taskName w.now).note taskName true := by
  have hnow : (w.lock ttl taskName).now = w.now := rfl
  simp [World.call, acquireBeatLock, hreaches, setNx_of_free hheld, hnow]

theorem call_of_allows (hreaches : reaches ttl taskName available = false)
    (hallows : Allows w taskName) :
    w.call (acquireBeatLock ttl) ttl taskName available = w.note taskName false := by
  simp [World.call, acquireBeatLock, hreaches, allows_iff.mp hallows]

/-- What a call does. -/
theorem call_cases (ttl : String → ℕ) (w : World) (taskName : String) (available : Bool) :
    w.call (acquireBeatLock ttl) ttl taskName available = w ∨
    (reaches ttl taskName available = true ∧ w.held taskName = false ∧
      w.call (acquireBeatLock ttl) ttl taskName available =
        ((w.lock ttl taskName).remember taskName w.now).note taskName true) ∨
    (reaches ttl taskName available = false ∧ Allows w taskName ∧
      w.call (acquireBeatLock ttl) ttl taskName available = w.note taskName false) := by
  cases hreaches : reaches ttl taskName available with
  | true =>
    cases hheld : w.held taskName with
    | true => simp [World.call, acquireBeatLock, hreaches, setNx_of_held hheld]
    | false => exact .inr (.inl ⟨rfl, rfl, call_of_free hreaches hheld⟩)
  | false =>
    by_cases hallows : Allows w taskName
    · exact .inr (.inr ⟨rfl, hallows, call_of_allows hreaches hallows⟩)
    · rw [allows_iff, Bool.not_eq_false] at hallows
      simp [World.call, acquireBeatLock, hreaches, hallows]

theorem inv_call (h : Inv ttl w) (hok : Meets ttl w (.call taskName available)) :
    Inv ttl (w.call (acquireBeatLock ttl) ttl taskName available) := by
  obtain ⟨hlocal, hdown⟩ := hok
  rcases call_cases ttl w taskName available with heq | ⟨hreaches, hheld, heq⟩ |
    ⟨hreaches, hallows, heq⟩
  · rw [heq]
    exact h
  · rw [heq]
    intro other
    by_cases hother : other = taskName
    · subst hother
      have hlogged := (h other).cons_redis (held_eq_false_iff.mp hheld) hlocal
      refine ⟨by simpa [World.lock, World.remember, World.note] using hlogged, ?_, ?_, ?_⟩
      · intro a ha _
        refine ⟨w.now, by simp [World.remember, World.note], ?_⟩
        exact hlogged.past a (by simpa [World.lock, World.remember, World.note] using ha)
      · simp [World.lock, World.remember, World.note]
      · simpa [World.lock, World.remember, World.note] using (h other).waited
    · simpa [World.lock, World.remember, World.note, hother] using h other
  · rw [heq]
    have hwaited : ∀ a ∈ w.admitted taskName, a.byRedis = true →
        a.time + localBeatLockCacheTtl ≤ w.now := by
      intro a ha hredis
      obtain ⟨t, ht, hle⟩ := (h taskName).cached a ha hredis
      linarith [hallows t ht]
    have hall : ∀ a ∈ w.admitted taskName, a.time + (ttl taskName : ℚ) ≤ w.now := by
      intro a ha
      cases hredis : a.byRedis with
      | false => exact hlocal a ha hredis
      | true =>
        rcases hdown hreaches a ha hredis with hover | hcached
        · exact hover
        · linarith [hwaited a ha hredis]
    intro other
    by_cases hother : other = taskName
    · subst hother
      refine ⟨by simpa [World.note] using (h other).cons_local hall, ?_, ?_, ?_⟩
      · simpa [World.note] using (h other).cached
      · simpa [World.note] using (h other).stashed
      · simpa [World.note] using ⟨hwaited, (h other).waited⟩
    · simpa [World.note, hother] using h other

theorem inv_step (h : Inv ttl w) {e : Event} (hok : Meets ttl w e) (hs : step ttl w e = some w') :
    Inv ttl w' := by
  cases e with
  | tick seconds => exact inv_tick h hs
  | call taskName available =>
    obtain rfl := Option.some.inj hs
    exact inv_call h hok
  | clear taskName => cases hs

/-- The cache knows of no lock that is newer than an admission of the last `ttl` seconds, unless it
is the admission itself. -/
theorem Kept.allows_of_recent {ttl : ℕ} {now : ℚ} {key memory : Option ℚ} {log : List Admission}
    (h : Kept ttl now key memory log) {a : Admission} (ha : a ∈ log)
    (hrecent : now < a.time + (ttl : ℚ))
    (hother : a.byRedis = true → a.time + localBeatLockCacheTtl ≤ now) :
    ∀ t ∈ memory, t + localBeatLockCacheTtl ≤ now := by
  intro t ht
  obtain ⟨b, hb, hredis, rfl⟩ := h.stashed t ht
  by_cases heq : a = b
  · subst heq
    exact hother hredis
  by_contra hfresh
  have hbpast := h.past b hb
  rcases or_of_pairwise (h.exclusive.and h.waited) ha hb heq with ⟨hle, hwait⟩ | ⟨hle, -⟩
  · -- the fallback came after the lock, and the lock was given less than 120 seconds ago
    cases haredis : a.byRedis with
    | true =>
      have hold := hother haredis
      have hnonneg : (0 : ℚ) ≤ ttl := Nat.cast_nonneg ttl
      linarith
    | false =>
      have hwaited := hwait haredis hredis
      linarith [h.past a ha]
  · linarith

/-- What is admitted now keeps its distance. -/
theorem meets_of_exclusive (h : Inv ttl w) {e : Event} (hs : step ttl w e = some w')
    (hexclusive : Exclusive ttl w') : Meets ttl w e := by
  cases e with
  | tick seconds => trivial
  | clear taskName => trivial
  | call taskName available =>
    obtain rfl := Option.some.inj hs
    have hadmitted : reaches ttl taskName available = false → Allows w taskName →
        ∀ a ∈ w.admitted taskName, a.time + (ttl taskName : ℚ) ≤ w.now := by
      intro hreaches hallows
      rw [call_of_allows hreaches hallows] at hexclusive
      exact hexclusive.of_note
    refine ⟨fun a ha hlocal => ?_, fun hreaches a ha hredis => ?_⟩
    · by_contra hrecent
      cases hreaches : reaches ttl taskName available with
      | true =>
        have hfree := (h taskName).free_of_local ha hlocal (not_le.mp hrecent)
        rw [call_of_free hreaches (held_eq_false_iff.mpr hfree)] at hexclusive
        exact hrecent (hexclusive.of_note a ha)
      | false =>
        have hallows := (h taskName).allows_of_recent ha (not_le.mp hrecent)
          (fun hredis => by simp [hlocal] at hredis)
        exact hrecent (hadmitted hreaches hallows a ha)
    · by_contra hboth
      obtain ⟨hrecent, hold⟩ := not_or.mp hboth
      have hallows := (h taskName).allows_of_recent ha (not_le.mp hrecent) fun _ => not_lt.mp hold
      exact hrecent (hadmitted hreaches hallows a ha)

end

end BillingTasks

/-- Calls are admitted `ttl` seconds apart along a run exactly if none of them asks a store that
does not know of a lock of the last `ttl` seconds. -/
theorem exclusive_along_iff (ttl : String → ℕ) (now : ℚ) (es : List Event) :
    (Along (CeleryBeat.step ttl) (Exclusive ttl) (start now) es ↔
      EachStep (CeleryBeat.step ttl) (CeleryBeat.Meets ttl) (start now) es) ∧
    (Along (BillingTasks.step ttl) (Exclusive ttl) (start now) es ↔
      EachStep (BillingTasks.step ttl) (BillingTasks.Meets ttl) (start now) es) := by
  constructor
  · exact along_iff_eachStep (fun _ h => h.exclusive)
      (fun _ _ _ h hok hs => CeleryBeat.inv_step h hok hs)
      (fun _ _ _ h hs hexclusive => CeleryBeat.meets_of_exclusive h hs hexclusive)
      (CeleryBeat.inv_start now) es
  · exact along_iff_eachStep (fun _ h => h.exclusive)
      (fun _ _ _ h hok hs => BillingTasks.inv_step h hok hs)
      (fun _ _ _ h hs hexclusive => BillingTasks.meets_of_exclusive h hs hexclusive)
      (BillingTasks.inv_start now) es

/-- Redis gives a lock of five minutes and is gone. `celery_config.beat` gives its own at once;
`app.billing.tasks` waits for two minutes. -/
theorem admitted_twice :
    ¬Along (CeleryBeat.step fun _ => 300) (Exclusive fun _ => 300) (start 0)
      [.call "scan_for_stalled_ai_jobs" true, .call "scan_for_stalled_ai_jobs" false] ∧
    ¬Along (BillingTasks.step fun _ => 300) (Exclusive fun _ => 300) (start 0)
      [.call "retry_expired_dead_letter_jobs" true, .tick 120,
        .call "retry_expired_dead_letter_jobs" false] := by
  have htwice : ∀ (step : World → Event → Option World) es taskName times,
      ((run step (start 0) es).map fun w => (w.admitted taskName).map Admission.time) = some times →
      ¬times.Pairwise (fun later earlier => earlier + 300 ≤ later) →
      ¬Along step (Exclusive fun _ => 300) (start 0) es := by
    rintro step es taskName times hrun htimes halong
    obtain ⟨w, hw, rfl⟩ := Option.map_eq_some_iff.mp hrun
    have hapart := halong.last hw taskName
    exact htimes (List.pairwise_map.mpr (by simpa using hapart))
  exact ⟨htwice _ _ "scan_for_stalled_ai_jobs" [0, 0] (by decide +kernel) (by decide +kernel),
    htwice _ _ "retry_expired_dead_letter_jobs" [120, 0] (by decide +kernel) (by decide +kernel)⟩

end WorkTicket.Tasks.BeatLock
