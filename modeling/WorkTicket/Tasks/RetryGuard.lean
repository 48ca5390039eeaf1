import Mathlib
import WorkTicket.Foundation.Transition

/-! The guard against retry storms under concurrent calls. A call reads the count of its key with one
command and raises it with another; where Redis fails, the process counts by itself. -/

namespace WorkTicket.Tasks.RetryGuard

open WorkTicket.Transition

def retryWindowSeconds : ℚ := 300
def retryMaxPerWindow : ℕ := 5

/-! ## The counts of a process -/

/-- `[count, ts]` of `_local_retry_counts`. -/
structure Entry where
  count : ℕ
  ts : ℚ
  deriving DecidableEq, Repr

def Entry.over (e : Entry) (now : ℚ) : Bool := retryWindowSeconds < now - e.ts

structure LocalStore where
  counts : String → Option Entry
  lastCleanup : ℚ

namespace LocalStore

variable (l : LocalStore) (now : ℚ) (key : String)

def put (e : Entry) : LocalStore := { l with counts := Function.update l.counts key (some e) }

def cleanup : LocalStore :=
  if 60 < now - l.lastCleanup then
    let cutoff := now - retryWindowSeconds
    ⟨fun key => (l.counts key).filter fun e => !(e.ts < cutoff), now⟩
  else l

def checkLocal : Bool × LocalStore :=
  let l := l.cleanup now
  match l.counts key with
  | some e =>
    if e.over now then (true, l.put key ⟨1, now⟩)
    else if retryMaxPerWindow ≤ e.count then (false, l)
    else (true, l.put key ⟨e.count + 1, e.ts⟩)
  | none => (true, l.put key ⟨1, now⟩)

/-- The window that is open for a key. -/
def window? : Option Entry := (l.counts key).filter fun e => !e.over now

end LocalStore

/-! ## Calls of any number of workers -/

structure Counter where
  count : ℕ
  expires : ℚ
  deriving DecidableEq, Repr

/-- What a call does next: `GET`, the pipeline of `INCR` and `EXPIRE`, or `_check_local`. -/
inductive Phase
  | get
  | execute
  | checkLocal
  deriving DecidableEq, Repr

structure Call where
  worker : ℕ
  key : String
  phase : Phase
  deriving DecidableEq, Repr

structure Refusal where
  time : ℚ
  lastAdmitted : Option ℚ
  deriving DecidableEq, Repr

/-- The counts in Redis and in the processes, and the calls under way. Beside them: how many calls
of a key each store has let through since its count of the key last expired, when a call of the key
was last let through, and the calls that were not. -/
structure World where
  now : ℚ
  redis : String → Option Counter
  memory : ℕ → LocalStore
  calls : ℕ → Option Call
  byRedis : String → ℕ
  byMemory : ℕ → String → ℕ
  lastAdmitted : String → Option ℚ
  refusals : List Refusal

/-- The pipeline runs and its reply comes back, it runs and its reply is lost, or it does not run. -/
inductive Outcome
  | answered
  | lost
  | failed
  deriving DecidableEq, Repr

inductive Event
  | tick (seconds : ℚ)
  | checkRetryStorm (i : ℕ) (worker : ℕ) (jobId taskName : String)
  | get (i : ℕ) (available : Bool)
  | execute (i : ℕ) (outcome : Outcome)
  | checkLocal (i : ℕ)
  deriving DecidableEq, Repr

def start (now : ℚ) : World where
  now := now
  redis := fun _ => none
  memory := fun _ => ⟨fun _ => none, 0⟩
  calls := fun _ => none
  byRedis := fun _ => 0
  byMemory := fun _ _ => 0
  lastAdmitted := fun _ => none
  refusals := []

namespace World

variable (s : World) (i : ℕ) (c : Call) (key : String)

def counter? : Option Counter := (s.redis key).filter fun c => s.now < c.expires

def count : ℕ := (s.counter? key).elim 0 Counter.count

def setCall : World := { s with calls := Function.update s.calls i (some c) }

/-- `True` is returned. -/
def letThrough : World :=
  { s with
    calls := Function.update s.calls i none
    lastAdmitted := Function.update s.lastAdmitted c.key (some s.now) }

/-- `False` is returned. -/
def refuse : World :=
  { s with
    calls := Function.update s.calls i none
    refusals := ⟨s.now, s.lastAdmitted c.key⟩ :: s.refusals }

/-- `INCR` and `EXPIRE` in one transaction; `admitted` is what the key has let through then. -/
def increment (admitted : ℕ) : World :=
  { s with
    redis := Function.update s.redis key (some ⟨s.count key + 1, s.now + retryWindowSeconds⟩)
    byRedis := Function.update s.byRedis key admitted }

/-- The calls that Redis has let through since the key expired. -/
def sinceExpiry : ℕ := if (s.counter? key).isSome then s.byRedis key else 0

def sinceReset (worker : ℕ) : ℕ :=
  if ((s.memory worker).window? s.now key).isSome then s.byMemory worker key else 0

def setMemory (worker : ℕ) (l : LocalStore) : World :=
  { s with memory := Function.update s.memory worker l }

def countLocal (worker : ℕ) : World :=
  { s with
    byMemory := Function.update s.byMemory worker
      (Function.update (s.byMemory worker) key (s.sinceReset key worker + 1)) }

end World

def step (s : World) : Event → Option (World)
  | .tick seconds => if 0 ≤ seconds then some { s with now := s.now + seconds } else none
  | .checkRetryStorm i worker jobId taskName =>
    match s.calls i with
    | none => some (s.setCall i ⟨worker, "retry:" ++ taskName ++ ":" ++ jobId, .get⟩)
    | some _ => none
  | .get i available =>
    match s.calls i with
    | some c =>
      if c.phase ≠ .get then none
      else if available = false then some (s.setCall i { c with phase := .checkLocal })
      else if retryMaxPerWindow ≤ s.count c.key then some (s.refuse i c)
      else some (s.setCall i { c with phase := .execute })
    | none => none
  | .execute i outcome =>
    match s.calls i with
    | some c =>
      if c.phase ≠ .execute then none
      else match outcome with
        | .answered => some ((s.increment c.key (s.sinceExpiry c.key + 1)).letThrough i c)
        | .lost => some ((s.increment c.key (s.sinceExpiry c.key)).setCall i
            { c with phase := .checkLocal })
        | .failed => some (s.setCall i { c with phase := .checkLocal })
    | none => none
  | .checkLocal i =>
    match s.calls i with
    | some c =>
      if c.phase ≠ .checkLocal then none
      else
        let (ok, l) := (s.memory c.worker).checkLocal s.now c.key
        if ok then some (((s.countLocal c.key c.worker).setMemory c.worker l).letThrough i c)
        else some ((s.setMemory c.worker l).refuse i c)
    | none => none

/-- No store lets more than five calls through between two expirations, and a call is refused
only if one was let through in the last five minutes. -/
structure Guarded (s : World) : Prop where
  redis : ∀ key, s.byRedis key ≤ retryMaxPerWindow
  memory : ∀ worker key, s.byMemory worker key ≤ retryMaxPerWindow
  recent : ∀ r ∈ s.refusals, ∃ t ∈ r.lastAdmitted, r.time ≤ t + retryWindowSeconds

/-- A pipeline finds the count below five still, and if its reply is lost, it leaves the count
below five. -/
def Timely (s : World) : Event → Prop
  | .execute i outcome => ∀ c ∈ s.calls i,
    (outcome = .answered → s.count c.key < retryMaxPerWindow) ∧
      (outcome = .lost → s.count c.key + 1 < retryMaxPerWindow)
  | _ => True

instance (s : World) (e : Event) : Decidable (Timely s e) := by
  cases e <;> unfold Timely <;> infer_instance

/-! ## The counts bound what is let through -/

theorem cleanup_counts {l : LocalStore} {now : ℚ} {key : String} {e : Entry}
    (h : e ∈ (l.cleanup now).counts key) : e ∈ l.counts key := by
  unfold LocalStore.cleanup at h
  split at h
  · exact (Option.filter_eq_some_iff.mp h).1
  · exact h

/-- What is cleaned up was no open window. -/
theorem window?_cleanup (l : LocalStore) (now : ℚ) (key : String) :
    (l.cleanup now).window? now key = l.window? now key := by
  have hover : (fun e : Entry => !decide (e.ts < now - retryWindowSeconds)) =
      fun e => !e.over now := by
    funext e
    rw [Entry.over]
    simp only [lt_sub_comm]
  unfold LocalStore.cleanup
  split
  · simp only [LocalStore.window?, hover, Option.filter_filter, Bool.and_self]
  · rfl

/-- What `_check_local` does, by the window that is open. -/
theorem checkLocal_cases (l : LocalStore) (now : ℚ) (key : String) :
    (∃ e, l.window? now key = some e ∧ retryMaxPerWindow ≤ e.count ∧
      l.checkLocal now key = (false, l.cleanup now)) ∨
    (∃ e, l.window? now key = some e ∧ e.count < retryMaxPerWindow ∧
      l.checkLocal now key = (true, (l.cleanup now).put key ⟨e.count + 1, e.ts⟩)) ∨
    (l.window? now key = none ∧
      l.checkLocal now key = (true, (l.cleanup now).put key ⟨1, now⟩)) := by
  rw [← window?_cleanup]
  simp only [LocalStore.checkLocal]
  cases hentry : (l.cleanup now).counts key with
  | none => exact .inr (.inr ⟨by simp [LocalStore.window?, hentry], rfl⟩)
  | some e =>
    by_cases hover : e.over now = true
    · exact .inr (.inr ⟨by simp [LocalStore.window?, hentry, hover], by simp [hover]⟩)
    · have hwindow : (l.cleanup now).window? now key = some e := by
        simp [LocalStore.window?, hentry, hover]
      by_cases hfull : retryMaxPerWindow ≤ e.count
      · exact .inl ⟨e, hwindow, hfull, by simp [hover, hfull]⟩
      · exact .inr (.inl ⟨e, hwindow, not_le.mp hfull, by simp [hover, hfull]⟩)

/-- The count in Redis is at least what Redis has let through, and a full one lives for five minutes
after a call that was let through; the same of the windows of the processes. -/
structure Inv (s : World) : Prop extends Guarded s where
  counter : ∀ key, ∀ c ∈ s.redis key, s.byRedis key ≤ c.count ∧
    (retryMaxPerWindow ≤ c.count →
      ∃ t ∈ s.lastAdmitted key, c.expires - retryWindowSeconds ≤ t)
  entry : ∀ worker key, ∀ e ∈ (s.memory worker).counts key, s.byMemory worker key ≤ e.count ∧
    ∃ t ∈ s.lastAdmitted key, e.ts ≤ t
  past : ∀ key, ∀ t ∈ s.lastAdmitted key, t ≤ s.now

variable {s s' : World} {i : ℕ} {c : Call}

theorem inv_start (now : ℚ) : Inv (start now) :=
  ⟨⟨fun _ => Nat.zero_le _, fun _ _ => Nat.zero_le _, nofun⟩, nofun, nofun, nofun⟩

theorem Inv.tick {seconds : ℚ} (h : Inv s) (hle : 0 ≤ seconds) :
    Inv { s with now := s.now + seconds } := by
  refine ⟨⟨h.redis, h.memory, h.recent⟩, h.counter, h.entry, fun key t ht => ?_⟩
  exact (h.past key t ht).trans (le_add_of_nonneg_right hle)

theorem Inv.setCall (h : Inv s) (i : ℕ) (c : Call) : Inv (s.setCall i c) :=
  ⟨⟨h.redis, h.memory, h.recent⟩, h.counter, h.entry, h.past⟩

theorem Inv.refuse (h : Inv s) (i : ℕ)
    (hrecent : ∃ t ∈ s.lastAdmitted c.key, s.now ≤ t + retryWindowSeconds) :
    Inv (s.refuse i c) := by
  refine ⟨⟨h.redis, h.memory, ?_⟩, h.counter, h.entry, h.past⟩
  rintro r (_ | ⟨_, hr⟩)
  · exact hrecent
  · exact h.recent r hr

/-- Forgetting windows keeps the invariant. -/
theorem Inv.setMemory (h : Inv s) {worker : ℕ} {l : LocalStore}
    (hl : ∀ key, ∀ e ∈ l.counts key, e ∈ (s.memory worker).counts key) :
    Inv (s.setMemory worker l) := by
  refine ⟨⟨h.redis, h.memory, h.recent⟩, h.counter, fun other key e he => ?_, h.past⟩
  by_cases hother : other = worker
  · subst hother
    simp only [World.setMemory, Function.update_self] at he
    exact h.entry other key e (hl key e he)
  · simp only [World.setMemory, Function.update_of_ne hother] at he
    exact h.entry other key e he

/-- A later time of the last admission is as good. -/
theorem Inv.lastAdmitted_le (h : Inv s) {key other : String} {x : ℚ}
    (hx : ∃ t ∈ s.lastAdmitted other, x ≤ t) :
    ∃ t ∈ Function.update s.lastAdmitted key (some s.now) other, x ≤ t := by
  obtain ⟨t, ht, hle⟩ := hx
  by_cases hother : other = key
  · subst hother
    exact ⟨s.now, by simp, hle.trans (h.past other t ht)⟩
  · exact ⟨t, by simpa [hother] using ht, hle⟩

theorem Inv.past_admitted (h : Inv s) {key other : String} :
    ∀ t ∈ Function.update s.lastAdmitted key (some s.now) other, t ≤ s.now := by
  intro t ht
  by_cases hother : other = key
  · subst hother
    simp only [Function.update_self, Option.mem_def, Option.some.injEq] at ht
    exact ht.ge
  · exact h.past other t (by simpa [hother] using ht)

/-- The count in Redis bounds what Redis has let through since the key expired. -/
theorem Inv.sinceExpiry_le (h : Inv s) (key : String) : s.sinceExpiry key ≤ s.count key := by
  unfold World.sinceExpiry World.count
  cases hcounter : s.counter? key with
  | none => simp
  | some c => simpa using (h.counter key c (Option.filter_eq_some_iff.mp hcounter).1).1

theorem Inv.answered (h : Inv s) (i : ℕ) (hcount : s.count c.key < retryMaxPerWindow) :
    Inv ((s.increment c.key (s.sinceExpiry c.key + 1)).letThrough i c) := by
  have hsince := h.sinceExpiry_le c.key
  refine ⟨⟨fun key => ?_, h.memory, h.recent⟩, fun key d hd => ?_, fun worker key e he => ?_,
    fun key => h.past_admitted⟩
  · by_cases hkey : key = c.key
    · subst hkey
      simp only [World.letThrough, World.increment, Function.update_self]
      omega
    · simpa [World.letThrough, World.increment, hkey] using h.redis key
  · by_cases hkey : key = c.key
    · subst hkey
      simp only [World.letThrough, World.increment, Function.update_self, Option.mem_def,
        Option.some.injEq] at hd ⊢
      subst hd
      exact ⟨Nat.succ_le_succ hsince, fun _ => ⟨s.now, rfl, (add_sub_cancel_right ..).le⟩⟩
    · simp only [World.letThrough, World.increment, Function.update_of_ne hkey] at hd ⊢
      exact h.counter key d hd
  · obtain ⟨hle, hrecent⟩ := h.entry worker key e he
    exact ⟨hle, h.lastAdmitted_le hrecent⟩

theorem Inv.lost (h : Inv s) {key : String} (hcount : s.count key + 1 < retryMaxPerWindow) :
    Inv (s.increment key (s.sinceExpiry key)) := by
  have hsince := h.sinceExpiry_le key
  refine ⟨⟨fun other => ?_, h.memory, h.recent⟩, fun other d hd => ?_, h.entry, h.past⟩
  · by_cases hother : other = key
    · subst hother
      simp only [World.increment, Function.update_self]
      omega
    · simpa [World.increment, hother] using h.redis other
  · by_cases hother : other = key
    · subst hother
      simp only [World.increment, Function.update_self, Option.mem_def, Option.some.injEq] at hd ⊢
      subst hd
      exact ⟨hsince.trans (Nat.le_succ _), fun hfull => absurd hfull (not_le.mpr hcount)⟩
    · simp only [World.increment, Function.update_of_ne hother] at hd ⊢
      exact h.counter other d hd

theorem Inv.checkLocal (h : Inv s) (i : ℕ) {e : Entry} {l : LocalStore}
    (hl : ∀ key, ∀ e ∈ l.counts key, e ∈ (s.memory c.worker).counts key)
    (hsince : s.sinceReset c.key c.worker + 1 ≤ e.count)
    (hcount : s.sinceReset c.key c.worker + 1 ≤ retryMaxPerWindow) (hts : e.ts ≤ s.now) :
    Inv (((s.countLocal c.key c.worker).setMemory c.worker (l.put c.key e)).letThrough i c) := by
  refine ⟨⟨h.redis, fun worker key => ?_, h.recent⟩, fun key d hd => ?_,
    fun worker key d hd => ?_, fun key => h.past_admitted⟩
  · simp only [World.letThrough, World.setMemory, World.countLocal]
    by_cases hworker : worker = c.worker
    · subst hworker
      by_cases hkey : key = c.key
      · subst hkey
        simpa using hcount
      · simpa [hkey] using h.memory c.worker key
    · simpa [hworker] using h.memory worker key
  · obtain ⟨hle, hrecent⟩ := h.counter key d hd
    exact ⟨hle, fun hfull => h.lastAdmitted_le (hrecent hfull)⟩
  · simp only [World.letThrough, World.setMemory, World.countLocal] at hd ⊢
    by_cases hworker : worker = c.worker
    · subst hworker
      rw [Function.update_self] at hd ⊢
      simp only [LocalStore.put] at hd
      by_cases hkey : key = c.key
      · subst hkey
        simp only [Function.update_self, Option.mem_def, Option.some.injEq] at hd ⊢
        subst hd
        exact ⟨hsince, s.now, rfl, hts⟩
      · simp only [Function.update_of_ne hkey] at hd ⊢
        exact h.entry c.worker key d (hl key d hd)
    · simp only [Function.update_of_ne hworker] at hd ⊢
      obtain ⟨hle, hrecent⟩ := h.entry worker key d hd
      exact ⟨hle, h.lastAdmitted_le hrecent⟩

theorem Inv.checkLocal_step (h : Inv s) (hc : s.calls i = some c)
    (hs : step s (.checkLocal i) = some s') : Inv s' := by
  have hcleanup : ∀ key, ∀ e ∈ ((s.memory c.worker).cleanup s.now).counts key,
      e ∈ (s.memory c.worker).counts key := fun _ _ => cleanup_counts
  obtain ⟨hphase, hs⟩ : c.phase = .checkLocal ∧ _ := by
    simpa only [step, hc, Option.ite_none_left_eq_some, not_not] using hs
  rcases checkLocal_cases (s.memory c.worker) s.now c.key with ⟨e, hwindow, hfull, heq⟩ |
    ⟨e, hwindow, hroom, heq⟩ | ⟨hwindow, heq⟩
  · rw [heq] at hs
    obtain rfl := Option.some.inj hs
    obtain ⟨hentry, hopen⟩ := Option.filter_eq_some_iff.mp hwindow
    obtain ⟨-, t, ht, hts⟩ := h.entry c.worker c.key e hentry
    simp only [Entry.over, Bool.not_eq_true', decide_eq_false_iff_not, not_lt] at hopen
    exact (h.setMemory hcleanup).refuse i ⟨t, ht, by simp only [World.setMemory]; linarith⟩
  · rw [heq] at hs
    obtain rfl := Option.some.inj hs
    obtain ⟨hentry, -⟩ := Option.filter_eq_some_iff.mp hwindow
    obtain ⟨hle, t, ht, hts⟩ := h.entry c.worker c.key e hentry
    have hsince : s.sinceReset c.key c.worker ≤ e.count := by
      rw [World.sinceReset, hwindow]
      exact hle
    exact h.checkLocal i hcleanup (Nat.succ_le_succ hsince)
      ((Nat.succ_le_succ hsince).trans hroom) (hts.trans (h.past c.key t ht))
  · rw [heq] at hs
    obtain rfl := Option.some.inj hs
    have hsince : s.sinceReset c.key c.worker = 0 := by
      rw [World.sinceReset, hwindow]
      rfl
    exact h.checkLocal i hcleanup (by rw [hsince]) (by rw [hsince]; decide) le_rfl

theorem Inv.get_step {available : Bool} (h : Inv s) (hc : s.calls i = some c)
    (hs : step s (.get i available) = some s') : Inv s' := by
  obtain ⟨-, hs⟩ : c.phase = .get ∧ _ := by
    simpa only [step, hc, ne_eq, Option.ite_none_left_eq_some, not_not] using hs
  split_ifs at hs with havailable hfull
  · obtain rfl := Option.some.inj hs
    exact h.setCall i _
  · obtain rfl := Option.some.inj hs
    refine h.refuse i ?_
    cases hcounter : s.counter? c.key with
    | none =>
      rw [World.count, hcounter] at hfull
      exact absurd hfull (by decide)
    | some d =>
      rw [World.count, hcounter] at hfull
      obtain ⟨hd, hlive⟩ := Option.filter_eq_some_iff.mp hcounter
      obtain ⟨t, ht, hle⟩ := (h.counter c.key d hd).2 hfull
      exact ⟨t, ht, by linarith [of_decide_eq_true hlive]⟩
  · obtain rfl := Option.some.inj hs
    exact h.setCall i _

theorem Inv.execute_step {outcome : Outcome} (h : Inv s) (hok : Timely s (.execute i outcome))
    (hc : s.calls i = some c) (hs : step s (.execute i outcome) = some s') : Inv s' := by
  obtain ⟨hanswered, hlost⟩ := hok c hc
  obtain ⟨-, hs⟩ : c.phase = .execute ∧ _ := by
    simpa only [step, hc, ne_eq, Option.ite_none_left_eq_some, not_not] using hs
  cases outcome with
  | answered =>
    obtain rfl := Option.some.inj hs
    exact h.answered i (hanswered rfl)
  | lost =>
    obtain rfl := Option.some.inj hs
    exact (h.lost (hlost rfl)).setCall i _
  | failed =>
    obtain rfl := Option.some.inj hs
    exact h.setCall i _

theorem inv_step {e : Event} (h : Inv s) (hok : Timely s e) (hs : step s e = some s') :
    Inv s' := by
  cases e with
  | tick seconds =>
    obtain ⟨hle, rfl⟩ : 0 ≤ seconds ∧ _ = s' := by simpa [step] using hs
    exact h.tick hle
  | checkRetryStorm i worker jobId taskName =>
    cases hc : s.calls i with
    | some c => simp [step, hc] at hs
    | none =>
      simp only [step, hc, Option.some.injEq] at hs
      subst hs
      exact h.setCall i _
  | get i available =>
    cases hc : s.calls i with
    | none => simp [step, hc] at hs
    | some c => exact h.get_step hc hs
  | execute i outcome =>
    cases hc : s.calls i with
    | none => simp [step, hc] at hs
    | some c => exact h.execute_step hok hc hs
  | checkLocal i =>
    cases hc : s.calls i with
    | none => simp [step, hc] at hs
    | some c => exact h.checkLocal_step hc hs

def retry (i : ℕ) : List Event :=
  [.checkRetryStorm i i "7" "process_job_task", .get i true, .execute i .answered]

/-- Five retries of a job one after another, and one that comes too early. -/
def sixRetries : List Event :=
  (List.range 5).flatMap retry ++ [.checkRetryStorm 5 0 "7" "process_job_task", .get 5 true]

end WorkTicket.Tasks.RetryGuard
