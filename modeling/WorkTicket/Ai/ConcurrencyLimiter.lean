import WorkTicket.Foundation.TaskCounts
import WorkTicket.Foundation.Transition

/-! `ConcurrencyLimiter`, as the tasks of one process use it with `async with limiter`. The steps
are what a task does between two of its awaits; `async with self._lock` never waits, since nothing
is awaited under the lock. What Redis answers is taken from outside: other processes move the
counter too. -/

namespace WorkTicket.Ai.ConcurrencyLimiter

open WorkTicket.Transition WorkTicket.TaskCounts

/-- Where a task is. The phases from `queued` to `undoing` are in `acquire`, those from `leaving`
on in `release`; `granted` of a body is what `acquire` answered, which `__aenter__` drops. -/
inductive Phase
  | outside
  | queued
  | connecting
  | incrementing
  | expiring (count : ℤ)
  | undoing
  | body (granted : Bool)
  | leaving
  | decrementing
  | deleting
  deriving DecidableEq, Repr

structure Limiter where
  maxConcurrent : ℕ
  /-- The permits of the semaphore that are free, and who waits for one. -/
  free : ℕ
  waiters : List ℕ
  activeCount : ℤ
  tasks : List Phase
  deriving DecidableEq, Repr

namespace Limiter

variable (s : Limiter) (t : ℕ)

def move (p : Phase) : Limiter := { s with tasks := s.tasks.set t p }

/-- `acquire` of the semaphore, which hands out its permits in the order of the requests. -/
def acquirePermit : Limiter :=
  if 0 < s.free ∧ s.waiters = [] then { s with free := s.free - 1 }.move t .connecting
  else { s with waiters := s.waiters ++ [t] }.move t .queued

def releasePermit : Limiter :=
  match s.waiters with
  | [] => { s with free := s.free + 1 }
  | w :: waiters => { s with waiters }.move w .connecting

/-- The end of `acquire` with the answer True. -/
def granted : Limiter := { s with activeCount := s.activeCount + 1 }.move t (.body true)

/-- The ends of `acquire` with the answer False; the body runs all the same. -/
def refused : Limiter := s.releasePermit.move t (.body false)

/-- The end of `release`. -/
def released : Limiter :=
  ({ s with activeCount := s.activeCount - 1 }.move t .outside).releasePermit

end Limiter

/-- What a task meets next: its turn to enter, an answer of Redis (`none` when the call raises),
or the end of its body. -/
inductive Event
  | enter (t : ℕ)
  | client (t : ℕ) (found : Bool)
  | count (t : ℕ) (answer : Option ℤ)
  | done (t : ℕ) (ok : Bool)
  | finish (t : ℕ)
  deriving DecidableEq, Repr

def step (s : Limiter) : Event → Option Limiter
  | .enter t => if s.tasks[t]? = some .outside then some (s.acquirePermit t) else none
  | .client t found =>
    match s.tasks[t]? with
    | some .connecting => some (if found then s.move t .incrementing else s.granted t)
    | some .leaving => some (if found then s.move t .decrementing else s.released t)
    | _ => none
  | .count t answer =>
    match s.tasks[t]?, answer with
    | some .incrementing, some count => some (s.move t (.expiring count))
    | some .incrementing, none => some (s.refused t)
    | some .decrementing, some count =>
      some (if count ≤ 0 then s.move t .deleting else s.released t)
    | some .decrementing, none => some (s.released t)
    | _, _ => none
  | .done t ok =>
    match s.tasks[t]? with
    | some (.expiring count) =>
      some (if !ok then s.refused t
        else if (s.maxConcurrent : ℤ) < count then s.move t .undoing else s.granted t)
    | some .undoing => some (s.refused t)
    | some .deleting => some (s.released t)
    | _ => none
  | .finish t =>
    match s.tasks[t]? with
    | some (.body _) => some (s.move t .leaving)
    | _ => none

/-- A limiter with its permits free, and any number of tasks that may use it. -/
def start (maxConcurrent tasks : ℕ) : Limiter :=
  ⟨maxConcurrent, maxConcurrent, [], 0, List.replicate tasks .outside⟩

/-! ## What is claimed of a limiter -/

def Phase.acquiring : Phase → Bool
  | .queued | .connecting | .incrementing | .expiring _ | .undoing => true
  | _ => false

def Phase.inBody : Phase → Bool
  | .body _ => true
  | _ => false

/-- The `async with` of the task has been entered and not been left: its body runs, or
`__aexit__` is giving the slot back. -/
def Phase.inside : Phase → Bool
  | .body _ | .leaving | .decrementing | .deleting => true
  | _ => false

/-- A body counts as running until its slot has been given back. -/
structure Sound (s : Limiter) : Prop where
  bodies : s.tasks.countP Phase.inBody ≤ s.maxConcurrent
  running : s.activeCount = s.tasks.countP Phase.inside
  active : 0 ≤ s.activeCount ∧ s.activeCount ≤ s.maxConcurrent
  permits : (∀ p ∈ s.tasks, p.acquiring = false) → s.free + s.activeCount = s.maxConcurrent

/-- Redis answers the `INCR` and the `EXPIRE` of every `acquire` that asks it, with a count within
the limit. -/
def Granted (s : Limiter) : Event → Prop
  | .count t answer => s.tasks[t]? = some .incrementing → answer ≠ none
  | .done t ok =>
    ∀ count, s.tasks[t]? = some (.expiring count) → ok = true ∧ count ≤ s.maxConcurrent
  | _ => True

/-! ## Permits and tasks -/

def Phase.holding : Phase → Bool
  | .outside | .queued => false
  | _ => true

attribute [grind =] Phase.inside Phase.holding

/-- Every permit is free, held by a task, or one of `spare`; and the queue is made of the tasks
that wait. -/
structure Kept (spare : ℕ) (s : Limiter) : Prop where
  permits : s.free + s.tasks.countP Phase.holding + spare = s.maxConcurrent
  running : s.activeCount = s.tasks.countP Phase.inside
  nodup : s.waiters.Nodup
  queue : ∀ w ∈ s.waiters, s.tasks[w]? = some .queued
  undone : ∀ p ∈ s.tasks, p ≠ .undoing

variable {s s' : Limiter} {t spare : ℕ} {old : Phase}

theorem Kept.move {spare' : ℕ} {active : ℤ} (h : Kept spare s) (new : Phase)
    (ht : s.tasks[t]? = some old) (hold : old ≠ .queued) (hnew : new ≠ .undoing)
    (hpermits : spare' + new.holding.toNat = spare + old.holding.toNat)
    (hactive : active + old.inside.toNat = s.activeCount + new.inside.toNat) :
    Kept spare' ({ s with activeCount := active }.move t new) := by
  have hholding := countP_set_add Phase.holding new ht
  have hinside := countP_set_add Phase.inside new ht
  have hrunning := h.running
  refine ⟨?_, ?_, h.nodup, fun w hw => ?_, forall_set h.undone hnew⟩
  · have hkept := h.permits
    simp only [Limiter.move]
    omega
  · simp only [Limiter.move]
    omega
  · -- a task that moves on its own does not wait
    have hne : t ≠ w := by
      rintro rfl
      exact hold (Option.some.inj (ht.symm.trans (h.queue _ hw)))
    simp only [Limiter.move, List.getElem?_set_ne hne]
    exact h.queue w hw

theorem Kept.releasePermit (h : Kept 1 s) : Kept 0 s.releasePermit := by
  have hkept := h.permits
  unfold Limiter.releasePermit
  cases hw : s.waiters with
  | nil =>
    exact ⟨by simp only; omega, h.running, List.nodup_nil, by simp, h.undone⟩
  | cons w waiters =>
    have hnodup := h.nodup
    have hqueue := h.queue
    rw [hw] at hnodup hqueue
    obtain ⟨hfirst, hrest⟩ := List.nodup_cons.mp hnodup
    -- the permit passes to the first that waits, and is not free in between
    have hfound := hqueue w (List.mem_cons_self ..)
    have hholding := countP_set_add Phase.holding .connecting hfound
    have hinside := countP_set_eq Phase.inside .connecting hfound rfl
    refine ⟨?_, ?_, hrest, fun v hv => ?_, forall_set h.undone (by simp)⟩
    · simp only [Limiter.move]
      simp only [Phase.holding, Bool.toNat_true, Bool.toNat_false] at hholding
      omega
    · simpa only [Limiter.move, hinside] using h.running
    · have hne : w ≠ v := by
        rintro rfl
        exact hfirst hv
      simp only [Limiter.move, List.getElem?_set_ne hne]
      exact hqueue v (List.mem_cons_of_mem _ hv)

theorem Kept.acquirePermit (h : Kept 0 s) (ht : s.tasks[t]? = some .outside) :
    Kept 0 (s.acquirePermit t) := by
  unfold Limiter.acquirePermit
  split
  · rename_i hfree
    have htaken : Kept 1 { s with free := s.free - 1 } := by
      have hkept := h.permits
      exact ⟨by simp only; omega, h.running, h.nodup, h.queue, h.undone⟩
    exact htaken.move .connecting ht (by simp) (by simp) rfl rfl
  · have hnew : t ∉ s.waiters := by
      intro hmem
      cases ht.symm.trans (h.queue t hmem)
    have hholding := countP_set_eq Phase.holding .queued ht rfl
    have hinside := countP_set_eq Phase.inside .queued ht rfl
    refine ⟨?_, ?_, ?_, fun w hw => ?_, forall_set h.undone (by simp)⟩
    · simpa only [Limiter.move, hholding] using h.permits
    · simpa only [Limiter.move, hinside] using h.running
    · exact List.nodup_append.mpr ⟨h.nodup, List.nodup_singleton t, by
        intro w hw v hv
        obtain rfl := List.mem_singleton.mp hv
        rintro rfl
        exact hnew hw⟩
    · rcases List.mem_append.mp hw with hw | hw
      · have hne : t ≠ w := by
          rintro rfl
          exact hnew hw
        simp only [Limiter.move, List.getElem?_set_ne hne]
        exact h.queue w hw
      · obtain rfl := List.mem_singleton.mp hw
        obtain ⟨hlt, -⟩ := List.getElem?_eq_some_iff.mp ht
        simp only [Limiter.move, List.getElem?_set_self hlt]

theorem Kept.granted (h : Kept 0 s) (ht : s.tasks[t]? = some old) (hold : old.holding = true)
    (hinside : old.inside = false) : Kept 0 (s.granted t) := by
  refine h.move (.body true) ht ?_ (by simp) ?_ ?_
  · rintro rfl
    cases hold
  · rw [hold]
    rfl
  · rw [hinside]
    simp [Phase.inside]

theorem Kept.released (h : Kept 0 s) (ht : s.tasks[t]? = some old) (hinside : old.inside = true) :
    Kept 0 (s.released t) := by
  have hold : old.holding = true := by
    cases old <;> first | rfl | cases hinside
  refine Kept.releasePermit (h.move .outside ht ?_ (by simp) ?_ ?_)
  · rintro rfl
    cases hold
  · rw [hold]
    rfl
  · rw [hinside]
    simp [Phase.inside]

theorem Kept.step {e : Event} (h : Kept 0 s) (hgranted : Granted s e)
    (hs : ConcurrencyLimiter.step s e = some s') : Kept 0 s' := by
  cases e with
  | enter t =>
    simp only [ConcurrencyLimiter.step] at hs
    split at hs
    · rename_i ht
      obtain rfl := Option.some.inj hs
      exact h.acquirePermit ht
    · cases hs
  | client t found =>
    simp only [ConcurrencyLimiter.step] at hs
    split at hs
    · rename_i ht
      obtain rfl := Option.some.inj hs
      cases found
      · exact h.granted ht rfl rfl
      · exact h.move .incrementing ht (by simp) (by simp) rfl rfl
    · rename_i ht
      obtain rfl := Option.some.inj hs
      cases found
      · exact h.released ht rfl
      · exact h.move .decrementing ht (by simp) (by simp) rfl rfl
    · cases hs
  | count t answer =>
    simp only [ConcurrencyLimiter.step] at hs
    split at hs
    · rename_i ht
      obtain rfl := Option.some.inj hs
      exact h.move (.expiring _) ht (by simp) (by simp) rfl rfl
    · rename_i ht
      exact absurd rfl (hgranted ht)
    · rename_i ht
      obtain rfl := Option.some.inj hs
      split
      · exact h.move .deleting ht (by simp) (by simp) rfl rfl
      · exact h.released ht rfl
    · rename_i ht
      obtain rfl := Option.some.inj hs
      exact h.released ht rfl
    · cases hs
  | done t ok =>
    simp only [ConcurrencyLimiter.step] at hs
    split at hs
    · rename_i count ht
      obtain ⟨rfl, hle⟩ := hgranted count ht
      rw [Bool.not_true, if_neg Bool.false_ne_true, if_neg (not_lt.mpr hle)] at hs
      obtain rfl := Option.some.inj hs
      exact h.granted ht rfl rfl
    · rename_i ht
      exact absurd rfl (h.undone _ (List.mem_of_getElem? ht))
    · rename_i ht
      obtain rfl := Option.some.inj hs
      exact h.released ht rfl
    · cases hs
  | finish t =>
    simp only [ConcurrencyLimiter.step] at hs
    split at hs
    · rename_i ht
      obtain rfl := Option.some.inj hs
      exact h.move .leaving ht (by simp) (by simp) rfl rfl
    · cases hs

theorem kept_start (maxConcurrent tasks : ℕ) : Kept 0 (start maxConcurrent tasks) := by
  refine ⟨?_, ?_, List.nodup_nil, by simp [start], ?_⟩
  · simp [start, List.countP_replicate, Phase.holding]
  · simp [start, List.countP_replicate, Phase.inside]
  · intro p hp
    obtain rfl := List.eq_of_mem_replicate hp
    simp

theorem Kept.sound (h : Kept 0 s) : Sound s := by
  have hbodies : s.tasks.countP Phase.inBody ≤ s.tasks.countP Phase.inside :=
    List.countP_mono_left fun p _ hp => by cases p <;> first | rfl | cases hp
  have hinside : s.tasks.countP Phase.inside ≤ s.tasks.countP Phase.holding :=
    List.countP_mono_left fun p _ hp => by cases p <;> first | rfl | cases hp
  have hkept := h.permits
  have hrunning := h.running
  refine ⟨by omega, hrunning, by omega, fun hidle => ?_⟩
  have hsame : s.tasks.countP Phase.holding = s.tasks.countP Phase.inside := by
    refine List.countP_congr fun p hp => ?_
    have hp' := hidle p hp
    cases p <;> simp_all [Phase.acquiring, Phase.holding, Phase.inside]
  omega

theorem step_maxConcurrent {e : Event} (hs : step s e = some s') :
    s'.maxConcurrent = s.maxConcurrent := by
  have hrelease : ∀ s : Limiter, s.releasePermit.maxConcurrent = s.maxConcurrent := by
    intro s
    unfold Limiter.releasePermit
    split <;> rfl
  have hacquire : ∀ t, (s.acquirePermit t).maxConcurrent = s.maxConcurrent := by
    intro t
    unfold Limiter.acquirePermit
    split <;> rfl
  unfold step at hs
  split at hs <;> split at hs <;> cases hs <;>
    simp only [Limiter.refused, Limiter.released, hrelease, hacquire,
      apply_ite Limiter.maxConcurrent, Limiter.move, Limiter.granted, ite_self]

/-- In every run in which Redis grants each slot it is asked for the limiter is sound. -/
theorem sound_of_granted {maxConcurrent tasks : ℕ}
    (h : ReachedBy step Granted (start maxConcurrent tasks) s) :
    s.maxConcurrent = maxConcurrent ∧ Sound s := by
  have hinv := h.invariant (I := fun s => s.maxConcurrent = maxConcurrent ∧ Kept 0 s)
    ⟨rfl, kept_start maxConcurrent tasks⟩
    fun s e s' ⟨hmax, hkept⟩ hgranted hs =>
      ⟨(step_maxConcurrent hs).trans hmax, hkept.step hgranted hs⟩
  exact ⟨hinv.1, hinv.2.sound⟩

instance (s : Limiter) : ∀ e, Decidable (Granted s e)
  | .enter _ | .client .. | .finish _ => inferInstanceAs (Decidable True)
  | .count .. => inferInstanceAs (Decidable (_ → _))
  | .done t ok =>
    match h : s.tasks[t]? with
    | some (.expiring count) => decidable_of_iff (ok = true ∧ count ≤ s.maxConcurrent)
        ⟨fun hok c hc => by cases h.symm.trans hc; exact hok, fun hok => hok count h⟩
    | none | some .outside | some .queued | some .connecting | some .incrementing | some .undoing
    | some (.body _) | some .leaving | some .decrementing | some .deleting =>
      .isTrue fun c hc => by cases h.symm.trans hc

/-- Of three tasks on two slots the third waits until the first has left its body. -/
theorem sound_of_granted_three : ∃ s : Limiter, s.tasks = [.decrementing, .body true, .queued] ∧
    s.maxConcurrent = 2 ∧ Sound s := by
  have hrun : runWhile step Granted (start 2 3) [.enter 0, .client 0 true, .count 0 (some 1),
      .enter 1, .enter 2, .client 1 false, .done 0 true, .finish 0, .client 0 true] =
      some ⟨2, 0, [2], 2, [.decrementing, .body true, .queued]⟩ := by
    decide
  exact ⟨_, rfl, sound_of_granted (.of_runWhile hrun)⟩

/-- Redis fails both tasks, and both of their bodies run on one slot. -/
theorem not_sound_redisDown :
    ¬ ∀ maxConcurrent tasks s, Reached step (start maxConcurrent tasks) s → Sound s := by
  intro h
  have hrun : run step (start 1 2) [.enter 0, .client 0 true, .count 0 none,
      .enter 1, .client 1 true, .count 1 none] =
      some ⟨1, 1, [], 0, [.body false, .body false]⟩ := by
    decide
  exact absurd (h _ _ _ (.of_run hrun)).bodies (by decide)

end WorkTicket.Ai.ConcurrencyLimiter
