import WorkTicket.Foundation.Transition
import WorkTicket.Tasks.JobTask

/-! The Redis lock of a job under concurrent attempts of `process_job_task`. Every attempt
runs its program; its lock and heartbeat commands are executed on the two keys of its job,
which expire, and whatever else it calls is answered by the surroundings. A worker kills an
attempt that has run for `task_time_limit`. -/

namespace WorkTicket.Tasks.JobLock

open WorkTicket.Transition WorkTicket.Billing WorkTicket.Billing.ConcurrentCalls
open WorkTicket.Tasks.JobTask

/-- `job:lock:..`; its value names the attempt that set it. -/
structure LockKey (ι : Type*) where
  holder : ι
  expiresAt : Time
  deriving DecidableEq, Repr

/-- `job:heartbeat:..`; `stamp` is the time in its value. -/
structure HeartbeatKey where
  stamp : Time
  expiresAt : Time
  deriving DecidableEq, Repr

def lockSeconds : ℚ := 300
def heartbeatSeconds : ℚ := 30
def taskTimeLimit : ℚ := 300

/-- The keys, the attempts that were received with the rest of their programs, and what
has happened: who was granted the lock and has not released it, and for every deletion of
a lock key who deleted it and who had set it. -/
structure World (ι : Type) where
  now : Time
  lock : JobId → Option (LockKey ι)
  heartbeat : JobId → Option HeartbeatKey
  task : ι → Option (Prog Ending)
  startedAt : ι → Time
  stamp : ι → Time
  granted : ι → Bool
  deletions : List (ι × ι)

inductive Event (ι : Type)
  | receive (i : ι)
  | tick (dt : ℚ)
  | redis (i : ι)
  | answer (i : ι) (answers : (c : Command) → Answer c)
  | fail (i : ι) (fault : Fault)
  | lost (i : ι)

section
variable {ι : Type} [DecidableEq ι] (attempts : ι → Attempt)

def World.lock? (s : World ι) (j : JobId) : Option (LockKey ι) :=
  (s.lock j).filter fun k => s.now < k.expiresAt

def World.heartbeat? (s : World ι) (j : JobId) : Option HeartbeatKey :=
  (s.heartbeat j).filter fun k => s.now < k.expiresAt

def World.resume (s : World ι) (i : ι) (p : Prog Ending) : World ι :=
  { s with task := Function.update s.task i (some p) }

def World.grant (s : World ι) (i : ι) : World ι :=
  { s with
    lock := Function.update s.lock (attempts i).jobId (some ⟨i, s.now + lockSeconds⟩)
    granted := Function.update s.granted i true }

def World.delete (s : World ι) (i : ι) : World ι :=
  { s with
    lock := Function.update s.lock (attempts i).jobId none
    granted := Function.update s.granted i false
    deletions := (s.lock? (attempts i).jobId).toList.map (fun k => (i, k.holder)) ++ s.deletions }

/-- The heartbeat keeps the Lua script from taking over the lock. -/
def World.beatsAt (s : World ι) (j : JobId) : Bool :=
  (s.heartbeat? j).any fun k => s.now - heartbeatSeconds < k.stamp

/-- `TTL`: rounded seconds, or -2 without the key. -/
def World.ttl (s : World ι) (j : JobId) : ℤ :=
  match s.lock? j with
  | some k => Rat.floor (k.expiresAt - s.now + 1 / 2)
  | none => -2

/-- Redis executes a command of attempt `i`; `none` for commands that are not Redis'. -/
def redis (s : World ι) (i : ι) : (c : Command) → Option (Answer c × World ι)
  | .setLock =>
    some (if (s.lock? (attempts i).jobId).isNone then (true, s.grant attempts i) else (false, s))
  | .getLock => some ((s.lock? (attempts i).jobId).isSome, s)
  | .getHeartbeat => some ((s.heartbeat? (attempts i).jobId).isSome, s)
  | .lockTtl => some (s.ttl (attempts i).jobId, s)
  | .takeOver =>
    some (if (s.lock? (attempts i).jobId).isSome ∧ s.beatsAt (attempts i).jobId then (false, s)
      else (true, s.grant attempts i))
  | .setHeartbeat => some ((), { s with
      heartbeat := Function.update s.heartbeat (attempts i).jobId
        (some ⟨s.stamp i, s.now + heartbeatSeconds⟩) })
  | .deleteLock => some ((), s.delete attempts i)
  | _ => none

def isRedis : Command → Bool
  | .setLock | .getLock | .getHeartbeat | .lockTtl | .takeOver | .setHeartbeat | .deleteLock =>
    true
  | _ => false

def World.next? (s : World ι) (i : ι) :
    Option ((c : Command) × (Except Fault (Answer c) → Prog Ending)) :=
  match s.task i with
  | some (.call c next) => if s.now < s.startedAt i + taskTimeLimit then some ⟨c, next⟩ else none
  | _ => none

def step (s : World ι) : Event ι → Option (World ι)
  | .receive i =>
    match s.task i with
    | none => some { s.resume i (processJobTask (attempts i)) with
        startedAt := Function.update s.startedAt i s.now }
    | some _ => none
  | .tick dt => if 0 ≤ dt then some { s with now := s.now + dt } else none
  | .redis i =>
    (s.next? i).bind fun ⟨c, next⟩ =>
      (redis attempts s i c).map fun ⟨r, s'⟩ => s'.resume i (next (.ok r))
  | .answer i answers =>
    (s.next? i).bind fun ⟨c, next⟩ =>
      if isRedis c then none else some { s.resume i (next (.ok (answers c))) with
        -- the lock value is made right after the job is read
        stamp := if c = .selectJob then Function.update s.stamp i s.now else s.stamp }
  | .fail i fault => (s.next? i).map fun ⟨_, next⟩ => s.resume i (next (.error fault))
  | .lost i => (s.next? i).map fun _ => s.resume i (.raise (.other "worker lost" false))

def start (now : Time) : World ι :=
  ⟨now, fun _ => none, fun _ => none, fun _ => none, fun _ => now, fun _ => now,
    fun _ => false, []⟩

/-- The attempt is between the acquisition of its lock and the release. -/
def World.holds (s : World ι) (i : ι) : Bool := s.granted i && (s.next? i).isSome

/-- At most one attempt at a time holds the lock of a job, and only it deletes the key. -/
structure Exclusive (s : World ι) : Prop where
  oneHolder : ∀ i j, (attempts i).jobId = (attempts j).jobId → s.holds i → s.holds j → i = j
  ownKey : ∀ d ∈ s.deletions, d.1 = d.2

/-- A lock is deleted by an attempt that was granted it and has not released it before, or
is gone by then; the Lua script takes over no lock whose holder is still at work but has
let its heartbeat grow old. -/
def Orderly (s : World ι) : Event ι → Bool
  | .redis i =>
    match s.next? i with
    | some ⟨.deleteLock, _⟩ => s.granted i || (s.lock? (attempts i).jobId).isNone
    | some ⟨.takeOver, _⟩ =>
      s.beatsAt (attempts i).jobId ||
        !(s.lock? (attempts i).jobId).any fun k => s.holds k.holder
    | _ => true
  | _ => true

end

/-! ## Attempts at work -/

section
variable {ι : Type} {s : World ι} {i : ι}

theorem next?_isSome_inTime (h : (s.next? i).isSome) :
    s.now < s.startedAt i + taskTimeLimit := by
  unfold World.next? at h
  split at h
  · split at h
    · assumption
    · simp at h
  · simp at h

theorem next?_isSome_received (h : (s.next? i).isSome) : s.task i ≠ none := by
  intro hnone
  simp [World.next?, hnone] at h

theorem next?_congr {s' : World ι} (htask : s'.task i = s.task i)
    (hstarted : s'.startedAt i = s.startedAt i) (hnow : s.now ≤ s'.now)
    (h : (s'.next? i).isSome) : (s.next? i).isSome := by
  have hin := next?_isSome_inTime h
  rw [hstarted] at hin
  have hlt : s.now < s.startedAt i + taskTimeLimit := hnow.trans_lt hin
  unfold World.next? at h ⊢
  rw [htask] at h
  split at h
  · rw [if_pos hlt]
    rfl
  · cases h

theorem holds_iff : s.holds i ↔ s.granted i = true ∧ (s.next? i).isSome := by
  simp [World.holds]

end

section
variable {ι : Type} [DecidableEq ι] {attempts : ι → Attempt} {s : World ι} {i : ι}

/-- Whoever holds a lock finds its own live key there, which outlasts the attempt. -/
structure Inv (attempts : ι → Attempt) (s : World ι) : Prop where
  key : ∀ i, s.holds i → ∃ e, s.lock (attempts i).jobId = some ⟨i, e⟩ ∧
    s.startedAt i + taskTimeLimit ≤ e
  started : ∀ i, s.task i ≠ none → s.startedAt i ≤ s.now
  notGranted : ∀ i, s.task i = none → s.granted i = false
  ownKey : ∀ d ∈ s.deletions, d.1 = d.2

omit [DecidableEq ι] in
theorem Inv.live (h : Inv attempts s) (hi : s.holds i) :
    ∃ e, s.lock? (attempts i).jobId = some ⟨i, e⟩ := by
  obtain ⟨e, he, hle⟩ := h.key i hi
  have hlive : s.now < e := (next?_isSome_inTime (holds_iff.mp hi).2).trans_le hle
  exact ⟨e, by simp [World.lock?, he, hlive]⟩

omit [DecidableEq ι] in
theorem Inv.exclusive (h : Inv attempts s) : Exclusive attempts s where
  ownKey := h.ownKey
  oneHolder := by
    intro i j hjob hi hj
    obtain ⟨e, he⟩ := h.live hi
    obtain ⟨e', he'⟩ := h.live hj
    rw [hjob, he'] at he
    exact (congrArg LockKey.holder (Option.some.inj he)).symm

omit [DecidableEq ι] in
theorem inv_start {now : Time} : Inv attempts (start now) where
  key := fun i h => by simp [World.holds, start] at h
  started := fun i h => absurd rfl h
  notGranted := fun i _ => rfl
  ownKey := fun d hd => by cases hd

/-! ## Steps that grant and release nothing -/

omit [DecidableEq ι] in
theorem Inv.move (h : Inv attempts s) {s' : World ι} (hlock : s'.lock = s.lock)
    (hstarted : s'.startedAt = s.startedAt) (hdeletions : s'.deletions = s.deletions)
    (hgranted : s'.granted = s.granted) (hnow : s.now ≤ s'.now)
    (htask : ∀ j, s'.task j = none ↔ s.task j = none)
    (hnext : ∀ j, (s'.next? j).isSome → (s.next? j).isSome) : Inv attempts s' where
  key := by
    intro j hj
    rw [holds_iff, hgranted] at hj
    rw [hlock, hstarted]
    exact h.key j (holds_iff.mpr ⟨hj.1, hnext j hj.2⟩)
  started := by
    intro j hj
    rw [hstarted]
    exact (h.started j fun hnone => hj ((htask j).mpr hnone)).trans hnow
  notGranted := by
    intro j hj
    rw [hgranted]
    exact h.notGranted j ((htask j).mp hj)
  ownKey := by
    rw [hdeletions]
    exact h.ownKey

omit [DecidableEq ι] in
theorem Inv.tick (h : Inv attempts s) {dt : ℚ} (hdt : 0 ≤ dt) :
    Inv attempts { s with now := s.now + dt } := by
  have hnow : s.now ≤ s.now + dt := le_add_of_nonneg_right hdt
  exact h.move rfl rfl rfl rfl hnow (fun _ => Iff.rfl) fun j => next?_congr rfl rfl hnow

theorem task_resume_of_ne {j : ι} (hji : j ≠ i) (p : Prog Ending) :
    (s.resume i p).task j = s.task j :=
  Function.update_of_ne hji _ _

theorem Inv.resume (h : Inv attempts s) (hi : (s.next? i).isSome) (p : Prog Ending) :
    Inv attempts (s.resume i p) := by
  refine h.move rfl rfl rfl rfl le_rfl (fun j => ?_) fun j hj => ?_
  · by_cases hji : j = i
    · subst hji
      simp [World.resume, next?_isSome_received hi]
    · rw [task_resume_of_ne hji]
  · by_cases hji : j = i
    · subst hji
      exact hi
    · exact next?_congr (task_resume_of_ne hji p) rfl le_rfl hj

theorem Inv.receive (h : Inv attempts s) (hi : s.task i = none) (p : Prog Ending) :
    Inv attempts { s.resume i p with startedAt := Function.update s.startedAt i s.now } where
  key := by
    intro j hj
    obtain ⟨hgranted, hnext⟩ := holds_iff.mp hj
    -- the new attempt was not granted anything
    have hji : j ≠ i := by
      rintro rfl
      exact absurd hgranted (by simp [World.resume, h.notGranted j hi])
    have hstarted : Function.update s.startedAt i s.now j = s.startedAt j :=
      Function.update_of_ne hji _ _
    have hold : (s.next? j).isSome := by
      refine next?_congr ?_ ?_ ?_ hnext
      · exact task_resume_of_ne hji p
      · exact hstarted
      · exact le_rfl
    obtain ⟨e, he, hle⟩ := h.key j (holds_iff.mpr ⟨hgranted, hold⟩)
    exact ⟨e, he, by simpa [hstarted] using hle⟩
  started := by
    intro j hj
    by_cases hji : j = i
    · subst hji
      simp [World.resume]
    · have hstarted := h.started j fun hnone => hj ((task_resume_of_ne hji p).trans hnone)
      simpa [World.resume, Function.update_of_ne hji] using hstarted
  notGranted := by
    intro j hj
    by_cases hji : j = i
    · subst hji
      exact h.notGranted j hi
    · exact h.notGranted j ((task_resume_of_ne hji p).symm.trans hj)
  ownKey := h.ownKey

/-! ## Granting and deleting -/

theorem Inv.grant (h : Inv attempts s) (hi : (s.next? i).isSome)
    (hfree : ∀ k, s.lock? (attempts i).jobId = some k → ¬ s.holds k.holder) :
    Inv attempts (s.grant attempts i) where
  key := by
    intro j hj
    by_cases hji : j = i
    · subst hji
      refine ⟨s.now + lockSeconds, by simp [World.grant], ?_⟩
      have hstarted : s.startedAt j ≤ s.now := h.started j (next?_isSome_received hi)
      show s.startedAt j + 300 ≤ s.now + 300
      linarith
    · obtain ⟨hgranted, hnext⟩ := holds_iff.mp hj
      have hold : s.holds j := holds_iff.mpr
        ⟨by simpa [World.grant, Function.update_of_ne hji] using hgranted, hnext⟩
      obtain ⟨e, he, hle⟩ := h.key j hold
      have hjob : (attempts j).jobId ≠ (attempts i).jobId := by
        intro hjob
        obtain ⟨e', he'⟩ := h.live hold
        exact hfree _ (hjob ▸ he') hold
      exact ⟨e, by simpa [World.grant, Function.update_of_ne hjob] using he, hle⟩
  started := h.started
  notGranted := by
    intro j hj
    have hji : j ≠ i := by
      rintro rfl
      exact next?_isSome_received hi hj
    simpa [World.grant, Function.update_of_ne hji] using h.notGranted j hj
  ownKey := h.ownKey

theorem Inv.delete (h : Inv attempts s) (hi : (s.next? i).isSome)
    (hown : s.granted i = true ∨ s.lock? (attempts i).jobId = none) :
    Inv attempts (s.delete attempts i) where
  key := by
    intro j hj
    obtain ⟨hgranted, hnext⟩ := holds_iff.mp hj
    have hji : j ≠ i := by
      rintro rfl
      simp [World.delete] at hgranted
    have hold : s.holds j := holds_iff.mpr
      ⟨by simpa [World.delete, Function.update_of_ne hji] using hgranted, hnext⟩
    obtain ⟨e, he, hle⟩ := h.key j hold
    have hjob : (attempts j).jobId ≠ (attempts i).jobId := by
      intro hjob
      obtain ⟨e', he'⟩ := h.live hold
      rcases hown with hmine | hgone
      · have hboth := h.exclusive.oneHolder j i hjob hold (holds_iff.mpr ⟨hmine, hi⟩)
        exact hji hboth
      · rw [← hjob, he'] at hgone
        cases hgone
    exact ⟨e, by simpa [World.delete, Function.update_of_ne hjob] using he, hle⟩
  started := h.started
  notGranted := by
    intro j hj
    by_cases hji : j = i
    · subst hji
      simp [World.delete]
    · simpa [World.delete, Function.update_of_ne hji] using h.notGranted j hj
  ownKey := by
    intro d hd
    obtain hd | hd := List.mem_append.mp hd
    · obtain ⟨k, hk, rfl⟩ := List.mem_map.mp hd
      have hlock : s.lock? (attempts i).jobId = some k := Option.mem_toList.mp hk
      rcases hown with hmine | hgone
      · obtain ⟨e, he⟩ := h.live (holds_iff.mpr ⟨hmine, hi⟩)
        rw [he] at hlock
        exact congrArg LockKey.holder (Option.some.inj hlock)
      · rw [hgone] at hlock
        cases hlock
    · exact h.ownKey d hd

/-! ## Steps and runs -/

theorem Inv.command (h : Inv attempts s) {c : Command}
    {next : Except Fault (Answer c) → Prog Ending} (hnext : s.next? i = some ⟨c, next⟩)
    (hok : Orderly attempts s (.redis i)) {r : Answer c} {s' : World ι}
    (hs : redis attempts s i c = some (r, s')) : Inv attempts s' ∧ (s'.next? i).isSome := by
  have hi : (s.next? i).isSome := by rw [hnext]; rfl
  simp only [Orderly, hnext] at hok
  cases c with
  | setLock =>
    simp only [redis, Option.some.injEq] at hs
    split at hs <;> obtain ⟨-, rfl⟩ := Prod.mk.inj hs
    · rename_i hfree
      refine ⟨h.grant hi fun k hk => ?_, hi⟩
      simp [hk] at hfree
    · exact ⟨h, hi⟩
  | takeOver =>
    simp only [redis, Option.some.injEq] at hs
    split at hs <;> obtain ⟨-, rfl⟩ := Prod.mk.inj hs
    · exact ⟨h, hi⟩
    · rename_i hstale
      refine ⟨h.grant hi fun k hk hholds => ?_, hi⟩
      rw [hk] at hok hstale
      simp_all
  | deleteLock =>
    obtain ⟨-, rfl⟩ := Prod.mk.inj (Option.some.inj hs)
    refine ⟨h.delete hi ?_, hi⟩
    simpa using hok
  | setHeartbeat =>
    obtain ⟨-, rfl⟩ := Prod.mk.inj (Option.some.inj hs)
    exact ⟨h.move rfl rfl rfl rfl le_rfl (fun _ => Iff.rfl) fun _ => id, hi⟩
  | getLock | getHeartbeat | lockTtl =>
    obtain ⟨-, rfl⟩ := Prod.mk.inj (Option.some.inj hs)
    exact ⟨h, hi⟩
  | _ => cases hs

theorem inv_step {s' : World ι} {e : Event ι} (h : Inv attempts s) (hok : Orderly attempts s e)
    (hs : step attempts s e = some s') : Inv attempts s' := by
  cases e with
  | receive i =>
    simp only [step] at hs
    split at hs
    · rename_i hnew
      obtain rfl := Option.some.inj hs
      exact h.receive hnew _
    · cases hs
  | tick dt =>
    simp only [step] at hs
    split at hs
    · rename_i hdt
      obtain rfl := Option.some.inj hs
      exact h.tick hdt
    · cases hs
  | redis i =>
    obtain ⟨⟨c, next⟩, hnext, hs⟩ := Option.bind_eq_some_iff.mp hs
    obtain ⟨⟨r, s''⟩, hredis, rfl⟩ := Option.map_eq_some_iff.mp hs
    obtain ⟨hinv, hi⟩ := h.command hnext hok hredis
    exact hinv.resume hi _
  | answer i answers =>
    obtain ⟨⟨c, next⟩, hnext, hs⟩ := Option.bind_eq_some_iff.mp hs
    have hi : (s.next? i).isSome := by rw [hnext]; rfl
    simp only at hs
    split at hs
    · cases hs
    · obtain rfl := Option.some.inj hs
      exact (h.resume hi _).move rfl rfl rfl rfl le_rfl (fun _ => Iff.rfl) fun _ => id
  | fail i fault =>
    obtain ⟨⟨c, next⟩, hnext, rfl⟩ := Option.map_eq_some_iff.mp hs
    exact h.resume (by rw [hnext]; rfl) _
  | lost i =>
    obtain ⟨⟨c, next⟩, hnext, rfl⟩ := Option.map_eq_some_iff.mp hs
    exact h.resume (by rw [hnext]; rfl) _

/-- In every orderly run the locks exclude each other. -/
theorem exclusive_of_orderly {now : Time} (h : ReachedBy (step attempts)
    (fun s e => Orderly attempts s e) (start now) s) : Exclusive attempts s :=
  (h.invariant inv_start fun _ _ _ hi hok hs => inv_step hi hok hs).exclusive

end

/-! ## Three attempts on one job -/

def attempts : Fin 3 → Attempt := fun _ => ⟨1, none, 0, false, 24 / 10000, 0, 1, 0⟩

def answered (n : ℕ) (i : Fin 3) : List (Event (Fin 3)) := List.replicate n (.answer i good)

def toLock (i : Fin 3) : List (Event (Fin 3)) := .receive i :: answered 4 i ++ [.redis i]

/-- The second attempt is refused the lock, runs on and deletes it, and the third gets it
while the first is at work. -/
def refusedRunsOn : List (Event (Fin 3)) :=
  toLock 0 ++ [.redis 0] ++ answered 6 0 ++ toLock 1 ++ answered 7 1 ++ [.redis 1] ++ toLock 2

def oneAfterTheOther : List (Event (Fin 3)) :=
  toLock 0 ++ [.redis 0] ++ answered 12 0 ++ [.redis 0] ++ answered 2 0 ++ toLock 1

theorem exclusive_oneAfterTheOther :
    Exclusive attempts ((runWhile (step attempts) (fun s e => Orderly attempts s e) (start 0)
      oneAfterTheOther).get (by decide +kernel)) :=
  exclusive_of_orderly (ReachedBy.of_runWhile (Option.some_get _).symm)

def afterRefused : World (Fin 3) :=
  (run (step attempts) (start 0) refusedRunsOn).get (by decide +kernel)

theorem refusedRunsOn_not_exclusive :
    Reached (step attempts) (start 0) afterRefused ∧ ¬ Exclusive attempts afterRefused := by
  refine ⟨Reached.of_run (Option.some_get _).symm, fun h => ?_⟩
  have hfirst : afterRefused.holds 0 = true := by decide +kernel
  have hthird : afterRefused.holds 2 = true := by decide +kernel
  exact absurd (h.oneHolder 0 2 rfl hfirst hthird) (by decide)

end WorkTicket.Tasks.JobLock
