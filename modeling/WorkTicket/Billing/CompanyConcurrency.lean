import WorkTicket.Foundation.TaskCounts
import WorkTicket.Foundation.Transition

/-! The slots for AI jobs of one company: a counter in Redis with a time to live, beside it a set
in every process for the time in which Redis is out of reach, and the requests and task attempts
that take a slot and are to give it back. -/

namespace WorkTicket.Billing.CompanyConcurrency

open WorkTicket.Transition WorkTicket.TaskCounts

/-- The `concurrency_limit` of the plan tiers. -/
def concurrencyLimits : List (String × ℕ) :=
  [("free", 1), ("starter", 2), ("pro", 5), ("business", 10), ("enterprise", 20)]

def concurrencyLimit (plan : String) : ℕ := (concurrencyLimits.lookup plan).getD 1

def lockTimeout : ℚ := 300

/-! ## The lock -/

/-- The value under `conc:{company_id}` and the time at which it expires. -/
abbrev Key := Option (ℕ × ℚ)

def Key.live (k : Key) (clock : ℚ) : Key := k.filter (clock < ·.2)

def Key.count (k : Key) (clock : ℚ) : ℕ := ((k.live clock).map Prod.fst).getD 0

def acquireScript (k : Key) (clock : ℚ) (max : ℕ) : Bool × Key :=
  if max ≤ k.count clock then (false, k.live clock)
  else (true, some (k.count clock + 1, clock + lockTimeout))

/-- The new count, or `-1` where there is no key. -/
def releaseScript (k : Key) (clock : ℚ) : ℤ × Key :=
  match k.live clock with
  | none => (-1, none)
  | some (count, expires) =>
    if count - 1 ≤ 0 then (0, none) else ((count - 1 : ℕ), some (count - 1, expires))

/-- How Redis answers: it is not there at all, the call raises, or the call succeeds. -/
inductive Reach
  | noClient
  | raises
  | up
  deriving DecidableEq, Repr

/-- Where a slot was taken: from the counter or from the set of the process. -/
inductive Store
  | redis
  | process
  deriving DecidableEq, Repr

/-! ## Requests and attempts -/

inductive Kind
  | request
  | attempt
  deriving DecidableEq, Repr

/-- The plan that `acquire` is called with: a request has the company's, an attempt `"default"`. -/
def Kind.plan (plan : String) : Kind → String
  | .request => plan
  | .attempt => "default"

inductive Phase
  | fresh
  | working
  | releasing
  | deleting
  | ended
  deriving DecidableEq, Repr

/-- How the work between `acquire` and `release` ends. -/
inductive Outcome
  | riskDenied
  | dispatchFailed
  | dispatched
  | raised
  | succeeded
  | failedForGood
  | retried
  deriving DecidableEq, Repr

def Outcome.kind : Outcome → Kind
  | .riskDenied | .dispatchFailed | .dispatched | .raised => .request
  | .succeeded | .failedForGood | .retried => .attempt

/-- Whether `release` is called then. A request that was dispatched leaves its slot to the task,
and an attempt that is tried again leaves it to nobody. -/
def Outcome.releases : Outcome → Bool
  | .riskDenied | .dispatchFailed | .succeeded | .failedForGood => true
  | .dispatched | .raised | .retried => false

/-- `took` is what `acquire` took, `gave` what the releases have given back. -/
structure Actor where
  kind : Kind
  process : ℕ
  phase : Phase
  took : Option Store
  gave : List Store
  deriving DecidableEq, Repr

/-- A slot is held until it is given back, by an actor that has not ended. -/
def Actor.holds (store : Store) (a : Actor) : Bool :=
  a.phase ≠ .ended ∧ a.took = some store ∧ store ∉ a.gave

/-- `locked` are the processes whose set has the company in it. -/
structure World where
  key : Key
  clock : ℚ
  locked : Finset ℕ
  actors : List Actor
  deriving DecidableEq

def World.heldIn (s : World) (store : Store) : ℕ := s.actors.countP (Actor.holds store)

def World.held (s : World) : ℕ := s.heldIn .redis + s.heldIn .process

/-- `others` is the number of other companies in the set of the process. -/
inductive Event
  | arrive (kind : Kind) (process : ℕ)
  | quit (i : ℕ)
  | acquire (i : ℕ) (reach : Reach) (clock : ℚ) (others : ℕ)
  | finish (i : ℕ) (outcome : Outcome)
  | script (i : ℕ) (reach : Reach) (clock : ℚ)
  | delete (i : ℕ) (ok : Bool) (clock : ℚ)
  deriving DecidableEq, Repr

section Steps

variable (plan : String) (estimatedWorkers : ℕ)

def localMax (plan : String) : ℕ := max 1 (concurrencyLimit plan / max 1 estimatedWorkers)

def localFull (s : World) (process : ℕ) (plan : String) (others : ℕ) : Prop :=
  localMax estimatedWorkers plan ≤ others + if process ∈ s.locked then 1 else 0

instance (s : World) (process : ℕ) (plan : String) (others : ℕ) :
    Decidable (localFull estimatedWorkers s process plan others) :=
  inferInstanceAs (Decidable (_ ≤ _))

/-- `CompanyConcurrencyLock.acquire`: what was taken, if anything was. -/
def acquire (s : World) (process : ℕ) (plan : String) (reach : Reach) (clock : ℚ) (others : ℕ) :
    Option Store × World :=
  match reach with
  | .noClient =>
    if localFull estimatedWorkers s process plan others then (none, s)
    else (some .process, { s with locked := insert process s.locked })
  | .raises => (none, s)
  | .up =>
    let (ok, key) := acquireScript s.key clock (concurrencyLimit plan)
    if ok then (some .redis, { s with key, locked := insert process s.locked })
    else (none, { s with key })

def World.update (s : World) (i : ℕ) (a : Actor) : World := { s with actors := s.actors.set i a }

def step (s : World) : Event → Option World
  | .arrive kind process =>
    some { s with actors := s.actors ++ [⟨kind, process, .fresh, none, []⟩] }
  | .quit i =>
    match s.actors[i]? with
    | some a => if a.phase = .fresh then some (s.update i { a with phase := .ended }) else none
    | none => none
  | .acquire i reach clock others =>
    match s.actors[i]? with
    | some a =>
      if a.phase = .fresh ∧ s.clock ≤ clock then
        let (took, s) :=
          acquire estimatedWorkers { s with clock } a.process (a.kind.plan plan) reach clock others
        -- only the request looks at the answer
        let phase := if a.kind = .request ∧ took = none then Phase.ended else .working
        some (s.update i { a with phase, took })
      else none
    | none => none
  | .finish i outcome =>
    match s.actors[i]? with
    | some a =>
      if a.phase = .working ∧ outcome.kind = a.kind then
        if outcome.releases then
          let gave :=
            if a.took = some .process ∧ a.process ∈ s.locked then [Store.process] else []
          some ({ s with locked := s.locked.erase a.process }.update i
            { a with phase := .releasing, gave })
        else some (s.update i { a with phase := .ended })
      else none
    | none => none
  | .script i reach clock =>
    match s.actors[i]? with
    | some a =>
      if a.phase = .releasing ∧ s.clock ≤ clock then
        if reach = .up then
          let (count, key) := releaseScript s.key clock
          some ({ s with key, clock }.update i { a with
            phase := if count = 0 then Phase.deleting else .ended
            gave := if count = -1 then a.gave else a.gave ++ [Store.redis] })
        else some ({ s with clock }.update i { a with phase := .ended })
      else none
    | none => none
  | .delete i ok clock =>
    match s.actors[i]? with
    | some a =>
      if a.phase = .deleting ∧ s.clock ≤ clock then
        some ({ s with clock, key := if ok then none else s.key }.update i
          { a with phase := .ended })
      else none
    | none => none

end Steps

def start : World := ⟨none, 0, ∅, []⟩

/-! ## What is claimed -/

structure Sound (plan : String) (s : World) : Prop where
  held : s.held ≤ concurrencyLimit plan
  matched : ∀ a ∈ s.actors, a.phase = .ended → a.gave = a.took.toList
  idle : (∀ a ∈ s.actors, a.phase = .ended) → s.key.count s.clock = 0

/-- No slot of the counter has expired that is still held. -/
def Unexpired (s : World) (clock : ℚ) : Prop :=
  0 < s.heldIn .redis → (s.key.live clock).isSome = true

/-- What `acquire` does not see leaves room for one more slot: a grant by the counter does not see
the slots of the processes, and a process sees no slot but its own. -/
def Roomy (plan asked : String) (estimatedWorkers : ℕ) (s : World) (process : ℕ) (clock : ℚ)
    (others : ℕ) : Reach → Prop
  | .noClient => ¬ localFull estimatedWorkers s process asked others →
      s.held < concurrencyLimit plan
  | .raises => True
  | .up => Unexpired s clock ∧
      (0 < s.heldIn .process → s.key.count clock < concurrencyLimit asked →
        s.held < concurrencyLimit plan)

/-- What the step of an actor needs, so that what is given back is what was taken. -/
def Orderly (plan : String) (estimatedWorkers : ℕ) (s : World) : Event → Prop
  | .arrive .. | .quit _ => True
  | .acquire i reach clock others => ∀ a ∈ s.actors[i]?,
      Roomy plan (a.kind.plan plan) estimatedWorkers s a.process clock others reach
  | .finish i outcome => ∀ a ∈ s.actors[i]?,
      if outcome.releases then a.took = some .process → a.process ∈ s.locked else a.took = none
  | .script i reach clock => ∀ a ∈ s.actors[i]?,
      if a.took = some .redis then reach = .up ∧ Unexpired s clock
      else reach = .up → s.heldIn .redis = 0
  | .delete _ ok _ => ok = true → s.heldIn .redis = 0

/-! ## The counter -/

/-- The value of a counter of `n` slots. -/
def slots (n : ℕ) : Option ℕ := if n = 0 then none else some n

variable {k : Key} {clock : ℚ} {n max : ℕ}

theorem live_eq (hkey : k.map Prod.fst = slots n) (hlive : 0 < n → (k.live clock).isSome = true) :
    k.live clock = k := by
  cases k with
  | none => rfl
  | some v =>
    have hpos : 0 < n := by
      by_contra hzero
      simp [slots, Nat.eq_zero_of_not_pos hzero] at hkey
    obtain ⟨w, hw⟩ := Option.isSome_iff_exists.mp (hlive hpos)
    rw [hw]
    exact (Option.filter_eq_some_iff.mp hw).1.symm

theorem count_eq (hkey : k.map Prod.fst = slots n) (hlive : k.live clock = k) :
    k.count clock = n := by
  unfold Key.count
  rw [hlive, hkey, slots]
  split
  · rename_i hzero
    exact hzero.symm
  · rfl

theorem acquireScript_full (hmax : max ≤ k.count clock) (hlive : k.live clock = k) :
    acquireScript k clock max = (false, k) := by
  unfold acquireScript
  rw [if_pos hmax, hlive]

theorem acquireScript_free (hmax : k.count clock < max) :
    acquireScript k clock max = (true, some (k.count clock + 1, clock + lockTimeout)) :=
  if_neg (not_le.mpr hmax)

theorem releaseScript_none : releaseScript none clock = (-1, none) := rfl

/-- The release of one of `n + 1` slots. -/
theorem releaseScript_succ (hkey : k.map Prod.fst = slots (n + 1)) (hlive : k.live clock = k) :
    (releaseScript k clock).1 = n ∧ (releaseScript k clock).2.map Prod.fst = slots n := by
  obtain ⟨⟨count, expires⟩, hk, rfl⟩ := Option.map_eq_some_iff.mp hkey
  unfold releaseScript
  rw [hlive, hk]
  cases n with
  | zero => exact ⟨rfl, rfl⟩
  | succ n =>
    have hrest : ¬ n + 1 + 1 - 1 ≤ 0 := by omega
    simp only [if_neg hrest]
    exact ⟨rfl, rfl⟩

/-! ## The slots over a run -/

/-- What an actor has taken and given back in each of its phases. -/
def Actor.Valid (a : Actor) : Prop :=
  match a.phase with
  | .fresh => a.took = none ∧ a.gave = []
  | .working => a.gave = []
  | .releasing => a.gave = if a.took = some .process then [.process] else []
  | .deleting => a.took = some .redis ∧ a.gave = [.redis]
  | .ended => a.gave = a.took.toList

structure Kept (plan : String) (s : World) : Prop where
  valid : ∀ a ∈ s.actors, a.Valid
  key : s.key.map Prod.fst = slots (s.heldIn .redis)
  held : s.held ≤ concurrencyLimit plan

variable {plan : String} {estimatedWorkers i : ℕ} {s s' : World} {a a' : Actor}

/-- One actor has moved, and the counter and the slots with it. -/
theorem Kept.move (h : Kept plan s) (hi : s.actors[i]? = some a)
    (hactors : s'.actors = s.actors.set i a') (hvalid : a'.Valid)
    (hredis : n + (a.holds .redis).toNat = s.heldIn .redis + (a'.holds .redis).toNat)
    (hkey : s'.key.map Prod.fst = slots n)
    (hheld : s.held + (a'.holds .redis).toNat + (a'.holds .process).toNat ≤
      concurrencyLimit plan + (a.holds .redis).toNat + (a.holds .process).toNat) :
    Kept plan s' := by
  have hset := countP_set_add (Actor.holds .redis) a' hi
  have hset' := countP_set_add (Actor.holds .process) a' hi
  have hn : s'.heldIn .redis = n := by
    simp only [World.heldIn, hactors] at hredis ⊢
    omega
  refine ⟨?_, ?_, ?_⟩
  · rw [hactors]
    exact forall_set h.valid hvalid
  · rw [hn]
    exact hkey
  · simp only [World.held, World.heldIn, hactors] at hheld ⊢
    omega

/-- The move of an actor whose slot stays as it is. -/
theorem Kept.move_same (h : Kept plan s) (hi : s.actors[i]? = some a)
    (hactors : s'.actors = s.actors.set i a') (hvalid : a'.Valid)
    (hholds : ∀ store, a'.holds store = a.holds store) (hkey : s'.key = s.key) : Kept plan s' := by
  have hheld := h.held
  refine h.move (n := s.heldIn .redis) hi hactors hvalid ?_ (hkey ▸ h.key) ?_
  · rw [hholds]
  · rw [hholds, hholds]
    omega

theorem concurrencyLimit_default_le : concurrencyLimit "default" ≤ concurrencyLimit plan := by
  have hone : concurrencyLimit "default" = 1 := rfl
  rw [hone]
  unfold concurrencyLimit concurrencyLimits
  simp only [List.lookup]
  repeat' split
  all_goals decide

theorem Kind.concurrencyLimit_le (kind : Kind) :
    concurrencyLimit (kind.plan plan) ≤ concurrencyLimit plan := by
  cases kind with
  | request => exact le_rfl
  | attempt => exact concurrencyLimit_default_le

theorem Kept.fresh (h : Kept plan s) (hi : s.actors[i]? = some a) (hphase : a.phase = .fresh) :
    a.took = none ∧ a.gave = [] := by
  simpa only [Actor.Valid, hphase] using h.valid a (List.mem_of_getElem? hi)

theorem Kept.working (h : Kept plan s) (hi : s.actors[i]? = some a)
    (hphase : a.phase = .working) : a.gave = [] := by
  simpa only [Actor.Valid, hphase] using h.valid a (List.mem_of_getElem? hi)

theorem Kept.releasing (h : Kept plan s) (hi : s.actors[i]? = some a)
    (hphase : a.phase = .releasing) :
    a.gave = if a.took = some .process then [.process] else [] := by
  simpa only [Actor.Valid, hphase] using h.valid a (List.mem_of_getElem? hi)

theorem Kept.deleting (h : Kept plan s) (hi : s.actors[i]? = some a)
    (hphase : a.phase = .deleting) : a.took = some .redis ∧ a.gave = [.redis] := by
  simpa only [Actor.Valid, hphase] using h.valid a (List.mem_of_getElem? hi)

theorem holds_of_took_none (htook : a.took = none) (store : Store) : a.holds store = false := by
  simp [Actor.holds, htook]

theorem holds_ended (hphase : a.phase = .ended) (store : Store) : a.holds store = false := by
  simp [Actor.holds, hphase]

/-- The state after an `acquire`, with what it took. -/
theorem Kept.acquire {reach : Reach} {others : ℕ} {took : Option Store} (h : Kept plan s)
    (hi : s.actors[i]? = some a) (hphase : a.phase = .fresh)
    (hroom : Roomy plan (a.kind.plan plan) estimatedWorkers s a.process clock others reach)
    (hacquire : CompanyConcurrency.acquire estimatedWorkers { s with clock } a.process
      (a.kind.plan plan) reach clock others = (took, s'))
    (hphase' : a'.phase = .working ∨ a'.phase = .ended ∧ took = none) (htook : a'.took = took)
    (hgave : a'.gave = []) : Kept plan (s'.update i a') := by
  have hfresh := holds_of_took_none (h.fresh hi hphase).1
  have hheld := h.held
  have hvalid : a'.Valid := by
    unfold Actor.Valid
    rcases hphase' with hw | ⟨hw, rfl⟩
    · rw [hw]
      exact hgave
    · rw [hw, htook]
      exact hgave
  have hnone : took = none → ∀ store, a'.holds store = a.holds store := by
    intro hnone store
    rw [hfresh store]
    exact holds_of_took_none (htook.trans hnone) store
  cases reach with
  | noClient =>
    simp only [CompanyConcurrency.acquire] at hacquire
    split at hacquire
    · obtain ⟨rfl, rfl⟩ := Prod.mk.inj hacquire
      exact h.move_same hi rfl hvalid (hnone rfl) rfl
    · rename_i hfull
      obtain ⟨rfl, rfl⟩ := Prod.mk.inj hacquire
      have hlt := hroom hfull
      have hworking : a'.phase = .working := hphase'.resolve_right (by simp)
      have hredis : a'.holds .redis = false := by simp [Actor.holds, htook]
      have hprocess : a'.holds .process = true := by simp [Actor.holds, htook, hworking, hgave]
      refine h.move (n := s.heldIn .redis) hi rfl hvalid ?_ h.key ?_
      · rw [hfresh, hredis]
      · rw [hfresh, hfresh, hredis, hprocess]
        simpa using hlt
  | raises =>
    obtain ⟨rfl, rfl⟩ := Prod.mk.inj hacquire
    exact h.move_same hi rfl hvalid (hnone rfl) rfl
  | up =>
    obtain ⟨hunexpired, hroom⟩ := hroom
    have hlive := live_eq h.key hunexpired
    have hcount := count_eq h.key hlive
    simp only [CompanyConcurrency.acquire] at hacquire
    rcases le_or_gt (concurrencyLimit (a.kind.plan plan)) (s.key.count clock) with hmax | hmax
    · rw [acquireScript_full hmax hlive] at hacquire
      obtain ⟨rfl, rfl⟩ := Prod.mk.inj hacquire
      exact h.move_same hi rfl hvalid (hnone rfl) rfl
    · rw [acquireScript_free hmax] at hacquire
      obtain ⟨rfl, rfl⟩ := Prod.mk.inj hacquire
      have hworking : a'.phase = .working := hphase'.resolve_right (by simp)
      have hredis : a'.holds .redis = true := by simp [Actor.holds, htook, hworking, hgave]
      have hprocess : a'.holds .process = false := by simp [Actor.holds, htook]
      have hlt : s.held < concurrencyLimit plan := by
        rcases Nat.eq_zero_or_pos (s.heldIn .process) with hzero | hpos
        · have hle : concurrencyLimit (a.kind.plan plan) ≤ concurrencyLimit plan :=
            a.kind.concurrencyLimit_le
          simp only [World.held]
          omega
        · exact hroom hpos hmax
      refine h.move (n := s.heldIn .redis + 1) hi rfl hvalid ?_ ?_ ?_
      · rw [hfresh, hredis]
        rfl
      · rw [hcount]
        rfl
      · rw [hfresh, hfresh, hredis, hprocess]
        simpa using hlt

theorem Kept.arrive {kind : Kind} {process : ℕ} (h : Kept plan s) :
    Kept plan { s with actors := s.actors ++ [⟨kind, process, .fresh, none, []⟩] } := by
  have hnew : ∀ store, Actor.holds store ⟨kind, process, .fresh, none, []⟩ = false := by
    intro store
    simp [Actor.holds]
  have hheld := h.held
  refine ⟨fun a ha => ?_, ?_, ?_⟩
  · rcases List.mem_append.mp ha with ha | ha
    · exact h.valid a ha
    · obtain rfl := List.mem_singleton.mp ha
      exact ⟨rfl, rfl⟩
  · simpa [World.heldIn, hnew] using h.key
  · simpa [World.held, World.heldIn, hnew] using hheld

theorem Kept.quit (h : Kept plan s) (hi : s.actors[i]? = some a) (hphase : a.phase = .fresh) :
    Kept plan (s.update i { a with phase := .ended }) := by
  obtain ⟨htook, hgave⟩ := h.fresh hi hphase
  refine h.move_same hi rfl ?_ (fun store => ?_) rfl
  · simp [Actor.Valid, htook, hgave]
  · rw [holds_of_took_none htook, holds_ended rfl]

/-- The work of an actor ends with a `release`, of which the process does its part here. -/
theorem Kept.finish {locked : Finset ℕ} (h : Kept plan s) (hi : s.actors[i]? = some a)
    (hphase : a.phase = .working) :
    Kept plan ({ s with locked }.update i { a with
      phase := .releasing
      gave := if a.took = some Store.process then [Store.process] else [] }) := by
  have hgave := h.working hi hphase
  have hheld := h.held
  refine h.move (n := s.heldIn .redis) hi rfl rfl ?_ h.key ?_
  · rcases htook : a.took with _ | _ | _ <;> simp [Actor.holds, htook, hphase, hgave]
  · rcases htook : a.took with _ | _ | _ <;> simp [Actor.holds, htook, hphase, hgave] <;> omega

theorem Kept.finish_kept (h : Kept plan s) (hi : s.actors[i]? = some a)
    (hphase : a.phase = .working) (htook : a.took = none) :
    Kept plan (s.update i { a with phase := .ended }) := by
  have hgave := h.working hi hphase
  refine h.move_same hi rfl ?_ (fun store => ?_) rfl
  · simp [Actor.Valid, htook, hgave]
  · rw [holds_of_took_none htook, holds_ended rfl]

/-- The release of a slot of the counter. -/
theorem Kept.script (h : Kept plan s) (hi : s.actors[i]? = some a) (hphase : a.phase = .releasing)
    (htook : a.took = some .redis) (hunexpired : Unexpired s clock) {count : ℤ}
    (hscript : releaseScript s.key clock = (count, k)) :
    Kept plan ({ s with key := k, clock }.update i { a with
      phase := if count = 0 then Phase.deleting else .ended
      gave := if count = -1 then a.gave else a.gave ++ [Store.redis] }) := by
  have hgave : a.gave = [] := by simpa [htook] using h.releasing hi hphase
  have hholds : a.holds .redis = true := by simp [Actor.holds, htook, hphase, hgave]
  have hprocess : a.holds .process = false := by simp [Actor.holds, htook]
  have hpos : 0 < s.heldIn .redis :=
    List.countP_pos_iff.mpr ⟨a, List.mem_of_getElem? hi, hholds⟩
  obtain ⟨n, hn⟩ := Nat.exists_eq_succ_of_ne_zero hpos.ne'
  have hkey := h.key
  rw [hn] at hkey
  obtain ⟨hcount, hk⟩ := releaseScript_succ hkey (live_eq h.key hunexpired)
  rw [hscript] at hcount hk
  have hne : count ≠ -1 := by
    simp only at hcount
    omega
  have hheld := h.held
  refine h.move (n := n) hi rfl ?_ ?_ hk ?_
  · rw [if_neg hne, hgave]
    unfold Actor.Valid
    by_cases hzero : count = 0
    · simp [hzero, htook]
    · simp [hzero, htook]
  · rw [hholds, hn, if_neg hne, hgave]
    simp [Actor.holds]
  · rw [hholds, hprocess, if_neg hne, hgave]
    simp only [Actor.holds, htook]
    simp
    omega

/-- A release that gives back no slot of the counter, since none was taken. -/
theorem Kept.script_none (h : Kept plan s) (hi : s.actors[i]? = some a)
    (hphase : a.phase = .releasing) (htook : a.took ≠ some .redis) (hkey : k = s.key) :
    Kept plan ({ s with key := k, clock }.update i { a with phase := .ended }) := by
  have hgave := h.releasing hi hphase
  have hsame : a.gave = a.took.toList := by
    rcases htook' : a.took with _ | _ | _
    · simpa [htook'] using hgave
    · exact absurd htook' htook
    · simpa [htook'] using hgave
  refine h.move_same hi rfl hsame (fun store => ?_) hkey
  have hholds : a.holds store = false := by
    simp only [Actor.holds, hsame, decide_eq_false_iff_not]
    rintro ⟨-, hstore, hnot⟩
    exact hnot (Option.mem_toList.mpr hstore)
  rw [holds_ended rfl, hholds]

theorem Kept.delete (h : Kept plan s) (hi : s.actors[i]? = some a) (hphase : a.phase = .deleting)
    (hkey : k.map Prod.fst = slots (s.heldIn .redis)) :
    Kept plan ({ s with clock, key := k }.update i { a with phase := .ended }) := by
  obtain ⟨htook, hgave⟩ := h.deleting hi hphase
  have hholds : ∀ store, a.holds store = false := by
    intro store
    cases store <;> simp [Actor.holds, htook, hgave]
  have hheld := h.held
  refine h.move (n := s.heldIn .redis) hi rfl ?_ ?_ hkey ?_
  · simp [Actor.Valid, htook, hgave]
  · rw [hholds, holds_ended rfl]
  · rw [hholds, hholds, holds_ended rfl, holds_ended rfl]
    simpa using hheld

theorem Kept.step {e : Event} (h : Kept plan s) (horderly : Orderly plan estimatedWorkers s e)
    (hs : CompanyConcurrency.step plan estimatedWorkers s e = some s') : Kept plan s' := by
  cases e with
  | arrive kind process =>
    obtain rfl := Option.some.inj hs
    exact h.arrive
  | quit i =>
    simp only [CompanyConcurrency.step] at hs
    split at hs
    · rename_i a hi
      split at hs
      · rename_i hphase
        obtain rfl := Option.some.inj hs
        exact h.quit hi hphase
      · cases hs
    · cases hs
  | acquire i reach clock others =>
    simp only [CompanyConcurrency.step] at hs
    split at hs
    · rename_i a hi
      split at hs
      · rename_i hphase
        obtain rfl := Option.some.inj hs
        refine h.acquire hi hphase.1 (horderly a hi) rfl ?_ rfl (h.fresh hi hphase.1).2
        simp only
        split
        · rename_i hdenied
          exact .inr ⟨rfl, hdenied.2⟩
        · exact .inl rfl
      · cases hs
    · cases hs
  | finish i outcome =>
    simp only [CompanyConcurrency.step] at hs
    split at hs
    · rename_i a hi
      have hcond := horderly a hi
      split at hs
      · rename_i hphase
        split at hs
        · rename_i hreleases
          rw [if_pos hreleases] at hcond
          -- a slot of the process is there to be given back
          have hgave : (a.took = some .process ∧ a.process ∈ s.locked) = (a.took = some .process) :=
            propext (and_iff_left_of_imp hcond)
          simp only [hgave] at hs
          obtain rfl := Option.some.inj hs
          exact h.finish hi hphase.1
        · rename_i hreleases
          rw [if_neg hreleases] at hcond
          obtain rfl := Option.some.inj hs
          exact h.finish_kept hi hphase.1 hcond
      · cases hs
    · cases hs
  | script i reach clock =>
    simp only [CompanyConcurrency.step] at hs
    split at hs
    · rename_i a hi
      have hcond := horderly a hi
      split at hs
      · rename_i hphase
        by_cases htook : a.took = some .redis
        · rw [if_pos htook] at hcond
          rw [if_pos hcond.1] at hs
          obtain rfl := Option.some.inj hs
          exact h.script hi hphase.1 htook hcond.2 rfl
        · rw [if_neg htook] at hcond
          split at hs
          · rename_i hup
            -- no slot of the counter is held, so that there is no key to count down
            have hkey : s.key = none := by
              simpa [hcond hup, slots] using h.key
            simp only [hkey, releaseScript_none] at hs
            obtain rfl := Option.some.inj hs
            exact h.script_none hi hphase.1 htook hkey.symm
          · obtain rfl := Option.some.inj hs
            exact h.script_none hi hphase.1 htook rfl
      · cases hs
    · cases hs
  | delete i ok clock =>
    simp only [CompanyConcurrency.step] at hs
    split at hs
    · rename_i a hi
      split at hs
      · rename_i hphase
        obtain rfl := Option.some.inj hs
        refine h.delete hi hphase.1 ?_
        split
        · rename_i hok
          rw [horderly hok]
          rfl
        · exact h.key
      · cases hs
    · cases hs

theorem kept_start : Kept plan start :=
  ⟨by simp [start], rfl, Nat.zero_le _⟩

theorem Kept.sound (h : Kept plan s) : Sound plan s := by
  refine ⟨h.held, fun a ha hphase => ?_, fun hended => ?_⟩
  · simpa only [Actor.Valid, hphase] using h.valid a ha
  · have hzero : s.heldIn .redis = 0 :=
      List.countP_eq_zero.mpr fun a ha => by simp [holds_ended (hended a ha)]
    have hkey : s.key = none := by simpa [hzero, slots] using h.key
    rw [hkey]
    rfl

/-- In every run of orderly steps the slots are within the limit, each slot taken is given back
once, and the counter ends at 0. -/
theorem sound_of_orderly
    (h : ReachedBy (step plan estimatedWorkers) (Orderly plan estimatedWorkers) start s) :
    Sound plan s :=
  (h.invariant kept_start fun _ _ _ hkept horderly hs => hkept.step horderly hs).sound

instance (s : World) (clock : ℚ) : Decidable (Unexpired s clock) :=
  inferInstanceAs (Decidable (_ → _))

instance (plan asked : String) (estimatedWorkers : ℕ) (s : World) (process : ℕ) (clock : ℚ)
    (others : ℕ) : ∀ reach,
      Decidable (Roomy plan asked estimatedWorkers s process clock others reach)
  | .noClient => inferInstanceAs (Decidable (_ → _))
  | .raises => inferInstanceAs (Decidable True)
  | .up => inferInstanceAs (Decidable (_ ∧ _))

instance (plan : String) (estimatedWorkers : ℕ) (s : World) :
    ∀ e, Decidable (Orderly plan estimatedWorkers s e)
  | .arrive .. | .quit _ => inferInstanceAs (Decidable True)
  | .acquire .. | .finish .. | .script .. => inferInstanceAs (Decidable (∀ a ∈ _, _))
  | .delete .. => inferInstanceAs (Decidable (_ → _))

/-- An attempt and a request share the two slots of the starter plan. -/
theorem sound_of_orderly_starter : ∃ s : World,
    s.actors.map Actor.gave = [[.redis], [.redis]] ∧ Sound "starter" s := by
  have hrun : runWhile (step "starter" 2) (Orderly "starter" 2) start [.arrive .attempt 0,
      .arrive .request 1, .acquire 0 .up 0 0, .acquire 1 .up 10 0, .finish 1 .riskDenied,
      .script 1 .up 20, .finish 0 .succeeded, .script 0 .up 200, .delete 0 true 201] =
      some ⟨none, 201, ∅, [⟨.attempt, 0, .ended, some .redis, [.redis]⟩,
        ⟨.request, 1, .ended, some .redis, [.redis]⟩]⟩ := by
    decide +kernel
  exact ⟨_, rfl, sound_of_orderly (.of_runWhile hrun)⟩

/-- With one slot in all, an attempt whose `acquire` was refused gives back the slot of another,
and a third one takes it; and a request that was dispatched gives nothing back. -/
theorem not_sound_free :
    (¬ ∀ s, Reached (step "free" 2) start s → s.held ≤ concurrencyLimit "free") ∧
    ∃ s, Reached (step "free" 2) start s ∧ (∀ a ∈ s.actors, a.phase = .ended) ∧
      ¬ (∀ a ∈ s.actors, a.phase = .ended → a.gave = a.took.toList) ∧
      s.key.count s.clock ≠ 0 := by
  constructor
  · intro h
    have hrun : (run (step "free" 2) start [.arrive .attempt 0, .arrive .attempt 1,
        .arrive .attempt 2, .acquire 0 .up 0 0, .acquire 1 .up 1 0, .finish 1 .succeeded,
        .script 1 .up 2, .delete 1 true 2, .acquire 2 .up 3 0]).map World.held = some 2 := by
      decide +kernel
    obtain ⟨s, hs, hheld⟩ := Option.map_eq_some_iff.mp hrun
    have hle := h s (.of_run hs)
    rw [hheld] at hle
    exact absurd hle (by decide)
  · have hrun : run (step "free" 2) start [.arrive .request 0, .acquire 0 .up 0 0,
        .finish 0 .dispatched] =
        some ⟨some (1, 300), 0, {0}, [⟨.request, 0, .ended, some .redis, []⟩]⟩ := by
      decide +kernel
    exact ⟨_, .of_run hrun, by decide, by decide, by decide⟩

end WorkTicket.Billing.CompanyConcurrency
