import WorkTicket.Ai.DeniedRequests
import WorkTicket.Foundation.Transition
import WorkTicket.Foundation.WindowBound

/-! How much the limiter of one process admits in a window. A bucket is made anew thirty seconds
after it was made, whatever is left in it. -/

namespace WorkTicket.Ai.LocalWindows

open WorkTicket.Transition WorkTicket.WindowBound

/-! ## Runs of the limiter -/

inductive Op
  | user (userId : String) (rate : Option ℚ) (burst : Option ℤ)
  | tenant (companyId : String) (rate : Option ℚ) (burst : Option ℤ)
  | global (rate : Option ℚ) (burst : Option ℤ)
  | ip (clientIp : String) (rate : Option ℚ) (burst : Option ℤ)
  | cleanup
  | reset
  deriving DecidableEq, Repr

/-- The key of the bucket that a check takes from, and the limits that it would make it with. -/
def Op.asks (l : LocalRateLimiter) : Op → Option (String × ℚ × ℤ)
  | .user userId rate burst => some (userKey userId, rate.getD l.userRate, burst.getD l.userBurst)
  | .tenant companyId rate burst =>
    some (tenantKey companyId, rate.getD l.tenantRate, burst.getD l.tenantBurst)
  | .global rate burst => some ("global", rate.getD l.globalRate, burst.getD l.globalBurst)
  | .ip clientIp rate burst => some (ipKey clientIp, rate.getD 10, burst.getD 20)
  | .cleanup | .reset => none

/-- Whether a check admits, and the limiter left. -/
def Op.apply (l : LocalRateLimiter) (now : ℚ) : Op → Bool × LocalRateLimiter
  | .user userId rate burst => l.checkUser now userId rate burst
  | .tenant companyId rate burst => l.checkTenant now companyId rate burst
  | .global rate burst => l.checkGlobal now rate burst
  | .ip clientIp rate burst => l.checkIp now clientIp rate burst
  | .cleanup => (false, l.cleanup now)
  | .reset => (false, l.reset)

structure Call where
  time : ℚ
  op : Op
  deriving DecidableEq, Repr

/-- A limiter beside what an observer notes: the time of the last call, what is admitted on each
key, and the last bucket of each key, also when the table no longer has it. -/
structure Watched where
  limiter : LocalRateLimiter
  clock : ℚ
  past : String → Option LocalTokenBucket
  admitted : String → List ℚ

def watch (limiter : LocalRateLimiter) (clock : ℚ) : Watched :=
  ⟨limiter, clock, fun _ => none, fun _ => []⟩

/-- A call, at a time not before the last one. -/
def step (w : Watched) (c : Call) : Option Watched :=
  if c.time < w.clock then none
  else
    let (ok, limiter) := c.op.apply w.limiter c.time
    match c.op.asks w.limiter with
    | none => some { w with limiter, clock := c.time }
    | some (key, _) =>
      some
        { limiter
          clock := c.time
          past := Function.update w.past key (limiter.buckets key)
          admitted :=
            if ok then Function.update w.admitted key (c.time :: w.admitted key) else w.admitted }

theorem apply_of_asks {l : LocalRateLimiter} {op : Op} {key : String} {rate : ℚ} {burst : ℤ}
    (h : op.asks l = some (key, rate, burst)) (now : ℚ) :
    op.apply l now = l.consume now key rate (burst : ℚ) := by
  cases op with
  | user | tenant | global | ip =>
    obtain ⟨rfl, rfl, rfl⟩ : _ ∧ _ ∧ _ := by simpa [Op.asks] using h
    rfl
  | cleanup | reset => cases h

theorem buckets_of_not_asks {l : LocalRateLimiter} {op : Op} (h : op.asks l = none) (now : ℚ)
    {key : String} {b : LocalTokenBucket} (hb : (op.apply l now).2.buckets key = some b) :
    l.buckets key = some b := by
  cases op with
  | user | tenant | global | ip => cases h
  | cleanup => exact (Option.filter_eq_some_iff.mp hb).1
  | reset => cases hb

/-! ## The level of a bucket -/

section
variable {rate : ℚ} {burst : ℤ} {tokens now level clock : ℚ} {log : List ℚ}
variable {b : LocalTokenBucket} {stored stored' past : Option LocalTokenBucket}

/-- The bucket has the limits of its key and finitely many tokens. -/
structure Holds (rate : ℚ) (burst : ℤ) (tokens : ℚ) (b : LocalTokenBucket) : Prop where
  rate : b.rate = rate
  burst : b.burst = (burst : ℚ)
  tokens : b.tokens = tokens

/-- The tokens that a bucket has at `now`. -/
def levelAt (rate : ℚ) (burst : ℤ) (tokens : ℚ) (b : LocalTokenBucket) (now : ℚ) : ℚ :=
  min (burst : ℚ) (tokens + (now - b.lastRefill) * rate)

theorem Holds.available (h : Holds rate burst tokens b) (now : ℚ) :
    b.available now = (levelAt rate burst tokens b now : ℚ) := by
  rw [LocalTokenBucket.available, h.rate, h.burst, h.tokens, levelAt, WithTop.coe_min,
    WithTop.coe_add]
  rfl

theorem Holds.init (rate : ℚ) (burst : ℤ) (now : ℚ) :
    Holds rate burst burst (.init rate (burst : ℚ) now) := ⟨rfl, rfl, rfl⟩

theorem levelAt_init (rate : ℚ) (burst : ℤ) (now : ℚ) :
    levelAt rate burst burst (.init rate (burst : ℚ) now) now = burst := by
  simp [levelAt, LocalTokenBucket.init]

/-- What a check leaves in the bucket. -/
theorem Holds.consume (h : Holds rate burst tokens b) (now : ℚ) :
    let v := levelAt rate burst tokens b now
    let kept := if 1 ≤ v then v - 1 else v
    (b.consume now).1 = decide (1 ≤ v) ∧ Holds rate burst kept (b.consume now).2 ∧
      (b.consume now).2.lastRefill = now := by
  have havailable := h.available now
  have hone : (1 : WithTop ℚ) ≤ b.available now ↔ 1 ≤ levelAt rate burst tokens b now := by
    rw [havailable]
    exact WithTop.coe_le_coe
  by_cases hle : 1 ≤ levelAt rate burst tokens b now
  · simp only [LocalTokenBucket.consume, hone, hle, if_true]
    exact ⟨by simp, ⟨h.rate, h.burst, by rw [havailable]; rfl⟩, trivial⟩
  · simp only [LocalTokenBucket.consume, hone, hle, if_false]
    exact ⟨by simp, ⟨h.rate, h.burst, havailable⟩, trivial⟩

/-- The bucket in the table under a key, the last one that it had, and its admissions. -/
structure Inv (rate : ℚ) (burst : ℤ) (stored past : Option LocalTokenBucket) (log : List ℚ)
    (clock level : ℚ) : Prop where
  metered : Metered rate burst log clock level
  nonneg : 0 ≤ level
  table : ∀ b, stored = some b → past = some b
  kept : ∀ b, past = some b →
    ∃ tokens, Holds rate burst tokens b ∧ level = levelAt rate burst tokens b clock
  full : past = none → level = burst

theorem Inv.wait (h : Inv rate burst stored past log clock level) (hrate : 0 ≤ rate)
    (hclock : clock ≤ now) (hstored : ∀ b, stored' = some b → stored = some b) :
    ∃ level', Inv rate burst stored' past log now level' := by
  have hgrowth : 0 ≤ rate * (now - clock) := mul_nonneg hrate (sub_nonneg.mpr hclock)
  cases hpast : past with
  | none =>
    have hfull := h.full hpast
    refine ⟨burst, ?_, by rw [← hfull]; exact h.nonneg, ?_, nofun, fun _ => rfl⟩
    · exact h.metered.wait hrate hclock le_rfl (by linarith)
    · intro b hb
      rw [← hpast]
      exact h.table b (hstored b hb)
  | some b =>
    obtain ⟨tokens, hholds, hlevel⟩ := h.kept b hpast
    have hsplit : (now - b.lastRefill) * rate =
        (clock - b.lastRefill) * rate + rate * (now - clock) := by ring
    have hrise : level ≤ levelAt rate burst tokens b now := by
      rw [hlevel]
      exact min_le_min le_rfl (by linarith)
    have hbelow : levelAt rate burst tokens b now ≤ level + rate * (now - clock) := by
      rw [hlevel, levelAt, levelAt, min_add, hsplit]
      exact min_le_min (by linarith) (by linarith)
    refine ⟨levelAt rate burst tokens b now, ?_, h.nonneg.trans hrise, ?_, ?_, nofun⟩
    · exact h.metered.wait hrate hclock (min_le_left _ _) hbelow
    · intro b' hb'
      rw [← hpast]
      exact h.table b' (hstored b' hb')
    · intro b' hb'
      obtain rfl := Option.some.inj hb'
      exact ⟨tokens, hholds, rfl⟩

/-- A check that finds the bucket with the metered level. -/
theorem Inv.consume (hmetered : Metered rate burst log now (levelAt rate burst tokens b now))
    (hrate : 0 ≤ rate) (hnonneg : 0 ≤ levelAt rate burst tokens b now)
    (hholds : Holds rate burst tokens b) :
    ∃ level', Inv rate burst (some (b.consume now).2) (some (b.consume now).2)
      (if (b.consume now).1 then now :: log else log) now level' := by
  obtain ⟨hok, hkept, hlast⟩ := hholds.consume now
  have hat : ∀ kept, kept ≤ (burst : ℚ) →
      kept = levelAt rate burst kept (b.consume now).2 now := by
    intro kept hle
    rw [levelAt, hlast]
    simp [hle]
  have hburst : levelAt rate burst tokens b now ≤ burst := min_le_left _ _
  by_cases hone : 1 ≤ levelAt rate burst tokens b now
  · simp only [hone, if_true, decide_true] at hok hkept
    rw [hok, if_pos rfl]
    refine ⟨levelAt rate burst tokens b now - 1, hmetered.admitted hrate hone, by linarith,
      fun _ hb => hb, ?_, nofun⟩
    intro b' hb'
    obtain rfl := Option.some.inj hb'
    exact ⟨_, hkept, hat _ (by linarith)⟩
  · simp only [hone, if_false, decide_false] at hok hkept
    rw [hok, if_neg Bool.false_ne_true]
    refine ⟨levelAt rate burst tokens b now, hmetered, hnonneg, fun _ hb => hb, ?_, nofun⟩
    intro b' hb'
    obtain rfl := Option.some.inj hb'
    exact ⟨_, hkept, hat _ hburst⟩

end

/-! ## The bound -/

section
variable {key : String} {rate : ℚ} {burst : ℤ} {w w' : Watched} {c : Call}

/-- The calls on the key have its limits, and a call makes a new bucket for it only if the one
before, left alone, would be full by then. -/
structure Refilled (key : String) (rate : ℚ) (burst : ℤ) (w : Watched) (c : Call) : Prop where
  limits : ∀ r b, c.op.asks w.limiter = some (key, r, b) → r = rate ∧ b = burst
  full : (c.op.asks w.limiter).map Prod.fst = some key → w.limiter.fresh c.time key = none →
    ∀ b, w.past key = some b → (burst : ℚ) ≤ b.available c.time

/-- At most `burst + rate * T` checks on the key are admitted in any interval of length `T`. -/
def WithinLimit (key : String) (rate : ℚ) (burst : ℤ) (w : Watched) : Prop :=
  Bounded rate (burst : ℚ) (w.admitted key)

def Holding (key : String) (rate : ℚ) (burst : ℤ) (w : Watched) : Prop :=
  ∃ level, Inv rate burst (w.limiter.buckets key) (w.past key) (w.admitted key) w.clock level

/-- A check is made on the bucket found in the table, or on a new one. -/
theorem consume_left (l : LocalRateLimiter) (now : ℚ) (key : String) (r : ℚ) (b : ℤ) :
    l.consume now key r (b : ℚ) =
      let check := DeniedRequests.localCheck l now key r b ""
      ((check.take (l.buckets key)).1, { l with buckets := check.left l.buckets }) :=
  DeniedRequests.consume_eq l.buckets

theorem consume_fst (l : LocalRateLimiter) (now : ℚ) (key : String) (r : ℚ) (b : ℤ) :
    (l.consume now key r (b : ℚ)).1 =
      (((l.fresh now key).getD (.init r (b : ℚ) now)).consume now).1 := by
  rw [consume_left]
  rfl

theorem consume_buckets_self (l : LocalRateLimiter) (now : ℚ) (key : String) (r : ℚ) (b : ℤ) :
    (l.consume now key r (b : ℚ)).2.buckets key =
      some (((l.fresh now key).getD (.init r (b : ℚ) now)).consume now).2 := by
  rw [consume_left]
  exact Function.update_self ..

theorem consume_buckets_of_ne (l : LocalRateLimiter) (now : ℚ) {key other : String} (r : ℚ) (b : ℤ)
    (h : other ≠ key) : (l.consume now key r (b : ℚ)).2.buckets other = l.buckets other := by
  rw [consume_left]
  exact Function.update_of_ne h ..

/-- What a step is: a call that leaves the buckets or removes some, or a check. -/
theorem step_cases (h : step w c = some w') : w.clock ≤ c.time ∧
    ((c.op.asks w.limiter = none ∧
        (∀ k b, w'.limiter.buckets k = some b → w.limiter.buckets k = some b) ∧
        w' = { w with limiter := w'.limiter, clock := c.time }) ∨
      ∃ k r b, c.op.asks w.limiter = some (k, r, b) ∧
        let checked := w.limiter.consume c.time k r (b : ℚ)
        w' =
          { limiter := checked.2
            clock := c.time
            past := Function.update w.past k (checked.2.buckets k)
            admitted := if checked.1 then Function.update w.admitted k (c.time :: w.admitted k)
              else w.admitted }) := by
  unfold step at h
  split at h
  · cases h
  · rename_i htime
    refine ⟨not_lt.mp htime, ?_⟩
    cases hasks : c.op.asks w.limiter with
    | none =>
      rw [hasks] at h
      obtain rfl := Option.some.inj h
      exact .inl ⟨rfl, fun k b hb => buckets_of_not_asks hasks c.time hb, rfl⟩
    | some asked =>
      obtain ⟨k, r, b⟩ := asked
      rw [hasks] at h
      simp only [apply_of_asks hasks] at h
      exact .inr ⟨k, r, b, rfl, (Option.some.inj h).symm⟩

/-- A check on the key, with the limits of the key. -/
theorem Holding.check (hrate : 0 ≤ rate) (hburst : 0 ≤ burst) (h : Holding key rate burst w)
    {now : ℚ} (hclock : w.clock ≤ now)
    (hfull : w.limiter.fresh now key = none → ∀ b, w.past key = some b →
      (burst : ℚ) ≤ b.available now) :
    let checked := w.limiter.consume now key rate (burst : ℚ)
    ∃ level, Inv rate burst (checked.2.buckets key) (checked.2.buckets key)
      (if checked.1 then now :: w.admitted key else w.admitted key) now level := by
  have hburst' : (0 : ℚ) ≤ burst := by exact_mod_cast hburst
  obtain ⟨level, hinv⟩ := h
  obtain ⟨level, hinv⟩ := hinv.wait hrate hclock fun _ hb => hb
  simp only [consume_buckets_self, consume_fst]
  cases hfresh : w.limiter.fresh now key with
  | some b =>
    have hstored : w.limiter.buckets key = some b := (Option.filter_eq_some_iff.mp hfresh).1
    obtain ⟨tokens, hholds, rfl⟩ := hinv.kept b (hinv.table b hstored)
    exact Inv.consume hinv.metered hrate hinv.nonneg hholds
  | none =>
    -- the new bucket is as full as the old one would be
    have hlevel : level = levelAt rate burst burst (.init rate (burst : ℚ) now) now := by
      rw [levelAt_init]
      cases hpast : w.past key with
      | none => exact hinv.full hpast
      | some b =>
        obtain ⟨tokens, hholds, rfl⟩ := hinv.kept b hpast
        have havailable := hfull hfresh b hpast
        rw [hholds.available] at havailable
        exact le_antisymm (min_le_left _ _) (WithTop.coe_le_coe.mp havailable)
    subst hlevel
    exact Inv.consume hinv.metered hrate hinv.nonneg (.init rate burst now)

theorem holding_step (hrate : 0 ≤ rate) (hburst : 0 ≤ burst) (h : Holding key rate burst w)
    (hc : Refilled key rate burst w c) (hs : step w c = some w') : Holding key rate burst w' := by
  obtain ⟨hclock, ⟨-, hbuckets, hw'⟩ | ⟨k, r, b, hasks, rfl⟩⟩ := step_cases hs
  · obtain ⟨level, hinv⟩ := h
    rw [hw']
    exact hinv.wait hrate hclock (hbuckets key)
  · by_cases hkey : k = key
    · subst hkey
      obtain ⟨rfl, rfl⟩ := hc.limits r b hasks
      have hcheck := h.check hrate hburst hclock (hc.full (by rw [hasks]; rfl))
      unfold Holding
      simp only [Function.update_self]
      split
      · rename_i hok
        simpa only [hok, if_true, Function.update_self] using hcheck
      · rename_i hok
        simpa only [hok, Bool.false_eq_true, if_false] using hcheck
    · have hne : key ≠ k := Ne.symm hkey
      obtain ⟨level, hinv⟩ := h
      have hsame : ∀ b', (w.limiter.consume c.time k r (b : ℚ)).2.buckets key = some b' →
          w.limiter.buckets key = some b' := by
        intro b' hb'
        rwa [consume_buckets_of_ne _ _ _ _ hne] at hb'
      have hwait := hinv.wait hrate hclock hsame
      unfold Holding
      simp only [Function.update_of_ne hne]
      split
      · simpa only [Function.update_of_ne hne] using hwait
      · exact hwait

/-- The bound holds in every run in which no bucket of the key is made anew before it is full. -/
theorem withinLimit_of_refilled {l : LocalRateLimiter} {clock : ℚ} (hrate : 0 ≤ rate)
    (hburst : 0 ≤ burst) (hl : l.buckets key = none)
    (h : ReachedBy step (Refilled key rate burst) (watch l clock) w) :
    WithinLimit key rate burst w := by
  have hburst' : (0 : ℚ) ≤ burst := by exact_mod_cast hburst
  have hstart : Holding key rate burst (watch l clock) := by
    refine ⟨burst, .start hrate hburst' le_rfl, hburst', ?_, nofun, fun _ => rfl⟩
    intro b hb
    exact absurd (hl.symm.trans hb) nofun
  obtain ⟨level, hinv⟩ := h.invariant hstart fun _ _ _ hi hok hs =>
    holding_step hrate hburst hi hok hs
  exact hinv.metered.bounded

end

/-! ## All checks of a request -/

/-- The limiter that calls at `now` can leave. -/
def LeftAt (now : ℚ) (w : Watched) (l : LocalRateLimiter) : Prop :=
  ∃ calls w', (∀ c ∈ calls, c.time = now) ∧ run step w calls = some w' ∧ w'.limiter = l ∧
    w'.clock ≤ now

section
open WorkTicket.KeyedBuckets (guarded)

variable {now : ℚ} {w : Watched} {l : LocalRateLimiter}

theorem run_append (w : Watched) (calls more : List Call) :
    run step w (calls ++ more) = (run step w calls).bind fun w' => run step w' more := by
  induction calls generalizing w with
  | nil => rfl
  | cons c calls ih =>
    rw [List.cons_append, run, run, Option.bind_assoc]
    exact Option.bind_congr fun w' _ => ih w'

theorem LeftAt.apply (h : LeftAt now w l) (op : Op) : LeftAt now w (op.apply l now).2 := by
  obtain ⟨calls, w', htimes, hrun, rfl, hclock⟩ := h
  obtain ⟨w'', hstep, hlimiter, hnow⟩ : ∃ w'', step w' ⟨now, op⟩ = some w'' ∧
      w''.limiter = (op.apply w'.limiter now).2 ∧ w''.clock = now := by
    unfold step
    rw [if_neg (not_lt.mpr hclock)]
    cases op.asks w'.limiter with
    | none => exact ⟨_, rfl, rfl, rfl⟩
    | some asked => exact ⟨_, rfl, rfl, rfl⟩
  refine ⟨calls ++ [⟨now, op⟩], w'', ?_, ?_, hlimiter, hnow.le⟩
  · intro c hc
    rcases List.mem_append.mp hc with hc | hc
    · exact htimes c hc
    · rw [List.mem_singleton.mp hc]
  · rw [run_append, hrun]
    simp [run, hstep]

theorem LeftAt.guarded {α : Type} (op : Op) (p : Prop) [Decidable p] (denied : α)
    {next : LocalRateLimiter → α × LocalRateLimiter}
    (hnext : ∀ l, LeftAt now w l → LeftAt now w (next l).2) (l : LocalRateLimiter)
    (h : LeftAt now w l) : LeftAt now w (guarded p (fun l => op.apply l now) denied next l).2 := by
  have happly : LeftAt now w (if p then op.apply l now else (true, l)).2 := by
    split
    · exact h.apply op
    · exact h
  unfold KeyedBuckets.guarded
  generalize (if p then op.apply l now else (true, l)) = r at happly ⊢
  obtain ⟨ok, left⟩ := r
  cases ok with
  | true => exact hnext left happly
  | false => exact happly

/-- `check_all` makes its checks one after the other. -/
theorem checkAll_leftAt (hclock : w.clock ≤ now) (userId companyId clientIp : String) :
    LeftAt now w (w.limiter.checkAll now userId companyId clientIp).2 := by
  have hstart : LeftAt now w w.limiter := ⟨[], w, nofun, rfl, rfl, hclock⟩
  have hlast : ∀ l, LeftAt now w l → LeftAt now w (((true, ""), l) : (Bool × String) × _).2 :=
    fun _ hl => hl
  have hip := LeftAt.guarded (.ip clientIp none none) (clientIp ≠ "")
    (false, "IP rate limit exceeded") hlast
  have huser := LeftAt.guarded (.user userId none none) (userId ≠ "")
    (false, "user rate limit exceeded") hip
  have htenant := LeftAt.guarded (.tenant companyId none none) (companyId ≠ "")
    (false, "tenant rate limit exceeded") huser
  exact LeftAt.guarded (.global none none) True (false, "global rate limit exceeded") htenant _
    hstart

end

/-! ## A bucket that is made anew -/

instance (key : String) (rate : ℚ) (burst : ℤ) (w : Watched) (c : Call) :
    Decidable (Refilled key rate burst w c) :=
  decidable_of_iff
    ((∀ x ∈ c.op.asks w.limiter, x.1 = key → x.2.1 = rate ∧ x.2.2 = burst) ∧
      ((c.op.asks w.limiter).map Prod.fst = some key → w.limiter.fresh c.time key = none →
        ∀ b ∈ w.past key, (burst : ℚ) ≤ b.available c.time))
    ⟨fun h => ⟨fun r b hasks => h.1 (key, r, b) hasks rfl, h.2⟩,
      fun h => ⟨fun x hx hkey => h.limits x.2.1 x.2.2 (hkey ▸ hx), h.full⟩⟩

def userAt (time : ℚ) : Call := ⟨time, .user "7" none none⟩

/-- Three checks at once, and three more when the bucket is full again and old. -/
theorem withinLimit_rested :
    WithinLimit (userKey "7") 1 3 ((runWhile step (Refilled (userKey "7") 1 3) (watch {} 0)
      ([0, 0, 0].map userAt ++ [⟨31, .cleanup⟩] ++ [33, 33, 33].map userAt)).get
        (by decide +kernel)) := by
  have hrun := ReachedBy.of_runWhile (Option.some_get (x := runWhile step
    (Refilled (userKey "7") 1 3) (watch {} 0)
      ([0, 0, 0].map userAt ++ [⟨31, .cleanup⟩] ++ [33, 33, 33].map userAt))
        (by decide +kernel)).symm
  exact withinLimit_of_refilled (l := {}) (by norm_num) (by norm_num) rfl hrun

/-- A bucket made at 0 is emptied at 29 and made anew at 30. -/
theorem not_withinLimit_replaced :
    ¬∀ calls w, run step (watch {} 0) calls = some w → WithinLimit (userKey "7") 1 3 w := by
  intro h
  have hsome : ((run step (watch {} 0) ([0, 29, 29, 29, 30, 30, 30].map userAt)).any fun w =>
      (w.admitted (userKey "7")).countP (fun a => 29 ≤ a ∧ a ≤ 29 + 1) == 6) = true := by
    decide +kernel
  obtain ⟨w, hrun, hcount⟩ := (Option.any_eq_true _ _).mp hsome
  have hbound := h _ w hrun 29 1 (by norm_num)
  rw [beq_iff_eq.mp hcount] at hbound
  norm_num at hbound

end WorkTicket.Ai.LocalWindows
