import WorkTicket.Tasks.TaskSigning

/-! `is_broker_healthy`, which remembers when the broker was first found down and when it was last
looked at. Its answers are compared with the history of what the probes found. -/

namespace WorkTicket.Tasks.BrokerHealth

/-! ## The code -/

/-- `_broker_unhealthy_since` and `_last_broker_check`. -/
structure Health where
  unhealthySince : Option ℚ
  lastCheck : ℚ
  deriving DecidableEq, Repr

/-- A call at a time of the monotonic clock, and whether a probe would find the broker there,
answering and writable. -/
structure Call where
  now : ℚ
  alive : Bool
  deriving DecidableEq, Repr

def checkInterval : ℚ := 5

def unhealthyThreshold : ℚ := 60

namespace Health

def start : Health := ⟨none, 0⟩

def withinThreshold (since : Option ℚ) (now : ℚ) : Bool :=
  since.all fun t => now - t < unhealthyThreshold

def isBrokerHealthy (s : Health) (c : Call) : Bool × Health :=
  if c.now - s.lastCheck < checkInterval then (withinThreshold s.unhealthySince c.now, s)
  else if c.alive then (true, ⟨none, c.now⟩)
  else
    let since := s.unhealthySince.getD c.now
    (withinThreshold (some since) c.now, ⟨some since, c.now⟩)

def after (calls : List Call) : Health :=
  calls.foldl (fun s c => (s.isBrokerHealthy c).2) start

end Health

/-! ## The history -/

/-- The calls that look at the broker, where the last look was at `last`. -/
def probesFrom (last : ℚ) : List Call → List Call
  | [] => []
  | c :: calls =>
    if c.now - last < checkInterval then probesFrom last calls
    else c :: probesFrom c.now calls

def probes (calls : List Call) : List Call := probesFrom 0 calls

/-- All probes since the one at `t` have failed, and the one before it, if any, has not. -/
inductive DownSince : List Call → ℚ → Prop
  | first {before : List Call} {c : Call} (hbefore : ∀ d ∈ before.getLast?, d.alive = true)
      (hdown : c.alive = false) : DownSince (before ++ [c]) c.now
  | more {before : List Call} {c : Call} {t : ℚ} (hbefore : DownSince before t)
      (hdown : c.alive = false) : DownSince (before ++ [c]) t

/-- Calls come at least every `gap` seconds between two times. -/
def Polled (calls : List Call) (gap first last : ℚ) : Prop :=
  ∀ t, first ≤ t → t + gap ≤ last → ∃ c ∈ calls, t ≤ c.now ∧ c.now ≤ t + gap

/-! ## Looks -/

/-- When the broker was last looked at. -/
def lastLook (last : ℚ) : List Call → ℚ
  | [] => last
  | c :: calls =>
    if c.now - last < checkInterval then lastLook last calls else lastLook c.now calls

section
variable {calls before : List Call} {c : Call} {last t : ℚ}

theorem probesFrom_append (last : ℚ) (calls later : List Call) :
    probesFrom last (calls ++ later) =
      probesFrom last calls ++ probesFrom (lastLook last calls) later := by
  induction calls generalizing last with
  | nil => rfl
  | cons d calls ih =>
    rw [List.cons_append, probesFrom, probesFrom, lastLook]
    split
    · exact ih last
    · rw [ih d.now, List.cons_append]

theorem lastLook_append (last : ℚ) (calls later : List Call) :
    lastLook last (calls ++ later) = lastLook (lastLook last calls) later := by
  induction calls generalizing last with
  | nil => rfl
  | cons d calls ih =>
    rw [List.cons_append, lastLook, lastLook]
    split
    · exact ih last
    · exact ih d.now

theorem after_snoc : Health.after (calls ++ [c]) =
    ((Health.after calls).isBrokerHealthy c).2 := by
  rw [Health.after, List.foldl_append]
  rfl

theorem lastCheck_eq (calls : List Call) : (Health.after calls).lastCheck = lastLook 0 calls := by
  induction calls using List.reverseRecOn with
  | nil => rfl
  | append_singleton calls c ih =>
    rw [after_snoc, Health.isBrokerHealthy, ih, lastLook_append, lastLook, lastLook]
    split
    · exact ih
    · split <;> rfl

/-! ## Outages -/

theorem downSince_snoc : DownSince (before ++ [c]) t ↔ c.alive = false ∧
    ((∀ d ∈ before.getLast?, d.alive = true) ∧ t = c.now ∨ DownSince before t) := by
  constructor
  · intro h
    generalize hwhole : before ++ [c] = whole at h
    cases h with
    | first hbefore hdown =>
      obtain ⟨rfl, hc⟩ := List.append_inj' hwhole rfl
      obtain rfl : c = _ := List.singleton_inj.mp hc
      exact ⟨hdown, .inl ⟨hbefore, rfl⟩⟩
    | more hbefore hdown =>
      obtain ⟨rfl, hc⟩ := List.append_inj' hwhole rfl
      obtain rfl : c = _ := List.singleton_inj.mp hc
      exact ⟨hdown, .inr hbefore⟩
  · rintro ⟨hdown, ⟨hbefore, rfl⟩ | hbefore⟩
    · exact .first hbefore hdown
    · exact .more hbefore hdown

theorem DownSince.getLast? (h : DownSince before t) : ∃ d ∈ before.getLast?, d.alive = false := by
  cases h with
  | first _ hdown => exact ⟨_, List.getLast?_concat, hdown⟩
  | more _ hdown => exact ⟨_, List.getLast?_concat, hdown⟩

/-- There is an outage exactly if the last probe has failed. -/
theorem exists_downSince {before : List Call} (h : ∃ d ∈ before.getLast?, d.alive = false) :
    ∃ t, DownSince before t := by
  induction before using List.reverseRecOn with
  | nil =>
    obtain ⟨d, hd, -⟩ := h
    cases hd
  | append_singleton before c ih =>
    obtain ⟨d, hd, hdown⟩ := h
    rw [List.getLast?_concat, Option.mem_some_iff] at hd
    subst hd
    by_cases hlast : ∃ d ∈ before.getLast?, d.alive = false
    · obtain ⟨t, ht⟩ := ih hlast
      exact ⟨t, .more ht hdown⟩
    · push Not at hlast
      exact ⟨_, .first (fun d hd => by simpa using hlast d hd) hdown⟩

/-- What is remembered of an outage is when the probes began to fail. -/
theorem unhealthySince_iff (calls : List Call) (t : ℚ) :
    (Health.after calls).unhealthySince = some t ↔ DownSince (probes calls) t := by
  induction calls using List.reverseRecOn generalizing t with
  | nil =>
    refine iff_of_false (by rintro ⟨⟩) fun h => ?_
    obtain ⟨d, hd, -⟩ := h.getLast?
    cases hd
  | append_singleton calls c ih =>
    rw [after_snoc, Health.isBrokerHealthy, lastCheck_eq, probes, probesFrom_append]
    simp only [probesFrom]
    split
    · rw [List.append_nil]
      exact ih t
    rw [downSince_snoc]
    cases hdown : c.alive with
    | true =>
      refine iff_of_false ?_ ?_
      · rintro ⟨⟩
      · rintro ⟨⟨⟩, -⟩
    | false =>
      rw [if_neg Bool.false_ne_true]
      simp only [Option.some.injEq, true_and]
      cases hsince : (Health.after calls).unhealthySince with
      | none =>
        have hnever : ∀ t, ¬DownSince (probes calls) t := fun t ht => by
          cases hsince.symm.trans ((ih t).mpr ht)
        have hup : ∀ d ∈ (probes calls).getLast?, d.alive = true := by
          intro d hd
          by_contra halive
          obtain ⟨t, ht⟩ := exists_downSince ⟨d, hd, Bool.not_eq_true _ ▸ halive⟩
          exact hnever t ht
        constructor
        · rintro rfl
          exact .inl ⟨hup, rfl⟩
        · rintro (⟨-, rfl⟩ | ht)
          · rfl
          · exact absurd ht (hnever t)
      | some t' =>
        have hdownSince := (ih t').mp hsince
        constructor
        · rintro rfl
          exact .inr hdownSince
        · rintro (⟨hup, -⟩ | ht)
          · obtain ⟨d, hd, hd'⟩ := hdownSince.getLast?
            cases (hup d hd).symm.trans hd'
          · exact Option.some.inj (hsince.symm.trans ((ih t).mpr ht))

/-- An answer is a refusal when the outage that is remembered after it is long enough. -/
theorem isBrokerHealthy_eq_false (s : Health) (c : Call) :
    (s.isBrokerHealthy c).1 = false ↔
      ∃ t, (s.isBrokerHealthy c).2.unhealthySince = some t ∧ unhealthyThreshold ≤ c.now - t := by
  have hwithin : ∀ since : Option ℚ, Health.withinThreshold since c.now = false ↔
      ∃ t, since = some t ∧ unhealthyThreshold ≤ c.now - t := by
    intro since
    cases since with
    | none => simp [Health.withinThreshold]
    | some t => simp [Health.withinThreshold]
  unfold Health.isBrokerHealthy
  split
  · exact hwithin _
  · split
    · simp
    · exact hwithin (some (s.unhealthySince.getD c.now))

/-- `is_broker_healthy` refuses exactly when the probes have failed for as long as the threshold:
what it remembers stands for the whole history. -/
theorem isBrokerHealthy_exact (calls : List Call) (c : Call) :
    ((Health.after calls).isBrokerHealthy c).1 = false ↔
      ∃ t, DownSince (probes (calls ++ [c])) t ∧ unhealthyThreshold ≤ c.now - t := by
  rw [isBrokerHealthy_eq_false, ← after_snoc]
  simp only [unhealthySince_iff]

/-! ## Detection -/

theorem lastLook_cases (last : ℚ) (calls : List Call) :
    lastLook last calls = last ∨ ∃ c ∈ probesFrom last calls, c.now = lastLook last calls := by
  induction calls using List.reverseRecOn with
  | nil => exact .inl rfl
  | append_singleton calls c ih =>
    rw [lastLook_append, lastLook, lastLook, probesFrom_append, probesFrom, probesFrom]
    split
    · rwa [List.append_nil]
    · exact .inr ⟨c, List.mem_append_right _ (List.mem_singleton_self c), rfl⟩

theorem probesFrom_sublist (last : ℚ) (calls : List Call) :
    List.Sublist (probesFrom last calls) calls := by
  induction calls generalizing last with
  | nil => exact List.Sublist.refl _
  | cons c calls ih =>
    rw [probesFrom]
    split
    · exact (ih last).cons c
    · exact (ih c.now).cons_cons c

/-- Within the interval before a call the broker is looked at. -/
theorem exists_probe (hsorted : calls.Pairwise (·.now ≤ ·.now)) (hc : c ∈ calls)
    (hlate : checkInterval ≤ c.now) :
    ∃ q ∈ probes calls, c.now - checkInterval ≤ q.now ∧ q.now ≤ c.now := by
  obtain ⟨before, later, rfl⟩ := List.append_of_mem hc
  unfold probes
  rw [probesFrom_append, probesFrom]
  split
  · rename_i hsoon
    rcases lastLook_cases 0 before with hnone | ⟨q, hq, hnow⟩
    · rw [hnone, sub_zero] at hsoon
      exact absurd hlate (not_le.mpr hsoon)
    · have hearlier : q.now ≤ c.now := by
        have hpair := (List.pairwise_append.mp hsorted).2.2
        exact hpair q ((probesFrom_sublist 0 before).subset hq) c List.mem_cons_self
      refine ⟨q, List.mem_append_left _ hq, ?_, hearlier⟩
      rw [hnow]
      linarith
  · refine ⟨c, List.mem_append_right _ List.mem_cons_self, ?_, le_rfl⟩
    exact sub_le_self _ (by norm_num [checkInterval])

theorem DownSince.exists_eq (h : DownSince before t) : ∃ q ∈ before, q.now = t := by
  induction h with
  | first _ _ => exact ⟨_, List.mem_append_right _ (List.mem_singleton_self _), rfl⟩
  | more _ _ ih =>
    obtain ⟨q, hq, hnow⟩ := ih
    exact ⟨q, List.mem_append_left _ hq, hnow⟩

/-- An outage began no later than any probe since which all have failed. -/
theorem DownSince.le (h : DownSince before t) (hsorted : before.Pairwise (·.now ≤ ·.now))
    {q : Call} (hq : q ∈ before) (hfailed : ∀ d ∈ before, q.now ≤ d.now → d.alive = false) :
    t ≤ q.now := by
  induction h with
  | @first before c hbefore _ =>
    rcases List.mem_append.mp hq with hq | hq
    · -- then the last probe before would have failed
      obtain ⟨earlier, d, rfl⟩ := (List.eq_nil_or_concat' before).resolve_left
        (List.ne_nil_of_mem hq)
      have hlast : q.now ≤ d.now := by
        rcases List.mem_append.mp hq with hq | hq
        · have hpair := (List.pairwise_append.mp (List.pairwise_append.mp hsorted).1).2.2
          exact hpair q hq d (List.mem_singleton_self d)
        · rw [List.mem_singleton.mp hq]
      have hdown := hfailed d (by simp) hlast
      cases hdown.symm.trans (hbefore d List.getLast?_concat)
    · rw [List.mem_singleton.mp hq]
  | @more before c t hdown _ ih =>
    obtain ⟨hearlier, -, hpair⟩ := List.pairwise_append.mp hsorted
    rcases List.mem_append.mp hq with hq | hq
    · exact ih hearlier hq fun d hd => hfailed d (List.mem_append_left _ hd)
    · obtain ⟨d, hd, rfl⟩ := hdown.exists_eq
      rw [List.mem_singleton.mp hq]
      exact hpair d hd c (List.mem_singleton_self c)

end

/-- When the broker has been down for a minute and the time it may take until it is looked at, no
task is enqueued. -/
theorem refuses_of_down {calls : List Call} {c : Call} {gap downAt : ℚ}
    (hsorted : (calls ++ [c]).Pairwise (·.now ≤ ·.now)) (hdownAt : 0 ≤ downAt)
    (hdown : ∀ d ∈ calls ++ [c], downAt ≤ d.now → d.alive = false)
    (hpolled : Polled (calls ++ [c]) gap (downAt + checkInterval) c.now)
    (hlong : downAt + checkInterval + gap + unhealthyThreshold ≤ c.now) :
    ((Health.after calls).isBrokerHealthy c).1 = false ∧
      ∀ {Tag : Type} (hmac : String → Kwargs → Tag) (environ : Environ) (broker : Broker)
        (a : JobTaskArgs) (s : SigningKeyState),
        broker.healthy = ((Health.after calls).isBrokerHealthy c).1 → broker.debug = false →
          ∃ message, enqueueJobTask hmac environ c.now broker a s = .error message := by
  have hrefused : ((Health.after calls).isBrokerHealthy c).1 = false := by
    rw [isBrokerHealthy_exact]
    have hpos : (0 : ℚ) ≤ unhealthyThreshold := by norm_num [unhealthyThreshold]
    obtain ⟨k, hk, hfirst, hlast⟩ := hpolled _ le_rfl (by linarith)
    obtain ⟨q, hq, hafter, hbefore⟩ := exists_probe hsorted hk (by linarith)
    have hprobes := hsorted.sublist (probesFrom_sublist 0 (calls ++ [c]))
    have hfailed : ∀ d ∈ probes (calls ++ [c]), q.now ≤ d.now → d.alive = false := by
      intro d hd hle
      exact hdown d ((probesFrom_sublist 0 _).subset hd) (by linarith)
    -- the last probe comes after `q`, and has failed
    obtain ⟨earlier, d, hsplit⟩ := (List.eq_nil_or_concat' (probes (calls ++ [c]))).resolve_left
      (List.ne_nil_of_mem hq)
    have hlater : q.now ≤ d.now := by
      have hmem := hq
      rw [hsplit] at hmem
      rcases List.mem_append.mp hmem with hmem | hmem
      · have hpair : (earlier ++ [d]).Pairwise (·.now ≤ ·.now) := hsplit ▸ hprobes
        exact (List.pairwise_append.mp hpair).2.2 q hmem d (List.mem_singleton_self d)
      · rw [List.mem_singleton.mp hmem]
    have hd : d ∈ (probes (calls ++ [c])).getLast? := by
      rw [hsplit]
      exact List.getLast?_concat
    obtain ⟨t, ht⟩ := exists_downSince ⟨d, hd, hfailed d (List.mem_of_getLast? hd) hlater⟩
    refine ⟨t, ht, ?_⟩
    have hbegan := ht.le hprobes hq hfailed
    linarith
  refine ⟨hrefused, fun hmac environ broker a s hhealthy hdebug => ?_⟩
  rw [hrefused] at hhealthy
  unfold enqueueJobTask
  cases broker.overfull with
  | some q => exact ⟨_, rfl⟩
  | none =>
    simp only [hhealthy, hdebug]
    exact ⟨_, rfl⟩

/-- Calls half a minute and more apart, of which none finds the broker. -/
def downCalls : List Call := [⟨5, false⟩, ⟨35, false⟩, ⟨65, false⟩]

theorem downCalls_polled : Polled (downCalls ++ [⟨100, false⟩]) 35 (0 + checkInterval) 100 := by
  intro t hfirst hlast
  simp only [checkInterval] at hfirst
  by_cases hearly : t ≤ 35
  · exact ⟨⟨35, false⟩, by simp [downCalls], hearly, by dsimp only; linarith⟩
  · exact ⟨⟨65, false⟩, by simp [downCalls], by dsimp only; linarith, by dsimp only; linarith⟩

theorem refuses_of_down_hundred :
    ((Health.after downCalls).isBrokerHealthy ⟨100, false⟩).1 = false :=
  (refuses_of_down (by norm_num [downCalls]) le_rfl (by simp [downCalls]) downCalls_polled
    (by norm_num [checkInterval, unhealthyThreshold])).1

end WorkTicket.Tasks.BrokerHealth
