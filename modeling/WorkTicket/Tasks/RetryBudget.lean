import WorkTicket.Foundation.AnsweredRuns
import WorkTicket.Foundation.WindowBound

/-! The budget of retries that the tasks of a process share: a bucket of scaled tokens, which every
call refills by whole tokens. What a refill cuts off is lost, so a call can only take from the
calls after it. -/

namespace WorkTicket.Tasks.RetryBudget

open WorkTicket.AnsweredRuns WorkTicket.WindowBound

/-! ## The code -/

/-- `GLOBAL_RETRY_BUDGET` and `GLOBAL_RETRY_WINDOW`. -/
structure Settings where
  budget : ℕ
  window : ℕ
  window_pos : 0 < window

def tokenScale : ℕ := 10000

def Settings.capacity (c : Settings) : ℕ := c.budget * tokenScale

/-- Scaled tokens a second. -/
def Settings.rate (c : Settings) : ℚ := c.capacity / c.window

/-- `_retry_tokens` and `_last_refill`. -/
structure Bucket where
  tokens : ℕ
  lastRefill : ℚ
  deriving DecidableEq, Repr

def start (c : Settings) (now : ℚ) : Bucket := ⟨c.capacity, now⟩

/-- Scaled tokens for an elapsed time, cut to a whole number. -/
def refilled (c : Settings) (elapsed : ℚ) : ℕ := ⌊elapsed * c.capacity / c.window⌋₊

def refill (c : Settings) (now : ℚ) (b : Bucket) : Bucket :=
  if now - b.lastRefill ≤ 0 then b
  else ⟨min c.capacity (b.tokens + refilled c (now - b.lastRefill)), now⟩

def costScaled (cost : ℚ≥0) : ℕ := ⌊cost * tokenScale⌋₊

inductive Call
  | consumeRetryBudget (now : ℚ) (cost : ℚ≥0)
  | getBudgetStatus (now : ℚ)
  deriving DecidableEq

def Call.now : Call → ℚ
  | .consumeRetryBudget now _ => now
  | .getBudgetStatus now => now

inductive Answer
  | consumed (allowed : Bool)
  | status (tokensRemaining : ℚ) (capacity windowSeconds : ℕ)
  deriving DecidableEq, Repr

def step (c : Settings) : Call → Bucket → Answer × Bucket
  | .consumeRetryBudget now cost, b =>
    let b := refill c now b
    if costScaled cost ≤ b.tokens then
      (.consumed true, { b with tokens := b.tokens - costScaled cost })
    else (.consumed false, b)
  | .getBudgetStatus now, b =>
    let b := refill c now b
    (.status (b.tokens / tokenScale) c.budget c.window, b)

/-! ## What is claimed -/

/-- A call that was admitted. -/
def admitted (a : Call × Answer) : Bool := a.2 = .consumed true

def Call.scaledCost : Call → ℕ
  | .consumeRetryBudget _ cost => costScaled cost
  | .getBudgetStatus _ => 0

/-- The scaled cost that is admitted from `t` to `t + T`. -/
def admittedCost (t T : ℚ) (run : List (Call × Answer)) : ℕ :=
  ((run.filter fun a => admitted a && decide (t ≤ a.1.now ∧ a.1.now ≤ t + T)).map
    fun a => a.1.scaledCost).sum

/-- At most what the budget and its rate allow is admitted in any interval; and the calls that are
admitted are answered as if the others had not been made. -/
structure Sound (c : Settings) (now : ℚ) (calls : List Call) : Prop where
  bounded : ∀ t T, 0 ≤ T → (admittedCost t T (answers (step c) (start c now) calls) : ℚ) ≤
    10000 * (c.budget + c.budget * T / c.window)
  unaffected : answers (step c) (start c now)
      (((answers (step c) (start c now) calls).filter admitted).map Prod.fst) =
    (answers (step c) (start c now) calls).filter admitted

section
variable {c : Settings} {s t : Bucket} {now later : ℚ} {calls : List Call}

theorem refill_tokens_le (h : s.tokens ≤ c.capacity) : (refill c now s).tokens ≤ c.capacity := by
  unfold refill
  split
  · exact h
  · exact min_le_left _ _

theorem lastRefill_refill (h : s.lastRefill ≤ now) : (refill c now s).lastRefill = now := by
  unfold refill
  split
  · rename_i hnone
    linarith
  · rfl

/-- A bucket that was refilled at its time, or before, has what time has brought it since. -/
theorem refill_tokens (hcap : s.tokens ≤ c.capacity) (h : s.lastRefill ≤ now) :
    (refill c now s).tokens = min c.capacity (s.tokens + refilled c (now - s.lastRefill)) := by
  unfold refill
  split
  · rename_i hnone
    have hzero : now - s.lastRefill = 0 := le_antisymm hnone (sub_nonneg.mpr h)
    rw [hzero, refilled, zero_mul, zero_div, Nat.floor_zero, add_zero, min_eq_right hcap]
  · rfl

theorem refilled_add_le (c : Settings) {e e' : ℚ} (h : 0 ≤ e) (h' : 0 ≤ e') :
    refilled c e + refilled c e' ≤ refilled c (e + e') := by
  have hpart : ∀ {e : ℚ}, 0 ≤ e → 0 ≤ e * c.capacity / c.window := by
    intro e he
    positivity
  apply Nat.le_floor
  rw [Nat.cast_add, add_mul, add_div]
  exact add_le_add (Nat.floor_le (hpart h)) (Nat.floor_le (hpart h'))

theorem refilled_le (c : Settings) {e : ℚ} (h : 0 ≤ e) :
    (refilled c e : ℚ) ≤ c.rate * e := by
  have hfloor : (refilled c e : ℚ) ≤ e * c.capacity / c.window := Nat.floor_le (by positivity)
  calc (refilled c e : ℚ) ≤ e * c.capacity / c.window := hfloor
    _ = c.rate * e := by rw [Settings.rate]; ring

theorem lastRefill_step (i : Call) (h : s.lastRefill ≤ i.now) :
    (step c i s).2.lastRefill = i.now := by
  cases i with
  | consumeRetryBudget now cost =>
    simp only [step]
    split <;> exact lastRefill_refill h
  | getBudgetStatus now => exact lastRefill_refill h

theorem step_tokens_le (h : s.tokens ≤ c.capacity) (i : Call) :
    (step c i s).2.tokens ≤ c.capacity := by
  cases i with
  | consumeRetryBudget now cost =>
    simp only [step]
    split
    · exact (Nat.sub_le _ _).trans (refill_tokens_le h)
    · exact refill_tokens_le h
  | getBudgetStatus now => exact refill_tokens_le h

theorem rate_nonneg (c : Settings) : 0 ≤ c.rate := by
  unfold Settings.rate
  positivity

/-- Calls at non-decreasing times come no earlier than the last refill. -/
theorem eachCall_of_isChain (h : List.IsChain (· ≤ ·) (s.lastRefill :: calls.map Call.now)) :
    EachCall (step c) (fun s i => s.lastRefill ≤ i.now) s calls := by
  induction calls generalizing s with
  | nil => trivial
  | cons i calls ih =>
    rw [List.map_cons, List.isChain_cons_cons] at h
    refine ⟨h.1, ih ?_⟩
    rw [lastRefill_step i h.1]
    exact h.2

/-! ## The bound -/

/-- The entry of a call in the log of what is admitted. -/
def entry (a : Call × Answer) : List (ℚ × ℚ) :=
  if admitted a then [(a.1.now, a.1.scaledCost)] else []

theorem charged_step {log : List (ℚ × ℚ)} (i : Call)
    (h : Charged c.rate c.capacity log s.lastRefill (s.tokens : ℚ))
    (hcap : s.tokens ≤ c.capacity) (hnow : s.lastRefill ≤ i.now) :
    Charged c.rate c.capacity (entry (i, (step c i s).1) ++ log)
      (step c i s).2.lastRefill ((step c i s).2.tokens : ℚ) := by
  have hrate := rate_nonneg c
  have hwait : Charged c.rate c.capacity log (refill c i.now s).lastRefill
      ((refill c i.now s).tokens : ℚ) := by
    rw [lastRefill_refill hnow]
    refine h.wait hrate hnow (by exact_mod_cast refill_tokens_le hcap) ?_
    rw [refill_tokens hcap hnow]
    have hmin : min c.capacity (s.tokens + refilled c (i.now - s.lastRefill)) ≤
        s.tokens + refilled c (i.now - s.lastRefill) := min_le_right _ _
    have hcast : ((min c.capacity (s.tokens + refilled c (i.now - s.lastRefill)) : ℕ) : ℚ) ≤
        s.tokens + refilled c (i.now - s.lastRefill) := by exact_mod_cast hmin
    have hbrought := refilled_le c (sub_nonneg.mpr hnow)
    linarith
  cases i with
  | getBudgetStatus now => exact hwait
  | consumeRetryBudget now cost =>
    simp only [step]
    split
    · rename_i hlevel
      have hadmit := hwait.admitted hrate (Nat.cast_nonneg (costScaled cost))
        (by exact_mod_cast hlevel)
      have hlast : (refill c now s).lastRefill = now := lastRefill_refill hnow
      rw [Nat.cast_sub hlevel]
      simp only [Call.now, hlast] at hadmit ⊢
      exact hadmit
    · exact hwait

theorem costBounded_answers {log : List (ℚ × ℚ)}
    (h : Charged c.rate c.capacity log s.lastRefill (s.tokens : ℚ))
    (hcap : s.tokens ≤ c.capacity)
    (hok : EachCall (step c) (fun s i => s.lastRefill ≤ i.now) s calls) :
    CostBounded c.rate c.capacity
      (((answers (step c) s calls).flatMap entry).reverse ++ log) := by
  induction calls generalizing s log with
  | nil => exact h.bounded
  | cons i calls ih =>
    have hstep := ih (charged_step i h hcap hok.1) (step_tokens_le hcap i) hok.2
    have hreverse : (entry (i, (step c i s).1)).reverse = entry (i, (step c i s).1) := by
      unfold entry
      split <;> rfl
    rw [answers, List.flatMap_cons, List.reverse_append, hreverse, List.append_assoc]
    exact hstep

theorem cost_log (p : ℚ → Bool) (run : List (Call × Answer)) :
    cost p (run.flatMap entry).reverse =
      (((run.filter fun a => admitted a && p a.1.now).map fun a => a.1.scaledCost).sum : ℕ) := by
  rw [cost, List.filter_reverse, List.map_reverse, List.sum_reverse]
  induction run with
  | nil => rfl
  | cons a run ih =>
    rw [List.flatMap_cons, List.filter_append, List.map_append, List.sum_append, ih]
    cases hadmitted : admitted a <;> cases hp : p a.1.now <;> simp [entry, hadmitted, hp]

theorem bounded_answers (now : ℚ)
    (hok : EachCall (step c) (fun s i => s.lastRefill ≤ i.now) (start c now) calls) {t T : ℚ}
    (hT : 0 ≤ T) : (admittedCost t T (answers (step c) (start c now) calls) : ℚ) ≤
      10000 * (c.budget + c.budget * T / c.window) := by
  have hstart : Charged c.rate c.capacity [] now (c.capacity : ℚ) :=
    .start (rate_nonneg c) (Nat.cast_nonneg _) le_rfl
  have hbounded := costBounded_answers (s := start c now) hstart le_rfl hok t T hT
  rw [List.append_nil, cost_log] at hbounded
  calc (admittedCost t T (answers (step c) (start c now) calls) : ℚ)
      ≤ c.capacity + c.rate * T := hbounded
    _ = 10000 * (c.budget + c.budget * T / c.window) := by
      rw [Settings.rate, Settings.capacity, tokenScale]
      push_cast
      ring

/-! ## The calls that are left out -/

/-- `t` has at least the tokens of `s` once it is refilled at the time of `s`. -/
structure Ahead (c : Settings) (s t : Bucket) : Prop where
  capped : t.tokens ≤ c.capacity
  earlier : t.lastRefill ≤ s.lastRefill
  tokens : s.tokens ≤ (refill c s.lastRefill t).tokens

/-- The bucket that was refilled less often has lost no more. -/
theorem Ahead.refill_le (h : Ahead c s t) (hnow : s.lastRefill ≤ now) :
    (refill c now s).tokens ≤ (refill c now t).tokens := by
  have htokens := h.tokens
  have hcap := htokens.trans (refill_tokens_le h.capped)
  rw [refill_tokens h.capped h.earlier] at htokens
  rw [refill_tokens hcap hnow, refill_tokens h.capped (h.earlier.trans hnow)]
  have hsplit := refilled_add_le c (sub_nonneg.mpr h.earlier) (sub_nonneg.mpr hnow)
  have helapsed : s.lastRefill - t.lastRefill + (now - s.lastRefill) = now - t.lastRefill := by ring
  rw [helapsed] at hsplit
  have hsum := htokens.trans (min_le_right _ _)
  exact min_le_min_left _ (by omega)

theorem Ahead.refill (h : Ahead c s t) (hnow : s.lastRefill ≤ now) :
    Ahead c (RetryBudget.refill c now s) t := by
  refine ⟨h.capped, ?_, ?_⟩
  · rw [lastRefill_refill hnow]
    exact h.earlier.trans hnow
  · rw [lastRefill_refill hnow]
    exact h.refill_le hnow

theorem refill_self (s : Bucket) : refill c s.lastRefill s = s := by
  rw [refill, if_pos (by rw [sub_self])]

theorem ahead_kept {i : Call} (h : Ahead c s t) (hnow : s.lastRefill ≤ i.now)
    (hkept : admitted (i, (step c i s).1) = true) :
    (step c i t).1 = (step c i s).1 ∧ Ahead c (step c i s).2 (step c i t).2 := by
  cases i with
  | getBudgetStatus now => simp [admitted, step] at hkept
  | consumeRetryBudget now cost =>
    have hlevel : costScaled cost ≤ (refill c now s).tokens := by
      by_contra hlow
      simp [admitted, step, hlow] at hkept
    have hle : (refill c now s).tokens ≤ (refill c now t).tokens := h.refill_le hnow
    have hlevel' := hlevel.trans hle
    have hs : step c (.consumeRetryBudget now cost) s = (.consumed true,
        ⟨(refill c now s).tokens - costScaled cost, now⟩) := by
      have hlast : (refill c now s).lastRefill = now := lastRefill_refill hnow
      simp only [step, if_pos hlevel, hlast]
    have ht : step c (.consumeRetryBudget now cost) t = (.consumed true,
        ⟨(refill c now t).tokens - costScaled cost, now⟩) := by
      have hlast : (refill c now t).lastRefill = now := lastRefill_refill (h.earlier.trans hnow)
      simp only [step, if_pos hlevel', hlast]
    rw [hs, ht]
    refine ⟨rfl, (Nat.sub_le _ _).trans (refill_tokens_le h.capped), le_rfl, ?_⟩
    rw [refill_self ⟨(refill c now t).tokens - costScaled cost, now⟩]
    exact Nat.sub_le_sub_right hle _

theorem ahead_left {i : Call} (h : Ahead c s t) (hnow : s.lastRefill ≤ i.now)
    (hleft : admitted (i, (step c i s).1) = false) : Ahead c (step c i s).2 t := by
  cases i with
  | getBudgetStatus now => exact h.refill hnow
  | consumeRetryBudget now cost =>
    have hlow : ¬costScaled cost ≤ (refill c now s).tokens := by
      intro hlevel
      simp [admitted, step, hlevel] at hleft
    simp only [step, if_neg hlow]
    exact h.refill hnow

/-! ## What is lost -/

theorem refill_of_frequent (hsoon : (now - s.lastRefill) * c.rate < 1) :
    (refill c now s).tokens ≤ s.tokens := by
  unfold refill
  split
  · exact le_rfl
  · have hnone : refilled c (now - s.lastRefill) = 0 := by
      rw [refilled, Nat.floor_eq_zero, mul_div_assoc]
      exact hsoon
    rw [hnone, add_zero]
    exact min_le_right _ _

/-- Calls that follow each other faster than tokens come in, of whatever kind, bring none. -/
theorem tokens_le_of_frequent
    (h : EachCall (step c) (fun s i => (i.now - s.lastRefill) * c.rate < 1) s calls) :
    (after (step c) s calls).tokens ≤ s.tokens := by
  induction calls generalizing s with
  | nil => exact le_rfl
  | cons i calls ih =>
    have hstep : (step c i s).2.tokens ≤ s.tokens := by
      cases i with
      | getBudgetStatus now => exact refill_of_frequent h.1
      | consumeRetryBudget now cost =>
        simp only [step]
        split
        · exact (Nat.sub_le _ _).trans (refill_of_frequent h.1)
        · exact refill_of_frequent h.1
    exact (ih h.2).trans hstep

end

/-- For every sequence of calls at non-decreasing times. -/
theorem sound_of_isChain (c : Settings) {now : ℚ} {calls : List Call}
    (h : List.IsChain (· ≤ ·) (now :: calls.map Call.now)) : Sound c now calls := by
  have hok : EachCall (step c) (fun s i => s.lastRefill ≤ i.now) (start c now) calls :=
    eachCall_of_isChain h
  refine ⟨fun t T hT => bounded_answers now hok hT, ?_⟩
  have hahead : Ahead c (start c now) (start c now) := by
    refine ⟨le_rfl, le_rfl, ?_⟩
    rw [refill_self]
  refine answers_kept (R := Ahead c) ?_ ?_ hahead hok
  · exact fun _ _ _ hR hnow hkept => ahead_kept hR hnow hkept
  · exact fun _ _ _ hR hnow hleft => ahead_left hR hnow hleft

/-- The budget of the defaults, taken in one go, asked for in vain and looked at. -/
theorem sound_default : Sound ⟨100, 60, by decide⟩ 0
    [.consumeRetryBudget 0 100, .consumeRetryBudget 1 2, .getBudgetStatus 2,
      .consumeRetryBudget 3 2] :=
  sound_of_isChain _ (by decide)

end WorkTicket.Tasks.RetryBudget
