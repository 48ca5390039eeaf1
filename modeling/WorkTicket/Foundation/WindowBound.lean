import Mathlib.Algebra.Order.Field.Basic
import Mathlib.Algebra.Order.BigOperators.Group.List
import Mathlib.Data.List.Count
import Mathlib.Tactic.Linarith
import Mathlib.Tactic.Ring

/-! Admissions against a level that fills at a rate up to a burst: what was admitted since any
moment, together with the level left, is within the burst and what has come in since. -/

namespace WorkTicket.WindowBound

variable {K : Type*} [Field K] [LinearOrder K] [IsStrictOrderedRing K]

/-! ## Admissions with a cost -/

/-- What the logged admissions cost whose times `p` picks. -/
def cost (p : K → Bool) (log : List (K × K)) : K := ((log.filter fun a => p a.1).map Prod.snd).sum

/-- In every interval of length `T` the logged admissions cost at most `burst + rate * T`. -/
def CostBounded (rate burst : K) (log : List (K × K)) : Prop :=
  ∀ t T, 0 ≤ T → cost (fun a => t ≤ a ∧ a ≤ t + T) log ≤ burst + rate * T

/-- The log of the admissions up to `clock`, at which `level` is left. -/
structure Charged (rate burst : K) (log : List (K × K)) (clock level : K) : Prop where
  past : ∀ a ∈ log, a.1 ≤ clock
  nonneg : ∀ a ∈ log, 0 ≤ a.2
  spent : ∀ t ≤ clock, cost (fun a => t ≤ a) log + level ≤ burst + rate * (clock - t)
  bounded : CostBounded rate burst log

section
variable {rate burst clock now level later c : K} {log : List (K × K)} {p q : K → Bool}

omit [LinearOrder K] [IsStrictOrderedRing K] in
theorem cost_cons_pos {a : K × K} (h : p a.1 = true) : cost p (a :: log) = a.2 + cost p log := by
  rw [cost, List.filter_cons_of_pos (by simpa using h), List.map_cons, List.sum_cons, cost]

omit [LinearOrder K] [IsStrictOrderedRing K] in
theorem cost_cons_neg {a : K × K} (h : p a.1 = false) : cost p (a :: log) = cost p log := by
  rw [cost, List.filter_cons_of_neg (by simpa using h), cost]

theorem cost_mono (hnonneg : ∀ a ∈ log, 0 ≤ a.2) (h : ∀ t, p t = true → q t = true) :
    cost p log ≤ cost q log := by
  have hsub : (log.filter fun a => p a.1).Sublist (log.filter fun a => q a.1) :=
    List.monotone_filter_right log fun a => h a.1
  apply (hsub.map Prod.snd).sum_le_sum
  intro x hx
  obtain ⟨a, ha, rfl⟩ := List.mem_map.mp hx
  exact hnonneg a (List.mem_of_mem_filter ha)

theorem Charged.start (hrate : 0 ≤ rate) (hburst : 0 ≤ burst) (hlevel : level ≤ burst) :
    Charged rate burst [] clock level := by
  have hnone : ∀ p : K → Bool, cost p [] = 0 := fun _ => rfl
  constructor
  · intro a ha
    cases ha
  · intro a ha
    cases ha
  · intro t ht
    have hgrowth : 0 ≤ rate * (clock - t) := mul_nonneg hrate (sub_nonneg.mpr ht)
    rw [hnone]
    linarith
  · intro t T hT
    have hgrowth : 0 ≤ rate * T := mul_nonneg hrate hT
    rw [hnone]
    linarith

/-- Time passes, and the level rises by no more than what comes in, and not above the burst. -/
theorem Charged.wait (h : Charged rate burst log clock level) (hrate : 0 ≤ rate)
    (hclock : clock ≤ now) (hburst : later ≤ burst)
    (hlevel : later ≤ level + rate * (now - clock)) : Charged rate burst log now later := by
  constructor
  · intro a ha
    exact (h.past a ha).trans hclock
  · exact h.nonneg
  · intro t ht
    rcases le_or_gt t clock with hbefore | hafter
    · have hspent := h.spent t hbefore
      have hsplit : rate * (now - t) = rate * (now - clock) + rate * (clock - t) := by ring
      linarith
    · -- nothing was admitted since `t`
      have hnone : (log.filter fun a => t ≤ a.1) = [] := by
        rw [List.filter_eq_nil_iff]
        intro a ha
        have hpast := h.past a ha
        simpa using hpast.trans_lt hafter
      have hzero : cost (fun a => t ≤ a) log = 0 := by rw [cost, hnone, List.map_nil, List.sum_nil]
      have hgrowth : 0 ≤ rate * (now - t) := mul_nonneg hrate (sub_nonneg.mpr ht)
      rw [hzero]
      linarith
  · exact h.bounded

theorem Charged.admitted (h : Charged rate burst log clock level) (hrate : 0 ≤ rate) (hcost : 0 ≤ c)
    (hlevel : c ≤ level) : Charged rate burst ((clock, c) :: log) clock (level - c) := by
  constructor
  · intro a ha
    rcases List.mem_cons.mp ha with rfl | ha
    · exact le_rfl
    · exact h.past a ha
  · intro a ha
    rcases List.mem_cons.mp ha with rfl | ha
    · exact hcost
    · exact h.nonneg a ha
  · intro t ht
    have hspent := h.spent t ht
    rw [cost_cons_pos (by simpa using ht)]
    linarith
  · intro t T hT
    by_cases hwithin : t ≤ clock ∧ clock ≤ t + T
    · have hspent := h.spent t hwithin.1
      have hsub : cost (fun a => t ≤ a ∧ a ≤ t + T) log ≤ cost (fun a => t ≤ a) log := by
        apply cost_mono h.nonneg
        intro a ha
        simp only [decide_eq_true_eq] at ha ⊢
        exact ha.1
      have hgrowth : rate * (clock - t) ≤ rate * T :=
        mul_le_mul_of_nonneg_left (by linarith [hwithin.2]) hrate
      rw [cost_cons_pos (by simpa using hwithin)]
      linarith
    · rw [cost_cons_neg (by simpa using hwithin)]
      exact h.bounded t T hT

end

/-! ## Admissions that are counted -/

/-- In every interval of length `T` at most `burst + rate * T` of the logged times lie. -/
def Bounded (rate burst : K) (log : List K) : Prop :=
  ∀ t T, 0 ≤ T → (log.countP fun a => t ≤ a ∧ a ≤ t + T : K) ≤ burst + rate * T

/-- The log of the admissions up to `clock`, at which `level` is left. -/
structure Metered (rate burst : K) (log : List K) (clock level : K) : Prop where
  past : ∀ a ∈ log, a ≤ clock
  spent : ∀ t ≤ clock, (log.countP fun a => t ≤ a : K) + level ≤ burst + rate * (clock - t)
  bounded : Bounded rate burst log

variable {rate burst clock now level later : K} {log : List K}

omit [LinearOrder K] [IsStrictOrderedRing K] in
theorem cost_ones (p : K → Bool) (log : List K) :
    cost p (log.map fun a => (a, 1)) = (log.countP p : K) := by
  induction log with
  | nil => exact Nat.cast_zero.symm
  | cons a log ih =>
    cases ha : p a with
    | true =>
      rw [List.map_cons, cost_cons_pos ha, ih, List.countP_cons_of_pos ha, Nat.cast_add,
        Nat.cast_one, add_comm]
    | false => rw [List.map_cons, cost_cons_neg ha, ih, List.countP_cons_of_neg (by simp [ha])]

/-- Counted admissions are those of cost 1. -/
theorem metered_iff_charged : Metered rate burst log clock level ↔
    Charged rate burst (log.map fun a => (a, 1)) clock level := by
  constructor
  · intro h
    refine ⟨?_, ?_, ?_, ?_⟩
    · intro a ha
      obtain ⟨b, hb, rfl⟩ := List.mem_map.mp ha
      exact h.past b hb
    · intro a ha
      obtain ⟨b, -, rfl⟩ := List.mem_map.mp ha
      exact zero_le_one
    · intro t ht
      rw [cost_ones]
      exact h.spent t ht
    · intro t T hT
      rw [cost_ones]
      exact h.bounded t T hT
  · intro h
    refine ⟨?_, ?_, ?_⟩
    · intro a ha
      exact h.past _ (List.mem_map_of_mem ha)
    · intro t ht
      rw [← cost_ones]
      exact h.spent t ht
    · intro t T hT
      rw [← cost_ones]
      exact h.bounded t T hT

theorem Metered.start (hrate : 0 ≤ rate) (hburst : 0 ≤ burst) (hlevel : level ≤ burst) :
    Metered rate burst [] clock level :=
  metered_iff_charged.mpr (.start hrate hburst hlevel)

theorem Metered.wait (h : Metered rate burst log clock level) (hrate : 0 ≤ rate)
    (hclock : clock ≤ now) (hburst : later ≤ burst)
    (hlevel : later ≤ level + rate * (now - clock)) : Metered rate burst log now later :=
  metered_iff_charged.mpr ((metered_iff_charged.mp h).wait hrate hclock hburst hlevel)

theorem Metered.admitted (h : Metered rate burst log clock level) (hrate : 0 ≤ rate)
    (hlevel : 1 ≤ level) : Metered rate burst (clock :: log) clock (level - 1) :=
  metered_iff_charged.mpr ((metered_iff_charged.mp h).admitted hrate zero_le_one hlevel)

end WorkTicket.WindowBound
