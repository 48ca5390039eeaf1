import Mathlib

/-! The values of a list by rank. A value is bounded from above or below by how many values of the
list are, so that what is known of the parts of a list is known of the whole. -/

namespace WorkTicket.OrderStatistics

variable {α : Type*}

section
variable {P : α → Bool} {l : List α} {k : ℕ} {y : α}

theorem countP_eq_zero_of_head {a : α} {l : List α}
    (h : (a :: l).Pairwise fun x y => P y = true → P x = true) (ha : P a = false) :
    l.countP P = 0 := by
  refine List.countP_eq_zero.mpr fun b hb hP => ?_
  have htrue := List.rel_of_pairwise_cons h hb hP
  exact absurd (htrue.symm.trans ha) (by decide)

/-- In a list that what has the property stands first, it stands below the count. -/
theorem satisfies_iff (h : l.Pairwise fun x y => P y = true → P x = true) (hy : l[k]? = some y) :
    P y = true ↔ k < l.countP P := by
  induction l generalizing k with
  | nil => cases hy
  | cons a l ih =>
    have htail := h.of_cons
    cases ha : P a with
    | false =>
      rw [List.countP_cons_of_neg (by simp [ha]), countP_eq_zero_of_head h ha]
      refine iff_of_false (fun hP => ?_) (Nat.not_lt_zero k)
      cases k with
      | zero =>
        cases hy
        exact absurd (hP.symm.trans ha) (by decide)
      | succ k =>
        have hmem : y ∈ l := List.mem_of_getElem? hy
        exact absurd ((List.rel_of_pairwise_cons h hmem hP).symm.trans ha) (by decide)
    | true =>
      rw [List.countP_cons_of_pos ha]
      cases k with
      | zero =>
        cases hy
        exact iff_of_true ha (Nat.succ_pos _)
      | succ k => exact (ih htail hy).trans Nat.succ_lt_succ_iff.symm

end

section
variable [LinearOrder α] (l : List α) (k : ℕ)

def sorted : List α := l.insertionSort (· ≤ ·)

/-- The value of rank `k`, the smallest one having rank zero. -/
def ranked : Option α := (sorted l)[k]?

end

section
variable [LinearOrder α] {l : List α} {k k' : ℕ} {x y y' : α}

theorem sorted_pairwise : (sorted l).Pairwise (· ≤ ·) := List.pairwise_insertionSort (· ≤ ·) l

theorem sorted_perm : (sorted l).Perm l := List.perm_insertionSort (· ≤ ·) l

@[simp] theorem length_sorted : (sorted l).length = l.length := sorted_perm.length_eq

theorem exists_ranked (h : k < l.length) : ∃ y, ranked l k = some y :=
  ⟨_, List.getElem?_eq_getElem (by rwa [length_sorted])⟩

theorem mem_of_ranked (h : ranked l k = some y) : y ∈ l :=
  sorted_perm.mem_iff.mp (List.mem_of_getElem? h)

theorem ranked_le_iff (h : ranked l k = some y) : y ≤ x ↔ k < l.countP (· ≤ x) := by
  have hfirst : (sorted l).Pairwise fun a b => decide (b ≤ x) = true → decide (a ≤ x) = true :=
    sorted_pairwise.imp fun hab hb => decide_eq_true (hab.trans (of_decide_eq_true hb))
  rw [← sorted_perm.countP_eq, ← satisfies_iff hfirst h, decide_eq_true_eq]

theorem ranked_lt_iff (h : ranked l k = some y) : y < x ↔ k < l.countP (· < x) := by
  have hfirst : (sorted l).Pairwise fun a b => decide (b < x) = true → decide (a < x) = true :=
    sorted_pairwise.imp fun hab hb => decide_eq_true (hab.trans_lt (of_decide_eq_true hb))
  rw [← sorted_perm.countP_eq, ← satisfies_iff hfirst h, decide_eq_true_eq]

theorem le_ranked_iff (h : ranked l k = some y) : x ≤ y ↔ l.countP (· < x) ≤ k := by
  rw [← not_lt, ranked_lt_iff h, not_lt]

theorem ranked_le_ranked (h : ranked l k = some y) (h' : ranked l k' = some y') (hk : k ≤ k') :
    y ≤ y' :=
  (ranked_le_iff h).mpr (hk.trans_lt ((ranked_le_iff h').mp le_rfl))

/-! ## The parts and the whole -/

variable {ls : List (List α)} {rank : ℕ → ℕ}

/-- The whole has a rank that is not above the places of the parts. -/
theorem exists_le_ranked (hrank : ∀ a b, rank (a + b) ≤ rank a + rank b + 1)
    (hlt : ∀ l ∈ ls, rank l.length < l.length) (hne : ls ≠ [])
    (h : ranked ls.flatten (rank ls.flatten.length) = some y) :
    ∃ l ∈ ls, ∃ z, ranked l (rank l.length) = some z ∧ y ≤ z := by
  by_contra hnone
  push Not at hnone
  -- then every part has few values below `y`
  have hpart : ∀ l ∈ ls, rank l.length + 1 ≤ l.countP (· < y) := by
    intro l hl
    obtain ⟨z, hz⟩ := exists_ranked (hlt l hl)
    exact (ranked_lt_iff hz).mp (hnone l hl z hz)
  have hwhole : ∀ ls : List (List α), ls ≠ [] → (∀ l ∈ ls, rank l.length + 1 ≤ l.countP (· < y)) →
      rank ls.flatten.length + 1 ≤ ls.flatten.countP (· < y) := by
    intro ls hne hpart
    induction ls with
    | nil => exact absurd rfl hne
    | cons l ls ih =>
      rw [List.flatten_cons, List.length_append, List.countP_append]
      have hl := hpart l List.mem_cons_self
      rcases eq_or_ne ls [] with rfl | hls
      · simpa using hl
      · have htail := ih hls fun l' hl' => hpart l' (List.mem_cons_of_mem l hl')
        have hsum := hrank l.length ls.flatten.length
        omega
  exact absurd ((ranked_lt_iff h).mpr (hwhole ls hne hpart)) (lt_irrefl y)

/-- The whole has a rank that is not below the places of the parts. -/
theorem exists_ranked_le (hrank : ∀ a b, rank a + rank b ≤ rank (a + b)) (hzero : rank 0 = 0)
    (hlt : ∀ l ∈ ls, rank l.length < l.length)
    (h : ranked ls.flatten (rank ls.flatten.length) = some y) :
    ∃ l ∈ ls, ∃ z, ranked l (rank l.length) = some z ∧ z ≤ y := by
  by_contra hnone
  push Not at hnone
  have hpart : ∀ l ∈ ls, l.countP (· ≤ y) ≤ rank l.length := by
    intro l hl
    obtain ⟨z, hz⟩ := exists_ranked (hlt l hl)
    by_contra hmany
    exact absurd ((ranked_le_iff hz).mpr (not_le.mp hmany)) (not_le.mpr (hnone l hl z hz))
  have hwhole : ∀ ls : List (List α), (∀ l ∈ ls, l.countP (· ≤ y) ≤ rank l.length) →
      ls.flatten.countP (· ≤ y) ≤ rank ls.flatten.length := by
    intro ls hpart
    induction ls with
    | nil => simp [hzero]
    | cons l ls ih =>
      rw [List.flatten_cons, List.length_append, List.countP_append]
      have hl := hpart l List.mem_cons_self
      have htail := ih fun l' hl' => hpart l' (List.mem_cons_of_mem l hl')
      have hsum := hrank l.length ls.flatten.length
      omega
  exact absurd ((ranked_le_iff h).mp le_rfl) (not_lt.mpr (hwhole ls hpart))

end

end WorkTicket.OrderStatistics
