import Mathlib

/-! Reading a list in pages by offset while the reader takes items out of the
list. The items taken out shift the rest forward, so the next offset passes over
as many items as were taken out. -/

namespace WorkTicket.OffsetPaging

variable {α : Type*} (p : ℕ) (keep : α → Bool)

/-- The list after the page at `offset` was read and the items of the page that
`keep` rejects were taken out. -/
def afterPage (offset : ℕ) (l : List α) : List α :=
  l.take offset ++ (((l.drop offset).take p).filter keep ++ l.drop (offset + p))

/-- What is left in front of the reader after a page: the rest of the list less one
item for every item taken out. -/
def nextPage (r : List α) : List α := r.drop (p + (p - (r.take p).countP keep))

def pages : ℕ → List α → List α
  | 0, _ => []
  | n + 1, r => r.take p ++ pages n (nextPage p keep r)

attribute [grind =] pages

theorem drop_afterPage {offset : ℕ} {l : List α} (h : offset ≤ l.length) :
    (afterPage p keep offset l).drop (offset + p) = nextPage p keep (l.drop offset) := by
  have hkept : (((l.drop offset).take p).filter keep).length ≤ p :=
    (List.length_filter_le _ _).trans (List.length_take_le _ _)
  have hpre : (l.take offset).length = offset := List.length_take_of_le h
  simp only [afterPage, nextPage, List.countP_eq_length_filter]
  rw [← List.drop_drop, List.drop_append_of_le_length hpre.ge, List.drop_eq_nil_of_le hpre.le,
    List.nil_append, List.drop_append, List.drop_eq_nil_of_le hkept, List.nil_append,
    List.drop_drop, List.drop_drop]
  congr 1
  omega

theorem mem_afterPage_or (offset : ℕ) {l : List α} {a : α} (h : a ∈ l) :
    a ∈ (l.drop offset).take p ∨ a ∈ afterPage p keep offset l := by
  have hsplit : l = l.take offset ++ ((l.drop offset).take p ++ l.drop (offset + p)) := by
    rw [← List.drop_drop, List.take_append_drop, List.take_append_drop]
  rw [hsplit] at h
  rcases List.mem_append.mp h with h | h
  · exact .inr (List.mem_append.mpr (.inl h))
  · rcases List.mem_append.mp h with h | h
    · exact .inl h
    · exact .inr (List.mem_append.mpr (.inr (List.mem_append.mpr (.inr h))))

theorem pages_nil (n : ℕ) : pages p keep n ([] : List α) = [] := by
  induction n with
  | zero => rfl
  | succ n ih => simpa [pages, nextPage] using ih

theorem pages_subset (n : ℕ) (r : List α) : pages p keep n r ⊆ r := by
  induction n generalizing r with
  | zero => simp [pages]
  | succ n ih =>
    intro a ha
    rcases List.mem_append.mp ha with ha | ha
    · exact List.mem_of_mem_take ha
    · exact List.mem_of_mem_drop (ih _ ha)

theorem pages_sublist (n : ℕ) (r : List α) : (pages p keep n r).Sublist r := by
  induction n generalizing r with
  | zero => exact List.nil_sublist r
  | succ n ih =>
    have hrest : (pages p keep n (nextPage p keep r)).Sublist (r.drop p) := by
      refine (ih _).trans ?_
      rw [nextPage, ← List.drop_drop]
      exact List.drop_sublist _ _
    simpa only [pages, List.take_append_drop] using (List.Sublist.refl (r.take p)).append hrest

/-- When every item of a page is taken out, the reader sees every other page: the
item at position `i` is shown exactly when `i / p` is even. -/
theorem getElem_mem_pages {n : ℕ} {r : List α} (hp : 0 < p) (hnd : r.Nodup)
    (hn : r.length ≤ n) (i : ℕ) (hi : i < r.length) :
    r[i] ∈ pages p (fun _ => false) n r ↔ i / p % 2 = 0 := by
  induction n generalizing r i with
  | zero => omega
  | succ n ih =>
    have hnext : nextPage p (fun _ => false) r = r.drop (p + p) := by simp [nextPage]
    have hdisj := List.disjoint_take_drop hnd (le_refl (p + p))
    rw [pages, List.mem_append, hnext]
    by_cases hfirst : i < p + p
    · -- within the first two pages only the first `p` items are shown
      have hin : r[i] ∈ r.take (p + p) := List.mem_take_iff_getElem.mpr ⟨i, by omega, rfl⟩
      have hout : r[i] ∉ pages p (fun _ => false) n (r.drop (p + p)) := fun h =>
        hdisj hin (pages_subset p _ n _ h)
      have htake : r[i] ∈ r.take p ↔ i < p := by
        rw [List.mem_take_iff_getElem]
        constructor
        · rintro ⟨j, hj, he⟩
          have := (List.Nodup.getElem_inj_iff hnd).mp he
          omega
        · exact fun h => ⟨i, by omega, rfl⟩
      simp only [hout, or_false, htake]
      by_cases h : i < p
      · simp [h, Nat.div_eq_of_lt h]
      · have : i / p = 1 := Nat.div_eq_of_lt_le (by omega) (by omega)
        simp [h, this]
    · obtain ⟨j, rfl⟩ : ∃ j, i = p + p + j := ⟨i - (p + p), by omega⟩
      have hnot : r[p + p + j] ∉ r.take p := by
        rw [List.mem_take_iff_getElem]
        rintro ⟨k, hk, he⟩
        have := (List.Nodup.getElem_inj_iff hnd).mp he
        omega
      have hj : j < (r.drop (p + p)).length := by simp; omega
      have hget : r[p + p + j] = (r.drop (p + p))[j] := by simp
      have hdiv : (p + p + j) / p = j / p + 2 := by
        rw [show p + p + j = j + p * 2 by ring, Nat.add_mul_div_left _ _ hp]
      rw [or_iff_right hnot, hget,
        ih (hnd.sublist (List.drop_sublist _ _)) (by simp; omega) j hj, hdiv]
      omega

end WorkTicket.OffsetPaging
