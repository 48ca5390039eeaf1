import Mathlib

/-! A log that is cut to its last entries whenever it has grown over a limit, so that how much of
the whole log it has left goes up and down. -/

namespace WorkTicket.CappedLog

variable {α : Type*}

/-- The last entries of a list, all of them for the length 0. -/
def lastOf (n : ℕ) (l : List α) : List α := if n = 0 then l else l.drop (l.length - n)

def record (cap keep : ℕ) (log : List α) (e : α) : List α :=
  let log := log ++ [e]
  if cap < log.length then log.drop (log.length - keep) else log

def kept (cap keep : ℕ) (entries : List α) : List α := entries.foldl (record cap keep) []

/-- How many of `n` entries are left. -/
def keptLength (cap keep n : ℕ) : ℕ :=
  if n ≤ cap then n else keep + (n - cap - 1) % (cap + 1 - keep)

section
variable {cap keep n m limit : ℕ} {l : List α} {e : α}

theorem kept_append (l : List α) (e : α) :
    kept cap keep (l ++ [e]) = record cap keep (kept cap keep l) e := by
  rw [kept, List.foldl_append, List.foldl_cons, List.foldl_nil, kept]

theorem keptLength_of_le (hn : n ≤ cap) : keptLength cap keep n = n := if_pos hn

theorem keptLength_cut (a : ℕ) :
    keptLength cap keep (cap + 1 + a) = keep + a % (cap + 1 - keep) := by
  have ha : cap + 1 + a - cap - 1 = a := by omega
  rw [keptLength, if_neg (by omega), ha]

theorem keptLength_le_cap (h : keep ≤ cap) : keptLength cap keep n ≤ cap := by
  rcases le_or_gt n cap with hn | hn
  · rwa [keptLength_of_le hn]
  · obtain ⟨a, rfl⟩ := Nat.exists_eq_add_of_le hn
    have hmod := Nat.mod_lt a (show 0 < cap + 1 - keep by omega)
    rw [keptLength_cut]
    omega

theorem keptLength_le (h : keep ≤ cap) : keptLength cap keep n ≤ n := by
  rcases le_or_gt n cap with hn | hn
  · rw [keptLength_of_le hn]
  · exact (keptLength_le_cap h).trans hn.le

theorem le_keptLength : min n keep ≤ keptLength cap keep n := by
  rcases le_or_gt n cap with hn | hn
  · rw [keptLength_of_le hn]
    exact min_le_left n keep
  · obtain ⟨a, rfl⟩ := Nat.exists_eq_add_of_le hn
    rw [keptLength_cut]
    exact (min_le_right _ keep).trans (Nat.le_add_right _ _)

/-- One more entry is left, or the log is cut. -/
theorem keptLength_succ (h : keep ≤ cap) : keptLength cap keep (n + 1) =
    if cap < keptLength cap keep n + 1 then keep else keptLength cap keep n + 1 := by
  rcases lt_trichotomy n cap with hn | rfl | hn
  · rw [keptLength_of_le hn, keptLength_of_le hn.le, if_neg (by omega)]
  · have hcut : keptLength n keep (n + 1) = keep + 0 % (n + 1 - keep) := keptLength_cut 0
    rw [Nat.zero_mod] at hcut
    rw [keptLength_of_le le_rfl, if_pos n.lt_succ_self]
    exact hcut
  · obtain ⟨a, rfl⟩ := Nat.exists_eq_add_of_le hn
    have hmod := Nat.mod_lt a (show 0 < cap + 1 - keep by omega)
    have hsucc : keptLength cap keep (cap + 1 + a + 1) = keep + (a + 1) % (cap + 1 - keep) :=
      keptLength_cut (a + 1)
    rw [hsucc, keptLength_cut, ← Nat.mod_add_mod]
    split_ifs with hfull
    · have hperiod : a % (cap + 1 - keep) + 1 = cap + 1 - keep := by omega
      rw [hperiod, Nat.mod_self, Nat.add_zero]
    · rw [Nat.mod_eq_of_lt (by omega), Nat.add_assoc]

/-- What is left of the log are its last entries. -/
theorem kept_eq_drop (h : keep ≤ cap) (l : List α) :
    kept cap keep l = l.drop (l.length - keptLength cap keep l.length) := by
  induction l using List.reverseRecOn with
  | nil => rfl
  | append_singleton l e ih =>
    have hle : keptLength cap keep l.length ≤ l.length := keptLength_le h
    have hgrown : kept cap keep l ++ [e] =
        (l ++ [e]).drop (l.length - keptLength cap keep l.length) := by
      rw [ih, List.drop_append_of_le_length (Nat.sub_le _ _)]
    have hlength : (kept cap keep l ++ [e]).length = keptLength cap keep l.length + 1 := by
      rw [hgrown, List.length_drop, List.length_append, List.length_singleton]
      omega
    rw [kept_append, record]
    rw [hlength, List.length_append, List.length_singleton, keptLength_succ h]
    split_ifs with hfull
    · rw [hgrown, List.drop_drop]
      congr 1
      omega
    · rw [hgrown]
      congr 1
      omega

theorem length_kept (h : keep ≤ cap) (l : List α) :
    (kept cap keep l).length = keptLength cap keep l.length := by
  have hle : keptLength cap keep l.length ≤ l.length := keptLength_le h
  rw [kept_eq_drop h, List.length_drop]
  omega

theorem length_lastOf (hlimit : 0 < limit) : (lastOf limit l).length = min limit l.length := by
  rw [lastOf, if_neg hlimit.ne', List.length_drop]
  omega

/-- The last entries of an end of the list are those of the whole list, if they are as many. -/
theorem lastOf_drop_eq_iff (hlimit : 0 < limit) {s t : List α} (h : t <:+ s) :
    lastOf limit t = lastOf limit s ↔ min limit s.length ≤ t.length := by
  have hle := h.length_le
  constructor
  · intro heq
    have hlength := congrArg List.length heq
    rw [length_lastOf hlimit, length_lastOf hlimit] at hlength
    omega
  · intro hmin
    obtain ⟨front, rfl⟩ := h
    rw [List.length_append] at hmin
    unfold lastOf
    rw [if_neg hlimit.ne', if_neg hlimit.ne']
    rcases le_or_gt limit t.length with hlong | hshort
    · have hcut : (front ++ t).length - limit = front.length + (t.length - limit) := by
        rw [List.length_append]
        omega
      rw [hcut, ← List.drop_drop, List.drop_left]
    · have hfront : front = [] := List.length_eq_zero_iff.mp (by omega)
      rw [hfront, List.nil_append]

end

end WorkTicket.CappedLog
