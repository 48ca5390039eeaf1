import Mathlib

/-! Loops that try something a bounded number of times: which tries are made, when a try that
is repeated makes way for the next one. Tries are numbered, and `more` of them are left. -/

namespace WorkTicket.Retries

variable {again P : ℕ → Prop} {more k : ℕ}

/-- `P` holds of every try that is made from `k` on. -/
def EachTry (again P : ℕ → Prop) (more k : ℕ) : Prop :=
  ∀ i ≤ more, (∀ j < i, again (k + j)) → P (k + i)

/-- One of the tries from `k` on is not repeated, and `P` holds of the first such try. -/
def EndsIn (again P : ℕ → Prop) (more k : ℕ) : Prop :=
  ∃ i ≤ more, (∀ j < i, again (k + j)) ∧ ¬again (k + i) ∧ P (k + i)

theorem again_shift {i : ℕ} (h : again k) :
    (∀ j < i + 1, again (k + j)) ↔ ∀ j < i, again (k + 1 + j) := by
  constructor
  · intro hall j hj
    have hnext := hall (j + 1) (by omega)
    rwa [← add_assoc, add_right_comm] at hnext
  · intro hall j hj
    cases j with
    | zero => exact h
    | succ j =>
      have hnext := hall j (by omega)
      rwa [add_right_comm, add_assoc] at hnext

theorem eachTry_last (h : ¬again k) : EachTry again P more k ↔ P k := by
  constructor
  · intro hall
    exact hall 0 (Nat.zero_le _) fun j hj => absurd hj (Nat.not_lt_zero j)
  · intro hP i _ hearlier
    cases i with
    | zero => exact hP
    | succ i => exact absurd (hearlier 0 (Nat.succ_pos i)) h

theorem eachTry_zero : EachTry again P 0 k ↔ P k := by
  constructor
  · intro hall
    exact hall 0 le_rfl fun j hj => absurd hj (Nat.not_lt_zero j)
  · intro hP i hi _
    obtain rfl : i = 0 := Nat.le_zero.mp hi
    exact hP

theorem eachTry_succ (h : again k) (hP : P k) :
    EachTry again P (more + 1) k ↔ EachTry again P more (k + 1) := by
  constructor
  · intro hall i hi hearlier
    have hnext := hall (i + 1) (by omega) ((again_shift h).mpr hearlier)
    rwa [← add_assoc, add_right_comm] at hnext
  · intro hall i hi hearlier
    cases i with
    | zero => exact hP
    | succ i =>
      have hnext := hall i (by omega) ((again_shift h).mp hearlier)
      rwa [add_right_comm, add_assoc] at hnext

theorem endsIn_last (h : ¬again k) : EndsIn again P more k ↔ P k := by
  constructor
  · rintro ⟨i, -, hearlier, -, hP⟩
    cases i with
    | zero => exact hP
    | succ i => exact absurd (hearlier 0 (Nat.succ_pos i)) h
  · intro hP
    exact ⟨0, Nat.zero_le _, fun j hj => absurd hj (Nat.not_lt_zero j), h, hP⟩

theorem not_endsIn_zero (h : again k) : ¬EndsIn again P 0 k := by
  rintro ⟨i, hi, -, hlast, -⟩
  obtain rfl : i = 0 := Nat.le_zero.mp hi
  exact hlast h

theorem endsIn_succ (h : again k) : EndsIn again P (more + 1) k ↔ EndsIn again P more (k + 1) := by
  constructor
  · rintro ⟨i, hi, hearlier, hlast, hP⟩
    cases i with
    | zero => exact absurd h hlast
    | succ i =>
      rw [← add_assoc, add_right_comm] at hlast hP
      exact ⟨i, by omega, (again_shift h).mp hearlier, hlast, hP⟩
  · rintro ⟨i, hi, hearlier, hlast, hP⟩
    rw [add_right_comm, add_assoc] at hlast hP
    exact ⟨i + 1, by omega, (again_shift h).mpr hearlier, hlast, hP⟩

end WorkTicket.Retries
