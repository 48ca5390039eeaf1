import Mathlib

/-! A loop without a bound on its turns: where it is after a number of turns, whether it ends, and
what it returns. -/

namespace WorkTicket.Loops

variable {σ α : Type*}

/-- How a turn of the loop ends. -/
inductive Turn (σ α : Type*)
  | again (s : σ)
  | returned (a : α)
  | raised

variable (body : σ → Turn σ α)

def after : ℕ → σ → Turn σ α
  | 0, s => .again s
  | n + 1, s =>
    match after n s with
    | .again t => body t
    | ended => ended

attribute [grind =] after

/-- The loop comes to a turn in the state `t`. -/
def Reaches (s t : σ) : Prop := ∃ n, after body n s = .again t

def Ends (s : σ) : Prop := ∃ n, ∀ t, after body n s ≠ .again t

def Returns (s : σ) (a : α) : Prop := ∃ n, after body n s = .returned a

variable {body} {s t : σ} {a b : α} {n : ℕ}

theorem after_succ_of_again (h : after body n s = .again t) : after body (n + 1) s = body t := by
  rw [after, h]

theorem after_succ (h : body s = .again t) : after body (n + 1) s = after body n t := by
  induction n with
  | zero => exact h
  | succ n ih => rw [after, ih, after]

theorem again_of_after_succ (h : after body (n + 1) s = .again t) :
    ∃ u, after body n s = .again u ∧ body u = .again t := by
  rw [after] at h
  split at h
  · exact ⟨_, ‹_›, h⟩
  · rename_i hended
    exact absurd h (hended t)

/-- A loop that has ended stays so. -/
theorem after_of_ended (h : ∀ t, after body n s ≠ .again t) {m : ℕ} (hle : n ≤ m) :
    after body m s = after body n s := by
  induction m, hle using Nat.le_induction with
  | base => rfl
  | succ m hle ih =>
    rw [after]
    split
    · rename_i t ht
      exact absurd (ih.symm.trans ht) (h t)
    · exact ih

theorem returns_of_returned (h : body s = .returned a) : Returns body s a := ⟨1, h⟩

theorem returns_of_again (h : body s = .again t) (ht : Returns body t a) : Returns body s a := by
  obtain ⟨n, hn⟩ := ht
  exact ⟨n + 1, (after_succ h).trans hn⟩

theorem after_of_returned {m : ℕ} (h : after body n s = .returned a) (hle : n ≤ m) :
    after body m s = .returned a := by
  have hended : ∀ t, after body n s ≠ .again t := by simp [h]
  rw [after_of_ended hended hle, h]

theorem Returns.unique (h : Returns body s a) (h' : Returns body s b) : a = b := by
  obtain ⟨n, hn⟩ := h
  obtain ⟨m, hm⟩ := h'
  have hmax := after_of_returned hn (le_max_left n m)
  rw [after_of_returned hm (le_max_right n m)] at hmax
  exact (Turn.returned.inj hmax).symm

theorem not_returns_of_raised (h : body s = .raised) : ¬Returns body s a := by
  rintro ⟨n, hn⟩
  have hone : after body 1 s = .raised := h
  have hended : ∀ t, after body 1 s ≠ .again t := by simp [hone]
  have hmax := after_of_returned hn (le_max_left n 1)
  rw [after_of_ended hended (le_max_right n 1), hone] at hmax
  cases hmax

/-- The rule for a loop with a measure: each turn keeps the invariant and lowers the measure, or it
returns what it should. -/
theorem returns_of_measure {I : σ → Prop} (measure : σ → ℕ)
    (hturn : ∀ s, I s → body s = .returned a ∨
      ∃ t, body s = .again t ∧ I t ∧ measure t < measure s) (h : I s) : Returns body s a := by
  induction hm : measure s using Nat.strong_induction_on generalizing s with
  | _ m ih =>
    rcases hturn s h with hreturned | ⟨t, hagain, ht, hlt⟩
    · exact returns_of_returned hreturned
    · exact returns_of_again hagain (ih (measure t) (hm ▸ hlt) ht rfl)

end WorkTicket.Loops
