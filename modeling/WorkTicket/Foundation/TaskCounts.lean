import Mathlib

/-! Tasks as a list of their phases: how many are in a phase after one of them has moved on. -/

namespace WorkTicket.TaskCounts

variable {φ : Type*} {tasks : List φ} {t : ℕ} {old : φ}

theorem countP_set_add (p : φ → Bool) (new : φ) (h : tasks[t]? = some old) :
    (tasks.set t new).countP p + (p old).toNat = tasks.countP p + (p new).toNat := by
  obtain ⟨hlt, rfl⟩ := List.getElem?_eq_some_iff.mp h
  have hle := List.boole_getElem_le_countP (p := p) hlt
  have hset := List.countP_set (p := p) (a := new) hlt
  have hold : (if p tasks[t] = true then 1 else 0) = (p tasks[t]).toNat := by
    cases p tasks[t] <;> rfl
  have hnew : (if p new = true then 1 else 0) = (p new).toNat := by
    cases p new <;> rfl
  rw [hold] at hle
  rw [hold, hnew] at hset
  omega

theorem countP_set_eq (p : φ → Bool) (new : φ) (h : tasks[t]? = some old) (hp : p new = p old) :
    (tasks.set t new).countP p = tasks.countP p := by
  have hset := countP_set_add p new h
  rw [hp] at hset
  exact Nat.add_right_cancel hset

theorem forall_set {P : φ → Prop} {new : φ} (h : ∀ x ∈ tasks, P x) (hnew : P new) :
    ∀ x ∈ tasks.set t new, P x := by
  intro x hx
  rcases List.mem_or_eq_of_mem_set hx with hx | rfl
  · exact h x hx
  · exact hnew

end WorkTicket.TaskCounts
