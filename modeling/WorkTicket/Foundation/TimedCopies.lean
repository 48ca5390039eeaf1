import Mathlib

/-! Copies with an expiry of what a source held. A copy of a copy lives on from the time it is
made, so that the lives of the copies on the way add up to how old a value can be when it is
read. -/

namespace WorkTicket.TimedCopies

variable {κ α : Type*}

structure Copy (α : Type*) where
  value : α
  expires : ℚ
  deriving DecidableEq

/-- A store that forgets what has expired. -/
abbrev Shelf (κ α : Type*) := κ → Option (Copy α)

namespace Shelf

variable (shelf : Shelf κ α)

def get (k : κ) (now : ℚ) : Option α := ((shelf k).filter (now < ·.expires)).map Copy.value

variable [DecidableEq κ]

def put (k : κ) (a : α) (now life : ℚ) : Shelf κ α :=
  Function.update shelf k (some ⟨a, now + life⟩)

def drop (k : κ) : Shelf κ α := Function.update shelf k none

end Shelf

def Shelf.empty : Shelf κ α := fun _ => none

/-! ## How old a value is -/

section
variable (held : ℚ → κ → α → Prop)

/-- At time `t` it is at most `age` since the source held the value. -/
def Aged (age : ℚ) (k : κ) (a : α) (t : ℚ) : Prop := ∃ s, held s k a ∧ t ≤ s + age

/-- A value that is read before its copy expires has at most the age. -/
def Within (age : ℚ) (shelf : Shelf κ α) : Prop :=
  ∀ k c, shelf k = some c → Aged held age k c.value c.expires

end

section
variable {held held' : ℚ → κ → α → Prop} {age age' now life : ℚ} {k : κ} {a : α} {t t' : ℚ}
  {shelf : Shelf κ α}

theorem Aged.of_held (h : held t k a) (hage : 0 ≤ age) : Aged held age k a t :=
  ⟨t, h, le_add_of_nonneg_right hage⟩

/-- Time that passes makes a value older by as much. -/
theorem Aged.later (h : Aged held age k a t) (ht : t' + age ≤ t + age') :
    Aged held age' k a t' := by
  obtain ⟨s, hs, hle⟩ := h
  exact ⟨s, hs, by linarith⟩

theorem Aged.earlier (h : Aged held age k a t) (ht : t' ≤ t) : Aged held age k a t' :=
  h.later (add_le_add_left ht age)

theorem Aged.mono (h : Aged held age k a t) (hheld : ∀ s, held s k a → held' s k a) :
    Aged held' age k a t := by
  obtain ⟨s, hs, hle⟩ := h
  exact ⟨s, hheld s hs, hle⟩

theorem within_empty : Within held age (Shelf.empty : Shelf κ α) := fun _ _ h => by cases h

theorem Within.mono (h : Within held age shelf) (hheld : ∀ s k a, held s k a → held' s k a) :
    Within held' age shelf := fun k c hc => (h k c hc).mono fun s => hheld s k c.value

theorem Within.aged (h : Within held age shelf) (hget : shelf.get k now = some a) :
    Aged held age k a now := by
  obtain ⟨c, hc, rfl⟩ := Option.map_eq_some_iff.mp hget
  obtain ⟨hc, hlive⟩ := Option.filter_eq_some_iff.mp hc
  exact (h k c hc).earlier (of_decide_eq_true hlive).le

variable [DecidableEq κ]

theorem Within.put (h : Within held age shelf) (ha : Aged held age k a (now + life)) :
    Within held age (shelf.put k a now life) := by
  intro k' c hc
  rw [Shelf.put, Function.update_apply] at hc
  split_ifs at hc with hk
  · cases hc
    exact hk ▸ ha
  · exact h k' c hc

theorem Within.drop (h : Within held age shelf) : Within held age (shelf.drop k) := by
  intro k' c hc
  rw [Shelf.drop, Function.update_apply] at hc
  split_ifs at hc
  exact h k' c hc

end

end WorkTicket.TimedCopies
