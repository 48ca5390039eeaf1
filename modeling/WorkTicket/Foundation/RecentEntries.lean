import Mathlib

/-! Logs of times, one for each key, from which old times are dropped now and then. Of the recent
times none is lost. -/

namespace WorkTicket.RecentEntries

variable {κ τ : Type*} [DecidableEq κ] [LinearOrder τ]

abbrev Kept (κ τ : Type*) := κ → Option (List τ)

namespace Kept

variable (kept : Kept κ τ)

def times (k : κ) : List τ := (kept k).getD []

def add (k : κ) (t : τ) : Kept κ τ := Function.update kept k (some (kept.times k ++ [t]))

def dropOld (cutoff : τ) : Kept κ τ := fun k => (kept k).map (·.filter (cutoff < ·))

def dropOldOf (k : κ) (cutoff : τ) : Kept κ τ :=
  Function.update kept k ((kept k).map (·.filter (cutoff < ·)))

end Kept

/-- The times of a key in the log of all keys. -/
def timesOf (log : List (τ × κ)) (k : κ) : List τ := (log.filter (·.2 = k)).map Prod.fst

/-- The times of a key after the cutoff. -/
def recent (cutoff : τ) (log : List (τ × κ)) (k : κ) : List τ :=
  (timesOf log k).filter (cutoff < ·)

/-- What is kept has every time of the log after the cutoff. -/
def Keeps (cutoff : τ) (kept : Kept κ τ) (log : List (τ × κ)) : Prop :=
  ∀ k, (kept.times k).filter (cutoff < ·) = recent cutoff log k

variable {cutoff cutoff' t : τ} {k k' : κ} {kept : Kept κ τ} {log : List (τ × κ)}

namespace Kept

omit [LinearOrder τ] in
@[simp] theorem times_add_self : (kept.add k t).times k = kept.times k ++ [t] := by
  rw [add, times, Function.update_self, Option.getD_some]

omit [LinearOrder τ] in
theorem times_add_of_ne (h : k' ≠ k) : (kept.add k t).times k' = kept.times k' := by
  rw [add, times, Function.update_of_ne h, times]

omit [DecidableEq κ] in
@[simp] theorem times_dropOld :
    (kept.dropOld cutoff).times k = (kept.times k).filter (cutoff < ·) := by
  unfold times dropOld
  cases kept k <;> rfl

@[simp] theorem times_dropOldOf_self :
    (kept.dropOldOf k cutoff).times k = (kept.times k).filter (cutoff < ·) := by
  rw [dropOldOf, times, Function.update_self, times]
  cases kept k <;> rfl

theorem times_dropOldOf_of_ne (h : k' ≠ k) :
    (kept.dropOldOf k cutoff).times k' = kept.times k' := by
  rw [dropOldOf, times, Function.update_of_ne h, times]

end Kept

theorem filter_later (h : cutoff ≤ cutoff') (times : List τ) :
    (times.filter (cutoff < ·)).filter (cutoff' < ·) = times.filter (cutoff' < ·) := by
  rw [List.filter_filter]
  refine List.filter_congr fun t _ => ?_
  rw [Bool.and_eq_left_iff_imp, decide_eq_true_eq, decide_eq_true_eq]
  exact h.trans_lt

theorem recent_append_self :
    recent cutoff (log ++ [(t, k)]) k = recent cutoff log k ++ [t].filter (cutoff < ·) := by
  simp [recent, timesOf, List.filter_append]

theorem recent_append_of_ne (h : k' ≠ k) :
    recent cutoff (log ++ [(t, k)]) k' = recent cutoff log k' := by
  simp [recent, timesOf, List.filter_append, h.symm]

theorem keeps_nil : Keeps cutoff (fun _ => none : Kept κ τ) [] := fun _ => rfl

theorem Keeps.later (h : Keeps cutoff kept log) (hcutoff : cutoff ≤ cutoff') :
    Keeps cutoff' kept log := by
  intro k
  rw [← filter_later hcutoff, h k, recent, filter_later hcutoff, recent]

theorem Keeps.add (h : Keeps cutoff kept log) (k : κ) (t : τ) :
    Keeps cutoff (kept.add k t) (log ++ [(t, k)]) := by
  intro k'
  by_cases hk : k' = k
  · subst hk
    rw [Kept.times_add_self, List.filter_append, h, recent_append_self]
  · rw [Kept.times_add_of_ne hk, h, recent_append_of_ne hk]

theorem Keeps.dropOld (h : Keeps cutoff kept log) : Keeps cutoff (kept.dropOld cutoff) log := by
  intro k
  rw [Kept.times_dropOld, filter_later le_rfl, h]

theorem Keeps.dropOldOf (h : Keeps cutoff kept log) (k : κ) :
    Keeps cutoff (kept.dropOldOf k cutoff) log := by
  intro k'
  by_cases hk : k' = k
  · subst hk
    rw [Kept.times_dropOldOf_self, filter_later le_rfl, h]
  · rw [Kept.times_dropOldOf_of_ne hk, h]

end WorkTicket.RecentEntries
