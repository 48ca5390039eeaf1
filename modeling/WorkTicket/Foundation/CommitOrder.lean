import Mathlib

/-! A shared value on which transactions act: the value is the start value after the
effects of exactly the finished transactions, each taken once in some order. -/

namespace WorkTicket.CommitOrder

variable {ι β : Type*}

/-- `b` is `b₀` after the effects of the transactions in `done`, each once. -/
def Accounts (effect : ι → β → β) (done : ι → Prop) (b₀ b : β) : Prop :=
  ∃ order : List ι, order.Nodup ∧ (∀ i, i ∈ order ↔ done i) ∧
    b = order.foldl (fun b i => effect i b) b₀

variable {effect effect' : ι → β → β} {done done' : ι → Prop} {b₀ b : β}

theorem accounts_start (h : ∀ i, ¬ done i) : Accounts effect done b₀ b₀ :=
  ⟨[], List.nodup_nil, fun i => by simpa using h i, rfl⟩

theorem Accounts.congr (h : Accounts effect done b₀ b) (hdone : ∀ i, done' i ↔ done i)
    (heffect : ∀ i, done i → effect' i = effect i) : Accounts effect' done' b₀ b := by
  obtain ⟨order, hnd, hmem, hfold⟩ := h
  refine ⟨order, hnd, fun i => (hmem i).trans (hdone i).symm, hfold.trans ?_⟩
  refine List.foldl_ext _ _ _ fun c i hi => ?_
  rw [heffect i ((hmem i).mp hi)]

theorem Accounts.commit {i : ι} (h : Accounts effect done b₀ b) (hnew : ¬ done i)
    (hdone : ∀ j, done' j ↔ done j ∨ j = i) (heffect : ∀ j, done j → effect' j = effect j) :
    Accounts effect' done' b₀ (effect' i b) := by
  obtain ⟨order, hnd, hmem, hfold⟩ := h.congr (fun _ => Iff.rfl) heffect
  refine ⟨order ++ [i], ?_, fun j => ?_, ?_⟩
  · refine List.nodup_append.mpr ⟨hnd, List.nodup_singleton i, ?_⟩
    rintro j hj k hk rfl
    exact hnew ((hmem i).mp (List.mem_singleton.mp hk ▸ hj))
  · rw [List.mem_append, List.mem_singleton, hmem, hdone]
  · rw [List.foldl_append, ← hfold]
    rfl

end WorkTicket.CommitOrder
