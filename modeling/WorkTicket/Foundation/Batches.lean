import Mathlib

/-! A loop over the batches of a list, and within each over its items, is one loop over
the items with their positions. -/

namespace WorkTicket.Batches

universe u v

variable {α : Type*} {β : Type u} {m : Type u → Type v} [Monad m]

/-- Where the batches of `n` items start. -/
def starts (n : ℕ) (size : ℕ+) : List ℕ := List.range' 0 ((n + size - 1) / size) size

/-- The items of one batch, with their positions in the whole list. -/
def batch (l : List α) (size : ℕ+) (start : ℕ) : List (α × ℕ) :=
  ((l.drop start).take size).zipIdx start

theorem batch_eq (l : List α) (size : ℕ+) (start : ℕ) :
    batch l size start = (l.zipIdx.drop start).take size := by
  refine List.ext_getElem? fun i => ?_
  simp only [batch, List.getElem?_zipIdx, List.getElem?_take, List.getElem?_drop]
  by_cases hi : i < size
  · simp [hi]
  · simp [hi]

theorem flatMap_slices (l : List α) (size n : ℕ) :
    (List.range' 0 n size).flatMap (fun start => (l.drop start).take size) = l.take (size * n) := by
  induction n with
  | zero => simp
  | succ n ih =>
    rw [List.range'_concat, List.flatMap_append, ih, Nat.mul_succ, List.take_add]
    simp

theorem flatMap_batch (l : List α) (size : ℕ+) :
    (starts l.length size).flatMap (batch l size) = l.zipIdx := by
  have hcovered : l.length ≤ size * ((l.length + size - 1) / size) := by
    have hdiv := Nat.div_add_mod (l.length + size - 1) size
    have hmod := Nat.mod_lt (l.length + size - 1) size.pos
    omega
  have hslices : batch l size = fun start => (l.zipIdx.drop start).take size :=
    funext (batch_eq l size)
  rw [hslices, starts, flatMap_slices]
  exact List.take_of_length_le (by simpa using hcovered)

theorem foldlM_flatMap [LawfulMonad m] {γ : Type*} (f : β → α → m β) (g : γ → List α)
    (l : List γ) (b : β) :
    (l.flatMap g).foldlM f b = l.foldlM (fun b c => (g c).foldlM f b) b := by
  induction l generalizing b with
  | nil => rfl
  | cons c l ih =>
    rw [List.flatMap_cons, List.foldlM_append, List.foldlM_cons]
    exact congrArg _ (funext ih)

/-- The batches change nothing: the nested loop is the loop over the whole list. -/
theorem foldlM_batches [LawfulMonad m] (f : β → α × ℕ → m β) (l : List α) (size : ℕ+) (b : β) :
    (starts l.length size).foldlM (fun b start => (batch l size start).foldlM f b) b =
      l.zipIdx.foldlM f b := by
  rw [← foldlM_flatMap, flatMap_batch]

end WorkTicket.Batches
