import Mathlib

/-! One row of a table and the sessions that work on it: a session keeps the copy it loaded,
also when it locks the row later, and its flush writes only the columns it has changed. -/

namespace WorkTicket.RowSessions

/-- `draft` is the session that has the row's lock and the row as its transaction left it,
`copy` the row as a session's identity map has it. -/
structure Shared (ι ρ : Type*) where
  row : ρ
  draft : Option (ι × ρ)
  copy : ι → Option ρ

def start {ι ρ : Type*} (row : ρ) : Shared ι ρ := ⟨row, none, fun _ => none⟩

section
variable {ι ρ : Type*} [DecidableEq ι] (s : Shared ι ρ) (i : ι)

/-- The row as a SELECT of the session finds it. -/
def Shared.seen : ρ :=
  match s.draft with
  | some (k, r) => if k = i then r else s.row
  | none => s.row

/-- The row as the session's code reads it: a copy is not refreshed by a later SELECT. -/
def Shared.view : ρ := (s.copy i).getD (s.seen i)

def Shared.lockFree : Bool := s.draft.all fun d => d.1 = i

def Shared.load : Shared ι ρ := { s with copy := Function.update s.copy i (some (s.view i)) }

/-- The flush of a changed copy; `merge old new row` puts into `row` the columns in which
`new` differs from `old`. -/
def Shared.write (merge : ρ → ρ → ρ → ρ) (new : ρ) : Shared ι ρ where
  row := s.row
  draft := some (i, merge (s.view i) new (s.seen i))
  copy := Function.update s.copy i (some new)

/-- The commit keeps the copies (`expire_on_commit=False`). -/
def Shared.commit : Shared ι ρ where
  row := s.seen i
  draft := if s.lockFree i then none else s.draft
  copy := s.copy

def Shared.rollback : Shared ι ρ where
  row := s.row
  draft := if s.lockFree i then none else s.draft
  copy := Function.update s.copy i none

/-- A later SELECT that brings a part of the row into the copy. -/
def Shared.fill (part : ρ → ρ → ρ) : Shared ι ρ :=
  { s with copy := Function.update s.copy i (some (part (s.view i) (s.seen i))) }

/-- The flush, the commit and the end of a session in one step. -/
def Shared.finish (merge : ρ → ρ → ρ → ρ) (new : ρ) : Shared ι ρ :=
  ((s.write i merge new).commit i).rollback i

end

/-- A column of `row` after a flush. -/
def column {α : Type*} [DecidableEq α] (old new row : α) : α := if new = old then row else new

theorem column_self {α : Type*} [DecidableEq α] (old row : α) : column old old row = row :=
  if_pos rfl

theorem column_eq_or {α : Type*} [DecidableEq α] (old new row : α) :
    column old new row = row ∨ column old new row = new := by
  unfold column
  split
  · exact .inl rfl
  · exact .inr rfl

/-! ## What holds of the row and of the draft -/

def Holds {ι ρ : Type*} (P : ρ → Prop) (s : Shared ι ρ) : Prop :=
  P s.row ∧ ∀ d, s.draft = some d → P d.2

section
variable {ι ρ : Type*} {P : ρ → Prop} {s : Shared ι ρ} {i : ι}

theorem holds_start {row : ρ} (h : P row) : Holds P (start row : Shared ι ρ) :=
  ⟨h, fun _ hd => nomatch hd⟩

variable [DecidableEq ι]

theorem Holds.seen (h : Holds P s) : P (s.seen i) := by
  unfold Shared.seen
  split
  · rename_i k r hd
    split
    · exact h.2 (k, r) hd
    · exact h.1
  · exact h.1

theorem Holds.load (h : Holds P s) : Holds P (s.load i) := h

theorem Holds.write (h : Holds P s) {merge : ρ → ρ → ρ → ρ} {new : ρ}
    (hnew : P (merge (s.view i) new (s.seen i))) : Holds P (s.write i merge new) := by
  refine ⟨h.1, ?_⟩
  rintro d ⟨⟩
  exact hnew

theorem Holds.commit (h : Holds P s) : Holds P (s.commit i) := by
  refine ⟨h.seen, fun d hd => ?_⟩
  simp only [Shared.commit] at hd
  split at hd
  · cases hd
  · exact h.2 d hd

theorem Holds.rollback (h : Holds P s) : Holds P (s.rollback i) := by
  refine ⟨h.1, fun d hd => ?_⟩
  simp only [Shared.rollback] at hd
  split at hd
  · cases hd
  · exact h.2 d hd

end

/-! ## What holds between a copy and the row

Where every session flushes and commits in one step, there is no draft between two steps. -/

structure Settled {ι ρ : Type*} (P : ρ → Prop) (Q : ρ → ρ → Prop) (s : Shared ι ρ) : Prop where
  noDraft : s.draft = none
  row : P s.row
  copies : ∀ i c, s.copy i = some c → Q c s.row

section
variable {ι ρ : Type*} {P : ρ → Prop} {Q : ρ → ρ → Prop} {s : Shared ι ρ} {i : ι}

theorem settled_start {row : ρ} (h : P row) : Settled P Q (start row : Shared ι ρ) :=
  ⟨rfl, h, fun _ _ hc => nomatch hc⟩

variable [DecidableEq ι]

theorem Settled.seen (h : Settled P Q s) : s.seen i = s.row := by
  rw [Shared.seen, h.noDraft]

/-- What a session reads stands to the row as a copy does, if a fresh copy does. -/
theorem Settled.view (h : Settled P Q s) (hfresh : Q s.row s.row) : Q (s.view i) s.row := by
  rw [Shared.view, h.seen]
  cases hcopy : s.copy i with
  | none => exact hfresh
  | some c => exact h.copies i c hcopy

theorem Settled.fill (h : Settled P Q s) {part : ρ → ρ → ρ}
    (hpart : Q (part (s.view i) s.row) s.row) : Settled P Q (s.fill i part) := by
  refine ⟨h.noDraft, h.row, fun k c hc => ?_⟩
  simp only [Shared.fill, h.seen] at hc
  obtain rfl | hk := eq_or_ne k i
  · rw [Function.update_self] at hc
    exact Option.some.inj hc ▸ hpart
  · rw [Function.update_of_ne hk] at hc
    exact h.copies k c hc

theorem Settled.load (h : Settled P Q s) (hfresh : Q s.row s.row) : Settled P Q (s.load i) :=
  show Settled P Q (s.fill i fun old _ => old) from h.fill (h.view hfresh)

theorem Settled.rollback (h : Settled P Q s) : Settled P Q (s.rollback i) := by
  refine ⟨?_, h.row, fun k c hc => ?_⟩
  · simp only [Shared.rollback, h.noDraft, ite_self]
  · simp only [Shared.rollback] at hc
    obtain rfl | hk := eq_or_ne k i
    · rw [Function.update_self] at hc
      cases hc
    · rw [Function.update_of_ne hk] at hc
      exact h.copies k c hc

theorem finish_row (merge : ρ → ρ → ρ → ρ) (new : ρ) :
    (s.finish i merge new).row = merge (s.view i) new (s.seen i) := by
  simp [Shared.finish, Shared.rollback, Shared.commit, Shared.seen, Shared.write]

/-- The other sessions keep their copies, so these must bear the row that is committed. -/
theorem Settled.finish (h : Settled P Q s) {merge : ρ → ρ → ρ → ρ} {new : ρ}
    (hrow : P (merge (s.view i) new s.row))
    (hcopies : ∀ c, Q c s.row → Q c (merge (s.view i) new s.row)) :
    Settled P Q (s.finish i merge new) := by
  have hmerged : (s.finish i merge new).row = merge (s.view i) new s.row := by
    rw [finish_row, h.seen]
  refine ⟨?_, hmerged ▸ hrow, fun k c hc => ?_⟩
  · simp [Shared.finish, Shared.rollback, Shared.commit, Shared.lockFree, Shared.write]
  · rw [hmerged]
    simp only [Shared.finish, Shared.rollback, Shared.commit, Shared.write,
      Function.update_idem] at hc
    obtain rfl | hk := eq_or_ne k i
    · rw [Function.update_self] at hc
      cases hc
    · rw [Function.update_of_ne hk] at hc
      exact hcopies c (h.copies k c hc)

end

end WorkTicket.RowSessions
