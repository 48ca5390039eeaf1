import Mathlib

/-! Runs of a partial step function, the states a run reaches when each of its
steps meets a side condition, and the invariant rule for such runs. -/

namespace WorkTicket.Transition

variable {σ ε : Type*}

def run (step : σ → ε → Option σ) : σ → List ε → Option σ
  | s, [] => some s
  | s, e :: es => (step s e).bind fun s' => run step s' es

/-- The states of the runs from `s₀` whose every step meets `ok`. -/
inductive ReachedBy (step : σ → ε → Option σ) (ok : σ → ε → Prop) (s₀ : σ) : σ → Prop
  | start : ReachedBy step ok s₀ s₀
  | step {s s' : σ} {e : ε} : ReachedBy step ok s₀ s → ok s e → step s e = some s' →
      ReachedBy step ok s₀ s'

def Reached (step : σ → ε → Option σ) (s₀ : σ) : σ → Prop :=
  ReachedBy step (fun _ _ => True) s₀

variable {step : σ → ε → Option σ} {ok : σ → ε → Prop} {s₀ s : σ}

/-- The invariant rule: what holds at the start and survives every step that
meets the side condition holds in every state reached. -/
theorem ReachedBy.invariant {I : σ → Prop} (h : ReachedBy step ok s₀ s) (h₀ : I s₀)
    (hstep : ∀ s e s', I s → ok s e → step s e = some s' → I s') : I s := by
  induction h with
  | start => exact h₀
  | step _ hok hs ih => exact hstep _ _ _ ih hok hs

theorem ReachedBy.trans {s' : σ} (h : ReachedBy step ok s₀ s) (h' : ReachedBy step ok s s') :
    ReachedBy step ok s₀ s' := by
  induction h' with
  | start => exact h
  | step _ hok hs ih => exact ih.step hok hs

def runWhile (step : σ → ε → Option σ) (ok : σ → ε → Prop) [∀ s e, Decidable (ok s e)] :
    σ → List ε → Option σ
  | s, [] => some s
  | s, e :: es => if ok s e then (step s e).bind fun s' => runWhile step ok s' es else none

theorem ReachedBy.of_runWhile [∀ s e, Decidable (ok s e)] {es : List ε} {s' : σ}
    (h : runWhile step ok s es = some s') : ReachedBy step ok s s' := by
  induction es generalizing s with
  | nil => exact Option.some.inj h ▸ .start
  | cons e es ih =>
    simp only [runWhile] at h
    split at h
    · rename_i hok
      obtain ⟨t, ht, hrest⟩ := Option.bind_eq_some_iff.mp h
      exact (ReachedBy.start.step hok ht).trans (ih hrest)
    · simp at h

theorem Reached.of_run {es : List ε} {s' : σ} (h : run step s es = some s') :
    Reached step s s' := by
  induction es generalizing s with
  | nil => exact Option.some.inj h ▸ .start
  | cons e es ih =>
    obtain ⟨t, ht, hrest⟩ := Option.bind_eq_some_iff.mp h
    exact (ReachedBy.start.step trivial ht).trans (ih hrest)

/-! ## Properties along a run -/

/-- `P` holds in every state that the run from `s` goes through. -/
def Along (step : σ → ε → Option σ) (P : σ → Prop) : σ → List ε → Prop
  | s, [] => P s
  | s, e :: es => P s ∧ ∀ s', step s e = some s' → Along step P s' es

/-- Every step that the run from `s` takes meets `ok`. -/
def EachStep (step : σ → ε → Option σ) (ok : σ → ε → Prop) : σ → List ε → Prop
  | _, [] => True
  | s, e :: es => ∀ s', step s e = some s' → ok s e ∧ EachStep step ok s' es

theorem EachStep.congr {ok' : σ → ε → Prop}
    (h : ∀ s e s', step s e = some s' → (ok s e ↔ ok' s e)) (s : σ) (es : List ε) :
    EachStep step ok s es ↔ EachStep step ok' s es := by
  induction es generalizing s with
  | nil => exact Iff.rfl
  | cons e es ih =>
    exact forall_congr' fun s' => imp_congr_right fun hs => and_congr (h s e s' hs) (ih s')

theorem Along.head {P : σ → Prop} {es : List ε} (h : Along step P s es) : P s := by
  cases es with
  | nil => exact h
  | cons e es => exact h.1

theorem Along.last {P : σ → Prop} {es : List ε} {s' : σ} (h : Along step P s es)
    (hrun : run step s es = some s') : P s' := by
  induction es generalizing s with
  | nil => exact Option.some.inj hrun ▸ h
  | cons e es ih =>
    obtain ⟨t, ht, hrest⟩ := Option.bind_eq_some_iff.mp hrun
    exact ih (h.2 t ht) hrest

/-- If the side condition is just what a step needs to lead to a state with the property, then
the property holds along a run exactly if each of its steps meets the condition. -/
theorem along_iff_eachStep {I P : σ → Prop} (hP : ∀ s, I s → P s)
    (hstep : ∀ s e s', I s → ok s e → step s e = some s' → I s')
    (hok : ∀ s e s', I s → step s e = some s' → P s' → ok s e) (h : I s) (es : List ε) :
    Along step P s es ↔ EachStep step ok s es := by
  induction es generalizing s with
  | nil => exact iff_of_true (hP s h) trivial
  | cons e es ih =>
    constructor
    · intro halong s' hs
      have hmet := hok s e s' h hs (halong.2 s' hs).head
      exact ⟨hmet, (ih (hstep s e s' h hmet hs)).mp (halong.2 s' hs)⟩
    · intro heach
      refine ⟨hP s h, fun s' hs => ?_⟩
      obtain ⟨hmet, hrest⟩ := heach s' hs
      exact (ih (hstep s e s' h hmet hs)).mpr hrest

end WorkTicket.Transition
