import Mathlib

/-! Runs of a machine that answers every call, and the unwinding rule: when the calls of the
others leave what a caller sees alone, the caller is answered as in the run without them. -/

namespace WorkTicket.AnsweredRuns

variable {σ τ ι α : Type*}

/-- The calls of a run, each with its answer. -/
def answers (step : ι → σ → α × σ) : σ → List ι → List (ι × α)
  | _, [] => []
  | s, i :: is => (i, (step i s).1) :: answers step (step i s).2 is

attribute [grind =] answers

/-- The state that a run ends in. -/
def after (step : ι → σ → α × σ) : σ → List ι → σ :=
  List.foldl fun s i => (step i s).2

/-- Every call of the run from `s` meets `ok` in the state in which it is made. -/
def EachCall (step : ι → σ → α × σ) (ok : σ → ι → Prop) : σ → List ι → Prop
  | _, [] => True
  | s, i :: is => ok s i ∧ EachCall step ok (step i s).2 is

instance EachCall.decidable (step : ι → σ → α × σ) (ok : σ → ι → Prop) [∀ s i, Decidable (ok s i)] :
    ∀ s is, Decidable (EachCall step ok s is)
  | _, [] => inferInstanceAs (Decidable True)
  | s, i :: is =>
    have := EachCall.decidable step ok (step i s).2 is
    inferInstanceAs (Decidable (_ ∧ _))

variable {step : ι → σ → α × σ} {step' : ι → τ → α × τ} {ok : σ → ι → Prop}

theorem answers_append (s : σ) (is js : List ι) :
    answers step s (is ++ js) = answers step s is ++ answers step (after step s is) js := by
  induction is generalizing s with
  | nil => rfl
  | cons i is ih => simp only [List.cons_append, answers, ih, after, List.foldl_cons]

theorem EachCall.and_forall {p : ι → Prop} {s : σ} {is : List ι} (h : EachCall step ok s is)
    (hp : ∀ i ∈ is, p i) : EachCall step (fun s i => ok s i ∧ p i) s is := by
  induction is generalizing s with
  | nil => trivial
  | cons i is ih =>
    exact ⟨⟨h.1, hp i (List.mem_cons_self ..)⟩, ih h.2 fun j hj => hp j (List.mem_cons_of_mem _ hj)⟩

theorem filter_answers_cons_pos {own : ι → Bool} {i : ι} (h : own i = true) (s : σ) (is : List ι) :
    (answers step s (i :: is)).filter (fun a => own a.1) =
      (i, (step i s).1) :: (answers step (step i s).2 is).filter (fun a => own a.1) := by
  rw [answers, List.filter_cons_of_pos (by simpa using h)]

theorem filter_answers_cons_neg {own : ι → Bool} {i : ι} (h : own i = false) (s : σ)
    (is : List ι) : (answers step s (i :: is)).filter (fun a => own a.1) =
      (answers step (step i s).2 is).filter (fun a => own a.1) := by
  rw [answers, List.filter_cons_of_neg (by simp [h])]

theorem filter_answers_eq_nil {own : ι → Bool} {is : List ι} (h : ∀ i ∈ is, own i = false)
    (s : σ) : (answers step s is).filter (fun a => own a.1) = [] := by
  induction is generalizing s with
  | nil => rfl
  | cons i is ih =>
    rw [filter_answers_cons_neg (h i (List.mem_cons_self ..))]
    exact ih (fun j hj => h j (List.mem_cons_of_mem _ hj)) _

/-- The unwinding rule. `R` relates the whole run to the run of the caller alone. -/
theorem answers_filter {R : σ → τ → Prop} {own : ι → Bool}
    (hown : ∀ s t i, R s t → own i = true → ok s i →
      (step i s).1 = (step' i t).1 ∧ R (step i s).2 (step' i t).2)
    (hothers : ∀ s t i, R s t → own i = false → ok s i → R (step i s).2 t)
    {s : σ} {t : τ} {is : List ι} (hR : R s t) (hok : EachCall step ok s is) :
    (answers step s is).filter (fun a => own a.1) = answers step' t (is.filter own) := by
  induction is generalizing s t with
  | nil => rfl
  | cons i is ih =>
    obtain ⟨hi, hrest⟩ := hok
    cases ho : own i with
    | true =>
      obtain ⟨hans, hR'⟩ := hown s t i hR ho hi
      rw [filter_answers_cons_pos ho, List.filter_cons_of_pos ho, answers, hans, ih hR' hrest]
    | false =>
      rw [filter_answers_cons_neg ho, List.filter_cons_of_neg (by simp [ho])]
      exact ih (hothers s t i hR ho hi) hrest

/-- The unwinding rule for a choice by the answers: when the calls that are left out only bring the
whole run closer to the run without them, the others are answered as before. -/
theorem answers_kept {R : σ → τ → Prop} {keep : ι × α → Bool}
    (hkept : ∀ s t i, R s t → ok s i → keep (i, (step i s).1) = true →
      (step' i t).1 = (step i s).1 ∧ R (step i s).2 (step' i t).2)
    (hleft : ∀ s t i, R s t → ok s i → keep (i, (step i s).1) = false → R (step i s).2 t)
    {s : σ} {t : τ} {is : List ι} (hR : R s t) (hok : EachCall step ok s is) :
    answers step' t (((answers step s is).filter keep).map Prod.fst) =
      (answers step s is).filter keep := by
  induction is generalizing s t with
  | nil => rfl
  | cons i is ih =>
    obtain ⟨hi, hrest⟩ := hok
    cases hkeep : keep (i, (step i s).1) with
    | true =>
      obtain ⟨hans, hR'⟩ := hkept s t i hR hi hkeep
      rw [answers, List.filter_cons_of_pos hkeep, List.map_cons, answers, hans, ih hR' hrest]
    | false =>
      rw [answers, List.filter_cons_of_neg (by simp [hkeep])]
      exact ih (hleft s t i hR hi hkeep) hrest

/-! ## What is allowed of the calls -/

theorem EachCall.append {s : σ} {is js : List ι} :
    EachCall step ok s (is ++ js) ↔ EachCall step ok s is ∧ EachCall step ok (after step s is) js := by
  induction is generalizing s with
  | nil => exact ⟨fun h => ⟨trivial, h⟩, And.right⟩
  | cons i is ih =>
    rw [List.cons_append, EachCall, EachCall, ih, and_assoc]
    rfl

/-- A relation to the run of some calls alone is kept along the whole run. -/
theorem after_filter {R : σ → τ → Prop} {own : ι → Bool}
    (hown : ∀ s t i, R s t → own i = true → ok s i → R (step i s).2 (step' i t).2)
    (hothers : ∀ s t i, R s t → own i = false → ok s i → R (step i s).2 t)
    {s : σ} {t : τ} {is : List ι} (hR : R s t) (hok : EachCall step ok s is) :
    R (after step s is) (after step' t (is.filter own)) := by
  induction is generalizing s t with
  | nil => exact hR
  | cons i is ih =>
    obtain ⟨hi, hrest⟩ := hok
    cases ho : own i with
    | true =>
      rw [List.filter_cons_of_pos ho]
      exact ih (hown s t i hR ho hi) hrest
    | false =>
      rw [List.filter_cons_of_neg (by simp [ho])]
      exact ih (hothers s t i hR ho hi) hrest

/-- A run is allowed if and only if the part of each caller is allowed alone: every call is of one
caller at least, and what is allowed of it can be told from the state of any caller it is of. -/
theorem eachCall_iff_parts {κ : Type*} {ok' : τ → ι → Prop} {R : κ → σ → τ → Prop}
    {own : κ → ι → Bool} (hsome : ∀ i, ∃ a, own a i = true)
    (hok : ∀ a s t i, R a s t → own a i = true → (ok s i ↔ ok' t i))
    (hown : ∀ a s t i, R a s t → own a i = true → ok s i → R a (step i s).2 (step' i t).2)
    (hothers : ∀ a s t i, R a s t → own a i = false → ok s i → R a (step i s).2 t)
    {s : σ} {t : κ → τ} (is : List ι) (hR : ∀ a, R a s (t a)) :
    EachCall step ok s is ↔ ∀ a, EachCall step' ok' (t a) (is.filter (own a)) := by
  induction is generalizing s t with
  | nil => exact iff_of_true trivial fun _ => trivial
  | cons i is ih =>
    have hnext : ok s i → ∀ a, R a (step i s).2 (if own a i then (step' i (t a)).2 else t a) := by
      intro hi a
      cases ho : own a i with
      | true => exact hown a s (t a) i (hR a) ho hi
      | false => exact hothers a s (t a) i (hR a) ho hi
    constructor
    · rintro ⟨hi, hrest⟩ a
      have hpart := (ih (hnext hi)).mp hrest a
      cases ho : own a i with
      | true =>
        rw [List.filter_cons_of_pos ho]
        rw [ho, if_pos rfl] at hpart
        exact ⟨(hok a s (t a) i (hR a) ho).mp hi, hpart⟩
      | false =>
        rw [List.filter_cons_of_neg (by simp [ho])]
        rwa [ho, if_neg Bool.false_ne_true] at hpart
    · intro hparts
      obtain ⟨a, ha⟩ := hsome i
      have hfirst := hparts a
      rw [List.filter_cons_of_pos ha] at hfirst
      have hi := (hok a s (t a) i (hR a) ha).mpr hfirst.1
      refine ⟨hi, (ih (hnext hi)).mpr fun b => ?_⟩
      have hpart := hparts b
      cases ho : own b i with
      | true =>
        rw [List.filter_cons_of_pos ho] at hpart
        exact hpart.2
      | false =>
        rw [List.filter_cons_of_neg (by simp [ho])] at hpart
        exact hpart

end WorkTicket.AnsweredRuns
