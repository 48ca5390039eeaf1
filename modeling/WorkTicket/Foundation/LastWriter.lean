import Mathlib

/-! A register that is written by some of the events of a list: the value it has at the end is the
last one written, which need not be the one with the latest timestamp. -/

namespace WorkTicket.LastWriter

section
variable {ε α : Type*} (written : ε → Option α)

/-- The value that the events write last. -/
def lastWritten (es : List ε) : Option α := (es.filterMap written).getLast?

theorem lastWritten_concat (es : List ε) (e : ε) :
    lastWritten written (es ++ [e]) = (written e).or (lastWritten written es) := by
  rw [lastWritten, List.filterMap_append]
  cases h : written e with
  | none => simp [h, lastWritten]
  | some a => simp [h]

theorem lastWritten_map {β : Type*} (f : α → β) (es : List ε) :
    lastWritten (fun e => (written e).map f) es = (lastWritten written es).map f := by
  rw [lastWritten, lastWritten, ← List.map_filterMap, List.getLast?_map]

variable {written}

theorem mem_of_lastWritten {es : List ε} {a : α} (h : lastWritten written es = some a) :
    ∃ e ∈ es, written e = some a := by
  obtain ⟨e, he, ha⟩ := List.mem_filterMap.mp (List.mem_of_getLast? h)
  exact ⟨e, he, ha⟩

theorem lastWritten_eq_none {es : List ε} :
    lastWritten written es = none ↔ ∀ e ∈ es, written e = none := by
  rw [lastWritten, List.getLast?_eq_none_iff, List.filterMap_eq_nil_iff]

/-- The rule for a register: each event writes it or leaves it as it is. -/
theorem register_foldl {σ : Type*} (apply : σ → ε → σ) (register : σ → α)
    (h : ∀ s e, register (apply s e) = (written e).getD (register s)) (s : σ) (es : List ε) :
    register (es.foldl apply s) = (lastWritten written es).getD (register s) := by
  induction es using List.reverseRecOn with
  | nil => rfl
  | append_singleton es e ih =>
    rw [List.foldl_concat, h, ih, lastWritten_concat]
    cases written e <;> rfl

end

/-! ## By timestamp -/

section
variable {ε α τ : Type*} [LinearOrder τ] (time : ε → τ) (written : ε → Option α)

/-- What the latest of the writing events writes. -/
def latestWritten (es : List ε) : Option α :=
  ((es.filter fun e => (written e).isSome).argmax time).bind written

variable {time written} {es es' : List ε}

theorem argmax_perm (hperm : es.Perm es') (hinj : Set.InjOn time {e | e ∈ es}) :
    es.argmax time = es'.argmax time := by
  classical
  have hsame : ∀ {l : List ε}, l.Perm es → ∀ m, m ∈ l.argmax time ↔
      m ∈ es ∧ ∀ a ∈ es, time a ≤ time m := by
    intro l hl m
    rw [List.mem_argmax_iff, hl.mem_iff]
    constructor
    · rintro ⟨hm, hmax, -⟩
      exact ⟨hm, fun a ha => hmax a (hl.mem_iff.mpr ha)⟩
    · rintro ⟨hm, hmax⟩
      refine ⟨hm, fun a ha => hmax a (hl.mem_iff.mp ha), fun a ha hle => ?_⟩
      -- no other event has the timestamp
      have hmem := hl.mem_iff.mp ha
      rw [hinj hm hmem (le_antisymm hle (hmax a hmem))]
  refine Option.ext fun m => ?_
  rw [← Option.mem_def, ← Option.mem_def, hsame (List.Perm.refl es), hsame hperm.symm]

/-- It does not depend on the order of the events, if their timestamps differ. -/
theorem latestWritten_perm (hperm : es.Perm es') (htimes : (es.map time).Nodup) :
    latestWritten time written es = latestWritten time written es' := by
  rw [latestWritten, latestWritten, argmax_perm (hperm.filter _)]
  exact fun e he e' he' => List.inj_on_of_nodup_map htimes (List.mem_of_mem_filter he)
    (List.mem_of_mem_filter he')

theorem mem_of_latestWritten {a : α} (h : latestWritten time written es = some a) :
    ∃ e ∈ es, written e = some a := by
  obtain ⟨e, he, ha⟩ := Option.bind_eq_some_iff.mp h
  exact ⟨e, List.mem_of_mem_filter (List.argmax_mem he), ha⟩

theorem latestWritten_eq_none :
    latestWritten time written es = none ↔ ∀ e ∈ es, written e = none := by
  constructor
  · intro h e he
    cases hmax : (es.filter fun e => (written e).isSome).argmax time with
    | none =>
      have hnil := List.filter_eq_nil_iff.mp (List.argmax_eq_none.mp hmax) e he
      simpa using hnil
    | some m =>
      have hm := List.of_mem_filter (List.argmax_mem (Option.mem_def.mpr hmax))
      rw [latestWritten, hmax, Option.bind_some] at h
      simp [h] at hm
  · intro h
    have hnil : (es.filter fun e => (written e).isSome) = [] :=
      List.filter_eq_nil_iff.mpr fun e he => by simp [h e he]
    rw [latestWritten, hnil]
    rfl

/-- Whatever the register held before, it ends with the latest value just when that is the one
written last. -/
theorem lastWritten_getD_eq_iff (hperm : es.Perm es') (a : α) :
    (lastWritten written es).getD a = (latestWritten time written es').getD a ↔
      lastWritten written es = latestWritten time written es' := by
  cases hlast : lastWritten written es with
  | none =>
    have hnone := lastWritten_eq_none.mp hlast
    have hlatest : latestWritten time written es' = none :=
      latestWritten_eq_none.mpr fun e he => hnone e (hperm.mem_iff.mpr he)
    rw [hlatest]
    exact iff_of_true rfl rfl
  | some b =>
    cases hlatest : latestWritten time written es' with
    | none =>
      obtain ⟨e, he, hb⟩ := mem_of_lastWritten hlast
      rw [latestWritten_eq_none.mp hlatest e (hperm.mem_iff.mp he)] at hb
      cases hb
    | some c => simp

end

end WorkTicket.LastWriter
