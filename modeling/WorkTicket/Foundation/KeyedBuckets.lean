import WorkTicket.Foundation.AnsweredRuns

/-! Requests that take from several buckets of a table, one after the other, and stop at the first
bucket that denies them. The table of a run is compared with that of the run from which the
requests of the others were removed: only the buckets that the others have used differ, and these
hold less. -/

namespace WorkTicket.KeyedBuckets

open WorkTicket.AnsweredRuns

variable {κ β ρ ι τ : Type*} [DecidableEq κ]

abbrev Table (κ β : Type*) := κ → Option β

/-- One bucket that a request takes from, and what it is told when the bucket denies. -/
structure Check (κ β ρ : Type*) where
  key : κ
  take : Option β → Bool × β
  reason : ρ

def Check.left (c : Check κ β ρ) (s : Table κ β) : Table κ β :=
  Function.update s c.key (some (c.take (s c.key)).2)

/-- The key and the reason of the check that denies, if one does, and the table left. -/
def walk : List (Check κ β ρ) → Table κ β → Option (κ × ρ) × Table κ β
  | [], s => (none, s)
  | c :: cs, s =>
    if (c.take (s c.key)).1 then walk cs (c.left s) else (some (c.key, c.reason), c.left s)

/-- The checks made, each with the bucket that it found. -/
def made : List (Check κ β ρ) → Table κ β → List (Check κ β ρ × Option β)
  | [], _ => []
  | c :: cs, s => (c, s c.key) :: if (c.take (s c.key)).1 then made cs (c.left s) else []

theorem fst_mem_of_mem_made {cs : List (Check κ β ρ)} {s : Table κ β} {x : Check κ β ρ × Option β}
    (h : x ∈ made cs s) : x.1 ∈ cs := by
  induction cs generalizing s with
  | nil => cases h
  | cons c cs ih =>
    rcases List.mem_cons.mp h with rfl | h
    · exact List.mem_cons_self ..
    · split at h
      · exact List.mem_cons_of_mem _ (ih h)
      · cases h

section Guards

variable {σ α : Type*} {mk : Table κ β → σ} {op : σ → Bool × σ}
  {c : Check κ β ρ} {cs : List (Check κ β ρ)}

/-- A program that makes one check, if it is called for, and goes on unless it is denied. -/
def guarded (p : Prop) [Decidable p] (op : σ → Bool × σ) (denied : α) (next : σ → α × σ) (w : σ) :
    α × σ :=
  let r := if p then op w else (true, w)
  if !r.1 then (denied, r.2) else next r.2

theorem guarded_eq_walk (ans : Option (κ × ρ) → α) (next : σ → α × σ) (p : Prop) [Decidable p]
    (hop : ∀ s, op (mk s) = ((c.take (s c.key)).1, mk (c.left s)))
    (hnext : ∀ s, next (mk s) = (ans (walk cs s).1, mk (walk cs s).2)) (s : Table κ β) :
    guarded p op (ans (some (c.key, c.reason))) next (mk s) =
      (ans (walk ((if p then [c] else []) ++ cs) s).1,
        mk (walk ((if p then [c] else []) ++ cs) s).2) := by
  unfold guarded
  by_cases hp : p
  · simp only [hp, if_true, hop, List.cons_append, List.nil_append, walk]
    cases hok : (c.take (s c.key)).1 with
    | true => simpa using hnext _
    | false => simp
  · simpa [hp] using hnext s

end Guards

/-! ## Two tables -/

/-- On the keys `named` the tables are related, and equal where the others have used nothing. -/
def Apart (R : κ → Option β → Option β → Prop) (named : κ → Prop) (used : List κ)
    (s t : Table κ β) : Prop :=
  ∀ k, named k → R k (s k) (t k) ∧ (k ∉ used → s k = t k)

section Walks

variable {R : κ → Option β → Option β → Prop} {named : κ → Prop} {used : List κ}
  {cs : List (Check κ β ρ)} {c : Check κ β ρ} {s t : Table κ β}

omit [DecidableEq κ] in
theorem Apart.mono {used' : List κ} (h : Apart R named used s t) (hsub : used ⊆ used') :
    Apart R named used' s t :=
  fun k hk => ⟨(h k hk).1, fun hunused => (h k hk).2 fun hmem => hunused (hsub hmem)⟩

theorem Apart.left_left (h : Apart R named used s t)
    (hR : R c.key (some (c.take (s c.key)).2) (some (c.take (t c.key)).2))
    (heq : c.key ∉ used → s c.key = t c.key) : Apart R named used (c.left s) (c.left t) := by
  intro k hk
  by_cases hkey : k = c.key
  · subst hkey
    rw [Check.left, Check.left, Function.update_self, Function.update_self]
    exact ⟨hR, fun hunused => by rw [heq hunused]⟩
  · rw [Check.left, Check.left, Function.update_of_ne hkey, Function.update_of_ne hkey]
    exact h k hk

theorem Apart.left_used (h : Apart R named used s t)
    (hR : named c.key → R c.key (some (c.take (s c.key)).2) (t c.key)) :
    Apart R named (c.key :: used) (c.left s) t := by
  intro k hk
  by_cases hkey : k = c.key
  · subst hkey
    rw [Check.left, Function.update_self]
    exact ⟨hR hk, fun hunused => absurd (List.mem_cons_self ..) hunused⟩
  · rw [Check.left, Function.update_of_ne hkey]
    exact ⟨(h k hk).1, fun hunused => (h k hk).2 fun hmem => hunused (List.mem_cons_of_mem _ hmem)⟩

/-- A request that takes from the same buckets of both tables, and is not denied at one that the
others have used, is answered alike. -/
theorem Apart.walk
    (hcs : ∀ c ∈ cs, named c.key ∧ ∀ o o', R c.key o o' → (c.take o).1 = true ∨ o = o' →
      (c.take o').1 = (c.take o).1 ∧ R c.key (some (c.take o).2) (some (c.take o').2))
    (hdeny : ∀ k r, (walk cs s).1 = some (k, r) → k ∉ used) (h : Apart R named used s t) :
    (walk cs s).1 = (KeyedBuckets.walk cs t).1 ∧
      Apart R named used (KeyedBuckets.walk cs s).2 (KeyedBuckets.walk cs t).2 := by
  induction cs generalizing s t with
  | nil => exact ⟨rfl, h⟩
  | cons c cs ih =>
    obtain ⟨hnamed, htake⟩ := hcs c (List.mem_cons_self ..)
    obtain ⟨hR, heq⟩ := h c.key hnamed
    simp only [KeyedBuckets.walk] at hdeny ⊢
    cases hok : (c.take (s c.key)).1 with
    | true =>
      obtain ⟨hans, hleft⟩ := htake _ _ hR (.inl hok)
      rw [if_pos hok] at hdeny
      rw [if_pos rfl, if_pos (hans.trans hok)]
      exact ih (fun c hc => hcs c (List.mem_cons_of_mem _ hc)) hdeny (h.left_left hleft heq)
    | false =>
      rw [if_neg (by simp [hok])] at hdeny
      -- the bucket that denies is one that the others have not used, and so the same in both
      have hsame := heq (hdeny _ _ rfl)
      obtain ⟨hans, hleft⟩ := htake _ _ hR (.inr hsame)
      rw [if_neg Bool.false_ne_true, if_neg (by simp [hans, hok])]
      exact ⟨rfl, h.left_left hleft heq⟩

/-- A request of the others takes from the first table alone. -/
theorem Apart.walk_used
    (hcs : ∀ x ∈ made cs s, named x.1.key → ∀ o', R x.1.key x.2 o' →
      R x.1.key (some (x.1.take x.2).2) o') (h : Apart R named used s t) :
    Apart R named ((made cs s).map (·.1.key) ++ used) (KeyedBuckets.walk cs s).2 t := by
  induction cs generalizing s used with
  | nil => exact h
  | cons c cs ih =>
    simp only [made] at hcs
    have hhead := hcs (c, s c.key) (List.mem_cons_self ..)
    have hleft : Apart R named (c.key :: used) (c.left s) t :=
      h.left_used fun hnamed => hhead hnamed _ (h c.key hnamed).1
    simp only [KeyedBuckets.walk, made]
    cases hok : (c.take (s c.key)).1 with
    | true =>
      rw [if_pos rfl, if_pos rfl]
      rw [if_pos hok] at hcs
      have hrest := ih (fun x hx => hcs x (List.mem_cons_of_mem _ hx)) hleft
      refine hrest.mono fun k hk => ?_
      rcases List.mem_append.mp hk with hk | hk
      · exact List.mem_cons_of_mem _ (List.mem_append.mpr (.inl hk))
      · rcases List.mem_cons.mp hk with rfl | hk
        · exact List.mem_cons_self ..
        · exact List.mem_cons_of_mem _ (List.mem_append.mpr (.inr hk))
    | false => simpa using hleft

end Walks

/-! ## Refilling -/

/-- Who takes from a bucket leaves in it no more than it would have had later on. -/
theorem refill_le {α : Type*} [AddCommMonoid α] [LinearOrder α] [IsOrderedAddMonoid α]
    {burst tokens kept x y : α} (h : kept ≤ min burst (tokens + x)) :
    min burst (kept + y) ≤ min burst (tokens + (x + y)) := by
  refine min_le_min le_rfl ?_
  rw [← add_assoc]
  exact add_le_add_left (h.trans (min_le_right _ _)) y

/-! ## Runs -/

section Runs

variable (checks : ι → List (Check κ β ρ)) (time : ι → τ) (own : ι → Bool)

def request (i : ι) : Table κ β → Option (κ × ρ) × Table κ β := walk (checks i)

/-- A table beside what the observer of a run notes of it: the keys that the requests of the
others have used, and the time of the last request. -/
structure Watched (κ β τ : Type*) where
  table : Table κ β
  used : List κ
  last : τ

def watched (i : ι) (w : Watched κ β τ) : Option (κ × ρ) × Watched κ β τ :=
  let used := if own i then w.used else (made (checks i) w.table).map (·.1.key) ++ w.used
  ((walk (checks i) w.table).1, ⟨(walk (checks i) w.table).2, used, time i⟩)

/-- Times do not go back, no own request is denied at a bucket that the others have used, and a
request of the others finds every bucket `named` that it takes from in a state that is `fine`. -/
structure Undisturbing [Preorder τ] (named : κ → Prop) (fine : ι → Check κ β ρ → Option β → Prop)
    (w : Watched κ β τ) (i : ι) : Prop where
  time : w.last ≤ time i
  denied : own i = true → ∀ k r, (walk (checks i) w.table).1 = some (k, r) → k ∉ w.used
  found : own i = false → ∀ x ∈ made (checks i) w.table, named x.1.key → fine i x.1 x.2

variable {checks time own} {R : τ → κ → Option β → Option β → Prop} {named : κ → Prop}
  {fine : ι → Check κ β ρ → Option β → Prop}

variable (checks time own) in
theorem answers_watched (w : Watched κ β τ) (is : List ι) :
    answers (watched checks time own) w is = answers (request checks) w.table is := by
  induction is generalizing w with
  | nil => rfl
  | cons i is ih => exact congrArg _ (ih _)

/-- What the others have used of the buckets is all that an own request can notice of them. -/
theorem answers_request [Preorder τ] {s : Table κ β} {start : τ} {is : List ι}
    (htime : ∀ t t' k o o', t ≤ t' → R t k o o' → R t' k o o')
    (hown : ∀ i ∈ is, own i = true → ∀ c ∈ checks i, named c.key ∧ ∀ o o', R (time i) c.key o o' →
      (c.take o).1 = true ∨ o = o' →
        (c.take o').1 = (c.take o).1 ∧ R (time i) c.key (some (c.take o).2) (some (c.take o').2))
    (hothers : ∀ i, own i = false → ∀ c ∈ checks i, ∀ o o', fine i c o → R (time i) c.key o o' →
      R (time i) c.key (some (c.take o).2) o')
    (hs : ∀ k, named k → R start k (s k) (s k))
    (hrun : EachCall (watched checks time own)
      (Undisturbing checks time own named fine) ⟨s, [], start⟩ is) :
    (answers (request checks) s is).filter (fun a => own a.1) =
      answers (request checks) s (is.filter own) := by
  let related (w : Watched κ β τ) (t : Table κ β) := Apart (R w.last) named w.used w.table t
  have hlater : ∀ (w : Watched κ β τ) t i, related w t → w.last ≤ time i →
      Apart (R (time i)) named w.used w.table t :=
    fun w t i h hle k hk => ⟨htime _ _ _ _ _ hle (h k hk).1, (h k hk).2⟩
  have hstart : related ⟨s, [], start⟩ s := fun k hk => ⟨hs k hk, fun _ => rfl⟩
  rw [← answers_watched checks time own ⟨s, [], start⟩]
  refine answers_filter (R := related) ?_ ?_ hstart (hrun.and_forall fun i hi => hi)
  · rintro w t i h ho ⟨hok, hi⟩
    have hwalk := (hlater w t i h hok.time).walk (hown i hi ho) (hok.denied ho)
    refine ⟨hwalk.1, ?_⟩
    simpa only [related, watched, request, ho, if_true] using hwalk.2
  · rintro w t i h ho ⟨hok, -⟩
    have hwalk := (hlater w t i h hok.time).walk_used fun x hx hnamed o' =>
      hothers i ho x.1 (fst_mem_of_mem_made hx) x.2 o' (hok.found ho x hx hnamed)
    simpa only [related, watched, ho, Bool.false_eq_true, if_false] using hwalk

end Runs
end WorkTicket.KeyedBuckets
