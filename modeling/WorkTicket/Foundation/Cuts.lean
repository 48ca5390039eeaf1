import Mathlib.Data.List.Infix
import Mathlib.Data.List.Nodup
import Mathlib.Data.List.Pairwise

/-! Words cut out of a text, one word after the other: which texts still have one of the words when
all are cut, because a cut has put it together. -/

namespace WorkTicket.Cuts

variable {α : Type*}

section
variable [DecidableEq α]

/-- `u.replace(t, "")`, after `skip` more symbols of a `t` that was found. -/
def removeFrom (t : List α) : ℕ → List α → List α
  | _, [] => []
  | skip + 1, _ :: u => removeFrom t skip u
  | 0, c :: u => if t <+: c :: u then removeFrom t (t.length - 1) u else c :: removeFrom t 0 u

def remove (t u : List α) : List α := removeFrom t 0 u

end

/-! ## One word -/

attribute [grind =] removeFrom remove

section
variable [DecidableEq α] {t u v x a b : List α} {c : α}

@[simp] theorem remove_nil (t : List α) : remove t [] = [] := by
  rw [remove, removeFrom]

theorem removeFrom_length (v : List α) : removeFrom t v.length (v ++ u) = remove t u := by
  induction v with
  | nil => rfl
  | cons c v ih => exact ih

theorem remove_append_self (ht : t ≠ []) : remove t (t ++ u) = remove t u := by
  cases t with
  | nil => exact absurd rfl ht
  | cons c t =>
    have hfound : c :: t <+: c :: (t ++ u) := List.prefix_append (c :: t) u
    rw [List.cons_append, remove, removeFrom, if_pos hfound]
    exact removeFrom_length t

theorem remove_cons (h : ¬t <+: c :: u) : remove t (c :: u) = c :: remove t u := by
  rw [remove, removeFrom, if_neg h, remove]

/-- A text is read by words that are cut and symbols that stay. -/
theorem remove_induction (ht : t ≠ []) {motive : List α → Prop} (nil : motive [])
    (cut : ∀ u, motive u → motive (t ++ u))
    (keep : ∀ c u, ¬t <+: c :: u → motive u → motive (c :: u)) (u : List α) : motive u := by
  induction hlength : u.length using Nat.strong_induction_on generalizing u with
  | _ n ih =>
    subst hlength
    cases u with
    | nil => exact nil
    | cons c u =>
      by_cases hfound : t <+: c :: u
      · obtain ⟨rest, hrest⟩ := hfound
        have hpos := List.length_pos_of_ne_nil ht
        have hshorter : rest.length < (c :: u).length := by
          rw [← hrest, List.length_append]
          omega
        rw [← hrest]
        exact cut rest (ih _ hshorter rest rfl)
      · exact keep c u hfound (ih _ (by simp) u rfl)

theorem remove_sublist (ht : t ≠ []) (u : List α) : (remove t u).Sublist u := by
  induction u using remove_induction ht with
  | nil => simp
  | cut u ih =>
    rw [remove_append_self ht]
    exact ih.trans (List.sublist_append_right t u)
  | keep c u hcons ih =>
    rw [remove_cons hcons]
    exact ih.cons_cons c

/-- What is cut of a text is cut of its two parts, if no word begins in the first and ends in the
second. -/
theorem remove_append (ht : t ≠ [])
    (h : ∀ z, z <:+ t → z ≠ [] → z ≠ t → ¬z <+: v) (x : List α) :
    remove t (x ++ v) = remove t x ++ remove t v := by
  induction x using remove_induction ht with
  | nil => simp
  | cut x ih => rw [List.append_assoc, remove_append_self ht, ih, remove_append_self ht]
  | keep c x hcons ih =>
    -- a word that is found only with `v` behind ends in `v`
    have hacross : ¬t <+: c :: (x ++ v) := by
      intro hfound
      rcases List.prefix_or_prefix_of_prefix hfound (List.prefix_append (c :: x) v) with
        hin | ⟨z, hz⟩
      · exact hcons hin
      · have hend : z <+: v := by
          rw [← hz, ← List.cons_append, List.prefix_append_right_inj] at hfound
          exact hfound
        have hproper : z ≠ t := by
          intro heq
          have hlength := congrArg List.length hz
          rw [heq, List.length_append, List.length_cons] at hlength
          omega
        have hne : z ≠ [] := by
          rintro rfl
          rw [List.append_nil] at hz
          exact hcons (hz ▸ List.prefix_refl t)
        exact h z ⟨c :: x, hz⟩ hne hproper hend
    rw [List.cons_append, remove_cons hacross, ih, remove_cons hcons, List.cons_append]

/-- `u` is `a` with copies of `t` put before some of its symbols, before the first only with
`true`. -/
inductive Inserted (t : List α) : Bool → List α → List α → Prop
  | nil {gap : Bool} : Inserted t gap [] []
  | keep {gap : Bool} {a u : List α} (c : α) :
      Inserted t true a u → Inserted t gap (c :: a) (c :: u)
  | cut {a u : List α} : a ≠ [] → Inserted t true a u → Inserted t true a (t ++ u)

theorem inserted_of_remove (ht : t ≠ []) (h : remove t u = a ++ b) :
    ∃ v rest, u = v ++ rest ∧ Inserted t true a v ∧ remove t rest = b := by
  induction u using remove_induction ht generalizing a with
  | nil =>
    obtain ⟨rfl, rfl⟩ : a = [] ∧ b = [] := by simpa using h
    exact ⟨[], [], rfl, .nil, remove_nil t⟩
  | cut u ih =>
    rw [remove_append_self ht] at h
    by_cases ha : a = []
    · subst ha
      exact ⟨[], t ++ u, rfl, .nil, by rw [remove_append_self ht, h, List.nil_append]⟩
    · obtain ⟨v, rest, rfl, hv, hrest⟩ := ih h
      exact ⟨t ++ v, rest, (List.append_assoc t v rest).symm, .cut ha hv, hrest⟩
  | keep c u hcons ih =>
    cases a with
    | nil => exact ⟨[], c :: u, rfl, .nil, by rw [h, List.nil_append]⟩
    | cons d a =>
      rw [remove_cons hcons, List.cons_append, List.cons.injEq] at h
      obtain ⟨rfl, h⟩ := h
      obtain ⟨v, rest, rfl, hv, hrest⟩ := ih h
      exact ⟨c :: v, rest, rfl, .keep c hv, hrest⟩

/-- Where the first symbol that stays was. -/
theorem exists_suffix_of_remove_cons (ht : t ≠ []) (h : remove t u = c :: b) :
    ∃ v, c :: v <:+ u ∧ ¬t <+: c :: v ∧ remove t v = b := by
  induction u using remove_induction ht with
  | nil => simp at h
  | cut u ih =>
    rw [remove_append_self ht] at h
    obtain ⟨v, hsuffix, hv⟩ := ih h
    exact ⟨v, hsuffix.trans (List.suffix_append t u), hv⟩
  | keep d u hcons ih =>
    rw [remove_cons hcons, List.cons.injEq] at h
    obtain ⟨rfl, h⟩ := h
    exact ⟨u, List.suffix_refl _, hcons, h⟩

/-- Where a stretch of what stays was. -/
theorem exists_infix_of_remove (ht : t ≠ []) (h : c :: a <:+: remove t u) :
    ∃ v rest, c :: v <:+: u ∧ Inserted t false (c :: a) (c :: v) ∧ ¬t <+: c :: v ++ rest ∧
      remove t (c :: v ++ rest) = c :: a ++ remove t rest := by
  obtain ⟨x, b, hx⟩ := h
  rw [List.append_assoc] at hx
  obtain ⟨before, after, rfl, -, hafter⟩ := inserted_of_remove ht hx.symm
  obtain ⟨rest, hsuffix, hcons, hrest⟩ := exists_suffix_of_remove_cons ht hafter
  obtain ⟨v, rest, rfl, hv, hb⟩ := inserted_of_remove ht hrest
  refine ⟨v, rest, ?_, .keep c hv, hcons, ?_⟩
  · have hfound : c :: v <+: c :: (v ++ rest) := List.prefix_append (c :: v) rest
    exact (hfound.isInfix.trans hsuffix.isInfix).trans (List.suffix_append before after).isInfix
  · rw [List.cons_append, remove_cons hcons, hrest, hb]
    rfl

end

section
variable {t u v a b : List α} {c : α} {gap : Bool}

theorem Inserted.eq_nil (h : Inserted t gap [] u) : u = [] := by
  cases h with
  | nil => rfl
  | cut hne h => exact absurd rfl hne

theorem Inserted.to_open (h : Inserted t gap a u) : Inserted t true a u := by
  cases h with
  | nil => exact .nil
  | keep c h => exact .keep c h
  | cut hne h => exact .cut hne h

theorem Inserted.append (h : Inserted t gap a u) (hb : Inserted t true b v) :
    Inserted t true (a ++ b) (u ++ v) := by
  induction h with
  | nil => exact hb
  | keep c h ih => exact .keep c ih
  | cut hne h ih =>
    rw [List.append_assoc]
    exact .cut (List.append_ne_nil_of_left_ne_nil hne b) ih

theorem Inserted.of_append (h : Inserted t gap (a ++ b) u) :
    ∃ v w, u = v ++ w ∧ Inserted t gap a v ∧ Inserted t true b w := by
  generalize hab : a ++ b = whole at h
  induction h generalizing a with
  | nil =>
    obtain ⟨rfl, rfl⟩ : a = [] ∧ b = [] := by simpa using hab
    exact ⟨[], [], rfl, .nil, .nil⟩
  | @keep gap rest u c h ih =>
    cases a with
    | nil =>
      rw [List.nil_append] at hab
      subst hab
      exact ⟨[], c :: u, rfl, .nil, .keep c h⟩
    | cons d a =>
      rw [List.cons_append, List.cons.injEq] at hab
      obtain ⟨rfl, hab⟩ := hab
      obtain ⟨v, w, rfl, hv, hw⟩ := ih hab
      exact ⟨d :: v, w, rfl, .keep d hv, hw⟩
  | @cut rest u hne h ih =>
    by_cases ha : a = []
    · subst ha
      rw [List.nil_append] at hab
      subst hab
      exact ⟨[], t ++ u, rfl, .nil, .cut hne h⟩
    · obtain ⟨v, w, rfl, hv, hw⟩ := ih hab
      exact ⟨t ++ v, w, (List.append_assoc t v w).symm, .cut ha hv, hw⟩

/-- The copies before the first symbol are taken off one after the other. -/
theorem Inserted.strip {P : List α → Prop} (h : Inserted t gap (c :: a) u)
    (hkeep : ∀ v, Inserted t false (c :: a) v → P v) (hcut : ∀ v, P v → P (t ++ v)) : P u := by
  generalize hca : c :: a = whole at h
  induction h with
  | nil => cases hca
  | keep d h ih =>
    rw [List.cons.injEq] at hca
    obtain ⟨rfl, rfl⟩ := hca
    exact hkeep _ (.keep c h)
  | cut hne h ih => exact hcut _ (ih hca)

end

/-! ## Words with other words in them -/

section
variable (tokens : List (List α))

/-- `w` is `t` with words put between its symbols, with `true` before the first too: tokens from
`first` to below `limit`, each of which has in it only words that come before it. -/
inductive Woven (first : ℕ) : Bool → ℕ → List α → List α → Prop
  | last {limit : ℕ} (c : α) : Woven first false limit [c] [c]
  | next {limit : ℕ} {t w : List α} (c : α) :
      Woven first true limit t w → Woven first false limit (c :: t) (c :: w)
  | here {limit : ℕ} {t w : List α} : Woven first false limit t w → Woven first true limit t w
  | piece {limit b : ℕ} {s t v w : List α} : tokens[b]? = some s → first ≤ b → b < limit →
      Woven first false b s v → Woven first true limit t w → Woven first true limit t (v ++ w)

variable [DecidableEq α]

/-- A token begins with the symbol. -/
def begins (c : α) : Bool := tokens.any (·.head? = some c)

/-- The words differ before either ends, and until then no token begins within the first. -/
def diverges : List α → List α → Bool
  | a :: z, b :: t => a ≠ b || (z.head?.any (!begins tokens ·) && diverges z t)
  | _, _ => false

attribute [grind =] diverges

/-- No token begins with another, and no end of a token is the start of one. -/
structure Apart : Prop where
  ne_nil : ∀ t ∈ tokens, t ≠ []
  prefixFree : tokens.Pairwise fun s t => ¬s <+: t ∧ ¬t <+: s
  diverges : ∀ s ∈ tokens, ∀ z ∈ s.tail.tails, z ≠ [] → ∀ t ∈ tokens, diverges tokens z t = true

end

section
variable {tokens : List (List α)} {first limit : ℕ} {gap : Bool} {s t v w y z : List α}

theorem Woven.exists_cons (h : Woven tokens first false limit t w) :
    ∃ c t' w', t = c :: t' ∧ w = c :: w' := by
  cases h with
  | last c => exact ⟨c, [], [], rfl, rfl⟩
  | next c h => exact ⟨c, _, _, rfl, rfl⟩

theorem Woven.ne_nil (h : Woven tokens first gap limit t w) : t ≠ [] ∧ w ≠ [] := by
  induction h with
  | last c => exact ⟨List.cons_ne_nil c [], List.cons_ne_nil c []⟩
  | next c h ih => exact ⟨List.cons_ne_nil c _, List.cons_ne_nil c _⟩
  | here h ih => exact ih
  | piece hs hfirst hlimit hv h ihv ih =>
    exact ⟨ih.1, List.append_ne_nil_of_right_ne_nil _ ih.2⟩

theorem Woven.plain (ht : t ≠ []) : Woven tokens first false limit t t := by
  induction t with
  | nil => exact absurd rfl ht
  | cons c t ih =>
    cases t with
    | nil => exact .last c
    | cons d t => exact .next c (.here (ih (List.cons_ne_nil d t)))

/-- Nothing is between the symbols if there is no token for it. -/
theorem Woven.eq_of_le (h : Woven tokens first gap limit t w) (hle : limit ≤ first) : w = t := by
  induction h with
  | last c => rfl
  | next c h ih => rw [ih hle]
  | here h ih => exact ih hle
  | piece hs hfirst hlimit hv h ihv ih => omega

variable [DecidableEq α]

theorem begins_of_mem {c : α} (ht : c :: t ∈ tokens) : begins tokens c = true :=
  List.any_eq_true.mpr ⟨c :: t, ht, by simp⟩

theorem not_prefix_of_diverges (h : diverges tokens z t = true) : ¬z <+: t ∧ ¬t <+: z := by
  induction z generalizing t with
  | nil => simp [diverges] at h
  | cons a z ih =>
    cases t with
    | nil => simp [diverges] at h
    | cons b t =>
      by_cases hab : a = b
      · subst hab
        simp only [diverges, ne_eq, not_true_eq_false, decide_false, Bool.false_or,
          Bool.and_eq_true] at h
        simpa only [List.prefix_cons_inj] using ih h.2
      · simp [List.cons_prefix_cons, hab, Ne.symm hab]

/-- A word that diverges from a token does not begin like the token with other words in it. -/
theorem Woven.not_start (h : Woven tokens first gap limit t w)
    (hz : diverges tokens z t = true)
    (hgap : gap = true → z.head?.any (!begins tokens ·) = true) : ¬z <+: w ++ y := by
  induction h generalizing z y with
  | last c =>
    cases z with
    | nil => simp [diverges] at hz
    | cons a z =>
      have hac : a ≠ c := by simpa [diverges] using hz
      simp [List.cons_prefix_cons, hac]
  | next c h ih =>
    cases z with
    | nil => simp [diverges] at hz
    | cons a z =>
      by_cases hac : a = c
      · subst hac
        simp only [diverges, ne_eq, not_true_eq_false, decide_false, Bool.false_or,
          Bool.and_eq_true] at hz
        rw [List.cons_append, List.prefix_cons_inj]
        exact ih hz.2 fun _ => hz.1
      · simp [List.cons_prefix_cons, hac]
  | here h ih => exact ih hz fun hfalse => by cases hfalse
  | piece hs hfirst hlimit hv h ihv ih =>
    -- the gap begins as a token does, and `z` does not
    obtain ⟨c, s, v, rfl, rfl⟩ := hv.exists_cons
    have hc := begins_of_mem (List.mem_of_getElem? hs)
    have hhead := hgap rfl
    cases z with
    | nil => simp at hhead
    | cons a z =>
      have hac : a ≠ c := by
        rintro rfl
        simp [hc] at hhead
      simp [List.cons_prefix_cons, hac]

/-- A word whose ends diverge from the tokens is not found across the words in between. -/
theorem Woven.prefix_cases {o : List α} (h : Woven tokens first gap limit t w)
    (ho : ∀ z, z <:+ o → z ≠ [] → (gap = false → z ≠ o) → ∀ s ∈ tokens, diverges tokens z s = true)
    (hfound : o <+: w ++ y) : (o <+: t ∧ o ≠ t) ∨ (t <+: o ∧ w = t) := by
  induction h generalizing o y with
  | last c =>
    cases o with
    | nil => simp
    | cons d o =>
      rw [List.cons_append, List.cons_prefix_cons] at hfound
      simp [hfound.1]
  | @next limit t w c h ih =>
    cases o with
    | nil => simp
    | cons d o =>
      rw [List.cons_append, List.cons_prefix_cons] at hfound
      obtain ⟨rfl, hfound⟩ := hfound
      have hends : ∀ z, z <:+ o → z ≠ [] → (true = false → z ≠ o) →
          ∀ s ∈ tokens, diverges tokens z s = true := by
        intro z hz hne _
        apply ho z (hz.trans (List.suffix_cons d o)) hne
        rintro _ rfl
        have hle := hz.length_le
        rw [List.length_cons] at hle
        omega
      rcases ih hends hfound with ⟨hstart, hne⟩ | ⟨hstart, rfl⟩
      · exact .inl ⟨by rwa [List.prefix_cons_inj], by simpa using hne⟩
      · exact .inr ⟨by rwa [List.prefix_cons_inj], rfl⟩
  | here h ih =>
    exact ih (fun z hz hne _ => ho z hz hne fun hfalse => by cases hfalse) hfound
  | piece hs hfirst hlimit hv h ihv ih =>
    by_cases hne : o = []
    · subst hne
      exact .inl ⟨ List.nil_prefix, h.ne_nil.1.symm⟩
    · -- what is left of `o` would be the start of the token in the gap
      have hdiverges := ho o (List.suffix_refl o) hne (fun hfalse => by cases hfalse) _
        (List.mem_of_getElem? hs)
      rw [List.append_assoc] at hfound
      exact absurd hfound (hv.not_start hdiverges fun hfalse => by cases hfalse)

end

section
variable [DecidableEq α] {tokens : List (List α)} {first limit i j : ℕ} {gap : Bool}
  {o s t u v w y z : List α}

theorem Apart.diverges_suffix (h : Apart tokens) (hs : s ∈ tokens) (hz : z <:+ s) (hne : z ≠ [])
    (hproper : z ≠ s) (ht : t ∈ tokens) : Cuts.diverges tokens z t = true := by
  cases s with
  | nil => exact absurd (List.suffix_nil.mp hz) hne
  | cons c s =>
    rcases List.suffix_cons_iff.mp hz with heq | htail
    · exact absurd heq hproper
    · exact h.diverges _ hs z ((List.mem_tails z s).mpr htail) hne t ht

theorem Apart.eq_of_start (h : Apart tokens) (hs : s ∈ tokens) (ht : t ∈ tokens)
    (hfound : s <+: t) : s = t := by
  have hsymm : Std.Symm fun s t : List α => ¬s <+: t ∧ ¬t <+: s := ⟨fun _ _ hst => hst.symm⟩
  by_contra hne
  exact (h.prefixFree.forall hs ht hne).1 hfound

theorem Apart.index_inj (h : Apart tokens) (hi : tokens[i]? = some s) (hj : tokens[j]? = some s) :
    i = j := by
  have hnodup : tokens.Nodup := by
    apply h.prefixFree.imp
    rintro s t ⟨hst, -⟩ rfl
    exact hst (List.prefix_refl s)
  obtain ⟨hlt, -⟩ := List.getElem?_eq_some_iff.mp hi
  exact (List.getElem?_inj hlt hnodup).mp (hi.trans hj.symm)

/-- A token is found at the start of the end of a token with words in it only if that is the token
and has none. -/
theorem Apart.eq_of_start_woven (h : Apart tokens) (ho : o ∈ tokens) (hs : s ∈ tokens)
    (ht : t <:+ s) (hw : Woven tokens first false limit t w) (hfound : o <+: w ++ y) :
    t = o ∧ w = o := by
  have hwhole : t <+: o ∨ o <+: t → t = o := by
    intro hstart
    by_cases hts : t = s
    · subst hts
      rcases hstart with hstart | hstart
      · exact h.eq_of_start hs ho hstart
      · exact (h.eq_of_start ho hs hstart).symm
    · have hdiverges := h.diverges_suffix hs ht hw.ne_nil.1 hts ho
      rcases hstart with hstart | hstart
      · exact absurd hstart (not_prefix_of_diverges hdiverges).1
      · exact absurd hstart (not_prefix_of_diverges hdiverges).2
  have hends : ∀ z, z <:+ o → z ≠ [] → (false = false → z ≠ o) →
      ∀ s ∈ tokens, Cuts.diverges tokens z s = true :=
    fun z hz hne hproper s hs => h.diverges_suffix ho hz hne (hproper rfl) hs
  rcases hw.prefix_cases hends hfound with ⟨hstart, hne⟩ | ⟨hstart, rfl⟩
  · exact absurd (hwhole (.inr hstart)).symm hne
  · exact ⟨hwhole (.inl hstart), hwhole (.inl hstart)⟩

/-! ## One cut -/

/-- The cut of a token takes it out of the words in which it is, and leaves the rest. -/
theorem Apart.remove_woven (h : Apart tokens) (hj : tokens[j]? = some o)
    (hw : Woven tokens j gap limit t w) (hs : s ∈ tokens) (ht : t <:+ s)
    (hproper : gap = true → t ≠ s) (hplain : gap = false → t = o → w ≠ o) :
    Woven tokens (j + 1) gap limit t (remove o w) ∧ Inserted o gap (remove o w) w ∧
      ∀ y, remove o (w ++ y) = remove o w ++ remove o y := by
  have ho := List.mem_of_getElem? hj
  induction hw generalizing s with
  | last c =>
    -- what is found here is the whole of `t`, without any word in it
    have hlast : Woven tokens j false 0 [c] [c] := .last c
    have hcons : ∀ y, ¬o <+: c :: y := by
      intro y hfound
      have heq := h.eq_of_start_woven ho hs ht hlast hfound
      exact hplain rfl heq.1 heq.2
    have hone : remove o [c] = [c] := by rw [remove_cons (hcons []), remove_nil]
    rw [hone]
    exact ⟨.last c, .keep c .nil, fun y => remove_cons (hcons y)⟩
  | @next limit t w c hw ih =>
    have hcons : ∀ y, ¬o <+: c :: (w ++ y) := by
      intro y hfound
      have heq := h.eq_of_start_woven ho hs ht (.next c hw) hfound
      exact hplain rfl heq.1 heq.2
    have hshorter : t ≠ s := by
      rintro rfl
      have hle := ht.length_le
      rw [List.length_cons] at hle
      omega
    obtain ⟨hrest, hcopies, happend⟩ := ih hs ((List.suffix_cons c t).trans ht)
      (fun _ => hshorter) fun hfalse => by cases hfalse
    have hone : remove o (c :: w) = c :: remove o w := by
      have hnone := hcons []
      rw [List.append_nil] at hnone
      exact remove_cons hnone
    rw [hone]
    refine ⟨.next c hrest, .keep c hcopies, fun y => ?_⟩
    rw [List.cons_append, remove_cons (hcons y), happend, List.cons_append]
  | here hw ih =>
    have hend := not_prefix_of_diverges (h.diverges_suffix hs ht hw.ne_nil.1 (hproper rfl) ho)
    obtain ⟨hrest, hcopies, happend⟩ := ih hs ht (fun hfalse => by cases hfalse) fun _ heq =>
      absurd (heq ▸ List.prefix_refl o) hend.1
    exact ⟨.here hrest, hcopies.to_open, happend⟩
  | @piece limit b piece t v w hpiece hfirst hlimit hv hw ihv ih =>
    obtain ⟨hrest, hcopies, happend⟩ := ih hs ht hproper fun hfalse => by cases hfalse
    by_cases hb : b = j
    · -- the word in the gap has none in it that is left, so it is the token itself
      subst hb
      obtain rfl : piece = o := Option.some.inj (hpiece.symm.trans hj)
      obtain rfl := hv.eq_of_le le_rfl
      have hne := h.ne_nil _ ho
      rw [remove_append_self hne]
      refine ⟨hrest, .cut hrest.ne_nil.2 hcopies, fun y => ?_⟩
      rw [List.append_assoc, remove_append_self hne, happend]
    · have hother : false = false → piece = o → v ≠ o := by
        rintro - rfl
        exact absurd (h.index_inj hpiece hj) hb
      obtain ⟨hcut, hcopies', hcuts⟩ := ihv (List.mem_of_getElem? hpiece)
        (List.suffix_refl piece) (fun hfalse => by cases hfalse) hother
      rw [hcuts]
      refine ⟨.piece hpiece (by omega) hlimit hcut hrest, hcopies'.append hcopies,
        fun y => ?_⟩
      rw [List.append_assoc, hcuts, happend, List.append_assoc]

omit [DecidableEq α] in
/-- The copies of a token that are put back are words in between. -/
theorem Woven.insert (hw : Woven tokens (j + 1) gap limit t w) (hj : tokens[j]? = some o)
    (ho : o ≠ []) (hlimit : j < limit) (hu : Inserted o gap w u) :
    Woven tokens j gap limit t u := by
  induction hw generalizing u with
  | last c =>
    cases hu with
    | keep c hu =>
      rw [hu.eq_nil]
      exact .last c
  | next c hw ih =>
    cases hu with
    | keep c hu => exact .next c (ih hlimit hu)
  | here hw ih =>
    obtain ⟨c, t, w, rfl, rfl⟩ := hw.exists_cons
    apply hu.strip
    · exact fun v hv => .here (ih hlimit hv)
    · exact fun v hv => .piece hj le_rfl hlimit (.plain ho) hv
  | @piece limit b piece t v w hpiece hfirst hlimit' hv hw ihv ih =>
    obtain ⟨v', w', rfl, hv', hw'⟩ := hu.of_append
    obtain ⟨c, t, v, rfl, rfl⟩ := hv.exists_cons
    apply hv'.strip (P := fun v' => Woven tokens j true limit _ (v' ++ w'))
    · intro v' hv'
      exact .piece hpiece (by omega) hlimit' (ihv (by omega) hv') (ih hlimit hw')
    · intro v' hrest
      rw [List.append_assoc]
      exact .piece hj le_rfl hlimit (.plain ho) hrest

/-! ## All cuts -/

/-- A stretch of the text is a token with words in it that are cut by the tokens from `first` on,
not all of them before the token itself is. -/
def Reassembles (tokens : List (List α)) (first : ℕ) (u : List α) : Prop :=
  ∃ i s w, tokens[i]? = some s ∧ w <:+: u ∧ Woven tokens first false tokens.length s w ∧
    (first ≤ i → ¬Woven tokens first false i s w)

/-- The cut of the first token takes it out of what is put together later. -/
theorem Reassembles.remove (h : Apart tokens) (hj : tokens[j]? = some o)
    (hu : Reassembles tokens j u) : Reassembles tokens (j + 1) (remove o u) := by
  obtain ⟨i, s, w, hi, ⟨x, y, rfl⟩, hw, hlate⟩ := hu
  have ho := List.mem_of_getElem? hj
  have hs := List.mem_of_getElem? hi
  have hplain : false = false → s = o → w ≠ o := by
    rintro - rfl rfl
    obtain rfl := h.index_inj hi hj
    exact hlate le_rfl (.plain (h.ne_nil _ ho))
  obtain ⟨hrest, hcopies, happend⟩ := h.remove_woven hj hw hs (List.suffix_refl s)
    (fun hfalse => by cases hfalse) hplain
  refine ⟨i, s, Cuts.remove o w, hi, ?_, hrest, ?_⟩
  · have hends : ∀ z, z <:+ o → z ≠ [] → z ≠ o → ¬z <+: w ++ y :=
      fun z hz hne hproper => hw.not_start (h.diverges_suffix ho hz hne hproper hs)
        fun hfalse => by cases hfalse
    rw [List.append_assoc, remove_append (h.ne_nil o ho) hends, happend]
    exact ⟨_, _, List.append_assoc _ _ _⟩
  · intro hfirst hearly
    exact hlate (by omega) (hearly.insert hj (h.ne_nil o ho) hfirst hcopies)

/-- What is put together after a cut was there before it, with the copies that were cut. -/
theorem Reassembles.of_remove (h : Apart tokens) (hj : tokens[j]? = some o)
    (hu : Reassembles tokens (j + 1) (Cuts.remove o u)) : Reassembles tokens j u := by
  obtain ⟨i, s, w, hi, hinside, hw, hlate⟩ := hu
  obtain ⟨hlt, -⟩ := List.getElem?_eq_some_iff.mp hj
  have hne := h.ne_nil o (List.mem_of_getElem? hj)
  obtain ⟨c, t, a, rfl, rfl⟩ := hw.exists_cons
  obtain ⟨v, rest, hv, hcopies, hnone, hrest⟩ := exists_infix_of_remove hne hinside
  refine ⟨i, c :: t, c :: v, hi, hv, hw.insert hj hne hlt hcopies, ?_⟩
  intro hfirst hearly
  have hother : c :: t = o → c :: v ≠ o := by
    rintro - rfl
    exact hnone (List.prefix_append _ rest)
  by_cases hij : i = j
  · -- whole at its own turn it would have been cut
    subst hij
    obtain rfl : c :: t = o := Option.some.inj (hi.symm.trans hj)
    exact hother rfl (hearly.eq_of_le le_rfl)
  · obtain ⟨hcut, -, happend⟩ := h.remove_woven hj hearly (List.mem_of_getElem? hi)
      (List.suffix_refl _) (fun hfalse => by cases hfalse) fun _ => hother
    rw [happend, List.append_cancel_right_eq] at hrest
    rw [hrest] at hcut
    exact hlate (by omega) hcut

/-- All tokens cut out of a text, one after the other. -/
def removeAll (tokens : List (List α)) (u : List α) : List α :=
  tokens.foldl (fun u t => remove t u) u

theorem removeAll_sublist (h : Apart tokens) (u : List α) : (removeAll tokens u).Sublist u := by
  have hne := h.ne_nil
  clear h
  induction tokens generalizing u with
  | nil => exact List.Sublist.refl u
  | cons t tokens ih =>
    have hrest := ih (remove t u) fun s hs => hne s (List.mem_cons_of_mem t hs)
    exact hrest.trans (remove_sublist (hne t List.mem_cons_self) u)

theorem reassembles_take_iff (h : Apart tokens) (hj : j ≤ tokens.length) :
    Reassembles tokens j (removeAll (tokens.take j) u) ↔ Reassembles tokens 0 u := by
  induction j with
  | zero => rw [List.take_zero]; rfl
  | succ j ih =>
    have ho : tokens[j]? = some tokens[j] := List.getElem?_eq_getElem hj
    rw [← ih (by omega), List.take_succ_eq_append_getElem hj, removeAll, List.foldl_append]
    exact ⟨Reassembles.of_remove h ho, Reassembles.remove h ho⟩

theorem reassembles_length_iff (h : Apart tokens) :
    Reassembles tokens tokens.length u ↔ ∃ t ∈ tokens, t <:+: u := by
  constructor
  · rintro ⟨i, s, w, hi, hinside, hw, -⟩
    obtain rfl := hw.eq_of_le le_rfl
    exact ⟨w, List.mem_of_getElem? hi, hinside⟩
  · rintro ⟨t, ht, hinside⟩
    obtain ⟨i, hi⟩ := List.mem_iff_getElem?.mp ht
    obtain ⟨hlt, -⟩ := List.getElem?_eq_some_iff.mp hi
    exact ⟨i, t, t, hi, hinside, .plain (h.ne_nil t ht), fun hle => by omega⟩

/-- A text has a token when all are cut exactly if it has one that the cuts put together. -/
theorem infix_removeAll_iff (h : Apart tokens) :
    (∃ t ∈ tokens, t <:+: removeAll tokens u) ↔ Reassembles tokens 0 u := by
  have hall := reassembles_take_iff h (le_refl tokens.length) (u := u)
  rwa [List.take_length, reassembles_length_iff h] at hall

example : removeAll [[0, 1], [2]] [0, 2, 1] = [0, 1] := by decide

example : removeAll [[2], [0, 1]] [0, 2, 1] = [] := by decide

end

end WorkTicket.Cuts
