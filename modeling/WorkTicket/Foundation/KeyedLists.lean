import Mathlib

/-! Lists whose entries have a key: lookup by key as in a dictionary built from the list, lists
with distinct keys, and when two of them have the same entries. -/

namespace WorkTicket.KeyedLists

variable {κ α β : Type*}

def Distinct (key : α → κ) (l : List α) : Prop := (l.map key).Nodup

instance [DecidableEq κ] (key : α → κ) (l : List α) : Decidable (Distinct key l) :=
  inferInstanceAs (Decidable (l.map key).Nodup)

section
variable {key : α → κ} {l l' : List α}

theorem distinct_filterMap {g : κ → Option α} (hg : ∀ k x, g k = some x → key x = k) {ks : List κ}
    (hks : ks.Nodup) : Distinct key (ks.filterMap g) := by
  refine List.pairwise_map.mpr (List.Pairwise.filterMap g ?_ hks)
  intro k k' hne x hx x' hx'
  rw [hg k x hx, hg k' x' hx']
  exact hne

theorem Distinct.filterMap {f : α → Option α} (hf : ∀ x y, f x = some y → key y = key x)
    (h : Distinct key l) : Distinct key (l.filterMap f) := by
  refine List.pairwise_map.mpr (List.Pairwise.filterMap f ?_ (List.pairwise_map.mp h))
  intro x x' hne y hy y' hy'
  rw [hf x y hy, hf x' y' hy']
  exact hne

theorem Distinct.append (h : Distinct key l) (h' : Distinct key l')
    (hne : ∀ x ∈ l, ∀ y ∈ l', key x ≠ key y) : Distinct key (l ++ l') := by
  rw [Distinct, List.map_append, List.nodup_append]
  refine ⟨h, h', fun k hk k' hk' => ?_⟩
  obtain ⟨x, hx, rfl⟩ := List.mem_map.mp hk
  obtain ⟨y, hy, rfl⟩ := List.mem_map.mp hk'
  exact hne x hx y hy

end

variable [DecidableEq κ] (key : α → κ)

/-- The entry under `k` of the dictionary built from the list: the last one wins. -/
def find (l : List α) (k : κ) : Option α := l.reverse.find? fun x => key x = k

variable {key} {l l' : List α} {k : κ} {x : α}

theorem find_eq_none : find key l k = none ↔ ∀ x ∈ l, key x ≠ k := by
  simp [find]

theorem mem_of_find (h : find key l k = some x) : x ∈ l ∧ key x = k := by
  have hmem := List.mem_of_find?_eq_some h
  have hkey := List.find?_some h
  exact ⟨List.mem_reverse.mp hmem, of_decide_eq_true hkey⟩

theorem Distinct.find_eq_some (h : Distinct key l) : find key l k = some x ↔ x ∈ l ∧ key x = k := by
  refine ⟨mem_of_find, ?_⟩
  rintro ⟨hx, hkey⟩
  cases hfind : find key l k with
  | none => exact absurd hkey (find_eq_none.mp hfind x hx)
  | some y =>
    obtain ⟨hy, hkey'⟩ := mem_of_find hfind
    rw [List.inj_on_of_nodup_map h hx hy (hkey.trans hkey'.symm)]

/-- The first entry under `k` where `g` gives the entry of each key. -/
theorem find?_filterMap {g : κ → Option α} (hg : ∀ k x, g k = some x → key x = k) (ks : List κ) :
    (ks.filterMap g).find? (fun x => key x = k) = if k ∈ ks then g k else none := by
  induction ks with
  | nil => rfl
  | cons k' ks ih =>
    cases hk' : g k' with
    | none =>
      rw [List.filterMap_cons_none hk', ih]
      by_cases hk : k = k'
      · simp [hk, hk']
      · simp [hk]
    | some x =>
      rw [List.filterMap_cons_some hk', List.find?_cons]
      by_cases hk : k' = k
      · subst hk
        simp [hg k' x hk', hk']
      · have hne : ¬ key x = k := by rwa [hg k' x hk']
        have hne' : ¬ k = k' := fun h => hk h.symm
        simp [hne, hne', ih]

/-- Two lists with distinct keys have the same entries, as `f` reads them, exactly if their
dictionaries do. -/
theorem perm_map_iff {f : α → β} (hf : ∀ x y, f x = f y → key x = key y) (h : Distinct key l)
    (h' : Distinct key l') :
    (l.map f).Perm (l'.map f) ↔ ∀ k, (find key l k).map f = (find key l' k).map f := by
  have hnodup : ∀ {m : List α}, Distinct key m → (m.map f).Nodup := by
    intro m hm
    exact hm.of_map.map_on fun x hx y hy heq => List.inj_on_of_nodup_map hm hx hy (hf x y heq)
  have hread : ∀ {m : List α}, Distinct key m → ∀ x, f x ∈ m.map f ↔
      (find key m (key x)).map f = some (f x) := by
    intro m hm x
    constructor
    · intro hmem
      obtain ⟨y, hy, heq⟩ := List.mem_map.mp hmem
      rw [hm.find_eq_some.mpr ⟨hy, hf y x heq⟩, Option.map_some, heq]
    · intro hfind
      obtain ⟨y, hy, heq⟩ := Option.map_eq_some_iff.mp hfind
      exact List.mem_map.mpr ⟨y, (mem_of_find hy).1, heq⟩
  rw [List.perm_ext_iff_of_nodup (hnodup h) (hnodup h')]
  constructor
  · intro hsame k
    apply Option.ext
    intro b
    constructor
    · intro hb
      obtain ⟨x, hx, rfl⟩ := Option.map_eq_some_iff.mp hb
      obtain ⟨hmem, rfl⟩ := mem_of_find hx
      exact (hread h' x).mp ((hsame (f x)).mp (List.mem_map_of_mem hmem))
    · intro hb
      obtain ⟨x, hx, rfl⟩ := Option.map_eq_some_iff.mp hb
      obtain ⟨hmem, rfl⟩ := mem_of_find hx
      exact (hread h x).mp ((hsame (f x)).mpr (List.mem_map_of_mem hmem))
  · intro hsame b
    constructor
    · intro hb
      obtain ⟨x, hx, rfl⟩ := List.mem_map.mp hb
      exact (hread h' x).mpr ((hsame (key x)).symm.trans ((hread h x).mp hb))
    · intro hb
      obtain ⟨x, hx, rfl⟩ := List.mem_map.mp hb
      exact (hread h x).mpr ((hsame (key x)).trans ((hread h' x).mp hb))

/-! ## Dictionaries with an order -/

/-- `dict[k] = v`: an old key keeps its place. -/
def setEntry (k : κ) (v : β) : List (κ × β) → List (κ × β)
  | [] => [(k, v)]
  | (k', old) :: items => if k' = k then (k', v) :: items else (k', old) :: setEntry k v items

variable [BEq κ] [LawfulBEq κ]

theorem lookup_setEntry_self (k : κ) (v : β) (items : List (κ × β)) :
    (setEntry k v items).lookup k = some v := by
  induction items with
  | nil => simp [setEntry]
  | cons item items ih =>
    obtain ⟨k', old⟩ := item
    by_cases hk : k' = k
    · simp [setEntry, hk]
    · have hne : (k == k') = false := beq_false_of_ne (Ne.symm hk)
      simp [setEntry, hk, List.lookup_cons, hne, ih]

theorem lookup_setEntry_of_ne {k k' : κ} (h : k' ≠ k) (v : β) (items : List (κ × β)) :
    (setEntry k v items).lookup k' = items.lookup k' := by
  induction items with
  | nil => simp [setEntry, h]
  | cons item items ih =>
    obtain ⟨k₀, old⟩ := item
    by_cases hk : k₀ = k
    · have hne : (k' == k₀) = false := beq_false_of_ne (hk ▸ h)
      simp [setEntry, hk, List.lookup_cons, hk ▸ hne]
    · simp [setEntry, hk, List.lookup_cons, ih]

end WorkTicket.KeyedLists
