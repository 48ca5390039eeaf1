import Mathlib

/-! Reading a table from the newest row to the oldest in pages that start after the last row read,
while rows come and go. Each page is of the table as it is then. -/

namespace WorkTicket.KeysetPaging

variable {ρ κ : Type*} [LinearOrder κ] (key : ρ → κ)

def Newer (a b : ρ) : Prop := key b ≤ key a

instance : DecidableRel (Newer key) := fun a b => inferInstanceAs (Decidable (key b ≤ key a))

instance : Std.Total (Newer key) := ⟨fun a b => le_total (key b) (key a)⟩

instance : IsTrans ρ (Newer key) := ⟨fun _ _ _ hab hbc => le_trans hbc hab⟩

/-- Rows of which no two have the same key. -/
def Distinct (rows : List ρ) : Prop := (rows.map key).Nodup

def newestFirst (rows : List ρ) : List ρ := rows.insertionSort (Newer key)

/-- The row comes after the cursor. -/
def after (cursor : Option κ) (r : ρ) : Bool := cursor.all (key r < ·)

/-- The rows after the cursor, from the newest one. -/
def remaining (cursor : Option κ) (rows : List ρ) : List ρ :=
  newestFirst key (rows.filter (after key cursor))

def page (size : ℕ) (cursor : Option κ) (rows : List ρ) : List ρ :=
  (remaining key cursor rows).take size

def hasMore (size : ℕ) (cursor : Option κ) (rows : List ρ) : Bool :=
  size < (remaining key cursor rows).length

def lastKey (rows : List ρ) : Option κ := rows.getLast?.map key

/-- The row comes before the cursor. -/
def before (cursor : κ) (r : ρ) : Bool := cursor < key r

/-- The rows before the cursor, from the newest one. -/
def preceding (cursor : κ) (rows : List ρ) : List ρ :=
  newestFirst key (rows.filter (before key cursor))

/-- The page that ends before the cursor, from the row next to it. -/
def nearest (size : ℕ) (cursor : κ) (rows : List ρ) : List ρ :=
  (preceding key cursor rows).reverse.take size

/-- What a reader has seen of tables that it finds one after the other, and whether it has come to
the end. -/
def walk (size : ℕ) : Option κ → List (List ρ) → List ρ × Bool
  | _, [] => ([], false)
  | cursor, t :: ts =>
    if hasMore key size cursor t then
      let rest := walk size (lastKey key (page key size cursor t)) ts
      (page key size cursor t ++ rest.1, rest.2)
    else (page key size cursor t, true)

attribute [grind =] Distinct newestFirst after remaining page hasMore lastKey before preceding
  nearest walk

section
variable {key} {rows : List ρ} {cursor : Option κ} {size : ℕ} {r : ρ} {ts : List (List ρ)}

theorem newestFirst_perm (rows : List ρ) : (newestFirst key rows).Perm rows :=
  List.perm_insertionSort (Newer key) rows

theorem mem_remaining : r ∈ remaining key cursor rows ↔ r ∈ rows ∧ after key cursor r = true := by
  rw [remaining, (newestFirst_perm _).mem_iff, List.mem_filter]

/-- Rows in their order, of which no two are the same. -/
def Descending (key : ρ → κ) (rows : List ρ) : Prop := rows.Pairwise fun a b => key b < key a

theorem descending_newestFirst (h : Distinct key rows) : Descending key (newestFirst key rows) := by
  have hsorted := List.pairwise_insertionSort (Newer key) rows
  have hdistinct : (newestFirst key rows).Pairwise fun a b => key a ≠ key b :=
    List.pairwise_map.mp (((newestFirst_perm rows).map key).nodup_iff.mpr h)
  exact hsorted.imp₂ (fun _ _ hle hne => lt_of_le_of_ne hle (Ne.symm hne)) hdistinct

theorem descending_remaining (cursor : Option κ) (h : Distinct key rows) :
    Descending key (remaining key cursor rows) :=
  descending_newestFirst (h.sublist (List.filter_sublist.map key))

theorem after_of_mem_page (h : r ∈ page key size cursor rows) : after key cursor r = true :=
  (mem_remaining.mp (List.mem_of_mem_take h)).2

theorem page_eq_remaining (h : hasMore key size cursor rows = false) :
    page key size cursor rows = remaining key cursor rows :=
  List.take_of_length_le (not_lt.mp (of_decide_eq_false h))

/-- The last row of a page with more behind it. -/
theorem exists_lastKey (hsize : 0 < size) (h : hasMore key size cursor rows = true) :
    ∃ a ∈ page key size cursor rows, lastKey key (page key size cursor rows) = some (key a) := by
  have hlength : 0 < (page key size cursor rows).length := by
    rw [page, List.length_take]
    exact lt_min hsize (Nat.zero_lt_of_lt (of_decide_eq_true h))
  have hne := List.length_pos_iff.mp hlength
  refine ⟨_, List.getLast_mem hne, ?_⟩
  rw [lastKey, List.getLast?_eq_some_getLast hne, Option.map_some]

/-- The last row is the oldest one. -/
theorem le_of_lastKey {k : κ} {b : ρ} (h : Descending key rows) (hk : lastKey key rows = some k)
    (hb : b ∈ rows) : k ≤ key b := by
  obtain ⟨a, ha, rfl⟩ := Option.map_eq_some_iff.mp hk
  obtain ⟨front, rfl⟩ := List.getLast?_eq_some_iff.mp ha
  rcases List.mem_append.mp hb with hb | hb
  · exact ((List.pairwise_append.mp h).2.2 b hb a (List.mem_singleton_self a)).le
  · rw [List.mem_singleton.mp hb]

section
variable (hsize : 0 < size) (hmore : hasMore key size cursor rows = true)
include hsize hmore

theorem after_of_after_page (h : after key (lastKey key (page key size cursor rows)) r = true) :
    after key cursor r = true := by
  obtain ⟨a, ha, hk⟩ := exists_lastKey hsize hmore
  rw [hk] at h
  cases cursor with
  | none => rfl
  | some c =>
    have hac : key a < c := of_decide_eq_true (after_of_mem_page ha)
    exact decide_eq_true ((of_decide_eq_true h : key r < key a).trans hac)

/-- What comes after a page is older than each of its rows. -/
theorem lt_of_after_page (hrows : Distinct key rows) {b : ρ}
    (h : after key (lastKey key (page key size cursor rows)) r = true)
    (hb : b ∈ page key size cursor rows) : key r < key b := by
  obtain ⟨a, -, hk⟩ := exists_lastKey hsize hmore
  have hpage : Descending key (page key size cursor rows) :=
    (descending_remaining cursor hrows).sublist (List.take_sublist _ _)
  rw [hk] at h
  exact (of_decide_eq_true h : key r < key a).trans_le (le_of_lastKey hpage hk hb)

/-- A row after the cursor is on the page or after it. -/
theorem mem_page_or_after (hrows : Distinct key rows) (hr : r ∈ rows)
    (h : after key cursor r = true) : r ∈ page key size cursor rows ∨
      after key (lastKey key (page key size cursor rows)) r = true := by
  have hmem : r ∈ remaining key cursor rows := mem_remaining.mpr ⟨hr, h⟩
  rw [← List.take_append_drop size (remaining key cursor rows)] at hmem
  rcases List.mem_append.mp hmem with hpage | hrest
  · exact .inl hpage
  · obtain ⟨a, ha, hk⟩ := exists_lastKey hsize hmore
    have hsplit := descending_remaining cursor hrows
    rw [← List.take_append_drop size (remaining key cursor rows)] at hsplit
    rw [hk]
    exact .inr (decide_eq_true ((List.pairwise_append.mp hsplit).2.2 a ha r hrest))

end

/-! ## Back from a cursor -/

theorem descending_eq_of_perm {l l' : List ρ} (hl : Descending key l) (hl' : Descending key l')
    (h : l.Perm l') : l = l' :=
  h.eq_of_pairwise (fun _ _ _ _ hba hab => absurd hba hab.asymm) hl hl'

theorem nodup_of_descending {l : List ρ} (h : Descending key l) : l.Nodup :=
  h.imp fun hlt heq => absurd (congrArg key heq) hlt.ne'

theorem nodup_preceding (h : Distinct key rows) (k : κ) : (preceding key k rows).Nodup :=
  nodup_of_descending (descending_newestFirst (h.sublist (List.filter_sublist.map key)))

/-- The rows before a cursor come first. -/
theorem preceding_append (h : Distinct key rows) (k : κ) :
    preceding key k rows ++ newestFirst key (rows.filter (!before key k ·)) =
      newestFirst key rows := by
  have hkept : ∀ p : ρ → Bool, Descending key (newestFirst key (rows.filter p)) := fun p =>
    descending_newestFirst (h.sublist (List.filter_sublist.map key))
  refine descending_eq_of_perm ?_ (descending_newestFirst h) ?_
  · refine List.pairwise_append.mpr ⟨hkept _, hkept _, fun a ha b hb => ?_⟩
    have hka : before key k a = true := (List.mem_filter.mp ((newestFirst_perm _).mem_iff.mp ha)).2
    have hkb := (List.mem_filter.mp ((newestFirst_perm _).mem_iff.mp hb)).2
    have hbk : ¬k < key b := by simpa [before] using hkb
    exact (not_lt.mp hbk).trans_lt (of_decide_eq_true hka)
  · refine ((newestFirst_perm _).append (newestFirst_perm _)).trans ?_
    exact (List.filter_append_perm _ rows).trans (newestFirst_perm rows).symm

/-- The newest rows before a cursor are the newest rows of all, if they are enough for a page. -/
theorem take_preceding (h : Distinct key rows) {k : κ}
    (hsize : size ≤ (preceding key k rows).length) :
    (preceding key k rows).take size = page key size none rows := by
  have hall : rows.filter (after key none) = rows := List.filter_eq_self.mpr fun _ _ => rfl
  rw [page, remaining, hall, ← preceding_append h k, List.take_append_of_le_length hsize]

theorem take_reverse_eq_iff {l : List ρ} (hl : l.Nodup) (hsize : 0 < size) :
    (l.take size).reverse = l.reverse.take size ↔ l.length ≤ size := by
  constructor
  · intro heq
    by_contra hlong
    rw [List.take_reverse, List.reverse_inj] at heq
    have hfirst : l.take 1 ≠ [] := by
      rw [← List.length_pos_iff, List.length_take]
      omega
    obtain ⟨a, ha⟩ := List.exists_mem_of_ne_nil _ hfirst
    have htake : a ∈ l.take size := List.take_subset_take_left l hsize ha
    have hapart := List.disjoint_take_drop hl (show 1 ≤ l.length - size by omega)
    exact hapart ha (heq ▸ htake)
  · intro hle
    rw [List.take_of_length_le hle, List.take_of_length_le (by rwa [List.length_reverse])]

/-! ## A whole reading -/

theorem walk_sound (h : r ∈ (walk key size cursor ts).1) : ∃ t ∈ ts, r ∈ t := by
  induction ts generalizing cursor with
  | nil => cases h
  | cons t ts ih =>
    have hpage : r ∈ page key size cursor t → ∃ t' ∈ t :: ts, r ∈ t' := fun hr =>
      ⟨t, List.mem_cons_self, (mem_remaining.mp (List.mem_of_mem_take hr)).1⟩
    rw [walk] at h
    split_ifs at h
    · rcases List.mem_append.mp h with h | h
      · exact hpage h
      · obtain ⟨t', ht', hr⟩ := ih h
        exact ⟨t', List.mem_cons_of_mem t ht', hr⟩
    · exact hpage h

/-- No row is seen twice, and the rows come in their order. -/
theorem walk_descending (cursor : Option κ) (hsize : 0 < size)
    (hts : ∀ t ∈ ts, Distinct key t) :
    Descending key (walk key size cursor ts).1 ∧
      ∀ r ∈ (walk key size cursor ts).1, after key cursor r = true := by
  induction ts generalizing cursor with
  | nil => exact ⟨.nil, fun r hr => absurd hr List.not_mem_nil⟩
  | cons t ts ih =>
    have ht := hts t List.mem_cons_self
    have hpage : Descending key (page key size cursor t) :=
      (descending_remaining cursor ht).sublist (List.take_sublist _ _)
    rw [walk]
    split_ifs with hmore
    · obtain ⟨hrest, hafter⟩ :=
        ih (lastKey key (page key size cursor t)) fun t' ht' =>
          hts t' (List.mem_cons_of_mem t ht')
      refine ⟨List.pairwise_append.mpr ⟨hpage, hrest, fun b hb r hr => ?_⟩, fun r hr => ?_⟩
      · exact lt_of_after_page hsize hmore ht (hafter r hr) hb
      · rcases List.mem_append.mp hr with hr | hr
        · exact after_of_mem_page hr
        · exact after_of_after_page hsize hmore (hafter r hr)
    · exact ⟨hpage, fun r hr => after_of_mem_page hr⟩

/-- A reading that has come to the end has seen every row that was there all the time. -/
theorem walk_complete (hsize : 0 < size) (hts : ∀ t ∈ ts, Distinct key t)
    (hend : (walk key size cursor ts).2 = true) (hr : ∀ t ∈ ts, r ∈ t)
    (h : after key cursor r = true) : r ∈ (walk key size cursor ts).1 := by
  induction ts generalizing cursor with
  | nil => cases hend
  | cons t ts ih =>
    have ht := hts t List.mem_cons_self
    rw [walk] at hend ⊢
    split_ifs at hend ⊢ with hmore
    · rcases mem_page_or_after hsize hmore ht (hr t List.mem_cons_self) h with hpage | hafter
      · exact List.mem_append_left _ hpage
      · refine List.mem_append_right _ (ih ?_ hend ?_ hafter)
        · exact fun t' ht' => hts t' (List.mem_cons_of_mem t ht')
        · exact fun t' ht' => hr t' (List.mem_cons_of_mem t ht')
    · rw [page_eq_remaining (by simpa using hmore)]
      exact mem_remaining.mpr ⟨hr t List.mem_cons_self, h⟩

/-- A reading that has not come to the end has filled each page. -/
theorem length_walk (hend : (walk key size cursor ts).2 = false) :
    (walk key size cursor ts).1.length = size * ts.length := by
  induction ts generalizing cursor with
  | nil => rfl
  | cons t ts ih =>
    rw [walk] at hend ⊢
    split_ifs at hend ⊢ with hmore
    · have hfull : (page key size cursor t).length = size := by
        rw [page, List.length_take]
        exact min_eq_left (of_decide_eq_true hmore).le
      rw [List.length_append, hfull, ih hend, List.length_cons, Nat.mul_succ, Nat.add_comm]

/-- A reading comes to the end when there are fewer rows than its pages hold, however often they
come and go. -/
theorem walk_ends (hsize : 0 < size) (hts : ∀ t ∈ ts, Distinct key t) {all : List ρ}
    (hall : ∀ t ∈ ts, t ⊆ all) (hlength : all.length < size * ts.length) :
    (walk key size cursor ts).2 = true := by
  by_contra hend
  have hfull := length_walk (by simpa using hend)
  have hnodup := nodup_of_descending (walk_descending cursor hsize hts).1
  have hsubset : (walk key size cursor ts).1 ⊆ all := by
    intro r hr
    obtain ⟨t, ht, hrt⟩ := walk_sound hr
    exact hall t ht hrt
  have hle := (hnodup.subperm hsubset).length_le
  omega

end

end WorkTicket.KeysetPaging
