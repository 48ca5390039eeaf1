import Mathlib

/-! Tables whose rows belong to tenants. A session of one tenant is shown its own rows, and those
of other tenants that `sees` lets through; rows are found by their primary key. -/

namespace WorkTicket.TenantTables

structure Columns (ρ : Type*) where
  id : ρ → ℕ
  company : ρ → ℕ

section
variable {ρ : Type*} (company : ρ → ℕ) (c : Columns ρ) (A : ℕ) (sees : ℕ → Bool) (rows : List ρ)
  (key next : ℕ)

def own : List ρ := rows.filter fun r => company r = A

def others : List ρ := rows.filter fun r => company r ≠ A

def shown (b : ℕ) : Bool := b = A || sees b

def lookup : Option ρ := rows.find? fun r => c.id r = key && shown A sees (c.company r)

def update (f : ρ → ρ) : List ρ := rows.map fun r => if c.id r = key then f r else r

def erase : List ρ := rows.filter fun r => c.id r ≠ key

/-- The row takes the place of the one with its key. -/
def put (row : ρ) : List ρ := row :: erase c rows (c.id row)

/-- The primary key; the keys from `next` on have not been given out. -/
structure Keyed : Prop where
  nodup : (rows.map c.id).Nodup
  issued : ∀ r ∈ rows, c.id r < next

def Owns : Prop := ∃ r ∈ rows, c.id r = key ∧ c.company r = A

/-- The session is shown no row of another tenant at all. -/
def Hidden : Prop := ∀ b, b ≠ A → sees b = false

/-- Whether a row has the key does not depend on the rows of the others. -/
def Known : Prop := next ≤ key ∨ Owns c A rows key

/-- The session is shown no row of another tenant that has the key. -/
def Safe : Prop := Hidden A sees ∨ Known c A rows key next

end

section
variable {ρ κ : Type*} {company : ρ → ℕ} {c : Columns ρ} {A : ℕ} {sees : ℕ → Bool}
  {rows rows' : List ρ} {key next : ℕ} {f : ρ → ρ} {p : ρ → Bool} {r row : ρ}

theorem mem_own : r ∈ own company A rows ↔ r ∈ rows ∧ company r = A := by
  rw [own, List.mem_filter, decide_eq_true_eq]

variable (company A rows) in
theorem own_own : own company A (own company A rows) = own company A rows :=
  List.filter_filter.trans (List.filter_congr fun _ _ => Bool.and_self _)

theorem owns_own : Owns c A (own c.company A rows) key ↔ Owns c A rows key := by
  constructor
  · rintro ⟨r, hr, hrow⟩
    exact ⟨r, (mem_own.mp hr).1, hrow⟩
  · rintro ⟨r, hr, hid, hcompany⟩
    exact ⟨r, mem_own.mpr ⟨hr, hcompany⟩, hid, hcompany⟩

theorem Hidden.shown_eq (h : Hidden A sees) (b : ℕ) : shown A sees b = decide (b = A) := by
  by_cases hb : b = A
  · simp [shown, hb]
  · simp [shown, hb, h b hb]

/-- Rows with one key are one row. -/
theorem Keyed.eq_of_id_eq (h : Keyed c rows next) {r r' : ρ} (hr : r ∈ rows) (hr' : r' ∈ rows)
    (hid : c.id r = c.id r') : r = r' :=
  List.inj_on_of_nodup_map h.nodup hr hr' hid

theorem Keyed.company_eq (h : Keyed c rows next) (hknown : Known c A rows key next) (hr : r ∈ rows)
    (hid : c.id r = key) : c.company r = A := by
  rcases hknown with hunissued | ⟨r', hr', hid', hcompany⟩
  · exact absurd (hid ▸ h.issued r hr) hunissued.not_gt
  · rw [h.eq_of_id_eq hr hr' (hid.trans hid'.symm)]
    exact hcompany

theorem find_of_mem (h : (rows.map c.id).Nodup) (hr : r ∈ rows) (hid : c.id r = key) :
    (rows.find? fun r => c.id r = key) = some r := by
  cases hfound : rows.find? fun r => c.id r = key with
  | none => exact absurd hid (by simpa using List.find?_eq_none.mp hfound r hr)
  | some r' =>
    have hid' : c.id r' = key := by simpa using List.find?_some hfound
    have hr' := List.mem_of_find?_eq_some hfound
    rw [List.inj_on_of_nodup_map h hr' hr (hid'.trans hid.symm)]

/-- Some number is above all keys, so that it is the key of no row. -/
theorem exists_keyed (h : (rows.map c.id).Nodup) : ∃ next, Keyed c rows next := by
  refine ⟨(rows.map c.id).sum + 1, h, fun r hr => Nat.lt_succ_of_le ?_⟩
  exact List.le_sum_of_mem (List.mem_map_of_mem hr)

theorem exists_of_not_hidden (h : ¬Hidden A sees) : ∃ b, b ≠ A ∧ sees b = true := by
  by_contra hnone
  refine h fun b hb => ?_
  exact Bool.eq_false_of_not_eq_true fun hseen => hnone ⟨b, hb, hseen⟩

theorem of_not_known (h : ¬Known c A rows key next) : key < next ∧ ¬Owns c A rows key :=
  ⟨Nat.lt_of_not_le fun hunissued => h (.inl hunissued), fun howns => h (.inr howns)⟩

theorem of_not_safe (h : ¬Safe c A sees rows key next) :
    (∃ b, b ≠ A ∧ sees b = true) ∧ key < next ∧ ¬Owns c A rows key :=
  ⟨exists_of_not_hidden fun hhidden => h (.inl hhidden), of_not_known fun hknown => h (.inr hknown)⟩

theorem lookup_mem (h : lookup c A sees rows key = some r) :
    r ∈ rows ∧ c.id r = key ∧ shown A sees (c.company r) = true := by
  have hr := List.find?_some h
  rw [Bool.and_eq_true, decide_eq_true_eq] at hr
  exact ⟨List.mem_of_find?_eq_some h, hr⟩

/-- A row that is found by a safe key is the tenant's. -/
theorem Safe.company_eq (hsafe : Safe c A sees rows key next) (h : Keyed c rows next)
    (hr : r ∈ rows) (hid : c.id r = key) (hshown : shown A sees (c.company r) = true) :
    c.company r = A := by
  rcases hsafe with hhidden | hknown
  · exact of_decide_eq_true ((hhidden.shown_eq _).symm.trans hshown)
  · exact h.company_eq hknown hr hid

theorem Safe.owns (hsafe : Safe c A sees rows key next) (h : Keyed c rows next)
    (hr : lookup c A sees rows key = some r) : Owns c A rows key := by
  obtain ⟨hmem, hid, hshown⟩ := lookup_mem hr
  exact ⟨r, hmem, hid, hsafe.company_eq h hmem hid hshown⟩

/-! ## Queries that give the same on tables with the same rows of the tenant -/

theorem find_own (hp : ∀ r ∈ rows, p r = true → company r = A) :
    (own company A rows).find? p = rows.find? p := by
  rw [own, List.find?_filter]
  refine List.find?_congr fun r hr => ?_
  by_cases hpr : p r = true
  · simp [hpr, hp r hr hpr]
  · simp [hpr]

theorem filter_eq (h : own company A rows = own company A rows')
    (hp : ∀ r, p r = true → company r = A) : rows.filter p = rows'.filter p := by
  have hown : ∀ l : List ρ, (own company A l).filter p = l.filter p := by
    intro l
    rw [own, List.filter_filter]
    refine List.filter_congr fun r _ => ?_
    by_cases hpr : p r = true
    · simp [hpr, hp r hpr]
    · simp [hpr]
  rw [← hown, h, hown]

theorem find_eq (h : own company A rows = own company A rows')
    (hp : ∀ r, p r = true → company r = A) : rows.find? p = rows'.find? p := by
  rw [← List.head?_filter, ← List.head?_filter, filter_eq h hp]

theorem any_eq (h : own company A rows = own company A rows')
    (hp : ∀ r, p r = true → company r = A) : rows.any p = rows'.any p := by
  rw [← List.isSome_find?, ← List.isSome_find?, find_eq h hp]

theorem mem_map_iff (h : own company A rows = own company A rows') {g : ρ → κ} {k : κ}
    (hg : ∀ r, g r = k → company r = A) : k ∈ rows.map g ↔ k ∈ rows'.map g := by
  have hown : ∀ l : List ρ, k ∈ (own company A l).map g ↔ k ∈ l.map g := by
    intro l
    simp only [List.mem_map]
    constructor
    · rintro ⟨r, hr, hk⟩
      exact ⟨r, (mem_own.mp hr).1, hk⟩
    · rintro ⟨r, hr, hk⟩
      exact ⟨r, mem_own.mpr ⟨hr, hg r hk⟩, hk⟩
  rw [← hown, h, hown]

theorem owns_iff (h : own c.company A rows = own c.company A rows') :
    Owns c A rows key ↔ Owns c A rows' key := by
  rw [← owns_own, h, owns_own]

theorem Known.find_eq (hknown : Known c A rows key next) (hkeyed : Keyed c rows next)
    (hkeyed' : Keyed c rows' next) (h : own c.company A rows = own c.company A rows') :
    rows.find? (fun r => c.id r = key) = rows'.find? fun r => c.id r = key := by
  have hknown' : Known c A rows' key next := hknown.imp_right (owns_iff h).mp
  rw [← find_own fun r hr hid => hkeyed.company_eq hknown hr (of_decide_eq_true hid), h,
    find_own fun r hr hid => hkeyed'.company_eq hknown' hr (of_decide_eq_true hid)]

theorem Known.any_eq (hknown : Known c A rows key next) (hkeyed : Keyed c rows next)
    (hkeyed' : Keyed c rows' next) (h : own c.company A rows = own c.company A rows') :
    rows.any (fun r => c.id r = key) = rows'.any fun r => c.id r = key := by
  rw [← List.isSome_find?, ← List.isSome_find?, hknown.find_eq hkeyed hkeyed' h]

/-- A query by the key of a row of the tenant. -/
theorem Owns.find_eq (howns : Owns c A rows key) (hnodup : (rows.map c.id).Nodup)
    (hnodup' : (rows'.map c.id).Nodup) (h : own c.company A rows = own c.company A rows')
    (hp : ∀ r, p r = true → c.id r = key) : rows.find? p = rows'.find? p := by
  have howns' := (owns_iff h).mp howns
  obtain ⟨next, hkeyed⟩ := exists_keyed hnodup
  obtain ⟨next', hkeyed'⟩ := exists_keyed hnodup'
  rw [← find_own fun r hr hpr => hkeyed.company_eq (.inr howns) hr (hp r hpr), h,
    find_own fun r hr hpr => hkeyed'.company_eq (.inr howns') hr (hp r hpr)]

/-- With a safe key the rows of the others do not matter. -/
theorem Safe.lookup_eq (hsafe : Safe c A sees rows key next) (hkeyed : Keyed c rows next)
    (hkeyed' : Keyed c rows' next) (h : own c.company A rows = own c.company A rows') :
    lookup c A sees rows key = lookup c A sees rows' key := by
  have hown : ∀ l : List ρ, Safe c A sees l key next → Keyed c l next →
      lookup c A sees (own c.company A l) key = lookup c A sees l key := by
    intro l hsafe hkeyed
    refine find_own fun r hr hfound => ?_
    rw [Bool.and_eq_true, decide_eq_true_eq] at hfound
    exact hsafe.company_eq hkeyed hr hfound.1 hfound.2
  have hsafe' : Safe c A sees rows' key next := hsafe.imp_right (Or.imp_right (owns_iff h).mp)
  rw [← hown rows hsafe hkeyed, h, hown rows' hsafe' hkeyed']

/-- Of the rows that a key finds only the tenant's own is taken. -/
theorem lookup_filter_eq (hkeyed : Keyed c rows next) (hkeyed' : Keyed c rows' next)
    (h : own c.company A rows = own c.company A rows') :
    (lookup c A sees rows key).filter (fun r => c.company r = A) =
      (lookup c A sees rows' key).filter fun r => c.company r = A := by
  have hown : ∀ l : List ρ, Keyed c l next →
      (lookup c A sees l key).filter (fun r => c.company r = A) =
        (own c.company A l).find? fun r => c.id r = key := by
    intro l hkeyed
    cases hfound : (own c.company A l).find? fun r => c.id r = key with
    | some r =>
      have hid : c.id r = key := by simpa using List.find?_some hfound
      obtain ⟨hr, hcompany⟩ := mem_own.mp (List.mem_of_find?_eq_some hfound)
      have hlookup : lookup c A sees l key = some r := by
        cases hl : lookup c A sees l key with
        | none =>
          have hnot := List.find?_eq_none.mp hl r hr
          simp [hid, hcompany, shown] at hnot
        | some r' =>
          obtain ⟨hr', hid', -⟩ := lookup_mem hl
          rw [hkeyed.eq_of_id_eq hr' hr (hid'.trans hid.symm)]
      rw [hlookup]
      simp [Option.filter, hcompany]
    | none =>
      cases hl : lookup c A sees l key with
      | none => rfl
      | some r =>
        obtain ⟨hr, hid, -⟩ := lookup_mem hl
        have hother : c.company r ≠ A := by
          intro hcompany
          have hnot := List.find?_eq_none.mp hfound r (mem_own.mpr ⟨hr, hcompany⟩)
          exact hnot (decide_eq_true hid)
        simp [Option.filter, hother]
  rw [hown rows hkeyed, h, hown rows' hkeyed']

/-! ## Writes -/

theorem own_append (company : ρ → ℕ) (hr : company r = A) :
    own company A (rows ++ [r]) = own company A rows ++ [r] := by
  rw [own, List.filter_append, own]
  simp [hr]

theorem others_append (company : ρ → ℕ) (hr : company r = A) :
    others company A (rows ++ [r]) = others company A rows := by
  rw [others, List.filter_append, others]
  simp [hr]

theorem own_update (hf : ∀ r, c.company (f r) = c.company r) :
    own c.company A (update c rows key f) = update c (own c.company A rows) key f := by
  have hcompany : ∀ r, c.company (if c.id r = key then f r else r) = c.company r := by
    intro r
    split
    · exact hf r
    · rfl
  rw [own, update, update, own, List.filter_map]
  refine congrArg _ (List.filter_congr fun r _ => ?_)
  rw [Function.comp_apply, hcompany]

theorem others_update (h : Keyed c rows next) (howns : Owns c A rows key)
    (hf : ∀ r, c.company (f r) = c.company r) :
    others c.company A (update c rows key f) = others c.company A rows := by
  obtain ⟨r, hr, hid, hcompany⟩ := howns
  have hstays : ∀ r' ∈ others c.company A rows, (if c.id r' = key then f r' else r') = r' := by
    intro r' hr'
    obtain ⟨hmem, hother⟩ := List.mem_filter.mp hr'
    refine if_neg fun hid' => ?_
    rw [h.eq_of_id_eq hmem hr (hid'.trans hid.symm)] at hother
    simp [hcompany] at hother
  have hmapped : others c.company A (update c rows key f) = (others c.company A rows).map
      fun r' => if c.id r' = key then f r' else r' := by
    rw [others, update, others, List.filter_map]
    refine congrArg _ (List.filter_congr fun r' _ => ?_)
    by_cases hid' : c.id r' = key <;> simp [hid', hf]
  rw [hmapped]
  exact (List.map_congr_left hstays).trans (List.map_id _)

theorem others_erase (h : Keyed c rows next) (howns : Owns c A rows key) :
    others c.company A (erase c rows key) = others c.company A rows := by
  obtain ⟨r, hr, hid, hcompany⟩ := howns
  rw [others, erase, List.filter_filter]
  refine List.filter_congr fun r' hr' => ?_
  by_cases hother : c.company r' = A
  · simp [hother]
  · have hid' : c.id r' ≠ key := by
      intro hid'
      exact hother (h.eq_of_id_eq hr' hr (hid'.trans hid.symm) ▸ hcompany)
    simp [hother, hid']

/-! ## A row of another tenant -/

theorem Owns.lookup (howns : Owns c A rows key) (h : Keyed c rows next) (sees : ℕ → Bool) :
    ∃ r ∈ rows, lookup c A sees rows key = some r ∧ c.company r = A := by
  obtain ⟨r, hr, hid, hcompany⟩ := howns
  refine ⟨r, hr, ?_, hcompany⟩
  cases hfound : TenantTables.lookup c A sees rows key with
  | none =>
    have hnot := List.find?_eq_none.mp hfound r hr
    simp [hid, hcompany, shown] at hnot
  | some r' =>
    obtain ⟨hr', hid', -⟩ := lookup_mem hfound
    rw [h.eq_of_id_eq hr' hr (hid'.trans hid.symm)]

theorem lookup_own_eq_none (hnot : ¬Owns c A rows key) :
    lookup c A sees (own c.company A rows) key = none := by
  refine List.find?_eq_none.mpr fun r hr hfound => hnot ?_
  rw [Bool.and_eq_true, decide_eq_true_eq] at hfound
  obtain ⟨hmem, hcompany⟩ := mem_own.mp hr
  exact ⟨r, hmem, hfound.1, hcompany⟩

theorem lookup_cons (hseen : sees (c.company row) = true) :
    lookup c A sees (row :: rows) (c.id row) = some row :=
  List.find?_cons_of_pos (by simp [shown, hseen])

theorem lookup_cons_hidden (hhidden : Hidden A sees) (hother : c.company row ≠ A) :
    lookup c A sees (row :: rows) key = lookup c A sees rows key :=
  List.find?_cons_of_neg (by simp [hhidden.shown_eq, hother])

theorem own_cons (hother : company row ≠ A) :
    own company A (row :: rows) = own company A rows :=
  List.filter_cons_of_neg (by simpa using hother)

theorem others_cons (hother : company row ≠ A) :
    others company A (row :: rows) = row :: others company A rows :=
  List.filter_cons_of_pos (by simpa using hother)

/-- An update that leaves the rows of the others alone leaves the row that it finds. -/
theorem eq_of_others_update
    (h : others c.company A (update c (row :: rows) (c.id row) f) =
      others c.company A (row :: rows))
    (hother : c.company row ≠ A) (hf : c.company (f row) ≠ A) : f row = row := by
  have hhead : update c (row :: rows) (c.id row) f = f row :: update c rows (c.id row) f := by
    rw [update, List.map_cons, if_pos rfl, update]
  rw [hhead, others_cons hf, others_cons hother] at h
  exact (List.cons.inj h).1

theorem own_erase (hnot : ¬Owns c A rows key) :
    own c.company A (erase c rows key) = own c.company A rows := by
  rw [own, erase, List.filter_filter, own]
  refine List.filter_congr fun r hr => ?_
  by_cases hcompany : c.company r = A
  · have hid : c.id r ≠ key := fun hid => hnot ⟨r, hr, hid, hcompany⟩
    simp [hcompany, hid]
  · simp [hcompany]

/-- The key of no row of the tenant can be that of another tenant's row. -/
theorem own_put (hother : c.company row ≠ A) (hnot : ¬Owns c A rows (c.id row)) :
    own c.company A (put c rows row) = own c.company A rows :=
  (own_cons hother).trans (own_erase hnot)

theorem Keyed.erase (h : Keyed c rows next) : Keyed c (erase c rows key) next :=
  ⟨h.nodup.sublist (List.filter_sublist.map _), fun r hr => h.issued r (List.mem_of_mem_filter hr)⟩

theorem Keyed.own (h : Keyed c rows next) : Keyed c (own c.company A rows) next :=
  ⟨h.nodup.sublist (List.filter_sublist.map _), fun r hr => h.issued r (List.mem_of_mem_filter hr)⟩

theorem Keyed.cons (h : Keyed c rows next) (hnew : ∀ r ∈ rows, c.id r ≠ c.id row)
    (hrow : c.id row < next) : Keyed c (row :: rows) next := by
  refine ⟨List.nodup_cons.mpr ⟨fun hmem => ?_, h.nodup⟩, ?_⟩
  · obtain ⟨r, hr, hid⟩ := List.mem_map.mp hmem
    exact hnew r hr hid
  · intro r hr
    rcases List.mem_cons.mp hr with rfl | hr
    · exact hrow
    · exact h.issued r hr

theorem Keyed.put (h : Keyed c rows next) (hrow : c.id row < next) :
    Keyed c (put c rows row) next :=
  h.erase.cons (fun r hr => by simpa using (List.mem_filter.mp hr).2) hrow

theorem Keyed.cons_own (h : Keyed c rows next) (hnot : ¬Owns c A rows (c.id row))
    (hrow : c.id row < next) : Keyed c (row :: TenantTables.own c.company A rows) next := by
  refine h.own.cons (fun r hr hid => hnot ?_) hrow
  obtain ⟨hmem, hcompany⟩ := mem_own.mp hr
  exact ⟨r, hmem, hid, hcompany⟩

theorem nodup_map_own {g : ρ → κ} (h : (rows.map g).Nodup) :
    ((own company A rows).map g).Nodup :=
  h.sublist (List.filter_sublist.map _)

theorem nodup_map_cons_own {g : ρ → κ} (h : (rows.map g).Nodup)
    (hg : ∀ r, g r = g row → company r = company row) (hother : company row ≠ A) :
    ((row :: own company A rows).map g).Nodup := by
  refine List.nodup_cons.mpr ⟨fun hmem => ?_, nodup_map_own h⟩
  obtain ⟨r, hr, hrow⟩ := List.mem_map.mp hmem
  exact hother ((hg r hrow).symm.trans (mem_own.mp hr).2)

end

end WorkTicket.TenantTables
