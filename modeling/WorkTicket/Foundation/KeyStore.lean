import Mathlib

/-! A store of keys whose entries expire, and its scans: calls that are joined by cursors and together
return every key that was there throughout. The keys of one part of the store are followed in a store
that has that part alone. -/

namespace WorkTicket.KeyStore

structure Entry (ν : Type*) where
  value : ν
  expireAt : Option ℕ
  deriving DecidableEq, Repr

/-- A scan that is under way: its pattern, the cursor it goes on from, the matching keys that were
there at each moment and at some moment since it began, and what it returned so far. -/
structure Chain (κ π : Type*) where
  pattern : π
  cursor : ℕ
  throughout : κ → Bool
  sometime : κ → Bool
  collected : List κ

/-- What a call of a scan returns. -/
structure Page (κ : Type*) where
  next : ℕ
  keys : List κ
  deriving DecidableEq, Repr

structure Store (κ ν π : Type*) where
  now : ℕ
  entries : κ → Option (Entry ν)
  chains : List (Chain κ π)

variable {κ ν π : Type*}

def empty : Store κ ν π := ⟨0, fun _ => none, []⟩

namespace Store

/-- The entry of the key, if it has not expired. -/
def find (s : Store κ ν π) (k : κ) : Option (Entry ν) :=
  (s.entries k).filter fun e => e.expireAt.all (s.now ≤ ·)

def present (s : Store κ ν π) (k : κ) : Bool := (s.find k).isSome

end Store

variable (accepts : π → κ → Bool)

/-- One more moment of the scan. -/
def Chain.observe (c : Chain κ π) (present : κ → Bool) : Chain κ π :=
  { c with
    throughout := fun k => c.throughout k && present k
    sometime := fun k => c.sometime k || (accepts c.pattern k && present k) }

namespace Store

def settle (s : Store κ ν π) : Store κ ν π :=
  { s with chains := s.chains.map fun c => c.observe accepts s.present }

def tick (s : Store κ ν π) (ms : ℕ) : Store κ ν π := settle accepts { s with now := s.now + ms }

section
variable [DecidableEq κ]

def write (s : Store κ ν π) (k : κ) (e : Option (Entry ν)) : Store κ ν π :=
  settle accepts { s with entries := Function.update s.entries k e }

def erase (s : Store κ ν π) (keys : List κ) : Store κ ν π :=
  settle accepts { s with entries := fun k => if k ∈ keys then none else s.entries k }

end

section
variable [DecidableEq π]

/-- The scans that a call with this cursor may go on with; with the cursor `0` it begins one. -/
def continuing (s : Store κ ν π) (p : π) (cursor : ℕ) : List (Chain κ π) :=
  if cursor = 0 then
    [⟨p, 0, fun k => accepts p k && s.present k, fun k => accepts p k && s.present k, []⟩]
  else s.chains.filter fun c => c.pattern = p ∧ c.cursor = cursor

/-- A scan whose next cursor is `0` has ended. -/
def scanned (s : Store κ ν π) (p : π) (cursor : ℕ) (page : Page κ) : Store κ ν π :=
  if page.next = 0 then s
  else
    { s with
      chains := (s.continuing accepts p cursor).map (fun c =>
        { c with cursor := page.next, collected := c.collected ++ page.keys }) ++ s.chains }

/-- What a scan may return: matching keys that are there, and when it ends all that were there
throughout. -/
structure Lawful (s : Store κ ν π) (p : π) (cursor : ℕ) (page : Page κ) : Prop where
  there : ∀ k ∈ page.keys, accepts p k = true ∧ s.present k = true
  whole : page.next = 0 → ∀ c ∈ s.continuing accepts p cursor, ∀ k, c.throughout k = true →
    k ∈ c.collected ++ page.keys

end
end Store

/-- What is recorded of a scan is right at the present moment. -/
structure Chain.Settled (c : Chain κ π) (present : κ → Bool) : Prop where
  accepts_of_throughout : ∀ k, c.throughout k = true → accepts c.pattern k = true
  accepts_of_sometime : ∀ k, c.sometime k = true → accepts c.pattern k = true
  present_of_throughout : ∀ k, c.throughout k = true → present k = true
  sometime_of_present : ∀ k, accepts c.pattern k = true → present k = true → c.sometime k = true
  sometime_of_collected : ∀ k ∈ c.collected, c.sometime k = true

def Store.Settled (s : Store κ ν π) : Prop := ∀ c ∈ s.chains, c.Settled accepts s.present

variable {accepts} {s t : Store κ ν π} {c : Chain κ π} {present : κ → Bool}

/-! ## Each operation leaves the records right -/

theorem Chain.Settled.observe (h : c.Settled accepts present) (present' : κ → Bool) :
    (c.observe accepts present').Settled accepts present' where
  accepts_of_throughout k hk := h.accepts_of_throughout k (Bool.and_elim_left hk)
  accepts_of_sometime k hk := by
    rcases Bool.or_eq_true_iff.mp hk with hk | hk
    · exact h.accepts_of_sometime k hk
    · exact Bool.and_elim_left hk
  present_of_throughout k hk := Bool.and_elim_right hk
  sometime_of_present k haccepts hpresent := by
    simp only [Chain.observe] at haccepts ⊢
    rw [haccepts, hpresent, Bool.and_self, Bool.or_true]
  sometime_of_collected k hk := by
    simp only [Chain.observe] at hk ⊢
    rw [h.sometime_of_collected k hk, Bool.true_or]

theorem settled_settle {s : Store κ ν π} (h : ∀ c ∈ s.chains, c.Settled accepts present) :
    (s.settle accepts).Settled accepts := by
  intro c hc
  obtain ⟨c', hc', rfl⟩ := List.mem_map.mp hc
  exact (h c' hc').observe _

theorem Store.Settled.tick (h : s.Settled accepts) (ms : ℕ) : (s.tick accepts ms).Settled accepts :=
  settled_settle h

section
variable [DecidableEq κ]

theorem Store.Settled.write (h : s.Settled accepts) (k : κ) (e : Option (Entry ν)) :
    (s.write accepts k e).Settled accepts :=
  settled_settle h

theorem Store.Settled.erase (h : s.Settled accepts) (keys : List κ) :
    (s.erase accepts keys).Settled accepts :=
  settled_settle h

end

section
variable [DecidableEq π] {p : π} {cursor : ℕ} {page : Page κ}

theorem Store.Settled.continuing (h : s.Settled accepts) (p : π) (cursor : ℕ) :
    ∀ c ∈ s.continuing accepts p cursor, c.pattern = p ∧ c.Settled accepts s.present := by
  intro c hc
  unfold Store.continuing at hc
  split_ifs at hc
  · obtain rfl := List.mem_singleton.mp hc
    refine ⟨rfl, fun k hk => Bool.and_elim_left hk, fun k hk => Bool.and_elim_left hk,
      fun k hk => Bool.and_elim_right hk, ?_, fun k hk => absurd hk List.not_mem_nil⟩
    intro k haccepts hpresent
    simp only [haccepts, hpresent, Bool.and_self]
  · obtain ⟨hc, hp⟩ := List.mem_filter.mp hc
    exact ⟨(of_decide_eq_true hp).1, h c hc⟩

/-- What a scan has returned, with the page that goes on with it, was there at some time. -/
theorem Store.Settled.sometime_of_mem (h : s.Settled accepts)
    (hlaw : s.Lawful accepts p cursor page) (hc : c ∈ s.continuing accepts p cursor) {k : κ}
    (hk : k ∈ c.collected ++ page.keys) : c.sometime k = true := by
  obtain ⟨hp, hsettled⟩ := h.continuing p cursor c hc
  rcases List.mem_append.mp hk with hk | hk
  · exact hsettled.sometime_of_collected k hk
  · obtain ⟨haccepts, hpresent⟩ := hlaw.there k hk
    exact hsettled.sometime_of_present k (hp ▸ haccepts) hpresent

theorem Store.Settled.scanned (h : s.Settled accepts) (hlaw : s.Lawful accepts p cursor page) :
    (s.scanned accepts p cursor page).Settled accepts := by
  unfold Store.scanned
  split_ifs
  · exact h
  · intro c hc
    rcases List.mem_append.mp hc with hc | hc
    · obtain ⟨c', hc', rfl⟩ := List.mem_map.mp hc
      obtain ⟨-, hsettled⟩ := h.continuing p cursor c' hc'
      exact ⟨hsettled.accepts_of_throughout, hsettled.accepts_of_sometime,
        hsettled.present_of_throughout, hsettled.sometime_of_present,
        fun k hk => h.sometime_of_mem hlaw hc' hk⟩
    · exact h c hc

/-- A scan that ends has returned what was there throughout, and nothing that never was there. -/
theorem Store.Settled.between (h : s.Settled accepts) (hlaw : s.Lawful accepts p cursor page)
    (hnext : page.next = 0) (hc : c ∈ s.continuing accepts p cursor) (k : κ) :
    (c.throughout k = true → k ∈ c.collected ++ page.keys) ∧
      (k ∈ c.collected ++ page.keys → c.sometime k = true) :=
  ⟨hlaw.whole hnext c hc k, fun hk => h.sometime_of_mem hlaw hc hk⟩

end

/-! ## One part of the store -/

section
variable (accepts) (scope : κ → Prop) (own : π → Bool)

/-- The keys of the scope and the scans with a pattern of the part are in `s` as they are in `t`. -/
structure Follows (s t : Store κ ν π) : Prop where
  now_eq : s.now = t.now
  entries_eq : ∀ k, scope k → s.entries k = t.entries k
  chains_eq : (s.chains.filter fun c => own c.pattern) = t.chains
  settled : s.Settled accepts
  settled' : t.Settled accepts

end

section
variable {scope : κ → Prop} {own : π → Bool} {k : κ} {p : π}

theorem follows_empty : Follows accepts scope own (empty : Store κ ν π) empty :=
  ⟨rfl, fun _ _ => rfl, rfl, fun _ hc => absurd hc List.not_mem_nil,
    fun _ hc => absurd hc List.not_mem_nil⟩

theorem Follows.find_eq (h : Follows accepts scope own s t) (hk : scope k) :
    s.find k = t.find k := by
  rw [Store.find, Store.find, h.entries_eq k hk, h.now_eq]

theorem Follows.present_eq (h : Follows accepts scope own s t) (hk : scope k) :
    s.present k = t.present k := by
  rw [Store.present, Store.present, h.find_eq hk]

variable (hown : ∀ p k, own p = true → accepts p k = true → scope k)
include hown

/-- What is recorded of a scan depends on the keys of its part. -/
theorem Chain.Settled.observe_congr {present' present'' : κ → Bool}
    (h : c.Settled accepts present) (hc : own c.pattern = true)
    (heq : ∀ k, scope k → present' k = present'' k) :
    c.observe accepts present' = c.observe accepts present'' := by
  have hthroughout : ∀ k, (c.throughout k && present' k) = (c.throughout k && present'' k) := by
    intro k
    cases hk : c.throughout k with
    | false => rfl
    | true => rw [heq k (hown _ k hc (h.accepts_of_throughout k hk))]
  have hsometime : ∀ k, (c.sometime k || (accepts c.pattern k && present' k)) =
      (c.sometime k || (accepts c.pattern k && present'' k)) := by
    intro k
    cases hk : accepts c.pattern k with
    | false => rfl
    | true => rw [heq k (hown _ k hc hk)]
  simp only [Chain.observe, hthroughout, hsometime]

/-- A moment at which nothing of the part has changed leaves the record as it is. -/
theorem Chain.Settled.observe_eq {present' : κ → Bool} (h : c.Settled accepts present)
    (hc : own c.pattern = true) (heq : ∀ k, scope k → present' k = present k) :
    c.observe accepts present' = c := by
  rw [h.observe_congr hown hc heq]
  have hthroughout : ∀ k, (c.throughout k && present k) = c.throughout k := by
    intro k
    cases hk : c.throughout k with
    | false => rfl
    | true => rw [h.present_of_throughout k hk, Bool.and_self]
  have hsometime : ∀ k, (c.sometime k || (accepts c.pattern k && present k)) = c.sometime k := by
    intro k
    cases hk : accepts c.pattern k && present k with
    | false => rw [Bool.or_false]
    | true =>
      rw [Bool.and_eq_true] at hk
      rw [h.sometime_of_present k hk.1 hk.2, Bool.or_self]
  simp only [Chain.observe, hthroughout, hsometime]

/-- Both stores change their entries in the same way. -/
theorem Follows.settle (h : Follows accepts scope own s t) {s' t' : Store κ ν π}
    (hs : s'.chains = s.chains) (ht : t'.chains = t.chains) (hnow : s'.now = t'.now)
    (hentries : ∀ k, scope k → s'.entries k = t'.entries k) :
    Follows accepts scope own (s'.settle accepts) (t'.settle accepts) where
  now_eq := hnow
  entries_eq := hentries
  chains_eq := by
    have hpresent : ∀ k, scope k → s'.present k = t'.present k := by
      intro k hk
      rw [Store.present, Store.present, Store.find, Store.find, hentries k hk, hnow]
    simp only [Store.settle, hs, ht, ← h.chains_eq, List.filter_map]
    refine List.map_congr_left fun c hc => ?_
    obtain ⟨hc, hpattern⟩ := List.mem_filter.mp hc
    exact (h.settled c hc).observe_congr hown hpattern hpresent
  settled := settled_settle (hs.symm ▸ show ∀ c ∈ s.chains, _ from h.settled)
  settled' := settled_settle (ht.symm ▸ show ∀ c ∈ t.chains, _ from h.settled')

/-- The whole store changes entries outside the scope. -/
theorem Follows.settle_left (h : Follows accepts scope own s t) {s' : Store κ ν π}
    (hs : s'.chains = s.chains) (hnow : s'.now = s.now)
    (hentries : ∀ k, scope k → s'.entries k = s.entries k) :
    Follows accepts scope own (s'.settle accepts) t where
  now_eq := hnow.trans h.now_eq
  entries_eq k hk := (hentries k hk).trans (h.entries_eq k hk)
  chains_eq := by
    have hpresent : ∀ k, scope k → s'.present k = s.present k := by
      intro k hk
      rw [Store.present, Store.present, Store.find, Store.find, hentries k hk, hnow]
    rw [← h.chains_eq]
    simp only [Store.settle, hs, List.filter_map]
    refine (List.map_congr_left fun c hc => ?_).trans (List.map_id _)
    obtain ⟨hc, hpattern⟩ := List.mem_filter.mp hc
    exact (h.settled c hc).observe_eq hown hpattern hpresent
  settled := settled_settle (hs.symm ▸ show ∀ c ∈ s.chains, _ from h.settled)
  settled' := h.settled'

theorem Follows.tick (h : Follows accepts scope own s t) (ms : ℕ) :
    Follows accepts scope own (s.tick accepts ms) (t.tick accepts ms) :=
  h.settle hown rfl rfl (congrArg (· + ms) h.now_eq) h.entries_eq

section
variable [DecidableEq κ]

theorem Follows.write (h : Follows accepts scope own s t) (k : κ) (e : Option (Entry ν)) :
    Follows accepts scope own (s.write accepts k e) (t.write accepts k e) := by
  refine h.settle hown rfl rfl h.now_eq fun k' hk' => ?_
  by_cases heq : k' = k
  · simp only [heq, Function.update_self]
  · simp only [Function.update_of_ne heq]
    exact h.entries_eq k' hk'

theorem Follows.write_left (h : Follows accepts scope own s t) (hk : ¬scope k)
    (e : Option (Entry ν)) : Follows accepts scope own (s.write accepts k e) t := by
  refine h.settle_left hown rfl rfl fun k' hk' => ?_
  have hne : k' ≠ k := fun heq => hk (heq.subst hk')
  exact Function.update_of_ne hne ..

theorem Follows.erase (h : Follows accepts scope own s t) (keys : List κ) :
    Follows accepts scope own (s.erase accepts keys) (t.erase accepts keys) :=
  h.settle hown rfl rfl h.now_eq fun k hk =>
    congrArg (fun e => if k ∈ keys then none else e) (h.entries_eq k hk)

theorem Follows.erase_left (h : Follows accepts scope own s t) {keys : List κ}
    (hkeys : ∀ k ∈ keys, ¬scope k) : Follows accepts scope own (s.erase accepts keys) t :=
  h.settle_left hown rfl rfl fun k hk => if_neg fun hmem => hkeys k hmem hk

end

variable [DecidableEq π] {cursor : ℕ} {page : Page κ}

theorem Follows.continuing_eq (h : Follows accepts scope own s t) (hp : own p = true) (cursor : ℕ) :
    s.continuing accepts p cursor = t.continuing accepts p cursor := by
  unfold Store.continuing
  split_ifs
  · have hthere : ∀ k, (accepts p k && s.present k) = (accepts p k && t.present k) := by
      intro k
      cases hk : accepts p k with
      | false => rfl
      | true => rw [h.present_eq (hown p k hp hk)]
    simp only [hthere]
  · rw [← h.chains_eq, List.filter_filter]
    refine List.filter_congr fun c _ => ?_
    by_cases hc : c.pattern = p ∧ c.cursor = cursor
    · simp [hc, hp]
    · simp [hc]

theorem Follows.lawful_iff (h : Follows accepts scope own s t) (hp : own p = true) :
    s.Lawful accepts p cursor page ↔ t.Lawful accepts p cursor page := by
  have hthere : (∀ k ∈ page.keys, accepts p k = true ∧ s.present k = true) ↔
      ∀ k ∈ page.keys, accepts p k = true ∧ t.present k = true := by
    refine forall₂_congr fun k _ => and_congr_right fun hk => ?_
    rw [h.present_eq (hown p k hp hk)]
  constructor
  · exact fun hlaw => ⟨hthere.mp hlaw.there, h.continuing_eq hown hp cursor ▸ hlaw.whole⟩
  · exact fun hlaw => ⟨hthere.mpr hlaw.there, (h.continuing_eq hown hp cursor).symm ▸ hlaw.whole⟩

/-- A call of a scan of the part. -/
theorem Follows.scanned (h : Follows accepts scope own s t) (hp : own p = true)
    (hlaw : s.Lawful accepts p cursor page) :
    Follows accepts scope own (s.scanned accepts p cursor page)
      (t.scanned accepts p cursor page) := by
  have hs := h.settled.scanned hlaw
  have ht := h.settled'.scanned ((h.lawful_iff hown hp).mp hlaw)
  have hcontinuing := h.continuing_eq hown hp cursor
  have hpattern : ∀ c ∈ s.continuing accepts p cursor, own c.pattern = true := by
    intro c hc
    rw [(h.settled.continuing p cursor c hc).1, hp]
  unfold Store.scanned at hs ht ⊢
  split_ifs at hs ht ⊢
  · exact h
  · refine ⟨h.now_eq, h.entries_eq, ?_, hs, ht⟩
    simp only [List.filter_append, List.filter_map, ← h.chains_eq, ← hcontinuing]
    refine congrArg (· ++ _) (congrArg _ (List.filter_eq_self.mpr ?_))
    exact hpattern

omit hown in
/-- A call of another scan. -/
theorem Follows.scanned_left (h : Follows accepts scope own s t) (hp : own p = false)
    (hlaw : s.Lawful accepts p cursor page) :
    Follows accepts scope own (s.scanned accepts p cursor page) t := by
  have hs := h.settled.scanned hlaw
  have hpattern : ∀ c ∈ s.continuing accepts p cursor, own c.pattern = false := by
    intro c hc
    rw [(h.settled.continuing p cursor c hc).1, hp]
  unfold Store.scanned at hs ⊢
  split_ifs at hs ⊢
  · exact h
  · refine ⟨h.now_eq, h.entries_eq, ?_, hs, h.settled'⟩
    have hnone : (s.continuing accepts p cursor).filter (fun c => own c.pattern) = [] :=
      List.filter_eq_nil_iff.mpr fun c hc => by rw [hpattern c hc]; exact Bool.false_ne_true
    simp only [List.filter_append, List.filter_map, Function.comp_def, hnone, List.map_nil,
      List.nil_append, h.chains_eq]

end

/-! ## A key that a scan has yet to return -/

namespace Store

/-- The scan that goes on from the cursor has not returned the key, which was there throughout. -/
def Owes (s : Store κ ν π) (p : π) (cursor : ℕ) (k : κ) : Prop :=
  ∃ c ∈ s.chains, c.pattern = p ∧ c.cursor = cursor ∧ c.throughout k = true ∧ k ∉ c.collected

end Store

section
variable {p : π} {cursor ms : ℕ} {k k' : κ} {e : Option (Entry ν)} {keys : List κ} {page : Page κ}

theorem Store.Owes.settle (h : s.Owes p cursor k) {s' : Store κ ν π} (hs : s'.chains = s.chains)
    (hpresent : s'.present k = true) : (s'.settle accepts).Owes p cursor k := by
  obtain ⟨c, hc, hp, hcursor, hthroughout, hnot⟩ := h
  refine ⟨c.observe accepts s'.present, List.mem_map.mpr ⟨c, hs ▸ hc, rfl⟩, hp, hcursor, ?_, hnot⟩
  simp only [Chain.observe, hthroughout, hpresent, Bool.and_self]

/-- Time only makes keys vanish. -/
theorem present_of_tick (h : (s.tick accepts ms).present k = true) : s.present k = true := by
  simp only [Store.present, Store.find, Store.tick, Store.settle, Option.isSome_filter] at h ⊢
  obtain ⟨e, he, hlive⟩ := (Option.any_eq_true _ _).mp h
  refine (Option.any_eq_true _ _).mpr ⟨e, he, ?_⟩
  cases hexpire : e.expireAt with
  | none => rfl
  | some expireAt =>
    rw [hexpire] at hlive
    exact decide_eq_true ((Nat.le_add_right _ _).trans (of_decide_eq_true hlive))

theorem present_of_erase [DecidableEq κ] (h : (s.erase accepts keys).present k = true) :
    k ∉ keys ∧ s.present k = true := by
  have hnot : k ∉ keys := by
    intro hk
    simp only [Store.present, Store.find, Store.erase, Store.settle, if_pos hk] at h
    cases h
  simp only [Store.present, Store.find, Store.erase, Store.settle, if_neg hnot] at h
  exact ⟨hnot, h⟩

theorem present_of_write [DecidableEq κ] (he : k' = k → e.isSome = true → s.present k = true)
    (h : (s.write accepts k' e).present k = true) : s.present k = true := by
  by_cases heq : k' = k
  · subst heq
    simp only [Store.present, Store.find, Store.write, Store.settle, Function.update_self,
      Option.isSome_filter] at h
    obtain ⟨e', rfl, -⟩ := (Option.any_eq_true _ _).mp h
    exact he rfl rfl
  · simp only [Store.present, Store.find, Store.write, Store.settle,
      Function.update_of_ne (Ne.symm heq)] at h
    exact h

variable [DecidableEq π]

theorem scanned_present : (s.scanned accepts p cursor page).present = s.present := by
  unfold Store.scanned
  split_ifs <;> rfl

theorem Store.Owes.scanned {p' : π} {cursor' : ℕ} (h : s.Owes p cursor k) :
    (s.scanned accepts p' cursor' page).Owes p cursor k := by
  obtain ⟨c, hc, hrest⟩ := h
  unfold Store.scanned
  split_ifs
  · exact ⟨c, hc, hrest⟩
  · exact ⟨c, List.mem_append_right _ hc, hrest⟩

/-- A page returns the key, or the scan goes on and still owes it. -/
theorem owes_scanned (hk : accepts p k = true) (hpresent : s.present k = true)
    (hlaw : s.Lawful accepts p cursor page) (h : cursor = 0 ∨ s.Owes p cursor k) :
    k ∈ page.keys ∨
      page.next ≠ 0 ∧ (s.scanned accepts p cursor page).Owes p page.next k := by
  have hchain : ∃ c ∈ s.continuing accepts p cursor,
      c.pattern = p ∧ c.throughout k = true ∧ k ∉ c.collected := by
    unfold Store.continuing
    split_ifs with hcursor
    · exact ⟨_, List.mem_singleton_self _, rfl, by simp only [hk, hpresent, Bool.and_self],
        List.not_mem_nil⟩
    · obtain ⟨c, hc, hp, hcursor', hrest⟩ := h.resolve_left hcursor
      exact ⟨c, List.mem_filter.mpr ⟨hc, decide_eq_true ⟨hp, hcursor'⟩⟩, hp, hrest⟩
  obtain ⟨c, hc, hp, hthroughout, hnot⟩ := hchain
  by_cases hkeys : k ∈ page.keys
  · exact .inl hkeys
  · have hstill : k ∉ c.collected ++ page.keys := fun hmem =>
      (List.mem_append.mp hmem).elim hnot hkeys
    have hnext : page.next ≠ 0 := fun hnext => hstill (hlaw.whole hnext c hc k hthroughout)
    refine .inr ⟨hnext, ?_⟩
    rw [Store.scanned, if_neg hnext]
    exact ⟨_, List.mem_append_left _ (List.mem_map.mpr ⟨c, hc, rfl⟩), hp, rfl, hthroughout, hstill⟩

end
end WorkTicket.KeyStore
