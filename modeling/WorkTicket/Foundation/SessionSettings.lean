import Mathlib

/-! Settings of pooled database connections. A SET or RESET takes part in the
transaction it is issued in: a commit keeps it on the connection, a rollback undoes it,
and after a failed statement a commit is a rollback. A session opens a transaction on a
connection of the pool with the first statement after the last one ended. -/

namespace WorkTicket.SessionSettings

variable {γ κ V : Type*}

/-- The settings of a connection; an unset one has no value. -/
abbrev Settings (κ V : Type*) := κ → Option V

/-- `SET key = v` or, without a value, `RESET key`. -/
structure Assignment (κ V : Type*) where
  key : κ
  value : Option V
  deriving DecidableEq

/-- What a session does; `ok` is false when the statement fails. -/
inductive Op (κ V : Type*)
  | assign (a : Assignment κ V) (ok : Bool)
  | query (ok : Bool)
  | commit (ok : Bool)
  | rollback
  deriving DecidableEq

structure Tx (γ κ V : Type*) where
  conn : γ
  made : List (Assignment κ V)
  aborted : Bool

/-- The number of transactions a session has begun, and the one that is open. -/
structure Session (γ κ V : Type*) where
  begun : ℕ
  tx : Option (Tx γ κ V)

def Session.new : Session γ κ V := ⟨0, none⟩

def Tx.assign (x : Tx γ κ V) (a : Assignment κ V) (ok : Bool) : Tx γ κ V :=
  if x.aborted then x
  else if ok then { x with made := x.made ++ [a] }
  else { x with aborted := true }

def Tx.query (x : Tx γ κ V) (ok : Bool) : Tx γ κ V := { x with aborted := x.aborted || !ok }

section
variable (connection : ℕ → γ)

def Session.opened (s : Session γ κ V) : Tx γ κ V := s.tx.getD ⟨connection s.begun, [], false⟩

def Session.inTx (s : Session γ κ V) (f : Tx γ κ V → Tx γ κ V) : Session γ κ V :=
  ⟨if s.tx.isNone then s.begun + 1 else s.begun, some (f (s.opened connection))⟩

def Session.next (s : Session γ κ V) : Op κ V → Session γ κ V
  | .assign a ok => s.inTx connection fun x => x.assign a ok
  | .query ok => s.inTx connection fun x => x.query ok
  | .commit _ | .rollback => ⟨s.begun, none⟩

def Session.keeps (s : Session γ κ V) : Op κ V → List (γ × Assignment κ V)
  | .commit true => s.tx.elim [] fun x => if x.aborted then [] else x.made.map (x.conn, ·)
  | _ => []

def kept : Session γ κ V → List (Op κ V) → List (γ × Assignment κ V)
  | _, [] => []
  | s, op :: ops => s.keeps op ++ kept (s.next connection op) ops

variable [DecidableEq γ] [DecidableEq κ]

def Assignment.apply (a : Assignment κ V) (s : Settings κ V) : Settings κ V :=
  Function.update s a.key a.value

def settle (pool : γ → Settings κ V) (l : List (γ × Assignment κ V)) : γ → Settings κ V :=
  l.foldl (fun p x => Function.update p x.1 (x.2.apply (p x.1))) pool

def Tx.current (pool : γ → Settings κ V) (x : Tx γ κ V) : Settings κ V :=
  x.made.foldl (fun s a => a.apply s) (pool x.conn)

def Session.view (s : Session γ κ V) (pool : γ → Settings κ V) : Op κ V → List (Settings κ V)
  | .query _ =>
    if (s.opened connection).aborted then [] else [(s.opened connection).current pool]
  | _ => []

def views : Session γ κ V → (γ → Settings κ V) → List (Op κ V) → List (Settings κ V)
  | _, _, [] => []
  | s, pool, op :: ops =>
    s.view connection pool op ++ views (s.next connection op) (settle pool (s.keeps op)) ops

end

theorem kept_append (connection : ℕ → γ) (s : Session γ κ V) (ops ops' : List (Op κ V)) :
    kept connection s (ops ++ ops') =
      kept connection s ops ++ kept connection (ops.foldl (Session.next connection) s) ops' := by
  induction ops generalizing s with
  | nil => rfl
  | cons op ops ih => simp only [List.cons_append, kept, ih, List.append_assoc, List.foldl_cons]

theorem kept_eq_nil {connection : ℕ → γ} {s : Session γ κ V} {ops : List (Op κ V)}
    (h : .commit true ∉ ops) : kept connection s ops = [] := by
  induction ops generalizing s with
  | nil => rfl
  | cons op ops ih =>
    have hop : s.keeps op = [] := by
      unfold Session.keeps
      split
      · exact absurd List.mem_cons_self h
      · rfl
    rw [kept, hop, ih fun hm => h (List.mem_cons_of_mem _ hm), List.nil_append]

/-! ## When a session leaves the pool as it found it -/

/-- Every SET in the list is followed by a RESET of it on the same connection. -/
def Undone (l : List (γ × Assignment κ V)) : Prop :=
  ∀ pre post c k v, l = pre ++ (c, ⟨k, some v⟩) :: post → (c, ⟨k, none⟩) ∈ post

section
variable [DecidableEq γ] [DecidableEq κ]

theorem settle_append (pool : γ → Settings κ V) (l l' : List (γ × Assignment κ V)) :
    settle pool (l ++ l') = settle (settle pool l) l' := List.foldl_append

theorem settle_concat (pool : γ → Settings κ V) (l : List (γ × Assignment κ V)) (c c' : γ)
    (k : κ) (a : Assignment κ V) :
    settle pool (l ++ [(c', a)]) c k =
      if c' = c ∧ a.key = k then a.value else settle pool l c k := by
  rw [settle_append]
  simp only [settle, List.foldl_cons, List.foldl_nil]
  by_cases hc : c = c'
  · subst hc
    rw [Function.update_self, Assignment.apply]
    by_cases hk : k = a.key
    · subst hk
      simp
    · simp [Function.update_of_ne hk, Ne.symm hk]
  · simp [Function.update_of_ne hc, Ne.symm hc]

theorem settle_eq_none_iff (l : List (γ × Assignment κ V)) (c : γ) (k : κ) :
    settle (fun _ _ => none) l c k = none ↔
      ∀ pre post v, l = pre ++ (c, ⟨k, some v⟩) :: post → (c, ⟨k, none⟩) ∈ post := by
  induction l using List.reverseRecOn with
  | nil => simp [settle]
  | append_singleton l x ih =>
    obtain ⟨c', k', value⟩ := x
    rw [settle_concat]
    by_cases hx : c' = c ∧ k' = k
    · obtain ⟨rfl, rfl⟩ := hx
      simp only [and_self, if_true]
      cases value with
      | none =>
        refine ⟨fun _ pre post v h => ?_, fun _ => rfl⟩
        -- the RESET at the end is behind every SET of the list
        rcases List.eq_nil_or_concat post with rfl | ⟨post', y, rfl⟩
        · have := List.append_inj_right' h rfl
          simp at this
        · rw [List.concat_eq_append, ← List.cons_append, ← List.append_assoc] at h
          obtain ⟨-, hy⟩ := List.append_inj' h rfl
          simp [← List.singleton_inj.mp hy]
      | some v =>
        refine ⟨fun h => (by cases h), fun h => ?_⟩
        exact absurd (h l [] v rfl) (by simp)
    · rw [if_neg hx, ih]
      constructor
      · intro h pre post v hsplit
        rcases List.eq_nil_or_concat post with rfl | ⟨post', y, rfl⟩
        · have := List.append_inj_right' hsplit rfl
          simp only [List.cons.injEq, Prod.mk.injEq, Assignment.mk.injEq, and_true] at this
          exact absurd ⟨this.1, this.2.1⟩ hx
        · rw [List.concat_eq_append, ← List.cons_append, ← List.append_assoc] at hsplit
          obtain ⟨hl, -⟩ := List.append_inj' hsplit rfl
          rw [List.concat_eq_append]
          exact List.mem_append.mpr (.inl (h pre post' v hl))
      · intro h pre post v hsplit
        have hmem := h pre (post ++ [(c', ⟨k', value⟩)]) v (by rw [hsplit]; simp)
        rcases List.mem_append.mp hmem with hmem | hmem
        · exact hmem
        · simp only [List.mem_singleton, Prod.mk.injEq, Assignment.mk.injEq] at hmem
          exact absurd ⟨hmem.1.symm, hmem.2.1.symm⟩ hx

theorem settle_unset_iff (l : List (γ × Assignment κ V)) :
    settle (fun _ _ => none) l = (fun _ _ => none) ↔ Undone l := by
  simp only [funext_iff, settle_eq_none_iff, Undone]
  exact ⟨fun h pre post c k v => h c k pre post v, fun h c k pre post v => h pre post c k v⟩

/-! ## Whose settings a query sees -/

variable {connection : ℕ → γ} {asked : κ → V → Prop}

def ComesFrom (asked : κ → V → Prop) (s : Settings κ V) : Prop := ∀ k v, s k = some v → asked k v

omit [DecidableEq γ] in
theorem ComesFrom.apply {a : Assignment κ V} {s : Settings κ V} (h : ComesFrom asked s)
    (ha : ∀ v, a.value = some v → asked a.key v) : ComesFrom asked (a.apply s) := by
  intro k v hk
  unfold Assignment.apply at hk
  by_cases hka : k = a.key
  · subst hka
    rw [Function.update_self] at hk
    exact ha v hk
  · rw [Function.update_of_ne hka] at hk
    exact h k v hk

omit [DecidableEq γ] in
theorem ComesFrom.foldl {l : List (Assignment κ V)} {s : Settings κ V} (h : ComesFrom asked s)
    (hl : ∀ a ∈ l, ∀ v, a.value = some v → asked a.key v) :
    ComesFrom asked (l.foldl (fun s a => a.apply s) s) := by
  induction l generalizing s with
  | nil => exact h
  | cons a l ih =>
    exact ih (h.apply (hl a List.mem_cons_self)) fun b hb => hl b (List.mem_cons_of_mem _ hb)

theorem ComesFrom.settle {l : List (γ × Assignment κ V)} {pool : γ → Settings κ V}
    (h : ∀ c, ComesFrom asked (pool c))
    (hl : ∀ x ∈ l, ∀ v, x.2.value = some v → asked x.2.key v) (c : γ) :
    ComesFrom asked (settle pool l c) := by
  induction l using List.reverseRecOn with
  | nil => exact h c
  | append_singleton l x ih =>
    intro k v hk
    rw [settle_concat] at hk
    split at hk
    · rename_i hx
      rw [← hx.2]
      exact hl x (by simp) v hk
    · exact ih (fun y hy => hl y (List.mem_append.mpr (.inl hy))) k v hk

def Session.Asked (asked : κ → V → Prop) (s : Session γ κ V) : Prop :=
  ∀ x ∈ s.tx, ∀ a ∈ x.made, ∀ v, a.value = some v → asked a.key v

omit [DecidableEq γ] [DecidableEq κ] in
theorem Session.Asked.opened {s : Session γ κ V} (h : s.Asked asked) :
    ∀ a ∈ (s.opened connection).made, ∀ v, a.value = some v → asked a.key v := by
  cases hx : s.tx with
  | none => simp [Session.opened, hx]
  | some x => simpa [Session.opened, hx] using h x hx

omit [DecidableEq γ] [DecidableEq κ] in
theorem Session.Asked.next {s : Session γ κ V} (h : s.Asked asked) {op : Op κ V}
    (hop : ∀ k v ok, op = .assign ⟨k, some v⟩ ok → asked k v) :
    (s.next connection op).Asked asked := by
  have hopened : ∀ a ∈ (s.opened connection).made, ∀ v, a.value = some v → asked a.key v := h.opened
  intro x hx
  cases op with
  | assign a ok =>
    obtain rfl : (s.opened connection).assign a ok = x := by
      simpa [Session.next, Session.inTx] using hx
    unfold Tx.assign
    split
    · exact hopened
    · split
      · intro b hb v hv
        rcases List.mem_append.mp hb with hb | hb
        · exact hopened b hb v hv
        · obtain rfl := List.mem_singleton.mp hb
          exact hop b.key v ok (by rw [← hv])
      · exact hopened
  | query ok =>
    obtain rfl : (s.opened connection).query ok = x := by
      simpa [Session.next, Session.inTx] using hx
    exact hopened
  | commit ok => simp [Session.next] at hx
  | rollback => simp [Session.next] at hx

omit [DecidableEq γ] [DecidableEq κ] in
theorem Session.Asked.keeps {s : Session γ κ V} (h : s.Asked asked) (op : Op κ V) :
    ∀ x ∈ s.keeps op, ∀ v, x.2.value = some v → asked x.2.key v := by
  intro x hx v hv
  unfold Session.keeps at hx
  split at hx
  · cases ht : s.tx with
    | none => simp [ht] at hx
    | some t =>
      rw [ht, Option.elim_some] at hx
      split at hx
      · cases hx
      · obtain ⟨a, ha, rfl⟩ := List.mem_map.mp hx
        exact h t ht a ha v hv
  · cases hx

/-- On a pool without foreign settings a session sees only settings it asked for. -/
theorem comesFrom_of_mem_views {ops : List (Op κ V)} {s : Session γ κ V} {pool : γ → Settings κ V}
    (hs : s.Asked asked) (hpool : ∀ c, ComesFrom asked (pool c))
    (hops : ∀ k v ok, Op.assign ⟨k, some v⟩ ok ∈ ops → asked k v) {view : Settings κ V}
    (hview : view ∈ views connection s pool ops) : ComesFrom asked view := by
  induction ops generalizing s pool with
  | nil => cases hview
  | cons op ops ih =>
    rcases List.mem_append.mp hview with hview | hview
    · cases op with
      | query ok =>
        simp only [Session.view] at hview
        split at hview
        · cases hview
        · obtain rfl := List.mem_singleton.mp hview
          exact (hpool _).foldl hs.opened
      | assign a ok => cases hview
      | commit ok => cases hview
      | rollback => cases hview
    · refine ih (hs.next fun k v ok he => hops k v ok (he ▸ List.mem_cons_self))
        (ComesFrom.settle hpool (hs.keeps op)) (fun k v ok h => ?_) hview
      exact hops k v ok (List.mem_cons_of_mem _ h)

end

end WorkTicket.SessionSettings
