import WorkTicket.Foundation.Transition

/-! Transactions that take locks one after the other and hold them to their end. If each waits
only for locks of a higher rank than those it holds, they never wait for each other in a
cycle. -/

namespace WorkTicket.LockOrder

open WorkTicket.Transition

/-- The locks that a transaction still asks for. A `tryLock` never waits. -/
inductive Script (ρ : Type*)
  | done
  | lock (r : ρ) (next : Script ρ)
  | tryLock (r : ρ) (taken missed : Script ρ)

def locks {ρ : Type*} (rs : List ρ) (next : Script ρ) : Script ρ := rs.foldr Script.lock next

structure State (ρ ι : Type*) where
  holder : ρ → Option ι
  script : ι → Script ρ

inductive Event (ι : Type*)
  | advance (i : ι)
  | finish (i : ι)

section
variable {ρ ι : Type*}

def start (scripts : ι → Script ρ) : State ρ ι := ⟨fun _ => none, scripts⟩

def State.held (s : State ρ ι) (i : ι) : Set ρ := {r | s.holder r = some i}

def State.Free (s : State ρ ι) (i : ι) (r : ρ) : Prop := s.holder r = none ∨ s.holder r = some i

variable [DecidableEq ρ] [DecidableEq ι]

instance (s : State ρ ι) (i : ι) (r : ρ) : Decidable (s.Free i r) :=
  inferInstanceAs (Decidable (_ ∨ _))

def State.take (s : State ρ ι) (i : ι) (r : ρ) (next : Script ρ) : State ρ ι where
  holder := Function.update s.holder r (some i)
  script := Function.update s.script i next

def State.miss (s : State ρ ι) (i : ι) (next : Script ρ) : State ρ ι :=
  { s with script := Function.update s.script i next }

/-- The end of a transaction, by a commit or, at any time, by a rollback. -/
def State.finish (s : State ρ ι) (i : ι) : State ρ ι where
  holder := fun r => if s.holder r = some i then none else s.holder r
  script := Function.update s.script i .done

/-- A transaction advances only when the lock it asks for is free. -/
def step (s : State ρ ι) : Event ι → Option (State ρ ι)
  | .advance i =>
    match s.script i with
    | .done => none
    | .lock r next => if s.Free i r then some (s.take i r next) else none
    | .tryLock r taken missed =>
      some (if s.Free i r then s.take i r taken else s.miss i missed)
  | .finish i => some (s.finish i)

end

/-! ## Waiting -/

section
variable {ρ ι : Type*} {s s' : State ρ ι}

def WaitsFor (s : State ρ ι) (i j : ι) : Prop :=
  ∃ r next, s.script i = .lock r next ∧ s.holder r = some j ∧ j ≠ i

def Deadlocked (s : State ρ ι) : Prop := ∃ i, Relation.TransGen (WaitsFor s) i i

variable {κ : Type*} [Preorder κ] {rank : ρ → κ}

/-- Holding these locks, the transaction waits only for a lock it has or one above them all. -/
def Ordered (rank : ρ → κ) : Set ρ → Script ρ → Prop
  | _, .done => True
  | held, .lock r next =>
    (r ∈ held ∨ ∀ r' ∈ held, rank r' < rank r) ∧ Ordered rank (insert r held) next
  | held, .tryLock r taken missed => Ordered rank (insert r held) taken ∧ Ordered rank held missed

/-- What a transaction waits for ranks above what it is waited for. -/
theorem rank_lt_of_transGen (h : ∀ i, Ordered rank (s.held i) (s.script i)) {i j : ι} {r r' : ρ}
    {next next' : Script ρ} (hi : s.script i = .lock r next) (hj : s.script j = .lock r' next')
    (hwaits : ∃ k ≠ j, s.holder r' = some k) (hpath : Relation.TransGen (WaitsFor s) i j) :
    rank r < rank r' := by
  have hstep : ∀ {i j : ι} {r r' : ρ} {next next' : Script ρ}, s.script i = .lock r next →
      s.script j = .lock r' next' → (∃ k ≠ j, s.holder r' = some k) → WaitsFor s i j →
      rank r < rank r' := by
    rintro i j r r' next next' hi hj ⟨k, hk, hheld⟩ ⟨_, _, hi', hr, -⟩
    cases hi.symm.trans hi'
    have hordered := h j
    rw [hj] at hordered
    rcases hordered.1 with hown | habove
    · exact absurd (Option.some.inj (hheld.symm.trans hown)) hk
    · exact habove r hr
  induction hpath generalizing r' next' with
  | single hwait => exact hstep hi hj hwaits hwait
  | tail hpath hwait ih =>
    obtain ⟨r₁, next₁, hscript, hr₁, hne⟩ := hwait
    have hbefore := ih hscript ⟨_, hne, hr₁⟩
    exact hbefore.trans (hstep hscript hj hwaits ⟨r₁, next₁, hscript, hr₁, hne⟩)

theorem not_deadlocked (h : ∀ i, Ordered rank (s.held i) (s.script i)) : ¬Deadlocked s := by
  rintro ⟨i, hcycle⟩
  obtain ⟨j, ⟨r, next, hi, hr, hne⟩, -⟩ := Relation.TransGen.head'_iff.mp hcycle
  exact lt_irrefl _ (rank_lt_of_transGen h hi hi ⟨j, hne, hr⟩ hcycle)

/-! ## Runs -/

variable [DecidableEq ρ] [DecidableEq ι]

theorem held_take (i : ι) (r : ρ) (next : Script ρ) :
    (s.take i r next).held i = insert r (s.held i) := by
  ext r'
  by_cases hr : r' = r
  · simp [State.held, State.take, hr]
  · simp [State.held, State.take, hr]

theorem held_take_of_ne {i j : ι} {r : ρ} (hfree : s.Free i r) (hne : j ≠ i) (next : Script ρ) :
    (s.take i r next).held j = s.held j := by
  ext r'
  by_cases hr : r' = r
  · subst hr
    rcases hfree with hnone | hown
    · simp [State.held, State.take, hnone, hne.symm]
    · simp [State.held, State.take, hown, hne.symm]
  · simp [State.held, State.take, hr]

theorem ordered_take (h : ∀ i, Ordered rank (s.held i) (s.script i)) {i : ι} {r : ρ}
    {next : Script ρ} (hfree : s.Free i r) (hnext : Ordered rank (insert r (s.held i)) next)
    (j : ι) : Ordered rank ((s.take i r next).held j) ((s.take i r next).script j) := by
  by_cases hj : j = i
  · subst hj
    rw [held_take]
    simpa [State.take] using hnext
  · rw [held_take_of_ne hfree hj]
    simpa [State.take, hj] using h j

theorem ordered_step {e : Event ι} (h : ∀ i, Ordered rank (s.held i) (s.script i))
    (hs : step s e = some s') : ∀ i, Ordered rank (s'.held i) (s'.script i) := by
  cases e with
  | advance i =>
    have hi := h i
    cases hscript : s.script i with
    | done => simp [step, hscript] at hs
    | lock r next =>
      simp only [step, hscript] at hs
      obtain ⟨hfree, htaken⟩ := Option.ite_none_right_eq_some.mp hs
      cases htaken
      rw [hscript] at hi
      exact ordered_take h hfree hi.2
    | tryLock r taken missed =>
      simp only [step, hscript, Option.some.injEq] at hs
      rw [hscript] at hi
      split_ifs at hs with hfree
      · subst hs
        exact ordered_take h hfree hi.1
      · subst hs
        intro j
        by_cases hj : j = i
        · subst hj
          simpa [State.miss, State.held] using hi.2
        · simpa [State.miss, State.held, hj] using h j
  | finish i =>
    obtain rfl := Option.some.inj hs
    intro j
    by_cases hj : j = i
    · subst hj
      simp [State.finish, Ordered]
    · have hheld : (s.finish i).held j = s.held j := by
        ext r
        by_cases hr : s.holder r = some i
        · simp [State.held, State.finish, hr, Ne.symm hj]
        · simp [State.held, State.finish, hr]
      rw [hheld]
      simpa [State.finish, hj] using h j

/-- The rule of lock orders: scripts that keep to one order keep to it in every state. -/
theorem ordered_of_reached {scripts : ι → Script ρ} (h : ∀ i, Ordered rank ∅ (scripts i))
    (hs : Reached step (start scripts) s) : ∀ i, Ordered rank (s.held i) (s.script i) := by
  refine hs.invariant (I := fun s => ∀ i, Ordered rank (s.held i) (s.script i)) (fun i => ?_)
    fun _ _ _ h _ hs => ordered_step h hs
  have hnone : (start scripts).held i = ∅ := by simp [start, State.held]
  rw [hnone]
  exact h i

end

/-! ## A transaction that runs alone -/

section
variable {ρ ι : Type*} {s : State ρ ι}

/-- Where a transaction gets with these locks in hand, if every lock it tries is free. -/
inductive Alone : Set ρ → Script ρ → Set ρ → Script ρ → Prop
  | here {held : Set ρ} {script : Script ρ} : Alone held script held script
  | lock {held held' : Set ρ} {r : ρ} {next script' : Script ρ} :
      Alone (insert r held) next held' script' → Alone held (.lock r next) held' script'
  | tryLock {held held' : Set ρ} {r : ρ} {taken missed script' : Script ρ} :
      Alone (insert r held) taken held' script' → Alone held (.tryLock r taken missed) held' script'

theorem Alone.locks {held held' : Set ρ} {rs : List ρ} {next script' : Script ρ}
    (h : Alone (held ∪ {r | r ∈ rs}) next held' script') :
    Alone held (locks rs next) held' script' := by
  induction rs generalizing held with
  | nil => simpa [LockOrder.locks] using h
  | cons r rs ih =>
    refine .lock (ih ?_)
    have hset : insert r held ∪ {r' | r' ∈ rs} = held ∪ {r' | r' ∈ r :: rs} := by
      ext r'
      simp only [Set.mem_union, Set.mem_insert_iff, Set.mem_ofPred_eq, List.mem_cons]
      tauto
    rwa [hset]

variable [DecidableEq ρ] [DecidableEq ι]

theorem Alone.reached {held held' : Set ρ} {script script' : Script ρ} {i : ι}
    (h : Alone held script held' script') (hscript : s.script i = script)
    (hheld : s.held i = held) (hfree : ∀ r, s.Free i r) :
    ∃ s', Reached step s s' ∧ s'.script i = script' ∧ s'.held i = held' := by
  have htake : ∀ {s : State ρ ι} {r : ρ} {next : Script ρ}, (∀ r, s.Free i r) →
      ∀ r', (s.take i r next).Free i r' := by
    intro s r next hfree r'
    by_cases hr : r' = r
    · exact .inr (by simp [State.take, hr])
    · simpa [State.Free, State.take, hr] using hfree r'
  induction h generalizing s with
  | here => exact ⟨s, .start, hscript, hheld⟩
  | @lock held held' r next script' h ih =>
    obtain ⟨s', hs', hend⟩ := @ih (s.take i r next) (by simp [State.take])
      (by rw [held_take, hheld]) (htake hfree)
    have hstep : step s (.advance i) = some (s.take i r next) := by
      simp [step, hscript, hfree r]
    exact ⟨s', (ReachedBy.start.step trivial hstep).trans hs', hend⟩
  | @tryLock held held' r taken missed script' h ih =>
    obtain ⟨s', hs', hend⟩ := @ih (s.take i r taken) (by simp [State.take])
      (by rw [held_take, hheld]) (htake hfree)
    have hstep : step s (.advance i) = some (s.take i r taken) := by
      simp [step, hscript, hfree r]
    exact ⟨s', (ReachedBy.start.step trivial hstep).trans hs', hend⟩

end

end WorkTicket.LockOrder
