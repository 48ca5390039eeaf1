import Mathlib

/-! A database transaction that its first failed statement aborts: every later statement
fails too, and a COMMIT of it is a ROLLBACK. A program that runs in such a transaction
and may raise is a `Session`. -/

namespace WorkTicket

structure Transaction (δ : Type) where
  committed : δ
  working : δ
  aborted : Bool

namespace Transaction

variable {δ α β : Type}

def begin (db : δ) : Transaction δ := ⟨db, db, false⟩

def abortedError : String :=
  "current transaction is aborted, commands ignored until end of transaction block"

/-- Runs a statement on the rows as the transaction sees them. -/
def execute (statement : δ → Except String (α × δ)) (t : Transaction δ) :
    Except String α × Transaction δ :=
  if t.aborted then (.error abortedError, t)
  else
    match statement t.working with
    | .ok (a, db) => (.ok a, { t with working := db })
    | .error e => (.error e, { t with aborted := true })

/-- Runs statements one after the other, whether or not those before have failed. -/
def executeAll (statements : List (δ → Except String (α × δ))) (t : Transaction δ) :
    Transaction δ :=
  statements.foldl (fun t statement => (t.execute statement).2) t

def commit (t : Transaction δ) : δ := if t.aborted then t.committed else t.working

variable {t : Transaction δ} {statement : δ → Except String (α × δ)}
  {statements : List (δ → Except String (α × δ))}

theorem execute_of_aborted (h : t.aborted) : t.execute statement = (.error abortedError, t) :=
  if_pos h

theorem execute_committed : (t.execute statement).2.committed = t.committed := by
  unfold execute
  split
  · rfl
  · split <;> rfl

theorem executeAll_committed : (t.executeAll statements).committed = t.committed := by
  induction statements generalizing t with
  | nil => rfl
  | cons statement statements ih => exact ih.trans execute_committed

theorem executeAll_of_aborted (h : t.aborted) : t.executeAll statements = t := by
  induction statements with
  | nil => rfl
  | cons statement statements ih =>
    simpa only [executeAll, List.foldl_cons, execute_of_aborted h] using ih

/-- One statement that always fails aborts the transaction, wherever it stands. -/
theorem aborted_executeAll (hmem : statement ∈ statements)
    (hfails : ∀ db, ∃ e, statement db = .error e) : (t.executeAll statements).aborted := by
  induction statements generalizing t with
  | nil => cases hmem
  | cons first statements ih =>
    rcases List.mem_cons.mp hmem with rfl | hlater
    · have haborted : (t.execute statement).2.aborted := by
        obtain ⟨e, he⟩ := hfails t.working
        unfold execute
        split
        · assumption
        · rw [he]
      rw [executeAll, List.foldl_cons]
      exact (congrArg aborted (executeAll_of_aborted haborted)).trans haborted
    · exact ih hlater

theorem commit_of_aborted (h : t.aborted) : t.commit = t.committed := if_pos h

/-- A program on a transaction, which ends with a value or an exception; an exception
leaves the transaction as the statements before it have left it. -/
abbrev Session (δ : Type) := ExceptT String (StateM (Transaction δ))

namespace Session

def execute (statement : δ → Except String (α × δ)) : Session δ α :=
  ExceptT.mk fun t => t.execute statement

def run (x : Session δ α) (t : Transaction δ) : Except String α × Transaction δ := x t

/-- What is committed of a program: nothing if it raises. -/
def commitRun (x : Session δ α) (db : δ) : δ :=
  match x.run (begin db) with
  | (.ok _, t) => t.commit
  | (.error _, t) => t.committed

variable {x : Session δ α} {f : α → Session δ β} {handler : String → Session δ α}
  {t' : Transaction δ} {a : α} {e : String}

theorem run_execute : (execute statement).run t = t.execute statement := rfl

theorem run_pure : (pure a : Session δ α).run t = (.ok a, t) := rfl

theorem run_bind_ok (h : x.run t = (.ok a, t')) : (x >>= f).run t = (f a).run t' := by
  change (ExceptT.bindCont f (x t).1) (x t).2 = _
  rw [show x t = _ from h]
  rfl

theorem run_bind_error (h : x.run t = (.error e, t')) : (x >>= f).run t = (.error e, t') := by
  change (ExceptT.bindCont f (x t).1) (x t).2 = _
  rw [show x t = _ from h]
  rfl

theorem run_tryCatch_ok (h : x.run t = (.ok a, t')) :
    (tryCatch x handler).run t = (.ok a, t') := by
  simp only [run, tryCatch, tryCatchThe, MonadExceptOf.tryCatch, ExceptT.tryCatch, ExceptT.mk,
    bind, StateT.bind]
  rw [show x t = _ from h]
  rfl

theorem run_tryCatch_error (h : x.run t = (.error e, t')) :
    (tryCatch x handler).run t = (handler e).run t' := by
  simp only [run, tryCatch, tryCatchThe, MonadExceptOf.tryCatch, ExceptT.tryCatch, ExceptT.mk,
    bind, StateT.bind]
  rw [show x t = _ from h]

theorem commitRun_of_ok {db : δ} (h : x.run (begin db) = (.ok a, t')) :
    x.commitRun db = t'.commit := by
  rw [commitRun, h]

theorem commitRun_of_error {db : δ} (h : x.run (begin db) = (.error e, t')) :
    x.commitRun db = t'.committed := by
  rw [commitRun, h]

/-- Whatever a program does, and however it ends, it keeps `P` of the rows. -/
def Keeps (P : δ → Prop) (x : Session δ α) : Prop :=
  ∀ t : Transaction δ, P t.committed → P t.working →
    P (x.run t).2.committed ∧ P (x.run t).2.working

variable {P : δ → Prop}

theorem Keeps.pure (a : α) : Keeps P (pure a : Session δ α) := fun _ hc hw => ⟨hc, hw⟩

theorem Keeps.throw (e : String) : Keeps P (throw e : Session δ α) := fun _ hc hw => ⟨hc, hw⟩

theorem Keeps.bind (hx : Keeps P x) (hf : ∀ a, Keeps P (f a)) : Keeps P (x >>= f) := by
  intro t hc hw
  obtain ⟨hc', hw'⟩ := hx t hc hw
  cases hrun : x.run t with
  | mk r t' =>
    rw [hrun] at hc' hw'
    cases r with
    | ok a =>
      rw [run_bind_ok hrun]
      exact hf a t' hc' hw'
    | error e =>
      rw [run_bind_error hrun]
      exact ⟨hc', hw'⟩

theorem Keeps.tryCatch (hx : Keeps P x) (hhandler : ∀ e, Keeps P (handler e)) :
    Keeps P (tryCatch x handler) := by
  intro t hc hw
  obtain ⟨hc', hw'⟩ := hx t hc hw
  cases hrun : x.run t with
  | mk r t' =>
    rw [hrun] at hc' hw'
    cases r with
    | ok a =>
      rw [run_tryCatch_ok hrun]
      exact ⟨hc', hw'⟩
    | error e =>
      rw [run_tryCatch_error hrun]
      exact hhandler e t' hc' hw'

theorem Keeps.execute (h : ∀ db a db', P db → statement db = .ok (a, db') → P db') :
    Keeps P (Session.execute statement) := by
  intro t hc hw
  rw [run_execute, Transaction.execute]
  split
  · exact ⟨hc, hw⟩
  · split
    · rename_i a db' hstatement
      exact ⟨hc, h _ _ _ hw hstatement⟩
    · exact ⟨hc, hw⟩

theorem Keeps.foldlM {γ : Type} {step : α → γ → Session δ α} (hstep : ∀ a c, Keeps P (step a c))
    (l : List γ) (a : α) : Keeps P (l.foldlM step a) := by
  induction l generalizing a with
  | nil => exact Keeps.pure a
  | cons c l ih =>
    rw [List.foldlM_cons]
    exact (hstep a c).bind ih

theorem Keeps.mapM {γ : Type} {step : γ → Session δ α} (hstep : ∀ c, Keeps P (step c))
    (l : List γ) : Keeps P (l.mapM step) := by
  induction l with
  | nil => exact Keeps.pure []
  | cons c l ih =>
    rw [List.mapM_cons]
    exact (hstep c).bind fun a => ih.bind fun as => Keeps.pure (a :: as)

theorem Keeps.commitRun {db : δ} (hx : Keeps P x) (hdb : P db) : P (x.commitRun db) := by
  obtain ⟨hc, hw⟩ := hx (begin db) hdb hdb
  unfold Session.commitRun
  split
  · rename_i a t hrun
    rw [hrun] at hc hw
    unfold Transaction.commit
    split
    · exact hc
    · exact hw
  · rename_i e t hrun
    rw [hrun] at hc
    exact hc

/-! ## Closing a session without a commit -/

/-- What is committed of a program after which the session is closed. -/
def closeRun (x : Session δ α) (db : δ) : δ := (x.run (begin db)).2.committed

/-- The program moves no committed row by itself. -/
def Uncommitting (x : Session δ α) : Prop :=
  ∀ t : Transaction δ, (x.run t).2.committed = t.committed

theorem Uncommitting.pure (a : α) : Uncommitting (pure a : Session δ α) := fun _ => rfl

theorem Uncommitting.throw (e : String) : Uncommitting (throw e : Session δ α) := fun _ => rfl

theorem Uncommitting.execute : Uncommitting (Session.execute statement) :=
  fun _ => execute_committed

theorem Uncommitting.bind (hx : Uncommitting x) (hf : ∀ a, Uncommitting (f a)) :
    Uncommitting (x >>= f) := by
  intro t
  have hfirst := hx t
  cases hrun : x.run t with
  | mk r t' =>
    rw [hrun] at hfirst
    cases r with
    | ok a =>
      rw [run_bind_ok hrun]
      exact (hf a t').trans hfirst
    | error e =>
      rw [run_bind_error hrun]
      exact hfirst

theorem Uncommitting.closeRun (hx : Uncommitting x) (db : δ) : x.closeRun db = db := hx (begin db)

/-- No statement of the program fails, and it raises nothing. -/
def Succeeds (x : Session δ α) : Prop :=
  ∀ t : Transaction δ, t.aborted = false →
    ∃ a t', x.run t = (.ok a, t') ∧ t'.aborted = false

theorem Succeeds.pure (a : α) : Succeeds (pure a : Session δ α) := fun t h => ⟨a, t, rfl, h⟩

theorem Succeeds.execute (h : ∀ db, ∃ r, statement db = .ok r) :
    Succeeds (Session.execute statement) := by
  intro t haborted
  obtain ⟨r, hr⟩ := h t.working
  refine ⟨r.1, { t with working := r.2 }, ?_, haborted⟩
  rw [run_execute, Transaction.execute, haborted, if_neg Bool.false_ne_true, hr]

theorem Succeeds.bind (hx : Succeeds x) (hf : ∀ a, Succeeds (f a)) : Succeeds (x >>= f) := by
  intro t haborted
  obtain ⟨a, t', hrun, haborted'⟩ := hx t haborted
  rw [run_bind_ok hrun]
  exact hf a t' haborted'

theorem Succeeds.mapM {γ : Type} {step : γ → Session δ α} {l : List γ}
    (hstep : ∀ c ∈ l, Succeeds (step c)) : Succeeds (l.mapM step) := by
  induction l with
  | nil => exact Succeeds.pure []
  | cons c l ih =>
    rw [List.mapM_cons]
    have hrest : Succeeds (l.mapM step) := ih fun c hc => hstep c (List.mem_cons_of_mem _ hc)
    exact (hstep c List.mem_cons_self).bind fun a => hrest.bind fun as => Succeeds.pure (a :: as)

/-! ## Two runs of a program -/

/-- Two transactions that stand alike, their committed rows related by `C` and their working rows
by `R`. -/
structure Alike (C R : δ → δ → Prop) (t t' : Transaction δ) : Prop where
  aborted : t.aborted = t'.aborted
  committed : C t.committed t'.committed
  working : R t.working t'.working

/-- From rows related by `R` two runs of the program end alike: with one value and rows related by
`Q`, or with one exception and rows still related by `R`. -/
def Agrees (C R : δ → δ → Prop) (x : Session δ α) (Q : α → δ → δ → Prop) : Prop :=
  ∀ t t' : Transaction δ, Alike C R t t' →
    (x.run t).1 = (x.run t').1 ∧
      Alike C (match (x.run t).1 with | .ok a => Q a | .error _ => R) (x.run t).2 (x.run t').2

section
variable {C R R' : δ → δ → Prop} {Q : α → δ → δ → Prop} {Q' : β → δ → δ → Prop}

theorem Alike.mono {t t' : Transaction δ} (h : Alike C R t t') (hR : ∀ s s', R s s' → R' s s') :
    Alike C R' t t' :=
  ⟨h.aborted, h.committed, hR _ _ h.working⟩

theorem Agrees.pure {a : α} (hR : ∀ s s', R s s' → Q a s s') :
    Agrees C R (Pure.pure a : Session δ α) Q :=
  fun _ _ halike => ⟨rfl, halike.mono hR⟩

theorem Agrees.conseq {Q' : α → δ → δ → Prop} (hx : Agrees C R x Q)
    (hQ : ∀ a s s', Q a s s' → Q' a s s') : Agrees C R x Q' := by
  intro t t' halike
  obtain ⟨hsame, hafter⟩ := hx t t' halike
  refine ⟨hsame, ?_⟩
  cases hrun : (x.run t).1 with
  | ok a =>
    rw [hrun] at hafter
    exact hafter.mono (hQ a)
  | error e => simpa only [hrun] using hafter

/-- What a run of the first program gives decides how the second starts. -/
theorem Agrees.bind (hx : Agrees C R x Q) (hf : ∀ a, Agrees C (Q a) (f a) Q')
    (hR : ∀ a s s', Q a s s' → R s s') : Agrees C R (x >>= f) Q' := by
  intro t t' halike
  obtain ⟨hsame, hafter⟩ := hx t t' halike
  cases hrun : x.run t with
  | mk r u =>
    cases hrun' : x.run t' with
    | mk r' u' =>
      rw [hrun, hrun'] at hsame hafter
      obtain rfl : r = r' := hsame
      cases r with
      | error e =>
        rw [run_bind_error hrun, run_bind_error hrun']
        exact ⟨rfl, hafter⟩
      | ok a =>
        rw [run_bind_ok hrun, run_bind_ok hrun']
        obtain ⟨hsame', hafter'⟩ := hf a u u' hafter
        refine ⟨hsame', ?_⟩
        cases hrest : ((f a).run u).1 with
        | ok b => simpa only [hrest] using hafter'
        | error e =>
          rw [hrest] at hafter'
          exact hafter'.mono (hR a)

/-- The first program leaves the rows related as they are. -/
theorem Agrees.seq (hx : Agrees C R x fun _ => R) (hf : ∀ a, Agrees C R (f a) Q') :
    Agrees C R (x >>= f) Q' :=
  hx.bind hf fun _ _ _ hR => hR

theorem Agrees.tryCatch (hx : Agrees C R x Q) (hhandler : ∀ e, Agrees C R (handler e) Q) :
    Agrees C R (tryCatch x handler) Q := by
  intro t t' halike
  obtain ⟨hsame, hafter⟩ := hx t t' halike
  cases hrun : x.run t with
  | mk r u =>
    cases hrun' : x.run t' with
    | mk r' u' =>
      rw [hrun, hrun'] at hsame hafter
      obtain rfl : r = r' := hsame
      cases r with
      | ok a =>
        rw [run_tryCatch_ok hrun, run_tryCatch_ok hrun']
        exact ⟨rfl, hafter⟩
      | error e =>
        rw [run_tryCatch_error hrun, run_tryCatch_error hrun']
        exact hhandler e u u' hafter

/-- A statement that fails on both contents or on neither. -/
theorem Agrees.execute (h : ∀ s s', R s s' →
      (∃ a r r', statement s = .ok (a, r) ∧ statement s' = .ok (a, r') ∧ Q a r r') ∨
        ∃ e, statement s = .error e ∧ statement s' = .error e) :
    Agrees C R (Session.execute statement) Q := by
  intro t t' halike
  rw [run_execute, run_execute]
  by_cases haborted : t.aborted = true
  · have haborted' : t'.aborted = true := halike.aborted ▸ haborted
    rw [execute_of_aborted haborted, execute_of_aborted haborted']
    exact ⟨rfl, halike⟩
  · have haborted' : ¬t'.aborted = true := halike.aborted ▸ haborted
    rw [Transaction.execute, Transaction.execute, if_neg haborted, if_neg haborted']
    rcases h _ _ halike.working with ⟨a, r, r', hok, hok', hQ⟩ | ⟨e, herror, herror'⟩
    · rw [hok, hok']
      exact ⟨rfl, halike.aborted, halike.committed, hQ⟩
    · rw [herror, herror']
      exact ⟨rfl, rfl, halike.committed, halike.working⟩

theorem Agrees.foldlM {γ : Type} {step : α → γ → Session δ α}
    (hstep : ∀ a c, Agrees C R (step a c) fun _ => R) (l : List γ) (a : α) :
    Agrees C R (l.foldlM step a) fun _ => R := by
  induction l generalizing a with
  | nil => exact Agrees.pure fun _ _ hR => hR
  | cons c l ih =>
    rw [List.foldlM_cons]
    exact (hstep a c).seq ih

theorem Agrees.mapM {γ : Type} {step : γ → Session δ α}
    (hstep : ∀ c, Agrees C R (step c) fun _ => R) (l : List γ) :
    Agrees C R (l.mapM step) fun _ => R := by
  induction l with
  | nil => exact Agrees.pure fun _ _ hR => hR
  | cons c l ih =>
    rw [List.mapM_cons]
    exact (hstep c).seq fun a => ih.seq fun as => Agrees.pure fun _ _ hR => hR

/-- A commit keeps the rows related, whichever of them it leaves. -/
theorem Alike.commit {t t' : Transaction δ} (h : Alike R R t t') : R t.commit t'.commit := by
  unfold Transaction.commit
  rw [h.aborted]
  split
  · exact h.committed
  · exact h.working

end

end Session

end Transaction

end WorkTicket
