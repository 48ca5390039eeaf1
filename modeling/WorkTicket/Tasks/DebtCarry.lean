import WorkTicket.Tasks.MonthlyReset

/-! The debt of an account across billing periods: `collect_billing_debt` charges it to the
running period, and a reset charges it to the period it then starts with nothing used. -/

namespace WorkTicket.Tasks.DebtCarry

open WorkTicket.Billing WorkTicket.Fallible WorkTicket.Tasks.MonthlyReset

/-- What `collect_billing_debt` does to an account it selects. -/
def collectBillingDebt (now : Time) (a : BillingAccount) : BillingAccount :=
  if hasDebt a then
    { a with usedAcu := a.usedAcu + a.acuDebt, acuDebt := 0, lastReconciled := some now }
  else a

/-- `reset` is a page or a retry of the monthly reset, `resetStale` its last query. -/
inductive Event
  | collect (now : Time)
  | reset (now : Time)
  | resetStale (now : Time)
  deriving DecidableEq, Repr

def act (a : BillingAccount) : Event → BillingAccount
  | .collect now => collectBillingDebt now a
  | .reset now => startPeriod now (collectDebt a)
  | .resetStale now => startPeriod now a

/-- `charged` is the part of `used_acu` that was charged for earlier debt. -/
structure Books where
  account : BillingAccount
  charged : ℚ

def Books.step (b : Books) (e : Event) : Books where
  account := act b.account e
  charged := match e with
    | .collect _ => if hasDebt b.account then b.charged + b.account.acuDebt else b.charged
    -- `used_acu = 0` is the last assignment of every reset
    | .reset _ | .resetStale _ => 0

/-- The debt to be found after the event: a reset closes the period of what was charged. -/
def Books.owed (b : Books) : Event → ℚ
  | .collect _ => b.account.acuDebt + b.charged
  | .reset _ | .resetStale _ => b.account.acuDebt

def KeepsDebt : Books → List Event → Prop
  | _, [] => True
  | b, e :: es =>
    (b.step e).account.acuDebt + (b.step e).charged = b.owed e ∧ KeepsDebt (b.step e) es

/-- No page or retry resets the account before its debt has been collected. -/
def collectedFirst : List Event → Bool
  | [] => true
  | .collect _ :: _ => true
  | .reset _ :: _ => false
  | .resetStale _ :: es => collectedFirst es

/-! ## One account -/

theorem hasDebt_iff {a : BillingAccount} : hasDebt a = true ↔ 1 / 100 < a.acuDebt := by
  simp [hasDebt]

theorem collectDebt_acuDebt (a : BillingAccount) :
    (collectDebt a).acuDebt = if hasDebt a then 0 else a.acuDebt := by
  unfold collectDebt
  split
  · split <;> rfl
  · rfl

theorem collectBillingDebt_acuDebt (now : Time) (a : BillingAccount) :
    (collectBillingDebt now a).acuDebt = if hasDebt a then 0 else a.acuDebt := by
  unfold collectBillingDebt
  split <;> rfl

theorem hasDebt_of_collected {a b : BillingAccount}
    (h : b.acuDebt = if hasDebt a then 0 else a.acuDebt) : hasDebt b = false := by
  rw [Bool.eq_false_iff, ne_eq, hasDebt_iff, h]
  split
  · norm_num
  · rename_i hnot
    rwa [← hasDebt_iff]

/-- Debt outlives nothing but the resets of the last query. -/
theorem hasDebt_act (a : BillingAccount) (e : Event) :
    hasDebt (act a e) = match e with
      | .resetStale _ => hasDebt a
      | _ => false := by
  cases e with
  | collect now => exact hasDebt_of_collected (collectBillingDebt_acuDebt now a)
  | reset now => exact hasDebt_of_collected (collectDebt_acuDebt a)
  | resetStale now => rfl

@[simp] theorem act_companyId (a : BillingAccount) (e : Event) :
    (act a e).companyId = a.companyId := by
  cases e with
  | collect now =>
    simp only [act, collectBillingDebt]
    split <;> rfl
  | reset now => exact collectDebt_companyId a
  | resetStale now => rfl

/-- Only a reset that meets debt forgives it. -/
theorem keepsDebt_step (b : Books) (e : Event) :
    (b.step e).account.acuDebt + (b.step e).charged = b.owed e ↔
      (hasDebt b.account = true → ∀ now, e ≠ .reset now) := by
  cases e with
  | collect now =>
    simp only [Books.step, Books.owed, act, collectBillingDebt_acuDebt]
    split
    · simp [add_comm]
    · simp
  | reset now =>
    have hdebt : (startPeriod now (collectDebt b.account)).acuDebt =
        (collectDebt b.account).acuDebt := rfl
    simp only [Books.step, Books.owed, act, hdebt, collectDebt_acuDebt, add_zero]
    split
    · rename_i hhas
      have hpos : (0 : ℚ) < b.account.acuDebt := by
        have := hasDebt_iff.mp hhas
        linarith
      simp [hhas, hpos.ne]
    · rename_i hnot
      simp [hnot]
  | resetStale now =>
    have hdebt : (startPeriod now b.account).acuDebt = b.account.acuDebt := rfl
    simp [Books.step, Books.owed, act, hdebt]

def debtor : BillingAccount :=
  ⟨7, "pro", 600, 40, 0, 5, some 500, false, none, none, none, some 100, none, 0⟩

/-- `collect_billing_debt` on the table: NOWAIT fails on the lock of any debtor. -/
def collectTable (now : Time) (commitOk : Bool) (rows : List Row) : Except DbError (List Row) :=
  if (rows.filter (hasDebt ·.account)).any (·.locked) then .error .lockNotAvailable
  else if (rows.filter (hasDebt ·.account)) ≠ [] ∧ commitOk = false then .error .commitFailed
  else .ok (rows.map fun r => { r with account := collectBillingDebt now r.account })

/-- Every account of the table has been through some of the events. -/
def Acted (rows rows' : List Row) : Prop :=
  List.Forall₂ (fun r r' => r'.id = r.id ∧ ∃ es : List Event, r'.account = es.foldl act r.account)
    rows rows'

theorem acted_refl (rows : List Row) : Acted rows rows :=
  List.forall₂_same.mpr fun _ _ => ⟨rfl, [], rfl⟩

theorem Acted.trans {rows rows' rows'' : List Row} (h : Acted rows rows')
    (h' : Acted rows' rows'') : Acted rows rows'' := by
  induction h generalizing rows'' with
  | nil => cases h'; exact .nil
  | cons hr _ ih =>
    cases h' with
    | cons hr' hrest =>
      obtain ⟨hid, es, hes⟩ := hr
      obtain ⟨hid', es', hes'⟩ := hr'
      exact .cons ⟨hid'.trans hid, es ++ es', by rw [List.foldl_append, ← hes, hes']⟩ (ih hrest)

theorem acted_map {rows : List Row} {f : Row → Row}
    (hf : ∀ r, (f r).id = r.id ∧ ∃ es : List Event, (f r).account = es.foldl act r.account) :
    Acted rows (rows.map f) := by
  rw [Acted, List.forall₂_map_right_iff]
  exact List.forall₂_same.mpr fun r _ => hf r

theorem acted_updateRow (id : CompanyId) (e : Event) (rows : List Row) :
    Acted rows (updateRow id (act · e) rows) := by
  refine acted_map fun r => ?_
  split
  · exact ⟨act_companyId r.account e, [e], rfl⟩
  · exact ⟨rfl, [], rfl⟩

section
variable {now : Time} {fails : Site → CompanyId → Bool} {rows : List Row}

theorem acted_resetOne (site : Site) (id : CompanyId) {st : Tally} (h : Acted rows st.rows) :
    Acted rows (resetOne now fails site st id).rows := by
  unfold resetOne
  split
  · exact h
  · split
    · exact h
    · exact h.trans (acted_updateRow id (.reset now) st.rows)

theorem acted_foldl_resetOne (site : Site) (ids : List CompanyId) {st : Tally}
    (h : Acted rows st.rows) : Acted rows (ids.foldl (resetOne now fails site) st).rows := by
  induction ids generalizing st with
  | nil => exact h
  | cons id ids ih => exact ih (acted_resetOne site id h)

theorem acted_resetPages {n offset : ℕ} {st out : Tally} (h : Acted rows st.rows)
    (hok : resetPages now fails n offset st = .ok out) : Acted rows out.rows := by
  induction n generalizing offset st with
  | zero => cases hok
  | succ n ih =>
    obtain ⟨page, -, hok⟩ := bind_eq_ok.mp hok
    split at hok
    · exact Except.ok.inj hok ▸ h
    · exact ih (acted_foldl_resetOne .page page h) hok

theorem acted_retrySkipped (ks : List ℕ) {st : Tally} (h : Acted rows st.rows) :
    Acted rows (retrySkipped now fails ks st).rows := by
  induction ks generalizing st with
  | nil => exact h
  | cons k ks ih =>
    have hround : Acted rows
        (st.skipped.foldl (resetOne now fails (.retry k)) { st with skipped := [] }).rows :=
      acted_foldl_resetOne (.retry k) st.skipped h
    simp only [retrySkipped]
    split
    · exact hround
    · exact ih hround

theorem acted_foldl_resetStaleOne (ids : List CompanyId) {st : Tally} (h : Acted rows st.rows) :
    Acted rows (ids.foldl (resetStaleOne now fails) st).rows := by
  induction ids generalizing st with
  | nil => exact h
  | cons id ids ih =>
    refine ih ?_
    unfold resetStaleOne
    split
    · exact h
    · exact h.trans (acted_updateRow id (.resetStale now) st.rows)

theorem acted_resetBillingQuotas {commitOk : Bool} {t : Table} {out : Tally}
    (hok : resetBillingQuotas now fails commitOk t = .ok out) : Acted t.rows out.rows := by
  obtain ⟨st, hp, hout⟩ := resetBillingQuotas_eq_ok hok
  have hpages : Acted t.rows st.rows := acted_resetPages (acted_refl t.rows) hp
  have hretried : Acted t.rows
      (if st.skipped = [] then st else retrySkipped now fails retries st).rows := by
    split
    · exact hpages
    · exact acted_retrySkipped retries hpages
  rw [hout _ rfl]
  exact acted_foldl_resetStaleOne _ hretried

theorem acted_collectTable {commitOk : Bool} {out : List Row}
    (hok : collectTable now commitOk rows = .ok out) : Acted rows out := by
  unfold collectTable at hok
  split at hok
  · cases hok
  · split at hok
    · cases hok
    · obtain rfl := Except.ok.inj hok
      exact acted_map fun r => ⟨act_companyId r.account (.collect now), [.collect now], rfl⟩

end

/-- One run of one of the two tasks; the locks are those of the time it runs at. -/
inductive TaskRun (t t' : Table) : Prop
  | collect (now : Time) (commitOk : Bool) (out : List Row) :
    collectTable now commitOk t.rows = .ok out →
    t'.rows.map Row.account = out.map Row.account → TaskRun t t'
  | reset (now : Time) (fails : Site → CompanyId → Bool) (commitOk : Bool) (out : Tally) :
    resetBillingQuotas now fails commitOk t = .ok out →
    t'.rows.map Row.account = out.rows.map Row.account → TaskRun t t'

theorem acted_of_accounts {rows rows' : List Row}
    (h : rows'.map Row.account = rows.map Row.account) : Acted rows rows' := by
  have hsame := List.forall₂_map_right_iff.mp
    (List.forall₂_map_left_iff.mp (List.forall₂_eq_eq_eq ▸ h.symm))
  refine hsame.imp fun r r' hr => ⟨?_, [], hr.symm⟩
  exact congrArg BillingAccount.companyId hr.symm

/-- Whatever the tasks do to the table, each account goes through a run of the events. -/
theorem acted_of_taskRuns {t t' : Table} (h : Relation.ReflTransGen TaskRun t t') :
    Acted t.rows t'.rows := by
  induction h with
  | refl => exact acted_refl t.rows
  | tail _ hrun ih =>
    cases hrun with
    | collect now commitOk out hok hrows =>
      exact (ih.trans (acted_collectTable hok)).trans (acted_of_accounts hrows)
    | reset now fails commitOk out hok hrows =>
      exact (ih.trans (acted_resetBillingQuotas hok)).trans (acted_of_accounts hrows)

end WorkTicket.Tasks.DebtCarry
