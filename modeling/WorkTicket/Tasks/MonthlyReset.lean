import WorkTicket.Billing.StateMachine
import WorkTicket.Foundation.Fallible
import WorkTicket.Foundation.OffsetPaging

/-! The monthly quota reset: `reset_billing_quotas` reads the due accounts in pages
by offset, starts a new period for each inside a savepoint, retries the accounts
whose savepoint failed, and last resets the accounts with a stale heartbeat. -/

namespace WorkTicket.Tasks.MonthlyReset
open Billing OffsetPaging WorkTicket.Fallible

def pageSize : ℕ := 20

/-- A row of `billing_accounts`; `locked` when another transaction holds its lock. -/
structure Row where
  account : BillingAccount
  locked : Bool
  deriving DecidableEq, Repr

abbrev Row.id (r : Row) : CompanyId := r.account.companyId

/-- The table listed by its unique key `company_id`, the order of the page query. -/
structure Table where
  rows : List Row
  byCompany : rows.Pairwise fun r s => r.id < s.id

/-- `reset_at <= now`, false for NULL. -/
def resetDateReached (now : Time) (r : Row) : Bool := r.account.resetAt.any (· ≤ now)

def liveHeartbeat (now : Time) (r : Row) : Bool :=
  r.account.reservationHeartbeatAt.any (now - minutes processingTimeoutMinutes ≤ ·)

def isDue (now : Time) (r : Row) : Bool := resetDateReached now r && !liveHeartbeat now r

/-- The filter of the last query: due with a heartbeat that is set but stale. -/
def isStale (now : Time) (r : Row) : Bool :=
  resetDateReached now r && !liveHeartbeat now r && r.account.reservationHeartbeatAt.isSome

inductive DbError
  | lockNotAvailable
  | commitFailed
  | tooManyPages
  deriving DecidableEq, Repr

inductive Site
  | page
  | retry (attempt : ℕ)
  | stale
  deriving DecidableEq, Repr

/-- The variables of the run; `resets` lists the accounts reset so far, in order. -/
structure Tally where
  rows : List Row
  skipped : List CompanyId
  resets : List CompanyId
  totalReset : ℕ
  totalDebtCollected : ℕ
  totalStaleReset : ℕ
  deriving DecidableEq, Repr

def hasDebt (a : BillingAccount) : Bool := 1 / 100 < a.acuDebt

/-- The debt branch of a reset: `used_acu` takes the debt, or the part of it above
the monthly quota. -/
def collectDebt (a : BillingAccount) : BillingAccount :=
  if hasDebt a then
    if a.monthlyQuotaAcu < a.acuDebt then
      { a with usedAcu := a.acuDebt - a.monthlyQuotaAcu, acuDebt := 0 }
    else { a with usedAcu := a.usedAcu + a.acuDebt, acuDebt := 0 }
  else a

def startPeriod (now : Time) (a : BillingAccount) : BillingAccount :=
  { a with
    usedAcu := 0
    reservedAcu := 0
    reservationHeartbeatAt := none
    billingPeriodStart := some now
    resetAt := some (now + days 30) }

def updateRow (id : CompanyId) (f : BillingAccount → BillingAccount) (rows : List Row) : List Row :=
  rows.map fun r => if r.id = id then { r with account := f r.account } else r

def dueRows (now : Time) (rows : List Row) : List Row := rows.filter (isDue now)

/-- `ORDER BY company_id OFFSET .. LIMIT .. FOR UPDATE NOWAIT`: the rows passed over
by the offset are locked too, so one of them held elsewhere fails the query. -/
def duePage (now : Time) (rows : List Row) (offset : ℕ) : Except DbError (List CompanyId) :=
  if ((dueRows now rows).take (offset + pageSize)).any (·.locked) then .error .lockNotAvailable
  else .ok ((((dueRows now rows).drop offset).take pageSize).map Row.id)

section
variable (now : Time) (fails : Site → CompanyId → Bool)

/-- One account of a page or of the retry list; `fails` says whose savepoint raises. -/
def resetOne (site : Site) (st : Tally) (id : CompanyId) : Tally :=
  if fails site id then { st with skipped := st.skipped ++ [id] }
  else match st.rows.find? (·.id = id) with
    | none => st
    | some r =>
      { st with
        rows := updateRow id (fun a => startPeriod now (collectDebt a)) st.rows
        resets := st.resets ++ [id]
        totalReset := st.totalReset + 1
        totalDebtCollected := st.totalDebtCollected + if hasDebt r.account then 1 else 0 }

def resetPages : ℕ → ℕ → Tally → Except DbError Tally
  | 0, _, _ => .error .tooManyPages
  | n + 1, offset, st => do
    let page ← duePage now st.rows offset
    if page = [] then .ok st
    -- the offset goes on, although the accounts of this page have left the query
    else resetPages n (offset + pageSize) (page.foldl (resetOne now fails .page) st)

/-- The retries of the skipped accounts; the loop ends early when none is left. -/
def retrySkipped : List ℕ → Tally → Tally
  | [], st => st
  | k :: ks, st =>
    let st' := st.skipped.foldl (resetOne now fails (.retry k)) { st with skipped := [] }
    if st'.skipped = [] then st' else retrySkipped ks st'

def resetStaleOne (st : Tally) (id : CompanyId) : Tally :=
  if fails .stale id then st
  else
    { st with
      rows := updateRow id (startPeriod now) st.rows
      resets := st.resets ++ [id]
      totalStaleReset := st.totalStaleReset + 1 }

def resetStale (st : Tally) : Except DbError Tally :=
  if (st.rows.filter (isStale now)).any (·.locked) then .error .lockNotAvailable
  else .ok (((st.rows.filter (isStale now)).map Row.id).foldl (resetStaleOne now fails) st)

def retries : List ℕ := [0, 1, 2]

/-- One run of `reset_billing_quotas`; a successful run returns its final variables. -/
def resetBillingQuotas (commitOk : Bool) (t : Table) : Except DbError Tally := do
  let st ← resetPages now fails (t.rows.length + 1) 0 ⟨t.rows, [], [], 0, 0, 0⟩
  let st := if st.skipped = [] then st else retrySkipped now fails retries st
  let st ← resetStale now fails st
  if st.totalReset + st.totalStaleReset + st.totalDebtCollected ≠ 0 ∧ commitOk = false then
    .error .commitFailed
  else .ok st

end

structure Started (now : Time) (a : BillingAccount) : Prop where
  used : a.usedAcu = 0
  reserved : a.reservedAcu = 0
  heartbeat : a.reservationHeartbeatAt = none
  periodStart : a.billingPeriodStart = some now
  reset : a.resetAt = some (now + days 30)

theorem started_startPeriod (now : Time) (a : BillingAccount) : Started now (startPeriod now a) :=
  ⟨rfl, rfl, rfl, rfl, rfl⟩

@[simp] theorem collectDebt_companyId (a : BillingAccount) :
    (collectDebt a).companyId = a.companyId := by
  unfold collectDebt
  split
  · split <;> rfl
  · rfl

theorem Started.not_reached {now : Time} {r : Row} (h : Started now r.account) :
    resetDateReached now r = false := by
  simp [resetDateReached, h.reset, days]

/-- The rows of a run against those it began with: the accounts of `ids` have begun
a new period, every other row is as it was. -/
def Progressed (now : Time) (rows₀ : List Row) (ids : List CompanyId) (rows : List Row) : Prop :=
  List.Forall₂ (fun r₀ r => r.id = r₀.id ∧ r.locked = r₀.locked ∧
    if r₀.id ∈ ids then Started now r.account else r = r₀) rows₀ rows

theorem progressed_refl (now : Time) (rows : List Row) : Progressed now rows [] rows :=
  List.forall₂_same.mpr fun _ _ => by simp

theorem Progressed.filter {now : Time} {rows₀ rows : List Row} {ids : List CompanyId}
    (h : Progressed now rows₀ ids rows) (p : Row → Bool)
    (hp : ∀ r : Row, Started now r.account → p r = false) :
    rows.filter p = (rows₀.filter p).filter fun r => r.id ∉ ids := by
  induction h with
  | nil => rfl
  | @cons r₀ r _ _ hr _ ih =>
    obtain ⟨-, -, hr⟩ := hr
    by_cases hmem : r₀.id ∈ ids
    · rw [if_pos hmem] at hr
      cases hp₀ : p r₀ <;> simp [hp r hr, hp₀, hmem, ih]
    · rw [if_neg hmem] at hr
      subst hr
      cases hp₀ : p r <;> simp [hp₀, hmem, ih]

theorem Progressed.due {now : Time} {rows₀ rows : List Row} {ids : List CompanyId}
    (h : Progressed now rows₀ ids rows) :
    dueRows now rows = (dueRows now rows₀).filter fun r => r.id ∉ ids :=
  h.filter _ fun r hr => by simp [isDue, hr.not_reached]

theorem Progressed.update {now : Time} {rows₀ rows : List Row} {ids : List CompanyId}
    (h : Progressed now rows₀ ids rows) (id : CompanyId) (f : BillingAccount → BillingAccount)
    (hid : ∀ a, (f a).companyId = a.companyId) (hf : ∀ a, Started now (f a)) :
    Progressed now rows₀ (ids ++ [id]) (updateRow id f rows) := by
  refine List.forall₂_map_right_iff.mpr (h.imp fun r₀ r ⟨hr, hl, hrest⟩ => ?_)
  by_cases he : r.id = id
  · have : r₀.id ∈ ids ++ [id] := by simp [← hr, he]
    rw [if_pos he, if_pos this]
    exact ⟨(hid _).trans hr, hl, hf _⟩
  · have : r₀.id ∈ ids ++ [id] ↔ r₀.id ∈ ids := by simp [← hr, he]
    simp only [if_neg he, this]
    exact ⟨hr, hl, hrest⟩

theorem Progressed.find_isSome {now : Time} {rows₀ rows : List Row} {ids : List CompanyId}
    (h : Progressed now rows₀ ids rows) {id : CompanyId} (hid : id ∈ rows₀.map Row.id) :
    ∃ r, rows.find? (·.id = id) = some r := by
  rw [← Option.isSome_iff_exists, List.find?_isSome]
  obtain ⟨r₀, hr₀, rfl⟩ := List.mem_map.mp hid
  obtain ⟨n, hn, rfl⟩ := List.mem_iff_getElem.mp hr₀
  have hn' : n < rows.length := h.length_eq ▸ hn
  exact ⟨rows[n], List.getElem_mem hn', by simpa using (h.get hn hn').1⟩

/-- The result of a loop over the accounts `ids` that resets those in `done` and
skips those in `skipped`. -/
structure LoopResult (now : Time) (rows₀ : List Row) (st out : Tally)
    (done skipped : List CompanyId) : Prop where
  rows : Progressed now rows₀ out.resets out.rows
  resets : out.resets = st.resets ++ done
  skips : out.skipped = st.skipped ++ skipped

section
variable {now : Time} {fails : Site → CompanyId → Bool} {rows₀ : List Row}

variable (fails) in
theorem resetOne_result (site : Site) {st : Tally} {id : CompanyId}
    (h : Progressed now rows₀ st.resets st.rows) (hid : id ∈ rows₀.map Row.id) :
    LoopResult now rows₀ st (resetOne now fails site st id)
      ([id].filter fun i => !fails site i) ([id].filter (fails site)) := by
  unfold resetOne
  cases hf : fails site id with
  | true => exact ⟨h, by simp [hf], by simp [hf]⟩
  | false =>
    obtain ⟨r, hr⟩ := h.find_isSome hid
    simp only [Bool.false_eq_true, if_false, hr]
    exact ⟨h.update id (fun a => startPeriod now (collectDebt a)) collectDebt_companyId
      (fun a => started_startPeriod now (collectDebt a)), by simp [hf], by simp [hf]⟩

variable (fails) in
theorem foldl_resetOne_result (site : Site) (ids : List CompanyId) {st : Tally}
    (h : Progressed now rows₀ st.resets st.rows) (hids : ids ⊆ rows₀.map Row.id) :
    LoopResult now rows₀ st (ids.foldl (resetOne now fails site) st)
      (ids.filter fun i => !fails site i) (ids.filter (fails site)) := by
  induction ids generalizing st with
  | nil => exact ⟨h, by simp, by simp⟩
  | cons id ids ih =>
    have hone := resetOne_result fails site h (hids List.mem_cons_self)
    have hrest := ih hone.rows fun i hi => hids (List.mem_cons_of_mem _ hi)
    refine ⟨hrest.rows, ?_, ?_⟩
    · rw [List.foldl_cons, hrest.resets, hone.resets, List.append_assoc, ← List.filter_append]
      rfl
    · rw [List.foldl_cons, hrest.skips, hone.skips, List.append_assoc, ← List.filter_append]
      rfl

/-! ## The page loop -/

/-- Whose account a page leaves in the list: the one whose savepoint failed. -/
def stays (fails : Site → CompanyId → Bool) (r : Row) : Bool := fails .page r.id

theorem duePage_ok {rows : List Row} {offset : ℕ} {page : List CompanyId}
    (h : duePage now rows offset = .ok page) :
    page = (((dueRows now rows).drop offset).take pageSize).map Row.id ∧
      ∀ r ∈ (dueRows now rows).take (offset + pageSize), r.locked = false := by
  unfold duePage at h
  split at h
  · cases h
  · rename_i hl
    exact ⟨(Except.ok.inj h).symm, fun r hr => by
      simpa using fun hc => hl (List.any_eq_true.mpr ⟨r, hr, hc⟩)⟩

theorem due_afterPage {rows : List Row} {ids : List CompanyId} {offset : ℕ} {D : List Row}
    (h : Progressed now rows₀ ids rows)
    (hD : (dueRows now rows₀).filter (fun r => r.id ∉ ids) =
      D.filter fun r => r.id ∉ (((D.drop offset).take pageSize).map Row.id).filter
        fun i => !fails .page i)
    (hnd : (D.map Row.id).Nodup) :
    dueRows now rows = afterPage pageSize (stays fails) offset D := by
  rw [h.due, hD]
  set page := (D.drop offset).take pageSize with hpage
  have hsplit : D = D.take offset ++ (page ++ D.drop (offset + pageSize)) := by
    rw [hpage, ← List.drop_drop, List.take_append_drop, List.take_append_drop]
  have hnd' := hnd
  rw [hsplit, List.map_append, List.nodup_append, List.map_append, List.nodup_append] at hnd'
  obtain ⟨-, ⟨-, -, hpost⟩, hpre⟩ := hnd'
  have hkeep : ∀ r ∈ page, (decide (r.id ∉ (page.map Row.id).filter fun i => !fails .page i)) =
      stays fails r := by
    intro r hr
    have : r.id ∈ page.map Row.id := List.mem_map_of_mem hr
    cases hf : fails .page r.id <;> simp [stays, hf, this]
  have hout : ∀ r : Row, (∀ q ∈ page, r.id ≠ q.id) →
      (decide (r.id ∉ (page.map Row.id).filter fun i => !fails .page i)) = true := by
    intro r hr
    simp only [decide_eq_true_eq, List.mem_filter, List.mem_map]
    rintro ⟨⟨q, hq, he⟩, -⟩
    exact hr q hq he.symm
  conv_lhs => rw [hsplit]
  rw [List.filter_append, List.filter_append, afterPage]
  congr 1
  · refine List.filter_eq_self.mpr fun r hr => hout r fun q hq => ?_
    exact hpre _ (List.mem_map_of_mem hr) _
      (List.mem_append.mpr (.inl (List.mem_map_of_mem hq)))
  · congr 1
    · exact List.filter_congr hkeep
    · refine List.filter_eq_self.mpr fun r hr => hout r fun q hq => ?_
      exact (hpost _ (List.mem_map_of_mem hq) _ (List.mem_map_of_mem hr)).symm

theorem pageSize_pos : 0 < pageSize := by decide

theorem due_subset {rows : List Row} {ids : List CompanyId}
    (h : Progressed now rows₀ ids rows) : dueRows now rows ⊆ rows₀ := by
  rw [h.due]
  exact fun _ hr => List.mem_of_mem_filter (List.mem_of_mem_filter hr)

variable (fails) in
theorem page_result {st : Tally} (offset : ℕ) (hnd : (rows₀.map Row.id).Nodup)
    (h : Progressed now rows₀ st.resets st.rows) :
    let D := dueRows now st.rows
    let page := ((D.drop offset).take pageSize).map Row.id
    let st' := page.foldl (resetOne now fails .page) st
    LoopResult now rows₀ st st' (page.filter fun i => !fails .page i)
        (page.filter (fails .page)) ∧
      dueRows now st'.rows = afterPage pageSize (stays fails) offset D := by
  intro D page st'
  have hDnd : (D.map Row.id).Nodup := by
    refine hnd.sublist (List.Sublist.map _ ?_)
    rw [show D = _ from h.due]
    exact List.filter_sublist.trans List.filter_sublist
  have hpage : page ⊆ rows₀.map Row.id := by
    intro i hi
    obtain ⟨r, hr, rfl⟩ := List.mem_map.mp hi
    exact List.mem_map_of_mem (due_subset h (List.mem_of_mem_drop (List.mem_of_mem_take hr)))
  have hfold := foldl_resetOne_result fails .page page h hpage
  refine ⟨hfold, due_afterPage hfold.rows ?_ hDnd⟩
  rw [hfold.resets, show D = _ from h.due, List.filter_filter]
  refine List.filter_congr fun r _ => ?_
  simp only [List.mem_append, not_or, Bool.decide_and, page, D, h.due]
  exact Bool.and_comm _ _

theorem resetPages_result (hnd : (rows₀.map Row.id).Nodup) {n offset : ℕ} {st out : Tally}
    (h : Progressed now rows₀ st.resets st.rows)
    (hok : resetPages now fails n offset st = .ok out) :
    let seen := (pages pageSize (stays fails) n ((dueRows now st.rows).drop offset)).map Row.id
    LoopResult now rows₀ st out (seen.filter fun i => !fails .page i)
        (seen.filter (fails .page)) ∧
      ∀ r ∈ dueRows now st.rows, r.locked = false := by
  induction n generalizing offset st with
  | zero => cases hok
  | succ n ih =>
    obtain ⟨page, hq, hok⟩ := bind_eq_ok.mp hok
    obtain ⟨hpage, hunlocked⟩ := duePage_ok hq
    split at hok
    · -- the empty page: the offset has passed every row that is still due
      rename_i hnil
      obtain rfl := Except.ok.inj hok
      have hdrop : (dueRows now st.rows).drop offset = [] := by
        have hlen := congrArg List.length (hpage.symm.trans hnil)
        simp only [List.length_map, List.length_take, List.length_nil] at hlen
        have := pageSize_pos
        exact List.eq_nil_of_length_eq_zero (by omega)
      rw [hdrop]
      refine ⟨by simpa [pages_nil] using ⟨h, by simp, by simp⟩, fun r hr => hunlocked r ?_⟩
      rw [List.take_of_length_le]
      · exact hr
      · have := List.drop_eq_nil_iff.mp hdrop
        omega
    · rename_i hne
      obtain ⟨hfold, hafter⟩ := page_result fails offset hnd h
      rw [← hpage] at hfold hafter
      have hlen : offset ≤ (dueRows now st.rows).length := by
        by_contra hlt
        exact hne (by rw [hpage, List.drop_eq_nil_of_le (by omega)]; rfl)
      obtain ⟨hloop, hrest⟩ := ih hfold.rows hok
      rw [hafter, drop_afterPage _ _ hlen] at hloop
      refine ⟨⟨hloop.rows, ?_, ?_⟩, fun r hr => ?_⟩
      · rw [hloop.resets, hfold.resets, List.append_assoc, ← List.filter_append, hpage,
          ← List.map_append]
        rfl
      · rw [hloop.skips, hfold.skips, List.append_assoc, ← List.filter_append, hpage,
          ← List.map_append]
        rfl
      · rcases mem_afterPage_or pageSize (stays fails) offset hr with hr | hr
        · refine hunlocked r ?_
          rw [List.take_add]
          exact List.mem_append.mpr (.inr hr)
        · exact hrest r (hafter ▸ hr)

/-- The bound on the number of pages is never the reason a run fails. -/
theorem resetPages_ne_tooManyPages (hnd : (rows₀.map Row.id).Nodup) {n offset : ℕ} {st : Tally}
    (h : Progressed now rows₀ st.resets st.rows)
    (hn : (dueRows now st.rows).length - offset < n) :
    resetPages now fails n offset st ≠ .error .tooManyPages := by
  induction n generalizing offset st with
  | zero => omega
  | succ n ih =>
    simp only [resetPages]
    cases hq : duePage now st.rows offset with
    | error e =>
      intro he
      rw [duePage] at hq
      split at hq
      · cases hq; cases he
      · cases hq
    | ok page =>
      obtain ⟨hpage, -⟩ := duePage_ok hq
      change (if page = [] then _ else _) ≠ _
      split
      · exact fun he => nomatch he
      · rename_i hne
        obtain ⟨hfold, hafter⟩ := page_result fails offset hnd h
        rw [← hpage] at hfold hafter
        have hlen : offset < (dueRows now st.rows).length := by
          by_contra hlt
          exact hne (by rw [hpage, List.drop_eq_nil_of_le (by omega)]; rfl)
        have hle : (dueRows now (page.foldl (resetOne now fails .page) st).rows).length ≤
            (dueRows now st.rows).length := by
          have hl := congrArg List.length hafter
          have hk := List.length_filter_le (stays fails)
            (((dueRows now st.rows).drop offset).take pageSize)
          simp only [afterPage, List.length_append, List.length_take, List.length_drop] at hl hk
          omega
        have := pageSize_pos
        exact ih hfold.rows (by omega)

/-! ## Retries, stale heartbeats and the whole run -/

theorem filter_append_filter_perm {α : Type*} (p q : α → Bool) (l : List α) :
    (l.filter p ++ (l.filter fun a => !p a).filter q).Perm (l.filter fun a => p a || q a) := by
  have h := List.filter_append_perm p (l.filter fun a => p a || q a)
  rw [List.filter_filter, List.filter_filter] at h
  rw [List.filter_filter]
  convert h using 2
  · exact List.filter_congr fun a _ => by cases p a <;> simp
  · exact List.filter_congr fun a _ => by cases p a <;> simp

theorem retrySkipped_result (ks : List ℕ) {st : Tally}
    (h : Progressed now rows₀ st.resets st.rows) (hsk : st.skipped ⊆ rows₀.map Row.id) :
    ∃ done, (retrySkipped now fails ks st).resets = st.resets ++ done ∧
      Progressed now rows₀ (retrySkipped now fails ks st).resets
        (retrySkipped now fails ks st).rows ∧
      done.Perm (st.skipped.filter fun i => ks.any fun k => !fails (.retry k) i) := by
  induction ks generalizing st with
  | nil => exact ⟨[], by simp [retrySkipped], h, by simp⟩
  | cons k ks ih =>
    have hfold : LoopResult now rows₀ { st with skipped := [] } _ _ _ :=
      foldl_resetOne_result fails (.retry k) st.skipped h hsk
    simp only [retrySkipped]
    set st' := st.skipped.foldl (resetOne now fails (.retry k)) { st with skipped := [] }
    have hskips : st'.skipped = st.skipped.filter (fails (.retry k)) := by
      rw [hfold.skips, List.nil_append]
    split
    · -- no account is left: this retry reset all of them
      rename_i hnone
      refine ⟨_, hfold.resets, hfold.rows, ?_⟩
      rw [hskips, List.filter_eq_nil_iff] at hnone
      refine List.Perm.of_eq (List.filter_congr fun i hi => ?_)
      simp [hnone i hi]
    · have hsub : st'.skipped ⊆ rows₀.map Row.id := by
        rw [hskips]
        exact fun i hi => hsk (List.mem_of_mem_filter hi)
      obtain ⟨done, hres, hprog, hperm⟩ := ih hfold.rows hsub
      refine ⟨_, by rw [hres, hfold.resets, List.append_assoc], hprog, ?_⟩
      rw [hskips] at hperm
      have hsplit := filter_append_filter_perm (fun i => !fails (.retry k) i)
        (fun i => ks.any fun k => !fails (.retry k) i) st.skipped
      simp only [Bool.not_not] at hsplit
      simpa only [List.any_cons] using (hperm.append_left _).trans hsplit

variable (fails) in
theorem foldl_resetStaleOne_result (ids : List CompanyId) {st : Tally}
    (h : Progressed now rows₀ st.resets st.rows) :
    (ids.foldl (resetStaleOne now fails) st).resets =
        st.resets ++ ids.filter (fun i => !fails .stale i) ∧
      Progressed now rows₀ (ids.foldl (resetStaleOne now fails) st).resets
        (ids.foldl (resetStaleOne now fails) st).rows := by
  induction ids generalizing st with
  | nil => exact ⟨by simp, h⟩
  | cons id ids ih =>
    rw [List.foldl_cons]
    cases hf : fails .stale id with
    | true =>
      have hone : resetStaleOne now fails st id = st := by simp [resetStaleOne, hf]
      simpa [hone, hf] using ih h
    | false =>
      have hone : (resetStaleOne now fails st id).resets = st.resets ++ [id] := by
        simp [resetStaleOne, hf]
      have hprog : Progressed now rows₀ (resetStaleOne now fails st id).resets
          (resetStaleOne now fails st id).rows := by
        rw [hone]
        simpa [resetStaleOne, hf] using
          h.update id (startPeriod now) (fun _ => rfl) (started_startPeriod now)
      obtain ⟨hres, hrest⟩ := ih hprog
      exact ⟨by rw [hres, hone]; simp [hf], hrest⟩

end

def tries : List Site := [.page, .retry 0, .retry 1, .retry 2]

section
variable {now : Time} {fails : Site → CompanyId → Bool}

def pageResets (now : Time) (fails : Site → CompanyId → Bool) (t : Table) : List CompanyId :=
  ((pages pageSize (stays fails) (t.rows.length + 1) (dueRows now t.rows)).map Row.id).filter
    fun i => tries.any fun s => !fails s i

def staleResets (now : Time) (fails : Site → CompanyId → Bool) (t : Table) : List CompanyId :=
  (((t.rows.filter (isStale now)).filter fun r => r.id ∉ pageResets now fails t).map Row.id).filter
    fun i => !fails .stale i

theorem Table.nodup_ids (t : Table) : (t.rows.map Row.id).Nodup :=
  List.pairwise_map.mpr (t.byCompany.imp fun h => h.ne)

theorem Started.not_stale {r : Row} (h : Started now r.account) : isStale now r = false := by
  simp [isStale, h.not_reached]

theorem resetStale_eq_ok {st out : Tally} (hok : resetStale now fails st = .ok out) :
    ((st.rows.filter (isStale now)).map Row.id).foldl (resetStaleOne now fails) st = out := by
  unfold resetStale at hok
  split at hok
  · cases hok
  · exact Except.ok.inj hok

/-- A run that succeeds goes through the pages, the retries and the last query. -/
theorem resetBillingQuotas_eq_ok {commitOk : Bool} {t : Table} {out : Tally}
    (hok : resetBillingQuotas now fails commitOk t = .ok out) :
    ∃ st, resetPages now fails (t.rows.length + 1) 0 ⟨t.rows, [], [], 0, 0, 0⟩ = .ok st ∧
      ∀ st', (if st.skipped = [] then st else retrySkipped now fails retries st) = st' →
        out = ((st'.rows.filter (isStale now)).map Row.id).foldl (resetStaleOne now fails) st' := by
  obtain ⟨st, hpages, hok⟩ := bind_eq_ok.mp hok
  obtain ⟨last, hstale, hok⟩ := bind_eq_ok.mp hok
  refine ⟨st, hpages, ?_⟩
  rintro st' rfl
  have hlast := resetStale_eq_ok hstale
  split at hok
  · cases hok
  · exact (Except.ok.inj hok).symm.trans hlast.symm

/-- What a successful run resets, and that it met no locked due account. -/
theorem resetBillingQuotas_result {commitOk : Bool} {t : Table} {out : Tally}
    (hok : resetBillingQuotas now fails commitOk t = .ok out) :
    out.resets.Perm (pageResets now fails t ++ staleResets now fails t) ∧
      Progressed now t.rows out.resets out.rows ∧
      ∀ r ∈ dueRows now t.rows, r.locked = false := by
  obtain ⟨st, hp, hok⟩ := resetBillingQuotas_eq_ok hok
  obtain ⟨hloop, hunlocked⟩ :=
    resetPages_result t.nodup_ids (progressed_refl now t.rows) hp
  set seen := (pages pageSize (stays fails) (t.rows.length + 1)
    ((dueRows now t.rows).drop 0)).map Row.id with hseen
  have hsk : st.skipped ⊆ t.rows.map Row.id := by
    intro i hi
    rw [hloop.skips, List.nil_append] at hi
    obtain ⟨r, hr, rfl⟩ := List.mem_map.mp (List.mem_of_mem_filter hi)
    exact List.mem_map_of_mem (List.mem_of_mem_filter (pages_subset _ _ _ _ hr))
  -- the retries, also when there is nothing to retry
  obtain ⟨st', hst', done, hres, hprog, hperm⟩ : ∃ st',
      (if st.skipped = [] then st else retrySkipped now fails retries st) = st' ∧
      ∃ done, st'.resets = st.resets ++ done ∧ Progressed now t.rows st'.resets st'.rows ∧
        done.Perm (st.skipped.filter fun i => retries.any fun k => !fails (.retry k) i) := by
    split
    · rename_i hnone
      exact ⟨st, rfl, [], by simp, hloop.rows, by simp [hnone]⟩
    · exact ⟨_, rfl, retrySkipped_result retries hloop.rows hsk⟩
  obtain rfl := hok st' hst'
  have hfirst : st'.resets.Perm (pageResets now fails t) := by
    rw [hres, hloop.resets, List.nil_append]
    rw [hloop.skips, List.nil_append] at hperm
    have hsplit := filter_append_filter_perm (fun i => !fails .page i)
      (fun i => retries.any fun k => !fails (.retry k) i) seen
    simp only [Bool.not_not] at hsplit
    exact (hperm.append_left _).trans hsplit
  obtain ⟨hstale, hprog'⟩ := foldl_resetStaleOne_result fails
    ((st'.rows.filter (isStale now)).map Row.id) hprog
  refine ⟨?_, hprog', hunlocked⟩
  rw [hstale, hprog.filter _ fun r hr => hr.not_stale]
  refine hfirst.append (List.Perm.of_eq ?_)
  simp only [staleResets, hfirst.mem_iff]

/-- Monthly reset covers everyone: each account that was due without a live heartbeat
and not locked has begun a new period, once, and no other due date was moved. -/
structure CoversEveryone (now : Time) (t : Table) (out : Tally) : Prop where
  everyDue : ∀ r ∈ t.rows, isDue now r → r.locked = false →
    out.resets.count r.id = 1 ∧ ∃ r' ∈ out.rows, r'.id = r.id ∧ Started now r'.account
  onlyDue : ∀ r ∈ t.rows, resetDateReached now r = false → r.id ∉ out.resets ∧ r ∈ out.rows

/-- Every due account is on a page the loop reads and one of its savepoints holds, or
it has a stale heartbeat and the savepoint of the last pass holds. -/
def EveryDueSeen (now : Time) (fails : Site → CompanyId → Bool) (t : Table) : Prop :=
  ∀ r ∈ dueRows now t.rows,
    (r ∈ pages pageSize (stays fails) (t.rows.length + 1) (dueRows now t.rows) ∧
      ∃ s ∈ tries, fails s r.id = false) ∨
    (r.account.reservationHeartbeatAt.isSome ∧ fails .stale r.id = false)

theorem Table.eq_of_id (t : Table) {r s : Row} (hr : r ∈ t.rows) (hs : s ∈ t.rows)
    (h : r.id = s.id) : r = s :=
  List.inj_on_of_nodup_map t.nodup_ids hr hs h

theorem mem_pageResets {t : Table} {r : Row} (hr : r ∈ t.rows) :
    r.id ∈ pageResets now fails t ↔
      r ∈ pages pageSize (stays fails) (t.rows.length + 1) (dueRows now t.rows) ∧
        ∃ s ∈ tries, fails s r.id = false := by
  have hmem : r.id ∈ (pages pageSize (stays fails) (t.rows.length + 1)
      (dueRows now t.rows)).map Row.id ↔
      r ∈ pages pageSize (stays fails) (t.rows.length + 1) (dueRows now t.rows) := by
    refine ⟨fun h => ?_, List.mem_map_of_mem⟩
    obtain ⟨q, hq, he⟩ := List.mem_map.mp h
    exact t.eq_of_id (List.mem_of_mem_filter (pages_subset _ _ _ _ hq)) hr he ▸ hq
  simp only [pageResets, List.mem_filter, hmem, List.any_eq_true, Bool.not_eq_true']

theorem mem_staleResets {t : Table} {r : Row} (hr : r ∈ t.rows) :
    r.id ∈ staleResets now fails t ↔
      isStale now r ∧ r.id ∉ pageResets now fails t ∧ fails .stale r.id = false := by
  simp only [staleResets, List.mem_filter, List.mem_map, decide_eq_true_eq, Bool.not_eq_true']
  constructor
  · rintro ⟨⟨q, ⟨⟨hq, hstale⟩, hnot⟩, he⟩, hf⟩
    obtain rfl := t.eq_of_id hq hr he
    exact ⟨hstale, hnot, hf⟩
  · rintro ⟨hstale, hnot, hf⟩
    exact ⟨⟨r, ⟨⟨hr, hstale⟩, hnot⟩, rfl⟩, hf⟩

theorem nodup_resets {t : Table} {out : Tally}
    (h : out.resets.Perm (pageResets now fails t ++ staleResets now fails t)) :
    out.resets.Nodup := by
  refine h.nodup_iff.mpr (List.nodup_append.mpr ⟨?_, ?_, ?_⟩)
  · refine t.nodup_ids.sublist (List.filter_sublist.trans (List.Sublist.map _ ?_))
    exact (pages_sublist _ _ _ _).trans List.filter_sublist
  · refine t.nodup_ids.sublist (List.filter_sublist.trans (List.Sublist.map _ ?_))
    exact List.filter_sublist.trans List.filter_sublist
  · rintro a ha b hb rfl
    obtain ⟨r, hr, rfl⟩ := List.mem_map.mp (List.mem_of_mem_filter hb)
    simp [ha] at hr

theorem not_due_not_reset {t : Table} {r : Row} (hr : r ∈ t.rows)
    (h : resetDateReached now r = false) :
    r.id ∉ pageResets now fails t ++ staleResets now fails t := by
  rw [List.mem_append, mem_pageResets hr, mem_staleResets hr]
  rintro (⟨hpage, -⟩ | ⟨hstale, -⟩)
  · have := (List.mem_filter.mp (pages_subset _ _ _ _ hpage)).2
    simp [isDue, h] at this
  · simp [isStale, h] at hstale

theorem Progressed.row {rows₀ rows : List Row} {ids : List CompanyId}
    (h : Progressed now rows₀ ids rows) {r : Row} (hr : r ∈ rows₀) :
    ∃ r' ∈ rows, r'.id = r.id ∧ if r.id ∈ ids then Started now r'.account else r' = r := by
  obtain ⟨n, hn, rfl⟩ := List.mem_iff_getElem.mp hr
  have hn' : n < rows.length := h.length_eq ▸ hn
  obtain ⟨hid, -, hrest⟩ := h.get hn hn'
  exact ⟨rows[n], List.getElem_mem hn', hid, hrest⟩

/-- A successful run covers everyone exactly when it sees every due account. -/
theorem coversEveryone_iff {commitOk : Bool} {t : Table} {out : Tally}
    (hok : resetBillingQuotas now fails commitOk t = .ok out) :
    CoversEveryone now t out ↔ EveryDueSeen now fails t := by
  obtain ⟨hperm, hprog, hunlocked⟩ := resetBillingQuotas_result hok
  have hmem : ∀ r ∈ dueRows now t.rows, r.id ∈ out.resets ↔
      (r ∈ pages pageSize (stays fails) (t.rows.length + 1) (dueRows now t.rows) ∧
        ∃ s ∈ tries, fails s r.id = false) ∨
      (r.account.reservationHeartbeatAt.isSome ∧ fails .stale r.id = false) := by
    intro r hr
    obtain ⟨hrow, hdue⟩ := List.mem_filter.mp hr
    have hstale : isStale now r ↔ r.account.reservationHeartbeatAt.isSome := by
      simp only [isDue] at hdue
      simp [isStale, hdue]
    rw [hperm.mem_iff, List.mem_append, mem_staleResets hrow, ← mem_pageResets hrow, hstale]
    tauto
  constructor
  · intro hc r hr
    obtain ⟨hrow, hdue⟩ := List.mem_filter.mp hr
    have hcount := (hc.everyDue r hrow hdue (hunlocked r hr)).1
    exact (hmem r hr).mp (List.count_pos_iff.mp (by omega))
  · intro hseen
    refine ⟨fun r hrow hdue _ => ?_, fun r hrow hnot => ?_⟩
    · have hr : r ∈ dueRows now t.rows := List.mem_filter.mpr ⟨hrow, hdue⟩
      have hin := (hmem r hr).mpr (hseen r hr)
      obtain ⟨r', hr', hid, hstarted⟩ := hprog.row hrow
      rw [if_pos hin] at hstarted
      exact ⟨List.count_eq_one_of_mem (nodup_resets hperm) hin, r', hr', hid, hstarted⟩
    · have hout : r.id ∉ out.resets := fun h =>
        not_due_not_reset hrow hnot (hperm.mem_iff.mp h)
      obtain ⟨r', hr', -, hsame⟩ := hprog.row hrow
      rw [if_neg hout] at hsame
      exact ⟨hout, hsame ▸ hr'⟩

/-- Without failing savepoints the pages are every other block of 20 due accounts, so
everyone is seen when each account of the blocks between has a stale heartbeat. -/
theorem everyDueSeen_iff_position (now : Time) (t : Table) :
    EveryDueSeen now (fun _ _ => false) t ↔
      ∀ i (hi : i < (dueRows now t.rows).length),
        i / pageSize % 2 = 0 ∨ (dueRows now t.rows)[i].account.reservationHeartbeatAt.isSome := by
  have hnd : (dueRows now t.rows).Nodup :=
    (t.byCompany.imp fun h he => absurd (he ▸ h) (lt_irrefl _)).sublist List.filter_sublist
  have hlen : (dueRows now t.rows).length ≤ t.rows.length + 1 :=
    (List.length_filter_le _ _).trans (Nat.le_succ _)
  have hseen := getElem_mem_pages pageSize pageSize_pos hnd hlen
  have hsite : ∃ s : Site, s ∈ tries := ⟨.page, by simp [tries]⟩
  have hnone : stays (fun _ _ => false) = fun _ => false := rfl
  rw [EveryDueSeen, hnone]
  constructor
  · intro h i hi
    simpa [hsite, ← hseen i hi] using h _ (List.getElem_mem hi)
  · intro h r hr
    obtain ⟨i, hi, rfl⟩ := List.mem_iff_getElem.mp hr
    simpa [hsite, ← hseen i hi] using h i hi

end

def account (id : CompanyId) (resetAt : Option Time) : BillingAccount :=
  ⟨id, "pro", 600, 40, 0, 0, none, false, none, none, none, resetAt, none, 0⟩

def dueTable (n : ℕ) : Table where
  rows := (List.range n).map fun id => ⟨account id (some 0), false⟩
  byCompany := List.pairwise_map.mpr List.pairwise_lt_range

theorem coversEveryone_iff_two :
    CoversEveryone 10 (dueTable 2)
      ⟨(dueTable 2).rows.map fun r => { r with account := startPeriod 10 r.account },
        [], [0, 1], 2, 0, 0⟩ ↔
    EveryDueSeen 10 (fun _ _ => false) (dueTable 2) :=
  coversEveryone_iff (show resetBillingQuotas 10 (fun _ _ => false) true (dueTable 2) = .ok _ by
    decide +kernel)

/-- Of 21 due accounts without heartbeats the last one is passed over. -/
theorem twentyFirst_not_covered :
    ∃ out, resetBillingQuotas 10 (fun _ _ => false) true (dueTable 21) = .ok out ∧
      ¬ CoversEveryone 10 (dueTable 21) out := by
  have hcount : (resetBillingQuotas 10 (fun _ _ => false) true (dueTable 21)).toOption.map
      (fun out => out.resets.count 20) = some 0 := by decide +kernel
  cases hrun : resetBillingQuotas 10 (fun _ _ => false) true (dueTable 21) with
  | error e => rw [hrun] at hcount; cases hcount
  | ok out =>
    rw [hrun] at hcount
    refine ⟨out, rfl, fun hc => ?_⟩
    have h0 : out.resets.count 20 = 0 := Option.some.inj hcount
    have h1 : out.resets.count 20 = 1 := (hc.everyDue ⟨account 20 (some 0), false⟩
      (List.mem_map.mpr ⟨20, by decide, rfl⟩) (by decide) rfl).1
    omega

end WorkTicket.Tasks.MonthlyReset
