import WorkTicket.Billing.Ledger
import WorkTicket.Foundation.Transition

/-! Sequences of credits of one company. The account is credited before the insert that the
unique index on the job may skip, so a credit that is answered as a duplicate can count. -/

namespace WorkTicket.Billing.Credits

open WorkTicket.Decimals WorkTicket.Transition

/-- The account row of the company, and the ledger row of each of its jobs. -/
structure Tables where
  account : Option BillingAccount
  ledger : JobId → Option LedgerRow

structure Call where
  now : Time
  jobId : JobId
  amountAcu : ℚ
  reason : String
  nonneg : 0 ≤ amountAcu
  deriving DecidableEq, Repr

def used (account : Option BillingAccount) : ℚ := account.elim 0 BillingAccount.usedAcu

/-- The flush of `used_acu`; what is no larger than before fits the column. -/
def storeUsed (a : BillingAccount) : BillingAccount :=
  { a with usedAcu := acuColumn.rounded a.usedAcu }

/-- `grant_credit` and the commit after it. -/
def perform (t : Tables) (c : Call) : CreditAnswer × Tables :=
  let out := grantCredit c.now c.jobId c.amountAcu c.reason t.account (t.ledger c.jobId)
  (out.1, ⟨out.2.1.map storeUsed, Function.update t.ledger c.jobId out.2.2⟩)

structure Entry where
  jobId : JobId
  reason : String
  answer : CreditAnswer
  before : Tables
  after : Tables

/-- The tables, and the calls so far, the last one first. -/
structure Books extends Tables where
  history : List Entry

def step (s : Books) (c : Call) : Option Books :=
  let out := perform s.toTables c
  some ⟨out.2, ⟨c.jobId, c.reason, out.1, s.toTables, out.2⟩ :: s.history⟩

def start (t : Tables) : Books := ⟨t, []⟩

/-! ## Idempotent and atomic -/

/-- A call that answers that it did nothing has done nothing. -/
def Entry.Truthful (e : Entry) : Prop :=
  e.answer = .skippedDuplicate ∨ e.answer = .noAccount →
    used e.after.account = used e.before.account ∧ e.after.ledger = e.before.ledger

def Entry.lowers (jobId : JobId) (reason : String) (e : Entry) : Bool :=
  e.jobId = jobId && e.reason = reason && used e.after.account < used e.before.account

def Idempotent (s : Books) : Prop :=
  (∀ e ∈ s.history, e.Truthful) ∧
    ∀ jobId reason, s.history.countP (Entry.lowers jobId reason) ≤ 1

/-- There is nothing to take back from, or less than the column can tell. -/
def TakesNothing (a : BillingAccount) (amountAcu : ℚ) : Prop :=
  0 ≤ a.usedAcu ∧ (a.usedAcu = 0 ∨ amountAcu ≤ acuColumn.unit / 2)

/-- The job has no ledger row, or one that the call takes for its own. -/
def Meets (s : Books) (c : Call) : Prop :=
  ∀ a ∈ s.account, s.ledger c.jobId = none ∨
    isDuplicateCredit c.reason (s.ledger c.jobId) ∨ TakesNothing a c.amountAcu

/-! ## One call -/

theorem credited_eq_iff {a : BillingAccount} (ha : acuColumn.OnScale a.usedAcu) {amount : ℚ}
    (hamount : 0 ≤ amount) :
    (storeUsed (creditAccount amount a)).usedAcu = a.usedAcu ↔ TakesNothing a amount := by
  have hunit := acuColumn.unit_pos
  simp only [storeUsed, creditAccount, TakesNothing]
  by_cases hle : amount ≤ a.usedAcu
  · rw [clampZero_of_nonneg (sub_nonneg.mpr hle), Column.rounded_sub ha hle, sub_eq_self,
      Column.roundedDown_eq_zero hamount]
    constructor
    · intro h
      exact ⟨hamount.trans hle, .inr h⟩
    · rintro ⟨-, hzero | h⟩
      · linarith
      · exact h
  · have hlt := not_le.mp hle
    have hzero : acuColumn.rounded (clampZero (a.usedAcu - amount)) = 0 := by
      rw [clampZero, if_pos (sub_neg.mpr hlt)]
      exact Column.OnScale.rounded ⟨0, by simp⟩
    rw [hzero]
    constructor
    · intro h
      exact ⟨h.le, .inl h.symm⟩
    · rintro ⟨hnonneg, h | h⟩
      · exact h.symm
      · by_contra hne
        have hscale := ha.unit_le (lt_of_le_of_ne hnonneg hne)
        linarith

theorem storeUsed_self {a : BillingAccount} (ha : acuColumn.OnScale a.usedAcu) :
    storeUsed a = a := by
  rw [storeUsed, ha.rounded]

/-- The three ways in which a call ends, for an account whose balance is in its column. -/
theorem perform_cases {t : Tables} (ht : ∀ a ∈ t.account, acuColumn.OnScale a.usedAcu) (c : Call) :
    ((perform t c).2 = t ∧ (t.account = none ∨ isDuplicateCredit c.reason (t.ledger c.jobId))) ∨
      (∃ a ∈ t.account, (perform t c).1 = .skippedDuplicate ∧ (t.ledger c.jobId).isSome ∧
        isDuplicateCredit c.reason (t.ledger c.jobId) = false ∧
        (perform t c).2 = ⟨some (storeUsed (creditAccount c.amountAcu a)), t.ledger⟩) ∨
      ∃ a ∈ t.account, ∃ l, (perform t c).1 = .credited ∧ t.ledger c.jobId = none ∧
        (perform t c).2 = ⟨some (storeUsed (creditAccount c.amountAcu a)),
          Function.update t.ledger c.jobId (some l)⟩ := by
  obtain ⟨account, ledger⟩ := t
  cases account with
  | none => exact .inl ⟨by simp [perform, grantCredit], .inl rfl⟩
  | some a =>
    have hself := storeUsed_self (ht a rfl)
    by_cases hdup : isDuplicateCredit c.reason (ledger c.jobId) = true
    · exact .inl ⟨by simp [perform, grantCredit, hdup, hself], .inr hdup⟩
    · have hdup' := Bool.not_eq_true _ ▸ hdup
      cases hrow : ledger c.jobId with
      | some l =>
        rw [hrow] at hdup'
        have hupdate : Function.update ledger c.jobId (some l) = ledger :=
          hrow ▸ Function.update_eq_self c.jobId ledger
        refine .inr (.inl ⟨a, rfl, ?_, ?_, ?_, ?_⟩)
        · simp [perform, grantCredit, hrow, hdup']
        · simp [hrow]
        · simp [hrow, hdup']
        · simp [perform, grantCredit, hrow, hdup', hupdate]
      | none =>
        refine .inr (.inr ⟨a, rfl, creditRow c.now c.jobId c.amountAcu c.reason
          (creditAccount c.amountAcu a), ?_, hrow, ?_⟩)
        · simp [perform, grantCredit, hrow, isDuplicateCredit]
        · simp [perform, grantCredit, hrow, isDuplicateCredit]

theorem perform_onScale {t : Tables} (ht : ∀ a ∈ t.account, acuColumn.OnScale a.usedAcu)
    (c : Call) :
    ∀ a ∈ (perform t c).2.account, acuColumn.OnScale a.usedAcu := by
  rcases perform_cases ht c with ⟨hsame, -⟩ | ⟨a, -, -, -, -, hout⟩ | ⟨a, -, l, -, -, hout⟩
  · rwa [hsame]
  all_goals
    rw [hout]
    intro a' ha'
    cases ha'
    exact Column.onScale_rounded

/-! ## Runs -/

/-- The calls so far are in order, and each one that lowered the balance left a ledger row. -/
structure Inv (s : Books) : Prop where
  idempotent : Idempotent s
  onScale : ∀ a ∈ s.account, acuColumn.OnScale a.usedAcu
  recorded : ∀ e ∈ s.history, used e.after.account < used e.before.account →
    (s.ledger e.jobId).isSome

theorem inv_start {t : Tables} (ht : ∀ a ∈ t.account, acuColumn.OnScale a.usedAcu) :
    Inv (start t) where
  idempotent := ⟨fun _ he => (nomatch he), fun _ _ => Nat.zero_le 1⟩
  onScale := ht
  recorded := fun _ he => nomatch he

/-- A call that leaves the balance and the ledger leaves what holds of the calls so far. -/
theorem Inv.cons_same {s : Books} (h : Inv s) {t : Tables} {e : Entry}
    (honScale : ∀ a ∈ t.account, acuColumn.OnScale a.usedAcu) (hledger : t.ledger = s.ledger)
    (hused : used t.account = used s.account) (hbefore : e.before = s.toTables)
    (hafter : e.after = t) : Inv ⟨t, e :: s.history⟩ := by
  have hno : ¬used e.after.account < used e.before.account := by
    rw [hafter, hbefore, hused]
    exact lt_irrefl _
  refine ⟨⟨fun e' he' => ?_, fun jobId reason => ?_⟩, honScale, fun e' he' hlt => ?_⟩
  · rcases List.mem_cons.mp he' with rfl | hold
    · intro _
      rw [hafter, hbefore]
      exact ⟨hused, hledger⟩
    · exact h.idempotent.1 e' hold
  · have hcount := h.idempotent.2 jobId reason
    rwa [List.countP_cons_of_neg (by simp [Entry.lowers, hno])]
  · rcases List.mem_cons.mp he' with rfl | hold
    · exact absurd hlt hno
    · rw [hledger]
      exact h.recorded e' hold hlt

/-- A call that finds no row of its job is the first one to lower the balance for it. -/
theorem Inv.cons_credited {s : Books} (h : Inv s) {t : Tables} {e : Entry} {l : LedgerRow}
    (honScale : ∀ a ∈ t.account, acuColumn.OnScale a.usedAcu) (hrow : s.ledger e.jobId = none)
    (hledger : t.ledger = Function.update s.ledger e.jobId (some l))
    (hanswer : e.answer = .credited) : Inv ⟨t, e :: s.history⟩ := by
  have hfirst : ∀ e' ∈ s.history, used e'.after.account < used e'.before.account →
      e'.jobId ≠ e.jobId := by
    intro e' he' hlt hjob
    have hsome := h.recorded e' he' hlt
    rw [hjob, hrow] at hsome
    cases hsome
  refine ⟨⟨fun e' he' => ?_, fun jobId reason => ?_⟩, honScale, fun e' he' hlt => ?_⟩
  · rcases List.mem_cons.mp he' with rfl | hold
    · intro hskipped
      rw [hanswer] at hskipped
      rcases hskipped with hskipped | hskipped <;> cases hskipped
    · exact h.idempotent.1 e' hold
  · rw [List.countP_cons]
    by_cases hlowers : e.lowers jobId reason = true
    · have hjob : e.jobId = jobId := by
        simp only [Entry.lowers, Bool.and_eq_true, decide_eq_true_eq] at hlowers
        exact hlowers.1.1
      have hnone : s.history.countP (Entry.lowers jobId reason) = 0 := by
        refine List.countP_eq_zero.mpr fun e' he' hlow => ?_
        simp only [Entry.lowers, Bool.and_eq_true, decide_eq_true_eq] at hlow
        exact hfirst e' he' hlow.2 (hlow.1.1.trans hjob.symm)
      simp [hnone, hlowers]
    · simpa [hlowers] using h.idempotent.2 jobId reason
  · simp only [hledger]
    rcases List.mem_cons.mp he' with rfl | hold
    · simp
    · rw [Function.update_of_ne (hfirst e' hold hlt)]
      exact h.recorded e' hold hlt

theorem inv_step (s : Books) (c : Call) (s' : Books) (h : Inv s) (hok : Meets s c)
    (hs : step s c = some s') : Inv s' := by
  obtain rfl := Option.some.inj hs
  have honScale := perform_onScale h.onScale c
  rcases perform_cases h.onScale c with ⟨hsame, -⟩ | ⟨a, ha, -, hsome, hdup, hout⟩ |
    ⟨a, -, l, hanswer, hrow, hout⟩
  · exact h.cons_same honScale (by rw [hsame]) (by rw [hsame]) rfl rfl
  · refine h.cons_same honScale (by rw [hout]) ?_ rfl rfl
    rcases hok a ha with hnone | hdup' | htakes
    · simp [hnone] at hsome
    · simp [hdup] at hdup'
    · have hused := (credited_eq_iff (h.onScale a ha) c.nonneg).mpr htakes
      have ha' : s.account = some a := ha
      simpa [hout, used, ha'] using hused
  · exact h.cons_credited honScale hrow (by rw [hout]) hanswer

theorem meets_of_idempotent (s : Books) (c : Call) (s' : Books) (h : Inv s)
    (hs : step s c = some s') (hidem : Idempotent s') : Meets s c := by
  obtain rfl := Option.some.inj hs
  intro a ha
  have ha' : s.account = some a := ha
  by_contra hnot
  simp only [not_or] at hnot
  obtain ⟨hrow, hdup, htakes⟩ := hnot
  rcases perform_cases h.onScale c with ⟨-, hnone | hdup'⟩ | ⟨b, hb, hanswer, -, -, hout⟩ |
    ⟨b, -, l, -, hnone, -⟩
  · rw [ha'] at hnone
    cases hnone
  · exact hdup hdup'
  · have htruth := (hidem.1 _ List.mem_cons_self (.inl hanswer)).1
    obtain rfl : a = b := Option.some.inj (ha'.symm.trans hb)
    have hused : (storeUsed (creditAccount c.amountAcu a)).usedAcu = a.usedAcu := by
      simpa [hout, used, ha'] using htruth
    exact htakes ((credited_eq_iff (h.onScale a ha) c.nonneg).mp hused)
  · exact hrow hnone

/-- Along every sequence of credits, those that answer that they did nothing change nothing
and each job and reason lowers the balance at most once, if and only if no call finds a row
of its job that it does not take for a duplicate. -/
theorem idempotent_iff {t : Tables} (ht : ∀ a ∈ t.account, acuColumn.OnScale a.usedAcu)
    (calls : List Call) :
    Along step Idempotent (start t) calls ↔ EachStep step Meets (start t) calls :=
  along_iff_eachStep (fun _ h => h.idempotent) inv_step meets_of_idempotent (inv_start ht) calls

def account : BillingAccount :=
  ⟨7, "pro", 600, 10, 5, 0, none, false, none, none, none, none, none, 0⟩

/-- What `reconcile_cost` left of a job that was charged 4 ACU. -/
def chargedRow : LedgerRow :=
  ⟨1, 0, 0, 4 / 100, 5 / 100, "local", 900, 0, false, none, none, none⟩

theorem account_onScale : ∀ a ∈ some account, acuColumn.OnScale a.usedAcu := by
  intro a ha
  cases ha
  exact ⟨100000, by norm_num [account, acuColumn, Column.unit]⟩

def goodwill : Call := ⟨0, 1, 5, "goodwill", by norm_num⟩

theorem idempotent_first_credit :
    Along step Idempotent (start ⟨some account, fun _ => none⟩) [goodwill] :=
  (idempotent_iff account_onScale [goodwill]).mpr fun _ _ => ⟨fun _ _ => .inl rfl, trivial⟩

/-- The credit of a job with a usage row is answered as a duplicate, and takes 5 ACU off. -/
theorem not_idempotent_charged_job :
    ¬Along step Idempotent
      (start ⟨some account, Function.update (fun _ => none) 1 (some chargedRow)⟩)
      [goodwill] := by
  intro halong
  have htruth := (halong.2 _ rfl).1 _ List.mem_cons_self (.inl (by decide))
  exact absurd htruth.1 (by decide +kernel)

end WorkTicket.Billing.Credits
