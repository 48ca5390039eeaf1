import WorkTicket.Billing.Ledger
import WorkTicket.Foundation.Transition

/-! Sequences of reconciliations and credits of one job. Both kinds of call take the
job's one ledger row as proof that they ran before, so they can hide each other. -/

namespace WorkTicket.Billing.JobCharges

open WorkTicket.Transition

inductive Call
  | reconcile (now : Time) (lockFree : Bool) (r : Reconciliation)
  | grantCredit (now : Time) (amountAcu : ℚ) (reason : String)
  | autoCredit (now : Time) (reservedAcu : ℚ)
  deriving DecidableEq, Repr

inductive Answer
  | reconcile (a : ReconcileAnswer)
  | credit (a : CreditAnswer)
  deriving DecidableEq, Repr

structure Entry where
  call : Call
  answer : Answer
  usedBefore : ℚ
  usedAfter : ℚ
  rowBefore : Option LedgerRow
  rowAfter : Option LedgerRow
  deriving DecidableEq, Repr

/-- The company's account, the job's ledger row, and the calls so far, the last one first. -/
structure Books where
  account : Option BillingAccount
  row : Option LedgerRow
  history : List Entry
  deriving DecidableEq, Repr

def usedOf (account : Option BillingAccount) : ℚ := account.elim 0 BillingAccount.usedAcu

def perform (jobId : JobId) (account : Option BillingAccount) (row : Option LedgerRow) :
    Call → Answer × Option BillingAccount × Option LedgerRow
  | .reconcile now lockFree r =>
    let out := reconcileCost now lockFree r account row
    (.reconcile out.1, out.2)
  | .grantCredit now amountAcu reason =>
    let out := Billing.grantCredit now jobId amountAcu reason account row
    (.credit out.1, out.2)
  | .autoCredit now reservedAcu =>
    let out := autoCreditFailedJob now jobId reservedAcu account row
    (.credit out.1, out.2)

def step (jobId : JobId) (s : Books) (c : Call) : Option Books :=
  let out := perform jobId s.account s.row c
  some ⟨out.2.1, out.2.2,
    ⟨c, out.1, usedOf s.account, usedOf out.2.1, s.row, out.2.2⟩ :: s.history⟩

def start (account : Option BillingAccount) : Books := ⟨account, none, []⟩

/-! ## Charged once -/

def Entry.charges (e : Entry) : Bool := e.answer = .reconcile .reconciled

def Call.reason? : Call → Option String
  | .reconcile _ _ _ => none
  | .grantCredit _ _ reason => some reason
  | .autoCredit _ reservedAcu => if reservedAcu ≤ 0 then none else some autoCreditReason

def Entry.grants (reason : String) (e : Entry) : Bool :=
  e.call.reason? = some reason && e.answer ≠ .credit .noAccount

def SubtractsOnce (earlier : List Entry) (e : Entry) (amountAcu : ℚ) (reason : String) : Prop :=
  e.usedAfter = e.usedBefore ∨
    (e.usedAfter = clampZero (e.usedBefore - amountAcu) ∧ earlier.any (Entry.grants reason) = false)

/-- What a call may do after the earlier ones: the first successful reconciliation adds
the cost, no other one adds anything, none writes over a credit's row. -/
def EntryOk (earlier : List Entry) (e : Entry) : Prop :=
  match e.call with
  | .reconcile _ _ r =>
    (e.usedAfter = if e.charges && !earlier.any Entry.charges then
        e.usedBefore + costAcu r.actualCostUsd else e.usedBefore) ∧
      ∀ l ∈ e.rowBefore, l.isCredit → e.rowAfter = e.rowBefore
  | .grantCredit _ amountAcu reason => SubtractsOnce earlier e amountAcu reason
  | .autoCredit _ reservedAcu => SubtractsOnce earlier e reservedAcu autoCreditReason

def ChargedOnce : List Entry → Prop
  | [] => True
  | e :: earlier => EntryOk earlier e ∧ ChargedOnce earlier

instance (earlier : List Entry) : (e : Entry) → Decidable (EntryOk earlier e)
  | ⟨.reconcile _ _ _, _, _, _, _, _⟩ => inferInstanceAs (Decidable (_ ∧ _))
  | ⟨.grantCredit _ _ _, _, _, _, _, _⟩ => inferInstanceAs (Decidable (_ ∨ _))
  | ⟨.autoCredit _ _, _, _, _, _, _⟩ => inferInstanceAs (Decidable (_ ∨ _))

instance decidableChargedOnce : (h : List Entry) → Decidable (ChargedOnce h)
  | [] => .isTrue trivial
  | _ :: earlier =>
    have := decidableChargedOnce earlier
    inferInstanceAs (Decidable (_ ∧ _))

/-- A reconciliation that gets to the account does not find a credit's row, and a credit
that was granted before finds the row its own first call wrote. -/
def Meets (s : Books) (c : Call) : Bool :=
  match c with
  | .reconcile _ lockFree _ =>
    !lockFree || s.account.isNone || !s.row.any LedgerRow.isCredit
  | c => s.account.isNone || c.reason?.all fun reason =>
    isDuplicateCredit reason s.row || !s.history.any (Entry.grants reason)

/-! ## Steps and runs -/

section
variable {jobId : JobId} {now : Time} {account : Option BillingAccount} {row : Option LedgerRow}

theorem grantCredit_row (amountAcu : ℚ) (reason : String) :
    isUsage (Billing.grantCredit now jobId amountAcu reason account row).2.2 = isUsage row := by
  cases account with
  | none => rfl
  | some a =>
    simp only [Billing.grantCredit]
    split
    · rfl
    · cases row with
      | none => rfl
      | some l => rfl

theorem grantCredit_used {amountAcu : ℚ} {reason : String}
    {out : CreditAnswer × Option BillingAccount × Option LedgerRow}
    (h : Billing.grantCredit now jobId amountAcu reason account row = out) :
    usedOf out.2.1 = usedOf account ∨ (usedOf out.2.1 = clampZero (usedOf account - amountAcu) ∧
      account.isSome ∧ isDuplicateCredit reason row = false) := by
  subst h
  cases account with
  | none => exact .inl rfl
  | some a =>
    simp only [Billing.grantCredit]
    split
    · exact .inl rfl
    · rename_i hdup
      refine .inr ⟨?_, rfl, by simpa using hdup⟩
      cases row with
      | none => rfl
      | some l => rfl

theorem grantCredit_subtractsOnce {amountAcu : ℚ} {reason : String} {e : Entry}
    {earlier : List Entry} {out : CreditAnswer × Option BillingAccount × Option LedgerRow}
    (h : Billing.grantCredit now jobId amountAcu reason account row = out)
    (hbefore : e.usedBefore = usedOf account) (hafter : e.usedAfter = usedOf out.2.1)
    (hok : account.isNone || (isDuplicateCredit reason row || !earlier.any (Entry.grants reason))) :
    SubtractsOnce earlier e amountAcu reason := by
  rcases grantCredit_used h with hsame | ⟨hsub, hsome, hdup⟩
  · exact .inl (by rw [hafter, hbefore, hsame])
  · refine .inr ⟨by rw [hafter, hbefore, hsub], ?_⟩
    cases account with
    | none => cases hsome
    | some a => simpa [hdup] using hok

/-- A reconciliation that does not meet a credit's row charges the job when there is no
row yet, and leaves a usage row. -/
theorem reconcileCost_cases {lockFree : Bool} {r : Reconciliation}
    {out : ReconcileAnswer × Option BillingAccount × Option LedgerRow}
    (h : reconcileCost now lockFree r account row = out)
    (hok : !lockFree || account.isNone || !row.any LedgerRow.isCredit) :
    (out.1 ≠ .reconciled ∧ out.2 = (account, row)) ∨
      (out.1 = .reconciled ∧ row = none ∧ isUsage out.2.2 ∧
        usedOf out.2.1 = usedOf account + costAcu r.actualCostUsd) ∨
      (out.1 = .reconciled ∧ isUsage row ∧ isUsage out.2.2 ∧ usedOf out.2.1 = usedOf account) := by
  subst h
  cases lockFree with
  | false => exact .inl ⟨by simp [reconcileCost], rfl⟩
  | true =>
    cases account with
    | none => exact .inl ⟨by simp [reconcileCost], rfl⟩
    | some a =>
      cases row with
      | some l =>
        have hl : l.isCredit = false := by simpa using hok
        exact .inr (.inr ⟨rfl, by simp [isUsage, hl], by
          simp [reconcileCost, isUsage, overwriteRow, hl], rfl⟩)
      | none =>
        simp only [reconcileCost, Bool.not_true, Bool.false_eq_true, if_false]
        cases hc : chargeAccount now r a with
        | none => exact .inl ⟨by simp, rfl⟩
        | some a' =>
          obtain ⟨-, rfl⟩ := chargeAccount_eq_some.mp hc
          exact .inr (.inl ⟨rfl, trivial, by simp [isUsage, usageRow], rfl⟩)

end

/-- The history is charged once, and the row is a usage row once the job was charged. -/
structure Inv (s : Books) : Prop where
  history : ChargedOnce s.history
  row : isUsage s.row = s.history.any Entry.charges

theorem inv_start (account : Option BillingAccount) : Inv (start account) := ⟨trivial, rfl⟩

theorem inv_step {jobId : JobId} {s s' : Books} {c : Call} (h : Inv s) (hok : Meets s c)
    (hs : step jobId s c = some s') : Inv s' := by
  obtain rfl := Option.some.inj hs
  cases c with
  | reconcile now lockFree r =>
    rcases reconcileCost_cases (rfl : reconcileCost now lockFree r s.account s.row = _) hok with
      ⟨ha, hout⟩ | ⟨ha, hrow, husage, hused⟩ | ⟨ha, hrow, husage, hused⟩
    · refine ⟨⟨⟨?_, fun l _ _ => ?_⟩, h.history⟩, ?_⟩
      · simp [perform, hout, Entry.charges, ha]
      · simp [perform, hout]
      · simpa [perform, hout, Entry.charges, ha] using h.row
    · have hfirst : s.history.any Entry.charges = false := by rw [← h.row, hrow]; rfl
      refine ⟨⟨⟨?_, fun l hl _ => ?_⟩, h.history⟩, ?_⟩
      · simp only [perform, Entry.charges, ha, hused]
        simp [hfirst]
      · simp [hrow] at hl
      · simpa [perform, Entry.charges, ha] using husage
    · have hagain : s.history.any Entry.charges = true := by rw [← h.row, hrow]
      refine ⟨⟨⟨?_, fun l hl hcredit => ?_⟩, h.history⟩, ?_⟩
      · simp only [perform, Entry.charges, ha, hused]
        simp [hagain]
      · have hl' : s.row = some l := hl
        simp [isUsage, hl', hcredit] at hrow
      · simpa [perform, Entry.charges, ha] using husage
  | grantCredit now amountAcu reason =>
    refine ⟨⟨grantCredit_subtractsOnce rfl rfl rfl ?_, h.history⟩, ?_⟩
    · simpa [Meets, Call.reason?] using hok
    · simpa [perform, Entry.charges, grantCredit_row] using h.row
  | autoCredit now reservedAcu =>
    by_cases hle : reservedAcu ≤ 0
    · refine ⟨⟨.inl ?_, h.history⟩, ?_⟩
      · simp [perform, autoCreditFailedJob, hle]
      · simpa [perform, autoCreditFailedJob, hle, Entry.charges] using h.row
    · have hcall : autoCreditFailedJob now jobId reservedAcu s.account s.row =
          Billing.grantCredit now jobId reservedAcu autoCreditReason s.account s.row := if_neg hle
      refine ⟨⟨grantCredit_subtractsOnce rfl rfl (congrArg (fun o => usedOf o.2.1) hcall) ?_,
        h.history⟩, ?_⟩
      · simpa [Meets, Call.reason?, hle] using hok
      · simpa [perform, hcall, Entry.charges, grantCredit_row] using h.row

/-- From a job without a ledger row, every sequence of calls none of which meets a row
that is not its own kind's charges the job once and subtracts each credit at most once. -/
theorem chargedOnce {jobId : JobId} {account : Option BillingAccount} {s : Books}
    (h : ReachedBy (step jobId) (fun s c => Meets s c) (start account) s) :
    ChargedOnce s.history :=
  (h.invariant (inv_start account) fun _ _ _ hi hok hs => inv_step hi hok hs).history

def account : BillingAccount :=
  ⟨7, "pro", 600, 10, 5, 0, none, false, none, none, none, none, none, 0⟩

def settle : Reconciliation := ⟨5 / 100, 4 / 100, 5, "local", 900, 1, 0, 0, none⟩

def settledCalls : List Call :=
  [.reconcile 0 true settle, .reconcile 1 true settle, .grantCredit 2 3 "goodwill"]

theorem chargedOnce_settledCalls :
    ChargedOnce ((runWhile (step 1) (fun s c => Meets s c) (start (some account))
      settledCalls).get (by decide)).history :=
  chargedOnce (ReachedBy.of_runWhile (Option.some_get _).symm)

/-- A credit granted before the job is reconciled hides the job's cost of 4 ACU: the
reconciliation is answered as done, `used_acu` stays at 9 and the credit's row is lost. -/
theorem credit_hides_charge :
    ∃ s, Reached (step 1) (start (some account)) s ∧ ¬ ChargedOnce s.history := by
  let calls : List Call := [.grantCredit 0 1 "goodwill", .reconcile 1 true settle]
  have hrun : run (step 1) (start (some account)) calls = some _ := rfl
  exact ⟨_, Reached.of_run hrun, by decide +kernel⟩

end WorkTicket.Billing.JobCharges
