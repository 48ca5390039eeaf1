import WorkTicket.Estimates.Estimate
import WorkTicket.Foundation.Fallible

/-! The arithmetic of an estimate over the requests that change it: which of them leave a
subtotal and a total that fit the line items and the tax. -/

namespace WorkTicket.Estimates.Arithmetic

open WorkTicket.Billing (Time)
open WorkTicket.Fallible

inductive Op
  | generate (newId : ℕ → ℕ) (jobDescription : String) (aiResult : Json)
  | update (newId : ℕ → ℕ) (req : EstimateUpdateRequest)
  | review (now : Time)
  | approve (now : Time)
  | send (now : Time)
  | reopen

/-- A request; `commits` tells whether its flushes and its commit succeed. -/
structure Request where
  op : Op
  commits : Bool

section
variable (parse : String → Option ℚ)

/-- What the route leaves in its session, if it does not refuse the request. -/
def Op.apply (e : Option Estimate) : Op → Option Estimate
  | .generate newId jobDescription aiResult =>
    if e.isSome then none else newEstimate parse newId jobDescription aiResult
  | .update newId req => e.bind fun e => (updateEstimate newId req e).toOption
  | .review now => e.bind fun e => (reviewAiEstimate now e).toOption
  | .approve now => e.bind fun e => (approveEstimate now e).toOption
  | .send now => e.bind fun e => (sendEstimate now e).toOption
  | .reopen => e.bind fun e => (reopenEstimate e).toOption

def step (e : Option Estimate) (r : Request) : Option Estimate :=
  if r.commits then ((r.op.apply parse e).map Estimate.stored).or e else e

def itemTotals (e : Estimate) : ℚ := (e.lineItems.map LineItem.total).sum

structure Consistent (e : Estimate) : Prop where
  subtotal : e.subtotal = roundCurrency (itemTotals e)
  total : e.total = roundCurrency (e.subtotal + e.tax)

def AlwaysConsistent : Option Estimate → List Request → Prop
  | _, [] => True
  | e, r :: rs => (∀ e', step parse e r = some e' → Consistent e') ∧ AlwaysConsistent (step parse e r) rs

/-- An update without line items leaves the subtotal, and the total that goes with the
subtotal and the tax it leaves. -/
def amountsFit (req : EstimateUpdateRequest) (e : Estimate) : Bool :=
  storeNumeric (req.subtotal.getD e.subtotal) = e.subtotal &&
    storeNumeric (req.total.getD e.total) =
      roundCurrency (e.subtotal + storeNumeric (req.tax.getD e.tax))

/-- The answer of the AI validates, or has no tax. -/
def answerFits (aiResult : Json) : Bool :=
  ((recomputeEstimate parse aiResult).bind (validateEstimate parse)).all (· = []) ||
    (taxOf parse aiResult).all (roundCurrency · = 0)

def Op.fits (e : Option Estimate) : Op → Bool
  | .generate _ _ aiResult => answerFits parse aiResult
  | .update _ req => req.lineItems.isSome || e.all (amountsFit req)
  | _ => true

def FitsAll : Option Estimate → List Request → Prop
  | _, [] => True
  | e, r :: rs =>
    (r.commits = true → (r.op.apply parse e).isSome = true → r.op.fits parse e = true) ∧
      FitsAll (step parse e r) rs

end

/-! ## One request -/

section
variable {parse : String → Option ℚ}

/-- The amounts and the items, which only generation and update change. -/
def SameAmounts (e e' : Estimate) : Prop :=
  e'.subtotal = e.subtotal ∧ e'.tax = e.tax ∧ e'.total = e.total ∧ e'.lineItems = e.lineItems

theorem transitionOr_sameAmounts {f : Failure} {now : Time} {target : EstimateStatus}
    {e e' : Estimate} (h : transitionOr f now target e = .ok e') : SameAmounts e e' := by
  obtain ⟨-, rfl⟩ := transitionOr_eq_ok h
  exact ⟨rfl, rfl, rfl, rfl⟩

theorem review_sameAmounts {now : Time} {e e' : Estimate}
    (h : reviewAiEstimate now e = .ok e') : SameAmounts e e' := by
  obtain ⟨_, -, h⟩ := bind_eq_ok.mp h
  obtain ⟨_, -, h⟩ := bind_eq_ok.mp h
  exact transitionOr_sameAmounts h

theorem send_sameAmounts {now : Time} {e e' : Estimate}
    (h : sendEstimate now e = .ok e') : SameAmounts e e' := by
  obtain ⟨_, -, h⟩ := bind_eq_ok.mp h
  exact transitionOr_sameAmounts h

theorem reopen_sameAmounts {e e' : Estimate} (h : reopenEstimate e = .ok e') :
    SameAmounts e e' := by
  obtain ⟨_, -, h⟩ := bind_eq_ok.mp h
  cases h
  exact ⟨rfl, rfl, rfl, rfl⟩

/-- A row whose numbers came out of its columns. -/
structure Sound (e : Estimate) : Prop extends Consistent e where
  tax : storeNumeric e.tax = e.tax

theorem stored_tax (e : Estimate) : storeNumeric e.stored.tax = e.stored.tax :=
  roundCurrency_idem e.tax

theorem Sound.stored_subtotal {e : Estimate} (h : Sound e) : storeNumeric e.subtotal = e.subtotal := by
  rw [h.subtotal]
  exact roundCurrency_idem _

theorem Sound.stored_total {e : Estimate} (h : Sound e) : storeNumeric e.total = e.total := by
  rw [h.total]
  exact roundCurrency_idem _

theorem Sound.of_sameAmounts {e e' : Estimate} (h : Sound e) (hsame : SameAmounts e e') :
    Consistent e'.stored := by
  obtain ⟨hsubtotal, htax, htotal, hitems⟩ := hsame
  constructor
  · simp only [Estimate.stored, itemTotals, hsubtotal, hitems, h.stored_subtotal]
    exact h.subtotal
  · simp only [Estimate.stored, hsubtotal, htax, htotal, h.stored_subtotal, h.stored_total, h.tax]
    exact h.total

theorem consistent_stored_iff {e : Estimate} : Consistent e.stored ↔
    storeNumeric e.subtotal = roundCurrency (itemTotals e) ∧
      storeNumeric e.total = roundCurrency (storeNumeric e.subtotal + storeNumeric e.tax) :=
  ⟨fun h => ⟨h.subtotal, h.total⟩, fun h => ⟨h.1, h.2⟩⟩

/-- With line items an update computes all three amounts, without them it takes them as given. -/
theorem Sound.update_iff {e e' : Estimate} (h : Sound e) {newId : ℕ → ℕ}
    {req : EstimateUpdateRequest} (hupdate : updateEstimate newId req e = .ok e') :
    Consistent e'.stored ↔ (req.lineItems.isSome || amountsFit req e) = true := by
  simp only [updateEstimate, bind_eq_ok] at hupdate
  obtain ⟨_, -, _, -, hupdate⟩ := hupdate
  cases hupdate
  rw [consistent_stored_iff]
  cases hitems : req.lineItems with
  | some lis => simp [updateAmounts, hitems, itemTotals, storeNumeric]
  | none =>
    have hsubtotal : roundCurrency (itemTotals e) = e.subtotal := h.subtotal.symm
    simp only [updateAmounts, hitems, itemTotals, amountsFit, Option.isSome_none, Bool.false_or,
      Bool.and_eq_true, decide_eq_true_eq]
    rw [itemTotals] at hsubtotal
    rw [hsubtotal]
    refine and_congr_right fun hsame => ?_
    rw [hsame]

theorem storedItems_totals {newId : ℕ → ℕ} {idx : ℕ} {cs : List CanonicalItem}
    {items : List LineItem} (h : storedItems newId idx cs = some items) :
    items.map LineItem.total = cs.map CanonicalItem.total := by
  induction cs generalizing idx items with
  | nil =>
    cases h
    rfl
  | cons c cs ih =>
    simp only [storedItems, storedItem, Option.bind_eq_bind, Option.bind_eq_some_iff,
      Option.some.injEq] at h
    obtain ⟨item, ⟨_, -, _, -, _, -, _, -, rfl⟩, rest, hrest, rfl⟩ := h
    rw [List.map_cons, List.map_cons, ih hrest]

theorem generate_iff {newId : ℕ → ℕ} {jobDescription : String} {aiResult : Json} {e : Estimate}
    (h : newEstimate parse newId jobDescription aiResult = some e) :
    Consistent e.stored ↔ answerFits parse aiResult = true := by
  simp only [newEstimate, Option.bind_eq_bind, Option.bind_eq_some_iff, Option.some.injEq] at h
  obtain ⟨c, hc, errors, herrors, tax, htax, items, hitems, rfl⟩ := h
  rw [consistent_stored_iff]
  simp only [answerFits, hc, herrors, htax, Option.bind_some, Option.all_some, Bool.or_eq_true,
    decide_eq_true_eq]
  have htotals := storedItems_totals hitems
  by_cases hvalid : errors = []
  · simp only [recomputeEstimate, Option.bind_eq_bind, Option.bind_eq_some_iff, Option.some.injEq]
      at hc
    obtain ⟨-, -, cs, -, tax', htax', rfl⟩ := hc
    obtain rfl : tax' = tax := Option.some.inj (htax'.symm.trans htax)
    rw [if_pos hvalid] at htotals
    simp [hvalid, itemTotals, htotals, storeNumeric, computeSubtotal, computeTotal]
  · -- the items are dropped and the amounts set to zero, and the tax is kept
    rw [if_neg hvalid] at htotals
    simp only [hvalid, if_false, itemTotals, htotals, List.map_nil, List.sum_nil, storeNumeric,
      roundCurrency_zero, true_and, zero_add, roundCurrency_idem, false_or]
    exact eq_comm

/-! ## Sequences of requests -/

theorem apply_iff {op : Op} {e? : Option Estimate} {e' : Estimate}
    (h : ∀ e, e? = some e → Sound e) (happly : op.apply parse e? = some e') :
    Consistent e'.stored ↔ op.fits parse e? = true := by
  have hsame : ∀ {e : Estimate}, Sound e → SameAmounts e e' → op.fits parse e? = true →
      (Consistent e'.stored ↔ op.fits parse e? = true) := fun hsound hsame hfits =>
    iff_of_true (hsound.of_sameAmounts hsame) hfits
  cases op with
  | generate newId jobDescription aiResult =>
    simp only [Op.apply] at happly
    split at happly
    · cases happly
    · exact generate_iff happly
  | update newId req =>
    obtain ⟨e, rfl, hupdate⟩ := Option.bind_eq_some_iff.mp happly
    exact (h e rfl).update_iff (toOption_eq_some.mp hupdate)
  | review now =>
    obtain ⟨e, rfl, hreview⟩ := Option.bind_eq_some_iff.mp happly
    exact hsame (h e rfl) (review_sameAmounts (toOption_eq_some.mp hreview)) rfl
  | approve now =>
    obtain ⟨e, rfl, happrove⟩ := Option.bind_eq_some_iff.mp happly
    exact hsame (h e rfl) (transitionOr_sameAmounts (toOption_eq_some.mp happrove)) rfl
  | send now =>
    obtain ⟨e, rfl, hsend⟩ := Option.bind_eq_some_iff.mp happly
    exact hsame (h e rfl) (send_sameAmounts (toOption_eq_some.mp hsend)) rfl
  | reopen =>
    obtain ⟨e, rfl, hreopen⟩ := Option.bind_eq_some_iff.mp happly
    exact hsame (h e rfl) (reopen_sameAmounts (toOption_eq_some.mp hreopen)) rfl

theorem step_iff {e? : Option Estimate} (h : ∀ e, e? = some e → Sound e) (r : Request) :
    (∀ e', step parse e? r = some e' → Consistent e') ↔
      (r.commits = true → (r.op.apply parse e?).isSome = true → r.op.fits parse e? = true) := by
  have hkept : ∀ e', e? = some e' → Consistent e' := fun e' he => (h e' he).toConsistent
  unfold step
  cases r.commits with
  | false => simpa using hkept
  | true =>
    cases happly : r.op.apply parse e? with
    | none => simpa using hkept
    | some e' => simpa using apply_iff h happly

theorem step_tax {e? : Option Estimate} (h : ∀ e, e? = some e → Sound e) (r : Request)
    {e' : Estimate} (hs : step parse e? r = some e') : storeNumeric e'.tax = e'.tax := by
  unfold step at hs
  split at hs
  · cases happly : r.op.apply parse e? with
    | none =>
      rw [happly] at hs
      exact (h e' hs).tax
    | some e =>
      rw [happly] at hs
      exact Option.some.inj hs ▸ stored_tax e
  · exact (h e' hs).tax

theorem alwaysConsistent_iff_of_sound (rs : List Request) {e? : Option Estimate}
    (h : ∀ e, e? = some e → Sound e) : AlwaysConsistent parse e? rs ↔ FitsAll parse e? rs := by
  induction rs generalizing e? with
  | nil => exact Iff.rfl
  | cons r rs ih =>
    rw [AlwaysConsistent, FitsAll, ← step_iff h r]
    refine and_congr_right fun hstep => ih fun e' he' => ?_
    exact ⟨hstep e' he', step_tax h r he'⟩

/-- The numbers of an estimate fit after every request exactly when every request that
changes it fits. -/
theorem alwaysConsistent_iff (parse : String → Option ℚ) (rs : List Request) :
    AlwaysConsistent parse none rs ↔ FitsAll parse none rs :=
  alwaysConsistent_iff_of_sound rs fun _ he => nomatch he

end

/-! ## An update of the amounts alone -/

def noText : String → Option ℚ := fun _ => none

/-- One line item of 50 dollars. -/
def answer : Json :=
  .obj [("line_items", .arr [.obj [("name", .str "Labor"), ("item_type", .str "labor"),
    ("quantity", .num 1), ("rate", .num 50)]]), ("tax", .num 0)]

def hundred : EstimateUpdateRequest :=
  ⟨none, none, none, some 100, some 0, some 100, none⟩

def generated : List Request := [⟨.generate id "Fix the pump" answer, true⟩, ⟨.review 5, true⟩]

/-- The update sets subtotal and total to 100 dollars over an item of 50. -/
theorem hundred_not_consistent :
    ¬ AlwaysConsistent noText none (generated ++ [⟨.update id hundred, true⟩]) := by
  rintro ⟨-, -, h, -⟩
  have hafter : (step noText (step noText (step noText none ⟨.generate id "Fix the pump" answer,
      true⟩) ⟨.review 5, true⟩) ⟨.update id hundred, true⟩).map (fun e => (e.subtotal, itemTotals e)) =
        some (100, 50) := by decide +kernel
  obtain ⟨e, he, hpair⟩ := Option.map_eq_some_iff.mp hafter
  obtain ⟨hsubtotal, hitems⟩ := Prod.mk.inj hpair
  have hconsistent := (h e he).subtotal
  rw [hsubtotal, hitems] at hconsistent
  exact absurd hconsistent (by decide +kernel)

end WorkTicket.Estimates.Arithmetic
