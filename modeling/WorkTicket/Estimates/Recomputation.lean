import WorkTicket.Estimates.JsonValidation

/-! A recomputed estimate is validated without an error, and recomputing it again changes none of
its amounts. The numbers of its line items are exact decimals. -/

namespace WorkTicket.Estimates

/-! ## Sums of rounded amounts -/

theorem roundCurrency_monotone : Monotone roundCurrency := by
  intro x y hxy
  have hnonneg : ∀ {x y : ℚ}, 0 ≤ x → x ≤ y → roundCurrency x ≤ roundCurrency y := by
    intro x y hx hxy
    rw [roundCurrency_nonneg hx, roundCurrency_nonneg (hx.trans hxy), round_eq, round_eq]
    have hfloor : ⌊x * 100 + 1 / 2⌋ ≤ ⌊y * 100 + 1 / 2⌋ := Int.floor_mono (by linarith)
    have hcast : (⌊x * 100 + 1 / 2⌋ : ℚ) ≤ ⌊y * 100 + 1 / 2⌋ := by exact_mod_cast hfloor
    linarith
  obtain hx | hx := le_total 0 x
  · exact hnonneg hx hxy
  · rw [← neg_neg x, ← neg_neg y, roundCurrency_neg, roundCurrency_neg (-y)]
    obtain hy | hy := le_total 0 y
    · have hleft := hnonneg le_rfl (neg_nonneg.mpr hx)
      have hright := hnonneg le_rfl hy
      rw [roundCurrency_zero] at hleft hright
      rw [roundCurrency_neg y]
      linarith
    · exact neg_le_neg (hnonneg (neg_nonneg.mpr hy) (neg_le_neg hxy))

theorem roundCurrency_nonneg_of {x : ℚ} (h : 0 ≤ x) : 0 ≤ roundCurrency x := by
  have hle := roundCurrency_monotone h
  rwa [roundCurrency_zero] at hle

/-- Whole cents are not changed by the rounding of what is added to them. -/
theorem roundCurrency_cents_add {s x : ℚ} (hs : 0 ≤ s) (hx : 0 ≤ x)
    (hcents : ∃ n : ℤ, s = n / 100) : roundCurrency (s + x) = s + roundCurrency x := by
  obtain ⟨n, rfl⟩ := hcents
  have hsum : (n / 100 + x : ℚ) * 100 = n + x * 100 := by ring
  rw [roundCurrency_nonneg (add_nonneg hs hx), roundCurrency_nonneg hx, hsum, round_intCast_add]
  push_cast
  ring

namespace Engine

theorem fits_of_nonneg_of_le {x y : ℚ} (hx : 0 ≤ x) (hxy : x ≤ y) (hy : Fits y) : Fits x := by
  have hle := roundCurrency_monotone hxy
  have hnonneg := roundCurrency_nonneg_of hx
  rw [Fits, abs_of_nonneg hnonneg]
  exact hle.trans_lt ((le_abs_self _).trans_lt hy)

/-- With a subtotal that fits and a tax that fits, the sum of the tax as it was before its
rounding fits if the sum of the rounded one does. -/
theorem fits_add {s tax : ℚ} (hnonneg : 0 ≤ s) (hcents : ∃ n : ℤ, s = n / 100) (hs : Fits s)
    (htax : Fits tax) (htotal : Fits (s + Estimates.roundCurrency tax)) : Fits (s + tax) := by
  obtain h | h := le_total 0 tax
  · have heq : Estimates.roundCurrency (s + Estimates.roundCurrency tax) =
        Estimates.roundCurrency (s + tax) := by
      rw [roundCurrency_cents_add hnonneg (roundCurrency_nonneg_of h) hcents, roundCurrency_idem,
        roundCurrency_cents_add hnonneg h hcents]
    rwa [Fits, ← heq]
  · have hlow : Estimates.roundCurrency tax ≤ Estimates.roundCurrency (s + tax) :=
      roundCurrency_monotone (by linarith)
    have hhigh : Estimates.roundCurrency (s + tax) ≤ Estimates.roundCurrency s :=
      roundCurrency_monotone (by linarith)
    rw [Fits, abs_lt] at hs htax ⊢
    constructor <;> linarith [hs.2, htax.1]

/-! ## Finite numbers

Where `float` makes finite numbers only, the engine is the one of exact decimals. -/

section
variable {parse : String → Option ℚ}

def finite (parse : String → Option ℚ) (s : String) : Option PyFloat := (parse s).map .fin

theorem ofJson_finite {j : Json} {f : PyFloat} (h : PyFloat.ofJson (finite parse) j = .ok f) :
    ∃ x, f = .fin x ∧ toFloat parse j = some x := by
  cases j with
  | num x =>
    simp only [PyFloat.ofJson] at h
    split at h
    · cases h
      exact ⟨x, rfl, rfl⟩
    · cases h
  | bool b =>
    cases h
    exact ⟨_, rfl, rfl⟩
  | str s =>
    simp only [PyFloat.ofJson, finite] at h
    cases hparse : parse s with
    | none =>
      rw [hparse] at h
      cases h
    | some x =>
      rw [hparse] at h
      cases h
      exact ⟨x, rfl, hparse⟩
  | _ => cases h

theorem floatOf_finite {j default : Json} {key : String} {f : PyFloat}
    (h : floatOf (finite parse) j key default = .ok f) :
    ∃ x, f = .fin x ∧ (j.get key default).bind (toFloat parse) = some x := by
  obtain ⟨v, hv, hf⟩ := floatOf_eq_ok.mp h
  obtain ⟨fields, rfl⟩ := exists_obj hv
  rw [getKey_obj, Except.ok.injEq] at hv
  rw [Json.get, Option.bind_some, hv]
  exact ofJson_finite hf

theorem roundCurrency_finite {x : ℚ} {f : PyFloat} (h : roundCurrency (.fin x) = .ok f) :
    f = .fin (Estimates.roundCurrency x) := (roundCurrency_eq_ok.mp h).2

theorem recomputeLineItem_finite {item : Json} {i : PricedItem}
    (h : recomputeLineItem (finite parse) item = .ok i) :
    ∃ c, Estimates.recomputeLineItem parse item = some c ∧ i = ⟨c.item, .fin c.total⟩ := by
  simp only [recomputeLineItem, Fallible.bind_eq_ok] at h
  obtain ⟨q, hq, r, hr, computed, hcomputed, hi⟩ := h
  obtain ⟨x, rfl, hx⟩ := floatOf_finite hq
  obtain ⟨y, rfl, hy⟩ := floatOf_finite hr
  obtain rfl : computed = .fin (Estimates.computeLineItemTotal x y) := roundCurrency_finite hcomputed
  cases hi
  have hprices : Estimates.recomputeLineItem parse item =
      some ⟨item, Estimates.computeLineItemTotal x y⟩ := by
    simp [Estimates.recomputeLineItem, hx, hy]
  exact ⟨_, hprices, rfl⟩

theorem recomputeItems_finite {items : List Json} {ps : List PricedItem}
    (h : items.mapM (recomputeLineItem (finite parse)) = .ok ps) :
    ∃ cs, items.mapM (Estimates.recomputeLineItem parse) = some cs ∧
      ps = cs.map fun c => ⟨c.item, .fin c.total⟩ := by
  rw [Fallible.mapM_eq_ok] at h
  induction h with
  | nil => exact ⟨[], rfl, rfl⟩
  | cons hi _ ih =>
    obtain ⟨c, hc, rfl⟩ := recomputeLineItem_finite hi
    obtain ⟨cs, hcs, rfl⟩ := ih
    exact ⟨c :: cs, by simp [hc, hcs], rfl⟩

/-- What the engine returns are the canonical amounts. -/
theorem recomputeEstimate_finite {estimate : Json} {p : Priced}
    (h : recomputeEstimate (finite parse) estimate = .ok p) :
    ∃ c, Estimates.recomputeEstimate parse estimate = some c ∧
      p = ⟨c.estimate, c.lineItems.map fun i => ⟨i.item, .fin i.total⟩, .fin c.subtotal,
        .fin c.total⟩ := by
  simp only [recomputeEstimate, Fallible.bind_eq_ok] at h
  obtain ⟨value, hvalue, items, hitems, ps, hps, subtotal, hsubtotal, tax, htax, rounded, hrounded,
    total, htotal, hp⟩ := h
  obtain ⟨cs, hcs, rfl⟩ := recomputeItems_finite hps
  obtain ⟨t, rfl, ht⟩ := floatOf_finite htax
  obtain rfl := roundCurrency_finite hrounded
  have hsum : PyFloat.sum ((cs.map fun c => PricedItem.mk c.item (.fin c.total)).map
      PricedItem.total) = .fin (cs.map CanonicalItem.total).sum := by
    rw [List.map_map]
    exact PyFloat.sum_map_fin CanonicalItem.total cs
  rw [computeSubtotal, hsum] at hsubtotal
  obtain rfl := roundCurrency_finite hsubtotal
  obtain rfl := roundCurrency_finite htotal
  cases hp
  have helements : (estimate.get "line_items" (.arr [])).bind Json.elements = some items := by
    obtain ⟨fields, rfl⟩ := exists_obj hvalue
    rw [getKey_obj, Except.ok.injEq] at hvalue
    rw [Json.get, Option.bind_some, hvalue]
    revert hitems
    unfold elements
    cases value.elements <;> simp
  refine ⟨⟨estimate, cs, _, _⟩, ?_, rfl⟩
  simp only [Estimates.recomputeEstimate, helements, hcs, taxOf, ht, Option.bind_eq_bind,
    Option.bind_some]
  rfl

end

/-! ## Estimates of well-formed line items -/

structure Entry where
  quantity : ℚ
  rate : ℚ
  quantity_nonneg : 0 ≤ quantity
  rate_nonneg : 0 ≤ rate

namespace Entry

def total (e : Entry) : ℚ := Estimates.computeLineItemTotal e.quantity e.rate

def line (e : Entry) : Line := ⟨.fin e.quantity, .fin e.rate, e.total⟩

theorem total_nonneg (e : Entry) : 0 ≤ e.total :=
  roundCurrency_nonneg_of (mul_nonneg e.quantity_nonneg e.rate_nonneg)

end Entry

section
variable (parse : String → Option PyFloat)

/-- A name that is not blank, a known type and two numbers that are not negative. -/
structure WellFormed (item : Json) (e : Entry) : Prop where
  name : ∃ name, getKey item "name" .null = .ok name ∧ isBlank name = false
  itemType : ∃ t ∈ lineItemTypes, getKey item "item_type" .null = .ok (.str t)
  quantity : floatOf parse item "quantity" .null = .ok (.fin e.quantity)
  rate : floatOf parse item "rate" .null = .ok (.fin e.rate)

def subtotal (entries : List Entry) : ℚ := Estimates.computeSubtotal (entries.map Entry.total)

def total (entries : List Entry) (tax : ℚ) : ℚ :=
  Estimates.computeTotal (subtotal entries) (Estimates.roundCurrency tax)

/-- The amounts that are rounded stay below the largest that a decimal holds. -/
structure FitAmounts (entries : List Entry) (tax : ℚ) : Prop where
  fitsSubtotal : Fits (entries.map Entry.total).sum
  fitsTax : Fits tax
  fitsTotal : Fits (subtotal entries + Estimates.roundCurrency tax)

/-- What is recomputed has no errors, and recomputing it leaves its amounts as they are. -/
def Settles (estimate : Json) : Prop :=
  ∃ p d, recomputeEstimate parse estimate = .ok p ∧ p.dict = some d ∧
    validateEstimate parse d = .ok [] ∧
    ∃ p', recomputeEstimate parse d = .ok p' ∧
      p'.lineItems.map PricedItem.total = p.lineItems.map PricedItem.total ∧
      p'.subtotal = p.subtotal ∧ p'.total = p.total

variable {parse} {estimate : Json} {items : List Json} {entries : List Entry} {tax : ℚ}

theorem sum_nonneg (entries : List Entry) : 0 ≤ (entries.map Entry.total).sum := by
  apply List.sum_nonneg
  intro x hx
  obtain ⟨e, -, rfl⟩ := List.mem_map.mp hx
  exact e.total_nonneg

theorem subtotal_nonneg (entries : List Entry) : 0 ≤ subtotal entries :=
  roundCurrency_nonneg_of (sum_nonneg entries)

theorem total_le_sum {e : Entry} (he : e ∈ entries) : e.total ≤ (entries.map Entry.total).sum := by
  apply List.single_le_sum _ _ (List.mem_map_of_mem he)
  intro x hx
  obtain ⟨e, -, rfl⟩ := List.mem_map.mp hx
  exact e.total_nonneg

/-- The total of a line is not larger than the subtotal. -/
theorem line_storable {e : Entry} (he : e ∈ entries) (h : Fits (entries.map Entry.total).sum) :
    e.line.Storable := by
  have hfits : Fits e.total := fits_of_nonneg_of_le e.total_nonneg (total_le_sum he) h
  rw [Fits, Entry.total, Estimates.computeLineItemTotal, roundCurrency_idem] at hfits
  exact .inl ⟨e.quantity, e.rate, rfl, rfl, hfits⟩

theorem rated (h : List.Forall₂ (WellFormed parse) items entries) :
    List.Forall₂ (Rated parse) items (entries.map Entry.line) := by
  rw [List.forall₂_map_right_iff]
  exact h.imp fun _ _ hitem => ⟨floatOf_null _ hitem.quantity, floatOf_null _ hitem.rate⟩

theorem sum_amounts (entries : List Entry) :
    PyFloat.sum ((entries.map Entry.line).map Line.amount) =
      .fin (entries.map Entry.total).sum := by
  rw [List.map_map]
  exact PyFloat.sum_map_fin Entry.total entries

theorem recompute_wellFormed
    (hitems : getKey estimate "line_items" (.arr []) = .ok (.arr items))
    (hentries : List.Forall₂ (WellFormed parse) items entries)
    (htax : floatOf parse estimate "tax" (.num 0) = .ok (.fin tax)) (hfit : FitAmounts entries tax) :
    recomputeEstimate parse estimate = .ok ⟨estimate, priced items (entries.map Entry.line),
      .fin (subtotal entries), .fin (total entries tax)⟩ := by
  have hstores : ∀ l ∈ entries.map Entry.line, l.Storable := by
    intro l hl
    obtain ⟨e, he, rfl⟩ := List.mem_map.mp hl
    exact line_storable he hfit.fitsSubtotal
  rw [recomputeEstimate_eq_ok hitems (rated hentries) hstores htax, sum_amounts]
  exact ⟨⟨hfit.fitsSubtotal, hfit.fitsTax, hfit.fitsTotal⟩, rfl⟩

/-! ## The recomputed estimate as it is validated -/

theorem getKey_withProperty_self {j v w : Json} {key : String} {default : Json}
    (hobj : getKey j key default = .ok w) :
    getKey (Web.withProperty j key v) key default = .ok v := by
  obtain ⟨fields, rfl⟩ := exists_obj hobj
  simp [Web.withProperty, getKey_obj, List.lookup]

theorem getKey_withProperty_of_ne {j v : Json} {key key' : String} {default : Json}
    (hne : key' ≠ key) :
    getKey (Web.withProperty j key v) key' default = getKey j key' default := by
  cases j with
  | obj fields =>
    have hbeq : (key' == key) = false := beq_eq_false_iff_ne.mpr hne
    simp [Web.withProperty, getKey_obj, List.lookup, hbeq]
  | _ => rfl

def recomputedItems (items : List Json) (entries : List Entry) : List Json :=
  List.zipWith (fun item e => Web.withProperty item "total" (.num e.total)) items entries

def recomputed (estimate : Json) (items : List Json) (entries : List Entry) (tax : ℚ) : Json :=
  Web.withProperty (Web.withProperty (Web.withProperty estimate "line_items"
    (.arr (recomputedItems items entries))) "subtotal" (.num (subtotal entries)))
    "total" (.num (total entries tax))

theorem dict_priced (hentries : List.Forall₂ (WellFormed parse) items entries) :
    (priced items (entries.map Entry.line)).mapM PricedItem.dict =
      some (recomputedItems items entries) := by
  induction hentries with
  | nil => rfl
  | cons _ _ ih =>
    simp only [priced, List.map_cons, List.zipWith_cons_cons, List.mapM_cons] at ih ⊢
    rw [ih]
    rfl

theorem dict_recomputed (hentries : List.Forall₂ (WellFormed parse) items entries) :
    (Priced.mk estimate (priced items (entries.map Entry.line)) (.fin (subtotal entries))
      (.fin (total entries tax))).dict = some (recomputed estimate items entries tax) := by
  simp only [Priced.dict, dict_priced hentries]
  rfl

theorem WellFormed.withTotal {item : Json} {e : Entry} (h : WellFormed parse item e) :
    WellFormed parse (Web.withProperty item "total" (.num e.total)) e := by
  obtain ⟨⟨name, hname, hblank⟩, ⟨t, ht, htype⟩, hquantity, hrate⟩ := h
  refine ⟨⟨name, ?_, hblank⟩, ⟨t, ht, ?_⟩, ?_, ?_⟩
  · rwa [getKey_withProperty_of_ne (by decide)]
  · rwa [getKey_withProperty_of_ne (by decide)]
  · rwa [floatOf, getKey_withProperty_of_ne (by decide)]
  · rwa [floatOf, getKey_withProperty_of_ne (by decide)]

theorem wellFormed_recomputed (hentries : List.Forall₂ (WellFormed parse) items entries) :
    List.Forall₂ (WellFormed parse) (recomputedItems items entries) entries := by
  induction hentries with
  | nil => exact .nil
  | cons h _ ih => exact .cons h.withTotal ih

/-! ## The recomputed estimate has no errors -/

theorem ten_pow_lt_limit : (10 : ℚ) ^ 26 < PyFloat.limit := by
  have hpow : (2 : ℚ) ^ 1024 = 2 ^ 970 * 2 ^ 54 := by rw [← pow_add]
  have hle : (2 : ℚ) ^ 100 ≤ 2 ^ 970 := pow_le_pow_right₀ one_le_two (by norm_num)
  rw [PyFloat.limit, hpow]
  generalize (2 : ℚ) ^ 970 = p at hle
  norm_num at hle ⊢
  linarith

theorem lt_limit_of_fits {x : ℚ} (h : Fits x) : |Estimates.roundCurrency x| < PyFloat.limit :=
  h.trans ten_pow_lt_limit

theorem ofJson_rounded {x : ℚ} (h : Fits x) :
    PyFloat.ofJson parse (.num (Estimates.roundCurrency x)) =
      .ok (.fin (Estimates.roundCurrency x)) :=
  if_pos (lt_limit_of_fits h)

theorem near_self (x : ℚ) : lenient.near (.fin x) (.fin x) := by
  have h : ¬tolerance < |x - x| := by
    rw [sub_self, abs_zero]
    exact Web.tolerance_nonneg.not_gt
  simpa [lenient, PyFloat.apart] using h

/-- The total of a line is among the amounts that fit. -/
theorem fits_line {e : Entry} (he : e ∈ entries) (h : Fits (entries.map Entry.total).sum) :
    Fits (e.quantity * e.rate) := by
  obtain ⟨x, y, hx, hy, hfits⟩ | h | h := line_storable he h
  · cases hx
    cases hy
    exact hfits
  · cases h
  · cases h

theorem reads_withTotal {item : Json} {e : Entry} (h : WellFormed parse item e)
    (hfits : Fits (e.quantity * e.rate)) :
    Reads parse (Web.withProperty item "total" (.num e.total)) e.line := by
  obtain ⟨name, hname, -⟩ := h.name
  obtain ⟨fields, rfl⟩ := exists_obj hname
  refine ⟨⟨floatOf_null _ h.withTotal.quantity, floatOf_null _ h.withTotal.rate⟩, ?_,
    lt_limit_of_fits hfits⟩
  exact summand_eq_ok.mpr ⟨_, getKey_withProperty_self (getKey_obj ..), e.total, rfl, rfl⟩

theorem meetsItem_withTotal {item : Json} {e : Entry} (h : WellFormed parse item e)
    (hfits : Fits (e.quantity * e.rate)) :
    MeetsItem parse lenient (Web.withProperty item "total" (.num e.total)) := by
  have hreads := reads_withTotal h hfits
  have hstorable : e.line.Storable := .inl ⟨e.quantity, e.rate, rfl, rfl, hfits⟩
  have hnonneg : ∀ {x : ℚ}, 0 ≤ x → lenient.nonneg (.fin x) := by
    intro x hx
    simpa [lenient, PyFloat.isNegative] using hx
  obtain ⟨name, hname, -⟩ := h.name
  obtain ⟨fields, rfl⟩ := exists_obj hname
  refine ⟨h.withTotal.name, h.withTotal.itemType,
    ⟨_, h.withTotal.quantity, hnonneg e.quantity_nonneg⟩,
    ⟨_, h.withTotal.rate, hnonneg e.rate_nonneg⟩, _, _, ?_, ?_, near_self e.total⟩
  · exact floatOf_eq_ok.mpr ⟨_, getKey_withProperty_self (getKey_obj ..), ofJson_rounded hfits⟩
  · exact lineTotal_eq_ok.mpr ⟨_, hreads.quantity, _, hreads.rate,
      computeLineItemTotal_eq_ok.mpr ⟨hstorable, rfl⟩⟩

theorem given_lines (entries : List Entry) :
    given (entries.map Entry.line) = (entries.map Entry.total).sum := by
  rw [given, List.map_map]
  rfl

theorem reads_recomputed (hentries : List.Forall₂ (WellFormed parse) items entries)
    (hfits : ∀ e ∈ entries, Fits (e.quantity * e.rate)) :
    List.Forall₂ (Reads parse) (recomputedItems items entries) (entries.map Entry.line) := by
  induction hentries with
  | nil => exact .nil
  | cons h _ ih =>
    obtain ⟨hfirst, hrest⟩ := List.forall_mem_cons.mp hfits
    exact .cons (reads_withTotal h hfirst) (ih hrest)

theorem meetsItems_recomputed (hentries : List.Forall₂ (WellFormed parse) items entries)
    (hfits : ∀ e ∈ entries, Fits (e.quantity * e.rate)) :
    ∀ item ∈ recomputedItems items entries, MeetsItem parse lenient item := by
  induction hentries with
  | nil => simp [recomputedItems]
  | cons h _ ih =>
    obtain ⟨hfirst, hrest⟩ := List.forall_mem_cons.mp hfits
    exact List.forall_mem_cons.mpr ⟨meetsItem_withTotal h hfirst, ih hrest⟩

theorem fits_computed {x : ℚ} (hcents : ∃ n : ℤ, x = n / 100) : Fits x ↔ |x| < 10 ^ 26 := by
  obtain ⟨n, rfl⟩ := hcents
  rw [Fits, roundCurrency_cents]

theorem fits_taxed (hfit : FitAmounts entries tax) : Fits (subtotal entries + tax) := by
  have hfits : Fits (subtotal entries) :=
    (fits_computed (exists_cents _)).mpr hfit.fitsSubtotal
  exact fits_add (subtotal_nonneg entries) (exists_cents _) hfits hfit.fitsTax hfit.fitsTotal

section
variable (hitems : getKey estimate "line_items" (.arr []) = .ok (.arr items))
include hitems

theorem recomputed_lineItems :
    getKey (recomputed estimate items entries tax) "line_items" (.arr []) =
      .ok (.arr (recomputedItems items entries)) := by
  rw [recomputed, getKey_withProperty_of_ne (by decide), getKey_withProperty_of_ne (by decide)]
  exact getKey_withProperty_self hitems

theorem recomputed_subtotal (hfit : FitAmounts entries tax) :
    floatOf parse (recomputed estimate items entries tax) "subtotal" .null =
      .ok (.fin (subtotal entries)) := by
  obtain ⟨fields, rfl⟩ := exists_obj hitems
  have hvalue : getKey (recomputed (.obj fields) items entries tax) "subtotal" .null =
      .ok (.num (subtotal entries)) := by
    rw [recomputed, getKey_withProperty_of_ne (by decide)]
    exact getKey_withProperty_self (getKey_obj ..)
  exact floatOf_eq_ok.mpr ⟨_, hvalue, ofJson_rounded hfit.fitsSubtotal⟩

theorem recomputed_total (hfit : FitAmounts entries tax) :
    floatOf parse (recomputed estimate items entries tax) "total" .null =
      .ok (.fin (total entries tax)) := by
  obtain ⟨fields, rfl⟩ := exists_obj hitems
  exact floatOf_eq_ok.mpr
    ⟨_, getKey_withProperty_self (getKey_obj ..), ofJson_rounded hfit.fitsTotal⟩

end

theorem recomputed_tax (htax : floatOf parse estimate "tax" (.num 0) = .ok (.fin tax)) :
    floatOf parse (recomputed estimate items entries tax) "tax" (.num 0) = .ok (.fin tax) := by
  rwa [floatOf, recomputed, getKey_withProperty_of_ne (by decide),
    getKey_withProperty_of_ne (by decide), getKey_withProperty_of_ne (by decide)]

theorem safe_recomputed (hitems : getKey estimate "line_items" (.arr []) = .ok (.arr items))
    (hfit : FitAmounts entries tax) :
    Safe parse (recomputed estimate items entries tax) (entries.map Entry.line) (.fin tax) := by
  constructor
  · intro l hl
    obtain ⟨e, he, rfl⟩ := List.mem_map.mp hl
    exact line_storable he hfit.fitsSubtotal
  · rw [given_lines]
    exact hfit.fitsSubtotal
  · rw [given_lines]
    exact fits_taxed hfit
  · simp [recomputed_subtotal hitems hfit]
  · simp [recomputed_total hitems hfit]

/-- The amounts that validation computes of a recomputed estimate are its own, and the total is
the one without the rounding of the tax. -/
theorem validate_recomputed (hitems : getKey estimate "line_items" (.arr []) = .ok (.arr items))
    (hentries : List.Forall₂ (WellFormed parse) items entries)
    (htax : floatOf parse estimate "tax" (.num 0) = .ok (.fin tax)) (hfit : FitAmounts entries tax) :
    validateEstimate parse (recomputed estimate items entries tax) = .ok [] := by
  have hfits : ∀ e ∈ entries, Fits (e.quantity * e.rate) :=
    fun e he => fits_line he hfit.fitsSubtotal
  have hreads := reads_recomputed hentries hfits
  have hsubtotal : subtotalOf (recomputedItems items entries) = .ok (.fin (subtotal entries)) := by
    rw [subtotalOf_eq_ok hreads, given_lines]
    exact ⟨hfit.fitsSubtotal, rfl⟩
  have htotal : totalOf parse (recomputed estimate items entries tax)
      (recomputedItems items entries) =
        .ok (.fin (Estimates.computeTotal (subtotal entries) tax)) :=
    totalOf_eq_ok.mpr
      ⟨_, hsubtotal, _, recomputed_tax htax, roundCurrency_eq_ok.mpr ⟨fits_taxed hfit, rfl⟩⟩
  have hkey := @recomputed_lineItems _ _ entries tax hitems
  have hreturns := (validateEstimate_returns hkey).mpr
    ⟨_, _, hreads, recomputed_tax htax, safe_recomputed hitems hfit⟩
  rw [validateEstimate_eq_nil hkey hreturns]
  refine ⟨meetsItems_recomputed hentries hfits, .inr ?_, .inr ?_⟩
  · rw [recomputed_subtotal hitems hfit, hsubtotal]
    exact ⟨_, _, rfl, rfl, near_self _⟩
  · rw [recomputed_total hitems hfit, htotal]
    have hnear : ¬tolerance < |total entries tax - Estimates.computeTotal (subtotal entries) tax| :=
      not_lt.mpr (abs_computeTotal_sub_le (subtotal entries) tax)
    exact ⟨_, _, rfl, rfl, by simpa [lenient, PyFloat.apart] using hnear⟩

/-- An estimate of line items with names that are not blank, known types and numbers that are
not negative, with a tax that is a number, settles unless an amount is too large. -/
theorem settles_of_wellFormed {parse : String → Option PyFloat} {estimate : Json}
    {items : List Json} {entries : List Entry} {tax : ℚ}
    (hitems : getKey estimate "line_items" (.arr []) = .ok (.arr items))
    (hentries : List.Forall₂ (WellFormed parse) items entries)
    (htax : floatOf parse estimate "tax" (.num 0) = .ok (.fin tax)) (hfit : FitAmounts entries tax) :
    Settles parse estimate := by
  have hfirst := recompute_wellFormed hitems hentries htax hfit
  have hagain := recompute_wellFormed (recomputed_lineItems hitems)
    (wellFormed_recomputed hentries) (recomputed_tax htax) hfit
  refine ⟨_, _, hfirst, dict_recomputed hentries, validate_recomputed hitems hentries htax hfit, _,
    hagain, ?_, rfl, rfl⟩
  have htotals : (priced (recomputedItems items entries) (entries.map Entry.line)).map
      PricedItem.total = (priced items (entries.map Entry.line)).map PricedItem.total := by
    rw [totals_priced (rated (wellFormed_recomputed hentries)), totals_priced (rated hentries)]
  exact htotals

/-- An hour and a half at 99.99, with a tax that is rounded. -/
def labor : Entry := ⟨3 / 2, 9999 / 100, by norm_num, by norm_num⟩

def lineItemOf (name : String) (quantity rate : ℚ) : Json :=
  .obj [("name", .str name), ("item_type", .str "labor"), ("quantity", .num quantity),
    ("rate", .num rate)]

def estimateOf (item : Json) (tax : ℚ) : Json :=
  .obj [("line_items", .arr [item]), ("tax", .num tax)]

theorem laborEstimate_settles : Settles (fun _ => none)
    (estimateOf (lineItemOf "Repair" (3 / 2) (9999 / 100)) (12375 / 1000)) := by
  have hread : ∀ x : ℚ, |x| < 10 ^ 26 →
      PyFloat.ofJson (fun _ => none) (.num x) = .ok (.fin x) :=
    fun x hx => if_pos (hx.trans ten_pow_lt_limit)
  have hitem : WellFormed (fun _ => none) (lineItemOf "Repair" (3 / 2) (9999 / 100)) labor :=
    ⟨⟨_, rfl, by decide⟩, ⟨"labor", by decide, rfl⟩, hread _ (by norm_num), hread _ (by norm_num)⟩
  have hfit : FitAmounts [labor] (12375 / 1000) := by constructor <;> decide +kernel
  exact settles_of_wellFormed rfl (.cons hitem .nil) (hread _ (by norm_num)) hfit

/-- Neither a name of blanks is accepted, nor can an amount with too many digits be rounded. -/
theorem spacedAndHuge_not_settle :
    ¬Settles (fun _ => none) (estimateOf (lineItemOf " " 1 10) 0) ∧
      ¬Settles (fun _ => none) (estimateOf (lineItemOf "Repair" (10 ^ 13) (10 ^ 13)) 0) := by
  constructor
  · rintro ⟨p, d, hp, hd, hvalid, -⟩
    have hrefused : ((recomputeEstimate (fun _ => none)
        (estimateOf (lineItemOf " " 1 10) 0)).toOption.bind Priced.dict).map
          (validateEstimate fun _ => none) =
        some (.ok [⟨"line_items[0].name", "must be non-empty"⟩]) := by decide +kernel
    rw [hp] at hrefused
    simp only [Except.toOption, Option.bind_some, hd, Option.map_some, hvalid] at hrefused
    cases hrefused
  · rintro ⟨p, d, hp, -⟩
    have hraises : (recomputeEstimate (fun _ => none)
        (estimateOf (lineItemOf "Repair" (10 ^ 13) (10 ^ 13)) 0)).toOption.isSome = false := by
      decide +kernel
    rw [hp] at hraises
    cases hraises

end

end Engine

end WorkTicket.Estimates
