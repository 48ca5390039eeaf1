import WorkTicket.Foundation.Json

/-! The pricing engine: currency rounding, the totals of an estimate recomputed from its
line items, and the validation of an estimate. A float is the decimal that it prints as. -/

namespace WorkTicket.Estimates

/-! ## Rounding -/

/-- Two decimal places, `ROUND_HALF_UP`: a tie goes away from zero. -/
def roundCurrency (x : ℚ) : ℚ :=
  if 0 ≤ x then (round (x * 100) : ℤ) / 100 else -((round (-x * 100) : ℤ) / 100)

theorem roundCurrency_nonneg {x : ℚ} (h : 0 ≤ x) :
    roundCurrency x = (round (x * 100) : ℤ) / 100 := if_pos h

theorem roundCurrency_neg (x : ℚ) : roundCurrency (-x) = -roundCurrency x := by
  obtain h | rfl | h := lt_trichotomy x 0
  · rw [roundCurrency, roundCurrency, if_pos (by linarith), if_neg (not_le.mpr h), neg_neg]
  · simp [roundCurrency]
  · rw [roundCurrency, roundCurrency, if_neg (by linarith), if_pos h.le, neg_neg]

theorem roundCurrency_cents (n : ℤ) : roundCurrency (n / 100) = n / 100 := by
  have hcancel : (n / 100 : ℚ) * 100 = n := by ring
  have hcancel' : -(n / 100 : ℚ) * 100 = ((-n : ℤ) : ℚ) := by
    push_cast
    ring
  unfold roundCurrency
  split
  · rw [hcancel, round_intCast]
  · rw [hcancel', round_intCast]
    push_cast
    ring

theorem exists_cents (x : ℚ) : ∃ n : ℤ, roundCurrency x = n / 100 := by
  unfold roundCurrency
  split
  · exact ⟨_, rfl⟩
  · refine ⟨-round (-x * 100), ?_⟩
    push_cast
    ring

@[simp] theorem roundCurrency_idem (x : ℚ) : roundCurrency (roundCurrency x) = roundCurrency x := by
  obtain ⟨n, hn⟩ := exists_cents x
  rw [hn, roundCurrency_cents]

@[simp] theorem roundCurrency_zero : roundCurrency 0 = 0 := by
  simpa using roundCurrency_cents 0

theorem abs_roundCurrency_sub_le (x : ℚ) : |roundCurrency x - x| ≤ 1 / 200 := by
  have key : ∀ y : ℚ, 0 ≤ y → |roundCurrency y - y| ≤ 1 / 200 := by
    intro y hy
    have hround := abs_sub_round (y * 100)
    have hscale : roundCurrency y - y = -(y * 100 - (round (y * 100) : ℤ)) / 100 := by
      rw [roundCurrency_nonneg hy]
      ring
    rw [hscale, abs_div, abs_neg]
    norm_num
    linarith
  obtain h | h := le_total 0 x
  · exact key x h
  · have hneg := key (-x) (neg_nonneg.mpr h)
    rw [roundCurrency_neg, ← neg_sub', abs_neg] at hneg
    exact hneg

/-! ## Totals -/

def lineItemTypes : List String := ["labor", "materials", "fee"]

def computeLineItemTotal (quantity rate : ℚ) : ℚ := roundCurrency (quantity * rate)

def computeSubtotal (totals : List ℚ) : ℚ := roundCurrency totals.sum

def computeTotal (subtotal tax : ℚ) : ℚ := roundCurrency (subtotal + tax)

section
variable (parse : String → Option ℚ)

/-- `float(j)`, where `parse` is the float of a text. -/
def toFloat (j : Json) : Option ℚ := j.number <|> j.text.bind parse

/-- A line item of the AI with its canonical total. -/
structure CanonicalItem where
  item : Json
  total : ℚ

/-- The estimate of the AI with its canonical numbers; `estimate` has the other keys. -/
structure Canonical where
  estimate : Json
  lineItems : List CanonicalItem
  subtotal : ℚ
  total : ℚ

def recomputeLineItem (item : Json) : Option CanonicalItem := do
  let quantity ← (item.get "quantity" (.num 0)).bind (toFloat parse)
  let rate ← (item.get "rate" (.num 0)).bind (toFloat parse)
  some ⟨item, computeLineItemTotal quantity rate⟩

def taxOf (estimate : Json) : Option ℚ := (estimate.get "tax" (.num 0)).bind (toFloat parse)

def recomputeEstimate (estimate : Json) : Option Canonical := do
  let items ← (estimate.get "line_items" (.arr [])).bind Json.elements
  let items ← items.mapM (recomputeLineItem parse)
  let subtotal := computeSubtotal (items.map CanonicalItem.total)
  let tax ← taxOf parse estimate
  some ⟨estimate, items, subtotal, computeTotal subtotal (roundCurrency tax)⟩

/-! ## Validation -/

inductive ValidationError
  | name (idx : ℕ)
  | itemType (idx : ℕ)
  | quantityRequired (idx : ℕ)
  | quantityNegative (idx : ℕ)
  | rateRequired (idx : ℕ)
  | rateNegative (idx : ℕ)
  | itemTotal (idx : ℕ)
  | subtotal
  | total
  deriving DecidableEq, Repr

/-- The characters that `str.strip` takes away. -/
def isSpace (c : Char) : Bool :=
  let n := c.toNat
  (9 ≤ n && n ≤ 13) || (28 ≤ n && n ≤ 32) || n ∈ [0x85, 0xA0, 0x1680] ||
    (0x2000 ≤ n && n ≤ 0x200A) || n ∈ [0x2028, 0x2029, 0x202F, 0x205F, 0x3000]

/-- `not name or not str(name).strip()`; the text of a value that is no string has no blanks. -/
def isBlank (name : Json) : Bool :=
  match name with
  | .str s => s.toList.all isSpace
  | j => !j.truthy

def tolerance : ℚ := 2 / 100

def checkAmount (key : String) (required negative : ValidationError) (item : Json) :
    Option (List ValidationError) := do
  match ← item.get key .null with
  | .null => some [required]
  | amount => do
    let x ← toFloat parse amount
    some (if x < 0 then [negative] else [])

def validateLineItem (idx : ℕ) (c : CanonicalItem) : Option (List ValidationError) := do
  let name ← c.item.get "name" .null
  let itemType ← c.item.get "item_type" .null
  let quantity ← checkAmount parse "quantity" (.quantityRequired idx) (.quantityNegative idx) c.item
  let rate ← checkAmount parse "rate" (.rateRequired idx) (.rateNegative idx) c.item
  let computed ← recomputeLineItem parse c.item
  some ((if isBlank name then [.name idx] else []) ++
    (if itemType.text.any (· ∈ lineItemTypes) then [] else [.itemType idx]) ++ quantity ++ rate ++
    (if tolerance < |c.total - computed.total| then [.itemTotal idx] else []))

def validateLineItems : ℕ → List CanonicalItem → Option (List ValidationError)
  | _, [] => some []
  | idx, c :: cs => do
    let errors ← validateLineItem parse idx c
    let rest ← validateLineItems (idx + 1) cs
    some (errors ++ rest)

def validateEstimate (c : Canonical) : Option (List ValidationError) := do
  let items ← validateLineItems parse 0 c.lineItems
  let computedSubtotal := computeSubtotal (c.lineItems.map CanonicalItem.total)
  let tax ← taxOf parse c.estimate
  let computedTotal := computeTotal computedSubtotal tax
  some (items ++ (if tolerance < |c.subtotal - computedSubtotal| then [.subtotal] else []) ++
    (if tolerance < |c.total - computedTotal| then [.total] else []))

variable {parse}

theorem abs_computeTotal_sub_le (subtotal tax : ℚ) :
    |computeTotal subtotal (roundCurrency tax) - computeTotal subtotal tax| ≤ tolerance := by
  have h := abs_roundCurrency_sub_le tax
  have hleft := abs_roundCurrency_sub_le (subtotal + roundCurrency tax)
  have hright := abs_roundCurrency_sub_le (subtotal + tax)
  rw [abs_le] at h hleft hright ⊢
  unfold computeTotal tolerance
  constructor <;> linarith [h.1, h.2, hleft.1, hleft.2, hright.1, hright.2]

/-- The numbers of a recomputed estimate pass, so only its line items can be refused. -/
theorem validateEstimate_recompute {estimate : Json} {c : Canonical}
    (h : recomputeEstimate parse estimate = some c) :
    validateEstimate parse c = validateLineItems parse 0 c.lineItems := by
  simp only [recomputeEstimate, Option.bind_eq_bind, Option.bind_eq_some_iff, Option.some.injEq]
    at h
  obtain ⟨-, -, items, -, tax, htax, rfl⟩ := h
  have hsubtotal : ¬ tolerance < |computeSubtotal (items.map CanonicalItem.total) -
      computeSubtotal (items.map CanonicalItem.total)| := by
    rw [sub_self, abs_zero]
    exact not_lt.mpr (by norm_num [tolerance])
  have htotal := not_lt.mpr
    (abs_computeTotal_sub_le (computeSubtotal (items.map CanonicalItem.total)) tax)
  simp only [validateEstimate, htax, Option.bind_eq_bind, Option.bind_some, if_neg hsubtotal,
    if_neg htotal, List.append_nil]
  cases validateLineItems parse 0 items <;> rfl

end

end WorkTicket.Estimates
