import WorkTicket.Estimates.Pricing

/-! The pricing of the web dashboard, which is to mirror the pricing engine: it rounds on the
digits of a text that is itself rounded to three decimals. A number is an exact decimal. -/

namespace WorkTicket.Estimates.Web

/-! ## Rounding -/

/-- `x.toFixed(3)` of a number that is not negative. -/
def toFixed3 (x : ℚ) : List Char :=
  let n := (round (x * 1000)).toNat
  Nat.toDigits 10 (n / 1000) ++
    ['.', (n / 100 % 10).digitChar, (n / 10 % 10).digitChar, (n % 10).digitChar]

/-- `parseInt(digits, 10)`. -/
def parseInt (digits : List Char) : ℕ := Nat.ofDigitChars 10 digits 0

def roundCurrency (value : ℚ) : ℚ :=
  if value = 0 then 0
  else
    let sign : ℚ := if value < 0 then -1 else 1
    let str := toFixed3 |value|
    let dot := str.idxOf '.'
    let intPart := str.take dot
    let dec := str.drop (dot + 1)
    let firstTwo := dec.take 2
    let third := parseInt (dec.drop 2)
    let cents := parseInt (intPart ++ firstTwo)
    sign * (if 5 ≤ third then cents + 1 else cents : ℕ) / 100

def computeDeterministicTotal (quantity rate : ℚ) : ℚ := roundCurrency (quantity * rate)

def computeSubtotal (totals : List ℚ) : ℚ := roundCurrency totals.sum

def computeTotal (subtotal tax : ℚ) : ℚ := roundCurrency (subtotal + tax)

/-! ## Recomputing -/

/-- A property of the type `number`. -/
def numberOf (j : Json) (key : String) : Option ℚ :=
  match j.item key with
  | some (.num x) => some x
  | _ => none

/-- `{ ...j, [key]: value }`. -/
def withProperty (j : Json) (key : String) (value : Json) : Json :=
  match j with
  | .obj fields => .obj ((key, value) :: fields)
  | _ => j

def recomputeLineItem (item : Json) : Option CanonicalItem := do
  let quantity ← numberOf item "quantity"
  let rate ← numberOf item "rate"
  some ⟨item, computeDeterministicTotal quantity rate⟩

/-- `estimate.line_items || []` -/
def lineItemsOf (estimate : Json) : Option (List Json) :=
  match estimate.item "line_items" with
  | some (.arr items) => some items
  | none | some .null => some []
  | _ => none

/-- `estimate.tax ?? 0` -/
def taxOf (estimate : Json) : Option ℚ :=
  match estimate.item "tax" with
  | some (.num x) => some x
  | none | some .null => some 0
  | _ => none

/-- The tax of the result is the rounded one. -/
def recomputeEstimate (estimate : Json) : Option Canonical := do
  let items ← (← lineItemsOf estimate).mapM recomputeLineItem
  let subtotal := computeSubtotal (items.map CanonicalItem.total)
  let tax := roundCurrency (← taxOf estimate)
  some ⟨withProperty estimate "tax" (.num tax), items, subtotal, computeTotal subtotal tax⟩

/-! ## Validation -/

/-- The characters that `trim` takes away. -/
def isTrimmed (c : Char) : Bool :=
  let n := c.toNat
  (9 ≤ n && n ≤ 13) || n ∈ [0x20, 0xA0, 0xFEFF, 0x1680] || (0x2000 ≤ n && n ≤ 0x200A) ||
    n ∈ [0x2028, 0x2029, 0x202F, 0x205F, 0x3000]

/-- `!name || !String(name).trim()` -/
def isBlank : Json → Bool
  | .null => true
  | .bool b => !b
  | .num x => x = 0
  | .str s => s.toList.all isTrimmed
  -- the text of a list has a comma between two elements, and nothing for `null`
  | .arr [] | .arr [.null] => true
  | .arr [.str s] => s.toList.all isTrimmed
  | .arr [.arr items] => isBlank (.arr items)
  | .arr _ | .obj _ => false

/-- The path of each error; the messages tell the numbers. -/
abbrev ErrorPath := String

def itemPath (idx : ℕ) (key : String) : ErrorPath :=
  "line_items[" ++ toString idx ++ "]." ++ key

/-- A quantity or a rate: it is required, a number and not negative. -/
def checkAmount (idx : ℕ) (key : String) (item : Json) : List ErrorPath :=
  match item.item key with
  | some (.num x) => if x < 0 then [itemPath idx key] else []
  | _ => [itemPath idx key]

def isOff (provided : Option ℚ) (computed : ℚ) : Bool :=
  provided.any fun x => tolerance < |x - computed|

def validateLineItem (item : Json) (idx : ℕ) : List ErrorPath :=
  let computedTotal := computeDeterministicTotal ((numberOf item "quantity").getD 0)
    ((numberOf item "rate").getD 0)
  (if (item.item "name").all isBlank then [itemPath idx "name"] else []) ++
    (if ((item.item "item_type").bind Json.text).any (· ∈ lineItemTypes) then []
      else [itemPath idx "item_type"]) ++
    checkAmount idx "quantity" item ++ checkAmount idx "rate" item ++
    (if isOff (numberOf item "total") computedTotal then [itemPath idx "total"] else [])

/-- A summand of the subtotal. Without a number the sum is `NaN`, which is off from nothing. -/
def summand (item : Json) : Option ℚ :=
  match item.item "total" with
  | some .null => some 0
  | some j => j.number
  | none => none

def validateEstimate (estimate : Json) : List ErrorPath :=
  match estimate.item "line_items" with
  | some (.arr lineItems) =>
    let items := (lineItems.zipIdx.map fun (item, idx) => validateLineItem item idx).flatten
    match lineItems.mapM summand with
    | none => items
    | some totals =>
      let computedSubtotal := computeSubtotal totals
      let computedTotal := computeTotal computedSubtotal ((numberOf estimate "tax").getD 0)
      items ++ (if isOff (numberOf estimate "subtotal") computedSubtotal then ["subtotal"] else []) ++
        (if isOff (numberOf estimate "total") computedTotal then ["total"] else [])
  | _ => ["line_items"]

/-! ## What the rounding comes to -/

theorem toFixed3_parts (x : ℚ) :
    (toFixed3 x).take ((toFixed3 x).idxOf '.') = Nat.toDigits 10 ((round (x * 1000)).toNat / 1000) ∧
    (toFixed3 x).drop ((toFixed3 x).idxOf '.' + 1) =
      [((round (x * 1000)).toNat / 100 % 10).digitChar,
        ((round (x * 1000)).toNat / 10 % 10).digitChar, ((round (x * 1000)).toNat % 10).digitChar] := by
  have hpoint : '.' ∉ Nat.toDigits 10 ((round (x * 1000)).toNat / 1000) := by
    intro hmem
    exact absurd (Nat.isDigit_of_mem_toDigits (by decide) (by decide) hmem) (by decide)
  have hidx : (toFixed3 x).idxOf '.' =
      (Nat.toDigits 10 ((round (x * 1000)).toNat / 1000)).length := by
    rw [toFixed3, List.idxOf_append_of_notMem hpoint, List.idxOf_cons_self, Nat.add_zero]
  rw [hidx]
  constructor
  · exact List.take_left
  · rw [← List.drop_drop, toFixed3, List.drop_left]
    rfl

theorem parseInt_append (digits : List Char) {d : ℕ} (hd : d < 10) :
    parseInt (digits ++ [d.digitChar]) = 10 * parseInt digits + d := by
  rw [parseInt, Nat.ofDigitChars_append, Nat.ofDigitChars_cons_digitChar_of_lt_ten hd,
    Nat.ofDigitChars_nil]
  rfl

/-- The digits are those of the thousandths, and the half up of these are cents. -/
theorem roundCurrency_pos {x : ℚ} (hx : 0 < x) :
    roundCurrency x = (⌊x * 100 + 11 / 20⌋ : ℤ) / 100 := by
  obtain ⟨htake, hdrop⟩ := toFixed3_parts x
  set n := (round (x * 1000)).toNat
  set decimals := [(n / 100 % 10).digitChar, (n / 10 % 10).digitChar, (n % 10).digitChar]
  have hthird : parseInt (decimals.drop 2) = n % 10 := by
    change parseInt ([] ++ [(n % 10).digitChar]) = n % 10
    rw [parseInt_append _ (Nat.mod_lt _ (by decide))]
    exact Nat.zero_add _
  have hcents : parseInt (Nat.toDigits 10 (n / 1000) ++ decimals.take 2) = n / 10 := by
    change parseInt (_ ++ ([(n / 100 % 10).digitChar] ++ [(n / 10 % 10).digitChar])) = n / 10
    rw [← List.append_assoc, parseInt_append _ (Nat.mod_lt _ (by decide)),
      parseInt_append _ (Nat.mod_lt _ (by decide)), parseInt, Nat.ofDigitChars_ten_toDigits]
    omega
  have hround : ((if 5 ≤ n % 10 then n / 10 + 1 else n / 10 : ℕ) : ℤ) = ⌊x * 100 + 11 / 20⌋ := by
    have hn : (n : ℤ) = ⌊x * 1000 + 1 / 2⌋ := by
      rw [← round_eq]
      exact Int.toNat_of_nonneg (by rw [round_eq]; exact Int.floor_nonneg.mpr (by linarith))
    have hle : (n : ℚ) ≤ x * 1000 + 1 / 2 := by exact_mod_cast hn ▸ Int.floor_le (x * 1000 + 1 / 2)
    have hlt : x * 1000 + 1 / 2 < n + 1 := by
      exact_mod_cast hn ▸ Int.lt_floor_add_one (x * 1000 + 1 / 2)
    set m := if 5 ≤ n % 10 then n / 10 + 1 else n / 10
    have hm : 10 * m ≤ n + 5 ∧ n + 5 ≤ 10 * m + 9 := by
      simp only [m]
      split <;> omega
    have hmle : (10 * m : ℚ) ≤ n + 5 := by exact_mod_cast hm.1
    have hmlt : (n + 5 : ℚ) ≤ 10 * m + 9 := by exact_mod_cast hm.2
    symm
    rw [Int.floor_eq_iff, Int.cast_natCast]
    constructor <;> linarith
  simp only [roundCurrency, if_neg hx.ne', if_neg hx.le.not_gt, abs_of_pos hx]
  rw [htake, hdrop, hthird, hcents, one_mul, ← hround, Int.cast_natCast]

theorem roundCurrency_nonneg {x : ℚ} (hx : 0 ≤ x) :
    roundCurrency x = (⌊x * 100 + 11 / 20⌋ : ℤ) / 100 := by
  obtain rfl | hpos := hx.eq_or_lt
  · have hzero : ⌊(0 : ℚ) * 100 + 11 / 20⌋ = 0 := by
      rw [Int.floor_eq_iff]
      norm_num
    rw [hzero]
    simp [roundCurrency]
  · exact roundCurrency_pos hpos

theorem roundCurrency_neg (x : ℚ) : roundCurrency (-x) = -roundCurrency x := by
  obtain h | rfl | h := lt_trichotomy x 0
  · simp only [roundCurrency, neg_eq_zero, if_neg h.ne, if_pos h, abs_neg,
      if_neg (neg_pos.mpr h).le.not_gt]
    ring
  · simp [roundCurrency]
  · simp only [roundCurrency, neg_eq_zero, if_neg h.ne', if_neg h.le.not_gt, abs_neg,
      if_pos (neg_neg_iff_pos.mpr h)]
    ring

/-- What holds of the rounding of a number holds of it up to the sign. -/
@[elab_as_elim]
theorem of_abs {P : ℚ → Prop} (x : ℚ) (hneg : ∀ x, P (-x) ↔ P x) (h : ∀ x, 0 ≤ x → P x) : P x := by
  obtain hx | hx := le_total 0 x
  · exact h x hx
  · exact (hneg x).mp (h (-x) (neg_nonneg.mpr hx))

/-- Beyond the second decimal there are at least 0.0045, but not 0.005: the third decimal is
rounded to a 5, which is rounded again. -/
def RoundsTwice (x : ℚ) : Prop :=
  9 / 20 ≤ Int.fract (|x| * 100) ∧ Int.fract (|x| * 100) < 1 / 2

theorem roundCurrency_eq_iff (x : ℚ) :
    roundCurrency x = Estimates.roundCurrency x ↔ ¬RoundsTwice x := by
  refine of_abs x (fun x => ?_) fun x hx => ?_
  · rw [roundCurrency_neg, Estimates.roundCurrency_neg, neg_inj, RoundsTwice, RoundsTwice, abs_neg]
  · rw [roundCurrency_nonneg hx, Estimates.roundCurrency_nonneg hx, round_eq, RoundsTwice,
      abs_of_nonneg hx, div_left_inj' (by norm_num), Int.cast_inj]
    have hsplit := Int.floor_add_fract (x * 100)
    have hlt := Int.fract_lt_one (x * 100)
    have hnonneg := Int.fract_nonneg (x * 100)
    set k := ⌊x * 100⌋
    set r := Int.fract (x * 100)
    have hhalf : ⌊x * 100 + 1 / 2⌋ = if r < 1 / 2 then k else k + 1 := by
      rw [Int.floor_eq_iff]
      split <;> (push_cast; constructor <;> linarith)
    have hweb : ⌊x * 100 + 11 / 20⌋ = if r < 9 / 20 then k else k + 1 := by
      rw [Int.floor_eq_iff]
      split <;> (push_cast; constructor <;> linarith)
    rw [hhalf, hweb]
    split_ifs with hr hr' hr'
    · simp only [true_iff]
      exact fun h => absurd h.1 (not_le.mpr hr)
    · exact absurd (hr.trans (by norm_num)) hr'
    · simp only [add_eq_left, one_ne_zero, false_iff, not_not]
      exact ⟨not_lt.mp hr, hr'⟩
    · simp only [true_iff]
      exact fun h => hr' h.2

theorem abs_roundCurrency_sub_le (x : ℚ) : |roundCurrency x - x| ≤ 11 / 2000 := by
  refine of_abs x (fun x => ?_) fun x hx => ?_
  · rw [roundCurrency_neg, ← neg_sub', abs_neg]
  · rw [roundCurrency_nonneg hx, abs_le]
    have hle := Int.floor_le (x * 100 + 11 / 20)
    have hlt := Int.lt_floor_add_one (x * 100 + 11 / 20)
    constructor <;> linarith

theorem tolerance_nonneg : 0 ≤ tolerance := by norm_num [tolerance]

/-- The two sides differ by less than the tolerance, whatever they round. -/
theorem abs_roundings_sub_le {x y : ℚ} (h : |x - y| ≤ 11 / 2000) :
    |roundCurrency x - Estimates.roundCurrency y| ≤ tolerance := by
  have hx := abs_roundCurrency_sub_le x
  have hy := Estimates.abs_roundCurrency_sub_le y
  rw [abs_le] at h hx hy ⊢
  unfold tolerance
  constructor <;> linarith [h.1, h.2, hx.1, hx.2, hy.1, hy.2]

theorem roundCurrency_cents (n : ℤ) : roundCurrency (n / 100) = n / 100 := by
  rw [(roundCurrency_eq_iff _).mpr, Estimates.roundCurrency_cents]
  have habs : |(n / 100 : ℚ)| * 100 = (|n| : ℤ) := by
    rw [abs_div, Int.cast_abs]
    norm_num
  rw [RoundsTwice, habs, Int.fract_intCast]
  norm_num

theorem exists_cents (x : ℚ) : ∃ n : ℤ, roundCurrency x = n / 100 := by
  refine of_abs x (fun x => ?_) fun x hx => ⟨_, roundCurrency_nonneg hx⟩
  rw [roundCurrency_neg]
  constructor
  · rintro ⟨n, hn⟩
    exact ⟨-n, by push_cast; linarith⟩
  · rintro ⟨n, hn⟩
    exact ⟨-n, by push_cast; linarith⟩

/-! ## The same estimate on both sides -/

structure LineItem where
  name : String
  itemType : String
  quantity : ℚ
  rate : ℚ
  quantity_nonneg : 0 ≤ quantity
  rate_nonneg : 0 ≤ rate

def LineItem.json (i : LineItem) : Json :=
  .obj [("name", .str i.name), ("item_type", .str i.itemType), ("quantity", .num i.quantity),
    ("rate", .num i.rate)]

def estimateOf (items : List LineItem) (tax : ℚ) : Json :=
  .obj [("line_items", .arr (items.map LineItem.json)), ("tax", .num tax)]

/-- A recomputed line item as it is sent. -/
def jsonOfItem (c : CanonicalItem) : Json := withProperty c.item "total" (.num c.total)

/-- A recomputed estimate as it is sent. -/
def jsonOf (c : Canonical) : Json :=
  withProperty (withProperty (withProperty c.estimate "line_items"
    (.arr (c.lineItems.map jsonOfItem))) "subtotal" (.num c.subtotal)) "total" (.num c.total)

/-- Both sides recompute the same amounts, and each accepts what the other has recomputed. -/
def PriceAlike (parse : String → Option ℚ) (estimate : Json) : Prop :=
  ∃ b w, Estimates.recomputeEstimate parse estimate = some b ∧
    recomputeEstimate estimate = some w ∧
    w.lineItems.map CanonicalItem.total = b.lineItems.map CanonicalItem.total ∧
    w.subtotal = b.subtotal ∧ w.total = b.total ∧
    validateEstimate (jsonOf b) = [] ∧ Estimates.validateEstimate parse w = some []

/-- The name is not blank for either side, and the type is known. -/
def LineItem.WellFormed (i : LineItem) : Prop :=
  isBlank (.str i.name) = false ∧ Estimates.isBlank (.str i.name) = false ∧
    i.itemType ∈ lineItemTypes

section
variable {parse : String → Option ℚ} {items : List LineItem} {tax : ℚ}

def LineItem.backend (i : LineItem) : CanonicalItem :=
  ⟨i.json, computeLineItemTotal i.quantity i.rate⟩

def LineItem.web (i : LineItem) : CanonicalItem :=
  ⟨i.json, computeDeterministicTotal i.quantity i.rate⟩

def backendSubtotal (items : List LineItem) : ℚ :=
  Estimates.computeSubtotal (items.map fun i => i.backend.total)

def webSubtotal (items : List LineItem) : ℚ := computeSubtotal (items.map fun i => i.web.total)

theorem recomputeLineItem_backend (i : LineItem) :
    Estimates.recomputeLineItem parse i.json = some i.backend := by
  simp [Estimates.recomputeLineItem, LineItem.json, LineItem.backend, Json.get, List.lookup,
    toFloat, Json.number]

theorem recomputeLineItem_web (i : LineItem) : recomputeLineItem i.json = some i.web := by
  simp [recomputeLineItem, LineItem.json, LineItem.web, numberOf, Json.item, List.lookup]

theorem mapM_json {f : Json → Option CanonicalItem} {g : LineItem → CanonicalItem}
    (h : ∀ i : LineItem, f i.json = some (g i)) (items : List LineItem) :
    (items.map LineItem.json).mapM f = some (items.map g) := by
  induction items with
  | nil => rfl
  | cons i items ih => simp [List.mapM_cons, h, ih]

theorem recomputeEstimate_backend : Estimates.recomputeEstimate parse (estimateOf items tax) =
    some ⟨estimateOf items tax, items.map LineItem.backend, backendSubtotal items,
      Estimates.computeTotal (backendSubtotal items) (Estimates.roundCurrency tax)⟩ := by
  have hitems : (items.map LineItem.json).mapM (Estimates.recomputeLineItem parse) =
      some (items.map LineItem.backend) := mapM_json recomputeLineItem_backend items
  simp [Estimates.recomputeEstimate, estimateOf, Json.get, List.lookup, Json.elements, hitems,
    Estimates.taxOf, toFloat, Json.number, backendSubtotal, Function.comp_def]

theorem recomputeEstimate_web : recomputeEstimate (estimateOf items tax) =
    some ⟨withProperty (estimateOf items tax) "tax" (.num (roundCurrency tax)),
      items.map LineItem.web, webSubtotal items,
      computeTotal (webSubtotal items) (roundCurrency tax)⟩ := by
  have hitems := mapM_json recomputeLineItem_web items
  simp [recomputeEstimate, estimateOf, lineItemsOf, Json.item, List.lookup, hitems, taxOf,
    webSubtotal, Function.comp_def]

theorem flatten_zipIdx_eq_nil {α β γ : Type} {f : α → ℕ → List β} {g : γ → α} {P : γ → Prop}
    (h : ∀ c idx, f (g c) idx = [] ↔ P c) (l : List γ) (start : ℕ) :
    (((l.map g).zipIdx start).map fun (a, idx) => f a idx).flatten = [] ↔ ∀ c ∈ l, P c := by
  induction l generalizing start with
  | nil => simp
  | cons c l ih =>
    rw [List.map_cons, List.zipIdx_cons, List.map_cons, List.flatten_cons, List.append_eq_nil_iff,
      h, ih, List.forall_mem_cons]

/-- The dashboard has only the name and the type of the backend's line item to refuse. -/
theorem validateLineItem_backend (i : LineItem) (idx : ℕ) :
    validateLineItem (jsonOfItem i.backend) idx = [] ↔
      isBlank (.str i.name) = false ∧ i.itemType ∈ lineItemTypes := by
  have htotal : ¬tolerance < |computeLineItemTotal i.quantity i.rate -
      computeDeterministicTotal i.quantity i.rate| := by
    rw [abs_sub_comm]
    exact not_lt.mpr (abs_roundings_sub_le (by norm_num))
  have hquantity := i.quantity_nonneg.not_gt
  have hrate := i.rate_nonneg.not_gt
  simp [validateLineItem, jsonOfItem, LineItem.backend, LineItem.json, withProperty, Json.item,
    List.lookup, numberOf, checkAmount, isOff, Json.text, htotal, hquantity, hrate]

theorem validateLineItem_web (i : LineItem) (idx : ℕ) :
    Estimates.validateLineItem parse idx i.web = some [] ↔
      Estimates.isBlank (.str i.name) = false ∧ i.itemType ∈ lineItemTypes := by
  have htotal : ¬tolerance < |i.web.total - i.backend.total| :=
    not_lt.mpr (abs_roundings_sub_le (by norm_num))
  have hquantity := i.quantity_nonneg.not_gt
  have hrate := i.rate_nonneg.not_gt
  have hitem : i.web.item = i.json := rfl
  rw [Estimates.validateLineItem, hitem, recomputeLineItem_backend]
  simp [LineItem.json, Json.get, List.lookup, Estimates.checkAmount, toFloat, Json.number,
    Json.text, htotal, hquantity, hrate]

theorem validateLineItems_web (items : List LineItem) (idx : ℕ) :
    validateLineItems parse idx (items.map LineItem.web) = some [] ↔
      ∀ i ∈ items, Estimates.isBlank (.str i.name) = false ∧ i.itemType ∈ lineItemTypes := by
  induction items generalizing idx with
  | nil => simp [validateLineItems]
  | cons i items ih =>
    rw [List.forall_mem_cons, ← ih (idx + 1), ← @validateLineItem_web parse i idx]
    simp only [List.map_cons, validateLineItems, Option.bind_eq_bind, Option.bind_eq_some_iff,
      Option.some.injEq, List.append_eq_nil_iff]
    constructor
    · rintro ⟨errors, herrors, rest, hrest, rfl, rfl⟩
      exact ⟨herrors, hrest⟩
    · rintro ⟨herrors, hrest⟩
      exact ⟨[], herrors, [], hrest, rfl, rfl⟩

/-- A sum of whole cents is rounded alike, by not being rounded. -/
theorem computeSubtotal_eq {totals : List ℚ} (h : ∀ x ∈ totals, ∃ n : ℤ, x = n / 100) :
    computeSubtotal totals = Estimates.computeSubtotal totals := by
  have hsum : ∃ n : ℤ, totals.sum = n / 100 := by
    induction totals with
    | nil => exact ⟨0, by simp⟩
    | cons x totals ih =>
      obtain ⟨hx, htotals⟩ := List.forall_mem_cons.mp h
      obtain ⟨n, rfl⟩ := hx
      obtain ⟨m, hm⟩ := ih htotals
      exact ⟨n + m, by rw [List.sum_cons, hm]; push_cast; ring⟩
  obtain ⟨n, hn⟩ := hsum
  rw [computeSubtotal, Estimates.computeSubtotal, hn, roundCurrency_cents,
    Estimates.roundCurrency_cents]

theorem computeSubtotal_backend :
    computeSubtotal (items.map fun i => i.backend.total) = backendSubtotal items := by
  refine computeSubtotal_eq fun x hx => ?_
  obtain ⟨i, -, rfl⟩ := List.mem_map.mp hx
  exact Estimates.exists_cents _

theorem computeSubtotal_web :
    Estimates.computeSubtotal (items.map fun i => i.web.total) = webSubtotal items := by
  refine (computeSubtotal_eq fun x hx => ?_).symm
  obtain ⟨i, -, rfl⟩ := List.mem_map.mp hx
  exact exists_cents _

theorem validateEstimate_backend {b : Canonical}
    (hb : Estimates.recomputeEstimate parse (estimateOf items tax) = some b) :
    validateEstimate (jsonOf b) = [] ↔
      ∀ i ∈ items, isBlank (.str i.name) = false ∧ i.itemType ∈ lineItemTypes := by
  rw [recomputeEstimate_backend, Option.some.injEq] at hb
  subst hb
  have hsummands : ((items.map LineItem.backend).map jsonOfItem).mapM summand =
      some (items.map fun i => i.backend.total) := by
    induction items with
    | nil => rfl
    | cons i items ih =>
      simp only [List.map_cons, List.mapM_cons, ih]
      rfl
  have htotal : ¬tolerance < |Estimates.computeTotal (backendSubtotal items)
      (Estimates.roundCurrency tax) - computeTotal (backendSubtotal items) tax| := by
    have htax := Estimates.abs_roundCurrency_sub_le tax
    rw [abs_sub_comm] at htax ⊢
    refine not_lt.mpr (abs_roundings_sub_le ?_)
    rw [add_sub_add_left_eq_sub]
    exact htax.trans (by norm_num)
  have hlines := flatten_zipIdx_eq_nil (g := fun i : LineItem => jsonOfItem i.backend)
    validateLineItem_backend items 0
  have hitems : (items.map LineItem.backend).map jsonOfItem =
      items.map fun i => jsonOfItem i.backend := List.map_map
  rw [hitems] at hsummands
  rw [← hlines, jsonOf, hitems]
  simp [validateEstimate, withProperty, estimateOf, Json.item, List.lookup, hsummands,
    computeSubtotal_backend, numberOf, isOff, tolerance_nonneg, htotal]

theorem validateEstimate_web {w : Canonical} (hw : recomputeEstimate (estimateOf items tax) = some w) :
    Estimates.validateEstimate parse w = some [] ↔
      ∀ i ∈ items, Estimates.isBlank (.str i.name) = false ∧ i.itemType ∈ lineItemTypes := by
  rw [recomputeEstimate_web, Option.some.injEq] at hw
  subst hw
  have htax : Estimates.taxOf parse (withProperty (estimateOf items tax) "tax"
      (.num (roundCurrency tax))) = some (roundCurrency tax) := by
    simp [Estimates.taxOf, withProperty, estimateOf, Json.get, List.lookup, toFloat, Json.number]
  have hsubtotal : ¬tolerance < |webSubtotal items - webSubtotal items| := by
    rw [sub_self, abs_zero]
    exact tolerance_nonneg.not_gt
  have htotal : ¬tolerance < |computeTotal (webSubtotal items) (roundCurrency tax) -
      Estimates.computeTotal (webSubtotal items) (roundCurrency tax)| :=
    not_lt.mpr (abs_roundings_sub_le (by norm_num))
  have htotals : (items.map LineItem.web).map CanonicalItem.total =
      items.map fun i => i.web.total := List.map_map
  rw [← @validateLineItems_web parse items 0]
  simp only [Estimates.validateEstimate, htotals, computeSubtotal_web, htax, Option.bind_eq_bind,
    Option.bind_some, if_neg hsubtotal, if_neg htotal, List.append_nil]
  cases validateLineItems parse 0 (items.map LineItem.web) <;> rfl

/-- The totals agree as soon as the line totals and the taxes do. -/
theorem computeTotal_eq_iff {subtotal : ℚ} (h : ∃ n : ℤ, subtotal = n / 100) :
    computeTotal subtotal (roundCurrency tax) =
      Estimates.computeTotal subtotal (Estimates.roundCurrency tax) ↔ ¬RoundsTwice tax := by
  obtain ⟨s, rfl⟩ := h
  obtain ⟨n, hn⟩ := exists_cents tax
  obtain ⟨m, hm⟩ := Estimates.exists_cents tax
  rw [← roundCurrency_eq_iff, computeTotal, Estimates.computeTotal, hn, hm, ← add_div, ← add_div,
    ← Int.cast_add, ← Int.cast_add, roundCurrency_cents, Estimates.roundCurrency_cents]
  rw [div_left_inj' (by norm_num), div_left_inj' (by norm_num), Int.cast_inj, Int.cast_inj,
    add_right_inj]

/-- Front end and back end price an estimate alike exactly if it is well formed and no number
that they round has a part beyond the second decimal that is rounded twice. -/
theorem priceAlike_iff (parse : String → Option ℚ) (items : List LineItem) (tax : ℚ) :
    PriceAlike parse (estimateOf items tax) ↔
      (∀ i ∈ items, i.WellFormed ∧ ¬RoundsTwice (i.quantity * i.rate)) ∧ ¬RoundsTwice tax := by
  have hlines : (items.map LineItem.web).map CanonicalItem.total =
      (items.map LineItem.backend).map CanonicalItem.total ↔
        ∀ i ∈ items, ¬RoundsTwice (i.quantity * i.rate) := by
    rw [List.map_map, List.map_map, List.map_inj_left]
    exact forall₂_congr fun i _ => roundCurrency_eq_iff _
  have hsubtotals : (∀ i ∈ items, ¬RoundsTwice (i.quantity * i.rate)) →
      webSubtotal items = backendSubtotal items := by
    intro h
    rw [← computeSubtotal_backend, webSubtotal]
    exact congrArg computeSubtotal
      (List.map_congr_left fun i hi => (roundCurrency_eq_iff _).mpr (h i hi))
  constructor
  · rintro ⟨b, w, hb, hw, htotals, -, htotal, haccepted, haccepts⟩
    have hweb := (validateEstimate_backend hb).mp haccepted
    have hbackend := (validateEstimate_web hw).mp haccepts
    rw [recomputeEstimate_backend, Option.some.injEq] at hb
    rw [recomputeEstimate_web, Option.some.injEq] at hw
    subst hb hw
    have hlines := hlines.mp htotals
    refine ⟨fun i hi => ⟨⟨(hweb i hi).1, hbackend i hi⟩, hlines i hi⟩, ?_⟩
    rw [hsubtotals hlines] at htotal
    exact (computeTotal_eq_iff (Estimates.exists_cents _)).mp htotal
  · rintro ⟨hitems, htax⟩
    have hrounds : ∀ i ∈ items, ¬RoundsTwice (i.quantity * i.rate) := fun i hi => (hitems i hi).2
    have hsubtotal := hsubtotals hrounds
    refine ⟨_, _, recomputeEstimate_backend, recomputeEstimate_web, hlines.mpr hrounds, hsubtotal,
      ?_, ?_, ?_⟩
    · show computeTotal (webSubtotal items) _ = Estimates.computeTotal (backendSubtotal items) _
      rw [hsubtotal]
      exact (computeTotal_eq_iff (Estimates.exists_cents _)).mpr htax
    · refine (validateEstimate_backend (@recomputeEstimate_backend parse items tax)).mpr fun i hi => ?_
      exact ⟨(hitems i hi).1.1, (hitems i hi).1.2.2⟩
    · exact (validateEstimate_web recomputeEstimate_web).mpr fun i hi => (hitems i hi).1.2

/-- One part at a rate of 1.0149: the dashboard says 1.02, the backend 1.01. -/
def gasket : LineItem := ⟨"Gasket", "materials", 1, 10149 / 10000, by norm_num, by norm_num⟩

theorem gasket_not_alike : ¬PriceAlike (fun _ => none) (estimateOf [gasket] 0) := by
  rintro ⟨b, w, hb, hw, htotals, -⟩
  rw [recomputeEstimate_backend, Option.some.injEq] at hb
  rw [recomputeEstimate_web, Option.some.injEq] at hw
  subst hb hw
  have hround := (roundCurrency_eq_iff (1 * (10149 / 10000))).mp (List.cons.inj htotals).1
  refine hround ⟨?_, ?_⟩ <;>
  · rw [abs_of_nonneg (by norm_num)]
    norm_num [Int.fract]

end

end WorkTicket.Estimates.Web
