import WorkTicket.Estimates.WebPricing
import WorkTicket.Foundation.PythonFloats

/-! The pricing engine on whatever JSON the AI sends: each conversion may raise, some are in
a `try`, and `float` reads texts such as `nan`. Amounts are exact decimals. -/

namespace WorkTicket.Estimates.Engine

open Fallible PyFloat

/-! ## Totals -/

/-- Two decimal places must fit into the 28 digits of the decimal context. -/
def Fits (x : ℚ) : Prop := |Estimates.roundCurrency x| < 10 ^ 26

instance : DecidablePred Fits := fun _ => inferInstanceAs (Decidable (_ < _))

def roundCurrency : PyFloat → Except PyError PyFloat
  | .fin x => if Fits x then .ok (.fin (Estimates.roundCurrency x)) else .error .arithmeticError
  | .inf _ => .error .arithmeticError
  | .nan => .ok .nan

def computeLineItemTotal (quantity rate : PyFloat) : Except PyError PyFloat :=
  quantity.times rate >>= roundCurrency

def computeSubtotal (totals : List PyFloat) : Except PyError PyFloat := roundCurrency (sum totals)

def computeTotal (subtotal tax : PyFloat) : Except PyError PyFloat :=
  roundCurrency (subtotal.add tax)

section
variable (parse : String → Option PyFloat)

/-- `j.get(key, default)` -/
def getKey (j : Json) (key : String) (default : Json) : Except PyError Json :=
  match j.get key default with
  | some value => .ok value
  | none => .error .attributeError

/-- `float(j.get(key, default))` -/
def floatOf (j : Json) (key : String) (default : Json) : Except PyError PyFloat :=
  getKey j key default >>= ofJson parse

/-! ## Recomputing -/

/-- A line item with its canonical total. -/
structure PricedItem where
  item : Json
  total : PyFloat

/-- An estimate with its canonical amounts; `estimate` has the other keys. -/
structure Priced where
  estimate : Json
  lineItems : List PricedItem
  subtotal : PyFloat
  total : PyFloat

def recomputeLineItem (item : Json) : Except PyError PricedItem := do
  let qty ← floatOf parse item "quantity" (.num 0)
  let rate ← floatOf parse item "rate" (.num 0)
  let computed ← computeLineItemTotal qty rate
  .ok ⟨item, computed⟩

/-- What `for` runs through, or a `TypeError`. -/
def elements (j : Json) : Except PyError (List Json) :=
  match j.elements with
  | some items => .ok items
  | none => .error .typeError

def recomputeEstimate (estimate : Json) : Except PyError Priced := do
  let items ← (← elements (← getKey estimate "line_items" (.arr []))).mapM (recomputeLineItem parse)
  let subtotal ← computeSubtotal (items.map PricedItem.total)
  let tax ← roundCurrency (← floatOf parse estimate "tax" (.num 0))
  let total ← computeTotal subtotal tax
  .ok ⟨estimate, items, subtotal, total⟩

/-- JSON has no text for `nan` and the infinities. -/
def jsonOfFloat : PyFloat → Option Json
  | .fin x => some (.num x)
  | .inf _ | .nan => none

def PricedItem.dict (i : PricedItem) : Option Json := do
  some (Web.withProperty i.item "total" (← jsonOfFloat i.total))

/-- `{**estimate, "line_items": items, "subtotal": subtotal, "total": total}` -/
def Priced.dict (p : Priced) : Option Json := do
  let items ← p.lineItems.mapM PricedItem.dict
  let estimate := Web.withProperty p.estimate "line_items" (.arr items)
  let estimate := Web.withProperty estimate "subtotal" (← jsonOfFloat p.subtotal)
  some (Web.withProperty estimate "total" (← jsonOfFloat p.total))

/-! ## Validation -/

/-- An error message: its field and its text, up to the values it tells. -/
structure Problem where
  path : String
  message : String
  deriving DecidableEq, Repr

def requireAmount (idx : ℕ) (key : String) (item : Json) : Except PyError (List Problem) := do
  match ← getKey item key .null with
  | .null => .ok [⟨Web.itemPath idx key, "is required"⟩]
  | amount => PyError.caught [⟨Web.itemPath idx key, "must be a number"⟩] (do
    let x ← ofJson parse amount
    .ok (if x.isNegative then [⟨Web.itemPath idx key, "must be >= 0"⟩] else []))

/-- `abs(float(provided) - computed) > 0.02` -/
def checkTotal (path message : String) (provided : Json) (computed : PyFloat) :
    Except PyError (List Problem) :=
  PyError.caught [⟨path, "must be a number"⟩] (do
    let x ← ofJson parse provided
    .ok (if x.apart tolerance computed then [⟨path, message⟩] else []))

def validateLineItem (idx : ℕ) (item : Json) : Except PyError (List Problem) := do
  let name ← getKey item "name" .null
  let itemType ← getKey item "item_type" .null
  let quantity ← requireAmount parse idx "quantity" item
  let rate ← requireAmount parse idx "rate" item
  -- not in a `try`
  let computed ← computeLineItemTotal (← floatOf parse item "quantity" (.num 0))
    (← floatOf parse item "rate" (.num 0))
  let total ← checkTotal parse (Web.itemPath idx "total") "does not match computed total"
    (← getKey item "total" (.num 0)) computed
  .ok ((if isBlank name then [⟨Web.itemPath idx "name", "must be non-empty"⟩] else []) ++
    (if itemType.text.any (· ∈ lineItemTypes) then []
      else [⟨Web.itemPath idx "item_type", "must be one of ['labor', 'materials', 'fee']"⟩]) ++
    quantity ++ rate ++ total)

def validateLineItems : ℕ → List Json → Except PyError (List Problem)
  | _, [] => .ok []
  | idx, item :: items => do
    let errors ← validateLineItem parse idx item
    let rest ← validateLineItems (idx + 1) items
    .ok (errors ++ rest)

/-- What `sum` adds for a line item: the total as it is given, unconverted. -/
def summand (item : Json) : Except PyError PyFloat := do
  match (← getKey item "total" (.num 0)).number with
  | some x => .ok (.fin x)
  | none => .error .typeError

/-- A total of the estimate is checked unless it is missing or `None`. -/
def checkGiven (path message : String) (estimate : Json) (computed : PyFloat) :
    Except PyError (List Problem) := do
  match ← getKey estimate path .null with
  | .null => .ok []
  | provided => checkTotal parse path message provided computed

def validateEstimate (estimate : Json) : Except PyError (List Problem) := do
  match ← getKey estimate "line_items" (.arr []) with
  | .arr lineItems => do
    let errors ← validateLineItems parse 0 lineItems
    let computedSubtotal ← computeSubtotal (← lineItems.mapM summand)
    let subtotal ← checkGiven parse "subtotal" "does not match computed subtotal" estimate
      computedSubtotal
    -- not in a `try`
    let computedTotal ← computeTotal computedSubtotal (← floatOf parse estimate "tax" (.num 0))
    let total ← checkGiven parse "total" "does not match computed total" estimate computedTotal
    .ok (errors ++ subtotal ++ total)
  | _ => .ok [⟨"line_items", "must be a list"⟩]

attribute [grind =] getKey floatOf requireAmount checkTotal validateLineItem validateLineItems
  checkGiven validateEstimate

/-! ## What is to be accepted -/

/-- What counts as a number that is not negative, and as two numbers that agree. -/
structure Standard where
  nonneg : PyFloat → Prop
  near : PyFloat → PyFloat → Prop

def strict : Standard where
  nonneg
    | .fin x => 0 ≤ x
    | .inf negative => negative = false
    | .nan => False
  near
    | .fin x, .fin y => |x - y| ≤ tolerance
    | _, _ => False

/-- What the comparisons of floats let pass. -/
def lenient : Standard where
  nonneg x := x.isNegative = false
  near x y := x.apart tolerance y = false

variable (standard : Standard)

def Agrees (provided computed : Except PyError PyFloat) : Prop :=
  ∃ x y, provided = .ok x ∧ computed = .ok y ∧ standard.near x y

/-- A total that is missing counts as zero. -/
structure MeetsItem (item : Json) : Prop where
  name : ∃ name, getKey item "name" .null = .ok name ∧ isBlank name = false
  itemType : ∃ t ∈ lineItemTypes, getKey item "item_type" .null = .ok (.str t)
  quantity : ∃ x, floatOf parse item "quantity" .null = .ok x ∧ standard.nonneg x
  rate : ∃ x, floatOf parse item "rate" .null = .ok x ∧ standard.nonneg x
  total : Agrees standard (floatOf parse item "total" (.num 0))
    (recomputeLineItem parse item >>= fun i => .ok i.total)

/-- The subtotal of the line items as they are given. -/
def subtotalOf (items : List Json) : Except PyError PyFloat :=
  items.mapM summand >>= computeSubtotal

def totalOf (estimate : Json) (items : List Json) : Except PyError PyFloat := do
  computeTotal (← subtotalOf items) (← floatOf parse estimate "tax" (.num 0))

/-- A total of the estimate that is missing or `None` agrees with everything. -/
def MeetsTotal (estimate : Json) (key : String) (computed : Except PyError PyFloat) : Prop :=
  getKey estimate key .null = .ok .null ∨
    Agrees standard (floatOf parse estimate key .null) computed

/-- Every item has a name, a type, a quantity and a rate, and the totals agree. -/
structure Meets (estimate : Json) (items : List Json) : Prop where
  each : ∀ item ∈ items, MeetsItem parse standard item
  subtotal : MeetsTotal parse standard estimate "subtotal" (subtotalOf items)
  total : MeetsTotal parse standard estimate "total" (totalOf parse estimate items)

/-! ## What makes a conversion or a rounding fail -/

structure Line where
  quantity : PyFloat
  rate : PyFloat
  total : ℚ

/-- The numbers that an item is recomputed from. -/
structure Rated (item : Json) (l : Line) : Prop where
  quantity : floatOf parse item "quantity" (.num 0) = .ok l.quantity
  rate : floatOf parse item "rate" (.num 0) = .ok l.rate

/-- The numbers that an item is validated by; the total is one that a sum can add. -/
structure Reads (item : Json) (l : Line) : Prop extends Rated parse item l where
  total : summand item = .ok (.fin l.total)
  total_lt : |l.total| < limit

def Storable : PyFloat → Prop
  | .fin x => Fits x
  | .inf _ => False
  | .nan => True

def rounded : PyFloat → PyFloat
  | .fin x => .fin (Estimates.roundCurrency x)
  | x => x

def Line.Storable (l : Line) : Prop :=
  (∃ x y, l.quantity = .fin x ∧ l.rate = .fin y ∧ Fits (x * y)) ∨ l.quantity = .nan ∨ l.rate = .nan

def Line.amount (l : Line) : PyFloat :=
  match l.quantity, l.rate with
  | .fin x, .fin y => .fin (Estimates.computeLineItemTotal x y)
  | _, _ => .nan

def given (lines : List Line) : ℚ := (lines.map Line.total).sum

/-- No conversion outside of a `try` fails, no number is beyond the floats, and no amount is
too large to be rounded. -/
structure Safe (estimate : Json) (lines : List Line) (tax : PyFloat) : Prop where
  storesEach : ∀ l ∈ lines, l.Storable
  storesSubtotal : Fits (given lines)
  storesTotal : Storable ((rounded (.fin (given lines))).add tax)
  readsSubtotal : floatOf parse estimate "subtotal" .null ≠ .error .arithmeticError
  readsTotal : floatOf parse estimate "total" .null ≠ .error .arithmeticError

/-- No number that is compared is `nan`, and the recomputed amounts can be rounded too. -/
structure Exact (estimate : Json) (lines : List Line) (tax : PyFloat) : Prop where
  numbers : ∀ l ∈ lines, l.quantity ≠ .nan ∧ l.rate ≠ .nan
  subtotalNumber : floatOf parse estimate "subtotal" .null ≠ .ok .nan
  totalNumber : floatOf parse estimate "total" .null ≠ .ok .nan
  taxNumber : getKey estimate "total" .null ≠ .ok .null → tax ≠ .nan
  storesSubtotal : Storable (sum (lines.map Line.amount))
  storesTax : Storable tax
  storesTotal : Storable ((rounded (sum (lines.map Line.amount))).add (rounded tax))

variable {parse}

/-! ## The checks one by one -/

theorem getKey_obj (fields : List (String × Json)) (key : String) (default : Json) :
    getKey (.obj fields) key default = .ok ((fields.lookup key).getD default) := rfl

theorem floatOf_eq_ok {j : Json} {key : String} {default : Json} {x : PyFloat} :
    floatOf parse j key default = .ok x ↔
      ∃ v, getKey j key default = .ok v ∧ ofJson parse v = .ok x := bind_eq_ok

theorem roundCurrency_eq_ok {x y : PyFloat} :
    roundCurrency x = .ok y ↔ Storable x ∧ y = rounded x := by
  cases x with
  | fin x =>
    simp only [roundCurrency, Storable, rounded]
    split
    · simp [*, eq_comm]
    · simp [*]
  | inf negative => simp [roundCurrency, Storable]
  | nan => simp [roundCurrency, Storable, rounded, eq_comm]

theorem computeLineItemTotal_eq_ok {l : Line} {y : PyFloat} :
    computeLineItemTotal l.quantity l.rate = .ok y ↔ l.Storable ∧ y = l.amount := by
  obtain ⟨quantity, rate, total⟩ := l
  simp only [computeLineItemTotal, bind_eq_ok, roundCurrency_eq_ok, Line.Storable, Line.amount]
  cases quantity <;> cases rate <;> simp only [times]
  case fin.inf | inf.fin => split <;> simp [Storable]
  all_goals simp [Storable, rounded, Estimates.computeLineItemTotal]

theorem requireAmount_eq_nil {idx : ℕ} {key : String} {item : Json} :
    requireAmount parse idx key item = .ok [] ↔
      ∃ x, floatOf parse item key .null = .ok x ∧ x.isNegative = false := by
  simp only [requireAmount, bind_eq_ok, floatOf_eq_ok]
  constructor
  · rintro ⟨v, hv, h⟩
    split at h
    · cases h
    · obtain h | ⟨-, h⟩ := PyError.caught_eq_ok.mp h
      · obtain ⟨x, hx, h⟩ := bind_eq_ok.mp h
        refine ⟨x, ⟨v, hv, hx⟩, ?_⟩
        cases hneg : x.isNegative
        · rfl
        · simp [hneg] at h
      · cases h
  · rintro ⟨x, ⟨v, hv, hx⟩, hneg⟩
    refine ⟨v, hv, ?_⟩
    split
    · cases hx
    · simp [PyError.caught, bind, Except.bind, hx, hneg]

theorem checkTotal_eq_nil {path message : String} {provided : Json} {computed : PyFloat} :
    checkTotal parse path message provided computed = .ok [] ↔
      ∃ x, ofJson parse provided = .ok x ∧ x.apart tolerance computed = false := by
  rw [checkTotal, PyError.caught_eq_ok, bind_eq_ok]
  constructor
  · rintro (⟨x, hx, h⟩ | ⟨-, h⟩)
    · refine ⟨x, hx, ?_⟩
      cases hapart : x.apart tolerance computed
      · rfl
      · simp [hapart] at h
    · cases h
  · rintro ⟨x, hx, hapart⟩
    exact .inl ⟨x, hx, by simp [hapart]⟩

theorem typeOf_eq_nil {itemType : Json} {p : Problem} :
    (if itemType.text.any (· ∈ lineItemTypes) then [] else [p]) = [] ↔
      ∃ t ∈ lineItemTypes, itemType = .str t := by
  cases htext : itemType.text with
  | none =>
    have hne : ∀ t, itemType ≠ .str t := by
      rintro t rfl
      cases htext
    simp [hne]
  | some t =>
    obtain rfl := Json.text_eq_some.mp htext
    simp

theorem lineTotal_eq_ok {item : Json} {y : PyFloat} :
    (recomputeLineItem parse item >>= fun i => .ok i.total) = .ok y ↔
      ∃ q, floatOf parse item "quantity" (.num 0) = .ok q ∧
        ∃ r, floatOf parse item "rate" (.num 0) = .ok r ∧ computeLineItemTotal q r = .ok y := by
  simp only [recomputeLineItem, bind_eq_ok]
  constructor
  · rintro ⟨i, ⟨q, hq, r, hr, computed, hcomputed, hi⟩, h⟩
    cases hi
    cases h
    exact ⟨q, hq, r, hr, hcomputed⟩
  · rintro ⟨q, hq, r, hr, hcomputed⟩
    exact ⟨_, ⟨q, hq, r, hr, y, hcomputed, rfl⟩, rfl⟩

theorem validateLineItem_eq_nil {idx : ℕ} {item : Json} :
    validateLineItem parse idx item = .ok [] ↔ MeetsItem parse lenient item := by
  simp only [validateLineItem, bind_eq_ok, Except.ok.injEq, List.append_eq_nil_iff, typeOf_eq_nil]
  constructor
  · rintro ⟨name, hname, itemType, htype, quantity, hquantity, rate, hrate, q, hq, r, hr, computed,
      hcomputed, provided, hprovided, total, htotal, ⟨⟨⟨hblank, t, ht, rfl⟩, rfl⟩, rfl⟩, rfl⟩
    obtain ⟨x, hx, hnear⟩ := checkTotal_eq_nil.mp htotal
    constructor
    · refine ⟨name, hname, ?_⟩
      cases h : isBlank name
      · rfl
      · simp [h] at hblank
    · exact ⟨t, ht, htype⟩
    · exact requireAmount_eq_nil.mp hquantity
    · exact requireAmount_eq_nil.mp hrate
    · exact ⟨x, computed, floatOf_eq_ok.mpr ⟨provided, hprovided, hx⟩,
        lineTotal_eq_ok.mpr ⟨q, hq, r, hr, hcomputed⟩, hnear⟩
  · rintro ⟨⟨name, hname, hblank⟩, ⟨t, ht, htype⟩, hquantity, hrate, x, computed, hx, hcomputed,
      hnear⟩
    obtain ⟨provided, hprovided, hx⟩ := floatOf_eq_ok.mp hx
    obtain ⟨q, hq, r, hr, hcomputed⟩ := lineTotal_eq_ok.mp hcomputed
    have hblank : (if isBlank name then [Problem.mk (Web.itemPath idx "name") "must be non-empty"]
        else []) = [] := by simp [hblank]
    exact ⟨name, hname, _, htype, [], requireAmount_eq_nil.mpr hquantity, [],
      requireAmount_eq_nil.mpr hrate, q, hq, r, hr, _, hcomputed, provided, hprovided, [],
      checkTotal_eq_nil.mpr ⟨x, hx, hnear⟩, ⟨⟨⟨hblank, t, ht, rfl⟩, rfl⟩, rfl⟩, rfl⟩

theorem validateLineItems_eq_nil {items : List Json} {idx : ℕ} :
    validateLineItems parse idx items = .ok [] ↔ ∀ item ∈ items, MeetsItem parse lenient item := by
  induction items generalizing idx with
  | nil => simp [validateLineItems]
  | cons item items ih =>
    rw [List.forall_mem_cons, ← @validateLineItem_eq_nil parse idx item, ← @ih (idx + 1)]
    simp only [validateLineItems, bind_eq_ok, Except.ok.injEq, List.append_eq_nil_iff]
    constructor
    · rintro ⟨errors, herrors, rest, hrest, rfl, rfl⟩
      exact ⟨herrors, hrest⟩
    · rintro ⟨herrors, hrest⟩
      exact ⟨[], herrors, [], hrest, rfl, rfl⟩

theorem checkGiven_eq_nil {path message : String} {estimate : Json} {computed : PyFloat} :
    checkGiven parse path message estimate computed = .ok [] ↔
      MeetsTotal parse lenient estimate path (.ok computed) := by
  simp only [checkGiven, bind_eq_ok, MeetsTotal, Agrees, floatOf_eq_ok]
  constructor
  · rintro ⟨v, hv, h⟩
    split at h
    · exact .inl hv
    · obtain ⟨x, hx, hnear⟩ := checkTotal_eq_nil.mp h
      exact .inr ⟨x, computed, ⟨v, hv, hx⟩, rfl, hnear⟩
  · rintro (hnull | ⟨x, y, ⟨v, hv, hx⟩, hy, hnear⟩)
    · exact ⟨.null, hnull, rfl⟩
    · cases hy
      refine ⟨v, hv, ?_⟩
      split
      · cases hx
      · exact checkTotal_eq_nil.mpr ⟨x, hx, hnear⟩

/-! ## Which estimates are validated without an exception -/

theorem exists_obj {j v : Json} {key : String} {default : Json} (h : getKey j key default = .ok v) :
    ∃ fields, j = .obj fields := by
  cases j with
  | obj fields => exact ⟨fields, rfl⟩
  | _ => cases h

/-- What can be converted with its default raises nothing when it is required. -/
theorem requireAmount_returns {idx : ℕ} {key : String} {item : Json} {q : PyFloat}
    (h : floatOf parse item key (.num 0) = .ok q) :
    ∃ errors, requireAmount parse idx key item = .ok errors := by
  obtain ⟨v, hv, hq⟩ := floatOf_eq_ok.mp h
  obtain ⟨fields, rfl⟩ := exists_obj hv
  rw [getKey_obj, Except.ok.injEq] at hv
  simp only [requireAmount, bind_eq_ok, getKey_obj, Except.ok.injEq, exists_eq_left']
  cases hlookup : fields.lookup key with
  | none => exact ⟨_, rfl⟩
  | some w =>
    rw [hlookup, Option.getD_some] at hv
    subst hv
    rw [Option.getD_some]
    split
    · exact ⟨_, rfl⟩
    · rw [PyError.exists_caught, hq]
      simp [bind, Except.bind]

theorem checkTotal_returns {path message : String} {provided : Json} {computed : PyFloat} :
    (∃ errors, checkTotal parse path message provided computed = .ok errors) ↔
      ofJson parse provided ≠ .error .arithmeticError := by
  have hattribute : ofJson parse provided ≠ .error .attributeError :=
    ofJson_ne_attributeError provided
  rw [checkTotal, PyError.exists_caught]
  cases hx : ofJson parse provided with
  | ok x => simp [bind, Except.bind]
  | error e =>
    rw [hx] at hattribute
    simpa [bind, Except.bind] using fun _ => hattribute

theorem summand_eq_ok {item : Json} {t : PyFloat} :
    summand item = .ok t ↔
      ∃ provided, getKey item "total" (.num 0) = .ok provided ∧
        ∃ x, provided.number = some x ∧ t = .fin x := by
  simp only [summand, bind_eq_ok]
  refine exists_congr fun provided => and_congr_right fun _ => ?_
  cases provided.number <;> simp [eq_comm]

theorem validateLineItem_returns {idx : ℕ} {item : Json} :
    ((∃ errors, validateLineItem parse idx item = .ok errors) ∧ ∃ t, summand item = .ok t) ↔
      ∃ l, Reads parse item l ∧ l.Storable := by
  constructor
  · rintro ⟨⟨errors, h⟩, t, ht⟩
    simp only [validateLineItem, bind_eq_ok] at h
    obtain ⟨-, -, -, -, -, -, -, -, q, hq, r, hr, computed, hcomputed, provided, hprovided, total,
      htotal, -⟩ := h
    obtain ⟨_, hagain, x, hx, rfl⟩ := summand_eq_ok.mp ht
    obtain rfl : provided = _ := Except.ok.inj (hprovided.symm.trans hagain)
    have hlt := (lt_limit_iff hx).mpr (checkTotal_returns.mp ⟨total, htotal⟩)
    have hstorable := ((@computeLineItemTotal_eq_ok ⟨q, r, x⟩ computed).mp hcomputed).1
    exact ⟨⟨q, r, x⟩, ⟨⟨hq, hr⟩, ht, hlt⟩, hstorable⟩
  · rintro ⟨l, ⟨⟨hq, hr⟩, ht, hlt⟩, hstorable⟩
    refine ⟨?_, _, ht⟩
    obtain ⟨provided, hprovided, x, hx, heq⟩ := summand_eq_ok.mp ht
    obtain rfl : l.total = x := PyFloat.fin.inj heq
    obtain ⟨fields, rfl⟩ := exists_obj hprovided
    obtain ⟨quantity, hquantity⟩ := @requireAmount_returns parse idx _ _ _ hq
    obtain ⟨rate, hrate⟩ := @requireAmount_returns parse idx _ _ _ hr
    have hcomputed := computeLineItemTotal_eq_ok.mpr ⟨hstorable, rfl⟩
    have hreturns : ∃ errors, checkTotal parse (Web.itemPath idx "total")
        "does not match computed total" provided l.amount = .ok errors :=
      checkTotal_returns.mpr ((lt_limit_iff hx).mp hlt)
    obtain ⟨total, htotal⟩ := hreturns
    simp only [validateLineItem, bind_eq_ok]
    exact ⟨_, _, getKey_obj .., _, getKey_obj .., quantity, hquantity, rate, hrate, _, hq, _, hr, _,
      hcomputed, provided, hprovided, total, htotal, rfl⟩

theorem validateLineItems_returns {idx : ℕ} {items : List Json} :
    ((∃ errors, validateLineItems parse idx items = .ok errors) ∧
        ∃ totals, items.mapM summand = .ok totals) ↔
      ∃ lines, List.Forall₂ (Reads parse) items lines ∧ ∀ l ∈ lines, l.Storable := by
  induction items generalizing idx with
  | nil =>
    simp only [validateLineItems, List.forall₂_nil_left_iff, exists_eq_left, List.not_mem_nil,
      false_implies, implies_true, iff_true]
    exact ⟨⟨_, rfl⟩, _, rfl⟩
  | cons item items ih =>
    simp only [validateLineItems, List.mapM_cons, bind_eq_ok]
    constructor
    · rintro ⟨⟨-, first, hfirst, rest, hrest, -⟩, -, t, ht, ts, hts, -⟩
      obtain ⟨l, hl, hstorable⟩ := validateLineItem_returns.mp ⟨⟨first, hfirst⟩, t, ht⟩
      obtain ⟨lines, hlines, hall⟩ := ih.mp ⟨⟨rest, hrest⟩, ts, hts⟩
      exact ⟨l :: lines, .cons hl hlines, List.forall_mem_cons.mpr ⟨hstorable, hall⟩⟩
    · rintro ⟨lines, hlines, hall⟩
      obtain ⟨l, rest, hl, hrest, rfl⟩ := List.forall₂_cons_left_iff.mp hlines
      obtain ⟨hstorable, hall⟩ := List.forall_mem_cons.mp hall
      obtain ⟨⟨first, hfirst⟩, t, ht⟩ :=
        (@validateLineItem_returns parse idx item).mpr ⟨l, hl, hstorable⟩
      obtain ⟨⟨errors, herrors⟩, ts, hts⟩ := (@ih (idx + 1)).mpr ⟨rest, hrest, hall⟩
      exact ⟨⟨_, first, hfirst, errors, herrors, rfl⟩, _, t, ht, ts, hts, rfl⟩

theorem checkGiven_returns {path message : String} {estimate : Json} {computed : PyFloat}
    (hobj : ∃ fields, estimate = .obj fields) :
    (∃ errors, checkGiven parse path message estimate computed = .ok errors) ↔
      floatOf parse estimate path .null ≠ .error .arithmeticError := by
  obtain ⟨fields, rfl⟩ := hobj
  simp only [checkGiven, bind_eq_ok, getKey_obj, Except.ok.injEq, exists_eq_left', floatOf]
  cases (fields.lookup path).getD .null with
  | null => simp [bind, Except.bind, ofJson]
  | _ => exact checkTotal_returns

theorem summands {items : List Json} {lines : List Line}
    (h : List.Forall₂ (Reads parse) items lines) :
    items.mapM summand = .ok (lines.map fun l => .fin l.total) := by
  rw [mapM_eq_ok, List.forall₂_map_right_iff]
  exact h.imp fun _ _ hl => hl.total

theorem subtotalOf_eq_ok {items : List Json} {lines : List Line} {y : PyFloat}
    (h : List.Forall₂ (Reads parse) items lines) :
    subtotalOf items = .ok y ↔ Fits (given lines) ∧ y = rounded (.fin (given lines)) := by
  rw [subtotalOf, bind_eq_ok, summands h]
  simp only [Except.ok.injEq, exists_eq_left', computeSubtotal, sum_map_fin, roundCurrency_eq_ok]
  rfl

theorem totalOf_eq_ok {items : List Json} {estimate : Json} {total : PyFloat} :
    totalOf parse estimate items = .ok total ↔
      ∃ subtotal, subtotalOf items = .ok subtotal ∧
        ∃ tax, floatOf parse estimate "tax" (.num 0) = .ok tax ∧
          computeTotal subtotal tax = .ok total := by
  simp only [totalOf, bind_eq_ok]

section
variable {estimate : Json} {items : List Json}
  (hitems : getKey estimate "line_items" (.arr []) = .ok (.arr items))
include hitems

theorem validateEstimate_eq_ok {errors : List Problem} :
    validateEstimate parse estimate = .ok errors ↔
      ∃ each, validateLineItems parse 0 items = .ok each ∧
      ∃ subtotal, subtotalOf items = .ok subtotal ∧
      ∃ subtotalErrors, checkGiven parse "subtotal" "does not match computed subtotal" estimate
        subtotal = .ok subtotalErrors ∧
      ∃ tax, floatOf parse estimate "tax" (.num 0) = .ok tax ∧
      ∃ total, computeTotal subtotal tax = .ok total ∧
      ∃ totalErrors, checkGiven parse "total" "does not match computed total" estimate total =
        .ok totalErrors ∧ each ++ subtotalErrors ++ totalErrors = errors := by
  rw [validateEstimate, hitems]
  simp only [subtotalOf, bind_eq_ok, Except.ok.injEq, exists_eq_left']
  constructor
  · rintro ⟨each, heach, totals, htotals, subtotal, hsubtotal, rest⟩
    exact ⟨each, heach, subtotal, ⟨totals, htotals, hsubtotal⟩, rest⟩
  · rintro ⟨each, heach, subtotal, ⟨totals, htotals, hsubtotal⟩, rest⟩
    exact ⟨each, heach, totals, htotals, subtotal, hsubtotal, rest⟩

theorem validateEstimate_returns :
    (∃ errors, validateEstimate parse estimate = .ok errors) ↔
      ∃ lines tax, List.Forall₂ (Reads parse) items lines ∧
        floatOf parse estimate "tax" (.num 0) = .ok tax ∧ Safe parse estimate lines tax := by
  have hobj := exists_obj hitems
  simp only [validateEstimate_eq_ok hitems]
  constructor
  · rintro ⟨-, each, heach, subtotal, hsubtotal, subtotalErrors, hsubtotalErrors, tax, htax, total,
      htotal, totalErrors, htotalErrors, -⟩
    obtain ⟨totals, htotals, -⟩ := bind_eq_ok.mp hsubtotal
    obtain ⟨lines, hlines, hstores⟩ := validateLineItems_returns.mp ⟨⟨each, heach⟩, totals, htotals⟩
    obtain ⟨hfits, rfl⟩ := (subtotalOf_eq_ok hlines).mp hsubtotal
    exact ⟨lines, tax, hlines, htax, hstores, hfits, (roundCurrency_eq_ok.mp htotal).1,
      (checkGiven_returns hobj).mp ⟨_, hsubtotalErrors⟩,
      (checkGiven_returns hobj).mp ⟨_, htotalErrors⟩⟩
  · rintro ⟨lines, tax, hlines, htax, hstores, hfits, htotal, hreadsSubtotal, hreadsTotal⟩
    obtain ⟨⟨each, heach⟩, -⟩ :=
      (@validateLineItems_returns parse 0 items).mpr ⟨lines, hlines, hstores⟩
    obtain ⟨subtotalErrors, hsubtotalErrors⟩ := (checkGiven_returns hobj).mpr hreadsSubtotal
    obtain ⟨totalErrors, htotalErrors⟩ := (checkGiven_returns hobj).mpr hreadsTotal
    exact ⟨_, each, heach, _, (subtotalOf_eq_ok hlines).mpr ⟨hfits, rfl⟩, subtotalErrors,
      hsubtotalErrors, tax, htax, _, roundCurrency_eq_ok.mpr ⟨htotal, rfl⟩, totalErrors,
      htotalErrors, rfl⟩

/-- Without an exception the errors are none exactly if the comparisons let everything pass. -/
theorem validateEstimate_eq_nil
    (hreturns : ∃ errors, validateEstimate parse estimate = .ok errors) :
    validateEstimate parse estimate = .ok [] ↔ Meets parse lenient estimate items := by
  rw [validateEstimate_eq_ok hitems]
  constructor
  · rintro ⟨each, heach, subtotal, hsubtotal, subtotalErrors, hsubtotalErrors, tax, htax, total,
      htotal, totalErrors, htotalErrors, hnil⟩
    simp only [List.append_eq_nil_iff] at hnil
    obtain ⟨⟨rfl, rfl⟩, rfl⟩ := hnil
    refine ⟨validateLineItems_eq_nil.mp heach, ?_, ?_⟩
    · rw [hsubtotal]
      exact checkGiven_eq_nil.mp hsubtotalErrors
    · rw [totalOf_eq_ok.mpr ⟨subtotal, hsubtotal, tax, htax, htotal⟩]
      exact checkGiven_eq_nil.mp htotalErrors
  · intro hmeets
    obtain ⟨errors, herrors⟩ := hreturns
    obtain ⟨-, -, subtotal, hsubtotal, -, -, tax, htax, total, htotal, -⟩ :=
      (validateEstimate_eq_ok hitems).mp herrors
    have hgivenSubtotal := hmeets.subtotal
    have hgivenTotal := hmeets.total
    rw [hsubtotal] at hgivenSubtotal
    rw [totalOf_eq_ok.mpr ⟨subtotal, hsubtotal, tax, htax, htotal⟩] at hgivenTotal
    exact ⟨[], validateLineItems_eq_nil.mpr hmeets.each, subtotal, hsubtotal, [],
      checkGiven_eq_nil.mpr hgivenSubtotal, tax, htax, total, htotal, [],
      checkGiven_eq_nil.mpr hgivenTotal, rfl⟩

end

/-! ## Where `nan` passes a comparison -/

theorem floatOf_null {j : Json} {key : String} {x : PyFloat} (default : Json)
    (h : floatOf parse j key .null = .ok x) : floatOf parse j key default = .ok x := by
  obtain ⟨v, hv, hx⟩ := floatOf_eq_ok.mp h
  obtain ⟨fields, rfl⟩ := exists_obj hv
  rw [getKey_obj, Except.ok.injEq] at hv
  rw [floatOf, getKey_obj]
  cases hlookup : fields.lookup key with
  | none =>
    rw [hlookup, Option.getD_none] at hv
    subst hv
    cases hx
  | some w =>
    rw [hlookup, Option.getD_some] at hv
    subst hv
    exact hx

theorem strict_nonneg {x : PyFloat} : strict.nonneg x ↔ lenient.nonneg x ∧ x ≠ .nan := by
  cases x <;> simp [strict, lenient, isNegative]

theorem strict_near {x y : PyFloat} (hy : ∀ negative, y ≠ .inf negative) :
    strict.near x y ↔ lenient.near x y ∧ x ≠ .nan ∧ y ≠ .nan := by
  cases y with
  | inf negative => exact absurd rfl (hy negative)
  | _ => cases x <;> simp [strict, lenient, apart]

theorem amount_ne_inf (l : Line) (negative : Bool) : l.amount ≠ .inf negative := by
  unfold Line.amount
  split <;> simp

theorem amount_ne_nan {l : Line} (h : l.Storable) :
    l.amount ≠ .nan ↔ l.quantity ≠ .nan ∧ l.rate ≠ .nan := by
  obtain ⟨quantity, rate, total⟩ := l
  obtain ⟨x, y, rfl, rfl, -⟩ | rfl | rfl := h
  · simp [Line.amount]
  · simp [Line.amount]
  · cases quantity <;> simp [Line.amount]

theorem meetsItem_strict {item : Json} {l : Line} (hl : Reads parse item l) (h : l.Storable) :
    MeetsItem parse strict item ↔
      MeetsItem parse lenient item ∧ l.quantity ≠ .nan ∧ l.rate ≠ .nan := by
  have hread : ∀ {key : String} {x y : PyFloat}, floatOf parse item key .null = .ok x →
      floatOf parse item key (.num 0) = .ok y → x = y :=
    fun hx hy => Except.ok.inj ((floatOf_null _ hx).symm.trans hy)
  have hcomputed : ∀ {y : PyFloat},
      (recomputeLineItem parse item >>= fun i => .ok i.total) = .ok y ↔ y = l.amount := by
    intro y
    rw [lineTotal_eq_ok, hl.quantity, hl.rate]
    simp [computeLineItemTotal_eq_ok, h]
  constructor
  · rintro ⟨hname, htype, ⟨x, hx, hxn⟩, ⟨y, hy, hyn⟩, given, computed, hgiven, hc, hnear⟩
    obtain ⟨hxn, hxnan⟩ := strict_nonneg.mp hxn
    obtain ⟨hyn, hynan⟩ := strict_nonneg.mp hyn
    obtain rfl := hcomputed.mp hc
    obtain ⟨hnear, -⟩ := (strict_near (amount_ne_inf l)).mp hnear
    rw [← hread hx hl.quantity, ← hread hy hl.rate]
    exact ⟨⟨hname, htype, ⟨x, hx, hxn⟩, ⟨y, hy, hyn⟩, given, _, hgiven, hc, hnear⟩, hxnan, hynan⟩
  · rintro ⟨⟨hname, htype, ⟨x, hx, hxn⟩, ⟨y, hy, hyn⟩, given, computed, hgiven, hc, hnear⟩, hq, hr⟩
    obtain rfl := hcomputed.mp hc
    obtain ⟨provided, hprovided, a, ha, heq⟩ := summand_eq_ok.mp hl.total
    obtain ⟨_, hagain, hfloat⟩ := floatOf_eq_ok.mp hgiven
    obtain rfl : provided = _ := Except.ok.inj (hprovided.symm.trans hagain)
    obtain rfl := ofJson_of_number ha hfloat
    have hxnan : x ≠ .nan := by rwa [hread hx hl.quantity]
    have hynan : y ≠ .nan := by rwa [hread hy hl.rate]
    have hnumbers : PyFloat.fin a ≠ .nan ∧ l.amount ≠ .nan :=
      ⟨PyFloat.noConfusion, (amount_ne_nan h).mpr ⟨hq, hr⟩⟩
    exact ⟨hname, htype, ⟨x, hx, strict_nonneg.mpr ⟨hxn, hxnan⟩⟩,
      ⟨y, hy, strict_nonneg.mpr ⟨hyn, hynan⟩⟩, _, _, hgiven, hc,
      (strict_near (amount_ne_inf l)).mpr ⟨hnear, hnumbers⟩⟩

theorem meetsTotal_strict {estimate : Json} {key : String} {computed : PyFloat}
    (hcomputed : ∀ negative, computed ≠ .inf negative) :
    MeetsTotal parse strict estimate key (.ok computed) ↔
      MeetsTotal parse lenient estimate key (.ok computed) ∧
        floatOf parse estimate key .null ≠ .ok .nan ∧
        (getKey estimate key .null ≠ .ok .null → computed ≠ .nan) := by
  by_cases hnull : getKey estimate key .null = .ok .null
  · have hfloat : floatOf parse estimate key .null = .error .typeError := by rw [floatOf, hnull]; rfl
    simp [MeetsTotal, hnull, hfloat]
  · simp only [MeetsTotal, hnull, false_or, ne_eq, not_false_eq_true, true_implies]
    constructor
    · rintro ⟨x, y, hx, hy, hnear⟩
      cases hy
      obtain ⟨hnear, hxnan, hcnan⟩ := (strict_near hcomputed).mp hnear
      refine ⟨⟨x, _, hx, rfl, hnear⟩, ?_, hcnan⟩
      rw [hx]
      exact fun h => hxnan (Except.ok.inj h)
    · rintro ⟨⟨x, y, hx, hy, hnear⟩, hxnan, hcnan⟩
      cases hy
      have hxnan : x ≠ .nan := fun h => hxnan (h ▸ hx)
      exact ⟨x, _, hx, rfl, (strict_near hcomputed).mpr ⟨hnear, hxnan, hcnan⟩⟩

theorem rounded_ne_inf {x : PyFloat} (h : Storable x) (negative : Bool) :
    rounded x ≠ .inf negative := by
  cases x with
  | inf _ => exact h.elim
  | _ => simp [rounded]

theorem rounded_add_ne_nan {x : ℚ} {tax : PyFloat} :
    rounded ((PyFloat.fin x).add tax) ≠ .nan ↔ tax ≠ .nan := by
  cases tax <;> simp [add, rounded]

section
variable {estimate : Json} {items : List Json} {lines : List Line} {tax : PyFloat}

theorem meetsEach_strict (hlines : List.Forall₂ (Reads parse) items lines)
    (hstores : ∀ l ∈ lines, l.Storable) :
    (∀ item ∈ items, MeetsItem parse strict item) ↔
      (∀ item ∈ items, MeetsItem parse lenient item) ∧
        ∀ l ∈ lines, l.quantity ≠ .nan ∧ l.rate ≠ .nan := by
  induction hlines with
  | nil => simp
  | cons hl _ ih =>
    obtain ⟨h, hrest⟩ := List.forall_mem_cons.mp hstores
    simp only [List.forall_mem_cons, meetsItem_strict hl h, ih hrest]
    exact and_and_and_comm

theorem meets_strict (hlines : List.Forall₂ (Reads parse) items lines)
    (htax : floatOf parse estimate "tax" (.num 0) = .ok tax)
    (hsafe : Safe parse estimate lines tax) :
    Meets parse strict estimate items ↔ Meets parse lenient estimate items ∧
      (∀ l ∈ lines, l.quantity ≠ .nan ∧ l.rate ≠ .nan) ∧
      floatOf parse estimate "subtotal" .null ≠ .ok .nan ∧
      floatOf parse estimate "total" .null ≠ .ok .nan ∧
      (getKey estimate "total" .null ≠ .ok .null → tax ≠ .nan) := by
  have hsubtotal : subtotalOf items = .ok (rounded (.fin (given lines))) :=
    (subtotalOf_eq_ok hlines).mpr ⟨hsafe.storesSubtotal, rfl⟩
  have htotal : totalOf parse estimate items =
      .ok (rounded ((rounded (.fin (given lines))).add tax)) :=
    totalOf_eq_ok.mpr ⟨_, hsubtotal, tax, htax, roundCurrency_eq_ok.mpr ⟨hsafe.storesTotal, rfl⟩⟩
  have hneSubtotal : ∀ negative, rounded (.fin (given lines)) ≠ .inf negative := by simp [rounded]
  have hneTotal := rounded_ne_inf hsafe.storesTotal
  have heach := meetsEach_strict hlines hsafe.storesEach
  constructor
  · rintro ⟨hitems, hmeetsSubtotal, hmeetsTotal⟩
    rw [hsubtotal, meetsTotal_strict hneSubtotal] at hmeetsSubtotal
    rw [htotal, meetsTotal_strict hneTotal] at hmeetsTotal
    obtain ⟨hitems, hnumbers⟩ := heach.mp hitems
    refine ⟨⟨hitems, ?_, ?_⟩, hnumbers, hmeetsSubtotal.2.1, hmeetsTotal.2.1, fun h => ?_⟩
    · rw [hsubtotal]
      exact hmeetsSubtotal.1
    · rw [htotal]
      exact hmeetsTotal.1
    · exact rounded_add_ne_nan.mp (hmeetsTotal.2.2 h)
  · rintro ⟨⟨hitems, hmeetsSubtotal, hmeetsTotal⟩, hnumbers, hs, ht, hnan⟩
    rw [hsubtotal] at hmeetsSubtotal
    rw [htotal] at hmeetsTotal
    refine ⟨heach.mpr ⟨hitems, hnumbers⟩, ?_, ?_⟩
    · rw [hsubtotal, meetsTotal_strict hneSubtotal]
      exact ⟨hmeetsSubtotal, hs, fun _ => by simp [rounded]⟩
    · rw [htotal, meetsTotal_strict hneTotal]
      exact ⟨hmeetsTotal, ht, fun h => rounded_add_ne_nan.mpr (hnan h)⟩

/-! ## Recomputing what is accepted -/

theorem recomputeLineItem_eq_ok {item : Json} {l : Line} {i : PricedItem}
    (hl : Rated parse item l) (h : l.Storable) :
    recomputeLineItem parse item = .ok i ↔ i = ⟨item, l.amount⟩ := by
  rw [recomputeLineItem, hl.quantity, hl.rate]
  simp only [bind_eq_ok, Except.ok.injEq, exists_eq_left', computeLineItemTotal_eq_ok, h, true_and,
    exists_eq_left]
  exact eq_comm

/-- The items with the amounts of their lines. -/
def priced (items : List Json) (lines : List Line) : List PricedItem :=
  List.zipWith (fun item l => ⟨item, l.amount⟩) items lines

theorem recomputeItems_eq_ok {ps : List PricedItem}
    (hlines : List.Forall₂ (Rated parse) items lines) (hstores : ∀ l ∈ lines, l.Storable) :
    items.mapM (recomputeLineItem parse) = .ok ps ↔ ps = priced items lines := by
  induction hlines generalizing ps with
  | nil => simp [priced, pure, Except.pure, eq_comm]
  | cons hl _ ih =>
    obtain ⟨h, hrest⟩ := List.forall_mem_cons.mp hstores
    simp only [List.mapM_cons, bind_eq_ok, recomputeLineItem_eq_ok hl h, ih hrest, exists_eq_left]
    simp [priced, pure, Except.pure, eq_comm]

theorem totals_priced (hlines : List.Forall₂ (Rated parse) items lines) :
    (priced items lines).map PricedItem.total = lines.map Line.amount := by
  induction hlines with
  | nil => rfl
  | cons _ _ ih => exact congrArg _ ih

theorem recomputeEstimate_eq_ok {p : Priced}
    (hitems : getKey estimate "line_items" (.arr []) = .ok (.arr items))
    (hlines : List.Forall₂ (Rated parse) items lines) (hstores : ∀ l ∈ lines, l.Storable)
    (htax : floatOf parse estimate "tax" (.num 0) = .ok tax) :
    recomputeEstimate parse estimate = .ok p ↔
      (Storable (sum (lines.map Line.amount)) ∧ Storable tax ∧
        Storable ((rounded (sum (lines.map Line.amount))).add (rounded tax))) ∧
      p = ⟨estimate, priced items lines, rounded (sum (lines.map Line.amount)),
        rounded ((rounded (sum (lines.map Line.amount))).add (rounded tax))⟩ := by
  rw [recomputeEstimate, hitems, htax]
  simp only [bind_eq_ok, Except.ok.injEq, exists_eq_left', elements, Json.elements,
    recomputeItems_eq_ok hlines hstores, exists_eq_left, totals_priced hlines, computeSubtotal,
    computeTotal, roundCurrency_eq_ok, and_assoc, exists_and_left]
  simp only [eq_comm]

end

/-- The errors are returned, what has none is recomputed, and nothing has none but an estimate
as it is to be. -/
def ValidatesAll (parse : String → Option PyFloat) (estimate : Json) : Prop :=
  (∃ errors, validateEstimate parse estimate = .ok errors) ∧
    (validateEstimate parse estimate = .ok [] →
      ∃ p, recomputeEstimate parse estimate = .ok p) ∧
    (validateEstimate parse estimate = .ok [] ↔
      ∃ items, getKey estimate "line_items" (.arr []) = .ok (.arr items) ∧
        Meets parse strict estimate items)

/-- A line item whose quantity is a text that is no number. -/
def wordyEstimate : Json :=
  .obj [("line_items", .arr [.obj [("name", .str "Pipe"), ("item_type", .str "materials"),
    ("quantity", .str "two"), ("rate", .num 10)]])]

end

end WorkTicket.Estimates.Engine
