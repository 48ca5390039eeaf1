import WorkTicket.Foundation.Fallible
import WorkTicket.Foundation.Json

/-! The floats that Python makes of JSON values. A float that is finite is the decimal it
prints as; what a comparison says of `nan` is false. -/

namespace WorkTicket

/-- The classes of exceptions a conversion, an attribute or a sum can raise.
`OverflowError` and `decimal.InvalidOperation` are both an `ArithmeticError`. -/
inductive PyError
  | attributeError
  | typeError
  | valueError
  | arithmeticError
  deriving DecidableEq, Repr

/-- `try: x except (ValueError, TypeError): handler` -/
def PyError.caught {α : Type} (handler : α) : Except PyError α → Except PyError α
  | .error .valueError | .error .typeError => .ok handler
  | x => x

theorem PyError.caught_eq_ok {α : Type} {x : Except PyError α} {handler a : α} :
    PyError.caught handler x = .ok a ↔
      x = .ok a ∨ (x = .error .valueError ∨ x = .error .typeError) ∧ handler = a := by
  obtain e | b := x
  · cases e <;> simp [PyError.caught]
  · simp [PyError.caught]

theorem PyError.exists_caught {α : Type} {x : Except PyError α} {handler : α} :
    (∃ a, PyError.caught handler x = .ok a) ↔
      x ≠ .error .arithmeticError ∧ x ≠ .error .attributeError := by
  obtain e | b := x
  · cases e <;> simp [PyError.caught]
  · simp [PyError.caught]

inductive PyFloat
  | fin (x : ℚ)
  | inf (negative : Bool)
  | nan
  deriving DecidableEq

namespace PyFloat

/-- From here on a whole number has no float. -/
def limit : ℚ := 2 ^ 1024 - 2 ^ 970

/-- `float(j)`, where `parse` is the float of a text. -/
def ofJson (parse : String → Option PyFloat) : Json → Except PyError PyFloat
  | .num x => if |x| < limit then .ok (.fin x) else .error .arithmeticError
  | .bool b => .ok (.fin (if b then 1 else 0))
  | .str s => match parse s with
    | some f => .ok f
    | none => .error .valueError
  | .null | .arr _ | .obj _ => .error .typeError

/-- `f < 0` -/
def isNegative : PyFloat → Bool
  | .fin x => x < 0
  | .inf negative => negative
  | .nan => false

/-- `f + g` -/
def add : PyFloat → PyFloat → PyFloat
  | .fin x, .fin y => .fin (x + y)
  | .nan, _ | _, .nan => .nan
  | .inf a, .inf b => if a = b then .inf a else .nan
  | .inf a, .fin _ | .fin _, .inf a => .inf a

/-- `abs(f - g) > tolerance`; the difference of an infinity with itself is no number. -/
def apart (tolerance : ℚ) : PyFloat → PyFloat → Bool
  | .fin x, .fin y => tolerance < |x - y|
  | .nan, _ | _, .nan => false
  | .inf a, .inf b => a != b
  | .inf _, .fin _ | .fin _, .inf _ => true

/-- `Decimal(f) * Decimal(g)`; an infinity has no product with zero. -/
def times : PyFloat → PyFloat → Except PyError PyFloat
  | .fin x, .fin y => .ok (.fin (x * y))
  | .nan, _ | _, .nan => .ok .nan
  | .inf a, .inf b => .ok (.inf (a != b))
  | .inf a, .fin x | .fin x, .inf a =>
    if x = 0 then .error .arithmeticError else .ok (.inf (a != decide (x < 0)))

/-- `sum(fs)` -/
def sum (fs : List PyFloat) : PyFloat := fs.foldl add (.fin 0)

variable {parse : String → Option PyFloat}

theorem ofJson_ne_attributeError (j : Json) : ofJson parse j ≠ .error .attributeError := by
  cases j with
  | num x =>
    simp only [ofJson]
    split <;> simp
  | str s =>
    simp only [ofJson]
    split <;> simp
  | _ => simp [ofJson]

/-- What has a number and a float has the number for its float. -/
theorem ofJson_of_number {j : Json} {x : ℚ} {f : PyFloat} (hx : j.number = some x)
    (hf : ofJson parse j = .ok f) : f = .fin x := by
  cases j with
  | num y =>
    simp only [ofJson] at hf
    split at hf
    · cases hf
      cases hx
      rfl
    · cases hf
  | bool b =>
    cases hf
    cases hx
    rfl
  | _ => cases hx

theorem one_lt_limit : 1 < limit := by
  have hpow : (2 : ℚ) ^ 1024 = 2 ^ 970 * 2 ^ 54 := by rw [← pow_add]
  have hone : (1 : ℚ) ≤ 2 ^ 970 := one_le_pow₀ one_le_two
  rw [limit, hpow]
  generalize (2 : ℚ) ^ 970 = p at hone
  linarith

/-- A number has a float unless it is too large. -/
theorem lt_limit_iff {j : Json} {x : ℚ} (hx : j.number = some x) :
    |x| < limit ↔ ofJson parse j ≠ .error .arithmeticError := by
  cases j with
  | num y =>
    cases hx
    simp [ofJson]
  | bool b =>
    cases hx
    have hlt : |if b then (1 : ℚ) else 0| < limit := by
      have h := one_lt_limit
      cases b <;> simp <;> linarith
    simp [ofJson, hlt]
  | _ => cases hx

theorem sum_map_fin {α : Type} (f : α → ℚ) (l : List α) :
    sum (l.map fun a => .fin (f a)) = .fin (l.map f).sum := by
  have key : ∀ (l : List α) (x : ℚ),
      (l.map fun a => PyFloat.fin (f a)).foldl add (.fin x) = .fin (x + (l.map f).sum) := by
    intro l
    induction l with
    | nil =>
      intro x
      simp
    | cons a l ih =>
      intro x
      rw [List.map_cons, List.foldl_cons, List.map_cons, List.sum_cons, ← add_assoc]
      exact ih (x + f a)
  rw [sum, key, zero_add]

end PyFloat

end WorkTicket
