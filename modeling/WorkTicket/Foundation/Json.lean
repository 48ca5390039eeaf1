import Mathlib

/-! JSON values as Python reads them: truth, `get` and item access of an object. -/

namespace WorkTicket

inductive Json
  | null
  | bool (b : Bool)
  | num (x : ℚ)
  | str (s : String)
  | arr (items : List Json)
  | obj (fields : List (String × Json))

namespace Json

mutual

def decEq : (a b : Json) → Decidable (a = b)
  | .null, .null => .isTrue rfl
  | .bool a, .bool b => decidable_of_iff (a = b) (by simp)
  | .num a, .num b => decidable_of_iff (a = b) (by simp)
  | .str a, .str b => decidable_of_iff (a = b) (by simp)
  | .arr a, .arr b => @decidable_of_iff _ (a = b) (by simp) (decEqItems a b)
  | .obj a, .obj b => @decidable_of_iff _ (a = b) (by simp) (decEqFields a b)
  | .null, .bool _ | .null, .num _ | .null, .str _ | .null, .arr _ | .null, .obj _
  | .bool _, .null | .bool _, .num _ | .bool _, .str _ | .bool _, .arr _ | .bool _, .obj _
  | .num _, .null | .num _, .bool _ | .num _, .str _ | .num _, .arr _ | .num _, .obj _
  | .str _, .null | .str _, .bool _ | .str _, .num _ | .str _, .arr _ | .str _, .obj _
  | .arr _, .null | .arr _, .bool _ | .arr _, .num _ | .arr _, .str _ | .arr _, .obj _
  | .obj _, .null | .obj _, .bool _ | .obj _, .num _ | .obj _, .str _ | .obj _, .arr _ =>
    .isFalse (by simp)

def decEqItems : (a b : List Json) → Decidable (a = b)
  | [], [] => .isTrue rfl
  | [], _ :: _ | _ :: _, [] => .isFalse (by simp)
  | x :: a, y :: b =>
    @decidable_of_iff _ (x = y ∧ a = b) (by simp) (@instDecidableAnd _ _ (decEq x y) (decEqItems a b))

def decEqFields : (a b : List (String × Json)) → Decidable (a = b)
  | [], [] => .isTrue rfl
  | [], _ :: _ | _ :: _, [] => .isFalse (by simp)
  | (k, x) :: a, (l, y) :: b =>
    @decidable_of_iff _ (k = l ∧ x = y ∧ a = b) (by simp [and_assoc])
      (@instDecidableAnd _ _ (inferInstance : Decidable (k = l))
        (@instDecidableAnd _ _ (decEq x y) (decEqFields a b)))

end

instance : DecidableEq Json := decEq

/-- `bool(j)`. -/
def truthy : Json → Bool
  | .null => false
  | .bool b => b
  | .num x => x ≠ 0
  | .str s => s ≠ ""
  | .arr items => !items.isEmpty
  | .obj fields => !fields.isEmpty

/-- `j.get(key, default)`; only an object has the method. -/
def get (j : Json) (key : String) (default : Json) : Option Json :=
  match j with
  | .obj fields => some ((fields.lookup key).getD default)
  | _ => none

def item (j : Json) (key : String) : Option Json :=
  match j with
  | .obj fields => fields.lookup key
  | _ => none

/-- The number Python computes with; a truth value counts as 0 or 1. -/
def number : Json → Option ℚ
  | .num x => some x
  | .bool b => some (if b then 1 else 0)
  | _ => none

def text : Json → Option String
  | .str s => some s
  | _ => none

/-- What a `for` loop over the value runs through. -/
def elements : Json → Option (List Json)
  | .arr items => some items
  | .obj fields => some (fields.map fun field => .str field.1)
  | .str s => some (s.toList.map fun c => .str (String.singleton c))
  | _ => none

theorem text_eq_some {j : Json} {s : String} : j.text = some s ↔ j = .str s := by
  cases j <;> simp [text]

end Json

end WorkTicket
