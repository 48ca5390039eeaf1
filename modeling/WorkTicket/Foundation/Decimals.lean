import Mathlib

/-! Columns of decimals with a fixed scale: every write is rounded to the scale, a tie away
from zero, and a value with too many digits before the point is an error. -/

namespace WorkTicket.Decimals

def roundAway (x : ℚ) : ℤ := if 0 ≤ x then round x else -round (-x)

/-- The nearest integer, of a tie the smaller one. -/
def roundDown (x : ℚ) : ℤ := -round (-x)

theorem roundAway_intCast (n : ℤ) : roundAway n = n := by
  have hneg : -round (-(n : ℚ)) = n := by rw [← Int.cast_neg, round_intCast, neg_neg]
  simp only [roundAway, round_intCast, hneg, ite_self]

theorem roundAway_nonneg {x : ℚ} (h : 0 ≤ x) : 0 ≤ roundAway x := by
  rw [roundAway, if_pos h, round_eq]
  exact Int.floor_nonneg.mpr (by linarith)

/-- The two roundings part at the ties. -/
theorem round_eq_roundDown (x : ℚ) :
    round x = roundDown x + if Int.fract x = 1 / 2 then 1 else 0 := by
  have hdown : roundDown x = ⌈x - 1 / 2⌉ := by
    rw [roundDown, round_eq, ← Int.ceil_neg]
    ring_nf
  rw [hdown, round_eq]
  have hx : x = ⌊x⌋ + Int.fract x := (Int.floor_add_fract x).symm
  have h0 := Int.fract_nonneg x
  have h1 := Int.fract_lt_one x
  rcases lt_trichotomy (Int.fract x) (1 / 2) with hlt | heq | hgt
  · have hfloor : ⌊x + 1 / 2⌋ = ⌊x⌋ := Int.floor_eq_iff.mpr ⟨by linarith, by linarith⟩
    have hceil : ⌈x - 1 / 2⌉ = ⌊x⌋ := Int.ceil_eq_iff.mpr ⟨by linarith, by linarith⟩
    rw [hfloor, hceil, if_neg hlt.ne, add_zero]
  · have hfloor : ⌊x + 1 / 2⌋ = ⌊x⌋ + 1 :=
      Int.floor_eq_iff.mpr ⟨by push_cast; linarith, by push_cast; linarith⟩
    have hceil : ⌈x - 1 / 2⌉ = ⌊x⌋ := Int.ceil_eq_iff.mpr ⟨by linarith, by linarith⟩
    rw [hfloor, hceil, if_pos heq]
  · have hfloor : ⌊x + 1 / 2⌋ = ⌊x⌋ + 1 :=
      Int.floor_eq_iff.mpr ⟨by push_cast; linarith, by push_cast; linarith⟩
    have hceil : ⌈x - 1 / 2⌉ = ⌊x⌋ + 1 :=
      Int.ceil_eq_iff.mpr ⟨by push_cast; linarith, by push_cast; linarith⟩
    rw [hfloor, hceil, if_neg hgt.ne', add_zero]

theorem roundAway_intCast_add (n : ℤ) (x : ℚ) :
    roundAway (n + x) = n + if 0 ≤ n + x then round x else roundDown x := by
  unfold roundAway roundDown
  split
  · exact round_intCast_add x n
  · have hneg : -((n : ℚ) + x) = -x - n := by ring
    rw [hneg, round_sub_intCast]
    ring

/-! ## Columns -/

/-- `NUMERIC(precision, scale)`. -/
structure Column where
  precision : ℕ
  scale : ℕ

namespace Column

variable (c : Column)

def unit : ℚ := (10 ^ c.scale)⁻¹

theorem unit_pos : 0 < c.unit := by
  unfold unit
  positivity

def rounded (x : ℚ) : ℚ := roundAway (x / c.unit) * c.unit

def store (x : ℚ) : Option ℚ :=
  if |c.rounded x| < 10 ^ (c.precision - c.scale) then some (c.rounded x) else none

/-- Halfway between two values of the column. -/
def Midpoint (x : ℚ) : Prop := Int.fract (x / c.unit) = 1 / 2

instance : DecidablePred c.Midpoint := fun _ => inferInstanceAs (Decidable (_ = _))

/-- A number that has no more decimals than the column. -/
def OnScale (x : ℚ) : Prop := ∃ n : ℤ, x = n * c.unit

def roundedDown (x : ℚ) : ℚ := roundDown (x / c.unit) * c.unit

variable {c} {x y : ℚ}

theorem onScale_rounded : c.OnScale (c.rounded x) := ⟨roundAway (x / c.unit), rfl⟩

theorem OnScale.rounded (h : c.OnScale x) : c.rounded x = x := by
  obtain ⟨n, rfl⟩ := h
  rw [Column.rounded, mul_div_cancel_right₀ _ c.unit_pos.ne', roundAway_intCast]

theorem rounded_nonneg (h : 0 ≤ x) : 0 ≤ c.rounded x := by
  have hnonneg := roundAway_nonneg (div_nonneg h c.unit_pos.le)
  exact mul_nonneg (by exact_mod_cast hnonneg) c.unit_pos.le

theorem OnScale.unit_le (h : c.OnScale x) (hpos : 0 < x) : c.unit ≤ x := by
  obtain ⟨n, rfl⟩ := h
  have hn : 0 < n := by exact_mod_cast pos_of_mul_pos_left hpos c.unit_pos.le
  have hone : (1 : ℚ) ≤ n := by exact_mod_cast hn
  exact le_mul_of_one_le_left c.unit_pos.le hone

theorem roundedDown_eq_zero (h : 0 ≤ x) : c.roundedDown x = 0 ↔ x ≤ c.unit / 2 := by
  have hu := c.unit_pos
  have hle : x / c.unit ≤ 1 / 2 ↔ x ≤ c.unit / 2 := by rw [div_le_iff₀ hu]; ring_nf
  rw [roundedDown, mul_eq_zero_iff_right hu.ne', Int.cast_eq_zero, roundDown, neg_eq_zero, round_eq,
    Int.floor_eq_zero_iff, ← hle]
  constructor
  · intro hmem
    linarith [hmem.1]
  · intro hhalf
    have hnonneg := div_nonneg h hu.le
    constructor <;> linarith

theorem store_eq_some : c.store x = some y ↔
    c.rounded x = y ∧ |y| < 10 ^ (c.precision - c.scale) := by
  unfold store
  split
  · rename_i hfits
    constructor
    · intro h
      cases h
      exact ⟨rfl, hfits⟩
    · rintro ⟨rfl, -⟩
      rfl
  · rename_i hfits
    constructor
    · exact nofun
    · rintro ⟨rfl, h⟩
      exact absurd h hfits

theorem rounded_add (h : c.OnScale y) (x : ℚ) : c.rounded (y + x) =
    y + c.roundedDown x + if c.Midpoint x ∧ 0 ≤ y + x then c.unit else 0 := by
  obtain ⟨n, rfl⟩ := h
  have hu := c.unit_pos
  have hdiv : (n * c.unit + x) / c.unit = n + x / c.unit := by
    rw [add_div, mul_div_cancel_right₀ _ hu.ne']
  have hsign : 0 ≤ n + x / c.unit ↔ 0 ≤ n * c.unit + x := by
    rw [← hdiv, le_div_iff₀ hu, zero_mul]
  rw [rounded, hdiv, roundAway_intCast_add, round_eq_roundDown, roundedDown]
  simp only [hsign, Midpoint]
  by_cases hmid : Int.fract (x / c.unit) = 1 / 2 <;> by_cases hpos : 0 ≤ n * c.unit + x <;>
    simp only [hmid, hpos, if_true, if_false, and_true, and_false] <;>
    push_cast <;> ring

/-- What is left of a value stays at least zero, so its ties go up. -/
theorem rounded_sub (h : c.OnScale y) (hle : x ≤ y) : c.rounded (y - x) = y - c.roundedDown x := by
  obtain ⟨n, rfl⟩ := h
  have hu := c.unit_pos
  have hdiv : (n * c.unit - x) / c.unit = n + -(x / c.unit) := by
    rw [sub_div, mul_div_cancel_right₀ _ hu.ne', sub_eq_add_neg]
  have hsign : 0 ≤ n + -(x / c.unit) := by
    rw [← hdiv]
    exact div_nonneg (by linarith) hu.le
  rw [rounded, hdiv, roundAway_intCast_add, if_pos hsign, roundedDown, roundDown]
  push_cast
  ring

end Column

end WorkTicket.Decimals
