import WorkTicket.Foundation.Utf8

/-! Base64 over lists of bytes, for any alphabet: the encoder, and a decoder that skips what is not
in the alphabet and stops at the padding of a group. -/

namespace WorkTicket.Base64

open WorkTicket.Utf8 (Bytes)

def pad : UInt8 := 0x3d

/-- The bytes of the sixty-four digits, none of them the padding, and how they are read. -/
structure Alphabet where
  digit : ℕ → UInt8
  value : UInt8 → Option ℕ
  value_digit : ∀ i < 64, value (digit i) = some i
  digit_ascii : ∀ i < 64, digit i < 0x80
  digit_ne_pad : ∀ i < 64, digit i ≠ pad

def standardDigit (i : ℕ) : UInt8 :=
  if i < 26 then UInt8.ofNat (i + 0x41)
  else if i < 52 then UInt8.ofNat (i - 26 + 0x61)
  else if i < 62 then UInt8.ofNat (i - 52 + 0x30)
  else if i = 62 then 0x2b
  else 0x2f

def standardValue (b : UInt8) : Option ℕ :=
  if 0x41 ≤ b ∧ b ≤ 0x5a then some (b.toNat - 0x41)
  else if 0x61 ≤ b ∧ b ≤ 0x7a then some (b.toNat - 0x61 + 26)
  else if 0x30 ≤ b ∧ b ≤ 0x39 then some (b.toNat - 0x30 + 52)
  else if b = 0x2b then some 62
  else if b = 0x2f then some 63
  else none

def standard : Alphabet where
  digit := standardDigit
  value := standardValue
  value_digit := by decide
  digit_ascii := by decide
  digit_ne_pad := by decide

/-- The digits of the bytes, without padding. -/
def digits : Bytes → List ℕ
  | [] => []
  | [a] => [a.toNat / 4, a.toNat % 4 * 16]
  | [a, b] => [a.toNat / 4, a.toNat % 4 * 16 + b.toNat / 16, b.toNat % 16 * 4]
  | a :: b :: c :: bytes =>
    a.toNat / 4 :: (a.toNat % 4 * 16 + b.toNat / 16) :: (b.toNat % 16 * 4 + c.toNat / 64) ::
      c.toNat % 64 :: digits bytes

def padding (bytes : Bytes) : ℕ := (3 - bytes.length % 3) % 3

/-- `b64encode`. -/
def encode (α : Alphabet) (bytes : Bytes) : Bytes :=
  (digits bytes).map α.digit ++ List.replicate (padding bytes) pad

/-- How far a group of four digits has been read, with the bits that are left of its last digit. -/
inductive Group
  | none
  | one (bits : ℕ)
  | two (bits : ℕ)
  | three (bits : ℕ)
  deriving DecidableEq, Repr

/-- `b64decode` from inside a group; `pads` counts the padding that followed its last digit. It
raises if the text ends within a group. -/
def decodeFrom (α : Alphabet) : Group → ℕ → Bytes → Option Bytes
  | .none, _, [] => some []
  | _, _, [] => none
  | group, pads, b :: bytes =>
    if b = pad then
      match group with
      | .two _ => if 1 ≤ pads then some [] else decodeFrom α group (pads + 1) bytes
      | .three _ => some []
      | _ => decodeFrom α group pads bytes
    else
      match α.value b with
      | none => decodeFrom α group pads bytes
      | some i =>
        match group with
        | .none => decodeFrom α (.one i) 0 bytes
        | .one bits =>
          (decodeFrom α (.two (i % 16)) 0 bytes).map (UInt8.ofNat (bits * 4 + i / 16) :: ·)
        | .two bits =>
          (decodeFrom α (.three (i % 4)) 0 bytes).map (UInt8.ofNat (bits * 16 + i / 4) :: ·)
        | .three bits => (decodeFrom α .none 0 bytes).map (UInt8.ofNat (bits * 64 + i) :: ·)

attribute [grind =] decodeFrom

def decode (α : Alphabet) (bytes : Bytes) : Option Bytes := decodeFrom α .none 0 bytes

variable {α : Alphabet}

theorem digits_lt (bytes : Bytes) : ∀ i ∈ digits bytes, i < 64 := by
  induction bytes using digits.induct with
  | case1 => exact fun i hi => absurd hi List.not_mem_nil
  | case2 a =>
    have ha := a.toNat_lt
    simp only [digits, List.forall_mem_cons, List.not_mem_nil, false_imp_iff, implies_true, and_true]
    omega
  | case3 a b =>
    have ha := a.toNat_lt
    have hb := b.toNat_lt
    simp only [digits, List.forall_mem_cons, List.not_mem_nil, false_imp_iff, implies_true, and_true]
    omega
  | case4 a b c bytes ih =>
    have ha := a.toNat_lt
    have hb := b.toNat_lt
    have hc := c.toNat_lt
    simp only [digits, List.forall_mem_cons]
    refine ⟨by omega, by omega, by omega, by omega, ih⟩

theorem decodeFrom_digit {i : ℕ} (hi : i < 64) (group : Group) (pads : ℕ) (bytes : Bytes) :
    decodeFrom α group pads (α.digit i :: bytes) =
      match group with
      | .none => decodeFrom α (.one i) 0 bytes
      | .one bits =>
        (decodeFrom α (.two (i % 16)) 0 bytes).map (UInt8.ofNat (bits * 4 + i / 16) :: ·)
      | .two bits =>
        (decodeFrom α (.three (i % 4)) 0 bytes).map (UInt8.ofNat (bits * 16 + i / 4) :: ·)
      | .three bits => (decodeFrom α .none 0 bytes).map (UInt8.ofNat (bits * 64 + i) :: ·) := by
  cases group <;> simp only [decodeFrom, if_neg (α.digit_ne_pad i hi), α.value_digit i hi]

/-- Padding between groups is skipped. -/
theorem decodeFrom_pads (pads n : ℕ) : decodeFrom α .none pads (List.replicate n pad) = some [] := by
  induction n with
  | zero => rfl
  | succ n ih =>
    simpa only [List.replicate_succ, decodeFrom, if_true] using ih

theorem padding_group (a b c : UInt8) (bytes : Bytes) :
    padding (a :: b :: c :: bytes) = padding bytes := by
  simp only [padding, List.length_cons]
  omega

/-- The decoder finds the bytes again if there is padding enough for the last group. -/
theorem decodeFrom_digits (bytes : Bytes) {n : ℕ} (hn : padding bytes ≤ n) :
    decodeFrom α .none 0 ((digits bytes).map α.digit ++ List.replicate n pad) = some bytes := by
  induction bytes using digits.induct with
  | case1 => exact decodeFrom_pads 0 n
  | case2 a =>
    have ha := a.toNat_lt
    obtain ⟨n, rfl⟩ : ∃ m, n = m + 2 := ⟨n - 2, by simp [padding] at hn; omega⟩
    have hbyte : a.toNat / 4 * 4 + a.toNat % 4 * 16 / 16 = a.toNat := by omega
    simp only [digits, List.map_cons, List.map_nil, List.cons_append, List.nil_append]
    rw [decodeFrom_digit (by omega), decodeFrom_digit (by omega)]
    simp only [hbyte, List.replicate_succ, decodeFrom, if_true]
    simp
  | case3 a b =>
    have ha := a.toNat_lt
    have hb := b.toNat_lt
    obtain ⟨n, rfl⟩ : ∃ m, n = m + 1 := ⟨n - 1, by simp [padding] at hn; omega⟩
    have hfirst : a.toNat / 4 * 4 + (a.toNat % 4 * 16 + b.toNat / 16) / 16 = a.toNat := by omega
    have hsecond : (a.toNat % 4 * 16 + b.toNat / 16) % 16 * 16 + b.toNat % 16 * 4 / 4 = b.toNat := by
      omega
    simp only [digits, List.map_cons, List.map_nil, List.cons_append, List.nil_append]
    rw [decodeFrom_digit (by omega), decodeFrom_digit (by omega)]
    simp only
    rw [decodeFrom_digit (by omega)]
    simp only [hfirst, hsecond, List.replicate_succ, decodeFrom, if_true]
    simp
  | case4 a b c bytes ih =>
    have ha := a.toNat_lt
    have hb := b.toNat_lt
    have hc := c.toNat_lt
    have hfirst : a.toNat / 4 * 4 + (a.toNat % 4 * 16 + b.toNat / 16) / 16 = a.toNat := by omega
    have hsecond : (a.toNat % 4 * 16 + b.toNat / 16) % 16 * 16 +
        (b.toNat % 16 * 4 + c.toNat / 64) / 4 = b.toNat := by
      omega
    have hthird : (b.toNat % 16 * 4 + c.toNat / 64) % 4 * 64 + c.toNat % 64 = c.toNat := by omega
    rw [padding_group] at hn
    simp only [digits, List.map_cons, List.cons_append]
    rw [decodeFrom_digit (by omega), decodeFrom_digit (by omega)]
    simp only
    rw [decodeFrom_digit (by omega)]
    simp only
    rw [decodeFrom_digit (by omega)]
    simp only [hfirst, hsecond, hthird, ih hn]
    simp

theorem decode_encode (bytes : Bytes) : decode α (encode α bytes) = some bytes :=
  decodeFrom_digits bytes le_rfl

/-- The digits of the last group tell how much padding it has. -/
theorem padding_le (bytes : Bytes) : padding bytes ≤ 4 - (digits bytes).length % 4 := by
  induction bytes using digits.induct with
  | case1 => decide
  | case2 a => exact le_rfl
  | case3 a b => exact le_rfl
  | case4 a b c bytes ih =>
    rw [padding_group]
    simp only [digits, List.length_cons]
    omega

end WorkTicket.Base64
