import Mathlib

/-! UTF-8 over lists of bytes: a strict decoder, and what it makes of ASCII bytes. -/

namespace WorkTicket.Utf8

abbrev Bytes := List UInt8

def encode (s : List Char) : Bytes := s.flatMap String.utf8EncodeChar

/-- `bytes.decode("utf-8")`. -/
def decode (bytes : Bytes) : Option (List Char) :=
  bytes.toByteArray.utf8Decode?.map Array.toList

theorem decode_encode (s : List Char) : decode (encode s) = some s := by
  change (s.utf8Encode.utf8Decode?).map Array.toList = some s
  rw [List.utf8Decode?_utf8Encode]
  rfl

theorem encode_of_decode {bytes : Bytes} {s : List Char} (h : decode bytes = some s) :
    encode s = bytes := by
  obtain ⟨chars, hchars, rfl⟩ := Option.map_eq_some_iff.mp h
  have hencode : (bytes.toByteArray.utf8Decode?.get (by simp [hchars])).toList.utf8Encode =
      bytes.toByteArray := ByteArray.utf8Encode_get_utf8Decode?
  simp only [hchars, Option.get_some] at hencode
  exact List.toByteArray_inj.mp hencode

theorem encode_injective : Function.Injective encode := by
  intro s t h
  have hs : some s = some t := by rw [← decode_encode s, h, decode_encode]
  exact Option.some.inj hs

@[simp] theorem encode_append (s t : List Char) : encode (s ++ t) = encode s ++ encode t :=
  List.flatMap_append

/-! ## ASCII -/

theorem encodeChar_ascii {c : Char} (h : c.toNat ≤ 0x7f) :
    String.utf8EncodeChar c = [UInt8.ofNat c.toNat] :=
  if_pos h

theorem ofNat_high {n : ℕ} (h : 0x80 ≤ n) (hbyte : n < 0x100) : 0x80 ≤ UInt8.ofNat n := by
  rw [UInt8.le_iff_toNat_le, UInt8.toNat_ofNat']
  exact h.trans_eq (Nat.mod_eq_of_lt hbyte).symm

theorem encodeChar_high {c : Char} (h : 0x7f < c.toNat) {b : UInt8}
    (hb : b ∈ String.utf8EncodeChar c) : 0x80 ≤ b := by
  have hhigh : ∀ n d k, 0 < d → 0x80 ≤ k → d + k ≤ 0x100 → 0x80 ≤ UInt8.ofNat (n % d + k) := by
    intro n d k hd hk hdk
    have hlt := Nat.mod_lt n hd
    exact ofNat_high (by omega) (by omega)
  have hascii : ¬c.val.toNat ≤ 0x7f := Nat.not_le.mpr h
  simp only [String.utf8EncodeChar, if_neg hascii] at hb
  split_ifs at hb
  · simp only [List.mem_cons, List.not_mem_nil, or_false] at hb
    rcases hb with rfl | rfl
    · exact hhigh _ 0x20 0xc0 (by decide) (by decide) (by decide)
    · exact hhigh _ 0x40 0x80 (by decide) (by decide) (by decide)
  · simp only [List.mem_cons, List.not_mem_nil, or_false] at hb
    rcases hb with rfl | rfl | rfl
    · exact hhigh _ 0x10 0xe0 (by decide) (by decide) (by decide)
    · exact hhigh _ 0x40 0x80 (by decide) (by decide) (by decide)
    · exact hhigh _ 0x40 0x80 (by decide) (by decide) (by decide)
  · simp only [List.mem_cons, List.not_mem_nil, or_false] at hb
    rcases hb with rfl | rfl | rfl | rfl
    · exact hhigh _ 0x08 0xf0 (by decide) (by decide) (by decide)
    · exact hhigh _ 0x40 0x80 (by decide) (by decide) (by decide)
    · exact hhigh _ 0x40 0x80 (by decide) (by decide) (by decide)
    · exact hhigh _ 0x40 0x80 (by decide) (by decide) (by decide)

theorem encode_ofNat {b : UInt8} (h : b < 0x80) : encode [Char.ofNat b.toNat] = [b] := by
  have hb : b.toNat < 0x80 := UInt8.lt_iff_toNat_lt.mp h
  have hnat : (Char.ofNat b.toNat).toNat = b.toNat := by
    rw [Char.toNat_ofNat, if_pos (.inl (by omega))]
  rw [encode, List.flatMap_singleton, encodeChar_ascii (by omega), hnat]
  simp

theorem decode_ascii {b : UInt8} (h : b < 0x80) : decode [b] = some [Char.ofNat b.toNat] := by
  rw [← encode_ofNat h, decode_encode]

theorem decode_high {b : UInt8} (h : 0x80 ≤ b) : decode [b] = none := by
  by_contra hsome
  obtain ⟨s, hs⟩ := Option.ne_none_iff_exists'.mp hsome
  have hencode := encode_of_decode hs
  cases s with
  | nil => cases hencode
  | cons c s =>
    have hlength := congrArg List.length hencode
    rw [encode, List.flatMap_cons, List.length_append, String.length_utf8EncodeChar,
      List.length_singleton] at hlength
    have hone : c.utf8Size = 1 := by
      have hpos := c.utf8Size_pos
      omega
    have hascii : c.toNat ≤ 0x7f :=
      UInt32.le_iff_toNat_le.mp (Char.utf8Size_eq_one_iff.mp hone)
    rw [encode, List.flatMap_cons, encodeChar_ascii hascii] at hencode
    injection hencode with hb
    have hle : (0x80 : UInt8).toNat ≤ (UInt8.ofNat c.toNat).toNat :=
      UInt8.le_iff_toNat_le.mp (hb ▸ h)
    rw [UInt8.toNat_ofNat', Nat.mod_eq_of_lt (by omega)] at hle
    exact absurd hle (Nat.not_le.mpr (Nat.lt_succ_of_le hascii))

/-- Bytes are replaced as the characters are. -/
theorem flatMap_encode {f : UInt8 → Bytes} {g : Char → List Char}
    (h : ∀ c, (String.utf8EncodeChar c).flatMap f = encode (g c)) (s : List Char) :
    (encode s).flatMap f = encode (s.flatMap g) := by
  simp only [encode, List.flatMap_assoc, h]

/-! ## Code points -/

/-- `text.encode()` of code points, which raises at a lone surrogate. -/
def encodeCodes (text : List ℕ) : Option Bytes :=
  if ∀ c ∈ text, c.isValidChar then some (encode (text.map Char.ofNat)) else none

def decodeCodes (bytes : Bytes) : Option (List ℕ) := (decode bytes).map (·.map Char.toNat)

theorem encodeCodes_of_valid {text : List ℕ} (h : ∀ c ∈ text, c.isValidChar) :
    encodeCodes text = some (encode (text.map Char.ofNat)) :=
  if_pos h

theorem decodeCodes_of_encodeCodes {text : List ℕ} {bytes : Bytes}
    (h : encodeCodes text = some bytes) : decodeCodes bytes = some text := by
  unfold encodeCodes at h
  split at h
  case isTrue hvalid =>
    obtain rfl := Option.some.inj h
    rw [decodeCodes, decode_encode, Option.map_some, List.map_map]
    have hnat : ∀ c ∈ text, (Char.toNat ∘ Char.ofNat) c = c := by
      intro c hc
      rw [Function.comp_apply, Char.toNat_ofNat, if_pos (hvalid c hc)]
    rw [List.map_congr_left hnat, List.map_id']
  case isFalse => cases h

theorem encodeCodes_ascii {bytes : Bytes} (h : ∀ b ∈ bytes, b < 0x80) :
    encodeCodes (bytes.map UInt8.toNat) = some bytes := by
  have hlt : ∀ b ∈ bytes, b.toNat < 0x80 := fun b hb => UInt8.lt_iff_toNat_lt.mp (h b hb)
  rw [encodeCodes_of_valid, List.map_map]
  · have hbytes : ∀ b ∈ bytes, String.utf8EncodeChar (Char.ofNat b.toNat) = [b] := by
      intro b hb
      rw [← encode_ofNat (h b hb), encode, List.flatMap_singleton]
    rw [encode, List.flatMap_map]
    refine congrArg some ?_
    induction bytes with
    | nil => rfl
    | cons b bytes ih =>
      rw [List.forall_mem_cons] at h hlt hbytes
      rw [List.flatMap_cons, ih h.2 hlt.2 hbytes.2, Function.comp_apply, hbytes.1,
        List.singleton_append]
  · intro c hc
    obtain ⟨b, hb, rfl⟩ := List.mem_map.mp hc
    exact .inl ((hlt b hb).trans (by decide))

/-- ASCII in front of a text is itself in front of its bytes. -/
theorem encodeCodes_append_ascii {bytes : Bytes} (h : ∀ b ∈ bytes, b < 0x80) (text : List ℕ) :
    encodeCodes (bytes.map UInt8.toNat ++ text) = (encodeCodes text).map (bytes ++ ·) := by
  have hfront := encodeCodes_ascii h
  unfold encodeCodes at hfront ⊢
  split_ifs at hfront with hvalid
  have hbytes := Option.some.inj hfront
  by_cases htext : ∀ c ∈ text, c.isValidChar
  · rw [if_pos (List.forall_mem_append.mpr ⟨hvalid, htext⟩), if_pos htext, List.map_append,
      encode_append, hbytes, Option.map_some]
  · rw [if_neg fun hall => htext (List.forall_mem_append.mp hall).2, if_neg htext, Option.map_none]

theorem decodeCodes_ascii {bytes : Bytes} (h : ∀ b ∈ bytes, b < 0x80) :
    decodeCodes bytes = some (bytes.map UInt8.toNat) :=
  decodeCodes_of_encodeCodes (encodeCodes_ascii h)

end WorkTicket.Utf8
