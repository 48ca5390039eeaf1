import WorkTicket.Foundation.Base64
import WorkTicket.Foundation.Fallible
import WorkTicket.Foundation.TextSplits

/-! The cursors of the analytics pages: a time and the id of an item in one text, and how they are
read again. -/

namespace WorkTicket.Analytics.Cursors

/-! ## The code -/

/-- Code points, among which there can be lone surrogates. -/
abbrev Text := List ℕ

def codes (s : List Char) : Text := s.map Char.toNat

inductive Exc
  | valueError (text : Text)
  | unicodeEncodeError
  | unicodeDecodeError
  | binasciiError
  | other (name : String)
  deriving DecidableEq, Repr

/-- The offset from UTC is in microseconds; a naive time has none. -/
structure DateTime where
  year : ℕ
  month : ℕ
  day : ℕ
  hour : ℕ
  minute : ℕ
  second : ℕ
  microsecond : ℕ
  utcoffset : Option ℤ
  deriving DecidableEq, Repr

/-- `%0{width}d`. -/
def padded (width n : ℕ) : List Char :=
  let digits := Nat.toDigits 10 n
  List.replicate (width - digits.length) '0' ++ digits

def formatOffset : Option ℤ → List Char
  | none => []
  | some offset =>
    let micros := offset.natAbs
    let seconds := micros / 1000000
    (if offset < 0 then '-' else '+') :: padded 2 (seconds / 3600) ++
      ':' :: padded 2 (seconds / 60 % 60) ++
      (if micros % 60000000 = 0 then [] else ':' :: padded 2 (seconds % 60)) ++
      if micros % 1000000 = 0 then [] else '.' :: padded 6 (micros % 1000000)

def DateTime.isoformat (t : DateTime) : Text :=
  codes (padded 4 t.year ++ '-' :: padded 2 t.month ++ '-' :: padded 2 t.day ++
    'T' :: padded 2 t.hour ++ ':' :: padded 2 t.minute ++ ':' :: padded 2 t.second ++
    (if t.microsecond = 0 then [] else '.' :: padded 6 t.microsecond) ++ formatOffset t.utcoffset)

inductive ItemId
  | str (text : Text)
  | int (n : ℤ)
  deriving DecidableEq, Repr

/-- `f"{item_id}"`, which raises for an `int` of more than 4300 digits. -/
def ItemId.text : ItemId → Except Exc Text
  | .str text => .ok text
  | .int n =>
    let digits := Nat.toDigits 10 n.natAbs
    if 4300 < digits.length then
      .error (.valueError (codes ("Exceeds the limit (4300 digits) for integer string conversion; " ++
        "use sys.set_int_max_str_digits() to increase the limit").toList))
    else .ok (codes ((if n < 0 then ['-'] else []) ++ digits))

/-- What is used of the standard library besides its codecs. -/
structure Python where
  fromisoformat : Text → Except Exc DateTime
  str : Exc → Text

def bar : ℕ := 0x7c

def equalsSign : ℕ := 0x3d

/-- `+` and `/` of the standard alphabet are `-` and `_`. -/
def urlsafeDigit (i : ℕ) : UInt8 :=
  if i = 62 then 0x2d else if i = 63 then 0x5f else Base64.standardDigit i

/-- `-` and `_` are translated back, and `+` and `/` are still digits. -/
def urlsafeValue (b : UInt8) : Option ℕ :=
  if b = 0x2d then some 62 else if b = 0x5f then some 63 else Base64.standardValue b

def urlsafe : Base64.Alphabet where
  digit := urlsafeDigit
  value := urlsafeValue
  value_digit := by decide
  digit_ascii := by decide
  digit_ne_pad := by decide

/-- `text.encode()`. -/
def encodeText (text : Text) : Except Exc Utf8.Bytes :=
  match Utf8.encodeCodes text with
  | some bytes => .ok bytes
  | none => .error .unicodeEncodeError

/-- `bytes.decode()`. -/
def decodeText (bytes : Utf8.Bytes) : Except Exc Text :=
  match Utf8.decodeCodes bytes with
  | some text => .ok text
  | none => .error .unicodeDecodeError

def urlsafeB64decode (bytes : Utf8.Bytes) : Except Exc Utf8.Bytes :=
  match Base64.decode urlsafe bytes with
  | some bytes => .ok bytes
  | none => .error .binasciiError

def encodeCursor (timestamp : DateTime) (itemId : ItemId) : Except Exc Text := do
  let text ← itemId.text
  let raw ← encodeText (timestamp.isoformat ++ bar :: text)
  let cursor ← decodeText (Base64.encode urlsafe raw)
  .ok (cursor.rdropWhile (· = equalsSign))

/-- What stands under the `try` of `decode_cursor`. -/
def readCursor (python : Python) (cursor : Text) : Except Exc (Option DateTime × Text) := do
  let cursor := cursor ++ List.replicate (4 - cursor.length % 4) equalsSign
  let bytes ← encodeText cursor
  let bytes ← urlsafeB64decode bytes
  let raw ← decodeText bytes
  match TextSplits.splitLast bar raw with
  | none => .error (.valueError (codes "Invalid cursor format: ".toList ++ raw))
  | some (first, last) =>
    if first = [] then .ok (none, last)
    else do
      let ts ← python.fromisoformat first
      .ok (some ts, last)

def decodeCursor (python : Python) (cursor : Text) : Except Exc (Option DateTime × Text) :=
  match readCursor python cursor with
  | .ok parts => .ok parts
  | .error e => .error (.valueError (codes "Invalid cursor: ".toList ++ python.str e))

/-! ## Reading a cursor again -/

/-- The text has no lone surrogate, so it can be encoded. -/
def Encodable (text : Text) : Prop := ∀ c ∈ text, c.isValidChar

/-- The time and the text of the id are in the cursor, for ids whose text meets `Suits`, and reading
raises nothing but `ValueError`. -/
structure Reversible (python : Python) (Suits : Text → Prop) : Prop where
  decode_encode : ∀ (t : DateTime) (itemId : ItemId) (text : Text),
    python.fromisoformat t.isoformat = .ok t → itemId.text = .ok text → bar ∉ text → Suits text →
      ∃ cursor, encodeCursor t itemId = .ok cursor ∧
        decodeCursor python cursor = .ok (some t, text)
  encode_injective : ∀ (t t' : DateTime) (itemId itemId' : ItemId) (text text' : Text),
    python.fromisoformat t.isoformat = .ok t → python.fromisoformat t'.isoformat = .ok t' →
      itemId.text = .ok text → itemId'.text = .ok text' → bar ∉ text → bar ∉ text' →
      Suits text → Suits text' → encodeCursor t itemId = encodeCursor t' itemId' →
      t = t' ∧ text = text'
  decode_raises : ∀ (cursor : Text) (e : Exc), decodeCursor python cursor = .error e →
    ∃ text, e = .valueError text

variable {python : Python} {t : DateTime} {itemId : ItemId} {text : Text} {bytes : Utf8.Bytes}

theorem codes_valid (s : List Char) : ∀ c ∈ codes s, c.isValidChar := by
  intro c hc
  obtain ⟨char, -, rfl⟩ := List.mem_map.mp hc
  exact char.valid

theorem isoformat_ne_nil (t : DateTime) : t.isoformat ≠ [] := by
  simp [DateTime.isoformat, codes]

theorem rdropWhile_replicate (text : Text) (c n : ℕ) :
    (text ++ List.replicate n c).rdropWhile (· = c) = text.rdropWhile (· = c) := by
  induction n with
  | zero => rw [List.replicate_zero, List.append_nil]
  | succ n ih =>
    rw [List.replicate_succ', ← List.append_assoc, List.rdropWhile_concat_pos _ _ _ (by simp), ih]

/-- The bytes of the digits, as they stand in a cursor. -/
def cursorDigits (bytes : Utf8.Bytes) : Utf8.Bytes := (Base64.digits bytes).map urlsafeDigit

theorem cursorDigits_ascii (bytes : Utf8.Bytes) : ∀ b ∈ cursorDigits bytes, b < 0x80 := by
  intro b hb
  obtain ⟨i, hi, rfl⟩ := List.mem_map.mp hb
  exact urlsafe.digit_ascii i (Base64.digits_lt bytes i hi)

theorem padded_ascii (bytes : Utf8.Bytes) (n : ℕ) :
    ∀ b ∈ cursorDigits bytes ++ List.replicate n Base64.pad, b < 0x80 := by
  intro b hb
  rcases List.mem_append.mp hb with hb | hb
  · exact cursorDigits_ascii bytes b hb
  · obtain rfl := List.eq_of_mem_replicate hb
    decide

theorem padded_codes (bytes : Utf8.Bytes) (n : ℕ) :
    (cursorDigits bytes ++ List.replicate n Base64.pad).map UInt8.toNat =
      (cursorDigits bytes).map UInt8.toNat ++ List.replicate n equalsSign := by
  rw [List.map_append, List.map_replicate]
  rfl

/-- Nothing but the padding is stripped. -/
theorem rdropWhile_cursorDigits (bytes : Utf8.Bytes) :
    ((cursorDigits bytes).map UInt8.toNat).rdropWhile (· = equalsSign) =
      (cursorDigits bytes).map UInt8.toNat := by
  rw [List.rdropWhile_eq_self_iff]
  intro hne
  obtain ⟨b, hb, hlast⟩ := List.mem_map.mp (List.getLast_mem hne)
  obtain ⟨i, hi, rfl⟩ := List.mem_map.mp hb
  rw [← hlast, decide_eq_true_eq]
  exact fun h => urlsafe.digit_ne_pad i (Base64.digits_lt bytes i hi) (UInt8.toNat_inj.mp h)

theorem decodeText_encode (bytes : Utf8.Bytes) : decodeText (Base64.encode urlsafe bytes) =
    .ok ((cursorDigits bytes).map UInt8.toNat ++
      List.replicate (Base64.padding bytes) equalsSign) := by
  have hcodes := Utf8.decodeCodes_ascii (padded_ascii bytes (Base64.padding bytes))
  rw [padded_codes] at hcodes
  simp only [decodeText, Base64.encode]
  change (match Utf8.decodeCodes (cursorDigits bytes ++ _) with
    | some text => Except.ok text
    | none => .error Exc.unicodeDecodeError) = _
  rw [hcodes]

theorem encodeText_padded (bytes : Utf8.Bytes) (n : ℕ) :
    encodeText ((cursorDigits bytes).map UInt8.toNat ++ List.replicate n equalsSign) =
      .ok (cursorDigits bytes ++ List.replicate n Base64.pad) := by
  rw [← padded_codes, encodeText, Utf8.encodeCodes_ascii (padded_ascii bytes n)]

theorem encodeText_raw (hvalid : Encodable text) :
    ∃ raw, encodeText (t.isoformat ++ bar :: text) = .ok raw ∧
      decodeText raw = .ok (t.isoformat ++ bar :: text) := by
  have hraw : ∀ c ∈ t.isoformat ++ bar :: text, c.isValidChar := by
    intro c hc
    rw [List.mem_append, List.mem_cons] at hc
    rcases hc with hc | rfl | hc
    · exact codes_valid _ c hc
    · decide
    · exact hvalid c hc
  have hencode := Utf8.encodeCodes_of_valid hraw
  exact ⟨_, by rw [encodeText, hencode],
    by rw [decodeText, Utf8.decodeCodes_of_encodeCodes hencode]⟩

theorem encodeCursor_eq {raw : Utf8.Bytes} (htext : itemId.text = .ok text)
    (hraw : encodeText (t.isoformat ++ bar :: text) = .ok raw) :
    encodeCursor t itemId = .ok ((cursorDigits raw).map UInt8.toNat) := by
  have hstrip := (rdropWhile_replicate ((cursorDigits raw).map UInt8.toNat) equalsSign
    (Base64.padding raw)).trans (rdropWhile_cursorDigits raw)
  simp only [encodeCursor, htext, Fallible.ok_bind, hraw, decodeText_encode, hstrip]

/-- The padding that is put on again is enough for the last group. -/
theorem urlsafeB64decode_padded (bytes : Utf8.Bytes) :
    urlsafeB64decode (cursorDigits bytes ++
      List.replicate (4 - (cursorDigits bytes).length % 4) Base64.pad) = .ok bytes := by
  have hlength : (cursorDigits bytes).length = (Base64.digits bytes).length := List.length_map _
  have hdecode : Base64.decode urlsafe (cursorDigits bytes ++
      List.replicate (4 - (cursorDigits bytes).length % 4) Base64.pad) = some bytes :=
    Base64.decodeFrom_digits bytes (hlength ▸ Base64.padding_le bytes)
  rw [urlsafeB64decode, hdecode]

theorem decodeCursor_eq {raw : Utf8.Bytes} (hiso : python.fromisoformat t.isoformat = .ok t)
    (hbar : bar ∉ text) (hraw : decodeText raw = .ok (t.isoformat ++ bar :: text)) :
    decodeCursor python ((cursorDigits raw).map UInt8.toNat) = .ok (some t, text) := by
  have hread : readCursor python ((cursorDigits raw).map UInt8.toNat) = .ok (some t, text) := by
    simp only [readCursor, List.length_map, encodeText_padded, Fallible.ok_bind,
      urlsafeB64decode_padded, hraw, TextSplits.splitLast_append _ hbar,
      if_neg (isoformat_ne_nil t), hiso]
  rw [decodeCursor, hread]

theorem decode_encode (hiso : python.fromisoformat t.isoformat = .ok t)
    (htext : itemId.text = .ok text) (hbar : bar ∉ text) (hvalid : Encodable text) :
    ∃ cursor, encodeCursor t itemId = .ok cursor ∧
      decodeCursor python cursor = .ok (some t, text) := by
  obtain ⟨raw, hencode, hdecode⟩ := encodeText_raw (t := t) hvalid
  exact ⟨_, encodeCursor_eq htext hencode, decodeCursor_eq hiso hbar hdecode⟩

theorem decodeCursor_raises {cursor : Text} {e : Exc}
    (h : decodeCursor python cursor = .error e) : ∃ text, e = .valueError text := by
  unfold decodeCursor at h
  split at h
  · cases h
  · cases h
    exact ⟨_, rfl⟩

theorem reversible (python : Python) : Reversible python Encodable where
  decode_encode _ _ _ hiso htext hbar hvalid := decode_encode hiso htext hbar hvalid
  encode_injective := by
    intro t t' itemId itemId' text text' hiso hiso' htext htext' hbar hbar' hvalid hvalid' heq
    obtain ⟨cursor, hencode, hdecode⟩ := decode_encode hiso htext hbar hvalid
    obtain ⟨cursor', hencode', hdecode'⟩ := decode_encode hiso' htext' hbar' hvalid'
    have hcursor : cursor = cursor' := by
      rw [hencode, hencode'] at heq
      exact Except.ok.inj heq
    rw [hcursor, hdecode'] at hdecode
    obtain ⟨ht, htext⟩ := Prod.mk.inj (Except.ok.inj hdecode)
    exact ⟨(Option.some.inj ht).symm, htext.symm⟩
  decode_raises _ _ h := decodeCursor_raises h

/-! ## A lone surrogate, and a number and its digits -/

def noon : DateTime := ⟨2024, 1, 2, 12, 0, 0, 0, some 0⟩

def onlyNoon : Python where
  fromisoformat text := if text = noon.isoformat then .ok noon else .error (.valueError [])
  str _ := []

/-- An id with a lone surrogate has no cursor, and `5` has the one of `"5"`. -/
theorem not_reversible : ¬Reversible onlyNoon (fun _ => True) ∧
    encodeCursor noon (.int 5) = encodeCursor noon (.str (codes ['5'])) := by
  constructor
  · intro h
    have hnoon : onlyNoon.fromisoformat noon.isoformat = .ok noon := by
      simp only [onlyNoon, if_true]
    obtain ⟨cursor, hencode, -⟩ :=
      h.decode_encode noon (.str [0xd800]) [0xd800] hnoon rfl (by decide) trivial
    have hraises : encodeCursor noon (.str [0xd800]) = .error .unicodeEncodeError := by decide
    cases hraises.symm.trans hencode
  · rfl

end WorkTicket.Analytics.Cursors
