import WorkTicket.Foundation.PythonJson
import WorkTicket.Foundation.Utf8

/-! The sanitiser of streamed responses: each chunk is parsed as JSON by itself, and sent as it
is when it is none. -/

namespace WorkTicket.Middleware.StreamSanitizer

open WorkTicket.PythonJson WorkTicket.Scanner WorkTicket.Utf8

/-! ## The code -/

section
variable (sanitizeOutputText : List ℕ → List ℕ)

mutual

def sanitizeOutputDict : Value → Value
  | .obj fields => .obj (sanitizeFields fields)
  | .arr items => .arr (sanitizeItems items)
  | .str s => .str (sanitizeOutputText s)
  | .null => .null
  | .bool b => .bool b
  | .int n => .int n
  | .float literal => .float literal
  | .nan => .nan
  | .infinity negative => .infinity negative

def sanitizeItems : List Value → List Value
  | [] => []
  | v :: items => sanitizeOutputDict v :: sanitizeItems items

def sanitizeFields : List (List ℕ × Value) → List (List ℕ × Value)
  | [] => []
  | (k, v) :: fields => (k, sanitizeOutputDict v) :: sanitizeFields fields

end

end

mutual

/-- How deep dicts and lists are nested. -/
def depth : Value → ℕ
  | .obj fields => fieldsDepth fields + 1
  | .arr items => itemsDepth items + 1
  | .null | .bool _ | .int _ | .float _ | .nan | .infinity _ | .str _ => 0

def itemsDepth : List Value → ℕ
  | [] => 0
  | v :: items => max (depth v) (itemsDepth items)

def fieldsDepth : List (List ℕ × Value) → ℕ
  | [] => 0
  | (_, v) :: fields => max (depth v) (fieldsDepth fields)

end

/-- `str.isspace` of a character. -/
def isSpace (c : Char) : Bool :=
  [(0x09, 0x0d), (0x1c, 0x20), (0x85, 0x85), (0xa0, 0xa0), (0x1680, 0x1680), (0x2000, 0x200a),
    (0x2028, 0x2029), (0x202f, 0x202f), (0x205f, 0x205f), (0x3000, 0x3000)].any
    fun range => range.1 ≤ c.toNat && c.toNat ≤ range.2

/-- `_sanitize_output_text` may be any function; `walkDepth` is the nesting that the recursive
sanitiser and the encoder can follow. -/
structure Runtime where
  python : Interpreter
  walkDepth : ℕ
  sanitizeOutputText : List ℕ → List ℕ

variable (runtime : Runtime)

/-- One turn of the loop: what is yielded, or nothing where an exception leaves the loop. -/
def sanitizedChunk (buffer chunk : Bytes) : Option Bytes :=
  match decode buffer with
  | none => some chunk
  | some decoded =>
    if decoded.all isSpace then some chunk
    else
      match loads runtime.python decoded with
      | .error .refused => some chunk
      | .error .raised => none
      | .ok data =>
        if runtime.walkDepth < depth data then none
        else
          some (encode (dumps runtime.python
            (sanitizeOutputDict runtime.sanitizeOutputText data) ++ ['\n']))

/-- `_sanitized_stream`: the bytes that are sent, and whether the stream comes to its end. Every
branch empties the buffer. -/
def sanitizedStream (buffer : Bytes) : List Bytes → Bytes × Bool
  | [] => ([], true)
  | chunk :: chunks =>
    match sanitizedChunk runtime (buffer ++ chunk) chunk with
    | none => ([], false)
    | some sent =>
      let rest := sanitizedStream [] chunks
      (sent ++ rest.1, rest.2)

/-- However a body is cut, what is sent is the sanitisation of the body in one piece. -/
def ChunkIndependent (body : Bytes) : Prop :=
  ∀ chunks, chunks.flatten = body →
    sanitizedStream runtime [] chunks = sanitizedStream runtime [] [body]

attribute [grind =] sanitizeOutputDict sanitizeItems sanitizeFields depth itemsDepth fieldsDepth
  isSpace sanitizedChunk sanitizedStream

/-! ## Pieces of a body -/

/-- A piece that `json.loads` refuses: it is not UTF-8, it is blank, or it is no JSON text. -/
def Refused (piece : Bytes) : Prop :=
  ∀ text, decode piece = some text → ¬text.all isSpace → loads runtime.python text = .error .refused

variable {runtime}

theorem sanitizedChunk_refused {piece : Bytes} (h : Refused runtime piece) :
    sanitizedChunk runtime piece piece = some piece := by
  unfold sanitizedChunk
  split
  · rfl
  · rename_i text htext
    split
    · rfl
    · rename_i hspace
      rw [h text htext hspace]

theorem refused_nil : Refused runtime [] := by
  intro text htext hspace
  have hnil : decode [] = some [] := decode_encode []
  obtain rfl := Option.some.inj (hnil.symm.trans htext)
  exact absurd rfl hspace

theorem sanitizedStream_refused {chunks : List Bytes}
    (h : ∀ chunk ∈ chunks, Refused runtime chunk) :
    sanitizedStream runtime [] chunks = (chunks.flatten, true) := by
  induction chunks with
  | nil => rfl
  | cons chunk chunks ih =>
    obtain ⟨hchunk, hchunks⟩ := List.forall_mem_cons.mp h
    rw [sanitizedStream, List.nil_append, sanitizedChunk_refused hchunk, ih hchunks]
    rfl

/-- What is sent for a JSON text. -/
theorem sanitizedChunk_json {text : Text} {data : Value} (hspace : ¬text.all isSpace)
    (hloads : loads runtime.python text = .ok data) (hdepth : depth data ≤ runtime.walkDepth) :
    sanitizedChunk runtime (encode text) (encode text) =
      some (encode (dumps runtime.python
        (sanitizeOutputDict runtime.sanitizeOutputText data) ++ ['\n'])) := by
  rw [sanitizedChunk, decode_encode]
  simp only [if_neg hspace, hloads, if_neg (Nat.not_lt.mpr hdepth)]

/-- A piece that is not refused is printed anew with a line feed, or it breaks the stream. -/
theorem sanitizedChunk_parsed {piece : Bytes} (h : ¬Refused runtime piece)
    {sent : Bytes} (hsent : sanitizedChunk runtime piece piece = some sent) :
    ∃ text data, decode piece = some text ∧ ¬text.all isSpace ∧
      loads runtime.python text = .ok data ∧ depth data ≤ runtime.walkDepth ∧
      sent = encode (dumps runtime.python
        (sanitizeOutputDict runtime.sanitizeOutputText data) ++ ['\n']) := by
  unfold Refused at h
  push Not at h
  obtain ⟨text, htext, hspace, hloads⟩ := h
  rw [sanitizedChunk, htext] at hsent
  simp only [if_neg hspace] at hsent
  split at hsent
  · rename_i hrefused
    exact absurd hrefused hloads
  · cases hsent
  · rename_i data hdata
    split at hsent
    · cases hsent
    · rename_i hdepth
      exact ⟨text, data, htext, hspace, hdata, Nat.le_of_not_lt hdepth,
        (Option.some.inj hsent).symm⟩

theorem sanitizedStream_cons {chunk : Bytes} {chunks : List Bytes} {sent : Bytes} :
    sanitizedStream runtime [] (chunk :: chunks) = (sent, true) ↔
      ∃ first rest, sanitizedChunk runtime chunk chunk = some first ∧
        sanitizedStream runtime [] chunks = (rest, true) ∧ sent = first ++ rest := by
  rw [sanitizedStream, List.nil_append]
  cases sanitizedChunk runtime chunk chunk with
  | none => simp
  | some first =>
    simp only [Prod.mk.injEq, Option.some.injEq]
    constructor
    · rintro ⟨rfl, hend⟩
      exact ⟨first, _, rfl, Prod.ext rfl hend, rfl⟩
    · rintro ⟨_, rest, rfl, hrest, rfl⟩
      rw [hrest]
      exact ⟨rfl, rfl⟩

theorem sanitizedStream_append {chunks more : List Bytes} {sent : Bytes} :
    sanitizedStream runtime [] (chunks ++ more) = (sent, true) ↔
      ∃ first rest, sanitizedStream runtime [] chunks = (first, true) ∧
        sanitizedStream runtime [] more = (rest, true) ∧ sent = first ++ rest := by
  induction chunks generalizing sent with
  | nil =>
    constructor
    · exact fun h => ⟨[], sent, rfl, h, rfl⟩
    · rintro ⟨first, rest, hfirst, hrest, rfl⟩
      cases hfirst
      exact hrest
  | cons chunk chunks ih =>
    rw [List.cons_append, sanitizedStream_cons]
    constructor
    · rintro ⟨x, y, hx, hy, rfl⟩
      obtain ⟨first, rest, hfirst, hrest, rfl⟩ := ih.mp hy
      exact ⟨x ++ first, rest, sanitizedStream_cons.mpr ⟨x, first, hx, hfirst, rfl⟩, hrest,
        (List.append_assoc x first rest).symm⟩
    · rintro ⟨first, rest, hfirst, hrest, rfl⟩
      obtain ⟨x, y, hx, hy, rfl⟩ := sanitizedStream_cons.mp hfirst
      exact ⟨x, y ++ rest, hx, ih.mpr ⟨y, rest, hy, hrest, rfl⟩, List.append_assoc x y rest⟩

theorem sanitizedStream_of_flatten_nil {chunks : List Bytes} (h : chunks.flatten = []) :
    sanitizedStream runtime [] chunks = ([], true) := by
  have hall : ∀ chunk ∈ chunks, chunk = [] := List.flatten_eq_nil_iff.mp h
  rw [sanitizedStream_refused, h]
  intro chunk hchunk
  rw [hall chunk hchunk]
  exact refused_nil

theorem sanitizedStream_singleton {body sent : Bytes}
    (h : sanitizedStream runtime [] [body] = (sent, true)) :
    sanitizedChunk runtime body body = some sent := by
  obtain ⟨first, rest, hfirst, hrest, rfl⟩ := sanitizedStream_cons.mp h
  cases hrest
  rw [hfirst, List.append_nil]

/-! ## One byte at a time -/

def isDigitByte (b : UInt8) : Bool := 0x30 ≤ b && b ≤ 0x39

/-- A line feed behind every digit. -/
def mark (b : UInt8) : Bytes := if isDigitByte b then [b, 10] else [b]

theorem isDigitByte_eq {b : UInt8} (h : b < 0x80) :
    isDigitByte b = (Char.ofNat b.toNat).isDigit := by
  have hb : b.toNat < 0x80 := UInt8.lt_iff_toNat_lt.mp h
  have hnat : (Char.ofNat b.toNat).toNat = b.toNat := by
    rw [Char.toNat_ofNat, if_pos (.inl (by omega))]
  rw [Bool.eq_iff_iff, Char.isDigit_iff_toNat, hnat]
  simp [isDigitByte, UInt8.le_iff_toNat_le]

theorem isDigitByte_high {b : UInt8} (h : 0x80 ≤ b) : isDigitByte b = false := by
  simp only [isDigitByte, Bool.and_eq_false_iff, decide_eq_false_iff_not, UInt8.not_le]
  exact .inr (UInt8.lt_of_lt_of_le (by decide) h)

theorem isSpace_digit {c : Char} (hc : c.isDigit) : isSpace c = false := by
  have hbounds : 48 ≤ c.toNat ∧ c.toNat ≤ 57 := Char.isDigit_iff_toNat.mp hc
  simp [isSpace]
  omega

theorem sanitizedChunk_byte (b : UInt8) : sanitizedChunk runtime [b] [b] = some (mark b) := by
  rcases UInt8.lt_or_le b 0x80 with hlow | hhigh
  · by_cases hc : (Char.ofNat b.toNat).isDigit
    · have hspace : ¬[Char.ofNat b.toNat].all isSpace := by simp [isSpace_digit hc]
      have hsent := sanitizedChunk_json hspace (loads_digit runtime.python hc) (Nat.zero_le _)
      rw [sanitizeOutputDict, dumps, intRepr_digit hc, encode_append, encode_ofNat hlow] at hsent
      rw [hsent, mark, isDigitByte_eq hlow, if_pos hc]
      rfl
    · have hrefused : Refused runtime [b] := by
        intro text htext hspace
        obtain rfl := Option.some.inj ((decode_ascii hlow).symm.trans htext)
        exact loads_refused runtime.python hc
      rw [sanitizedChunk_refused hrefused, mark, isDigitByte_eq hlow, if_neg hc]
  · rw [sanitizedChunk, decode_high hhigh, mark, isDigitByte_high hhigh]
    rfl

theorem sanitizedStream_bytes (body : Bytes) :
    sanitizedStream runtime [] (body.map fun b => [b]) = (body.flatMap mark, true) := by
  induction body with
  | nil => rfl
  | cons b body ih =>
    rw [List.map_cons, sanitizedStream, List.nil_append, sanitizedChunk_byte, ih]
    rfl

theorem flatMap_mark_eq_self {body : Bytes} (h : ∀ b ∈ body, isDigitByte b = false) :
    body.flatMap mark = body := by
  induction body with
  | nil => rfl
  | cons b body ih =>
    obtain ⟨hb, hbody⟩ := List.forall_mem_cons.mp h
    rw [List.flatMap_cons, ih hbody, mark, hb]
    rfl

theorem length_flatMap_mark (body : Bytes) :
    (body.flatMap mark).length = body.length + body.countP isDigitByte := by
  induction body with
  | nil => rfl
  | cons b body ih =>
    rw [List.flatMap_cons, List.length_append, ih, mark, List.countP_cons, List.length_cons]
    split
    · simp only [List.length_cons, List.length_nil]
      omega
    · simp only [List.length_cons, List.length_nil]
      omega

/-- The same over the characters of a text. -/
def markChar (c : Char) : List Char := if c.isDigit then [c, '\n'] else [c]

theorem flatMap_mark_encodeChar (c : Char) :
    (String.utf8EncodeChar c).flatMap mark = encode (markChar c) := by
  rcases Nat.lt_or_ge 0x7f c.toNat with hhigh | hascii
  · have hbytes : ∀ b ∈ String.utf8EncodeChar c, isDigitByte b = false := fun b hb =>
      isDigitByte_high (encodeChar_high hhigh hb)
    have hc : ¬c.isDigit := by
      intro hdigit
      have hbounds : 48 ≤ c.toNat ∧ c.toNat ≤ 57 := Char.isDigit_iff_toNat.mp hdigit
      omega
    rw [flatMap_mark_eq_self hbytes, markChar, if_neg hc, encode, List.flatMap_singleton]
  · have hnat : (UInt8.ofNat c.toNat).toNat = c.toNat := by
      rw [UInt8.toNat_ofNat', Nat.mod_eq_of_lt (by omega)]
    have hlow : UInt8.ofNat c.toNat < 0x80 := by
      rw [UInt8.lt_iff_toNat_lt, hnat]
      exact Nat.lt_succ_of_le hascii
    have hdigit : isDigitByte (UInt8.ofNat c.toNat) = c.isDigit := by
      rw [isDigitByte_eq hlow, hnat, Char.ofNat_toNat]
    have hline : String.utf8EncodeChar '\n' = [10] := rfl
    rw [encodeChar_ascii hascii, List.flatMap_singleton, mark, markChar, hdigit]
    split
    · simp [encode, encodeChar_ascii hascii, hline]
    · simp [encode, encodeChar_ascii hascii]

theorem eq_nil_of_marked {text : List Char} (h : text.flatMap markChar = []) : text = [] := by
  apply List.eq_nil_iff_forall_not_mem.mpr
  intro c hc
  have hempty := List.flatMap_eq_nil_iff.mp h c hc
  unfold markChar at hempty
  split at hempty
  · cases hempty
  · cases hempty

/-- If the only line feed of the marked text is its end, the one digit of the text is its end. -/
theorem eq_of_marked {text line : List Char} (hline : '\n' ∉ line)
    (h : text.flatMap markChar = line ++ ['\n']) (hdigit : ∃ c ∈ text, c.isDigit) :
    text = line ∧ ∃ start d, line = start ++ [d] ∧ d.isDigit ∧ ∀ c ∈ start, ¬c.isDigit := by
  induction text generalizing line with
  | nil => simp at hdigit
  | cons c text ih =>
    rw [List.flatMap_cons, markChar] at h
    by_cases hc : c.isDigit
    · rw [if_pos hc] at h
      rcases line with _ | ⟨x, _ | ⟨y, line⟩⟩
      · simp at h
      · simp only [List.cons_append, List.nil_append, List.cons.injEq, true_and] at h
        obtain ⟨rfl, hnil⟩ := h
        obtain rfl := eq_nil_of_marked hnil
        exact ⟨rfl, [], c, rfl, hc, nofun⟩
      · simp only [List.cons_append, List.nil_append, List.cons.injEq] at h
        exact absurd (h.2.1 ▸ List.mem_cons_of_mem x List.mem_cons_self) hline
    · rw [if_neg hc] at h
      have hrest : ∃ d ∈ text, d.isDigit := by
        obtain ⟨d, hd, hdigit⟩ := hdigit
        rcases List.mem_cons.mp hd with rfl | htext
        · exact absurd hdigit hc
        · exact ⟨d, htext, hdigit⟩
      rcases line with _ | ⟨x, line⟩
      · obtain ⟨d, hd, -⟩ := hrest
        simp only [List.cons_append, List.nil_append, List.cons.injEq] at h
        rw [eq_nil_of_marked h.2] at hd
        exact absurd hd List.not_mem_nil
      · simp only [List.cons_append, List.nil_append, List.cons.injEq] at h
        obtain ⟨rfl, hmarked⟩ := h
        obtain ⟨rfl, start, d, hstart, hd, hnone⟩ :=
          ih (fun hmem => hline (List.mem_cons_of_mem c hmem)) hmarked hrest
        refine ⟨rfl, c :: start, d, by rw [hstart]; rfl, hd, ?_⟩
        exact List.forall_mem_cons.mpr ⟨hc, hnone⟩

/-! ## What the condition is needed for -/

theorem flatMap_markChar_eq_self {text : List Char} (h : ∀ c ∈ text, ¬c.isDigit) :
    text.flatMap markChar = text := by
  induction text with
  | nil => rfl
  | cons c text ih =>
    obtain ⟨hc, htext⟩ := List.forall_mem_cons.mp h
    rw [List.flatMap_cons, ih htext, markChar, if_neg hc]
    rfl

theorem eq_float_of_sanitized {f : List ℕ → List ℕ} {data : Value} {literal : List Char}
    (h : sanitizeOutputDict f data = .float literal) : data = .float literal := by
  cases data with
  | float => simpa [sanitizeOutputDict] using h
  | _ => simp [sanitizeOutputDict] at h

theorem flatten_bytes (body : Bytes) : (body.map fun b => [b]).flatten = body := by
  rw [← List.flatMap_def]
  exact List.flatMap_singleton' body

/-- A body with a digit is cut in two ways, unless it is a number of one digit. -/
theorem single_digit_of_independent {body : Bytes} (h : ChunkIndependent runtime body)
    (hdigit : ∃ b ∈ body, isDigitByte b) :
    ∃ d : Char, d.isDigit ∧ (body = encode [d] ∨ body = encode ['-', d] ∧ d ≠ '0') := by
  have hwhole : sanitizedStream runtime [] [body] = (body.flatMap mark, true) := by
    rw [← h _ (flatten_bytes body), sanitizedStream_bytes]
  have hchunk := sanitizedStream_singleton hwhole
  have hgrown : body.flatMap mark ≠ body := by
    intro hsame
    have hlength := length_flatMap_mark body
    have hpos : 0 < body.countP isDigitByte := List.countP_pos_iff.mpr hdigit
    rw [hsame] at hlength
    omega
  have hparsed : ¬Refused runtime body := by
    intro hrefused
    rw [sanitizedChunk_refused hrefused] at hchunk
    exact hgrown (Option.some.inj hchunk).symm
  obtain ⟨text, data, htext, -, hloads, -, hsent⟩ := sanitizedChunk_parsed hparsed hchunk
  obtain rfl := encode_of_decode htext
  have hmarked := encode_injective ((flatMap_encode flatMap_mark_encodeChar text).symm.trans hsent)
  have hmem : ∃ c ∈ text, c.isDigit := by
    by_contra hnone
    push Not at hnone
    apply hgrown
    rw [flatMap_encode flatMap_mark_encodeChar, flatMap_markChar_eq_self]
    exact hnone
  obtain ⟨hsame, start, d, hline, hd, hstart⟩ := eq_of_marked (dumps_line _) hmarked hmem
  have hfloat : ∀ literal, sanitizeOutputDict runtime.sanitizeOutputText data ≠ .float literal := by
    intro literal hliteral
    rw [eq_float_of_sanitized hliteral] at hloads
    have htwo := loads_float hloads
    have hnone : start.countP Char.isDigit = 0 := List.countP_eq_zero.mpr hstart
    rw [hsame, hline, List.countP_append, hnone, List.countP_singleton] at htwo
    split at htwo
    · omega
    · omega
  rw [hsame, hline]
  rcases dumps_single_digit hfloat hline hd hstart with rfl | ⟨rfl, hzero⟩
  · exact ⟨d, hd, .inl rfl⟩
  · exact ⟨d, hd, .inr ⟨rfl, hzero⟩⟩

/-- Without a digit, every piece of the body is sent as it is. -/
theorem sanitizedChunk_piece {body : Bytes} (h : ChunkIndependent runtime body)
    (hdigit : ∀ b ∈ body, isDigitByte b = false) {piece : Bytes} (hpiece : piece <:+: body) :
    sanitizedChunk runtime piece piece = some piece := by
  obtain ⟨before, after, rfl⟩ := hpiece
  have hcut := h (before.map (fun b => [b]) ++ piece :: after.map (fun b => [b])) (by
    rw [List.flatten_append, List.flatten_cons, flatten_bytes, flatten_bytes, List.append_assoc])
  have hbytes := h _ (flatten_bytes (before ++ piece ++ after))
  rw [sanitizedStream_bytes, flatMap_mark_eq_self hdigit] at hbytes
  rw [← hbytes] at hcut
  have hbefore : ∀ b ∈ before, isDigitByte b = false := fun b hb =>
    hdigit b (List.mem_append_left _ (List.mem_append_left _ hb))
  have hafter : ∀ b ∈ after, isDigitByte b = false := fun b hb =>
    hdigit b (List.mem_append_right _ hb)
  obtain ⟨x, y, hx, hy, hsent⟩ := sanitizedStream_append.mp hcut
  obtain ⟨sent, z, hpiece, hz, rfl⟩ := sanitizedStream_cons.mp hy
  rw [sanitizedStream_bytes, flatMap_mark_eq_self hbefore] at hx
  rw [sanitizedStream_bytes, flatMap_mark_eq_self hafter] at hz
  cases hx
  cases hz
  rw [List.append_assoc, List.append_cancel_left_eq, List.append_cancel_right_eq] at hsent
  rw [hpiece, hsent]

theorem refused_of_independent {body : Bytes} (h : ChunkIndependent runtime body)
    (hdigit : ∀ b ∈ body, isDigitByte b = false) {piece : Bytes} (hpiece : piece <:+: body) :
    Refused runtime piece := by
  by_contra hparsed
  obtain ⟨text, data, htext, hspace, hloads, hdepth, hsent⟩ :=
    sanitizedChunk_parsed hparsed (sanitizedChunk_piece h hdigit hpiece)
  generalize hline : dumps runtime.python
    (sanitizeOutputDict runtime.sanitizeOutputText data) = line at hsent
  subst hsent
  -- The line alone is a piece too, and is not sent as it is.
  rw [decode_encode] at htext
  obtain rfl := Option.some.inj htext
  have hspace' : ¬line.all isSpace := by
    intro hall
    exact hspace (by rw [List.all_append, hall]; rfl)
  have hprinted := sanitizedChunk_json hspace' (loads_of_snoc hloads) hdepth
  have hinfix : encode line <:+: body := by
    rw [encode_append] at hpiece
    exact (List.prefix_append _ _).isInfix.trans hpiece
  rw [sanitizedChunk_piece h hdigit hinfix, hline] at hprinted
  have hsame := encode_injective (Option.some.inj hprinted)
  exact absurd hsame (by simp)

/-! ## When the cut does not matter -/

theorem independent_of_refused {body : Bytes}
    (h : ∀ piece, piece <:+: body → Refused runtime piece) : ChunkIndependent runtime body := by
  intro chunks hchunks
  have hall : ∀ chunk ∈ chunks, Refused runtime chunk := by
    intro chunk hchunk
    exact h chunk (hchunks ▸ List.infix_of_mem_flatten hchunk)
  rw [sanitizedStream_refused hall, hchunks,
    sanitizedStream_refused (List.forall_mem_singleton.mpr (h body List.infix_rfl))]
  simp

theorem sanitizedStream_nil_cons (chunks : List Bytes) :
    sanitizedStream runtime [] ([] :: chunks) = sanitizedStream runtime [] chunks := by
  rw [sanitizedStream, List.nil_append, sanitizedChunk_refused refused_nil]
  rfl

theorem sanitizedStream_cons_nil (chunk : Bytes) {chunks : List Bytes} (h : chunks.flatten = []) :
    sanitizedStream runtime [] (chunk :: chunks) = sanitizedStream runtime [] [chunk] := by
  rw [sanitizedStream, sanitizedStream, sanitizedStream_of_flatten_nil h]
  rfl

theorem independent_of_length_le_one {body : Bytes} (h : body.length ≤ 1) :
    ChunkIndependent runtime body := by
  intro chunks hchunks
  induction chunks with
  | nil =>
    obtain rfl : [] = body := hchunks
    rw [sanitizedStream_nil_cons]
  | cons chunk chunks ih =>
    rw [List.flatten_cons] at hchunks
    rcases chunk with _ | ⟨b, chunk⟩
    · rw [sanitizedStream_nil_cons]
      exact ih hchunks
    · have hlength := congrArg List.length hchunks
      rw [List.length_append, List.length_cons] at hlength
      have hrest : chunks.flatten = [] := List.eq_nil_of_length_eq_zero (by omega)
      rw [sanitizedStream_cons_nil _ hrest, ← hchunks, hrest, List.append_nil]

theorem encode_digit {d : Char} (hd : d.isDigit) :
    encode [d] = [UInt8.ofNat d.toNat] ∧ isDigitByte (UInt8.ofNat d.toNat) := by
  have hbounds : 48 ≤ d.toNat ∧ d.toNat ≤ 57 := Char.isDigit_iff_toNat.mp hd
  have hnat : (UInt8.ofNat d.toNat).toNat = d.toNat := by
    rw [UInt8.toNat_ofNat', Nat.mod_eq_of_lt (by omega)]
  have hlow : UInt8.ofNat d.toNat < 0x80 := by
    rw [UInt8.lt_iff_toNat_lt, hnat]
    exact Nat.lt_succ_of_le (by omega)
  constructor
  · rw [encode, List.flatMap_singleton, encodeChar_ascii (by omega)]
  · rw [isDigitByte_eq hlow, hnat, Char.ofNat_toNat]
    exact hd

/-- The minus sign goes on its own, and the digit then gets the line feed. -/
theorem independent_of_negative_digit {d : Char} (hd : d.isDigit) (hzero : d ≠ '0') :
    ChunkIndependent runtime (encode ['-', d]) := by
  obtain ⟨hencode, hbyte⟩ := encode_digit hd
  have hbody : encode ['-', d] = [45, UInt8.ofNat d.toNat] := by
    change encode ['-'] ++ encode [d] = _
    rw [hencode]
    rfl
  have hspace : ¬(['-', d] : Text).all isSpace := by
    intro hall
    exact absurd (List.all_eq_true.mp hall '-' List.mem_cons_self) (by decide)
  have hwhole : sanitizedStream runtime [] [encode ['-', d]] =
      ([45, UInt8.ofNat d.toNat, 10], true) := by
    have hsent := sanitizedChunk_json hspace (loads_negative_digit runtime.python hd)
      (Nat.zero_le _)
    rw [sanitizeOutputDict, dumps, intRepr_negative_digit hd hzero, encode_append, hbody] at hsent
    rw [hbody]
    exact sanitizedStream_cons.mpr ⟨_, [], hsent, rfl, rfl⟩
  have hdigit : sanitizedStream runtime [] [encode [d]] = ([UInt8.ofNat d.toNat, 10], true) := by
    rw [hencode]
    refine sanitizedStream_cons.mpr ⟨_, [], sanitizedChunk_byte _, rfl, ?_⟩
    rw [mark, if_pos hbyte, List.append_nil]
  intro chunks hchunks
  rw [hwhole]
  induction chunks with
  | nil => exact absurd hchunks (by simp [hbody])
  | cons chunk chunks ih =>
    rw [List.flatten_cons] at hchunks
    rcases chunk with _ | ⟨b, _ | ⟨c, chunk⟩⟩
    · rw [sanitizedStream_nil_cons]
      exact ih hchunks
    · rw [hbody, List.cons_append, List.nil_append, List.cons.injEq, ← hencode] at hchunks
      obtain ⟨rfl, hrest⟩ := hchunks
      have hsingle : (encode [d]).length ≤ 1 := by rw [hencode]; rfl
      refine sanitizedStream_cons.mpr ⟨[45], _, sanitizedChunk_byte 45, ?_, rfl⟩
      rw [independent_of_length_le_one hsingle chunks hrest, hdigit]
    · have hlength := congrArg List.length hchunks
      rw [hbody] at hlength
      simp only [List.length_append, List.length_cons, List.length_nil] at hlength
      have hrest : chunks.flatten = [] := List.eq_nil_of_length_eq_zero (by omega)
      rw [hrest, List.append_nil] at hchunks
      rw [sanitizedStream_cons_nil _ hrest, hchunks, hwhole]

/-- However the body is cut, what is sent is the same, if and only if the body has at most one
byte, is a minus sign and a digit other than zero, or has no piece that is a JSON text. -/
theorem chunkIndependent_iff (runtime : Runtime) (body : Bytes) :
    ChunkIndependent runtime body ↔
      body.length ≤ 1 ∨ (∃ d : Char, d.isDigit ∧ d ≠ '0' ∧ body = encode ['-', d]) ∨
        ∀ piece, piece <:+: body → Refused runtime piece := by
  constructor
  · intro h
    by_cases hdigit : ∃ b ∈ body, isDigitByte b
    · obtain ⟨d, hd, rfl | ⟨rfl, hzero⟩⟩ := single_digit_of_independent h hdigit
      · exact .inl (by rw [(encode_digit hd).1]; rfl)
      · exact .inr (.inl ⟨d, hd, hzero, rfl⟩)
    · refine .inr (.inr fun piece hpiece => refused_of_independent h ?_ hpiece)
      intro b hb
      exact Bool.eq_false_of_not_eq_true fun hb' => hdigit ⟨b, hb, hb'⟩
  · rintro (hlength | ⟨d, hd, hzero, rfl⟩ | hrefused)
    · exact independent_of_length_le_one hlength
    · exact independent_of_negative_digit hd hzero
    · exact independent_of_refused hrefused

/-- For an API key, as the text sanitiser has it. -/
def hideKeys (s : List ℕ) : List ℕ :=
  if ['s', 'k', '_', 'l', 'i', 'v', 'e', '_'].map Char.toNat <:+: s then
    ['[', 's', 'a', 'n', 'i', 't', 'i', 'z', 'e', 'd', ']'].map Char.toNat
  else s

theorem newline_not_mem_filter (literal : List Char) : '\n' ∉ literal.filter (· ≠ '\n') := by simp

def keyRuntime : Runtime where
  python := ⟨fun literal => literal.filter (· ≠ '\n'), newline_not_mem_filter, 900⟩
  walkDepth := 900
  sanitizeOutputText := hideKeys

def keyStart : Text := ['"', 's', 'k', '_', 'l', 'i']

def keyEnd : Text := ['v', 'e', '_', '4', '2', '"']

/-- A JSON string with an API key in it: in one piece it is replaced, and cut inside of the key
it is sent as it is. -/
theorem not_chunkIndependent_key :
    ¬ChunkIndependent keyRuntime (encode (keyStart ++ keyEnd)) := by
  intro h
  have hcut := h [encode keyStart, encode keyEnd] rfl
  have hpart : ∀ text, loads keyRuntime.python text = .error .refused →
      Refused keyRuntime (encode text) := by
    intro text hrefused decoded hdecoded _
    obtain rfl := Option.some.inj ((decode_encode text).symm.trans hdecoded)
    exact hrefused
  have hparts := sanitizedStream_refused (List.forall_mem_cons.mpr
    ⟨hpart keyStart rfl, List.forall_mem_singleton.mpr (hpart keyEnd rfl)⟩)
  have hsent := sanitizedStream_singleton (hcut.symm.trans hparts)
  have hspace : ¬(keyStart ++ keyEnd).all isSpace := by decide
  have hloads : loads keyRuntime.python (keyStart ++ keyEnd) =
      .ok (.str (['s', 'k', '_', 'l', 'i', 'v', 'e', '_', '4', '2'].map Char.toNat)) := rfl
  rw [sanitizedChunk_json hspace hloads (Nat.zero_le _)] at hsent
  exact absurd (congrArg (Option.map List.length) hsent) (by decide)

end WorkTicket.Middleware.StreamSanitizer
