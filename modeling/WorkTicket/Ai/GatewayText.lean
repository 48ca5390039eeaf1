import Mathlib.Data.List.Basic
import WorkTicket.Foundation.Regex
import WorkTicket.Middleware.StreamSanitizer

/-! The texts of the AI gateway: how it normalises them before it looks for phrases and patterns. -/

namespace WorkTicket.Ai.GatewayText

open WorkTicket.Regex

/-- Code points, among which there can be lone surrogates. -/
abbrev Text := List ℕ

def codes (s : String) : Text := s.toList.map Char.toNat

/-- What the gateway uses of Python's tables: the decompositions (NFKC, then NFD) of a character,
which characters combine, `str.lower`, and `\w`. -/
structure Unicode where
  decompose : ℕ → List ℕ
  combining : ℕ → Bool
  lower : Text → Text
  word : ℕ → Bool

def unicodeConfusables : List (ℕ × String) :=
  [(0x0430, "a"), (0x0435, "e"), (0x043e, "o"), (0x0440, "p"), (0x0441, "c"), (0x0445, "x"),
    (0x0443, "y"), (0x0456, "i"), (0x0458, "j"), (0x0432, "b"), (0x043a, "k"), (0x043d, "h"),
    (0x043c, "m"), (0x0422, "T"), (0x0410, "A"), (0x0412, "B"), (0x0415, "E"), (0x041a, "K"),
    (0x041c, "M"), (0x041d, "H"), (0x041e, "O"), (0x0420, "P"), (0x0421, "C"), (0x0425, "X"),
    (0x0423, "Y"), (0x2116, "No"), (0x00a9, "(c)"), (0x00ae, "(r)"), (0x03b1, "a"), (0x03b2, "b"),
    (0x03b3, "y"), (0x03b4, "d"), (0x03b5, "e"), (0x03b7, "n"), (0x03b9, "i"), (0x03ba, "k"),
    (0x03bb, "l"), (0x03bc, "m"), (0x03bd, "v"), (0x03bf, "o"), (0x03c1, "p"), (0x03c2, "c"),
    (0x03c3, "c"), (0x03c4, "t"), (0x03c5, "u"), (0x03c7, "x"), (0x03c9, "w"), (0x0391, "A"),
    (0x0392, "B"), (0x0395, "E"), (0x0397, "H"), (0x0399, "I"), (0x039a, "K"), (0x039c, "M"),
    (0x039d, "N"), (0x039f, "O"), (0x03a1, "P"), (0x03a4, "T"), (0x03a7, "X"), (0x03a5, "Y"),
    (0x03a9, "W"), (0x1d00, "A"), (0x1d04, "C"), (0x1d05, "D"), (0x1d07, "E"), (0x1d0a, "J"),
    (0x1d0b, "K"), (0x1d0d, "M"), (0x1d0f, "O"), (0x1d18, "P"), (0x1d1b, "T"), (0x1d1c, "U"),
    (0x1d20, "V"), (0x1d21, "W")]

/-- `_UNICODE_CONFUSABLES`, which has the full-width letters too. -/
def translate (c : ℕ) : Text :=
  if 0xff21 ≤ c ∧ c ≤ 0xff3a then [c - 0xff21 + 0x41]
  else if 0xff41 ≤ c ∧ c ≤ 0xff5a then [c - 0xff41 + 0x61]
  else
    match unicodeConfusables.lookup c with
    | some letters => codes letters
    | none => [c]

def zeroWidthChars : List ℕ := [0x200b, 0x200c, 0x200d, 0xfeff, 0x00ad]

/-- `_normalize_text`; the decompositions act on each character by itself. -/
def normalizeText (u : Unicode) (text : Text) : Text :=
  (((text.flatMap u.decompose).filter fun c => !u.combining c).filter
    fun c => c ∉ zeroWidthChars).flatMap translate

/-- `[\x00-\x08\x0b\x0c\x0e-\x1f]`. -/
def isControl (c : ℕ) : Bool := c ≤ 0x08 || c = 0x0b || c = 0x0c || (0x0e ≤ c && c ≤ 0x1f)

def sanitized : Text := codes "[sanitized]"

/-- `phrase in text`. -/
def contains (text : Text) (phrase : String) : Bool := codes phrase <:+: text

def lit (s : String) : Pattern ℕ := .literal (codes s)

/-- `\s`. -/
def space : Pattern ℕ := .char fun c => Middleware.StreamSanitizer.isSpace (Char.ofNat c)

/-! ## Lower case -/

def finalSigma : ℕ := 0x3c2

def sigma : ℕ := 0x3c3

/-- The lower case of a character by itself. -/
def Unicode.lowerChar (u : Unicode) (c : ℕ) : Text :=
  (u.lower [c]).map (rename finalSigma sigma)

def asciiWord (c : ℕ) : Bool :=
  (0x30 ≤ c && c ≤ 0x39) || (0x41 ≤ c && c ≤ 0x5a) || c = 0x5f || (0x61 ≤ c && c ≤ 0x7a)

/-- `lower` acts on each character by itself, but for the sigma at the end of a word; the tables
leave the ASCII characters that are no capitals as they are. -/
structure Unicode.Lawful (u : Unicode) : Prop where
  decompose_ascii : ∀ c < 0x80, u.decompose c = [c]
  combining_ascii : ∀ c < 0x80, u.combining c = false
  lower : ∀ s, (u.lower s).map (rename finalSigma sigma) = s.flatMap u.lowerChar
  lower_ascii : ∀ c < 0x80, ¬(0x41 ≤ c ∧ c ≤ 0x5a) → u.lower [c] = [c]
  word_ascii : ∀ c < 0x80, u.word c = asciiWord c
  word_sigma : u.word finalSigma = u.word sigma

section
variable {u : Unicode} {r : Pattern ℕ} {b : Bool} {s t : Text}

theorem normalizeText_append (u : Unicode) (s t : Text) :
    normalizeText u (s ++ t) = normalizeText u s ++ normalizeText u t := by
  simp [normalizeText]

theorem lowerChar_ascii (hu : u.Lawful) {c : ℕ} (hc : c < 0x80)
    (hcapital : ¬(0x41 ≤ c ∧ c ≤ 0x5a)) : u.lowerChar c = [c] := by
  have hne : c ≠ finalSigma := by
    unfold finalSigma
    omega
  simp [Unicode.lowerChar, hu.lower_ascii c hc hcapital, rename, hne]

/-- An expression that takes no notice of the final sigma finds in a text in lower case what it
finds in its characters in lower case. -/
theorem found_lower (hu : u.Lawful) (halike : r.alike finalSigma sigma = true) :
    Found u.word r b (u.lower s) ↔ Found u.word r b (s.flatMap u.lowerChar) := by
  rw [← hu.lower, found_rename hu.word_sigma halike]

/-- Small letters, digits and punctuation of ASCII. -/
def plain (s : Text) : Bool := s.all fun c => c < 0x80 && !(0x41 ≤ c && c ≤ 0x5a)

theorem flatMap_eq_self {f : ℕ → Text} (h : ∀ c ∈ s, f c = [c]) : s.flatMap f = s := by
  induction s with
  | nil => rfl
  | cons c s ih =>
    rw [List.flatMap_cons, h c List.mem_cons_self, ih fun d hd => h d (List.mem_cons_of_mem _ hd)]
    rfl

theorem flatMap_lowerChar_plain (hu : u.Lawful) (hs : plain s = true) :
    s.flatMap u.lowerChar = s := by
  apply flatMap_eq_self
  intro c hc
  have hplain := List.all_eq_true.mp hs c hc
  simp only [Bool.and_eq_true, decide_eq_true_eq, Bool.not_eq_true', Bool.and_eq_false_iff,
    decide_eq_false_iff_not] at hplain
  exact lowerChar_ascii hu hplain.1 (by omega)

end

/-! ## ASCII -/

/-- Tables that are right for ASCII texts. -/
def asciiTables : Unicode where
  decompose c := [c]
  combining _ := false
  lower := List.map fun c => if 0x41 ≤ c ∧ c ≤ 0x5a then c + 0x20 else c
  word := asciiWord

theorem asciiTables_lawful : asciiTables.Lawful := by
  constructor
  · exact fun _ _ => rfl
  · exact fun _ _ => rfl
  · intro s
    induction s with
    | nil => rfl
    | cons c s ih =>
      rw [List.flatMap_cons, ← ih]
      rfl
  · intro c _ hcapital
    simp [asciiTables, hcapital]
  · exact fun _ _ => rfl
  · rfl

end WorkTicket.Ai.GatewayText
