import Mathlib.Data.List.Infix
import Mathlib.Data.UInt

/-! Glob patterns over bytes: `*`, `?`, sets of bytes and escapes. -/

namespace WorkTicket.Glob

def star : UInt8 := 0x2a

def question : UInt8 := 0x3f

def opening : UInt8 := 0x5b

def closing : UInt8 := 0x5d

def backslash : UInt8 := 0x5c

def caret : UInt8 := 0x5e

def dash : UInt8 := 0x2d

inductive Token
  | anything
  | one
  | set (negated : Bool) (ranges : List (UInt8 × UInt8))
  | literal (b : UInt8)
  deriving DecidableEq, Repr

/-- The ranges of a set, and what follows it; a set that is not closed ends with the pattern. -/
def readRanges : List UInt8 → List (UInt8 × UInt8) × List UInt8
  | [] => ([], [])
  | [b] => if b = closing then ([], []) else ([(b, b)], [])
  | [b, c] =>
    if b = closing then ([], [c])
    else if b = backslash then ([(c, c)], [])
    else
      let (ranges, rest) := readRanges [c]
      ((b, b) :: ranges, rest)
  | b :: c :: d :: pattern =>
    if b = closing then ([], c :: d :: pattern)
    else if b = backslash then
      let (ranges, rest) := readRanges (d :: pattern)
      ((c, c) :: ranges, rest)
    else if c = dash then
      let (ranges, rest) := readRanges pattern
      ((min b d, max b d) :: ranges, rest)
    else
      let (ranges, rest) := readRanges (c :: d :: pattern)
      ((b, b) :: ranges, rest)

/-- The tokens of a pattern of at most `fuel` bytes. -/
def tokensFrom : ℕ → List UInt8 → List Token
  | 0, _ => []
  | _ + 1, [] => []
  | fuel + 1, b :: pattern =>
    if b = star then .anything :: tokensFrom fuel pattern
    else if b = question then .one :: tokensFrom fuel pattern
    else if b = opening then
      let negated := pattern.head? = some caret
      let (ranges, rest) := readRanges (if negated then pattern.tail else pattern)
      .set negated ranges :: tokensFrom fuel rest
    else if b = backslash then
      match pattern with
      | [] => [.literal b]
      | c :: pattern => .literal c :: tokensFrom fuel pattern
    else .literal b :: tokensFrom fuel pattern

def tokens (pattern : List UInt8) : List Token := tokensFrom pattern.length pattern

/-- Whether a token stands for the byte. -/
def Token.accepts : Token → UInt8 → Bool
  | .anything, _ => true
  | .one, _ => true
  | .set negated ranges, b => negated != ranges.any fun range => range.1 ≤ b && b ≤ range.2
  | .literal c, b => c = b

def matchTokens : List Token → List UInt8 → Bool
  | [], s => s.isEmpty
  | .anything :: ts, s => s.tails.any (matchTokens ts)
  | _ :: _, [] => false
  | t :: ts, b :: s => t.accepts b && matchTokens ts s

attribute [grind =] matchTokens

/-- The whole text matches the pattern. -/
def glob (pattern s : List UInt8) : Bool := matchTokens (tokens pattern) s

/-! ## Plain bytes -/

/-- The byte stands for itself in a pattern. -/
def Plain (b : UInt8) : Prop := b ≠ star ∧ b ≠ question ∧ b ≠ opening ∧ b ≠ backslash

instance (b : UInt8) : Decidable (Plain b) := inferInstanceAs (Decidable (_ ∧ _))

theorem tokens_cons_plain {b : UInt8} (hb : Plain b) (pattern : List UInt8) :
    tokens (b :: pattern) = .literal b :: tokens pattern := by
  obtain ⟨hstar, hquestion, hopening, hbackslash⟩ := hb
  simp only [tokens, List.length_cons, tokensFrom, if_neg hstar, if_neg hquestion,
    if_neg hopening, if_neg hbackslash]

theorem glob_cons_plain {b : UInt8} (hb : Plain b) (pattern s : List UInt8) :
    glob (b :: pattern) s = true ↔ ∃ rest, s = b :: rest ∧ glob pattern rest = true := by
  rw [glob, tokens_cons_plain hb]
  cases s with
  | nil =>
    refine iff_of_false (by simp [matchTokens]) ?_
    rintro ⟨rest, h, -⟩
    cases h
  | cons c s =>
    simp only [matchTokens, Token.accepts, Bool.and_eq_true, decide_eq_true_eq, List.cons.injEq]
    constructor
    · rintro ⟨rfl, h⟩
      exact ⟨s, ⟨rfl, rfl⟩, h⟩
    · rintro ⟨rest, ⟨rfl, rfl⟩, h⟩
      exact ⟨rfl, h⟩

/-- Plain bytes in front of a pattern match themselves only. -/
theorem glob_append_plain {plain : List UInt8} (h : ∀ b ∈ plain, Plain b) (pattern s : List UInt8) :
    glob (plain ++ pattern) s = true ↔ ∃ rest, s = plain ++ rest ∧ glob pattern rest = true := by
  induction plain generalizing s with
  | nil => simp
  | cons b plain ih =>
    rw [List.forall_mem_cons] at h
    rw [List.cons_append, glob_cons_plain h.1]
    constructor
    · rintro ⟨rest, rfl, hrest⟩
      obtain ⟨rest', rfl, hglob⟩ := (ih h.2 rest).mp hrest
      exact ⟨rest', rfl, hglob⟩
    · rintro ⟨rest, rfl, hglob⟩
      exact ⟨plain ++ rest, rfl, (ih h.2 _).mpr ⟨rest, rfl, hglob⟩⟩

theorem glob_star (s : List UInt8) : glob [star] s = true := by
  have htokens : tokens [star] = [.anything] := by decide
  rw [glob, htokens, matchTokens, List.any_eq_true]
  exact ⟨[], (List.mem_tails _ _).mpr List.nil_suffix, rfl⟩

end WorkTicket.Glob
