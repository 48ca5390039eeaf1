import WorkTicket.Ai.GatewayText
import WorkTicket.Middleware.StreamSanitizer

/-! The sanitiser of what the AI answers: it looks at the normalised text in lower case, and
returns the text itself, cut to a limit. -/

namespace WorkTicket.Ai.OutputSanitizer

open WorkTicket.Regex WorkTicket.Ai.GatewayText
open WorkTicket.PythonJson (Value)
open WorkTicket.Middleware.StreamSanitizer (sanitizeOutputDict sanitizeItems sanitizeFields)

/-! ## The code -/

def disallowedOutputPatterns : List String :=
  ["ignore previous instructions", "ignore all previous instructions", "ignore all instructions",
    "system prompt", "you are now", "override", "forget", "disregard", "skip all", "do not follow",
    "you must not", "you will not", "act as", "pretend to", "new instructions",
    "updated instructions", "override system", "ignore your", "ignore prior", "forget previous",
    "forget prior", "unfiltered", "no restrictions", "no rules", "no limits", "you are free",
    "you can do anything", "output schema", "return only valid json", "return only this json",
    "critical rules", "i am an ai language model", "workticket's skilled trades estimator"]

section
variable (u : Unicode)

/-- `<script[^>]*>.*?</script>`, `on\w+\s*=`, `javascript\s*:`, `vbscript\s*:` and `data\s*:`. -/
def languagePatterns : List (Pattern ℕ) :=
  [(lit "<script").seq (.all [.star (.char (· != 0x3e)), lit ">", .star (.char (· != 0x0a)),
      lit "</script>"]),
    (lit "on").seq (.all [.plus (.char u.word), .star space, lit "="]),
    (lit "javascript").seq (.all [.star space, lit ":"]),
    (lit "vbscript").seq (.all [.star space, lit ":"]),
    (lit "data").seq (.all [.star space, lit ":"])]

/-- `sk_(live|test)_[a-zA-Z0-9]+`. -/
def apiKey : Pattern ℕ :=
  (lit "sk_").seq (.all [.oneOf (lit "live") [lit "test"], lit "_",
    .plus (.char fun c => asciiWord c && c != 0x5f)])

/-- `_semantic_risk_score` and `_detect_shingle_injection`, which may be any functions. -/
structure Scores where
  risk : Text → ℕ
  shingle : Text → ℚ

def injectionScoreThreshold : ℕ := 3

def shingleSimilarityThreshold : ℚ := 3 / 10

def maxOutputLength : ℕ := 10000

/-- `_sanitize_output_text` without an input text. -/
def sanitizeOutputText (scores : Scores) (text : Text) : Text :=
  if text = [] then text
  else
    let text := text.filter fun c => !isControl c
    let normalized := normalizeText u text
    let lower := u.lower normalized
    if disallowedOutputPatterns.any (contains lower) then sanitized
    else if (languagePatterns u).any (search u.word · false lower) then sanitized
    else if search u.word apiKey false lower then sanitized
    else if injectionScoreThreshold ≤ scores.risk normalized then sanitized
    else if shingleSimilarityThreshold ≤ scores.shingle normalized then sanitized
    else text.take maxOutputLength

/-! ## What is claimed -/

/-- No phrase, markup or key is in the text as the checks see it. -/
structure Clean (s : Text) : Prop where
  phrases : ∀ phrase ∈ disallowedOutputPatterns, ¬codes phrase <:+: u.lower (normalizeText u s)
  language : ∀ r ∈ languagePatterns u, ¬Found u.word r false (u.lower (normalizeText u s))
  apiKey : ¬Found u.word apiKey false (u.lower (normalizeText u s))

end

mutual

/-- The strings in a value, but for the keys. -/
def strings : Value → List Text
  | .str s => [s]
  | .arr items => itemStrings items
  | .obj fields => fieldStrings fields
  | .null | .bool _ | .int _ | .float _ | .nan | .infinity _ => []

def itemStrings : List Value → List Text
  | [] => []
  | v :: items => strings v ++ itemStrings items

def fieldStrings : List (Text × Value) → List Text
  | [] => []
  | (_, v) :: fields => strings v ++ fieldStrings fields

end

mutual

/-- The value with its strings emptied: its keys, the lengths of its lists and its other leaves. -/
def skeleton : Value → Value
  | .str _ => .str []
  | .arr items => .arr (itemSkeletons items)
  | .obj fields => .obj (fieldSkeletons fields)
  | .null => .null
  | .bool b => .bool b
  | .int n => .int n
  | .float literal => .float literal
  | .nan => .nan
  | .infinity negative => .infinity negative

def itemSkeletons : List Value → List Value
  | [] => []
  | v :: items => skeleton v :: itemSkeletons items

def fieldSkeletons : List (Text × Value) → List (Text × Value)
  | [] => []
  | (k, v) :: fields => (k, skeleton v) :: fieldSkeletons fields

end

/-! ## Traversal -/

section
variable (f : Text → Text)

mutual

theorem skeleton_sanitized (v : Value) : skeleton (sanitizeOutputDict f v) = skeleton v := by
  cases v with
  | arr items => simp only [sanitizeOutputDict, skeleton, itemSkeletons_sanitized items]
  | obj fields => simp only [sanitizeOutputDict, skeleton, fieldSkeletons_sanitized fields]
  | str | null | bool | int | float | nan | infinity => rfl

theorem itemSkeletons_sanitized (items : List Value) :
    itemSkeletons (sanitizeItems f items) = itemSkeletons items := by
  cases items with
  | nil => rfl
  | cons v items =>
    simp only [sanitizeItems, itemSkeletons, skeleton_sanitized v, itemSkeletons_sanitized items]

theorem fieldSkeletons_sanitized (fields : List (Text × Value)) :
    fieldSkeletons (sanitizeFields f fields) = fieldSkeletons fields := by
  cases fields with
  | nil => rfl
  | cons field fields =>
    obtain ⟨k, v⟩ := field
    simp only [sanitizeFields, fieldSkeletons, skeleton_sanitized v,
      fieldSkeletons_sanitized fields]

end

mutual

theorem strings_sanitized (v : Value) : strings (sanitizeOutputDict f v) = (strings v).map f := by
  cases v with
  | arr items => exact itemStrings_sanitized items
  | obj fields => exact fieldStrings_sanitized fields
  | str | null | bool | int | float | nan | infinity => rfl

theorem itemStrings_sanitized (items : List Value) :
    itemStrings (sanitizeItems f items) = (itemStrings items).map f := by
  cases items with
  | nil => rfl
  | cons v items =>
    simp only [sanitizeItems, itemStrings, List.map_append, strings_sanitized v,
      itemStrings_sanitized items]

theorem fieldStrings_sanitized (fields : List (Text × Value)) :
    fieldStrings (sanitizeFields f fields) = (fieldStrings fields).map f := by
  cases fields with
  | nil => rfl
  | cons field fields =>
    obtain ⟨k, v⟩ := field
    simp only [sanitizeFields, fieldStrings, List.map_append, strings_sanitized v,
      fieldStrings_sanitized fields]

end

end

/-! ## The texts that are returned -/

section
variable {u : Unicode} {r : Pattern ℕ} {s : Text}

/-- The phrases, the markup and the keys as expressions. -/
def forbidden (u : Unicode) : List (Pattern ℕ) :=
  disallowedOutputPatterns.map lit ++ languagePatterns u ++ [apiKey]

theorem clean_iff : Clean u s ↔
    ∀ r ∈ forbidden u, ¬Found u.word r false (u.lower (normalizeText u s)) := by
  constructor
  · intro h r hr
    rcases List.mem_append.mp hr with hr | hr
    · rcases List.mem_append.mp hr with hr | hr
      · obtain ⟨phrase, hphrase, rfl⟩ := List.mem_map.mp hr
        rw [lit, found_literal]
        exact h.phrases phrase hphrase
      · exact h.language r hr
    · rw [List.mem_singleton.mp hr]
      exact h.apiKey
  · intro h
    constructor
    · intro phrase hphrase hmem
      have hforbidden : lit phrase ∈ forbidden u := by
        simp only [forbidden, List.mem_append, List.mem_map]
        exact .inl (.inl ⟨phrase, hphrase, rfl⟩)
      exact h _ hforbidden (found_literal.mpr hmem)
    · intro r hr
      exact h r (by simp [forbidden, hr])
    · exact h _ (by simp [forbidden])

theorem forbidden_anchored (hr : r ∈ forbidden u) : r.anchored = false := by
  have hall : (forbidden u).all (fun r => !r.anchored) = true := rfl
  simpa using List.all_eq_true.mp hall r hr

theorem forbidden_alike (hu : u.Lawful) (hr : r ∈ forbidden u) :
    r.alike finalSigma sigma = true := by
  have hall : (forbidden u).all (·.alike finalSigma sigma) = true := by
    have hphrases : (disallowedOutputPatterns.map lit).all (·.alike finalSigma sigma) = true := by
      decide
    have hkey : apiKey.alike finalSigma sigma = true := by decide
    have hlanguage : (languagePatterns u).all (·.alike finalSigma sigma) = true := by
      have hword : (Pattern.char u.word).plus.alike finalSigma sigma = true := by
        simp [Pattern.plus, Pattern.alike, hu.word_sigma]
      simp only [languagePatterns, List.all_cons, List.all_nil, Pattern.all, List.foldr,
        Pattern.alike, hword]
      decide
    simp only [forbidden, List.all_append, hphrases, hlanguage, List.all_cons, hkey, List.all_nil,
      Bool.and_self]
  exact List.all_eq_true.mp hall r hr

/-- What is found in the start of a text, as the checks see it, is found in the text. -/
theorem found_of_take (hu : u.Lawful) (hr : r ∈ forbidden u) {n : ℕ}
    (h : Found u.word r false (u.lower (normalizeText u (s.take n)))) :
    Found u.word r false (u.lower (normalizeText u s)) := by
  have halike := forbidden_alike hu hr
  rw [found_lower hu halike] at h ⊢
  rw [← List.take_append_drop n s, normalizeText_append, List.flatMap_append]
  exact h.append (.inl (forbidden_anchored hr))

theorem Clean.take (hu : u.Lawful) (h : Clean u s) (n : ℕ) : Clean u (s.take n) := by
  rw [clean_iff] at h ⊢
  intro r hr hfound
  exact h r hr (found_of_take hu hr hfound)

/-- An expression that begins with a literal finds nothing where the literal is not. -/
theorem found_seq_left {word : ℕ → Bool} {r r' : Pattern ℕ} {b : Bool} {s : Text}
    (h : Found word (.seq r r') b s) : Found word r b s := by
  induction h with
  | here h =>
    cases h with
    | seq h h' => exact .here h
  | later h ih => exact .later ih

theorem normalizeText_sanitized (hu : u.Lawful) : normalizeText u sanitized = sanitized := by
  have hascii : ∀ c ∈ sanitized, c < 0x80 := by decide
  have hdecompose : sanitized.flatMap u.decompose = sanitized :=
    flatMap_eq_self fun c hc => hu.decompose_ascii c (hascii c hc)
  have hcombining : (sanitized.filter fun c => !u.combining c) = sanitized := by
    rw [List.filter_eq_self]
    intro c hc
    rw [hu.combining_ascii c (hascii c hc)]
    rfl
  rw [normalizeText, hdecompose, hcombining]
  decide

/-- The literal that a match begins with. -/
theorem not_found_seq {word : ℕ → Bool} {start : String} {r : Pattern ℕ} {b : Bool} {s : Text}
    (h : ¬codes start <:+: s) : ¬Found word ((lit start).seq r) b s := by
  intro hfound
  exact h (found_literal.mp (found_seq_left hfound))

/-- The text that stands for what was refused is not refused itself. -/
theorem clean_sanitized (hu : u.Lawful) : Clean u sanitized := by
  rw [clean_iff]
  intro r hr
  rw [found_lower hu (forbidden_alike hu hr), normalizeText_sanitized hu,
    flatMap_lowerChar_plain hu (by decide)]
  rcases List.mem_append.mp hr with hr | hr
  · rcases List.mem_append.mp hr with hr | hr
    · have hphrases : ∀ phrase ∈ disallowedOutputPatterns, ¬codes phrase <:+: sanitized := by
        decide
      obtain ⟨phrase, hphrase, rfl⟩ := List.mem_map.mp hr
      rw [lit, found_literal]
      exact hphrases phrase hphrase
    · simp only [languagePatterns, List.mem_cons, List.not_mem_nil, or_false] at hr
      rcases hr with rfl | rfl | rfl | rfl | rfl
      all_goals exact not_found_seq (by decide)
  · rw [List.mem_singleton.mp hr]
    exact not_found_seq (by decide)

theorem clean_nil (hu : u.Lawful) : Clean u [] := (clean_sanitized hu).take hu 0

/-- What the checks let pass is clean. -/
theorem clean_of_checks
    (hphrases : ¬disallowedOutputPatterns.any (contains (u.lower (normalizeText u s))) = true)
    (hlanguage : ¬(languagePatterns u).any
      (search u.word · false (u.lower (normalizeText u s))) = true)
    (hkey : ¬search u.word apiKey false (u.lower (normalizeText u s)) = true) : Clean u s := by
  constructor
  · intro phrase hphrase hmem
    exact hphrases (List.any_eq_true.mpr ⟨phrase, hphrase, decide_eq_true hmem⟩)
  · intro r hr hfound
    exact hlanguage (List.any_eq_true.mpr ⟨r, hr, search_iff.mpr hfound⟩)
  · intro hfound
    exact hkey (search_iff.mpr hfound)

theorem sanitizeOutputText_spec (hu : u.Lawful) (scores : Scores) (text : Text) :
    Clean u (sanitizeOutputText u scores text) ∧
      (sanitizeOutputText u scores text).length ≤ maxOutputLength := by
  have hsanitized : Clean u sanitized ∧ sanitized.length ≤ maxOutputLength :=
    ⟨clean_sanitized hu, by decide⟩
  unfold sanitizeOutputText
  split
  · rename_i hempty
    subst hempty
    exact ⟨clean_nil hu, Nat.zero_le _⟩
  · simp only
    split
    · exact hsanitized
    rename_i hphrases
    split
    · exact hsanitized
    rename_i hlanguage
    split
    · exact hsanitized
    rename_i hkey
    split
    · exact hsanitized
    split
    · exact hsanitized
    have hclean := clean_of_checks hphrases hlanguage hkey
    exact ⟨hclean.take hu maxOutputLength, List.length_take_le _ _⟩

end

/-- Every string in a sanitised value is clean and within the limit, and the value is as it was but
for its strings. -/
theorem sanitizeOutputDict_complete {u : Unicode} (hu : u.Lawful) (scores : Scores) (d : Value) :
    (∀ s ∈ strings (sanitizeOutputDict (sanitizeOutputText u scores) d),
        Clean u s ∧ s.length ≤ maxOutputLength) ∧
      skeleton (sanitizeOutputDict (sanitizeOutputText u scores) d) = skeleton d := by
  refine ⟨fun s hs => ?_, skeleton_sanitized _ d⟩
  rw [strings_sanitized] at hs
  obtain ⟨text, _, rfl⟩ := List.mem_map.mp hs
  exact sanitizeOutputText_spec hu scores text

/-- A list of notes, one of which would run a script. -/
theorem sanitizeOutputDict_notes :
    let scores : Scores := ⟨fun _ => 0, fun _ => 0⟩
    let notes : Value := .obj [(codes "notes", .arr [.str (codes "Replace the <b>valve</b>"),
      .str (codes "see <script>x</script>"), .int 3])]
    (∀ s ∈ strings (sanitizeOutputDict (sanitizeOutputText asciiTables scores) notes),
        Clean asciiTables s ∧ s.length ≤ maxOutputLength) ∧
      skeleton (sanitizeOutputDict (sanitizeOutputText asciiTables scores) notes) =
        skeleton notes :=
  sanitizeOutputDict_complete asciiTables_lawful _ _

end WorkTicket.Ai.OutputSanitizer
