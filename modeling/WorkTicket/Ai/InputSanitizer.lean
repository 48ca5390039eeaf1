import WorkTicket.Ai.GatewayText

/-! The sanitiser of what is put into a prompt: a phrase is looked for, tokens are removed, patterns
are looked for, and what is left is escaped and cut to a limit. -/

namespace WorkTicket.Ai.InputSanitizer

open WorkTicket.Regex WorkTicket.Ai.GatewayText

/-! ## The code -/

def llmSpecialTokens : List String :=
  ["<|system|>", "<|user|>", "<|assistant|>", "<s>", "</s>", "[INST]", "[/INST]", "<<SYS>>",
    "<</SYS>>", "### System:", "### User:", "### Assistant:", "system_prompt", "user_prompt"]

/-- `verb\s+(all\s+)?(prior|previous|all\s+)?\s*(instructions?|...|safety)\b` after a `\b`. -/
def ignoring (verb : String) : Pattern ℕ :=
  let allThe : Pattern ℕ := (lit "all").seq (.plus space)
  let plural (noun : String) : Pattern ℕ := (lit noun).seq (.opt (lit "s"))
  .all [.boundary, lit verb, .plus space, .opt allThe,
    .opt (.oneOf (lit "prior") [lit "previous", allThe]), .star space,
    .oneOf (plural "instruction") [plural "prompt", plural "command", plural "direction",
      plural "rule", lit "safety"], .boundary]

/-- The words with space between them, and no letter next to them. -/
def spaced (first : Pattern ℕ) (rest : List (Pattern ℕ)) : Pattern ℕ :=
  .all [.boundary, first, .all (rest.map (.seq (.plus space) ·)), .boundary]

def instructionOverridePatterns : List (Pattern ℕ) :=
  [ignoring "ignore", ignoring "disregard", ignoring "forget",
    spaced (lit "override") [.oneOf (lit "system") [lit "instructions", lit "prompt", lit "all"]],
    spaced (lit "pretend") [lit "to"],
    spaced (lit "act") [lit "as"],
    spaced (lit "you") [lit "are", .oneOf (lit "now") [lit "free"]],
    spaced (lit "you") [lit "can", lit "do", lit "anything"],
    spaced (lit "no")
      [.oneOf (lit "restrictions") [lit "rules", lit "limits", lit "boundaries"]],
    spaced (lit "unfiltered") [],
    spaced (.oneOf (lit "new") [lit "updated"]) [(lit "instruction").seq (.opt (lit "s"))],
    spaced (lit "company_id") [],
    spaced (lit "secret") []]

/-- `text.replace(token, "")`, after `skip` more characters of a token that was found. -/
def removeFrom (token : Text) : ℕ → Text → Text
  | _, [] => []
  | skip + 1, _ :: text => removeFrom token skip text
  | 0, c :: text =>
    if token <+: c :: text then removeFrom token (token.length - 1) text
    else c :: removeFrom token 0 text

/-- The tokens are removed one after the other, each once. -/
def removeTokens (text : Text) : Text :=
  llmSpecialTokens.foldl (fun text token => removeFrom (codes token) 0 text) text

/-- `text.replace(c, by)`. -/
def replaceChar (c : ℕ) (entity : String) (text : Text) : Text :=
  text.flatMap fun d => if d = c then codes entity else [d]

def escapeText (text : Text) : Text :=
  let text := replaceChar 0x26 "&amp;" text
  let text := replaceChar 0x3c "&lt;" text
  let text := replaceChar 0x3e "&gt;" text
  replaceChar 0x22 "&quot;" text

def maxInputLength : ℕ := 2000

/-- The text after its control characters are blanked and it is normalised. -/
def normalized (u : Unicode) (text : Text) : Text :=
  normalizeText u (text.map fun c => if isControl c then 0x20 else c)

def sanitizeInputText (u : Unicode) (text : Text) : Text :=
  if text = [] then text
  else
    let text := normalized u text
    if contains (u.lower text) "system prompt" then sanitized
    else
      let text := removeTokens text
      if instructionOverridePatterns.any (search u.word · false (u.lower text)) then sanitized
      else (escapeText text).take maxInputLength

/-! ## What is claimed -/

/-- The text has none of the tokens, nor, in lower case, the phrase or a pattern. -/
structure Complete (u : Unicode) (text : Text) : Prop where
  tokens : ∀ token ∈ llmSpecialTokens, ¬codes token <:+: text
  phrase : ¬codes "system prompt" <:+: u.lower text
  patterns : ∀ r ∈ instructionOverridePatterns, ¬Found u.word r false (u.lower text)

/-! ## Escaping and cutting -/

/-- What the four replacements make of a character. -/
def escape (c : ℕ) : Text :=
  if c = 0x26 then codes "&amp;"
  else if c = 0x3c then codes "&lt;"
  else if c = 0x3e then codes "&gt;"
  else if c = 0x22 then codes "&quot;"
  else [c]

/-- The characters that fit a limit when they are escaped. -/
def kept : ℕ → Text → Text
  | _, [] => []
  | n, c :: text => if (escape c).length ≤ n then c :: kept (n - (escape c).length) text else []

/-- What can stand between the `&` of an entity and the place where it ends or is cut. -/
def entityStarts : List Text :=
  ["", "a", "am", "amp", "l", "lt", "g", "gt", "q", "qu", "quo", "quot"].map codes

def separators : Text := codes "&<>\";"

theorem mem_special {c : ℕ} :
    c ∈ codes "&<>\"" ↔ c = 0x26 ∨ c = 0x3c ∨ c = 0x3e ∨ c = 0x22 := by
  have hcodes : codes "&<>\"" = [0x26, 0x3c, 0x3e, 0x22] := by decide
  rw [hcodes]
  simp

theorem escape_cases (c : ℕ) :
    escape c = [c] ∨ c ∈ codes "&<>\"" ∧
      ∃ body ∈ entityStarts, escape c = 0x26 :: (body ++ [0x3b]) := by
  by_cases hc : c ∈ codes "&<>\""
  · have hall : ∀ c ∈ codes "&<>\"",
        ∃ body ∈ entityStarts, escape c = 0x26 :: (body ++ [0x3b]) := by
      decide
    exact .inr ⟨hc, hall c hc⟩
  · rw [mem_special] at hc
    simp only [not_or] at hc
    exact .inl (by simp [escape, hc])

theorem escapeText_eq (text : Text) : escapeText text = text.flatMap escape := by
  simp only [escapeText, replaceChar, List.flatMap_assoc]
  apply List.flatMap_congr
  intro c _
  by_cases hc : c ∈ codes "&<>\""
  · have hall : ∀ c ∈ codes "&<>\"",
        ((((if c = 0x26 then codes "&amp;" else [c]).flatMap
          fun d => if d = 0x3c then codes "&lt;" else [d]).flatMap
          fun d => if d = 0x3e then codes "&gt;" else [d]).flatMap
          fun d => if d = 0x22 then codes "&quot;" else [d]) = escape c := by
      decide
    simpa only [List.flatMap_assoc] using hall c hc
  · rw [mem_special] at hc
    simp only [not_or] at hc
    simp [escape, hc]

/-- The cut leaves what fits, and perhaps the start of an entity. -/
theorem take_escape (n : ℕ) (text : Text) :
    (text.flatMap escape).take n = (kept n text).flatMap escape ∨
      ∃ rest ∈ entityStarts,
        (text.flatMap escape).take n = (kept n text).flatMap escape ++ 0x26 :: rest := by
  induction text generalizing n with
  | nil => exact .inl List.take_nil
  | cons c text ih =>
    rw [List.flatMap_cons, List.take_append]
    by_cases hfits : (escape c).length ≤ n
    · rw [kept, if_pos hfits, List.flatMap_cons, List.take_of_length_le hfits]
      rcases ih (n - (escape c).length) with hcut | ⟨rest, hrest, hcut⟩
      · exact .inl (by rw [hcut])
      · exact .inr ⟨rest, hrest, by rw [hcut, List.append_assoc]⟩
    · have hnone : n - (escape c).length = 0 := by omega
      rw [kept, if_neg hfits, hnone, List.take_zero, List.append_nil, List.flatMap_nil]
      rcases escape_cases c with hplain | ⟨hc, -⟩
      · left
        rw [hplain] at hfits ⊢
        have hzero : n = 0 := by simpa using hfits
        rw [hzero, List.take_zero]
      · have hall : ∀ c ∈ codes "&<>\"", ∀ n < (escape c).length,
            (escape c).take n = [] ∨
              ∃ rest ∈ entityStarts, (escape c).take n = [] ++ 0x26 :: rest := by
          decide
        exact hall c hc n (by omega)

theorem lt_not_mem_escape (c : ℕ) : 0x3c ∉ escape c := by
  by_cases hc : c ∈ codes "&<>\""
  · have hall : ∀ c ∈ codes "&<>\"", 0x3c ∉ escape c := by decide
    exact hall c hc
  · rw [mem_special] at hc
    simp only [not_or] at hc
    simpa [escape, hc] using fun h => hc.2.1 h.symm

/-- The escaping leaves no token with a `<`. -/
theorem not_infix_of_lt {token : Text} (htoken : 0x3c ∈ token) (n : ℕ) (text : Text) :
    ¬token <:+: (text.flatMap escape).take n := by
  intro h
  have hmem := List.mem_of_mem_take (h.subset htoken)
  obtain ⟨c, -, hc⟩ := List.mem_flatMap.mp hmem
  exact lt_not_mem_escape c hc

/-! ## What is found in an escaped text -/

/-- The expression finds nothing in an entity and does not get past its ends. -/
def escapable (r : Pattern ℕ) : Bool :=
  separators.all (r.rejects ·) && entityStarts.all fun body => !search asciiWord r false body

section
variable {u : Unicode} {r : Pattern ℕ} {body : Text}

theorem rejects_separator (hr : escapable r = true) {d : ℕ} (hd : d ∈ separators) :
    r.rejects d = true := by
  simp only [escapable, Bool.and_eq_true] at hr
  exact List.all_eq_true.mp hr.1 d hd

theorem word_separator (hu : u.Lawful) {d : ℕ} (hd : d ∈ separators) : u.word d = false := by
  have hascii : ∀ d ∈ separators, d < 0x80 ∧ asciiWord d = false := by decide
  obtain ⟨hlt, hword⟩ := hascii d hd
  rw [hu.word_ascii d hlt, hword]

theorem plain_entity (hbody : body ∈ entityStarts) : plain body = true := by
  have hall : ∀ body ∈ entityStarts, plain body = true := by decide
  exact hall body hbody

theorem search_of_found (hu : u.Lawful) {text : Text} (htext : plain text = true)
    (h : Found u.word r false text) : search asciiWord r false text = true := by
  apply search_iff.mpr
  apply h.congr
  intro c hc
  have hplain := List.all_eq_true.mp htext c hc
  simp only [Bool.and_eq_true, decide_eq_true_eq] at hplain
  exact hu.word_ascii c hplain.1

theorem not_found_entity (hu : u.Lawful) (hr : escapable r = true) (hbody : body ∈ entityStarts) :
    ¬Found u.word r false body := by
  intro hfound
  simp only [escapable, Bool.and_eq_true] at hr
  have hnone := List.all_eq_true.mp hr.2 body hbody
  rw [search_of_found hu (plain_entity hbody) hfound] at hnone
  cases hnone

/-- Neither the escaping nor the rest of an entity at a cut hides a match or makes one, whatever is
done to the characters that are not plain. -/
theorem found_cut (hu : u.Lawful) (hr : escapable r = true) {low : ℕ → Text}
    (hlow : ∀ s, plain s = true → s.flatMap low = s) (n : ℕ) (text : Text) :
    Found u.word r false (((text.flatMap escape).take n).flatMap low) ↔
      Found u.word r false ((kept n text).flatMap low) := by
  have hseparates : ∀ d, d ∈ separators → r.rejects d = true ∧ u.word d = false :=
    fun d hd => ⟨rejects_separator hr hd, word_separator hu hd⟩
  have hcells : Found u.word r false (((kept n text).flatMap escape).flatMap low) ↔
      Found u.word r false ((kept n text).flatMap low) := by
    rw [List.flatMap_assoc]
    apply found_flatMap hseparates _ (kept n text) []
    intro c
    rcases escape_cases c with hplain | ⟨hc, body, hbody, hescape⟩
    · left
      rw [hplain, List.flatMap_cons, List.flatMap_nil, List.append_nil]
    · right
      have hspecial : ∀ c ∈ codes "&<>\"", c ∈ separators ∧ plain [c] = true := by decide
      obtain ⟨hseparator, hplain⟩ := hspecial c hc
      have hentity : ∀ body ∈ entityStarts, plain (0x26 :: (body ++ [0x3b])) = true := by decide
      refine ⟨c, 0x26, 0x3b, body, hseparator, by decide, by decide,
        not_found_entity hu hr hbody, ?_, ?_⟩
      · have hsame := hlow [c] hplain
        simpa using hsame
      · rw [hescape]
        exact hlow _ (hentity body hbody)
  rcases take_escape n text with hcut | ⟨rest, hrest, hcut⟩
  · rw [hcut]
    exact hcells
  · have hstart : ∀ rest ∈ entityStarts, plain (0x26 :: rest) = true := by decide
    have hamp : 0x26 ∈ separators := by decide
    rw [hcut, List.flatMap_append, hlow _ (hstart rest hrest),
      found_append_cons (rejects_separator hr hamp) (word_separator hu hamp), hcells]
    exact or_iff_left (not_found_entity hu hr hrest)

theorem found_lower_cut (hu : u.Lawful) (hr : escapable r = true)
    (halike : r.alike finalSigma sigma = true) (n : ℕ) (text : Text) :
    Found u.word r false (u.lower ((text.flatMap escape).take n)) ↔
      Found u.word r false (u.lower (kept n text)) := by
  rw [found_lower hu halike, found_lower hu halike]
  exact found_cut hu hr (fun s hs => flatMap_lowerChar_plain hu hs) n text

theorem infix_cut {token : String} (htoken : escapable (lit token) = true) (n : ℕ) (text : Text) :
    codes token <:+: (text.flatMap escape).take n ↔ codes token <:+: kept n text := by
  have hcut := found_cut asciiTables_lawful htoken
    (fun s _ => List.flatMap_singleton' s) n text
  simpa only [List.flatMap_singleton', lit, found_literal] using hcut

end

/-! ## What the sanitiser leaves -/

/-- One of the two checks answers instead of the text. -/
def refused (u : Unicode) (text : Text) : Bool :=
  contains (u.lower (normalized u text)) "system prompt" ||
    instructionOverridePatterns.any
      (search u.word · false (u.lower (removeTokens (normalized u text))))

/-- The tokens are removed from the text for good: in the part that fits the limit the removal has
not put together a token, but for those that the escaping breaks, nor the phrase; and the limit
does not cut a longer word to the end of a pattern. -/
structure Settled (u : Unicode) (text : Text) : Prop where
  tokens : ∀ token ∈ llmSpecialTokens, 0x3c ∉ codes token →
    ¬codes token <:+: kept maxInputLength text
  phrase : ¬codes "system prompt" <:+: u.lower (kept maxInputLength text)
  cut : kept maxInputLength text ≠ text →
    ∀ r ∈ instructionOverridePatterns, ¬Found u.word r false (u.lower (kept maxInputLength text))

section
variable {u : Unicode} {text : Text}

theorem escapable_patterns :
    ∀ r ∈ lit "system prompt" :: instructionOverridePatterns,
      escapable r = true ∧ r.alike finalSigma sigma = true := by
  have hall : (lit "system prompt" :: instructionOverridePatterns).all
      (fun r => escapable r && r.alike finalSigma sigma) = true := by
    decide
  intro r hr
  simpa using List.all_eq_true.mp hall r hr

theorem found_pattern_cut (hu : u.Lawful) {r : Pattern ℕ}
    (hr : r ∈ lit "system prompt" :: instructionOverridePatterns) (n : ℕ) (text : Text) :
    Found u.word r false (u.lower ((text.flatMap escape).take n)) ↔
      Found u.word r false (u.lower (kept n text)) :=
  found_lower_cut hu (escapable_patterns r hr).1 (escapable_patterns r hr).2 n text

theorem infix_token_cut {token : String} (htoken : token ∈ llmSpecialTokens)
    (hlt : 0x3c ∉ codes token) (n : ℕ) (text : Text) :
    codes token <:+: (text.flatMap escape).take n ↔ codes token <:+: kept n text := by
  have hall : ∀ token ∈ llmSpecialTokens, 0x3c ∉ codes token → escapable (lit token) = true := by
    decide
  exact infix_cut (hall token htoken hlt) n text

theorem infix_phrase_cut (hu : u.Lawful) (n : ℕ) (text : Text) :
    codes "system prompt" <:+: u.lower ((text.flatMap escape).take n) ↔
      codes "system prompt" <:+: u.lower (kept n text) := by
  have hcut := found_pattern_cut hu List.mem_cons_self n text
  simpa only [lit, found_literal] using hcut

/-- What is escaped and cut is complete exactly if the removal was. -/
theorem complete_escaped_iff (hu : u.Lawful)
    (hpatterns : ∀ r ∈ instructionOverridePatterns, ¬Found u.word r false (u.lower text)) :
    Complete u ((text.flatMap escape).take maxInputLength) ↔ Settled u text := by
  constructor
  · intro h
    constructor
    · intro token htoken hlt
      rw [← infix_token_cut htoken hlt]
      exact h.tokens token htoken
    · rw [← infix_phrase_cut hu]
      exact h.phrase
    · intro _ r hr
      rw [← found_pattern_cut hu (List.mem_cons_of_mem _ hr)]
      exact h.patterns r hr
  · intro h
    constructor
    · intro token htoken
      by_cases hlt : 0x3c ∈ codes token
      · exact not_infix_of_lt hlt _ _
      · rw [infix_token_cut htoken hlt]
        exact h.tokens token htoken hlt
    · rw [infix_phrase_cut hu]
      exact h.phrase
    · intro r hr
      rw [found_pattern_cut hu (List.mem_cons_of_mem _ hr)]
      by_cases hwhole : kept maxInputLength text = text
      · rw [hwhole]
        exact hpatterns r hr
      · exact h.cut hwhole r hr

theorem complete_of_plain (hu : u.Lawful) (hplain : plain text = true)
    (htokens : ∀ token ∈ llmSpecialTokens, ¬codes token <:+: text)
    (hsearch : ∀ r ∈ lit "system prompt" :: instructionOverridePatterns,
      search asciiWord r false text = false) : Complete u text := by
  have hnone : ∀ r ∈ lit "system prompt" :: instructionOverridePatterns,
      ¬Found u.word r false (u.lower text) := by
    intro r hr hfound
    rw [found_lower hu (escapable_patterns r hr).2, flatMap_lowerChar_plain hu hplain] at hfound
    have hmatch := search_of_found hu hplain hfound
    rw [hsearch r hr] at hmatch
    cases hmatch
  constructor
  · exact htokens
  · have hphrase := hnone _ List.mem_cons_self
    simpa only [lit, found_literal] using hphrase
  · exact fun r hr => hnone r (List.mem_cons_of_mem _ hr)

theorem complete_sanitized (hu : u.Lawful) : Complete u sanitized := by
  apply complete_of_plain hu
  · decide
  · decide
  · decide

theorem complete_nil (hu : u.Lawful) : Complete u [] := by
  apply complete_of_plain hu
  · decide
  · decide
  · decide

theorem refused_eq_false :
    refused u text = false ↔
      contains (u.lower (normalized u text)) "system prompt" = false ∧
        ∀ r ∈ instructionOverridePatterns,
          ¬Found u.word r false (u.lower (removeTokens (normalized u text))) := by
  simp only [refused, Bool.or_eq_false_iff, List.any_eq_false, search_iff]

theorem sanitizeInputText_eq (hempty : text ≠ []) :
    sanitizeInputText u text = if refused u text then sanitized
      else ((removeTokens (normalized u text)).flatMap escape).take maxInputLength := by
  simp only [sanitizeInputText, if_neg hempty, refused, escapeText_eq]
  split
  · rename_i hphrase
    simp [hphrase]
  · rename_i hphrase
    simp [hphrase]

end

end WorkTicket.Ai.InputSanitizer
