import WorkTicket.Foundation.PythonFloats
import WorkTicket.Foundation.TextSplits
import WorkTicket.Middleware.StreamSanitizer

/-! What the text model answers, as the service reads it: the request with its retries, the code
fence that may stand around the JSON, the numbers that are cut to their bounds, and the checks of
the schema. Whatever goes wrong ends in the default output. -/

namespace WorkTicket.Ai.StructuredOutput

open WorkTicket.PythonJson (Value Interpreter loads)
open WorkTicket.TextSplits
open WorkTicket.Middleware.StreamSanitizer (isSpace)

/-! ## The schema -/

/-- Strings of a JSON value are lists of code points. -/
structure AIOutputSchema where
  problemType : List ℕ
  summary : List ℕ
  recommendedFix : List ℕ
  materials : List (List ℕ)
  estimatedHours : PyFloat
  laborCostEstimate : PyFloat
  permitRequired : Bool
  confidence : PyFloat
  isFallback : Bool
  partialFailure : Bool
  deriving DecidableEq

def codes (s : String) : List ℕ := s.toList.map Char.toNat

def maxConfidence : ℚ := 1
def maxHours : ℚ := 200
def maxLaborCost : ℚ := 50000
def maxMaterials : ℕ := 50

/-- `x < y`, which is false of `nan`. -/
def less : PyFloat → PyFloat → Bool
  | .fin x, .fin y => x < y
  | .nan, _ | _, .nan => false
  | .inf negative, .fin _ => negative
  | .fin _, .inf negative => !negative
  | .inf a, .inf b => a && !b

/-- `min(x, y)` and `max(x, y)` keep `x` unless the comparison says otherwise. -/
def pyMin (x y : PyFloat) : PyFloat := if less y x then y else x

def pyMax (x y : PyFloat) : PyFloat := if less x y then y else x

/-- The validators of the numbers. -/
def inRange (lowest highest : ℚ) (v : PyFloat) : Bool :=
  !less v (.fin lowest) && !less (.fin highest) v

def isBlank (s : List ℕ) : Bool := s.all fun c => isSpace (Char.ofNat c)

/-- The validators that run on the fields that are given; only the summary may not be. -/
def accepted (summaryGiven : Bool) (o : AIOutputSchema) : Bool :=
  inRange 0 maxConfidence o.confidence && inRange 0 maxHours o.estimatedHours &&
    inRange 0 maxLaborCost o.laborCostEstimate && o.materials.length ≤ maxMaterials &&
    !(summaryGiven && isBlank o.summary)

def defaultSchema : AIOutputSchema where
  problemType := codes "unknown"
  summary := codes "AI processing failed or model unavailable"
  recommendedFix := codes "Manual review required"
  materials := []
  estimatedHours := .fin 0
  laborCostEstimate := .fin 0
  permitRequired := false
  confidence := .fin 0
  isFallback := true
  partialFailure := false

/-! ## The text of an answer -/

abbrev Text := PythonJson.Text

def strip (s : Text) : Text := trim isSpace s

def fence : Text := ['\x60', '\x60', '\x60']

def jsonFence : Text := fence ++ "json".toList

def dropLine (cleaned : Text) : Text :=
  if fence <+: cleaned then cutLast fence (afterFirst '\n' cleaned) else cleaned

def dropTag (cleaned : Text) : Text :=
  if jsonFence <+: cleaned then
    strip (cutLast fence (strip (cleaned.drop jsonFence.length)))
  else cleaned

/-- The text that is given to `json.loads`. -/
def unfenced (result : Text) : Text := dropTag (strip (dropLine (strip result)))

/-! ## The data of an answer -/

/-- `float` of a text, `str` of any value, and what the schema takes for a `bool`. -/
structure Runtime where
  python : Interpreter
  parseFloat : List ℕ → Option PyFloat
  str : Value → List ℕ
  readBool : Value → Option Bool

section
variable (runtime : Runtime)

/-- `float(v)`; a literal is a float by itself. -/
def floatOf : Value → Option PyFloat
  | .int n => if |(n : ℚ)| < PyFloat.limit then some (.fin n) else none
  | .bool b => some (.fin (if b then 1 else 0))
  | .float literal => runtime.parseFloat (literal.map Char.toNat)
  | .nan => some .nan
  | .infinity negative => some (.inf negative)
  | .str s => runtime.parseFloat s
  | .null | .arr _ | .obj _ => none

def field (fields : List (List ℕ × Value)) (name : String) : Option Value :=
  fields.lookup (codes name)

/-- `float(data.get(name, 0))`. -/
def number (fields : List (List ℕ × Value)) (name : String) : Option PyFloat :=
  floatOf runtime ((field fields name).getD (.int 0))

def textField (fields : List (List ℕ × Value)) (name : String) : Option (List ℕ) :=
  match field fields name with
  | none => some []
  | some (.str s) => some s
  | some _ => none

def boolField (fields : List (List ℕ × Value)) (name : String) : Option Bool :=
  match field fields name with
  | none => some false
  | some v => runtime.readBool v

/-- Only a list is made a list of texts; of anything else the schema makes none. -/
def materialsField (fields : List (List ℕ × Value)) : Option (List (List ℕ)) :=
  match field fields "materials" with
  | none => some []
  | some (.arr items) => some ((items.map runtime.str).take maxMaterials)
  | some _ => none

def readSchema (fields : List (List ℕ × Value)) : Option AIOutputSchema := do
  let hours ← number runtime fields "estimated_hours"
  let labor ← number runtime fields "labor_cost_estimate"
  let confidence ← number runtime fields "confidence"
  let materials ← materialsField runtime fields
  let problemType ← textField fields "problem_type"
  let summary ← textField fields "summary"
  let recommendedFix ← textField fields "recommended_fix"
  let permitRequired ← boolField runtime fields "permit_required"
  let isFallback ← boolField runtime fields "is_fallback"
  let partialFailure ← boolField runtime fields "partial_failure"
  let o : AIOutputSchema :=
    { problemType, summary, recommendedFix, materials, permitRequired, isFallback, partialFailure
      estimatedHours := pyMin hours (.fin maxHours)
      laborCostEstimate := pyMin labor (.fin maxLaborCost)
      confidence := pyMax (.fin 0) (pyMin confidence (.fin maxConfidence)) }
  if accepted (field fields "summary").isSome o then some o else none

/-- What is read of the text, or `none` where an exception ends in the default. -/
def parsed (result : Text) : Option AIOutputSchema :=
  match loads runtime.python (unfenced result) with
  | .ok (.obj fields) => readSchema runtime fields
  | .ok _ | .error _ => none

/-! ## The request -/

/-- The `response` of a body. -/
inductive Response
  | text (s : Text)
  | other
  deriving DecidableEq

/-- What a try is answered: nothing when the request fails, else a body, which may be something
without fields, or have no response. -/
inductive Reply
  | failed
  | noFields
  | body (response : Option Response)
  deriving DecidableEq

def maxRetries : ℕ := 3

/-- The result of a try that does not raise. -/
def Reply.result : Reply → Option Response
  | .failed | .noFields => none
  | .body response => some (response.getD (.text []))

/-- `_generate`, where `replies k` is the answer to the try `k`; `none` if the last one raises. -/
def generate (replies : ℕ → Reply) : Option Response :=
  (List.range maxRetries).findSome? fun k => (replies k).result

def generateStructuredOutput (textModel : String) (replies : ℕ → Reply) : AIOutputSchema :=
  if textModel = "" then defaultSchema
  else
    match generate replies with
    | some (.text result) => (parsed runtime result).getD defaultSchema
    | some .other | none => defaultSchema

/-- The result of `generate_chat_output`, given the answer to it. -/
def generateChatOutput (replies : ℕ → Reply) : Option Value :=
  match generate replies with
  | some (.text result) =>
    if result = [] then none
    else if strip (unfenced result) = [] then none
    else (loads runtime.python (strip (unfenced result))).toOption
  | some .other | none => none

/-! ## Bounds -/

/-- Nothing but `nan` escapes the bounds of the hours and the labor, and nothing at all those of
the confidence and the materials. -/
structure Bounded (o : AIOutputSchema) : Prop where
  confidence : ∃ x, o.confidence = .fin x ∧ 0 ≤ x ∧ x ≤ maxConfidence
  hours : o.estimatedHours = .nan ∨ ∃ x, o.estimatedHours = .fin x ∧ 0 ≤ x ∧ x ≤ maxHours
  labor : o.laborCostEstimate = .nan ∨
    ∃ x, o.laborCostEstimate = .fin x ∧ 0 ≤ x ∧ x ≤ maxLaborCost
  materials : o.materials.length ≤ maxMaterials

end

theorem inRange_eq {lowest highest : ℚ} {v : PyFloat} (h : inRange lowest highest v = true) :
    v = .nan ∨ ∃ x, v = .fin x ∧ lowest ≤ x ∧ x ≤ highest := by
  cases v with
  | nan => exact .inl rfl
  | fin x =>
    simp only [inRange, less, Bool.and_eq_true, Bool.not_eq_true', decide_eq_false_iff_not,
      not_lt] at h
    exact .inr ⟨x, rfl, h⟩
  | inf negative => cases negative <;> cases h

/-- `max` with a number takes `nan` for that number. -/
theorem pyMax_ne_nan (x : ℚ) (v : PyFloat) : pyMax (.fin x) v ≠ .nan := by
  unfold pyMax
  split
  · rename_i hless
    intro hnan
    rw [hnan] at hless
    cases hless
  · nofun

section
variable {runtime : Runtime}

theorem defaultSchema_bounded : Bounded defaultSchema := by
  refine ⟨⟨0, rfl, le_rfl, zero_le_one⟩, .inr ⟨0, rfl, le_rfl, ?_⟩, .inr ⟨0, rfl, le_rfl, ?_⟩,
    Nat.zero_le _⟩
  all_goals norm_num [maxHours, maxLaborCost]

theorem readSchema_bounded {fields : List (List ℕ × Value)} {o : AIOutputSchema}
    (h : readSchema runtime fields = some o) : Bounded o := by
  simp only [readSchema, Option.bind_eq_bind, Option.bind_eq_some_iff, Option.ite_none_right_eq_some,
    Option.some.injEq] at h
  obtain ⟨hours, -, labor, -, confidence, -, materials, -, problemType, -, summary, -, fix, -,
    permit, -, fallback, -, failure, -, haccepted, rfl⟩ := h
  simp only [accepted, Bool.and_eq_true] at haccepted
  obtain ⟨⟨⟨⟨hconfidence, hhours⟩, hlabor⟩, hmaterials⟩, -⟩ := haccepted
  refine ⟨?_, inRange_eq hhours, inRange_eq hlabor, of_decide_eq_true hmaterials⟩
  exact (inRange_eq hconfidence).resolve_left (pyMax_ne_nan _ _)

/-- Whatever the model answers, and however often it fails, the output keeps to the bounds. -/
theorem generateStructuredOutput_bounded (runtime : Runtime) (textModel : String)
    (replies : ℕ → Reply) : Bounded (generateStructuredOutput runtime textModel replies) := by
  unfold generateStructuredOutput
  split
  · exact defaultSchema_bounded
  split
  · rename_i result _
    cases hparsed : parsed runtime result with
    | none => exact defaultSchema_bounded
    | some o =>
      unfold parsed at hparsed
      split at hparsed
      · exact readSchema_bounded hparsed
      all_goals cases hparsed
  all_goals exact defaultSchema_bounded

end

/-! ## Fences -/

/-- The text `whole` is the answer `body` as it is, in a fence with its own line for the language,
or in a fence on a single line; there may be something after the fence. -/
inductive Fenced (body : Text) : Text → Prop
  | plain : Fenced body body
  | block (lead language after : Text) (hlead : ∀ c ∈ lead, isSpace c)
      (hlanguage : '\n' ∉ language) (hafter : ¬fence <:+: fence.tail ++ after) :
      Fenced body (lead ++ (fence ++ (language ++ '\n' :: body) ++ (fence ++ after)))
  | line (lead after : Text) (hlead : ∀ c ∈ lead, isSpace c) (hbody : '\n' ∉ body)
      (hnone : ¬fence <:+: body) (hlast : '\n' ∉ after) (hafter : ¬fence <:+: fence.tail ++ after) :
      Fenced body (lead ++ (fence ++ ("json".toList ++ body) ++ (fence ++ after)))

section
variable {body : Text}

theorem fence_mark : ¬isSpace '\x60' := by decide

theorem strip_fenced {lead : Text} (hlead : ∀ c ∈ lead, isSpace c) (first after : Text) :
    strip (lead ++ (fence ++ first ++ (fence ++ after))) =
      fence ++ first ++ (fence ++ after.rdropWhile isSpace) := by
  have hsplit : ∀ after : Text, lead ++ (fence ++ first ++ (fence ++ after)) =
      (lead ++ (fence ++ first ++ ['\x60', '\x60'])) ++ '\x60' :: after := by
    intro after
    simp [fence]
  have hdrop : (lead ++ (fence ++ first ++ ['\x60', '\x60'])).dropWhile isSpace =
      fence ++ first ++ ['\x60', '\x60'] := by
    rw [List.dropWhile_append_of_pos hlead]
    exact List.dropWhile_cons_of_neg fence_mark
  rw [strip, hsplit, trim_append_of_not _ fence_mark, hdrop]
  simp [fence]

theorem not_infix_rdropWhile {after : Text} (hafter : ¬fence <:+: fence.tail ++ after) :
    ¬fence <:+: fence.tail ++ after.rdropWhile isSpace := by
  intro hinside
  have hstart : fence.tail ++ after.rdropWhile isSpace <+: fence.tail ++ after :=
    (List.prefix_append_right_inj _).mpr (List.rdropWhile_prefix isSpace after)
  exact hafter (hinside.trans hstart.isInfix)

/-- An answer whose text does not begin with a fence is only stripped. -/
theorem unfenced_plain (hbody : ¬fence <+: strip body) : unfenced body = strip body := by
  have htag : ¬jsonFence <+: strip body := fun h =>
    hbody ((List.prefix_append fence _).trans h)
  rw [unfenced, dropLine, if_neg hbody, strip, strip, trim_trim, dropTag]
  exact if_neg htag

theorem dropLine_block {language after : Text} (hlanguage : '\n' ∉ language)
    (hafter : ¬fence <:+: fence.tail ++ after) :
    dropLine (fence ++ (language ++ '\n' :: body) ++ (fence ++ after)) = body := by
  have hline : '\n' ∉ fence ++ language := by
    rw [List.mem_append, not_or]
    exact ⟨by decide, hlanguage⟩
  have hstart : fence <+: fence ++ (language ++ '\n' :: body) ++ (fence ++ after) := by
    rw [List.append_assoc]
    exact List.prefix_append _ _
  have hsplit : fence ++ (language ++ '\n' :: body) ++ (fence ++ after) =
      fence ++ language ++ '\n' :: (body ++ (fence ++ after)) := by simp
  rw [dropLine, if_pos hstart, hsplit, afterFirst_append hline]
  exact cutLast_append body hafter

/-- With no line for the language the whole text is kept up to the last fence. -/
theorem dropLine_line {after : Text} (hbody : '\n' ∉ body) (hlast : '\n' ∉ after)
    (hafter : ¬fence <:+: fence.tail ++ after) :
    dropLine (jsonFence ++ body ++ (fence ++ after)) = jsonFence ++ body := by
  have hline : '\n' ∉ jsonFence ++ body ++ (fence ++ after) := by
    simp only [List.mem_append, not_or]
    exact ⟨⟨by decide, hbody⟩, by decide, hlast⟩
  have hstart : fence <+: jsonFence ++ body ++ (fence ++ after) := by
    rw [jsonFence, List.append_assoc, List.append_assoc]
    exact List.prefix_append _ _
  rw [dropLine, if_pos hstart, afterFirst_of_not_mem hline]
  exact cutLast_append _ hafter

theorem dropTag_line (hnone : ¬fence <:+: body) :
    dropTag (strip (jsonFence ++ body)) = strip body := by
  have hstrip : strip (jsonFence ++ body) = jsonFence ++ body.rdropWhile isSpace :=
    trim_append_of_not ['\x60', '\x60', '\x60', 'j', 's', 'o'] (by decide) body
  have hinside : strip body <:+: body :=
    (List.rdropWhile_prefix isSpace _).isInfix.trans (List.dropWhile_suffix _).isInfix
  have hcut : cutLast fence (strip body) = strip body := by
    rw [cutLast, beforeLast_eq_none fun h => hnone (h.trans hinside), Option.getD_none]
  have hrest : strip (body.rdropWhile isSpace) = strip body := trim_rdropWhile _ _
  rw [hstrip, dropTag, if_pos (List.prefix_append _ _), List.drop_left, hrest, hcut]
  exact trim_trim _ _

theorem unfenced_fenced (hbody : ¬fence <+: strip body) {whole : Text} (h : Fenced body whole) :
    unfenced whole = strip body := by
  cases h with
  | plain => exact unfenced_plain hbody
  | block lead language after hlead hlanguage hafter =>
    have htag : dropTag (strip body) = strip body := by
      rw [dropTag]
      exact if_neg fun h => hbody ((List.prefix_append fence _).trans h)
    rw [unfenced, strip_fenced hlead, dropLine_block hlanguage (not_infix_rdropWhile hafter), htag]
  | line lead after hlead hline hnone hlast hafter =>
    have hrest : '\n' ∉ after.rdropWhile isSpace := fun h =>
      hlast ((List.rdropWhile_prefix isSpace after).subset h)
    rw [unfenced, strip_fenced hlead, ← List.append_assoc fence,
      ← jsonFence, dropLine_line hline hrest (not_infix_rdropWhile hafter), dropTag_line hnone]

end

section
variable {runtime : Runtime} {body whole : Text} {replies : ℕ → Reply}

theorem generateChatOutput_eq (h : generate replies = some (.text whole)) :
    generateChatOutput runtime replies =
      if strip (unfenced whole) = [] then none
      else (loads runtime.python (strip (unfenced whole))).toOption := by
  rw [generateChatOutput, h]
  by_cases hempty : whole = []
  · subst hempty
    rw [if_pos (show strip (unfenced []) = [] by decide)]
    exact if_pos rfl
  · exact if_neg hempty

end

/-- Only the second try is answered. -/
def answeredLate (s : Text) : ℕ → Reply
  | 0 => .failed
  | _ => .body (some (.text s))

def emptyObject : Text := ['\x7b', '\x7d', '\n']

def fencedObject : Text :=
  [] ++ (fence ++ ("json".toList ++ '\n' :: emptyObject) ++ (fence ++ [' ', 'o', 'k']))

/-- A runtime that is right for data without floats, with texts and plain truth values only. -/
def plainRuntime : Runtime where
  python := ⟨fun literal => literal.filter (· ≠ '\n'), by simp, 990⟩
  parseFloat _ := none
  str
    | .str s => s
    | _ => []
  readBool
    | .bool b => some b
    | _ => none

end WorkTicket.Ai.StructuredOutput
