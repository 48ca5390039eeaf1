import WorkTicket.Ai.CircuitBreaker
import WorkTicket.Ai.InputSanitizer
import WorkTicket.Ai.OutputSanitizer
import WorkTicket.Ai.StructuredOutput
import WorkTicket.Foundation.Program

/-! The AI gateway: how a job is routed to the services through their circuit breakers and
limiters, each route with its record in the audit log, and what the services' outputs become. -/

namespace WorkTicket.Ai.Gateway

open Program hiding ask
open WorkTicket.Ai.GatewayText (Text Unicode)
open WorkTicket.Ai.CircuitBreaker (Breaker CircuitState)
open WorkTicket.Ai.InputSanitizer (sanitizeInputText)
open WorkTicket.Ai.OutputSanitizer (Scores Clean sanitizeOutputText maxOutputLength)
open WorkTicket.Ai.StructuredOutput hiding Text

inductive Circuit
  | llm
  | vision
  | whisper
  deriving DecidableEq, Repr

inductive Limiter
  | llm
  | whisper
  deriving DecidableEq, Repr

inductive RequestType
  | audio
  | vision
  | text
  deriving DecidableEq, Repr

/-- What can leave an `await`: a `TimeoutError`, another `Exception`, or the cancellation of the
task, which is none. -/
inductive Fault
  | timeout
  | exception (text : String)
  | cancelled
  deriving DecidableEq, Repr

structure Caller where
  companyId : Option String
  userId : Option String
  jobId : Option String
  traceId : Option String
  deriving DecidableEq, Repr

/-- The arguments of `audit.log` that the gateway gives. -/
structure Record where
  requestType : RequestType
  latencyMs : ℚ
  success : Bool
  caller : Caller
  modelUsed : String
  circuitState : CircuitState
  errorMessage : Option String
  queuePressureAtTime : Option ℤ
  deriving DecidableEq

/-- The metadata of a trace. -/
inductive Metadata
  | audio (hasTranscript : Bool)
  | vision (imageCount : ℕ)
  | text (confidence : PyFloat) (isFallback : Bool) (partialFailures : List RequestType)
  deriving DecidableEq

structure Trace where
  traceId : String
  stepName : String
  caller : Caller
  durationMs : ℚ
  metadata : Metadata
  deriving DecidableEq

inductive Service
  | transcribeAudio (url : Text)
  | analyzeImages (urls : List Text)
  | generateStructuredOutput (transcript visionAnalysis : Text)
      (description tradeType : Option Text)
  deriving DecidableEq

/-- `isAvailable` answers with the state that is read right after it, too. -/
inductive Command
  | isAvailable (c : Circuit)
  | recordSuccess (c : Circuit)
  | recordFailure (c : Circuit)
  | enter (l : Limiter)
  | leave (l : Limiter)
  | call (x : Service)
  | monotonic
  | queuePressure
  | insertRecord (r : Record)
  | insertTrace (t : Trace)
  deriving DecidableEq

/-- Of the text service the replies to its tries are taken, of the others their results. -/
@[reducible] def Answer : Command → Type
  | .isAvailable _ => Bool × CircuitState
  | .call (.generateStructuredOutput _ _ _ _) => ℕ → Reply
  | .call (.transcribeAudio _) | .call (.analyzeImages _) => Text
  | .monotonic => ℚ
  | .queuePressure => ℤ
  | .recordSuccess _ | .recordFailure _ | .enter _ | .leave _ | .insertRecord _
  | .insertTrace _ => Unit

abbrev Prog := Program Answer Fault

abbrev ask (c : Command) : Prog (Answer c) := Program.ask c

/-- `try: x except Exception: logger.error(...)` -/
def logged (x : Prog Unit) : Prog Unit := do
  match ← x.outcome with
  | .ok () => return ()
  | .error .cancelled => raise .cancelled
  | .error _ => return ()

/-! ## A route -/

structure Settings where
  ollamaTimeout : ℤ
  whisperModelSize : String
  ollamaTextModel : String
  maxImagesPerJob : ℕ
  unicode : Unicode
  scores : Scores
  runtime : Runtime

section
variable (settings : Settings)

def timeoutOf : RequestType → ℤ
  | .audio => min 120 settings.ollamaTimeout
  | .vision => min settings.ollamaTimeout 180
  | .text => settings.ollamaTimeout

structure Route (x : Service) (α : Type) where
  requestType : RequestType
  circuit : Circuit
  limiter : Limiter
  modelUsed : String
  fallback : α
  read : Answer (.call x) → α
  caller : Caller

section
variable {x : Service} {α : Type} (r : Route x α)

def Route.record (latencyMs : ℚ) (success : Bool) (circuitState : CircuitState)
    (errorMessage : Option String) (queuePressure : Option ℤ) : Record :=
  ⟨r.requestType, latencyMs, success, r.caller, r.modelUsed, circuitState, errorMessage,
    queuePressure⟩

/-- The `try` block. -/
def Route.attempt (circuitState : CircuitState) (started : ℚ) : Prog α := do
  let result ← ask (.call x)
  let now ← ask .monotonic
  ask (.recordSuccess r.circuit)
  let pressure ← ask .queuePressure
  logged (ask (.insertRecord
    (r.record ((now - started) * 1000) true circuitState none (some pressure))))
  return r.read result

/-- What both `except` blocks do. -/
def Route.failed (circuitState : CircuitState) (started : ℚ) (message : String) : Prog α := do
  let now ← ask .monotonic
  ask (.recordFailure r.circuit)
  let pressure ← ask .queuePressure
  logged (ask (.insertRecord
    (r.record ((now - started) * 1000) false circuitState (some message) (some pressure))))
  return r.fallback

/-- The body of the `async with`. -/
def Route.guarded (circuitState : CircuitState) (started : ℚ) : Prog α := do
  match ← (r.attempt circuitState started).outcome with
  | .ok result => return result
  | .error .timeout =>
    r.failed circuitState started
      ("timeout after " ++ toString (timeoutOf settings r.requestType) ++ "s")
  | .error (.exception text) => r.failed circuitState started text
  | .error .cancelled => raise .cancelled

def Route.limited (circuitState : CircuitState) : Prog α := do
  let started ← ask .monotonic
  ask (.enter r.limiter)
  let ending ← (r.guarded settings circuitState started).outcome
  ask (.leave r.limiter)
  match ending with
  | .ok result => return result
  | .error e => raise e

/-- `_route`. -/
def Route.run : Prog α := do
  let availability ← ask (.isAvailable r.circuit)
  if availability.1 = false then
    logged (ask (.insertRecord
      (r.record 0 false availability.2 (some "circuit breaker open") none)))
    return r.fallback
  else r.limited settings availability.2

end

/-! ## A job -/

/-- A description or trade type that is absent is empty; one that is null stays null. -/
structure JobData where
  audioUrl : Option Text
  imageUrls : Option (Option (List Text))
  description : Option Text
  tradeType : Option Text
  deriving DecidableEq

def llmFallback : AIOutputSchema where
  problemType := codes "ai_unavailable"
  summary := codes "AI processing is currently unavailable. Manual review required."
  recommendedFix := codes "Please review the job manually or try again later."
  materials := []
  estimatedHours := .fin 0
  laborCostEstimate := .fin 0
  permitRequired := false
  confidence := .fin 0
  isFallback := true
  partialFailure := false

section
variable (x : Caller) (job : JobData)

def traced (stepName : String) (started : ℚ) (metadata : Metadata) : Prog Unit :=
  match x.traceId with
  | none | some "" => return ()
  | some traceId => do
    let now ← ask .monotonic
    -- without a company `record_trace` returns at once
    onlyIf (x.companyId.getD "" ≠ "")
      (logged (ask (.insertTrace ⟨traceId, stepName, x, (now - started) * 1000, metadata⟩)))

def audioRoute (url : Text) : Route (.transcribeAudio url) Text where
  requestType := .audio
  circuit := .whisper
  limiter := .whisper
  modelUsed := "whisper:" ++ settings.whisperModelSize
  fallback := []
  read := id
  caller := x

def visionRoute (urls : List Text) : Route (.analyzeImages urls) Text where
  requestType := .vision
  circuit := .vision
  limiter := .llm
  modelUsed := "ollama:" ++ settings.ollamaTextModel
  fallback := []
  read := id
  caller := x

def textRoute (transcript visionAnalysis : Text) (description tradeType : Option Text) :
    Route (.generateStructuredOutput transcript visionAnalysis description tradeType)
      AIOutputSchema where
  requestType := .text
  circuit := .llm
  limiter := .llm
  modelUsed := "ollama:" ++ settings.ollamaTextModel
  fallback := llmFallback
  read := generateStructuredOutput settings.runtime settings.ollamaTextModel
  caller := x

def audioStep : Prog Text :=
  match job.audioUrl with
  | none | some [] => return []
  | some url => do
    let started ← ask .monotonic
    let transcript ← (audioRoute settings x url).run settings
    traced x "ai_audio" started (.audio (transcript ≠ []))
    return transcript

/-- Of a list that is null the length is asked all the same. -/
def images : Prog (List Text) :=
  match job.imageUrls with
  | none => return []
  | some none => raise (.exception "object of type 'NoneType' has no len()")
  | some (some urls) => return urls.take settings.maxImagesPerJob

def visionStep (urls : List Text) : Prog Text :=
  match urls with
  | [] => return []
  | url :: urls => do
    let started ← ask .monotonic
    let analysis ← (visionRoute settings x (url :: urls)).run settings
    traced x "ai_vision" started (.vision (url :: urls).length)
    return analysis

def HasAudio : Prop := job.audioUrl.getD [] ≠ []

instance : Decidable (HasAudio job) := inferInstanceAs (Decidable (_ ≠ _))

def partialFailures (transcript : Text) (urls : List Text) (analysis : Text)
    (output : AIOutputSchema) : List RequestType :=
  (if HasAudio job ∧ transcript = [] then [.audio] else []) ++
    (if urls ≠ [] ∧ analysis = [] then [.vision] else []) ++
    (if output.isFallback then [.text] else [])

/-- What becomes of the output of the text route. -/
def finished (failures : List RequestType) (output : AIOutputSchema) : AIOutputSchema :=
  let sanitize := sanitizeOutputText settings.unicode settings.scores
  { output with
    partialFailure := output.partialFailure || failures ≠ []
    summary := sanitize output.summary
    recommendedFix := sanitize output.recommendedFix
    problemType := sanitize output.problemType
    materials := output.materials.map sanitize }

def textStep (transcript : Text) (urls : List Text) (analysis : Text) : Prog AIOutputSchema := do
  let sanitize := sanitizeInputText settings.unicode
  let started ← ask .monotonic
  let output ← (textRoute settings x (sanitize transcript) (sanitize analysis)
    (job.description.map sanitize) (job.tradeType.map sanitize)).run settings
  let failures := partialFailures job transcript urls analysis output
  let output := finished settings failures output
  traced x "ai_text" started (.text output.confidence output.isFallback failures)
  return output

def processJob : Prog AIOutputSchema := do
  let transcript ← audioStep settings x job
  let urls ← images settings job
  let analysis ← visionStep settings x urls
  textStep settings x job transcript urls analysis

end

end

/-! ## The output of a job -/

/-- What can raise something else than a cancellation. -/
def fallible : Command → Bool
  | .call _ | .insertRecord _ | .insertTrace _ => true
  | _ => false

/-- Nothing is cancelled; the services and the database may fail. -/
structure Steady (answers : (c : Command) → Except Fault (Answer c)) : Prop where
  uncancelled : ∀ c, answers c ≠ .error .cancelled
  answered : ∀ c, fallible c = false → ∃ a, answers c = .ok a

/-- The result of the service, if the circuit lets the call through and it comes to an end. -/
def Route.delivered {x : Service} {α : Type} (r : Route x α)
    (answers : (c : Command) → Except Fault (Answer c)) : Option α :=
  match answers (.isAvailable r.circuit) with
  | .ok (true, _) => (answers (.call x)).toOption.map r.read
  | .ok (false, _) | .error _ => none

section
variable {answers : (c : Command) → Except Fault (Answer c)} {settings : Settings}

theorem logged_ok {f : Prog Unit} (hf : f.result answers ≠ .error .cancelled) : (logged f).result answers = .ok () := by
  rw [logged, result_bind, result_outcome]
  cases hresult : f.result answers with
  | ok u => rfl
  | error e =>
    cases e with
    | cancelled => exact absurd hresult hf
    | timeout => rfl
    | exception text => rfl

variable {x : Service} {α : Type} {r : Route x α} {state : CircuitState} {started : ℚ}

theorem logged_record (h : Steady answers) (k : Record) :
    (logged (ask (.insertRecord k))).result answers = .ok () := by
  apply logged_ok
  rw [result_ask]
  exact h.uncancelled (.insertRecord k)

theorem logged_trace (h : Steady answers) (k : Trace) :
    (logged (ask (.insertTrace k))).result answers = .ok () := by
  apply logged_ok
  rw [result_ask]
  exact h.uncancelled (.insertTrace k)

theorem result_failed (h : Steady answers) (message : String) :
    (r.failed state started message).result answers = .ok r.fallback := by
  obtain ⟨now, hnow⟩ := h.answered .monotonic rfl
  obtain ⟨u, hreport⟩ := h.answered (.recordFailure r.circuit) rfl
  obtain ⟨pressure, hpressure⟩ := h.answered .queuePressure rfl
  simp only [Route.failed, result_bind, result_ask, hnow, hreport, hpressure, logged_record h,
    result_pure]

/-- The `try` block ends as the call of the service does. -/
theorem result_attempt (h : Steady answers) :
    (r.attempt state started).result answers = (answers (.call x)).map r.read := by
  obtain ⟨now, hnow⟩ := h.answered .monotonic rfl
  obtain ⟨u, hreport⟩ := h.answered (.recordSuccess r.circuit) rfl
  obtain ⟨pressure, hpressure⟩ := h.answered .queuePressure rfl
  simp only [Route.attempt, result_bind, result_ask, hnow, hreport, hpressure, logged_record h,
    result_pure]
  cases answers (.call x) <;> rfl

theorem result_limited (h : Steady answers) : (r.limited settings state).result answers =
    .ok (((answers (.call x)).toOption.map r.read).getD r.fallback) := by
  obtain ⟨started, hstarted⟩ := h.answered .monotonic rfl
  obtain ⟨u, henter⟩ := h.answered (.enter r.limiter) rfl
  obtain ⟨v, hleave⟩ := h.answered (.leave r.limiter) rfl
  have hguarded : (r.guarded settings state started).result answers =
      .ok (((answers (.call x)).toOption.map r.read).getD r.fallback) := by
    rw [Route.guarded, result_bind, result_outcome, result_attempt h]
    cases hcall : answers (.call x) with
    | ok a => rfl
    | error e =>
      cases e with
      | cancelled => exact absurd hcall (h.uncancelled _)
      | timeout => exact result_failed h _
      | exception text => exact result_failed h _
  simp only [Route.limited, result_bind, result_ask, hstarted, henter, hleave, result_outcome,
    hguarded, result_pure]

/-- A route never raises: it returns what the service delivers, or the fallback. -/
theorem result_run (h : Steady answers) :
    (r.run settings).result answers = .ok ((r.delivered answers).getD r.fallback) := by
  obtain ⟨⟨admitted, state⟩, havailable⟩ := h.answered (.isAvailable r.circuit) rfl
  rw [Route.run, result_bind, result_ask, havailable, Route.delivered, havailable]
  cases admitted with
  | true => exact result_limited h
  | false =>
    show (logged _ >>= fun _ => pure r.fallback).result answers = _
    rw [result_bind, logged_record h]
    rfl

end

section
variable {settings : Settings} {x : Caller} {job : JobData}
  {answers : (c : Command) → Except Fault (Answer c)}

theorem traced_ok (h : Steady answers) (name : String) (started : ℚ) (metadata : Metadata) :
    (traced x name started metadata).result answers = .ok () := by
  unfold traced
  split
  · rfl
  · rfl
  · obtain ⟨now, hnow⟩ := h.answered .monotonic rfl
    rw [result_bind, result_ask, hnow]
    exact (result_onlyIf_eq_ok answers).mpr fun _ => logged_trace h _

/-- A step of a job returns what its route does. -/
theorem result_measured (h : Steady answers) {α β : Type} {y : Service} (r : Route y α)
    (name : String) (metadata : α → Metadata) (f : α → β) :
    Program.result answers (do
      let started ← ask .monotonic
      let a ← r.run settings
      traced x name started (metadata a)
      return f a) = .ok (f ((r.delivered answers).getD r.fallback)) := by
  obtain ⟨started, hstarted⟩ := h.answered .monotonic rfl
  simp only [result_bind, result_ask, hstarted, result_run h, traced_ok h, result_pure]

end

/-! ## What a job returns -/

section
variable (settings : Settings) (x : Caller) (job : JobData)
  (answers : (c : Command) → Except Fault (Answer c))

def transcriptOf : Text :=
  match job.audioUrl with
  | none | some [] => []
  | some url => ((audioRoute settings x url).delivered answers).getD []

def requestedImages : List Text :=
  match job.imageUrls with
  | none | some none => []
  | some (some urls) => urls.take settings.maxImagesPerJob

def analysisOf : Text :=
  match requestedImages settings job with
  | [] => []
  | url :: urls => ((visionRoute settings x (url :: urls)).delivered answers).getD []

def deliveredOutput : Option AIOutputSchema :=
  let sanitize := sanitizeInputText settings.unicode
  (textRoute settings x (sanitize (transcriptOf settings x job answers))
    (sanitize (analysisOf settings x job answers)) (job.description.map sanitize)
    (job.tradeType.map sanitize)).delivered answers

def returnedOutput : AIOutputSchema :=
  let output := (deliveredOutput settings x job answers).getD llmFallback
  finished settings (partialFailures job (transcriptOf settings x job answers)
    (requestedImages settings job) (analysisOf settings x job answers) output) output

/-- Every service that the job needs has delivered, and the text service calls its output neither
partial nor a fallback. -/
structure Whole : Prop where
  audio : HasAudio job → transcriptOf settings x job answers ≠ []
  vision : requestedImages settings job ≠ [] → analysisOf settings x job answers ≠ []
  text : ∃ o ∈ deliveredOutput settings x job answers,
    o.isFallback = false ∧ o.partialFailure = false

end

def textsOf (o : AIOutputSchema) : List Text :=
  o.summary :: o.recommendedFix :: o.problemType :: o.materials

section
variable {settings : Settings} {x : Caller} {job : JobData}
  {answers : (c : Command) → Except Fault (Answer c)}

theorem result_audioStep (h : Steady answers) :
    (audioStep settings x job).result answers = .ok (transcriptOf settings x job answers) := by
  unfold audioStep transcriptOf
  split
  · rfl
  · rfl
  · exact result_measured h _ _ (fun transcript => .audio (transcript ≠ [])) id

theorem result_images (himages : job.imageUrls ≠ some none) :
    (images settings job).result answers = .ok (requestedImages settings job) := by
  unfold images requestedImages
  split
  · rfl
  · rename_i hnull
    exact absurd hnull himages
  · rfl

theorem result_visionStep (h : Steady answers) :
    (visionStep settings x (requestedImages settings job)).result answers =
      .ok (analysisOf settings x job answers) := by
  unfold visionStep analysisOf
  split
  · rfl
  · exact result_measured h _ _ (fun _ => .vision _) id

theorem result_textStep (h : Steady answers) :
    (textStep settings x job (transcriptOf settings x job answers) (requestedImages settings job)
      (analysisOf settings x job answers)).result answers =
      .ok (returnedOutput settings x job answers) := by
  let failures := partialFailures job (transcriptOf settings x job answers)
    (requestedImages settings job) (analysisOf settings x job answers)
  let finish (output : AIOutputSchema) : AIOutputSchema :=
    finished settings (failures output) output
  exact result_measured h (textRoute settings x _ _ _ _) "ai_text"
    (fun output => .text (finish output).confidence (finish output).isFallback (failures output))
    finish

theorem result_processJob (h : Steady answers) (himages : job.imageUrls ≠ some none) :
    (processJob settings x job).result answers = .ok (returnedOutput settings x job answers) := by
  rw [processJob, result_bind, result_audioStep h]
  dsimp only
  rw [result_bind, result_images himages]
  dsimp only
  rw [result_bind, result_visionStep h]
  exact result_textStep h

theorem llmFallback_bounded : Bounded llmFallback := by
  have h := defaultSchema_bounded
  exact ⟨h.confidence, h.hours, h.labor, h.materials⟩

theorem Route.delivered_read {y : Service} {α : Type} {r : Route y α} {a : α}
    (h : r.delivered answers = some a) : ∃ b, a = r.read b := by
  unfold Route.delivered at h
  split at h
  · obtain ⟨b, -, rfl⟩ := Option.map_eq_some_iff.mp h
    exact ⟨b, rfl⟩
  · cases h
  · cases h

theorem deliveredOutput_bounded :
    Bounded ((deliveredOutput settings x job answers).getD llmFallback) := by
  cases hdelivered : deliveredOutput settings x job answers with
  | none => exact llmFallback_bounded
  | some o =>
    obtain ⟨replies, rfl⟩ := Route.delivered_read hdelivered
    exact generateStructuredOutput_bounded _ _ _

theorem partialFailures_eq_nil {transcript analysis : Text} {urls : List Text}
    {o : AIOutputSchema} : partialFailures job transcript urls analysis o = [] ↔
      (HasAudio job → transcript ≠ []) ∧ (urls ≠ [] → analysis ≠ []) ∧ o.isFallback = false := by
  have hone : ∀ (p : Prop) [Decidable p] (t : RequestType),
      (if p then [t] else []) = [] ↔ ¬p := by
    intro p _ t
    split <;> simp [*]
  rw [partialFailures, List.append_eq_nil_iff, List.append_eq_nil_iff, hone, hone, hone, and_assoc,
    not_and, not_and, Bool.not_eq_true]

theorem whole_iff : (returnedOutput settings x job answers).partialFailure = false ↔
    Whole settings x job answers := by
  show (_ || decide _) = false ↔ _
  rw [Bool.or_eq_false_iff, decide_eq_false_iff_not, not_not, partialFailures_eq_nil]
  cases hdelivered : deliveredOutput settings x job answers with
  | none =>
    refine iff_of_false ?_ ?_
    · rintro ⟨-, -, -, ⟨⟩⟩
    · rintro ⟨-, -, o, ho, -⟩
      rw [hdelivered] at ho
      cases ho
  | some o =>
    constructor
    · rintro ⟨hfailure, haudio, hvision, hfallback⟩
      exact ⟨haudio, hvision, o, hdelivered, hfallback, hfailure⟩
    · rintro ⟨haudio, hvision, o', ho', hfallback, hfailure⟩
      obtain rfl : o = o' := Option.some.inj (hdelivered.symm.trans ho')
      exact ⟨hfailure, haudio, hvision, hfallback⟩

end

def plainSettings : Settings :=
  ⟨300, "base", "llama3", 5, GatewayText.asciiTables, ⟨fun _ => 0, fun _ => 0⟩, plainRuntime⟩

/-- A job with a recording and without images. -/
def recordedJob : JobData := ⟨some (GatewayText.codes "https://host/call.wav"), none, some [], some []⟩

/-- The services take too long. -/
def slow : (c : Command) → Except Fault (Answer c)
  | .isAvailable _ => .ok (true, .closed)
  | .call _ => .error .timeout
  | .monotonic => .ok 0
  | .queuePressure => .ok 1
  | .recordSuccess _ | .recordFailure _ | .enter _ | .leave _ | .insertRecord _
  | .insertTrace _ => .ok ()

theorem slow_steady : Steady slow := by
  constructor
  · intro c
    cases c <;> rintro ⟨⟩
  · intro c hc
    cases c with
    | call | insertRecord | insertTrace => cases hc
    | isAvailable | recordSuccess | recordFailure | enter | leave | monotonic | queuePressure =>
      exact ⟨_, rfl⟩

end WorkTicket.Ai.Gateway
