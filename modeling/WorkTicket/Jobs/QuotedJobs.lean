import WorkTicket.Foundation.Fallible
import WorkTicket.Foundation.Transition
import WorkTicket.Billing.Account

/-! A job and its quotes: `delete_job` looks for a draft, the routes of the quotes do not
look whether the job is deleted. -/

namespace WorkTicket.Jobs.QuotedJobs

open WorkTicket.Transition WorkTicket.Fallible
open WorkTicket.Billing (Time)

inductive QuoteStatus
  | draft
  | approved
  | sent
  deriving DecidableEq, Repr

/-- The JSON in `line_items`; the totals are as they are before they are rounded. -/
structure LineItems where
  laborHours : ℚ
  laborRate : ℚ
  materials : List String
  total : ℚ
  aiConfidence : Option ℚ
  deriving DecidableEq, Repr

structure Quote where
  id : ℕ
  status : QuoteStatus
  totalAmount : ℚ
  lineItems : LineItems
  approvedAt : Option Time
  deriving DecidableEq, Repr

/-- What `generate_quote` reads of an AI output. -/
structure Analysis where
  estimatedHours : ℚ
  materials : List String
  confidence : ℚ
  isFallback : Bool
  deriving DecidableEq, Repr

/-- A job of the company, and its quotes in the order in which they were created. -/
structure World where
  isDeleted : Bool
  quotes : List Quote
  nextId : ℕ
  deriving DecidableEq, Repr

/-- A status code and the detail of an error. -/
abbrev HttpError := ℕ × String

/-- `scalar_one_or_none` of several rows, and any other exception that nothing catches. -/
def internalError : HttpError := (500, "")

def scalarOneOrNone {α : Type} : List α → Except HttpError (Option α)
  | [] => .ok none
  | [a] => .ok (some a)
  | _ :: _ :: _ => .error internalError

/-! ## The routes -/

/-- The one AI output that is good enough for a quote. The outputs of the job are given, each
with its JSON, which may not be valid. -/
def usableAnalysis (aiOutputs : List (Option Analysis)) : Except HttpError Analysis := do
  match ← scalarOneOrNone aiOutputs with
  | none => .error (400, "No AI output found. Process job first.")
  | some none => .error internalError
  | some (some parsed) =>
    if parsed.isFallback || parsed.confidence < 3 / 10 then
      .error (400, "AI analysis has low confidence or used fallback data. " ++
        "Review the analysis before generating a quote.")
    else .ok parsed

def newQuote (id : ℕ) (hourlyRate : ℚ) (parsed : Analysis) : Quote where
  id := id
  status := .draft
  totalAmount := parsed.estimatedHours * hourlyRate
  lineItems := ⟨parsed.estimatedHours, hourlyRate, parsed.materials,
    parsed.estimatedHours * hourlyRate, some parsed.confidence⟩
  approvedAt := none

/-- The job is found whether it is deleted or not. -/
def generateQuote (aiOutputs : List (Option Analysis)) (hourlyRate : ℚ) (w : World) :
    Except HttpError World := do
  let parsed ← usableAnalysis aiOutputs
  .ok { w with quotes := w.quotes ++ [newQuote w.nextId hourlyRate parsed], nextId := w.nextId + 1 }

def World.find (w : World) (quoteId : ℕ) : Except HttpError Quote :=
  match w.quotes.find? (·.id = quoteId) with
  | some q => .ok q
  | none => .error (404, "Quote not found")

def World.replace (w : World) (q : Quote) : World :=
  { w with quotes := w.quotes.map fun old => if old.id = q.id then q else old }

/-- A quote of any status is approved, if the confidence it was generated with is high. -/
def approveQuote (quoteId : ℕ) (now : Time) (w : World) : Except HttpError World := do
  let q ← w.find quoteId
  if q.lineItems.aiConfidence.any (· < 3 / 10) then
    .error (400, "AI analysis confidence was below threshold at quote generation time. " ++
      "Please regenerate the quote.")
  else .ok (w.replace { q with status := .approved, approvedAt := some now })

def sendQuote (quoteId : ℕ) (w : World) : Except HttpError World := do
  let q ← w.find quoteId
  if q.status ≠ .approved then .error (400, "Quote must be approved before sending")
  else .ok (w.replace { q with status := .sent })

def deleteQuote (quoteId : ℕ) (w : World) : Except HttpError World := do
  let q ← w.find quoteId
  .ok { w with quotes := w.quotes.filter (·.id ≠ q.id) }

def isDraft (q : Quote) : Bool := q.status = .draft

def deleteJob (w : World) : Except HttpError World := do
  if w.isDeleted then .error (404, "Job not found")
  else
    match ← scalarOneOrNone (w.quotes.filter isDraft) with
    | some _ => .error (400, "Cannot delete job with an active quote. Delete the quote first.")
    | none => .ok { w with isDeleted := true }

/-! ## Sequences of requests -/

inductive Request
  | generate (aiOutputs : List (Option Analysis)) (hourlyRate : ℚ)
  | approve (quoteId : ℕ) (now : Time)
  | send (quoteId : ℕ)
  | deleteQuote (quoteId : ℕ)
  | deleteJob
  deriving DecidableEq, Repr

def Request.perform (w : World) : Request → Except HttpError World
  | .generate aiOutputs hourlyRate => generateQuote aiOutputs hourlyRate w
  | .approve quoteId now => approveQuote quoteId now w
  | .send quoteId => sendQuote quoteId w
  | .deleteQuote quoteId => QuotedJobs.deleteQuote quoteId w
  | .deleteJob => QuotedJobs.deleteJob w

/-- The world, and the error of each `delete_job` so far that was not answered with 204. -/
structure Run where
  world : World
  refusals : List HttpError
  deriving DecidableEq, Repr

def step (s : Run) (r : Request) : Option Run :=
  match r.perform s.world with
  | .ok w => some ⟨w, s.refusals⟩
  | .error e => some ⟨s.world, if r = .deleteJob then e :: s.refusals else s.refusals⟩

/-- A quote in draft, approved or sent status. -/
def Quote.active (q : Quote) : Bool := q.status = .draft || q.status = .approved || q.status = .sent

/-- A deleted job has no active quote, and no `delete_job` has failed on the server. -/
structure Sound (s : Run) : Prop where
  deleted : s.world.isDeleted → ∀ q ∈ s.world.quotes, q.active = false
  answered : ∀ e ∈ s.refusals, e.1 < 500

/-- A quote is generated for a job that is not deleted, and a job is deleted that has no quote,
or one draft, which stops it. -/
def Meets (s : Run) : Request → Prop
  | .generate aiOutputs _ => s.world.isDeleted → ¬(usableAnalysis aiOutputs).isOk
  | .deleteJob => s.world.isDeleted ∨ s.world.quotes = [] ∨
      (s.world.quotes.filter isDraft).length = 1
  | .approve _ _ | .send _ | .deleteQuote _ => True

/-! ## One request -/

theorem active_true (q : Quote) : q.active = true := by
  unfold Quote.active
  cases q.status <;> rfl

theorem Sound.quotes_eq_nil {s : Run} (h : Sound s) (hdeleted : s.world.isDeleted) :
    s.world.quotes = [] := by
  refine List.eq_nil_iff_forall_not_mem.mpr fun q hq => ?_
  have hactive := h.deleted hdeleted q hq
  rw [active_true] at hactive
  cases hactive

/-- The state of a sound run: a deleted job has no quote at all. -/
theorem sound_iff (s : Run) : Sound s ↔
    (s.world.isDeleted → s.world.quotes = []) ∧ ∀ e ∈ s.refusals, e.1 < 500 := by
  constructor
  · intro h
    exact ⟨h.quotes_eq_nil, h.answered⟩
  · rintro ⟨hquotes, hanswered⟩
    refine ⟨fun hdeleted q hq => ?_, hanswered⟩
    rw [hquotes hdeleted] at hq
    cases hq

/-- A change of the quotes that makes none where there is none, of a job that stays as it is. -/
structure KeepsQuotes (w w' : World) : Prop where
  isDeleted : w'.isDeleted = w.isDeleted
  quotes : w.quotes = [] → w'.quotes = []

theorem replace_keeps (w : World) (q : Quote) : KeepsQuotes w (w.replace q) :=
  ⟨rfl, fun hnil => by rw [World.replace, hnil, List.map_nil]⟩

theorem approveQuote_keeps {w w' : World} {quoteId : ℕ} {now : Time}
    (h : approveQuote quoteId now w = .ok w') : KeepsQuotes w w' := by
  obtain ⟨q, -, h⟩ := bind_eq_ok.mp h
  split at h
  · cases h
  · cases h
    exact replace_keeps w _

theorem sendQuote_keeps {w w' : World} {quoteId : ℕ} (h : sendQuote quoteId w = .ok w') :
    KeepsQuotes w w' := by
  obtain ⟨q, -, h⟩ := bind_eq_ok.mp h
  split at h
  · cases h
  · cases h
    exact replace_keeps w _

theorem deleteQuote_keeps {w w' : World} {quoteId : ℕ} (h : deleteQuote quoteId w = .ok w') :
    KeepsQuotes w w' := by
  obtain ⟨q, -, h⟩ := bind_eq_ok.mp h
  cases h
  exact ⟨rfl, fun hnil => by rw [hnil, List.filter_nil]⟩

theorem generateQuote_eq_ok {w w' : World} {aiOutputs : List (Option Analysis)} {rate : ℚ} :
    generateQuote aiOutputs rate w = .ok w' ↔ ∃ parsed, usableAnalysis aiOutputs = .ok parsed ∧
      w' = { w with
        quotes := w.quotes ++ [newQuote w.nextId rate parsed], nextId := w.nextId + 1 } := by
  rw [generateQuote, bind_eq_ok]
  constructor
  · rintro ⟨parsed, hparsed, h⟩
    cases h
    exact ⟨parsed, hparsed, rfl⟩
  · rintro ⟨parsed, hparsed, rfl⟩
    exact ⟨parsed, hparsed, rfl⟩

theorem isOk_iff {α : Type} {x : Except HttpError α} : x.isOk ↔ ∃ a, x = .ok a := by
  cases x <;> simp [Except.isOk, Except.toBool]

theorem deleteJob_deleted {w : World} (h : w.isDeleted = true) :
    deleteJob w = .error (404, "Job not found") := by
  rw [deleteJob, if_pos h]

/-- What a job that is not deleted answers by the number of its drafts. -/
theorem deleteJob_drafts {w : World} (h : w.isDeleted = false) :
    deleteJob w = match w.quotes.filter isDraft with
      | [] => .ok { w with isDeleted := true }
      | [_] => .error (400, "Cannot delete job with an active quote. Delete the quote first.")
      | _ :: _ :: _ => .error internalError := by
  rw [deleteJob, if_neg (by simp [h])]
  rcases w.quotes.filter isDraft with _ | ⟨q, _ | ⟨q', rest⟩⟩ <;> rfl

/-! ## Steps and runs -/

theorem step_quote {s s' : Run} {r : Request} (h : Sound s) (hnot : r ≠ .deleteJob)
    (hr : ∀ w, r.perform s.world = .ok w → KeepsQuotes s.world w)
    (hs : step s r = some s') : Sound s' := by
  obtain ⟨hquotes, hanswered⟩ := (sound_iff s).mp h
  unfold step at hs
  split at hs
  · rename_i w hw
    cases hs
    have hkeeps := hr w hw
    refine (sound_iff _).mpr ⟨fun hdeleted => hkeeps.quotes (hquotes ?_), hanswered⟩
    rw [← hkeeps.isDeleted]
    exact hdeleted
  · cases hs
    rw [if_neg hnot]
    exact h

theorem step_generate {s s' : Run} {aiOutputs : List (Option Analysis)} {rate : ℚ} (h : Sound s)
    (hs : step s (.generate aiOutputs rate) = some s') :
    Sound s' ↔ Meets s (.generate aiOutputs rate) := by
  obtain ⟨hquotes, hanswered⟩ := (sound_iff s).mp h
  cases hparsed : usableAnalysis aiOutputs with
  | error e =>
    have hrefused : (Request.generate aiOutputs rate).perform s.world = .error e := by
      rw [Request.perform, generateQuote, hparsed]
      rfl
    simp only [step, hrefused, Option.some.injEq] at hs
    subst hs
    refine iff_of_true ?_ fun _ => ?_
    · rw [if_neg nofun]
      exact h
    · rw [hparsed]
      exact nofun
  | ok parsed =>
    have hmade : (Request.generate aiOutputs rate).perform s.world = .ok { s.world with
        quotes := s.world.quotes ++ [newQuote s.world.nextId rate parsed]
        nextId := s.world.nextId + 1 } := generateQuote_eq_ok.mpr ⟨parsed, hparsed, rfl⟩
    simp only [step, hmade, Option.some.injEq] at hs
    subst hs
    rw [sound_iff]
    constructor
    · rintro ⟨hnone, -⟩ hdeleted
      exact absurd (hnone hdeleted) (List.append_ne_nil_of_right_ne_nil _ (List.cons_ne_nil _ _))
    · intro hmeets
      refine ⟨fun hdeleted => ?_, hanswered⟩
      exact absurd (isOk_iff.mpr ⟨parsed, hparsed⟩) (hmeets hdeleted)

theorem step_deleteJob {s s' : Run} (h : Sound s) (hs : step s .deleteJob = some s') :
    Sound s' ↔ Meets s .deleteJob := by
  obtain ⟨hquotes, hanswered⟩ := (sound_iff s).mp h
  have hrefused : ∀ {e : HttpError}, deleteJob s.world = .error e → e.1 < 500 → Sound s' := by
    intro e he hclient
    simp only [step, Request.perform, he, if_true, Option.some.injEq] at hs
    subst hs
    refine ⟨h.deleted, fun e' he' => ?_⟩
    rcases List.mem_cons.mp he' with rfl | hold
    · exact hclient
    · exact hanswered e' hold
  cases hdeleted : s.world.isDeleted with
  | true => exact iff_of_true (hrefused (deleteJob_deleted hdeleted) (by norm_num)) (.inl hdeleted)
  | false =>
    have hdrafts := deleteJob_drafts hdeleted
    rcases hfilter : s.world.quotes.filter isDraft with _ | ⟨q, _ | ⟨q', rest⟩⟩
    · simp only [hfilter] at hdrafts
      simp only [step, Request.perform, hdrafts, Option.some.injEq] at hs
      subst hs
      rw [sound_iff]
      constructor
      · rintro ⟨hnone, -⟩
        exact .inr (.inl (hnone rfl))
      · rintro (hdel | hnil | hone)
        · rw [hdeleted] at hdel
          cases hdel
        · exact ⟨fun _ => hnil, hanswered⟩
        · rw [hfilter] at hone
          cases hone
    · simp only [hfilter] at hdrafts
      exact iff_of_true (hrefused hdrafts (by norm_num)) (.inr (.inr (by rw [hfilter]; rfl)))
    · simp only [hfilter] at hdrafts
      simp only [step, Request.perform, hdrafts, if_true, Option.some.injEq] at hs
      subst hs
      refine iff_of_false (fun hsound => ?_) ?_
      · exact absurd (hsound.answered internalError List.mem_cons_self) (by decide)
      · rintro (hdel | hnil | hone)
        · rw [hdeleted] at hdel
          cases hdel
        · rw [hnil] at hfilter
          cases hfilter
        · rw [hfilter] at hone
          simp at hone

theorem step_sound_iff {s s' : Run} {r : Request} (h : Sound s) (hs : step s r = some s') :
    Sound s' ↔ Meets s r := by
  cases r with
  | generate aiOutputs rate => exact step_generate h hs
  | approve quoteId now =>
    have hsound := step_quote (r := .approve quoteId now) h nofun (fun _ => approveQuote_keeps) hs
    exact iff_of_true hsound trivial
  | send quoteId =>
    have hsound := step_quote (r := .send quoteId) h nofun (fun _ => sendQuote_keeps) hs
    exact iff_of_true hsound trivial
  | deleteQuote quoteId =>
    have hsound := step_quote (r := .deleteQuote quoteId) h nofun (fun _ => deleteQuote_keeps) hs
    exact iff_of_true hsound trivial
  | deleteJob => exact step_deleteJob h hs

/-- A job that is not deleted, with any quotes. -/
def start (quotes : List Quote) (nextId : ℕ) : Run := ⟨⟨false, quotes, nextId⟩, []⟩

theorem sound_start (quotes : List Quote) (nextId : ℕ) : Sound (start quotes nextId) :=
  (sound_iff _).mpr ⟨nofun, nofun⟩

/-- Along every sequence of requests: no deleted job has an active quote and every `delete_job`
is answered, if and only if no quote is generated for a deleted job and no job is deleted that
has a quote and not exactly one draft. -/
theorem sound_along_iff (quotes : List Quote) (nextId : ℕ) (requests : List Request) :
    Along step Sound (start quotes nextId) requests ↔
      EachStep step Meets (start quotes nextId) requests :=
  along_iff_eachStep (fun _ h => h) (fun _ _ _ h hmeets hs => (step_sound_iff h hs).mpr hmeets)
    (fun _ _ _ h hs hsound => (step_sound_iff h hs).mp hsound) (sound_start quotes nextId) requests

instance : DecidablePred Sound := fun s => decidable_of_iff _ (sound_iff s).symm

/-- A request for a quote after an analysis with a confidence of 0.9. -/
def generate : Request := .generate [some ⟨2, ["pipe"], 9 / 10, false⟩] 50

/-- An approved quote does not stop the deletion of its job, a deleted job gets a quote, and
with two drafts the deletion fails on the server. -/
theorem not_sound_along :
    ¬Along step Sound (start [] 0) [generate, .approve 0 10, .deleteJob] ∧
      ¬Along step Sound (start [] 0) [.deleteJob, generate] ∧
      ¬Along step Sound (start [] 0) [generate, generate, .deleteJob] := by
  have hlast : ∀ requests, (hrun : (run step (start [] 0) requests).isSome) →
      ¬Sound ((run step (start [] 0) requests).get hrun) →
      ¬Along step Sound (start [] 0) requests := by
    intro requests hrun hnot halong
    exact hnot (halong.last (Option.some_get hrun).symm)
  exact ⟨hlast _ (by decide +kernel) (by decide +kernel),
    hlast _ (by decide +kernel) (by decide +kernel),
    hlast _ (by decide +kernel) (by decide +kernel)⟩

end WorkTicket.Jobs.QuotedJobs
