import Mathlib.Data.List.DropRight
import WorkTicket.Middleware.StreamSanitizer

/-! The CSRF gate: what a request that is forwarded has shown of where it comes from. -/

namespace WorkTicket.Middleware.Csrf

open WorkTicket.Middleware.StreamSanitizer (isSpace)

/-! ## The code -/

/-- `csrf_allowed_domains` is read by `getattr`; the settings need not have it. -/
structure Settings where
  csrfAllowedDomains : Option (List String)
  corsOrigins : String

/-- The server has put the header names in lower case. -/
structure Request where
  method : String
  headers : List (String × String)

/-- `request.headers.get(name, "")`. -/
def Request.header (request : Request) (name : String) : String :=
  (request.headers.lookup name).getD ""

inductive Response where
  | forwarded
  | refused (status : ℕ) (code message : String)
  deriving DecidableEq, Repr

def csrfFailed (message : String) : Response := .refused 403 "CSRF_FAILED" message

def safeMethods : List String := ["GET", "HEAD", "OPTIONS", "TRACE"]

/-- The methods that are refused without an Origin and a Referer. -/
def sourceMethods : List String := ["POST", "PUT", "PATCH", "DELETE"]

def formType : String := "application/x-www-form-urlencoded"

/-- `str.lower` of a character that Latin-1 can decode to, as the values of headers are. -/
def lowerChar (c : Char) : Char :=
  if ('A' ≤ c ∧ c ≤ 'Z') ∨ ('À' ≤ c ∧ c ≤ 'Þ' ∧ c ≠ '×') then Char.ofNat (c.toNat + 32) else c

def lower (s : String) : String := String.ofList (s.toList.map lowerChar)

/-- `s.rstrip("/")`. -/
def rstripSlash (s : String) : List Char := s.toList.rdropWhile (· = '/')

def strip (s : List Char) : List Char := (s.dropWhile isSpace).rdropWhile isSpace

def corsOriginsList (settings : Settings) : List String :=
  ((settings.corsOrigins.toList.splitOn ',').map fun o => String.ofList (strip o)).filter (· ≠ "")

/-- The domains of the two loops of `_origin_allowed`; a wildcard among the CORS origins allows
none. -/
def allowedDomains (settings : Settings) : List String :=
  match settings.csrfAllowedDomains with
  | some (domain :: domains) => domain :: domains
  | some [] | none => if "*" ∈ corsOriginsList settings then [] else corsOriginsList settings

def originListed (settings : Settings) (origin : String) : Bool :=
  (allowedDomains settings).any fun allowed =>
    origin == allowed || rstripSlash origin == rstripSlash allowed

def refererListed (settings : Settings) (referer : String) : Bool :=
  (allowedDomains settings).any fun allowed =>
    (rstripSlash allowed ++ ['/']).isPrefixOf referer.toList

/-- `_origin_allowed`. -/
def originAllowed (settings : Settings) (origin referer : String) : Bool :=
  let originOk := origin != "" && originListed settings origin
  if !originOk && referer != "" then refererListed settings referer else originOk

def Request.bearer (request : Request) : Bool :=
  "Bearer ".toList.isPrefixOf (request.header "authorization").toList

def Request.contentType (request : Request) : String := lower (request.header "content-type")

/-- `dispatch`; the next handler is called where the request is forwarded. -/
def dispatch (settings : Settings) (request : Request) : Response :=
  let origin := request.header "origin"
  let referer := request.header "referer"
  if request.method ∈ safeMethods then .forwarded
  else if request.bearer then
    if origin = "" ∧ referer = "" then csrfFailed "Request must include Origin or Referer header"
    else if originAllowed settings origin referer = false then
      csrfFailed "Request origin not allowed"
    else .forwarded
  else if request.contentType = formType then
    csrfFailed "Form-encoded requests are not accepted; use application/json"
  else if origin = "" ∧ referer = "" then
    if request.method ∈ sourceMethods then
      csrfFailed "Request must include Origin or Referer header"
    else .forwarded
  else if originAllowed settings origin referer = false then
    csrfFailed "Request origin not allowed"
  else .forwarded

/-! ## What the gate is for -/

/-- A media type without its parameters, in lower case. -/
def mediaType (contentType : String) : String :=
  lower (String.ofList (strip (contentType.toList.takeWhile (· ≠ ';'))))

/-- An origin is allowed if it is an allowed domain, up to trailing slashes. -/
def AllowedOrigin (settings : Settings) (origin : String) : Prop :=
  ∃ allowed ∈ allowedDomains settings, rstripSlash origin = rstripSlash allowed

/-- A page lies under an allowed domain. -/
def AllowedReferer (settings : Settings) (referer : String) : Prop :=
  ∃ allowed ∈ allowedDomains settings, ∃ path, referer.toList = rstripSlash allowed ++ '/' :: path

/-- The request has shown that it comes from an allowed domain, and is no form without a token.
A header without a value is absent. -/
structure Gated (settings : Settings) (request : Request) : Prop where
  source : request.header "origin" ≠ "" ∨ request.header "referer" ≠ ""
  origin : request.header "origin" ≠ "" → AllowedOrigin settings (request.header "origin")
  referer : request.header "origin" = "" → AllowedReferer settings (request.header "referer")
  media : request.bearer = false → mediaType (request.header "content-type") ≠ formType

/-- The gate holds for a request. -/
def Gate (settings : Settings) (request : Request) : Prop :=
  request.method ∉ safeMethods → dispatch settings request = .forwarded → Gated settings request

/-! ## Where the gate holds -/

variable {settings : Settings} {request : Request}

theorem originListed_eq_true {origin : String} :
    originListed settings origin = true ↔ AllowedOrigin settings origin := by
  rw [originListed, List.any_eq_true]
  apply exists_congr
  intro allowed
  apply and_congr_right
  intro _
  rw [Bool.or_eq_true, beq_iff_eq, beq_iff_eq, or_iff_right_of_imp]
  intro h
  rw [h]

theorem refererListed_eq_true {referer : String} :
    refererListed settings referer = true ↔ AllowedReferer settings referer := by
  rw [refererListed, List.any_eq_true]
  apply exists_congr
  intro allowed
  apply and_congr_right
  intro _
  rw [List.isPrefixOf_iff_prefix, List.IsPrefix]
  simp only [List.append_assoc, List.singleton_append, eq_comm]

/-- A page under an allowed domain is a referer that is there. -/
theorem AllowedReferer.ne_empty {referer : String} (h : AllowedReferer settings referer) :
    referer ≠ "" := by
  obtain ⟨allowed, _, path, hpath⟩ := h
  rintro rfl
  simp at hpath

/-- An origin that is not allowed is made up for by a referer. -/
theorem originAllowed_eq_true {origin referer : String} :
    originAllowed settings origin referer = true ↔
      (origin ≠ "" ∧ AllowedOrigin settings origin) ∨ AllowedReferer settings referer := by
  rw [← originListed_eq_true, ← refererListed_eq_true]
  have hreferer : refererListed settings referer = true → referer ≠ "" := fun h =>
    (refererListed_eq_true.mp h).ne_empty
  unfold originAllowed
  by_cases horigin : origin ≠ "" ∧ originListed settings origin = true
  · simp [horigin]
  · have hnot : (origin != "" && originListed settings origin) = false := by
      simpa [imp_iff_not_or] using horigin
    simp only [hnot, Bool.not_false, Bool.true_and, bne_iff_ne, ne_eq, ite_not]
    split
    · rename_i hempty
      simp only [Bool.false_eq_true, false_iff]
      rintro (h | h)
      · exact horigin h
      · exact hreferer h hempty
    · simp only [horigin, false_or]

/-- The gate lets the request see its checks of the source: it is not refused for its type. -/
def Request.Typed (request : Request) : Prop :=
  request.bearer = true ∨ request.contentType ≠ formType

/-- The checks of the source let the request through. -/
def Request.Sourced (settings : Settings) (request : Request) : Prop :=
  if request.header "origin" = "" ∧ request.header "referer" = "" then
    request.bearer = false ∧ request.method ∉ sourceMethods
  else originAllowed settings (request.header "origin") (request.header "referer") = true

/-- Exactly what a request that the gate forwards has shown. -/
theorem dispatch_eq_forwarded (hmethod : request.method ∉ safeMethods) :
    dispatch settings request = .forwarded ↔ request.Typed ∧ request.Sourced settings := by
  unfold dispatch Request.Typed Request.Sourced
  by_cases hbearer : request.bearer = true
  · by_cases hsource : request.header "origin" = "" ∧ request.header "referer" = ""
    · simp [hmethod, hbearer, hsource, csrfFailed]
    · simp [hmethod, hbearer, hsource, csrfFailed]
  · by_cases hform : request.contentType = formType
    · simp [hmethod, hbearer, hform, csrfFailed]
    · by_cases hsource : request.header "origin" = "" ∧ request.header "referer" = ""
      · simp [hmethod, hbearer, hform, hsource, csrfFailed]
      · simp [hmethod, hbearer, hform, hsource, csrfFailed]

/-- A source that is allowed is there. -/
theorem sourced_of_allowed
    (h : originAllowed settings (request.header "origin") (request.header "referer") = true) :
    request.Sourced settings := by
  have hsource : ¬(request.header "origin" = "" ∧ request.header "referer" = "") := by
    rintro ⟨horigin, hreferer⟩
    rcases originAllowed_eq_true.mp h with ⟨hne, _⟩ | hunder
    · exact hne horigin
    · exact hunder.ne_empty hreferer
  rw [Request.Sourced, if_neg hsource]
  exact h

/-- The request keeps clear of the three gaps: a method that needs no source, an origin that a
referer makes up for, and a form that its parameters hide. -/
structure Guarded (settings : Settings) (request : Request) : Prop where
  source : request.bearer = false → request.header "origin" = "" → request.header "referer" = "" →
    request.method ∈ sourceMethods
  origin : request.header "origin" ≠ "" → ¬AllowedOrigin settings (request.header "origin") →
    ¬AllowedReferer settings (request.header "referer")
  media : request.bearer = false → mediaType (request.header "content-type") = formType →
    originAllowed settings (request.header "origin") (request.header "referer") = false

/-- Each gap lets a request through that is not gated. -/
theorem guarded_of_gated (h : request.Sourced settings → Gated settings request) :
    Guarded settings request := by
  constructor
  · intro hbearer horigin hreferer
    by_contra hmethod
    have hgated := h (by simp [Request.Sourced, horigin, hreferer, hbearer, hmethod])
    rcases hgated.source with hne | hne
    · exact hne horigin
    · exact hne hreferer
  · intro horigin hnot hreferer
    have hgated := h (sourced_of_allowed (originAllowed_eq_true.mpr (.inr hreferer)))
    exact hnot (hgated.origin horigin)
  · intro hbearer hmedia
    by_contra hallowed
    rw [Bool.not_eq_false] at hallowed
    have hgated := h (sourced_of_allowed hallowed)
    exact hgated.media hbearer hmedia

theorem gated_of_guarded (hguarded : Guarded settings request) (h : request.Sourced settings) :
    Gated settings request := by
  unfold Request.Sourced at h
  by_cases hsource : request.header "origin" = "" ∧ request.header "referer" = ""
  · rw [if_pos hsource] at h
    exact absurd (hguarded.source h.1 hsource.1 hsource.2) h.2
  rw [if_neg hsource] at h
  have hallowed := originAllowed_eq_true.mp h
  constructor
  · by_contra hnone
    rw [not_or, not_not, not_not] at hnone
    exact hsource hnone
  · intro horigin
    by_contra hnot
    rcases hallowed with ⟨_, hlisted⟩ | hunder
    · exact hnot hlisted
    · exact hguarded.origin horigin hnot hunder
  · intro horigin
    rcases hallowed with ⟨hne, _⟩ | hunder
    · exact absurd horigin hne
    · exact hunder
  · intro hbearer hmedia
    have hrefused := hguarded.media hbearer hmedia
    rw [h] at hrefused
    exact Bool.noConfusion hrefused

/-- A request that the gate lets through is gated exactly if it keeps clear of the gaps. -/
theorem gate_iff (settings : Settings) (request : Request) :
    Gate settings request ↔
      (request.method ∉ safeMethods → request.Typed → Guarded settings request) := by
  unfold Gate
  apply imp_congr_right
  intro hmethod
  rw [dispatch_eq_forwarded hmethod, and_imp]
  apply imp_congr_right
  intro _
  exact ⟨guarded_of_gated, gated_of_guarded⟩

/-! ## A form with a charset -/

def oneOrigin : Settings := ⟨none, "https://app.example"⟩

/-- A form that a browser posts, with the usual parameter of its type. -/
def postedForm : Request where
  method := "POST"
  headers := [("origin", "https://app.example"),
    ("content-type", "application/x-www-form-urlencoded; charset=UTF-8")]

theorem not_gate_postedForm : ¬Gate oneOrigin postedForm := by
  intro h
  have hmethod : postedForm.method ∉ safeMethods := by decide
  have hforwarded : dispatch oneOrigin postedForm = .forwarded := by decide
  exact (h hmethod hforwarded).media (by decide) (by decide)

/-- The origin of another site is made up for by a referer; without either header, only four of
the methods are refused. -/
example : (dispatch oneOrigin ⟨"POST", [("origin", "https://other.example"),
      ("referer", "https://app.example/jobs")]⟩,
    dispatch oneOrigin ⟨"LOCK", []⟩) = (.forwarded, .forwarded) := by
  decide

end WorkTicket.Middleware.Csrf
