import WorkTicket.Ai.RateLimiter

/-! The rate-limit middleware. A request on a limited route is checked before it is handled; the
headers of every response show what is left of the global bucket of the process, and to look at
that bucket is to make it, with the limits of the route at hand, where there is none or it is
thirty seconds old. -/

namespace WorkTicket.Middleware.RateLimit

open WorkTicket.AnsweredRuns WorkTicket.Ai

/-- A rate and a burst; `none` is the pair of two `inf`, which alone has an infinite one. -/
abbrev Limits := Option (ℚ × ℤ)

namespace Limits

def rate (limits : Limits) : WithTop ℚ := limits.map Prod.fst

def burst (limits : Limits) : WithTop ℤ := limits.map Prod.snd

def bucketBurst (limits : Limits) : WithTop ℚ := limits.map fun l => (l.2 : ℚ)

end Limits

def routeOverrides : List (String × Limits) :=
  [("/api/v1/ai", none),
    ("/health", some (5 / 100, 3)),
    ("/readyz", some (5 / 100, 3)),
    ("/livez", none),
    ("/healthz", none),
    ("/api/v1/auth/login", some (83 / 1000, 5)),
    ("/api/v1/auth/register", some (5 / 100, 3)),
    ("/api/v1/auth/token", some (167 / 1000, 10)),
    ("/api/v1/billing/webhook", some (167 / 1000, 1)),
    ("/api/v1/billing/credits", some (167 / 1000, 1)),
    ("/api/v1/billing/change-plan", some (17 / 1000, 1)),
    ("/api/v1/billing/admin/refund", some (17 / 1000, 1)),
    ("/api/v1/billing/admin/reverse-charge", some (17 / 1000, 1)),
    ("/api/v1/billing/disable-ai", some (17 / 1000, 1)),
    ("/api/v1/billing/enable-ai", some (17 / 1000, 1)),
    ("/api/v1/media/upload-url", some (333 / 1000, 5)),
    ("/api/v1/media/confirm-upload", some (333 / 1000, 5)),
    ("/api/v1/jobs", some (2, 5)),
    ("/api/v1/ai/process-job", some (1, 3)),
    ("/api/v1/ai/output", some (10, 20)),
    ("/api/v1/estimates", some (5, 10)),
    ("/api/v1/quotes", some (5, 10)),
    ("/api/v1/analytics", some (2, 5)),
    ("/api/v1/tracing", some (5, 10))]

/-- `_get_limits`: the longest prefix wins. -/
def getLimits (path : String) : Limits :=
  (routeOverrides.foldl (fun best o =>
    if o.1.toList <+: path.toList ∧ best.1.length < o.1.length then o else best)
    ("", some (10, 10))).2

def getStrictLimits (estimatedWorkers : ℕ) (rate : ℚ) (burst : ℤ) : ℚ × ℤ :=
  (max (rate / estimatedWorkers) 1, max (Int.tdiv burst estimatedWorkers) 2)

/-! ## Requests -/

structure Request where
  id : ℕ
  path : String
  userId : String
  companyId : String
  deriving DecidableEq

/-- A request arrives, or the response to it gets its headers. Where `raises` holds `check_all`
ends in an exception. -/
inductive Event
  | arrive (r : Request) (m : Moment) (raises : Bool)
  | respond (r : Request) (m : Moment)
  deriving DecidableEq

inductive Answer
  | verdict (allowed : Bool) (reason : String)
  | headers (limit remaining : WithTop ℤ) (reset : ℤ)
  | nothing
  deriving DecidableEq

/-- The limiters of a process without Redis, and the requests that its handlers are at. -/
structure Process where
  limiters : Limiters
  handled : Finset Request

section Middleware

variable (rl : RateLimiter) (estimatedWorkers : ℕ)

/-- What `_check_rate` does when `check_all` raises. -/
def checkStrict (r : Request) (m : Moment) (limits : ℚ × ℤ) (l : LocalRateLimiter) :
    (Bool × String) × LocalRateLimiter :=
  let take (key : String) (l : LocalRateLimiter) :=
    l.consume m.monotonic key limits.1 ((limits.2 : ℤ) : ℚ)
  let (ok, l) := take "global" l
  if !ok then ((false, "global rate limit exceeded"), l) else
  let (ok, l) := if r.companyId ≠ "" then take (tenantKey r.companyId) l else (true, l)
  if !ok then ((false, "tenant rate limit exceeded"), l) else
  let (ok, l) := if r.userId ≠ "" then take (userKey r.userId) l else (true, l)
  if !ok then ((false, "user rate limit exceeded"), l) else
  ((true, ""), l)

def checkRate (r : Request) (m : Moment) (raises : Bool) (rate : ℚ) (burst : ℤ) (w : Limiters) :
    (Bool × String) × Limiters :=
  if raises then
    let (answer, process) := checkStrict r m (getStrictLimits estimatedWorkers rate burst) w.process
    (answer, { w with process })
  else rl.checkAll m false r.userId r.companyId "" w

/-- The headers of a response. Infinite tokens raise in `int` and leave the burst as remaining. -/
def headers (limits : Limits) (m : Moment) (l : LocalRateLimiter) : Answer × LocalRateLimiter :=
  let (bucket, l) := l.getBucket m.monotonic "global" limits.rate limits.bucketBurst
  let remaining : WithTop ℤ :=
    match bucket.available m.monotonic with
    | ⊤ => limits.burst
    | (tokens : ℚ) => (max 0 ⌊tokens⌋ : ℤ)
  (.headers limits.burst remaining (⌊m.time⌋ + 60), l)

/-- `dispatch`, up to the handler and after it. -/
def dispatch : Event → Process → Answer × Process
  | .arrive r m raises, p =>
    match getLimits r.path with
    | some (rate, burst) =>
      let ((allowed, reason), limiters) :=
        checkRate rl estimatedWorkers r m raises rate burst p.limiters
      (.verdict allowed reason,
        { limiters, handled := if allowed then insert r p.handled else p.handled })
    | none => (.verdict true "", { p with handled := insert r p.handled })
  | .respond r m, p =>
    if r ∈ p.handled then
      let (answer, process) := headers (getLimits r.path) m p.limiters.process
      (answer, { limiters := { p.limiters with process }, handled := p.handled.erase r })
    else (.nothing, p)

end Middleware

attribute [grind =] getLimits checkStrict checkRate headers dispatch

/-! ## Two runs -/

def Event.request : Event → Request
  | .arrive r _ _ => r
  | .respond r _ => r

def Event.arrives : Event → Bool
  | .arrive .. => true
  | .respond .. => false

def Event.onLimited (e : Event) : Bool := (getLimits e.request.path).isSome

attribute [grind =] Event.request Event.arrives Event.onLimited

section Runs

variable (rl : RateLimiter) (estimatedWorkers : ℕ) (p : Process) (events : List Event)

/-- The requests on limited routes are answered as in the run without the others. -/
def Isolated : Prop :=
  (answers (dispatch rl estimatedWorkers) p events).filter
      (fun a => a.1.arrives && a.1.onLimited) =
    (answers (dispatch rl estimatedWorkers) p (events.filter Event.onLimited)).filter
      (fun a => a.1.arrives && a.1.onLimited)

/-- The requests are answered as if no headers were computed. -/
def HeadersHarmless : Prop :=
  (answers (dispatch rl estimatedWorkers) p events).filter (fun a => a.1.arrives) =
    answers (dispatch rl estimatedWorkers) p (events.filter Event.arrives)

/-- Whoever computes headers finds the global bucket in the table, less than thirty seconds old. -/
def HeadersFind (p : Process) : Event → Prop
  | .arrive .. => True
  | .respond r m =>
    r ∈ p.handled → (p.limiters.process.fresh m.monotonic "global").isSome = true

instance (p : Process) : ∀ e, Decidable (HeadersFind p e)
  | .arrive .. => inferInstanceAs (Decidable True)
  | .respond .. => inferInstanceAs (Decidable (_ → _))

end Runs

variable {rl : RateLimiter} {estimatedWorkers : ℕ} {p q : Process} {r : Request} {m : Moment}

theorem getBucket_snd {l : LocalRateLimiter} {now : ℚ} {key : String} (rate burst : WithTop ℚ)
    (h : (l.fresh now key).isSome = true) : (l.getBucket now key rate burst).2 = l := by
  obtain ⟨b, hb⟩ := Option.isSome_iff_exists.mp h
  rw [LocalRateLimiter.getBucket, hb]

theorem dispatch_respond_limiters (h : HeadersFind p (.respond r m)) :
    (dispatch rl estimatedWorkers (.respond r m) p).2.limiters = p.limiters := by
  rw [dispatch]
  split
  · rename_i hr
    have hbucket := getBucket_snd (getLimits r.path).rate (getLimits r.path).bucketBurst (h hr)
    simp only [headers, hbucket]
  · rfl

theorem dispatch_arrive_congr {raises : Bool} (h : p.limiters = q.limiters) :
    (dispatch rl estimatedWorkers (.arrive r m raises) p).1 =
        (dispatch rl estimatedWorkers (.arrive r m raises) q).1 ∧
      (dispatch rl estimatedWorkers (.arrive r m raises) p).2.limiters =
        (dispatch rl estimatedWorkers (.arrive r m raises) q).2.limiters := by
  simp only [dispatch, h]
  cases getLimits r.path with
  | none => exact ⟨rfl, rfl⟩
  | some limits => exact ⟨rfl, rfl⟩

theorem dispatch_handled_of_ne {e : Event} {r' : Request} (hne : r' ≠ e.request) :
    r' ∈ (dispatch rl estimatedWorkers e p).2.handled ↔ r' ∈ p.handled := by
  cases e with
  | arrive r m raises =>
    have hr : r' ≠ r := hne
    simp only [dispatch]
    split
    · simp only
      split <;> simp [hr]
    · simp [hr]
  | respond r m =>
    have hr : r' ≠ r := hne
    simp only [dispatch]
    split
    · simp [hr]
    · rfl

/-- What the requests on limited routes can see of a process. -/
def SameForLimited (p q : Process) : Prop :=
  p.limiters = q.limiters ∧
    ∀ r, (getLimits r.path).isSome = true → (r ∈ p.handled ↔ r ∈ q.handled)

theorem SameForLimited.dispatch_others {e : Event} (h : SameForLimited p q)
    (he : e.onLimited = false) (hfind : HeadersFind p e) :
    SameForLimited (dispatch rl estimatedWorkers e p).2 q := by
  refine ⟨?_, fun r' hr' => ?_⟩
  · rw [← h.1]
    cases e with
    | arrive r m raises =>
      have hnone : getLimits r.path = none :=
        Option.isNone_iff_eq_none.mp (Option.isSome_eq_false_iff.mp he)
      simp only [dispatch, hnone]
    | respond r m => exact dispatch_respond_limiters hfind
  · have hne : r' ≠ e.request := by
      rintro rfl
      exact Bool.false_ne_true (he.symm.trans hr')
    rw [dispatch_handled_of_ne hne, h.2 r' hr']

theorem SameForLimited.dispatch {e : Event} (h : SameForLimited p q) (he : e.onLimited = true) :
    (dispatch rl estimatedWorkers e p).1 = (RateLimit.dispatch rl estimatedWorkers e q).1 ∧
      SameForLimited (RateLimit.dispatch rl estimatedWorkers e p).2
        (RateLimit.dispatch rl estimatedWorkers e q).2 := by
  obtain ⟨hlimiters, hhandled⟩ := h
  cases e with
  | arrive r m raises =>
    obtain ⟨limits, hlimits⟩ := Option.isSome_iff_exists.mp he
    have hr : getLimits r.path = some limits := hlimits
    simp only [RateLimit.dispatch, hr, hlimiters]
    refine ⟨trivial, rfl, fun r' hr' => ?_⟩
    split
    · simp only [Finset.mem_insert, hhandled r' hr']
    · exact hhandled r' hr'
  | respond r m =>
    have hr := hhandled r he
    by_cases hmem : r ∈ q.handled
    · simp only [RateLimit.dispatch, if_pos hmem, if_pos (hr.mpr hmem), hlimiters]
      refine ⟨trivial, rfl, fun r' hr' => ?_⟩
      simp only [Finset.mem_erase, hhandled r' hr']
    · simp only [RateLimit.dispatch, if_neg hmem, if_neg (mt hr.mp hmem)]
      exact ⟨trivial, hlimiters, hhandled⟩

/-- In every run in which headers are computed from a global bucket that is there, the routes
without a limit are not noticed on the others, and neither are the headers. -/
theorem isolated_of_headersFind {events : List Event}
    (h : EachCall (dispatch rl estimatedWorkers) HeadersFind p events) :
    Isolated rl estimatedWorkers p events ∧ HeadersHarmless rl estimatedWorkers p events := by
  constructor
  · -- the answers on limited routes first, of which those to arrivals are then taken
    have hlimited : (answers (dispatch rl estimatedWorkers) p events).filter
        (fun a => a.1.onLimited) =
          answers (dispatch rl estimatedWorkers) p (events.filter Event.onLimited) := by
      refine answers_filter (R := SameForLimited) ?_ ?_ ⟨rfl, fun _ _ => Iff.rfl⟩ h
      · intro p q e hsame he _
        exact hsame.dispatch he
      · intro p q e hsame he hfind
        exact hsame.dispatch_others he hfind
    rw [Isolated, ← hlimited, List.filter_filter]
    refine List.filter_congr fun a _ => ?_
    rw [Bool.and_assoc, Bool.and_self]
  · refine answers_filter (R := fun p q => p.limiters = q.limiters) ?_ ?_ rfl h
    · intro p q e hsame he _
      cases e with
      | arrive r m raises => exact dispatch_arrive_congr hsame
      | respond r m => cases he
    · intro p q e hsame he hfind
      cases e with
      | arrive r m raises => cases he
      | respond r m => rw [dispatch_respond_limiters hfind, hsame]

def start : Process := ⟨⟨fun _ => none, {}⟩, ∅⟩

def momentAt (seconds : ℚ) : Moment := ⟨seconds, seconds, seconds⟩

def probe : Request := ⟨0, "/livez", "", ""⟩

def jobs (id : ℕ) : Request := ⟨id, "/api/v1/jobs", "", ""⟩

theorem getLimits_probe : getLimits probe.path = none := by decide

theorem getLimits_jobs (id : ℕ) : getLimits (jobs id).path = some (2, 5) := by
  change getLimits "/api/v1/jobs" = some (2, 5)
  decide

/-- A probe that finds the bucket of an earlier request leaves it as it is. -/
theorem isolated_of_headersFind_probe :
    let events := [.arrive (jobs 1) (momentAt 0) false, .arrive probe (momentAt 1) false,
      .respond probe (momentAt 1), .respond (jobs 1) (momentAt 2),
      .arrive (jobs 2) (momentAt 2) false]
    Isolated {} 5 start events ∧ HeadersHarmless {} 5 start events := by
  refine isolated_of_headersFind ?_
  simp only [EachCall, dispatch, getLimits_probe, getLimits_jobs]
  decide +kernel

/-- The response to a probe leaves an infinite bucket, and two requests at once pass where only
one would have. -/
theorem not_isolated_probe :
    (¬ ∀ events, Isolated {} 5 start events) ∧ ¬ ∀ events, HeadersHarmless {} 5 start events := by
  constructor
  · intro h
    have hrun := h [.arrive probe (momentAt 0) false, .respond probe (momentAt 0),
      .arrive (jobs 1) (momentAt 1) false, .arrive (jobs 2) (momentAt 1) false]
    simp only [Isolated, answers, dispatch, Event.onLimited, Event.request, List.filter_cons,
      List.filter_nil, getLimits_probe, getLimits_jobs, Option.isSome_none, Option.isSome_some,
      Bool.false_eq_true, if_true, if_false] at hrun
    revert hrun
    decide +kernel
  · intro h
    have hrun := h [.arrive probe (momentAt 0) false, .respond probe (momentAt 0),
      .arrive (jobs 1) (momentAt 1) false, .arrive (jobs 2) (momentAt 1) false]
    simp only [HeadersHarmless, answers, dispatch, Event.arrives, List.filter_cons,
      List.filter_nil, getLimits_probe, getLimits_jobs, Bool.false_eq_true, if_true,
      if_false] at hrun
    revert hrun
    decide +kernel

end WorkTicket.Middleware.RateLimit
