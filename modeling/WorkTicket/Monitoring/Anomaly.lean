import Mathlib
import WorkTicket.Foundation.Transition

/-! The anomaly detector with its baselines in Redis and with its baselines in memory, call by call.
The helper that reads a baseline from Redis knows the fields of one of the three kinds. -/

namespace WorkTicket.Monitoring.Anomaly

open WorkTicket.Transition

/-! ## Numbers -/

/-- Floats and the texts that Redis keeps of them; a division by zero raises, so `div` is not asked
for it. -/
structure Numbers (F T : Type) where
  ofRat : ℚ → F
  add : F → F → F
  sub : F → F → F
  mul : F → F → F
  div : F → F → F
  abs : F → F
  round : F → ℕ → F
  lt : F → F → Bool
  isZero : F → Bool
  repr : F → T
  parse : T → Option F
  reprInt : ℕ → T
  parseInt : T → Option ℕ
  parse_repr : ∀ x, parse (repr x) = some x
  parseInt_reprInt : ∀ n, parseInt (reprInt n) = some n

/-! ## Samples and alerts -/

inductive Metric
  | avgConfidence
  | fallbackRate
  | partialFailureRate
  deriving DecidableEq, Repr

def Metric.text : Metric → String
  | .avgConfidence => "avg_confidence"
  | .fallbackRate => "fallback_rate"
  | .partialFailureRate => "partial_failure_rate"

def Metric.threshold : Metric → ℚ
  | .avgConfidence => 3 / 10
  | .fallbackRate | .partialFailureRate => 1 / 10

inductive Kind
  | latency (stepName : String)
  | failureRate
  | quality (metric : Metric)
  deriving DecidableEq, Repr

/-- The entry of a baseline beside `samples`. -/
inductive Field
  | avgMs
  | rate
  | value
  deriving DecidableEq, Repr

def Field.text : Field → String
  | .avgMs => "avg_ms"
  | .rate => "rate"
  | .value => "value"

def Kind.field : Kind → Field
  | .latency _ => .avgMs
  | .failureRate => .rate
  | .quality _ => .value

structure Baseline (F : Type) where
  field : Field
  value : F
  samples : ℕ
  deriving DecidableEq

inductive Severity
  | warning
  | critical
  deriving DecidableEq, Repr

inductive Alert (F : Type)
  | latency (step : String) (current baseline ratio threshold : F) (companyId : Option String)
    (timestamp : String) (severity : Severity)
  | failureRate (current baseline ratio : F) (companyId : Option String) (timestamp : String)
    (severity : Severity)
  | drop (metric : Metric) (current baseline drop : F) (severity : Severity) (timestamp : String)
  | increase (metric : Metric) (current baseline increase : F) (severity : Severity)
    (timestamp : String)
  deriving DecidableEq

/-- A value that is held against the baseline of its key. -/
structure Sample (F : Type) where
  kind : Kind
  current : F
  companyId : Option String
  timestamp : String
  deriving DecidableEq

/-- `company_id or 'global'` -/
def scope (companyId : Option String) : String := (companyId.filter (· ≠ "")).getD "global"

def Kind.scopeless : Kind → String
  | .latency stepName => stepName
  | .failureRate => "failure_rate"
  | .quality metric => "quality:" ++ metric.text

def Sample.key {F : Type} (x : Sample F) : String := x.kind.scopeless ++ ":" ++ scope x.companyId

def minBaselineSamples : ℕ := 10

namespace Sample

variable {F T : Type} (py : Numbers F T) (x : Sample F) (b : F)

/-- A latency or a failure rate is out of line. -/
def exceeds (floor : ℚ) : Bool :=
  py.lt (py.mul b (py.ofRat 2)) x.current && py.lt (py.ofRat floor) x.current

def severity : Severity :=
  if py.lt x.current (py.mul b (py.ofRat 3)) then .warning else .critical

def smoothed : F :=
  py.add (py.mul b (py.ofRat (9 / 10))) (py.mul x.current (py.ofRat (1 / 10)))

/-- A sample against a full baseline: the alerts, and the new value if there is one; `none` where
it raises. -/
def judge : Option (List (Alert F) × Option F) :=
  match x.kind with
  | .latency stepName =>
    if x.exceeds py b 1000 then
      if py.isZero b then none
      else some ([.latency stepName (py.round x.current 2) (py.round b 2)
        (py.round (py.div x.current b) 2) (py.ofRat 2) x.companyId x.timestamp
        (x.severity py b)], none)
    else some ([], some (x.smoothed py b))
  | .failureRate =>
    if x.exceeds py b (5 / 100) then
      some ([.failureRate (py.round x.current 4) (py.round b 4)
        (if py.lt (py.ofRat 0) b then py.round (py.div x.current b) 2 else py.ofRat 0)
        x.companyId x.timestamp (x.severity py b)], none)
    else some ([], some (x.smoothed py b))
  | .quality metric =>
    let deviation := py.abs (py.sub x.current b)
    let severity := if py.lt deviation (py.mul (py.ofRat metric.threshold) (py.ofRat 2)) then
      Severity.warning else .critical
    let alerts := match metric with
      | .avgConfidence =>
        if py.lt x.current (py.sub b (py.ofRat metric.threshold)) then
          [Alert.drop metric (py.round x.current 3) (py.round b 3) (py.round deviation 3) severity
            x.timestamp]
        else []
      | .fallbackRate | .partialFailureRate =>
        if py.lt (py.add b (py.ofRat metric.threshold)) x.current then
          [Alert.increase metric (py.round x.current 4) (py.round b 4) (py.round deviation 4)
            severity x.timestamp]
        else []
    some (alerts, some (x.smoothed py b))

/-- The alerts of a sample, and the baseline to set if there is one. -/
def check (found : Option (Baseline F)) : Option (List (Alert F) × Option (Baseline F)) :=
  match found with
  | none => some ([], some ⟨x.kind.field, x.current, 1⟩)
  | some b =>
    -- the dictionary has no other entry: `KeyError`
    if b.field ≠ x.kind.field then none
    else if b.samples < minBaselineSamples then
      some ([], some ⟨b.field, py.div (py.add (py.mul b.value (py.ofRat b.samples)) x.current)
        (py.ofRat (b.samples + 1)), b.samples + 1⟩)
    else (x.judge py b.value).map fun (alerts, value) =>
      (alerts, value.map fun v => ⟨b.field, v, b.samples⟩)

end Sample

/-! ## The two stores -/

/-- `_local_baseline`. -/
abbrev LocalBaseline (F : Type) := String → Option (Baseline F)

structure Hash (T : Type) where
  fields : String → Option T
  expires : ℚ

/-- The hashes `baseline:..`, and what the process keeps beside them. -/
structure RedisBaseline (F T : Type) where
  hashes : String → Option (Hash T)
  memory : LocalBaseline F

def baselineSeconds : ℚ := 1800

section
variable {F T : Type} (py : Numbers F T) (decodeResponses : Bool) (now : ℚ)

namespace RedisBaseline

variable (r : RedisBaseline F T) (key : String)

def hash? : Option (Hash T) := (r.hashes key).filter fun h => now < h.expires

/-- `data.get(name, 0)` for a name in bytes, where the names of the reply may be texts. -/
def readField {α : Type} (h : Hash T) (name : String) (parse : T → Option α) (default : α) :
    Option α :=
  if decodeResponses then some default else (h.fields name).elim (some default) parse

/-- `_get_baseline`; a text that is no number sends it to the local copy. -/
def getBaseline : Option (Baseline F) :=
  match r.hash? now key with
  | none => r.memory key
  | some h =>
    match readField decodeResponses h "avg_ms" py.parse (py.ofRat 0),
      readField decodeResponses h "samples" py.parseInt 0 with
    | some value, some samples => some ⟨.avgMs, value, samples⟩
    | _, _ => r.memory key

def setBaseline (b : Baseline F) : RedisBaseline F T :=
  let fields := ((r.hash? now key).elim (fun _ => none) Hash.fields)
  let fields := Function.update fields b.field.text (some (py.repr b.value))
  let fields := Function.update fields "samples" (some (py.reprInt b.samples))
  ⟨Function.update r.hashes key (some ⟨fields, now + baselineSeconds⟩),
    Function.update r.memory key (some b)⟩

end RedisBaseline

/-! ## Both at once -/

/-- One detector without Redis, one with it, and the answers of both; `none` is a call that raised. -/
structure Paired (F T : Type) where
  now : ℚ
  alone : LocalBaseline F
  redis : RedisBaseline F T
  answers : List (Option (List (Alert F)) × Option (List (Alert F)))

/-- The samples of a call one after the other, until one raises. -/
def observe {σ : Type} (get : σ → String → Option (Baseline F))
    (set : σ → String → Baseline F → σ) (s : σ) : List (Sample F) → Option (List (Alert F)) × σ
  | [] => (some [], s)
  | x :: xs =>
    match x.check py (get s x.key) with
    | none => (none, s)
    | some (alerts, baseline) =>
      let (rest, s) := observe get set (baseline.elim s (set s x.key)) xs
      (rest.map (alerts ++ ·), s)

inductive Event (F : Type)
  | tick (seconds : ℚ)
  | checkLatencyAnomaly (stepName : String) (currentAvgMs : F) (companyId : Option String)
    (timestamp : String)
  | checkFailureRateAnomaly (currentRate : F) (companyId : Option String) (timestamp : String)
  | checkOutputQualityDrift (currentAvgConfidence fallbackRate partialFailureRate : F)
    (companyId : Option String) (timestamp : String)

def Event.samples : Event F → List (Sample F)
  | .tick _ => []
  | .checkLatencyAnomaly stepName currentAvgMs companyId timestamp =>
    [⟨.latency stepName, currentAvgMs, companyId, timestamp⟩]
  | .checkFailureRateAnomaly currentRate companyId timestamp =>
    [⟨.failureRate, currentRate, companyId, timestamp⟩]
  | .checkOutputQualityDrift currentAvgConfidence fallbackRate partialFailureRate companyId
      timestamp =>
    [⟨.quality .avgConfidence, currentAvgConfidence, companyId, timestamp⟩,
      ⟨.quality .fallbackRate, fallbackRate, companyId, timestamp⟩,
      ⟨.quality .partialFailureRate, partialFailureRate, companyId, timestamp⟩]

def observeAlone (alone : LocalBaseline F) (xs : List (Sample F)) :
    Option (List (Alert F)) × LocalBaseline F :=
  observe py (fun s key => s key) (fun s key b => Function.update s key (some b)) alone xs

def observeRedis (redis : RedisBaseline F T) (xs : List (Sample F)) :
    Option (List (Alert F)) × RedisBaseline F T :=
  observe py (RedisBaseline.getBaseline py decodeResponses now)
    (RedisBaseline.setBaseline py now) redis xs

def step (s : Paired F T) : Event F → Option (Paired F T)
  | .tick seconds => if 0 ≤ seconds then some { s with now := s.now + seconds } else none
  | e =>
    let (answer, alone) := observeAlone py s.alone e.samples
    let (answer', redis) := observeRedis py decodeResponses s.now s.redis e.samples
    some { s with alone, redis, answers := (answer, answer') :: s.answers }

def start (now : ℚ) : Paired F T := ⟨now, fun _ => none, ⟨fun _ => none, fun _ => none⟩, []⟩

/-- No call raised, and each was answered the same with Redis as without. -/
def Agrees (s : Paired F T) : Prop := ∀ answer ∈ s.answers, answer.1.isSome ∧ answer.1 = answer.2

/-- The baseline is full, and the latency far above it. -/
def Alarms (x : Sample F) (b : Baseline F) : Prop :=
  minBaselineSamples ≤ b.samples ∧ x.exceeds py b.value 1000 = true

/-- The key was used for samples of this kind only. A latency is not far above a baseline of zero,
and if replies are decoded, it is not far above a baseline where the hash is still there. A failure
rate or a quality comes when the hash is gone. -/
structure Fits (s : Paired F T) (x : Sample F) : Prop where
  sameField : ∀ b ∈ s.alone x.key, b.field = x.kind.field
  nonzero : x.kind.field = .avgMs → ∀ b ∈ s.alone x.key, Alarms py x b → py.isZero b.value = false
  decoded : decodeResponses = true → x.kind.field = .avgMs →
    s.redis.getBaseline py decodeResponses s.now x.key = s.alone x.key ∨
      ((∀ b ∈ s.alone x.key, ¬Alarms py x b) ∧
        ∀ b ∈ s.redis.getBaseline py decodeResponses s.now x.key, ¬Alarms py x b)
  expired : x.kind.field ≠ .avgMs → s.redis.hash? s.now x.key = none

theorem fits_iff (s : Paired F T) (x : Sample F) : Fits py decodeResponses s x ↔
    (∀ b ∈ s.alone x.key, b.field = x.kind.field) ∧
    (x.kind.field = .avgMs → ∀ b ∈ s.alone x.key, Alarms py x b → py.isZero b.value = false) ∧
    (decodeResponses = true → x.kind.field = .avgMs →
      s.redis.getBaseline py decodeResponses s.now x.key = s.alone x.key ∨
      ((∀ b ∈ s.alone x.key, ¬Alarms py x b) ∧
        ∀ b ∈ s.redis.getBaseline py decodeResponses s.now x.key, ¬Alarms py x b)) ∧
    (x.kind.field ≠ .avgMs → (s.redis.hash? s.now x.key).isNone) := by
  constructor
  · rintro ⟨hsame, hnonzero, hdecoded, hexpired⟩
    exact ⟨hsame, hnonzero, hdecoded, fun h => Option.isNone_iff_eq_none.mpr (hexpired h)⟩
  · rintro ⟨hsame, hnonzero, hdecoded, hexpired⟩
    exact ⟨hsame, hnonzero, hdecoded, fun h => Option.isNone_iff_eq_none.mp (hexpired h)⟩

def Meets (s : Paired F T) (e : Event F) : Prop :=
  ∀ x ∈ e.samples, Fits py decodeResponses s x

instance (x : Sample F) (b : Baseline F) : Decidable (Alarms py x b) :=
  inferInstanceAs (Decidable (_ ∧ _))

instance [DecidableEq F] (s : Paired F T) (x : Sample F) :
    Decidable (Fits py decodeResponses s x) :=
  decidable_of_iff _ (fits_iff py decodeResponses s x).symm

instance [DecidableEq F] (s : Paired F T) (e : Event F) :
    Decidable (Meets py decodeResponses s e) :=
  inferInstanceAs (Decidable (∀ x ∈ e.samples, Fits py decodeResponses s x))

/-! ## What ties the stores -/

/-- What is in memory without Redis, and what Redis and the process with Redis have of the key. -/
structure Tied (alone memory : Option (Baseline F)) (hash : Option (Hash T)) : Prop where
  fresh : alone = none → memory = none ∧ hash = none
  kept : ∀ b ∈ alone, ∃ b' ∈ memory, b'.field = b.field ∧
    (b.field ≠ .avgMs ∨ decodeResponses = false → b' = b)
  stored : decodeResponses = false → ∀ b ∈ alone, b.field = .avgMs → ∀ h ∈ hash,
    h.fields "avg_ms" = some (py.repr b.value) ∧ h.fields "samples" = some (py.reprInt b.samples)

def Inv (s : Paired F T) : Prop :=
  ∀ key, Tied py decodeResponses (s.alone key) (s.redis.memory key) (s.redis.hash? s.now key)

variable {py decodeResponses} {s s' : Paired F T} {x : Sample F}

theorem check_eq_of_field {b : Baseline F} (hfield : b.field = x.kind.field)
    (hnonzero : x.kind.field = .avgMs → Alarms py x b → py.isZero b.value = false) :
    ∃ alerts baseline, x.check py (some b) = some (alerts, baseline) ∧
      ∀ b' ∈ baseline, b'.field = x.kind.field := by
  simp only [Sample.check, hfield, ne_eq, not_true_eq_false, if_false]
  split
  · exact ⟨_, _, rfl, by rintro _ ⟨⟩; rfl⟩
  · rename_i hfull
    have hjudge : ∃ alerts value, x.judge py b.value = some (alerts, value) := by
      unfold Sample.judge
      cases hkind : x.kind with
      | latency stepName =>
        simp only
        split_ifs with hexceeds hzero
        · have halarms : Alarms py x b := ⟨not_lt.mp hfull, hexceeds⟩
          rw [hnonzero (by rw [hkind]; rfl) halarms] at hzero
          cases hzero
        · exact ⟨_, _, rfl⟩
        · exact ⟨_, _, rfl⟩
      | failureRate =>
        simp only
        split_ifs
        · exact ⟨_, _, rfl⟩
        · exact ⟨_, _, rfl⟩
        · exact ⟨_, _, rfl⟩
      | quality metric => exact ⟨_, _, rfl⟩
    obtain ⟨alerts, value, hjudge⟩ := hjudge
    refine ⟨alerts, _, by rw [hjudge]; rfl, ?_⟩
    intro b' hb'
    obtain ⟨v, -, rfl⟩ := Option.map_eq_some_iff.mp hb'
    rfl

/-- A latency that is not far above its baseline only moves it. -/
theorem check_eq_of_not_alarms {b : Baseline F} (hfield : b.field = .avgMs)
    (hkind : x.kind.field = .avgMs) (hcalm : ¬Alarms py x b) :
    ∃ b', x.check py (some b) = some ([], some b') ∧ b'.field = .avgMs := by
  simp only [Sample.check, hfield, hkind, ne_eq, not_true_eq_false, if_false]
  split
  · exact ⟨_, rfl, rfl⟩
  · rename_i hfull
    have hexceeds : ¬x.exceeds py b.value 1000 = true := fun h => hcalm ⟨not_lt.mp hfull, h⟩
    cases hx : x.kind with
    | latency stepName =>
      rw [Sample.judge, hx]
      simp only [hexceeds]
      exact ⟨_, rfl, rfl⟩
    | failureRate => simp [hx, Kind.field] at hkind
    | quality metric => simp [hx, Kind.field] at hkind

theorem getBaseline_of_gone {r : RedisBaseline F T} {now : ℚ} {key : String}
    (h : r.hash? now key = none) : r.getBaseline py decodeResponses now key = r.memory key := by
  rw [RedisBaseline.getBaseline, h]

/-- With replies in bytes, Redis gives back what it was given. -/
theorem Tied.getBaseline_eq {r : RedisBaseline F T} {now : ℚ} {key : String}
    {alone : Option (Baseline F)} (h : Tied py false alone (r.memory key) (r.hash? now key))
    (hfield : ∀ b ∈ alone, b.field = .avgMs) : r.getBaseline py false now key = alone := by
  cases alone with
  | none => rw [getBaseline_of_gone (h.fresh rfl).2, (h.fresh rfl).1]
  | some b =>
    obtain ⟨b', hmemory, -, hsame⟩ := h.kept b rfl
    obtain rfl := hsame (.inr rfl)
    cases hhash : r.hash? now key with
    | none => rw [getBaseline_of_gone hhash, hmemory]
    | some hash =>
      obtain ⟨hvalue, hsamples⟩ := h.stored rfl b' rfl (hfield b' rfl) hash hhash
      rw [RedisBaseline.getBaseline, hhash]
      simp only [RedisBaseline.readField, hvalue, hsamples, Option.elim_some, py.parse_repr,
        py.parseInt_reprInt, Bool.false_eq_true, if_false, ← hfield b' rfl]

/-- With decoded replies, Redis gives a latency baseline where there is one. -/
theorem Tied.getBaseline_field {r : RedisBaseline F T} {now : ℚ} {key : String} {b : Baseline F}
    (h : Tied py true (some b) (r.memory key) (r.hash? now key)) (hfield : b.field = .avgMs) :
    ∃ b', r.getBaseline py true now key = some b' ∧ b'.field = .avgMs := by
  cases hhash : r.hash? now key with
  | none =>
    obtain ⟨b', hmemory, hfield', -⟩ := h.kept b rfl
    exact ⟨b', by rw [getBaseline_of_gone hhash, hmemory], hfield'.trans hfield⟩
  | some hash =>
    rw [RedisBaseline.getBaseline, hhash]
    exact ⟨_, rfl, rfl⟩

/-- A sample is answered the same on both sides, and sets baselines that belong together. -/
theorem check_both (h : Inv py decodeResponses s) (hfits : Fits py decodeResponses s x) :
    ∃ alerts base base', x.check py (s.alone x.key) = some (alerts, base) ∧
      x.check py (s.redis.getBaseline py decodeResponses s.now x.key) = some (alerts, base') ∧
      (base = base' ∨ (decodeResponses = true ∧ ∃ b ∈ base, ∃ b' ∈ base',
        b.field = .avgMs ∧ b'.field = .avgMs)) := by
  have hsame : s.redis.getBaseline py decodeResponses s.now x.key = s.alone x.key →
      ∃ alerts base base', x.check py (s.alone x.key) = some (alerts, base) ∧
      x.check py (s.redis.getBaseline py decodeResponses s.now x.key) = some (alerts, base') ∧
      (base = base' ∨ (decodeResponses = true ∧ ∃ b ∈ base, ∃ b' ∈ base',
        b.field = .avgMs ∧ b'.field = .avgMs)) := by
    intro hget
    rw [hget]
    cases halone : s.alone x.key with
    | none => exact ⟨_, _, _, rfl, rfl, .inl rfl⟩
    | some b =>
      obtain ⟨alerts, base, hcheck, -⟩ := check_eq_of_field (hfits.sameField b halone)
        fun hfield => hfits.nonzero hfield b halone
      exact ⟨alerts, base, base, hcheck, hcheck, .inl rfl⟩
  by_cases hfield : x.kind.field = .avgMs
  · cases hdecode : decodeResponses with
    | false =>
      subst hdecode
      exact hsame ((h x.key).getBaseline_eq fun b hb => (hfits.sameField b hb).trans hfield)
    | true =>
      subst hdecode
      rcases hfits.decoded rfl hfield with hget | ⟨hcalm, hcalm'⟩
      · exact hsame hget
      · rcases Option.eq_none_or_eq_some (s.alone x.key) with halone | ⟨b, halone⟩
        · have hfresh := (h x.key).fresh halone
          exact hsame (by rw [getBaseline_of_gone hfresh.2, hfresh.1, halone])
        · have hb : b.field = .avgMs := (hfits.sameField b halone).trans hfield
          have htied := h x.key
          rw [halone] at htied
          obtain ⟨b', hget, hb'⟩ := htied.getBaseline_field hb
          obtain ⟨c, hcheck, hc⟩ := check_eq_of_not_alarms hb hfield (hcalm b halone)
          obtain ⟨c', hcheck', hc'⟩ := check_eq_of_not_alarms hb' hfield (hcalm' b' hget)
          exact ⟨[], some c, some c', by rw [halone, hcheck], by rw [hget, hcheck'],
            .inr ⟨rfl, c, rfl, c', rfl, hc, hc'⟩⟩
  · refine hsame ?_
    have hgone := hfits.expired hfield
    rw [getBaseline_of_gone hgone]
    cases halone : s.alone x.key with
    | none => exact ((h x.key).fresh halone).1
    | some b =>
      obtain ⟨b', hmemory, -, hkept⟩ := (h x.key).kept b halone
      have hb : b.field ≠ .avgMs := fun hb => hfield ((hfits.sameField b halone).symm.trans hb)
      rw [hmemory, hkept (.inl hb)]

theorem tied_setBaseline (r : RedisBaseline F T) (now : ℚ) (key : String) {b b' : Baseline F}
    (h : b' = b ∨ (decodeResponses = true ∧ b.field = .avgMs ∧ b'.field = .avgMs)) :
    Tied py decodeResponses (some b) ((r.setBaseline py now key b').memory key)
      ((r.setBaseline py now key b').hash? now key) := by
  refine ⟨nofun, ?_, ?_⟩
  · rintro _ ⟨⟩
    refine ⟨b', by simp [RedisBaseline.setBaseline], ?_⟩
    rcases h with rfl | ⟨rfl, hb, hb'⟩
    · exact ⟨rfl, fun _ => rfl⟩
    · refine ⟨hb'.trans hb.symm, ?_⟩
      rintro (hne | hfalse)
      · exact absurd hb hne
      · cases hfalse
  · rintro hbytes _ ⟨⟩ hfield hash hhash
    rcases h with rfl | ⟨hdecode, -⟩
    · have hset := (Option.filter_eq_some_iff.mp hhash).1
      simp only [RedisBaseline.setBaseline, Function.update_self, Option.some.injEq] at hset
      subst hset
      simp [hfield, Field.text]
    · rw [hbytes] at hdecode
      cases hdecode

/-- Both sides after a sample. -/
def Paired.set (py : Numbers F T) (s : Paired F T) (key : String) (base base' : Option (Baseline F)) :
    Paired F T :=
  { s with
    alone := base.elim s.alone fun b => Function.update s.alone key (some b)
    redis := base'.elim s.redis (s.redis.setBaseline py s.now key) }

/-- A sample does not concern the other keys. -/
theorem set_of_ne (py : Numbers F T) (s : Paired F T) {key other : String} (hne : other ≠ key)
    (base base' : Option (Baseline F)) :
    (s.set py key base base').alone other = s.alone other ∧
      (s.set py key base base').redis.memory other = s.redis.memory other ∧
      (s.set py key base base').redis.hash? s.now other = s.redis.hash? s.now other := by
  refine ⟨?_, ?_, ?_⟩
  · cases base <;> simp [Paired.set, hne]
  · cases base' <;> simp [Paired.set, RedisBaseline.setBaseline, hne]
  · cases base' <;> simp [Paired.set, RedisBaseline.setBaseline, RedisBaseline.hash?, hne]

theorem inv_set (h : Inv py decodeResponses s) {key : String} {base base' : Option (Baseline F)}
    (hbase : base = base' ∨ (decodeResponses = true ∧ ∃ b ∈ base, ∃ b' ∈ base',
      b.field = .avgMs ∧ b'.field = .avgMs)) :
    Inv py decodeResponses (s.set py key base base') := by
  intro other
  by_cases hother : other = key
  · subst hother
    rcases hbase with rfl | ⟨hdecode, b, rfl, b', rfl, hb, hb'⟩
    · cases base with
      | none => exact h other
      | some b => simpa [Paired.set] using tied_setBaseline s.redis s.now other (.inl rfl)
    · simpa [Paired.set] using tied_setBaseline s.redis s.now other (.inr ⟨hdecode, hb, hb'⟩)
  · obtain ⟨halone, hmemory, hhash⟩ := set_of_ne py s hother base base'
    have hnow : (s.set py key base base').now = s.now := rfl
    rw [hnow, halone, hmemory, hhash]
    exact h other

theorem fits_set (h : Fits py decodeResponses s x) {key : String} (hne : x.key ≠ key)
    (base base' : Option (Baseline F)) : Fits py decodeResponses (s.set py key base base') x := by
  obtain ⟨halone, hmemory, hhash⟩ := set_of_ne py s hne base base'
  have hnow : (s.set py key base base').now = s.now := rfl
  have hget : (s.set py key base base').redis.getBaseline py decodeResponses s.now x.key =
      s.redis.getBaseline py decodeResponses s.now x.key := by
    rw [RedisBaseline.getBaseline, RedisBaseline.getBaseline, hhash, hmemory]
  constructor
  · rw [halone]
    exact h.sameField
  · rw [halone]
    exact h.nonzero
  · rw [hnow, halone, hget]
    exact h.decoded
  · rw [hnow, hhash]
    exact h.expired

theorem observe_cons {σ : Type} {get : σ → String → Option (Baseline F)}
    {set : σ → String → Baseline F → σ} {t : σ} {xs : List (Sample F)} {alerts : List (Alert F)}
    {base : Option (Baseline F)} (h : x.check py (get t x.key) = some (alerts, base)) :
    observe py get set t (x :: xs) =
      ((observe py get set (base.elim t (set t x.key)) xs).1.map (alerts ++ ·),
        (observe py get set (base.elim t (set t x.key)) xs).2) := by
  rw [observe, h]

/-- The samples of a call are answered the same on both sides. -/
theorem observe_both {xs : List (Sample F)} (h : Inv py decodeResponses s)
    (hkeys : (xs.map Sample.key).Nodup) (hfits : ∀ x ∈ xs, Fits py decodeResponses s x) :
    (observeAlone py s.alone xs).1.isSome ∧
      (observeAlone py s.alone xs).1 = (observeRedis py decodeResponses s.now s.redis xs).1 ∧
      Inv py decodeResponses { s with
        alone := (observeAlone py s.alone xs).2
        redis := (observeRedis py decodeResponses s.now s.redis xs).2 } := by
  induction xs generalizing s with
  | nil => exact ⟨rfl, rfl, h⟩
  | cons x xs ih =>
    obtain ⟨alerts, base, base', hcheck, hcheck', hbase⟩ := check_both h (hfits x List.mem_cons_self)
    obtain ⟨hnew, hrest⟩ := List.nodup_cons.mp hkeys
    have hfits' : ∀ y ∈ xs, Fits py decodeResponses (s.set py x.key base base') y := by
      intro y hy
      have hne : y.key ≠ x.key := by
        intro heq
        exact hnew (heq ▸ List.mem_map_of_mem hy)
      exact fits_set (hfits y (List.mem_cons_of_mem _ hy)) hne base base'
    obtain ⟨hsome, heq, hinv⟩ := ih (inv_set h hbase) hrest hfits'
    have halone : observeAlone py s.alone (x :: xs) =
        ((observeAlone py (s.set py x.key base base').alone xs).1.map (alerts ++ ·),
          (observeAlone py (s.set py x.key base base').alone xs).2) := observe_cons hcheck
    have hredis : observeRedis py decodeResponses s.now s.redis (x :: xs) =
        ((observeRedis py decodeResponses s.now (s.set py x.key base base').redis xs).1.map
            (alerts ++ ·),
          (observeRedis py decodeResponses s.now (s.set py x.key base base').redis xs).2) :=
      observe_cons hcheck'
    rw [halone, hredis]
    exact ⟨by simpa using hsome, congrArg (Option.map (alerts ++ ·)) heq, hinv⟩

/-- The first letter of a metric is the ninth of its keys. -/
theorem key_quality (metric : Metric) (current : F) (companyId : Option String)
    (timestamp : String) :
    (Sample.key ⟨.quality metric, current, companyId, timestamp⟩).toList[8]? =
      metric.text.toList.head? := by
  cases metric <;>
    simp [Sample.key, Kind.scopeless, Metric.text, String.toList_append]

theorem keys_nodup (e : Event F) : (e.samples.map Sample.key).Nodup := by
  cases e with
  | tick seconds => exact List.nodup_nil
  | checkLatencyAnomaly stepName currentAvgMs companyId timestamp => exact List.nodup_singleton _
  | checkFailureRateAnomaly currentRate companyId timestamp => exact List.nodup_singleton _
  | checkOutputQualityDrift currentAvgConfidence fallbackRate partialFailureRate companyId
      timestamp =>
    have hletters : ((Event.checkOutputQualityDrift currentAvgConfidence fallbackRate
        partialFailureRate companyId timestamp).samples.map Sample.key).map
        (fun key => key.toList[8]?) = [some 'a', some 'f', some 'p'] := by
      simp only [Event.samples, List.map_cons, List.map_nil, key_quality]
      rfl
    refine List.Nodup.of_map (fun key : String => key.toList[8]?) ?_
    rw [hletters]
    decide

theorem inv_start (now : ℚ) : Inv py decodeResponses (start now : Paired F T) :=
  fun _ => ⟨fun _ => ⟨rfl, rfl⟩, nofun, nofun⟩

theorem inv_tick {seconds : ℚ} (h : Inv py decodeResponses s) (hle : 0 ≤ seconds) :
    Inv py decodeResponses { s with now := s.now + seconds } := by
  have hlive : ∀ key, ∀ hash ∈ s.redis.hash? (s.now + seconds) key,
      hash ∈ s.redis.hash? s.now key := by
    intro key hash hhash
    obtain ⟨hset, hlive⟩ := Option.filter_eq_some_iff.mp hhash
    refine Option.filter_eq_some_iff.mpr ⟨hset, ?_⟩
    rw [decide_eq_true_eq] at hlive ⊢
    linarith
  intro key
  refine ⟨fun hnone => ⟨((h key).fresh hnone).1, ?_⟩, (h key).kept, ?_⟩
  · refine Option.eq_none_iff_forall_not_mem.mpr fun hash hhash => ?_
    have hlate := hlive key hash hhash
    rw [((h key).fresh hnone).2] at hlate
    cases hlate
  · intro hbytes b hb hfield hash hhash
    exact (h key).stored hbytes b hb hfield hash (hlive key hash hhash)

theorem inv_step {e : Event F} (h : Inv py decodeResponses s ∧ Agrees s)
    (hok : Meets py decodeResponses s e) (hs : step py decodeResponses s e = some s') :
    Inv py decodeResponses s' ∧ Agrees s' := by
  have hcall : ∀ e : Event F, Meets py decodeResponses s e →
      Inv py decodeResponses { s with
        alone := (observeAlone py s.alone e.samples).2
        redis := (observeRedis py decodeResponses s.now s.redis e.samples).2
        answers := ((observeAlone py s.alone e.samples).1,
          (observeRedis py decodeResponses s.now s.redis e.samples).1) :: s.answers } ∧
      Agrees { s with
        alone := (observeAlone py s.alone e.samples).2
        redis := (observeRedis py decodeResponses s.now s.redis e.samples).2
        answers := ((observeAlone py s.alone e.samples).1,
          (observeRedis py decodeResponses s.now s.redis e.samples).1) :: s.answers } := by
    intro e hok
    obtain ⟨hsome, heq, hinv⟩ := observe_both h.1 (keys_nodup e) hok
    refine ⟨hinv, ?_⟩
    rintro answer (_ | ⟨_, hanswer⟩)
    · exact ⟨hsome, heq⟩
    · exact h.2 answer hanswer
  cases e with
  | tick seconds =>
    obtain ⟨hle, rfl⟩ : 0 ≤ seconds ∧ _ = s' := by simpa [step] using hs
    exact ⟨inv_tick h.1 hle, h.2⟩
  | checkLatencyAnomaly => exact Option.some.inj hs ▸ hcall _ hok
  | checkFailureRateAnomaly => exact Option.some.inj hs ▸ hcall _ hok
  | checkOutputQualityDrift => exact Option.some.inj hs ▸ hcall _ hok

theorem agrees_of_meets {now : ℚ}
    (h : ReachedBy (step py decodeResponses) (Meets py decodeResponses) (start now) s) :
    Agrees s :=
  (h.invariant ⟨inv_start now, nofun⟩ fun _ _ _ h hok hs => inv_step h hok hs).2

end

/-- Decimals, and themselves for their texts. -/
def decimals : Numbers ℚ ℚ where
  ofRat := id
  add := (· + ·)
  sub := (· - ·)
  mul := (· * ·)
  div := (· / ·)
  abs := fun x => |x|
  round := fun x digits => (round (x * 10 ^ digits) : ℚ) / 10 ^ digits
  lt := fun x y => x < y
  isZero := fun x => x = 0
  repr := id
  parse := some
  reprInt := fun n => n
  parseInt := fun x => if x.den = 1 then some x.num.toNat else none
  parse_repr := fun _ => rfl
  parseInt_reprInt := fun n => by simp

def latencies (values : List ℚ) : List (Event ℚ) :=
  values.map fun x => .checkLatencyAnomaly "generation" x none "2026-01-01T00:00:00+00:00"

/-- Ten calm latencies and a high one. -/
def slowGeneration : List (Event ℚ) := latencies (List.replicate 10 800 ++ [2500])

theorem agrees_slowGeneration :
    Agrees ((runWhile (step decimals false) (Meets decimals false) (start 0) slowGeneration).get
      (by decide +kernel)) :=
  agrees_of_meets (.of_runWhile (Option.some_get _).symm)

/-- With replies in bytes, the second failure rate raises. With decoded replies, the high latency is
not noticed. -/
theorem not_agrees :
    (¬∀ es s, run (step decimals false) (start 0) es = some s → Agrees s) ∧
    ¬∀ es s, run (step decimals true) (start 0) es = some s → Agrees s := by
  have hlast : ∀ decodeResponses (es : List (Event ℚ)),
      (run (step decimals decodeResponses) (start 0) es).any (fun s => s.answers.any
        fun answer => answer.1 ≠ answer.2) = true →
      ¬∀ es s, run (step decimals decodeResponses) (start 0) es = some s → Agrees s := by
    intro decodeResponses es hruns h
    obtain ⟨s, hs, hdiffers⟩ := (Option.any_eq_true _ _).mp hruns
    obtain ⟨answer, hanswer, hne⟩ := List.any_eq_true.mp hdiffers
    exact of_decide_eq_true hne (h es s hs answer hanswer).2
  exact ⟨hlast false [.checkFailureRateAnomaly (1 / 100) none "", .checkFailureRateAnomaly
    (1 / 100) none ""] (by decide +kernel), hlast true slowGeneration (by decide +kernel)⟩

end WorkTicket.Monitoring.Anomaly
