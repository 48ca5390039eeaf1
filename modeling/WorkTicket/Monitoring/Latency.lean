import WorkTicket.Foundation.OrderStatistics

/-! The latencies of the last requests of each endpoint, and the figures that the health routes give
of them, for one endpoint or for all of them together. -/

namespace WorkTicket.Monitoring.Latency

open OrderStatistics

/-- A request that has come to its end. -/
structure Completion where
  endpointKey : String
  elapsedMs : ℚ
  isError : Bool
  deriving DecidableEq

/-- `keys` are those of `_endpoint_requests`, in the order in which they came. -/
structure Metrics where
  keys : List String
  endpointLatencies : String → List ℚ
  endpointErrors : String → ℕ
  endpointRequests : String → ℕ

structure Settings where
  latencySloMs : ℚ
  availabilitySlo : ℚ

structure LatencyStats where
  p50 : ℚ
  p95 : ℚ
  p99 : ℚ
  avg : ℚ
  max : ℚ
  min : ℚ
  count : ℕ
  sloViolationPct : ℚ
  deriving DecidableEq

structure AvailabilityStats where
  total : ℕ
  errors : ℕ
  availability : ℚ
  sloMet : Bool
  deriving DecidableEq

def MAX_SAMPLES : ℕ := 10000

/-- `latencies[-n:]`, where there are more than `n`. -/
def keepLast {α : Type*} (n : ℕ) (l : List α) : List α := l.drop (l.length - n)

/-- Python's `round(x)`, of a tie the even one. -/
def roundHalfEven (x : ℚ) : ℤ :=
  if Int.fract x = 1 / 2 then 2 * ⌊(x + 1 / 2) / 2⌋ else ⌊x + 1 / 2⌋

/-- `round(x, digits)`. -/
def roundTo (digits : ℕ) (x : ℚ) : ℚ := roundHalfEven (x * 10 ^ digits) / 10 ^ digits

namespace Metrics

variable (m : Metrics)

def empty : Metrics := ⟨[], fun _ => [], fun _ => 0, fun _ => 0⟩

/-- What `latency_middleware` does at the end of a request. -/
def record (c : Completion) : Metrics where
  keys := if c.endpointKey ∈ m.keys then m.keys else m.keys ++ [c.endpointKey]
  endpointLatencies := Function.update m.endpointLatencies c.endpointKey
    (keepLast MAX_SAMPLES (m.endpointLatencies c.endpointKey ++ [c.elapsedMs]))
  endpointErrors := if c.isError then
      Function.update m.endpointErrors c.endpointKey (m.endpointErrors c.endpointKey + 1)
    else m.endpointErrors
  endpointRequests :=
    Function.update m.endpointRequests c.endpointKey (m.endpointRequests c.endpointKey + 1)

def run (cs : List Completion) : Metrics := cs.foldl record empty

/-- All samples, of one endpoint or of all. -/
def samples : Option String → List ℚ
  | some endpointKey => m.endpointLatencies endpointKey
  | none => (m.keys.map m.endpointLatencies).flatten

def total : Option String → ℕ
  | some endpointKey => m.endpointRequests endpointKey
  | none => (m.keys.map m.endpointRequests).sum

def errors : Option String → ℕ
  | some endpointKey => m.endpointErrors endpointKey
  | none => (m.keys.map m.endpointErrors).sum

end Metrics

/-- The index into the sorted values, which are not empty. -/
def percentileIndex (percentile count : ℕ) : ℕ := min (count * percentile / 100) (count - 1)

def getPercentile (values : List ℚ) (percentile : ℕ) : ℚ :=
  (ranked values (percentileIndex percentile values.length)).getD 0

section
variable (settings : Settings) (m : Metrics)

def violationCount (values : List ℚ) : ℕ := values.countP (settings.latencySloMs < ·)

def latencyStats (values : List ℚ) : LatencyStats :=
  if values = [] then ⟨0, 0, 0, 0, 0, 0, 0, 0⟩
  else {
    p50 := roundTo 2 (getPercentile values 50)
    p95 := roundTo 2 (getPercentile values 95)
    p99 := roundTo 2 (getPercentile values 99)
    avg := roundTo 2 (values.sum / values.length)
    max := roundTo 2 (values.max?.getD 0)
    min := roundTo 2 (values.min?.getD 0)
    count := values.length
    sloViolationPct := roundTo 2 (violationCount settings values / values.length * 100) }

def getLatencyStats (endpointKey : Option String) : LatencyStats :=
  latencyStats settings (m.samples endpointKey)

def availability (total errors : ℕ) : ℚ := (total - errors) / total

def availabilityStats (total errors : ℕ) : AvailabilityStats :=
  if total = 0 then ⟨0, 0, 1, true⟩
  else ⟨total, errors, roundTo 6 (availability total errors),
    settings.availabilitySlo ≤ availability total errors⟩

def getAvailabilityStats (endpointKey : Option String) : AvailabilityStats :=
  availabilityStats settings (m.total endpointKey) (m.errors endpointKey)

end

/-! ## The samples of a run -/

/-- The requests of an endpoint that have ended. -/
def ended (cs : List Completion) (endpointKey : String) : List Completion :=
  cs.filter (·.endpointKey = endpointKey)

/-- The latencies of the last of them. -/
def window (cs : List Completion) (endpointKey : String) : List ℚ :=
  keepLast MAX_SAMPLES ((ended cs endpointKey).map (·.elapsedMs))

section
variable {α : Type*} {n : ℕ}

theorem keepLast_eq_nil (hn : 0 < n) {l : List α} : keepLast n l = [] ↔ l = [] := by
  rw [keepLast, List.drop_eq_nil_iff, ← List.length_eq_zero_iff]
  omega

/-- What is cut off once would be cut off later. -/
theorem keepLast_append (n : ℕ) (l : List α) (a : α) :
    keepLast n (keepLast n l ++ [a]) = keepLast n (l ++ [a]) := by
  have hcut : l.length - n ≤ (l ++ [a]).length := by
    rw [List.length_append]
    omega
  have hdrop : keepLast n l ++ [a] = (l ++ [a]).drop (l.length - n) := by
    rw [keepLast, List.drop_append_of_le_length (Nat.sub_le _ _)]
  rw [hdrop, keepLast, List.drop_drop, List.length_drop, keepLast]
  congr 1
  rw [List.length_append, List.length_singleton]
  omega

end

section
variable {cs : List Completion} {c : Completion} {e : String}

theorem run_append (cs : List Completion) (c : Completion) :
    Metrics.run (cs ++ [c]) = (Metrics.run cs).record c := List.foldl_append ..

theorem ended_append (cs : List Completion) (c : Completion) (e : String) :
    ended (cs ++ [c]) e = ended cs e ++ if c.endpointKey = e then [c] else [] := by
  rw [ended, List.filter_append, List.filter_singleton]
  simp [ended]

/-- After any requests an endpoint has the latencies of its last ones, and the counts of all. -/
theorem run_eq (cs : List Completion) (e : String) :
    (Metrics.run cs).endpointLatencies e = window cs e ∧
      (Metrics.run cs).endpointRequests e = (ended cs e).length ∧
      (Metrics.run cs).endpointErrors e = (ended cs e).countP (·.isError) := by
  induction cs using List.reverseRecOn with
  | nil => simp [Metrics.run, Metrics.empty, window, ended, keepLast]
  | append_singleton cs c ih =>
    obtain ⟨hlatencies, hrequests, herrors⟩ := ih
    rw [run_append, window, ended_append]
    by_cases hc : c.endpointKey = e
    · subst hc
      rw [if_pos rfl]
      refine ⟨?_, ?_, ?_⟩
      · rw [List.map_append]
        simp only [Metrics.record, Function.update_self, hlatencies]
        exact keepLast_append ..
      · simp only [Metrics.record, Function.update_self, hrequests, List.length_append,
          List.length_singleton]
      · rw [List.countP_append]
        cases herror : c.isError <;> simp [Metrics.record, herror, herrors]
    · rw [if_neg hc, List.append_nil]
      refine ⟨?_, ?_, ?_⟩
      · exact (Function.update_of_ne (Ne.symm hc) ..).trans hlatencies
      · exact (Function.update_of_ne (Ne.symm hc) ..).trans hrequests
      · simp only [Metrics.record]
        split_ifs
        · exact (Function.update_of_ne (Ne.symm hc) ..).trans herrors
        · exact herrors

/-- The endpoints are those of the requests, each once. -/
theorem mem_keys (cs : List Completion) (e : String) :
    e ∈ (Metrics.run cs).keys ↔ ended cs e ≠ [] := by
  induction cs using List.reverseRecOn with
  | nil => simp [Metrics.run, Metrics.empty, ended]
  | append_singleton cs c ih =>
    rw [run_append, ended_append]
    by_cases hc : c.endpointKey = e
    · subst hc
      simp only [Metrics.record, if_true]
      split_ifs with hmem
      · simp [hmem]
      · simp
    · have hne : e ≠ c.endpointKey := Ne.symm hc
      simp only [Metrics.record, if_neg hc, List.append_nil]
      split_ifs
      · exact ih
      · rw [List.mem_append, ih]
        simp [hne]

end

/-! ## The figures of an endpoint -/

theorem roundHalfEven_mono : Monotone roundHalfEven := by
  intro x y hxy
  unfold roundHalfEven
  split_ifs with hx hy hy
  · exact mul_le_mul_of_nonneg_left (Int.floor_mono (by linarith)) (by decide)
  · refine le_trans ?_ (Int.floor_mono (add_le_add_left hxy (1 / 2)))
    rw [Int.le_floor]
    have hfloor := Int.floor_le ((x + 1 / 2) / 2)
    push_cast
    linarith
  · -- below a tie there is no number that rounds beyond it
    have hne : x ≠ y := by
      rintro rfl
      exact hx hy
    have hy' := Int.floor_add_fract y
    rw [hy] at hy'
    have hlt : x < y := lt_of_le_of_ne hxy hne
    have hbelow : ⌊x + 1 / 2⌋ < ⌊y⌋ + 1 := by
      rw [Int.floor_lt]
      push_cast
      linarith
    have hfloor := Int.lt_floor_add_one ((y + 1 / 2) / 2)
    have habove : ((⌊y⌋ : ℤ) : ℚ) < 2 * ⌊(y + 1 / 2) / 2⌋ + 1 := by linarith
    have hint : ⌊y⌋ < 2 * ⌊(y + 1 / 2) / 2⌋ + 1 := by exact_mod_cast habove
    omega
  · exact Int.floor_mono (add_le_add_left hxy (1 / 2))

theorem roundTo_mono (digits : ℕ) : Monotone (roundTo digits) := by
  intro x y hxy
  have hscaled : x * 10 ^ digits ≤ y * 10 ^ digits :=
    mul_le_mul_of_nonneg_right hxy (by positivity)
  have hround := roundHalfEven_mono hscaled
  exact div_le_div_of_nonneg_right (Int.cast_le.mpr hround) (by positivity)

section
variable {settings : Settings} {values : List ℚ} {p q : ℕ}

theorem percentileIndex_lt (hne : values ≠ []) (p : ℕ) :
    percentileIndex p values.length < values.length := by
  have hlength := List.length_pos_iff.mpr hne
  unfold percentileIndex
  omega

theorem percentileIndex_mono (hpq : p ≤ q) (n : ℕ) : percentileIndex p n ≤ percentileIndex q n :=
  min_le_min_right _ (Nat.div_le_div_right (Nat.mul_le_mul_left n hpq))

/-- The percentile of what is not empty is a value of its rank. -/
theorem ranked_getPercentile (hne : values ≠ []) (p : ℕ) :
    ranked values (percentileIndex p values.length) = some (getPercentile values p) := by
  obtain ⟨y, hy⟩ := exists_ranked (percentileIndex_lt hne p)
  rw [getPercentile, hy, Option.getD_some]

theorem getPercentile_mono (hne : values ≠ []) (hpq : p ≤ q) :
    getPercentile values p ≤ getPercentile values q :=
  ranked_le_ranked (ranked_getPercentile hne p) (ranked_getPercentile hne q)
    (percentileIndex_mono hpq values.length)

theorem min_le_of_mem {x : ℚ} (hx : x ∈ values) : values.min?.getD 0 ≤ x := by
  obtain ⟨m, hm⟩ := Option.isSome_iff_exists.mp (List.isSome_min?_of_mem hx)
  rw [hm]
  exact (List.min?_eq_some_iff.mp hm).2 x hx

theorem le_max_of_mem {x : ℚ} (hx : x ∈ values) : x ≤ values.max?.getD 0 := by
  obtain ⟨m, hm⟩ := Option.isSome_iff_exists.mp (List.isSome_max?_of_mem hx)
  rw [hm]
  exact (List.max?_eq_some_iff.mp hm).2 x hx

/-- The 95th percentile keeps the target exactly if fewer than one sample in twenty breaks it. -/
theorem getPercentile_le_iff (hne : values ≠ []) :
    getPercentile values 95 ≤ settings.latencySloMs ↔
      20 * violationCount settings values < values.length := by
  have hkeep : values.length =
      values.countP (· ≤ settings.latencySloMs) + violationCount settings values := by
    rw [violationCount, List.length_eq_countP_add_countP (· ≤ settings.latencySloMs)]
    simp only [not_le, decide_eq_true_eq]
  have hlength := List.length_pos_iff.mpr hne
  rw [ranked_le_iff (ranked_getPercentile hne 95), percentileIndex]
  omega

/-- The figures stand in their order. -/
structure Ordered (stats : LatencyStats) : Prop where
  min_le : stats.min ≤ stats.p50
  p50_le : stats.p50 ≤ stats.p95
  p95_le : stats.p95 ≤ stats.p99
  p99_le : stats.p99 ≤ stats.max

theorem ordered_latencyStats (values : List ℚ) : Ordered (latencyStats settings values) := by
  unfold latencyStats
  split_ifs with hempty
  · exact ⟨le_rfl, le_rfl, le_rfl, le_rfl⟩
  · have hmem : ∀ p, getPercentile values p ∈ values :=
      fun p => mem_of_ranked (ranked_getPercentile hempty p)
    refine ⟨roundTo_mono 2 (min_le_of_mem (hmem 50)), roundTo_mono 2 ?_, roundTo_mono 2 ?_,
      roundTo_mono 2 (le_max_of_mem (hmem 99))⟩
    · exact getPercentile_mono hempty (by decide)
    · exact getPercentile_mono hempty (by decide)

end

/-- After any requests the figures of an endpoint are in order and about its last ten thousand
requests, and its 95th percentile keeps the target exactly if fewer than one in twenty of these
break it. Nothing is lost of the counts. -/
theorem figures_of_run (settings : Settings) (cs : List Completion) (e : String)
    (h : ended cs e ≠ []) :
    (Metrics.run cs).samples (some e) = window cs e ∧
      (window cs e).length = min MAX_SAMPLES (ended cs e).length ∧
      Ordered (getLatencyStats settings (Metrics.run cs) (some e)) ∧
      (getPercentile (window cs e) 95 ≤ settings.latencySloMs ↔
        20 * violationCount settings (window cs e) < (window cs e).length) ∧
      (getAvailabilityStats settings (Metrics.run cs) (some e)).total = (ended cs e).length ∧
      (getAvailabilityStats settings (Metrics.run cs) (some e)).errors =
        (ended cs e).countP (·.isError) := by
  obtain ⟨hlatencies, hrequests, herrors⟩ := run_eq cs e
  have hwindow : window cs e ≠ [] := by
    rw [window, Ne, keepLast_eq_nil (by decide), List.map_eq_nil_iff]
    exact h
  refine ⟨hlatencies, ?_, ordered_latencyStats _, getPercentile_le_iff hwindow, ?_, ?_⟩
  · rw [window, keepLast, List.length_drop, List.length_map]
    omega
  · simp [getAvailabilityStats, availabilityStats, Metrics.total, hrequests, h]
  · simp [getAvailabilityStats, availabilityStats, Metrics.total, Metrics.errors, hrequests,
      herrors, h]

/-- Three requests of two endpoints, one of which failed. -/
def threeRequests : List Completion :=
  [⟨"GET:/jobs", 100, false⟩, ⟨"GET:/jobs", 900, true⟩, ⟨"POST:/jobs", 600, false⟩]

theorem figures_of_run_three :
    ended threeRequests "GET:/jobs" ≠ [] ∧
      Ordered (getLatencyStats ⟨500, 999 / 1000⟩ (Metrics.run threeRequests) (some "GET:/jobs")) := by
  have hended : ended threeRequests "GET:/jobs" ≠ [] := by decide
  obtain ⟨-, -, hordered, -⟩ := figures_of_run ⟨500, 999 / 1000⟩ threeRequests "GET:/jobs" hended
  exact ⟨hended, hordered⟩

/-! ## One endpoint and all of them -/

/-- The figure of all endpoints lies between those of two. -/
def Between (m : Metrics) (figure : Option String → ℚ) : Prop :=
  (∃ e ∈ m.keys, figure (some e) ≤ figure none) ∧ ∃ e ∈ m.keys, figure none ≤ figure (some e)

section
variable {settings : Settings} {m : Metrics} {p : ℕ}

theorem Between.mono {figure : Option String → ℚ} (h : Between m figure) {f : ℚ → ℚ}
    (hf : Monotone f) : Between m fun k => f (figure k) := by
  obtain ⟨⟨e, he, hle⟩, e', he', hle'⟩ := h
  exact ⟨⟨e, he, hf hle⟩, e', he', hf hle'⟩

theorem Between.congr {figure figure' : Option String → ℚ} (h : Between m figure)
    (hfigure : ∀ k, (∀ e, k = some e → e ∈ m.keys) → figure' k = figure k) :
    Between m figure' := by
  obtain ⟨⟨e, he, hle⟩, e', he', hle'⟩ := h
  have hwhole : figure' none = figure none := hfigure none (by simp)
  have hpart : ∀ e ∈ m.keys, figure' (some e) = figure (some e) :=
    fun e he => hfigure (some e) fun _ heq => Option.some.inj heq ▸ he
  refine ⟨⟨e, he, ?_⟩, e', he', ?_⟩
  · rwa [hpart e he, hwhole]
  · rwa [hpart e' he', hwhole]

theorem percentileIndex_eq (hp : p < 100) (n : ℕ) : percentileIndex p n = n * p / 100 := by
  have hle : n * p ≤ n * 99 := Nat.mul_le_mul_left n (Nat.le_of_lt_succ hp)
  unfold percentileIndex
  omega

/-- The rank of a percentile among all samples is about the sum of those among the parts. -/
theorem percentileIndex_add (hp : p < 100) (a b : ℕ) :
    percentileIndex p a + percentileIndex p b ≤ percentileIndex p (a + b) ∧
      percentileIndex p (a + b) ≤ percentileIndex p a + percentileIndex p b + 1 := by
  simp only [percentileIndex_eq hp, Nat.add_mul]
  omega

/-- Every endpoint that is listed has a sample. -/
def Metrics.Sampled (m : Metrics) : Prop :=
  m.keys ≠ [] ∧ ∀ e ∈ m.keys, m.endpointLatencies e ≠ [] ∧ 0 < m.endpointRequests e

theorem Metrics.Sampled.samples_ne_nil (h : m.Sampled) {k : Option String}
    (hk : ∀ e, k = some e → e ∈ m.keys) : m.samples k ≠ [] := by
  cases k with
  | some e => exact (h.2 e (hk e rfl)).1
  | none =>
    obtain ⟨e, he⟩ := List.exists_mem_of_ne_nil _ h.1
    rw [Metrics.samples, Ne, List.flatten_eq_nil_iff]
    exact fun hnil => (h.2 e he).1 (hnil _ (List.mem_map_of_mem he))

theorem between_getPercentile (h : m.Sampled) (hp : p < 100) :
    Between m fun k => getPercentile (m.samples k) p := by
  have hlt : ∀ l ∈ m.keys.map m.endpointLatencies, percentileIndex p l.length < l.length := by
    rintro _ hl
    obtain ⟨e, he, rfl⟩ := List.mem_map.mp hl
    exact percentileIndex_lt (h.2 e he).1 p
  have hwhole := ranked_getPercentile (h.samples_ne_nil (k := none) (by simp)) p
  have hpart : ∀ l ∈ m.keys.map m.endpointLatencies, ∀ z,
      ranked l (percentileIndex p l.length) = some z →
        ∃ e ∈ m.keys, getPercentile (m.samples (some e)) p = z := by
    intro l hl z hz
    obtain ⟨e, he, rfl⟩ := List.mem_map.mp hl
    exact ⟨e, he, Option.some.inj ((ranked_getPercentile (h.2 e he).1 p).symm.trans hz)⟩
  constructor
  · obtain ⟨l, hl, z, hz, hle⟩ := exists_ranked_le (fun a b => (percentileIndex_add hp a b).1)
      (percentileIndex_eq hp 0 |>.trans (by simp)) hlt hwhole
    obtain ⟨e, he, rfl⟩ := hpart l hl z hz
    exact ⟨e, he, hle⟩
  · obtain ⟨l, hl, z, hz, hle⟩ := exists_le_ranked (fun a b => (percentileIndex_add hp a b).2)
      hlt (by simpa using h.1) hwhole
    obtain ⟨e, he, rfl⟩ := hpart l hl z hz
    exact ⟨e, he, hle⟩

theorem between_latencyStats (h : m.Sampled) (p : ℕ) (hp : p < 100) {f : LatencyStats → ℚ}
    (hf : ∀ values, values ≠ [] →
      f (latencyStats settings values) = roundTo 2 (getPercentile values p)) :
    Between m fun k => f (getLatencyStats settings m k) := by
  have hfigure : ∀ k, (∀ e, k = some e → e ∈ m.keys) →
      f (getLatencyStats settings m k) = roundTo 2 (getPercentile (m.samples k) p) :=
    fun k hk => hf _ (h.samples_ne_nil hk)
  exact ((between_getPercentile h hp).mono (roundTo_mono 2)).congr hfigure

theorem Metrics.Sampled.total_ne_zero (h : m.Sampled) {k : Option String}
    (hk : ∀ e, k = some e → e ∈ m.keys) : m.total k ≠ 0 := by
  cases k with
  | some e => exact (h.2 e (hk e rfl)).2.ne'
  | none =>
    obtain ⟨e, he⟩ := List.exists_mem_of_ne_nil _ h.1
    refine ((h.2 e he).2.trans_le ?_).ne'
    exact List.single_le_sum (fun _ _ => Nat.zero_le _) _ (List.mem_map_of_mem he)

/-- The share of all requests that went well, and those of the endpoints. -/
theorem between_availability (h : m.Sampled) :
    Between m fun k => availability (m.total k) (m.errors k) := by
  have hparts : ∀ e ∈ m.keys, (0 : ℚ) < m.endpointRequests e :=
    fun e he => Nat.cast_pos.mpr (h.2 e he).2
  have hwhole : (0 : ℚ) < m.total none :=
    Nat.cast_pos.mpr (Nat.pos_of_ne_zero (h.total_ne_zero (by simp)))
  -- both sums are the requests that went well times all requests
  have hwell : (m.keys.map fun e =>
      ((m.endpointRequests e : ℚ) - m.endpointErrors e) * m.total none).sum =
        ((m.total none : ℚ) - m.errors none) * m.total none := by
    have hsub := Multiset.sum_map_sub (m := (m.keys : Multiset String))
      (f := fun e => (m.endpointRequests e : ℚ)) (g := fun e => (m.endpointErrors e : ℚ))
    simp only [Multiset.map_coe, Multiset.sum_coe] at hsub
    rw [List.sum_map_mul_right, hsub]
    simp only [Metrics.total, Metrics.errors, Nat.cast_list_sum, List.map_map, Function.comp_def]
  have hall : (m.keys.map fun e =>
      ((m.total none : ℚ) - m.errors none) * m.endpointRequests e).sum =
        ((m.total none : ℚ) - m.errors none) * m.total none := by
    rw [List.sum_map_mul_left]
    simp only [Metrics.total, Nat.cast_list_sum, List.map_map, Function.comp_def]
  constructor
  · obtain ⟨e, he, hle⟩ := List.exists_le_of_sum_le h.1 _ _ (hwell.trans hall.symm).le
    exact ⟨e, he, (div_le_div_iff₀ (hparts e he) hwhole).mpr hle⟩
  · obtain ⟨e, he, hle⟩ := List.exists_le_of_sum_le h.1 _ _ (hall.trans hwell.symm).le
    exact ⟨e, he, (div_le_div_iff₀ hwhole (hparts e he)).mpr hle⟩

theorem sampled_run {cs : List Completion} (hne : cs ≠ []) : (Metrics.run cs).Sampled := by
  constructor
  · obtain ⟨c, hc⟩ := List.exists_mem_of_ne_nil _ hne
    refine List.ne_nil_of_mem ((mem_keys cs c.endpointKey).mpr ?_)
    exact List.ne_nil_of_mem (List.mem_filter.mpr ⟨hc, decide_eq_true rfl⟩)
  · intro e he
    have hended := (mem_keys cs e).mp he
    obtain ⟨hlatencies, hrequests, -⟩ := run_eq cs e
    rw [hlatencies, hrequests, window, Ne, keepLast_eq_nil (by decide), List.map_eq_nil_iff]
    exact ⟨hended, List.length_pos_iff.mpr hended⟩

end

/-- After any requests each figure of the summary lies between those that two endpoints have by
themselves, and the summary meets its objective if every endpoint does. -/
theorem summary_between (settings : Settings) (cs : List Completion) (hne : cs ≠ []) :
    Between (Metrics.run cs) (fun k => (getLatencyStats settings (Metrics.run cs) k).p50) ∧
      Between (Metrics.run cs) (fun k => (getLatencyStats settings (Metrics.run cs) k).p95) ∧
      Between (Metrics.run cs) (fun k => (getLatencyStats settings (Metrics.run cs) k).p99) ∧
      Between (Metrics.run cs)
        (fun k => (getAvailabilityStats settings (Metrics.run cs) k).availability) ∧
      ((∀ e ∈ (Metrics.run cs).keys,
          (getAvailabilityStats settings (Metrics.run cs) (some e)).sloMet = true) →
        (getAvailabilityStats settings (Metrics.run cs) none).sloMet = true) := by
  have h := sampled_run hne
  have hstats : ∀ k, (∀ e, k = some e → e ∈ (Metrics.run cs).keys) →
      getAvailabilityStats settings (Metrics.run cs) k =
        ⟨(Metrics.run cs).total k, (Metrics.run cs).errors k,
          roundTo 6 (availability ((Metrics.run cs).total k) ((Metrics.run cs).errors k)),
          settings.availabilitySlo ≤
            availability ((Metrics.run cs).total k) ((Metrics.run cs).errors k)⟩ :=
    fun k hk => if_neg (h.total_ne_zero hk)
  refine ⟨between_latencyStats h 50 (by decide) fun _ hv => ?_,
    between_latencyStats h 95 (by decide) fun _ hv => ?_,
    between_latencyStats h 99 (by decide) fun _ hv => ?_, ?_, fun hall => ?_⟩
  · rw [latencyStats, if_neg hv]
  · rw [latencyStats, if_neg hv]
  · rw [latencyStats, if_neg hv]
  · refine ((between_availability h).mono (roundTo_mono 6)).congr fun k hk => ?_
    rw [hstats k hk]
  · obtain ⟨⟨e, he, hle⟩, -⟩ := between_availability h
    have hmet := hall e he
    rw [hstats (some e) fun _ heq => Option.some.inj heq ▸ he] at hmet
    rw [hstats none (by simp)]
    exact decide_eq_true ((of_decide_eq_true hmet).trans hle)

theorem summary_between_three :
    Between (Metrics.run threeRequests)
      fun k => (getLatencyStats ⟨500, 999 / 1000⟩ (Metrics.run threeRequests) k).p50 :=
  (summary_between ⟨500, 999 / 1000⟩ threeRequests (by decide)).1

end WorkTicket.Monitoring.Latency
