import WorkTicket.Foundation.Transition

/-! The database circuit breaker that all processes share: a hash in Redis that one script
opens, one checks and one deletes, each of them atomic. A process keeps for itself how often
it has opened the circuit and how many errors it has seen in a row. -/

namespace WorkTicket.Db.CircuitScripts

open WorkTicket.Transition

inductive Field
  | opened
  | level
  | cooldown
  | lastFailure
  | halfOpen
  | halfOpenProbed
  deriving DecidableEq, Repr

/-- The hash `db:circuit:breaker`, with the time its key expires. -/
structure Circuit where
  opened : Bool
  level : ℕ
  cooldown : ℚ
  lastFailure : ℕ
  halfOpen : Bool
  halfOpenProbed : Bool
  expiresAt : ℚ
  deriving DecidableEq, Repr

/-- `tonumber` of the value of a field. -/
def Circuit.number (c : Circuit) : Field → ℚ
  | .opened => if c.opened then 1 else 0
  | .level => c.level
  | .cooldown => c.cooldown
  | .lastFailure => c.lastFailure
  | .halfOpen => if c.halfOpen then 1 else 0
  | .halfOpenProbed => if c.halfOpenProbed then 1 else 0

def baseCooldown : ℚ := 30
def maxCooldown : ℚ := 300
def errorThreshold : ℕ := 3

/-! ## The scripts -/

def opening (now : ℕ) (cooldown : ℚ) (backoffLevel : ℕ) : Circuit where
  opened := true
  level := backoffLevel
  cooldown := cooldown
  lastFailure := now
  halfOpen := false
  halfOpenProbed := false
  expiresAt := now + ⌈maxCooldown * 2⌉

/-- `_CIRCUIT_LUA_OPEN`. It takes the second element of the reply for the level, which is the
value of whichever field comes first. The answer tells whether it has written. -/
def openScript (first : Field) (now : ℕ) (cooldown : ℚ) (backoffLevel : ℕ) :
    Option Circuit → Bool × Option Circuit
  | none => (true, some (opening now cooldown backoffLevel))
  | some c =>
    if (backoffLevel : ℚ) ≤ c.number first then (false, some c)
    else (true, some (opening now cooldown backoffLevel))

structure CheckResult where
  circuitOpen : Bool
  allowProbe : Bool
  cooldownRemaining : ℚ
  halfOpen : Bool
  deriving DecidableEq, Repr

def Circuit.elapsed (now : ℕ) (c : Circuit) : ℚ := now - c.lastFailure

/-- `_CIRCUIT_LUA_CHECK`. The way into the half-open state allows a probe without marking it. -/
def checkScript (now : ℕ) : Option Circuit → CheckResult × Option Circuit
  | none => (⟨false, false, 0, false⟩, none)
  | some c =>
    if !c.opened then (⟨false, false, 0, false⟩, some c)
    else if c.elapsed now ≤ c.cooldown then
      (⟨true, false, c.cooldown - c.elapsed now, c.halfOpen⟩, some c)
    else if !c.halfOpen then (⟨true, true, 0, true⟩, some { c with halfOpen := true })
    else if !c.halfOpenProbed then (⟨true, true, 0, true⟩, some { c with halfOpenProbed := true })
    else (⟨true, false, c.cooldown, true⟩, some { c with lastFailure := now })

/-! ## Processes -/

structure Process where
  backoffLevel : ℕ
  consecutiveErrors : ℕ
  deriving DecidableEq, Repr

def Process.fresh : Process := ⟨0, 0⟩

/-- `_POOL_CIRCUIT_CURRENT_COOLDOWN` at a level. -/
def cooldownAt (backoffLevel : ℕ) : ℚ := min (baseCooldown * 2 ^ (backoffLevel - 1)) maxCooldown

/-- `probes` counts the probes admitted since the circuit was opened, as long as nothing is
reported since; `early` tells whether a request was admitted during a cooldown. No step reads
these two. -/
structure World where
  now : ℕ
  circuit : Option Circuit
  processes : ℕ → Process
  probes : Option ℕ
  early : Bool

def start : World := ⟨0, none, fun _ => .fresh, none, false⟩

inductive Event
  | tick (seconds : ℕ)
  | check (poolFree : Bool)
  | success (process : ℕ)
  | exhaustion (process : ℕ)
  | dbError (process : ℕ)

/-- The hash that a script finds. -/
def World.live (s : World) : Option Circuit := s.circuit.filter fun c => s.now < c.expiresAt

/-- The circuit is open and its cooldown has not elapsed. -/
def World.cooling (s : World) : Bool :=
  s.live.any fun c => c.opened && c.elapsed s.now ≤ c.cooldown

/-- `_check_db_circuit`, with a connection pool that has a connection for the probe or not; every
way out but a return raises. -/
def World.check (s : World) (poolFree : Bool) : World :=
  let (result, circuit) := checkScript s.now s.live
  let probe := result.circuitOpen && result.allowProbe && poolFree
  { s with
    circuit := circuit
    probes := if probe then s.probes.map (· + 1) else s.probes
    early := s.early || (s.cooling && (!result.circuitOpen || probe)) }

/-- `_reset_circuit_breaker`. -/
def World.resetCircuitBreaker (s : World) (p : ℕ) : World :=
  { s with
    circuit := none
    processes := Function.update s.processes p .fresh
    probes := none }

/-- `_record_pool_exhaustion`. -/
def World.recordPoolExhaustion (first : Field) (s : World) (p : ℕ) : World :=
  let backoffLevel := (s.processes p).backoffLevel + 1
  let (opened, circuit) :=
    openScript first s.now (cooldownAt backoffLevel) backoffLevel s.live
  { s with
    circuit := circuit
    processes := Function.update s.processes p { s.processes p with backoffLevel := backoffLevel }
    probes := if opened then some 0 else none }

/-- `_record_db_error`. -/
def World.recordDbError (first : Field) (s : World) (p : ℕ) : World :=
  let errors := (s.processes p).consecutiveErrors + 1
  let s := { s with
    processes := Function.update s.processes p { s.processes p with consecutiveErrors := errors } }
  if errorThreshold ≤ errors then s.recordPoolExhaustion first p else s

def World.after (s : World) (seconds : ℕ) : World := { s with now := s.now + seconds }

def step (first : Field) (s : World) : Event → Option World
  | .tick seconds => some (s.after seconds)
  | .check poolFree => some (s.check poolFree)
  | .success p => some (s.resetCircuitBreaker p)
  | .exhaustion p => some (s.recordPoolExhaustion first p)
  | .dbError p => some (s.recordDbError first p)

/-! ## One probe -/

/-- Since an opening at most one probe is admitted until the next report, and none during the
cooldown. -/
def SingleProbe (s : World) : Prop := s.early = false ∧ ∀ n ∈ s.probes, n ≤ 1

/-- The next check would be a second probe's: the cooldown has elapsed, the circuit is half-open
and not marked as probed. -/
def World.unmarked (s : World) : Bool :=
  s.live.any fun c => c.opened && c.cooldown < c.elapsed s.now && c.halfOpen && !c.halfOpenProbed

/-- No check comes to an unmarked circuit while an admitted probe has not reported. -/
def ChecksOnce (s : World) : Event → Prop
  | .check poolFree => poolFree = true → s.unmarked = true → s.probes ≠ some 1
  | _ => True

/-- What the fields of the hash tell of the admitted probes. -/
structure Inv (s : World) : Prop where
  early : s.early = false
  once : ∀ n ∈ s.probes, n ≤ 1
  unprobed : ∀ c ∈ s.circuit, c.halfOpen = false → ∀ n ∈ s.probes, n = 0
  marked : ∀ c ∈ s.circuit, c.halfOpenProbed = true → c.halfOpen = true

section
variable {s : World} {first : Field}

theorem inv_start : Inv start where
  early := rfl
  once := fun _ hn => nomatch hn
  unprobed := fun _ hc => nomatch hc
  marked := fun _ hc => nomatch hc

theorem mem_of_live {c : Circuit} (h : s.live = some c) : c ∈ s.circuit :=
  (Option.filter_eq_some_iff.mp h).1

theorem Inv.keep (h : Inv s) {c c' : Circuit} (hc : c ∈ s.circuit)
    (hhalf : c'.halfOpen = c.halfOpen) (hprobed : c'.halfOpenProbed = c.halfOpenProbed) :
    Inv { s with circuit := some c' } where
  early := h.early
  once := h.once
  unprobed := by
    rintro _ ⟨⟩ hclosed
    exact h.unprobed c hc (hhalf ▸ hclosed)
  marked := by
    rintro _ ⟨⟩ hmarked
    exact hhalf ▸ h.marked c hc (hprobed ▸ hmarked)

/-- The next probe is the first one, or the ones before it were refused for want of a
connection. -/
theorem Inv.probe (h : Inv s) {c : Circuit} {poolFree : Bool} (hhalf : c.halfOpen = true)
    (hfirst : poolFree = true → s.probes ≠ some 1) :
    Inv { s with
      circuit := some c
      probes := if poolFree then s.probes.map (· + 1) else s.probes } where
  early := h.early
  once := by
    intro n hn
    cases hpool : poolFree with
    | false => exact h.once n (by simpa [hpool] using hn)
    | true =>
      obtain ⟨m, hm, rfl⟩ : ∃ m, s.probes = some m ∧ m + 1 = n := by simpa [hpool] using hn
      have hone := h.once m hm
      have hne : m ≠ 1 := fun hm' => hfirst hpool (hm' ▸ hm)
      omega
  unprobed := by
    rintro _ ⟨⟩ hclosed
    rw [hhalf] at hclosed
    cases hclosed
  marked := by
    rintro _ ⟨⟩ -
    exact hhalf

/-- A check admits nothing during a cooldown; after it, the check that enters the half-open state
finds no probe admitted, and the one that marks it is the one the condition speaks of. -/
theorem Inv.check (h : Inv s) {poolFree : Bool} (hok : ChecksOnce s (.check poolFree)) :
    Inv (s.check poolFree) := by
  cases hlive : s.live with
  | none =>
    have hcheck : s.check poolFree = { s with circuit := none } := by
      simp [World.check, hlive, checkScript, World.cooling]
    rw [hcheck]
    exact ⟨h.early, h.once, fun _ hc => (nomatch hc), fun _ hc => (nomatch hc)⟩
  | some c =>
    have hc := mem_of_live hlive
    by_cases hopened : c.opened = true
    · by_cases hcool : c.elapsed s.now ≤ c.cooldown
      · have hcheck : s.check poolFree = { s with circuit := some c } := by
          simp [World.check, hlive, checkScript, World.cooling, hopened, hcool]
        rw [hcheck]
        exact h.keep hc rfl rfl
      · cases hhalf : c.halfOpen with
        | false =>
          have hcheck : s.check poolFree = { s with
              circuit := some { c with halfOpen := true }
              probes := if poolFree then s.probes.map (· + 1) else s.probes } := by
            simp [World.check, hlive, checkScript, World.cooling, hopened, hcool, hhalf]
          rw [hcheck]
          refine h.probe rfl fun _ hone => ?_
          exact absurd (h.unprobed c hc hhalf 1 hone) one_ne_zero
        | true =>
          cases hprobed : c.halfOpenProbed with
          | false =>
            have hcheck : s.check poolFree = { s with
                circuit := some { c with halfOpenProbed := true }
                probes := if poolFree then s.probes.map (· + 1) else s.probes } := by
              simp [World.check, hlive, checkScript, World.cooling, hopened, hcool, hhalf, hprobed]
            have hunmarked : s.unmarked = true := by
              simp [World.unmarked, hlive, hopened, not_le.mp hcool, hhalf, hprobed]
            rw [hcheck]
            exact h.probe hhalf fun hpool => hok hpool hunmarked
          | true =>
            have hcheck : s.check poolFree = { s with
                circuit := some { c with lastFailure := s.now } } := by
              simp [World.check, hlive, checkScript, World.cooling, hopened, hcool, hhalf, hprobed]
            rw [hcheck]
            exact h.keep hc rfl rfl
    · have hcheck : s.check poolFree = { s with circuit := some c } := by
        simp [World.check, hlive, checkScript, World.cooling, hopened]
      rw [hcheck]
      exact h.keep hc rfl rfl

theorem Inv.recordPoolExhaustion (h : Inv s) (p : ℕ) : Inv (s.recordPoolExhaustion first p) := by
  have hopens : ∀ (circuit : Circuit) processes, circuit.halfOpenProbed = false →
      Inv { s with circuit := some circuit, processes := processes, probes := some 0 } := by
    intro circuit processes hprobed
    refine ⟨h.early, ?_, ?_, ?_⟩
    · rintro _ ⟨⟩
      exact zero_le_one
    · rintro _ - - _ ⟨⟩
      rfl
    · rintro _ ⟨⟩ hmarked
      rw [hprobed] at hmarked
      cases hmarked
  unfold World.recordPoolExhaustion
  cases hlive : s.live with
  | none => exact hopens _ _ rfl
  | some c =>
    simp only [openScript]
    split
    · refine ⟨h.early, fun _ hn => (nomatch hn), fun _ _ _ _ hn => (nomatch hn), ?_⟩
      rintro _ ⟨⟩
      exact h.marked c (mem_of_live hlive)
    · exact hopens _ _ rfl

theorem inv_step {e : Event} {s' : World} (h : Inv s) (hok : ChecksOnce s e)
    (hs : step first s e = some s') : Inv s' := by
  cases e with
  | tick seconds =>
    cases hs
    exact ⟨h.early, h.once, h.unprobed, h.marked⟩
  | check poolFree =>
    cases hs
    exact h.check hok
  | success p =>
    cases hs
    exact ⟨h.early, fun _ hn => (nomatch hn), fun _ hc => (nomatch hc), fun _ hc => (nomatch hc)⟩
  | exhaustion p =>
    cases hs
    exact h.recordPoolExhaustion p
  | dbError p =>
    cases hs
    have hcounted : ∀ processes, Inv { s with processes := processes } :=
      fun _ => ⟨h.early, h.once, h.unprobed, h.marked⟩
    by_cases herrors : errorThreshold ≤ (s.processes p).consecutiveErrors + 1
    · simp only [World.recordDbError, herrors, if_true]
      exact (hcounted _).recordPoolExhaustion p
    · simp only [World.recordDbError, herrors, if_false]
      exact hcounted _

/-- A check that comes to an unmarked circuit while a probe is out is a second probe. -/
theorem checksOnce_of_singleProbe {e : Event} {s' : World} (hs : step first s e = some s')
    (hsingle : SingleProbe s') : ChecksOnce s e := by
  cases e with
  | check poolFree =>
    cases hs
    intro hpool hunmarked hone
    rcases hlive : s.live with _ | c
    · simp [World.unmarked, hlive] at hunmarked
    · have hdue : c.opened = true ∧ c.cooldown < c.elapsed s.now ∧ c.halfOpen = true ∧
          c.halfOpenProbed = false := by
        simpa [World.unmarked, hlive, and_assoc] using hunmarked
      obtain ⟨hopened, hcool, hhalf, hprobed⟩ := hdue
      have htwo : (s.check poolFree).probes = some 2 := by
        simp [World.check, hlive, checkScript, hopened, not_le.mpr hcool, hhalf, hprobed, hpool,
          hone]
      have hle := hsingle.2 2 htwo
      omega
  | _ => trivial

/-- For every run, whichever field Redis lists first: probes are admitted one at a time exactly if
no check comes to an unmarked circuit while an admitted probe has not reported. -/
theorem singleProbe_iff (first : Field) (es : List Event) :
    Along (step first) SingleProbe start es ↔ EachStep (step first) ChecksOnce start es :=
  along_iff_eachStep (fun _ h => ⟨h.early, h.once⟩) (fun _ _ _ h hok hs => inv_step h hok hs)
    (fun _ _ _ _ hs hsingle => checksOnce_of_singleProbe hs hsingle) inv_start es

/-- Two checks in a row after the cooldown are both admitted. -/
theorem two_probes : ¬∀ first es, Along (step first) SingleProbe start es := by
  intro h
  have hrun := h .opened [.exhaustion 0, .tick 31, .check true, .check true]
  have hlast := (((hrun.2 _ rfl).2 _ rfl).2 _ rfl).2 _ rfl
  have htwo : ((((start.recordPoolExhaustion .opened 0).after 31).check true).check true).probes =
      some 2 := by decide +kernel
  exact absurd (hlast.2 2 htwo) (by decide)

end

end WorkTicket.Db.CircuitScripts
