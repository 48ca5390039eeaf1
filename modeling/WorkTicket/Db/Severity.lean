import WorkTicket.Db.LocalBreaker

/-! The level and the cooldown that the hash of the database circuit breaker records, against the
levels that were reported since the circuit was opened. The open script compares a report with the
second element of the reply of HGETALL, which is the value of the first field. -/

namespace WorkTicket.Db.Severity

open WorkTicket.Transition
open WorkTicket.Db.CircuitScripts (Circuit Field Process cooldownAt errorThreshold openScript opening)
open WorkTicket.Db.LocalBreaker (Report)

/-! ## Reports -/

/-- What a report does to the counters of its process. -/
def counted (q : Process) : Report → Process
  | .reset => .fresh
  | .poolExhaustion => { q with backoffLevel := q.backoffLevel + 1 }
  | .dbError =>
    let q := { q with consecutiveErrors := q.consecutiveErrors + 1 }
    if errorThreshold ≤ q.consecutiveErrors then { q with backoffLevel := q.backoffLevel + 1 }
    else q

/-- `reported` has the levels that were reported since the circuit was opened, the last one first.
No step reads it. -/
structure World where
  breaker : CircuitScripts.World
  reported : List ℕ

def start : World := ⟨CircuitScripts.start, []⟩

/-- A step of the breaker, or a report of a process that does not reach Redis. -/
inductive Event
  | shared (e : CircuitScripts.Event)
  | alone (process : ℕ) (r : Report)

/-- The level that a step reports to the open script. -/
def reportedLevel (s : CircuitScripts.World) : CircuitScripts.Event → Option ℕ
  | .exhaustion p => some ((s.processes p).backoffLevel + 1)
  | .dbError p =>
    if errorThreshold ≤ (s.processes p).consecutiveErrors + 1 then
      some ((s.processes p).backoffLevel + 1)
    else none
  | _ => none

def World.log (s : World) : Option ℕ → List ℕ
  | some l => if s.breaker.live = none then [l] else l :: s.reported
  | none => s.reported

def step (first : Field) (s : World) : Event → Option World
  | .shared e => (CircuitScripts.step first s.breaker e).map fun breaker =>
      ⟨breaker, s.log (reportedLevel s.breaker e)⟩
  | .alone p r => some { s with breaker := { s.breaker with
      processes := Function.update s.breaker.processes p (counted (s.breaker.processes p) r) } }

/-! ## No de-escalation -/

/-- An open circuit has the highest level that was reported, and the cooldown of that level. -/
def Severe (s : World) : Prop :=
  ∀ c ∈ s.breaker.live, s.reported.max? = some c.level ∧ c.cooldown = cooldownAt c.level

/-- A report that the script lets pass is no lower than what is recorded, and one that it refuses
is no higher. -/
def Comparable (first : Field) (s : World) : Event → Prop
  | .shared e => ∀ l ∈ reportedLevel s.breaker e, ∀ c ∈ s.breaker.live,
      if (l : ℚ) ≤ c.number first then l ≤ c.level else c.level ≤ l
  | .alone _ _ => True

section
variable {first : Field} {s s' : CircuitScripts.World} {e : CircuitScripts.Event} {l : ℕ}
  {c : Circuit}

theorem circuit_of_report (hl : reportedLevel s e = some l)
    (hs : CircuitScripts.step first s e = some s') :
    s'.now = s.now ∧ s'.circuit = (openScript first s.now (cooldownAt l) l s.live).2 := by
  cases e with
  | exhaustion p =>
    cases hl
    cases hs
    exact ⟨rfl, rfl⟩
  | dbError p =>
    simp only [reportedLevel, Option.ite_none_right_eq_some] at hl
    obtain ⟨herrors, hl⟩ := hl
    cases hl
    cases hs
    simp only [CircuitScripts.World.recordDbError, if_pos herrors,
      CircuitScripts.World.recordPoolExhaustion, Function.update_self, true_and]
    rfl
  | _ => cases hl

theorem checkScript_same {now : ℕ} {found : Option Circuit}
    (h : (CircuitScripts.checkScript now found).2 = some c) :
    ∃ c₀, found = some c₀ ∧ c.level = c₀.level ∧ c.cooldown = c₀.cooldown := by
  cases found with
  | none => cases h
  | some c₀ =>
    refine ⟨c₀, rfl, ?_⟩
    simp only [CircuitScripts.checkScript] at h
    split_ifs at h <;> cases h <;> exact ⟨rfl, rfl⟩

/-- Without a report an open circuit was open before, with the same level and cooldown. -/
theorem live_of_silent (hl : reportedLevel s e = none)
    (hs : CircuitScripts.step first s e = some s') (hc : c ∈ s'.live) :
    ∃ c₀ ∈ s.live, c.level = c₀.level ∧ c.cooldown = c₀.cooldown := by
  obtain ⟨hcircuit, hexpires⟩ := Option.filter_eq_some_iff.mp hc
  cases e with
  | tick seconds =>
    cases hs
    refine ⟨c, ?_, rfl, rfl⟩
    rw [decide_eq_true_eq, CircuitScripts.World.after, Nat.cast_add] at hexpires
    have hseconds : (0 : ℚ) ≤ seconds := Nat.cast_nonneg seconds
    have hbefore : (s.now : ℚ) < c.expiresAt := by linarith
    exact Option.filter_eq_some_iff.mpr ⟨hcircuit, decide_eq_true hbefore⟩
  | check poolFree =>
    cases hs
    exact checkScript_same hcircuit
  | success p =>
    cases hs
    cases hcircuit
  | exhaustion p => cases hl
  | dbError p =>
    have herrors : ¬errorThreshold ≤ (s.processes p).consecutiveErrors + 1 := by
      intro herrors
      simp [reportedLevel, herrors] at hl
    cases hs
    simp only [CircuitScripts.World.recordDbError, if_neg herrors] at hcircuit hexpires
    exact ⟨c, Option.filter_eq_some_iff.mpr ⟨hcircuit, hexpires⟩, rfl, rfl⟩

theorem live_opening (hnow : s'.now = s.now)
    (hcircuit : s'.circuit = some (opening s.now (cooldownAt l) l)) :
    s'.live = some (opening s.now (cooldownAt l) l) := by
  have hpositive : (0 : ℚ) < (⌈CircuitScripts.maxCooldown * 2⌉ : ℤ) := by
    rw [Int.cast_pos, Int.ceil_pos]
    norm_num [CircuitScripts.maxCooldown]
  have hexpires : (s.now : ℚ) < (opening s.now (cooldownAt l) l).expiresAt := by
    simp only [opening]
    linarith
  rw [CircuitScripts.World.live, hcircuit, Option.filter_some_eq_some, hnow]
  exact decide_eq_true hexpires

/-- What a report finds open and what it leaves. -/
theorem live_of_report (hl : reportedLevel s e = some l)
    (hs : CircuitScripts.step first s e = some s') :
    s.live = none ∧ s'.live = some (opening s.now (cooldownAt l) l) ∨
      ∃ c ∈ s.live, if (l : ℚ) ≤ c.number first then s'.live = some c
        else s'.live = some (opening s.now (cooldownAt l) l) := by
  obtain ⟨hnow, hcircuit⟩ := circuit_of_report hl hs
  cases hlive : s.live with
  | none =>
    rw [hlive] at hcircuit
    exact .inl ⟨rfl, live_opening hnow hcircuit⟩
  | some c =>
    rw [hlive] at hcircuit
    refine .inr ⟨c, rfl, ?_⟩
    by_cases hkept : (l : ℚ) ≤ c.number first
    · rw [if_pos hkept]
      simp only [openScript, if_pos hkept] at hcircuit
      rw [CircuitScripts.World.live, hcircuit, hnow, Option.filter_some_eq_some]
      exact (Option.filter_eq_some_iff.mp hlive).2
    · rw [if_neg hkept]
      simp only [openScript, if_neg hkept] at hcircuit
      exact live_opening hnow hcircuit

end

section
variable {first : Field} {s s' : World} {e : Event} {l : ℕ} {c : Circuit}

theorem max_cons_of_le {levels : List ℕ} {m : ℕ} (h : levels.max? = some m) (l : ℕ) :
    (l :: levels).max? = some (max l m) := by
  rw [List.max?_cons, h]
  rfl

theorem severe_step (h : Severe s) (hok : Comparable first s e) (hs : step first s e = some s') :
    Severe s' := by
  cases e with
  | alone p r =>
    cases hs
    exact h
  | shared e =>
    obtain ⟨breaker, hstep, rfl⟩ := Option.map_eq_some_iff.mp hs
    cases hl : reportedLevel s.breaker e with
    | none =>
      intro c hc
      obtain ⟨c₀, hc₀, hlevel, hcooldown⟩ := live_of_silent hl hstep hc
      rw [hlevel, hcooldown]
      exact h c₀ hc₀
    | some l =>
      rcases live_of_report hl hstep with ⟨hnone, hlive⟩ | ⟨c, hc, hlive⟩
      · intro c' hc'
        obtain rfl := Option.some.inj (hlive.symm.trans hc')
        simp [World.log, hnone, opening]
      · obtain ⟨hmax, hcooldown⟩ := h c hc
        have hlog : s.log (some l) = l :: s.reported := by
          rw [World.log, if_neg (by simp [Option.mem_def.mp hc])]
        have hcompare := hok l hl c hc
        intro c' hc'
        rw [hlog, max_cons_of_le hmax]
        by_cases hkept : (l : ℚ) ≤ c.number first
        · rw [if_pos hkept] at hlive hcompare
          obtain rfl := Option.some.inj (hlive.symm.trans hc')
          exact ⟨by rw [max_eq_right hcompare], hcooldown⟩
        · rw [if_neg hkept] at hlive hcompare
          obtain rfl := Option.some.inj (hlive.symm.trans hc')
          exact ⟨by rw [max_eq_left hcompare]; rfl, rfl⟩

theorem comparable_of_severe (h : Severe s) (hs : step first s e = some s') (h' : Severe s') :
    Comparable first s e := by
  cases e with
  | alone p r => trivial
  | shared e =>
    obtain ⟨breaker, hstep, rfl⟩ := Option.map_eq_some_iff.mp hs
    intro l hl c hc
    rcases live_of_report hl hstep with ⟨hnone, -⟩ | ⟨c', hc', hlive⟩
    · rw [Option.mem_def, hnone] at hc
      cases hc
    · obtain rfl := Option.some.inj (hc'.symm.trans hc)
      have hlog : s.log (reportedLevel s.breaker e) = l :: s.reported := by
        rw [Option.mem_def.mp hl, World.log, if_neg (by simp [Option.mem_def.mp hc])]
      have hmax := max_cons_of_le (h c' hc).1 l
      by_cases hkept : (l : ℚ) ≤ c'.number first
      · rw [if_pos hkept] at hlive ⊢
        have hafter := (h' c' hlive).1
        rw [hlog, hmax] at hafter
        exact max_eq_right_iff.mp (Option.some.inj hafter)
      · rw [if_neg hkept] at hlive ⊢
        have hafter := (h' _ hlive).1
        rw [hlog, hmax] at hafter
        exact max_eq_left_iff.mp (Option.some.inj hafter)

/-- For every run, whichever field Redis lists first: the recorded level and cooldown are those of
the highest report exactly if the script compares each report as it would with the level. -/
theorem severe_along_iff (first : Field) (es : List Event) :
    Along (step first) Severe start es ↔ EachStep (step first) (Comparable first) start es :=
  along_iff_eachStep (fun _ h => h) (fun _ _ _ h hok hs => severe_step h hok hs)
    (fun _ _ _ h hs h' => comparable_of_severe h hs h') (fun _ hc => absurd hc (Option.not_mem_none _)) es

/-- One process has come to the third level, and another one reports its second. -/
theorem de_escalates : ¬∀ es, Along (step .opened) Severe start es := by
  intro h
  have hrun := h [.shared (.exhaustion 0), .shared (.exhaustion 0), .shared (.exhaustion 0),
    .shared (.exhaustion 1), .shared (.exhaustion 1)]
  have hlast := ((((hrun.2 _ rfl).2 _ rfl).2 _ rfl).2 _ rfl).2 _ rfl
  have hsevere := hlast (opening 0 (cooldownAt 2) 2) (by decide +kernel)
  exact absurd hsevere.1 (by decide +kernel)

end

end WorkTicket.Db.Severity
