import WorkTicket.Billing.AiSwitch
import WorkTicket.Foundation.RecentEntries

/-! The abuse detector of one process while it has no Redis: the requests it has seen, the spikes
that it finds in them, and the risk scores that follow from these. -/

namespace WorkTicket.Billing.Abuse

open WorkTicket.Transition WorkTicket.Billing.AiSwitch RecentEntries

/-! ## Spikes -/

def windowSeconds : ℚ := 60

def spikeThreshold : ℤ := 10

structure AbuseDetector where
  localSpikeCounts : Kept CompanyId ℚ
  localSpikeCleanup : ℚ

section
variable (detector : AbuseDetector) (now : ℚ) (companyId : CompanyId)

/-- Every company's old times are dropped once a minute, by whatever call comes first. -/
def AbuseDetector.cleaned : AbuseDetector :=
  if 60 < now - detector.localSpikeCleanup then
    ⟨detector.localSpikeCounts.dropOld (now - windowSeconds), now⟩
  else detector

/-- `record_request`. -/
def AbuseDetector.recordRequest : AbuseDetector :=
  let detector := detector.cleaned now
  { detector with localSpikeCounts := detector.localSpikeCounts.add companyId now }

/-- The threshold of one of the processes that the requests are spread over. -/
def effectiveThreshold (estimatedWorkers : ℤ) : ℤ :=
  max 2 (spikeThreshold / max 1 estimatedWorkers)

/-- `_check_usage_spike`. -/
def AbuseDetector.checkUsageSpike (estimatedWorkers : ℤ) : Bool × AbuseDetector :=
  let detector := detector.cleaned now
  match detector.localSpikeCounts companyId with
  | none => (false, detector)
  | some _ =>
    let counts := detector.localSpikeCounts.dropOldOf companyId (now - windowSeconds)
    (effectiveThreshold estimatedWorkers < (counts.times companyId).length,
      { detector with localSpikeCounts := counts })

end

/-! ## The accounts -/

/-- The detector and the rows of the accounts, beside the time of the last call and all requests
recorded. -/
structure World where
  detector : AbuseDetector
  clock : ℚ
  log : List (ℚ × CompanyId)
  rows : CompanyId → Option Switch

def fresh (start : ℚ) (rows : CompanyId → Option Switch) : World :=
  ⟨⟨fun _ => none, start⟩, start, [], rows⟩

/-- A check is followed by the rest of the route, after which it is committed or not. Any other
writer of an account leaves the score as it is. -/
inductive Event
  | recorded (now : ℚ) (companyId : CompanyId)
  | checked (now : ℚ) (companyId : CompanyId) (recentFailures : ℕ) (routeOk : Bool)
  | decayed
  | disabled (companyId : CompanyId)
  | enabled (companyId : CompanyId)
  | written (companyId : CompanyId) (account : BillingAccount)

def onRow (rows : CompanyId → Option Switch) (companyId : CompanyId) (write : Switch → Switch) :
    CompanyId → Option Switch :=
  Function.update rows companyId ((rows companyId).map write)

/-- A new account has no risk. -/
def rowWritten (account : BillingAccount) : Option Switch → Switch
  | none => ⟨account, some 0, 1⟩
  | some s => { s with account := account }

/-- `check_and_update_risk` inside the route. Without an account nothing is looked at. -/
def check (estimatedWorkers : ℤ) (now : ℚ) (companyId : CompanyId) (recentFailures : ℕ)
    (routeOk : Bool) (w : World) : World :=
  match w.rows companyId with
  | none => { w with clock := now }
  | some _ =>
    let (spike, detector) := w.detector.checkUsageSpike now companyId estimatedWorkers
    { w with
      detector := detector, clock := now
      rows := onRow w.rows companyId (processJobRisk spike recentFailures routeOk) }

def step (estimatedWorkers : ℤ) (w : World) : Event → Option World
  | .recorded now companyId =>
    if now < w.clock then none
    else some ⟨w.detector.recordRequest now companyId, now, w.log ++ [(now, companyId)], w.rows⟩
  | .checked now companyId recentFailures routeOk =>
    if now < w.clock then none
    else some (check estimatedWorkers now companyId recentFailures routeOk w)
  | .decayed => some { w with rows := fun companyId => (w.rows companyId).map decayRiskScores }
  | .disabled companyId => some { w with rows := onRow w.rows companyId disableCompany }
  | .enabled companyId => some { w with rows := onRow w.rows companyId enableCompany }
  | .written companyId account =>
    some { w with
      rows := Function.update w.rows companyId (some (rowWritten account (w.rows companyId))) }

/-! ## What the detector remembers -/

/-- The requests of a company in the minute before. -/
def lastMinute (log : List (ℚ × CompanyId)) (now : ℚ) (companyId : CompanyId) : List ℚ :=
  recent (now - windowSeconds) log companyId

/-- The requests of the last minute are all there. -/
def Remembers (w : World) : Prop :=
  Keeps (w.clock - windowSeconds) w.detector.localSpikeCounts w.log

section
variable {detector : AbuseDetector} {now clock : ℚ} {companyId : CompanyId}
  {log : List (ℚ × CompanyId)} {estimatedWorkers : ℤ} {w w' w₀ : World} {e : Event}

theorem keeps_cleaned (h : Keeps (now - windowSeconds) detector.localSpikeCounts log) :
    Keeps (now - windowSeconds) (detector.cleaned now).localSpikeCounts log := by
  unfold AbuseDetector.cleaned
  split_ifs
  · exact h.dropOld
  · exact h

theorem keeps_checkUsageSpike (h : Keeps (now - windowSeconds) detector.localSpikeCounts log) :
    Keeps (now - windowSeconds)
      (detector.checkUsageSpike now companyId estimatedWorkers).2.localSpikeCounts log := by
  have hcleaned := keeps_cleaned h
  unfold AbuseDetector.checkUsageSpike
  dsimp only
  split
  · exact hcleaned
  · exact hcleaned.dropOldOf companyId

/-- A company of which nothing is kept has made no request in the last minute. -/
theorem checkUsageSpike_fst (h : Keeps (now - windowSeconds) detector.localSpikeCounts log) :
    (detector.checkUsageSpike now companyId estimatedWorkers).1 =
      decide (effectiveThreshold estimatedWorkers < (lastMinute log now companyId).length) := by
  have hcleaned := keeps_cleaned h
  unfold AbuseDetector.checkUsageSpike
  dsimp only
  split
  · rename_i hnone
    have hempty : lastMinute log now companyId = [] := by
      rw [lastMinute, ← hcleaned companyId, Kept.times, hnone]
      rfl
    have hthreshold : 2 ≤ effectiveThreshold estimatedWorkers := le_max_left _ _
    rw [hempty, List.length_nil]
    exact (decide_eq_false (by omega)).symm
  · rw [Kept.times_dropOldOf_self, hcleaned companyId, lastMinute]

theorem remembers_step (h : Remembers w) (hs : step estimatedWorkers w e = some w') :
    Remembers w' := by
  have hlater : ∀ {now : ℚ}, ¬now < w.clock →
      Keeps (now - windowSeconds) w.detector.localSpikeCounts w.log := fun hnow =>
    h.later (sub_le_sub_right (not_lt.mp hnow) _)
  cases e with
  | recorded now companyId =>
    obtain ⟨hnow, rfl⟩ : ¬now < w.clock ∧ _ := by simpa [step] using hs
    exact (keeps_cleaned (hlater hnow)).add companyId now
  | checked now companyId recentFailures routeOk =>
    obtain ⟨hnow, rfl⟩ : ¬now < w.clock ∧ _ := by simpa [step] using hs
    unfold check
    split
    · exact hlater hnow
    · exact keeps_checkUsageSpike (hlater hnow)
  | decayed | disabled | enabled | written =>
    obtain rfl := Option.some.inj hs
    exact h

theorem remembers_of_reached {start : ℚ} {rows : CompanyId → Option Switch}
    (h : Reached (step estimatedWorkers) (fresh start rows) w) : Remembers w :=
  h.invariant keeps_nil fun _ _ _ hw _ hs => remembers_step hw hs

/-- A check finds a spike exactly if more requests than the threshold were made in the last minute,
whatever other companies did. -/
theorem spike_exact {start : ℚ} {rows : CompanyId → Option Switch}
    (h : Reached (step estimatedWorkers) (fresh start rows) w) (hnow : w.clock ≤ now) :
    (w.detector.checkUsageSpike now companyId estimatedWorkers).1 =
      decide (effectiveThreshold estimatedWorkers < (lastMinute w.log now companyId).length) :=
  checkUsageSpike_fst ((remembers_of_reached h).later (sub_le_sub_right hnow _))

end

/-! ## What becomes of the scores -/

def risk (s : Switch) : ℤ := s.riskScore.getD 0

/-- The quota is halved while the score is above 50, and no score above 70 stays. -/
structure Tame (s : Switch) : Prop where
  low : -4 ≤ risk s
  high : risk s ≤ 70
  multiplier : s.tempQuotaMultiplier = 1 ∨ s.tempQuotaMultiplier = 1 / 2
  halved : 50 < risk s → s.tempQuotaMultiplier = 1 / 2

/-- What an event does to the account beside its score. -/
def accountsAfter (accounts : CompanyId → Option BillingAccount) :
    Event → CompanyId → Option BillingAccount
  | .recorded _ _ | .checked _ _ _ _ | .decayed => accounts
  | .disabled companyId => Function.update accounts companyId
      ((accounts companyId).map fun a => { a with aiDisabled := true })
  | .enabled companyId => Function.update accounts companyId
      ((accounts companyId).map fun a => { a with aiDisabled := false })
  | .written companyId account => Function.update accounts companyId (some account)

def World.accounts (w : World) : CompanyId → Option BillingAccount :=
  fun companyId => (w.rows companyId).map Switch.account

section
variable {s : Switch} {spike routeOk : Bool} {recentFailures : ℕ} {companyId : CompanyId}
  {rows : CompanyId → Option Switch} {write : Switch → Switch} {estimatedWorkers : ℤ}
  {w w' : World} {e : Event} {es : List Event}

theorem tame_processJobRisk (h : Tame s) : Tame (processJobRisk spike recentFailures routeOk s) := by
  have hgrows : risk s ≤ riskAfter spike recentFailures s := by
    unfold riskAfter risk
    split_ifs <;> omega
  have hlow := h.low
  unfold processJobRisk
  split
  · exact h
  · rename_i hkept
    have hhigh : riskAfter spike recentFailures s ≤ 70 := by
      by_contra hlarge
      exact hkept (by simp [not_le.mp hlarge])
    unfold checkAndUpdateRisk
    dsimp only
    split_ifs with h70 h50 h20
    · omega
    · exact ⟨by simp [risk]; omega, by simp [risk]; omega, .inr rfl, fun _ => rfl⟩
    · exact ⟨by simp [risk]; omega, by simp [risk]; omega, .inl rfl, by simp [risk]; omega⟩
    · exact ⟨by simp [risk]; omega, by simp [risk]; omega, h.multiplier, by simp [risk]; omega⟩

theorem tame_decay (h : Tame s) : Tame (decayRiskScores s) := by
  unfold decayRiskScores
  split
  · rename_i hpos
    obtain ⟨r, hr, hpos⟩ := (Option.any_eq_true _ _).mp hpos
    have hrisk : risk s = r := by rw [risk, hr, Option.getD_some]
    have hafter : risk { s with riskScore := s.riskScore.map (· - 5) } = r - 5 := by
      rw [risk, hr, Option.map_some, Option.getD_some]
    have hr0 : 0 < r := of_decide_eq_true hpos
    have hhigh := h.high
    refine ⟨?_, ?_, h.multiplier, fun h50 => h.halved ?_⟩ <;> omega
  · exact h

theorem tame_of_no_risk (hrisk : risk s = 0)
    (hmultiplier : s.tempQuotaMultiplier = 1 ∨ s.tempQuotaMultiplier = 1 / 2) : Tame s :=
  ⟨by omega, by omega, hmultiplier, fun h50 => by omega⟩

/-- Disabling and other writers leave the score and the multiplier. -/
theorem Tame.withAccount (h : Tame s) (account : BillingAccount) :
    Tame { s with account := account } :=
  ⟨h.low, h.high, h.multiplier, h.halved⟩

theorem tame_enableCompany (h : Tame s) : Tame (enableCompany s) :=
  tame_of_no_risk rfl h.multiplier

def AllTame (rows : CompanyId → Option Switch) : Prop := ∀ c s, rows c = some s → Tame s

section
variable {P : Switch → Prop} {c : CompanyId}

theorem update_forall {row : Option Switch} (h : ∀ s, rows c = some s → P s)
    (hrow : c = companyId → ∀ s, row = some s → P s) :
    ∀ s, Function.update rows companyId row c = some s → P s := by
  intro s hs
  by_cases hc : c = companyId
  · rw [hc, Function.update_self] at hs
    exact hrow hc s hs
  · rw [Function.update_of_ne hc] at hs
    exact h s hs

theorem onRow_forall (h : ∀ s, rows c = some s → P s)
    (hwrite : c = companyId → ∀ s, P s → P (write s)) :
    ∀ s, onRow rows companyId write c = some s → P s := by
  refine update_forall h fun hc s hs => ?_
  obtain ⟨s', hs', rfl⟩ := Option.map_eq_some_iff.mp hs
  exact hwrite hc s' (h s' (hc ▸ hs'))

theorem written_forall {account : BillingAccount} (h : ∀ s, rows c = some s → P s)
    (hnew : P ⟨account, some 0, 1⟩) (hold : ∀ s, P s → P { s with account := account }) :
    ∀ s, Function.update rows companyId (some (rowWritten account (rows companyId))) c = some s →
      P s := by
  refine update_forall h fun hc s hs => ?_
  obtain rfl := Option.some.inj hs
  cases hrow : rows companyId with
  | none => exact hnew
  | some s => exact hold s (h s (hc ▸ hrow))

end

theorem allTame_step (h : AllTame w.rows) (hs : step estimatedWorkers w e = some w') :
    AllTame w'.rows := by
  cases e with
  | recorded now companyId =>
    obtain ⟨-, rfl⟩ : ¬now < w.clock ∧ _ := by simpa [step] using hs
    exact h
  | checked now companyId recentFailures routeOk =>
    obtain ⟨-, rfl⟩ : ¬now < w.clock ∧ _ := by simpa [step] using hs
    unfold check
    split
    · exact h
    · exact fun c => onRow_forall (h c) fun _ s hs => tame_processJobRisk hs
  | decayed =>
    obtain rfl := Option.some.inj hs
    intro c s hs
    obtain ⟨s', hs', rfl⟩ := Option.map_eq_some_iff.mp hs
    exact tame_decay (h c s' hs')
  | disabled companyId =>
    obtain rfl := Option.some.inj hs
    exact fun c => onRow_forall (h c) fun _ s hs => hs.withAccount _
  | enabled companyId =>
    obtain rfl := Option.some.inj hs
    exact fun c => onRow_forall (h c) fun _ s hs => tame_enableCompany hs
  | written companyId account =>
    obtain rfl := Option.some.inj hs
    exact fun c => written_forall (h c) (tame_of_no_risk rfl (.inl rfl)) fun s hs =>
      hs.withAccount account

/-- A check that disables AI is rolled back, and any other leaves the account as it was. -/
theorem processJobRisk_account (spike : Bool) (recentFailures : ℕ) (routeOk : Bool) (s : Switch) :
    (processJobRisk spike recentFailures routeOk s).account = s.account := by
  unfold processJobRisk
  split
  · rfl
  · rename_i hkept
    unfold checkAndUpdateRisk
    dsimp only
    split_ifs with h70
    · exact absurd (by simp [h70]) hkept
    · rfl
    · rfl
    · rfl

theorem accounts_onRow {f : BillingAccount → BillingAccount}
    (h : ∀ s, (write s).account = f s.account) (c : CompanyId) :
    (onRow rows companyId write c).map Switch.account =
      Function.update (fun c => (rows c).map Switch.account) companyId
        (((rows companyId).map Switch.account).map f) c := by
  by_cases hc : c = companyId
  · subst hc
    rw [onRow, Function.update_self, Function.update_self, Option.map_map, Option.map_map]
    exact congrArg (Option.map · (rows c)) (funext h)
  · rw [onRow, Function.update_of_ne hc, Function.update_of_ne hc]

theorem accounts_step (hs : step estimatedWorkers w e = some w') :
    w'.accounts = accountsAfter w.accounts e := by
  funext c
  cases e with
  | recorded now companyId =>
    obtain ⟨-, rfl⟩ : ¬now < w.clock ∧ _ := by simpa [step] using hs
    rfl
  | checked now companyId recentFailures routeOk =>
    obtain ⟨-, rfl⟩ : ¬now < w.clock ∧ _ := by simpa [step] using hs
    unfold check
    split
    · rfl
    · refine (accounts_onRow (f := id) (fun s => processJobRisk_account _ _ _ s) c).trans ?_
      rw [Option.map_id, id, Function.update_eq_self]
      rfl
  | decayed =>
    obtain rfl := Option.some.inj hs
    simp only [World.accounts, Option.map_map, accountsAfter]
    exact congrArg (Option.map · (w.rows c)) (funext decayRiskScores_account)
  | disabled companyId =>
    obtain rfl := Option.some.inj hs
    exact accounts_onRow (fun _ => rfl) c
  | enabled companyId =>
    obtain rfl := Option.some.inj hs
    exact accounts_onRow (fun _ => rfl) c
  | written companyId account =>
    obtain rfl := Option.some.inj hs
    by_cases hc : c = companyId
    · subst hc
      simp only [World.accounts, accountsAfter, Function.update_self, Option.map_some]
      cases w.rows c <;> rfl
    · simp only [World.accounts, accountsAfter, Function.update_of_ne hc]

/-- After any requests, decays and writes the scores are between -4 and 70, the quota is halved
above 50, and AI is disabled only where an administrator or another writer did it: a check that
disables it is rolled back by the answer it leads to. -/
theorem scores_tame (h : AllTame w.rows) (hrun : run (step estimatedWorkers) w es = some w') :
    AllTame w'.rows ∧ w'.accounts = es.foldl accountsAfter w.accounts := by
  induction es generalizing w with
  | nil =>
    obtain rfl := Option.some.inj hrun
    exact ⟨h, rfl⟩
  | cons e es ih =>
    obtain ⟨t, ht, hrest⟩ := Option.bind_eq_some_iff.mp hrun
    obtain ⟨htame, haccounts⟩ := ih (allTame_step h ht) hrest
    exact ⟨htame, by rw [haccounts, accounts_step ht, List.foldl_cons]⟩

end

/-! ## A company that keeps below the threshold -/

structure Unpenalised (s : Switch) : Prop where
  score : risk s ≤ 0
  multiplier : s.tempQuotaMultiplier = 1

/-- The checks of the company come after few requests and few failures. -/
def Quiet (estimatedWorkers : ℤ) (companyId : CompanyId) (w : World) : Event → Bool
  | .checked now c recentFailures _ => c ≠ companyId ||
      ((lastMinute w.log now c).length ≤ effectiveThreshold estimatedWorkers && recentFailures ≤ 5)
  | _ => true

section
variable {s : Switch} {routeOk : Bool} {recentFailures : ℕ} {now start : ℚ}
  {companyId : CompanyId} {rows : CompanyId → Option Switch} {estimatedWorkers : ℤ}
  {w w' : World} {e : Event}

theorem Unpenalised.processJobRisk (h : Unpenalised s) (hfailures : recentFailures ≤ 5) :
    Unpenalised (processJobRisk false recentFailures routeOk s) := by
  have hrisk : riskAfter false recentFailures s = risk s := by
    simp [riskAfter, risk, not_lt.mpr hfailures]
  have hscore := h.score
  unfold AiSwitch.processJobRisk
  split
  · exact h
  · unfold checkAndUpdateRisk
    dsimp only
    rw [hrisk, if_neg (by omega), if_neg (by omega), if_neg (by simp [h.multiplier])]
    exact ⟨hscore, h.multiplier⟩

theorem Unpenalised.decay (h : Unpenalised s) : Unpenalised (decayRiskScores s) := by
  unfold decayRiskScores
  split
  · rename_i hpos
    obtain ⟨r, hr, hpos⟩ := (Option.any_eq_true _ _).mp hpos
    have hscore := h.score
    rw [risk, hr, Option.getD_some] at hscore
    exact absurd (of_decide_eq_true hpos) (not_lt.mpr hscore)
  · exact h

theorem unpenalised_step (hw : Remembers w)
    (h : ∀ s, w.rows companyId = some s → Unpenalised s)
    (hquiet : Quiet estimatedWorkers companyId w e = true)
    (hs : step estimatedWorkers w e = some w') :
    ∀ s, w'.rows companyId = some s → Unpenalised s := by
  cases e with
  | recorded now c =>
    obtain ⟨-, rfl⟩ : ¬now < w.clock ∧ _ := by simpa [step] using hs
    exact h
  | checked now c recentFailures routeOk =>
    obtain ⟨hnow, rfl⟩ : ¬now < w.clock ∧ _ := by simpa [step] using hs
    have hkept := hw.later (sub_le_sub_right (not_lt.mp hnow) windowSeconds)
    unfold check
    split
    · exact h
    · refine onRow_forall h fun hc s hrow => ?_
      subst hc
      obtain ⟨hfew, hfailures⟩ : (lastMinute w.log now companyId).length ≤
          effectiveThreshold estimatedWorkers ∧ recentFailures ≤ 5 := by simpa [Quiet] using hquiet
      rw [checkUsageSpike_fst hkept, decide_eq_false (not_lt.mpr hfew)]
      exact hrow.processJobRisk hfailures
  | decayed =>
    obtain rfl := Option.some.inj hs
    intro s hs
    obtain ⟨s', hs', rfl⟩ := Option.map_eq_some_iff.mp hs
    exact (h s' hs').decay
  | disabled c =>
    obtain rfl := Option.some.inj hs
    exact onRow_forall h fun _ s hs => ⟨hs.score, hs.multiplier⟩
  | enabled c =>
    obtain rfl := Option.some.inj hs
    exact onRow_forall h fun _ s hs => ⟨le_rfl, hs.multiplier⟩
  | written c account =>
    obtain rfl := Option.some.inj hs
    exact written_forall h ⟨le_rfl, rfl⟩ fun s hs => ⟨hs.score, hs.multiplier⟩

/-- A company that never makes more requests in a minute than the threshold, and has few failures,
is not penalised, whatever the other companies do. -/
theorem quiet_unpenalised (hrows : ∀ s, rows companyId = some s → Unpenalised s)
    (h : ReachedBy (step estimatedWorkers) (fun w e => Quiet estimatedWorkers companyId w e)
      (fresh start rows) w) : ∀ s, w.rows companyId = some s → Unpenalised s := by
  have hboth := ReachedBy.invariant
    (I := fun w => Remembers w ∧ ∀ s, w.rows companyId = some s → Unpenalised s) h
    ⟨keeps_nil, hrows⟩ fun _ _ _ hw hquiet hs =>
      ⟨remembers_step hw.1 hs, unpenalised_step hw.1 hw.2 hquiet hs⟩
  exact hboth.2

end

/-! ## Three requests on one of four processes -/

def busyMinute : List Event :=
  [.written 7 (newAccount 0 7 "pro"), .recorded 1 7, .checked 1 7 0 true, .recorded 2 7,
    .checked 2 7 0 true, .recorded 3 7, .checked 3 7 0 true, .decayed]

def afterBusyMinute : World :=
  (run (step 4) (fresh 0 fun _ => none) busyMinute).get (by decide)

theorem spike_exact_third : (afterBusyMinute.detector.checkUsageSpike 3 7 4).1 =
    decide (effectiveThreshold 4 < (lastMinute afterBusyMinute.log 3 7).length) :=
  spike_exact (Reached.of_run (Option.some_get _).symm) (by decide)

theorem scores_tame_busy : AllTame afterBusyMinute.rows ∧
    afterBusyMinute.accounts = busyMinute.foldl accountsAfter fun _ => none := by
  have hnone : AllTame (fresh 0 fun _ => none).rows := by
    intro c s hs
    cases hs
  exact scores_tame hnone (Option.some_get _).symm

/-- Another company makes the third request. -/
def quietMinute : List Event :=
  [.written 7 (newAccount 0 7 "pro"), .recorded 1 7, .checked 1 7 0 true, .recorded 2 7,
    .recorded 3 8, .checked 3 7 5 true]

def afterQuietMinute : World :=
  (runWhile (step 4) (fun w e => Quiet 4 7 w e) (fresh 0 fun _ => none) quietMinute).get
    (by decide +kernel)

theorem quiet_unpenalised_two :
    Unpenalised ((afterQuietMinute.rows 7).get (by decide +kernel)) := by
  have hnone : ∀ s, (fun _ => none : CompanyId → Option Switch) 7 = some s → Unpenalised s := by
    intro s hs
    cases hs
  have hreached : ReachedBy (step 4) (fun w e => Quiet 4 7 w e) (fresh 0 fun _ => none)
      afterQuietMinute := ReachedBy.of_runWhile (Option.some_get _).symm
  exact quiet_unpenalised hnone hreached _ (Option.some_get _).symm

end WorkTicket.Billing.Abuse
