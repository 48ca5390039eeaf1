import WorkTicket.Foundation.Fallible
import WorkTicket.Foundation.Json

/-! The cache of the networks Stripe calls from: two lists are downloaded and replace it as one. -/

namespace WorkTicket.Billing.StripeIps

/-! ## The code -/

/-- What is used of `ipaddress`: `ip_network` of an element of a list, `ip_address`, and
`ip in net`. -/
structure Ipaddress (Address Network : Type) where
  network : Json → Option Network
  address : String → Option Address
  contains : Network → Address → Bool

def defaultStripeIps : List String :=
  ["13.248.128.0/24", "13.248.129.0/24", "13.248.130.0/24", "13.248.131.0/24", "13.248.132.0/24",
    "13.248.133.0/24", "13.248.134.0/24", "13.248.135.0/24", "18.155.128.0/24", "18.155.129.0/24",
    "18.155.130.0/24", "18.155.131.0/24", "18.155.132.0/24", "18.155.133.0/24", "18.155.134.0/24",
    "18.155.135.0/24", "54.187.174.0/24", "54.187.175.0/24", "54.187.176.0/24", "54.187.177.0/24",
    "54.187.178.0/24", "54.187.179.0/24"]

def cacheTtl : ℚ := 3600

structure State (Network : Type) where
  cachedNetworks : List Network
  lastFetch : ℚ
  prevIpCount : ℕ

variable {Address Network : Type} (ip : Ipaddress Address Network)

/-- `_ensure_defaults_loaded`, which raises if a default is no network. -/
def ensureDefaultsLoaded (now : ℚ) : Option (State Network) :=
  (defaultStripeIps.mapM fun cidr => ip.network (.str cidr)).map fun networks => ⟨networks, now, 0⟩

/-- What one URL adds to the list: its answer is missing if the request or its decoding raises, and
no elements are those of an answer of another form. -/
def entries (answer : Option Json) : Option (List Json) := do
  let data ← answer
  let networks ← data.get "networks" (.arr [])
  let ips ← data.get "ips" networks
  ips.elements

def fetchStripeIps (v4 v6 : Option Json) : List Json :=
  let cidrs := (entries v4).getD [] ++ (entries v6).getD []
  if cidrs = [] then defaultStripeIps.map .str else cidrs

/-- A call of `refresh_stripe_ips`, with the time it began and what the two URLs would answer. -/
structure Refresh where
  force : Bool
  now : ℚ
  v4 : Option Json
  v6 : Option Json

/-- The cache is returned as it is. -/
def State.IsFresh (s : State Network) (call : Refresh) : Prop :=
  call.force = false ∧ s.cachedNetworks ≠ [] ∧ call.now - s.lastFetch < cacheTtl

instance (s : State Network) (call : Refresh) : Decidable (s.IsFresh call) :=
  inferInstanceAs (Decidable (call.force = false ∧ ¬s.cachedNetworks = [] ∧ _))

/-- The networks that replace the cache; entries that are none are dropped. -/
def offered (v4 v6 : Option Json) : List Network := (fetchStripeIps v4 v6).filterMap ip.network

def refreshStripeIps (s : State Network) (call : Refresh) : State Network :=
  if s.IsFresh call then s
  else
    let networks := offered ip call.v4 call.v6
    if networks = [] then { s with prevIpCount := networks.length }
    else ⟨networks, call.now, networks.length⟩

/-- A call of `validate_stripe_ip`. `checkDisabled` is the variable of the environment; the rest is
for the refresh. -/
structure Request where
  clientIp : String
  checkDisabled : Bool
  debug : Bool
  now : ℚ
  v4 : Option Json
  v6 : Option Json

def Request.refresh (req : Request) : Refresh := ⟨false, req.now, req.v4, req.v6⟩

def validateStripeIp (s : State Network) (req : Request) : Bool × State Network :=
  if req.checkDisabled ∧ req.debug then (true, s)
  else
    match ip.address req.clientIp with
    | none => (false, s)
    | some address =>
      let s := refreshStripeIps ip s req.refresh
      if s.cachedNetworks ≠ [] ∧ s.cachedNetworks.any (ip.contains · address) then (true, s)
      else if s.cachedNetworks ≠ [] then (false, s)
      else (true, s)

inductive Event
  | refresh (call : Refresh)
  | validate (req : Request)

def stepState (s : State Network) : Event → State Network
  | .refresh call => refreshStripeIps ip s call
  | .validate req => (validateStripeIp ip s req).2

/-- The refresh of a step, if it gets to one. -/
def refreshOf (s : State Network) : Event → Option Refresh
  | .refresh call => if s.IsFresh call then none else some call
  | .validate req =>
    if (req.checkDisabled ∧ req.debug) ∨ ip.address req.clientIp = none ∨ s.IsFresh req.refresh then
      none
    else some req.refresh

def networksOf (answer : Option Json) : Option (List Network) :=
  (entries answer).map (List.filterMap ip.network)

/-- The address a client is at lies in the network. -/
def Within (clientIp : String) (n : Network) : Prop :=
  ∃ address, ip.address clientIp = some address ∧ ip.contains n address = true

def Covered (n : Network) (networks : List Network) : Prop :=
  ∀ clientIp, Within ip clientIp n → ∃ m ∈ networks, Within ip clientIp m

/-! ## One call -/

section
variable {ip} {s : State Network} {call : Refresh} {req : Request} {e : Event} {n : Network}
  {v4 v6 : Option Json}

theorem validateStripeIp_eq {address : Address} (hcheck : ¬(req.checkDisabled ∧ req.debug))
    (ha : ip.address req.clientIp = some address) (s : State Network) :
    validateStripeIp ip s req =
      (decide ((refreshStripeIps ip s req.refresh).cachedNetworks = [] ∨
        (refreshStripeIps ip s req.refresh).cachedNetworks.any (ip.contains · address)),
        refreshStripeIps ip s req.refresh) := by
  simp only [validateStripeIp, if_neg hcheck, ha]
  by_cases hnil : (refreshStripeIps ip s req.refresh).cachedNetworks = []
  · simp [hnil]
  · by_cases hany : (refreshStripeIps ip s req.refresh).cachedNetworks.any (ip.contains · address)
    · simp [hnil, hany]
    · simp [hnil, hany]

theorem stepState_eq (s : State Network) (e : Event) :
    stepState ip s e =
      match refreshOf ip s e with
      | none => s
      | some call => refreshStripeIps ip s call := by
  cases e with
  | refresh call =>
    by_cases hfresh : s.IsFresh call
    · simp only [stepState, refreshStripeIps, refreshOf, if_pos hfresh]
    · simp only [stepState, refreshOf, if_neg hfresh]
  | validate req =>
    by_cases hcheck : req.checkDisabled ∧ req.debug
    · simp only [stepState, validateStripeIp, refreshOf, if_pos hcheck, if_pos (Or.inl hcheck)]
    · cases ha : ip.address req.clientIp with
      | none => simp [stepState, validateStripeIp, refreshOf, hcheck, ha]
      | some address =>
        rw [stepState, validateStripeIp_eq hcheck ha]
        by_cases hfresh : s.IsFresh req.refresh
        · simp [refreshOf, refreshStripeIps, hfresh]
        · simp [refreshOf, hcheck, ha, hfresh]

theorem not_isFresh_of_refreshOf (h : refreshOf ip s e = some call) : ¬s.IsFresh call := by
  cases e with
  | refresh call' =>
    simp only [refreshOf] at h
    split_ifs at h with hfresh
    exact Option.some.inj h ▸ hfresh
  | validate req =>
    simp only [refreshOf] at h
    split_ifs at h with hfresh
    rw [not_or, not_or] at hfresh
    exact Option.some.inj h ▸ hfresh.2.2

/-- A call accepts an address by the variable, or by the cache it leaves. -/
theorem accepts_iff (hne : (validateStripeIp ip s req).2.cachedNetworks ≠ []) :
    (validateStripeIp ip s req).1 = true ↔ (req.checkDisabled ∧ req.debug) ∨
      ∃ n ∈ (validateStripeIp ip s req).2.cachedNetworks, Within ip req.clientIp n := by
  by_cases hcheck : req.checkDisabled ∧ req.debug
  · rw [validateStripeIp, if_pos hcheck]
    exact iff_of_true rfl (.inl hcheck)
  · cases ha : ip.address req.clientIp with
    | none => simp [validateStripeIp, hcheck, ha, Within]
    | some address =>
      rw [validateStripeIp_eq hcheck ha] at hne ⊢
      simp only [decide_eq_true_iff, or_iff_right hne, or_iff_right hcheck, List.any_eq_true]
      refine exists_congr fun n => and_congr_right fun _ => ?_
      constructor
      · exact fun hn => ⟨address, ha, hn⟩
      · rintro ⟨address', ha', hn⟩
        rw [ha] at ha'
        exact Option.some.inj ha' ▸ hn

theorem validateStripeIp_fresh (hfresh : s.IsFresh req.refresh) :
    (validateStripeIp ip s req).2 = s := by
  have hnone : refreshOf ip s (.validate req) = none := by
    rw [refreshOf, if_pos (.inr (.inr hfresh))]
  have hstate : stepState ip s (.validate req) = _ := stepState_eq s (.validate req)
  rwa [hnone] at hstate

/-- A request in production at a time when the cache is as new as it gets. -/
def probe (s : State Network) (clientIp : String) : Request :=
  ⟨clientIp, false, false, s.lastFetch, none, none⟩

theorem probe_isFresh (hne : s.cachedNetworks ≠ []) (clientIp : String) :
    s.IsFresh (probe s clientIp).refresh := by
  refine ⟨rfl, hne, ?_⟩
  simp only [probe, Request.refresh, sub_self]
  decide

/-- A refresh that downloads puts what is offered in place of the cache, if that is not nothing. -/
theorem refreshStripeIps_cached (h : ¬s.IsFresh call) :
    (refreshStripeIps ip s call).cachedNetworks =
      if offered ip call.v4 call.v6 = [] then s.cachedNetworks
      else offered ip call.v4 call.v6 := by
  rw [refreshStripeIps, if_neg h]
  by_cases hnil : offered ip call.v4 call.v6 = []
  · simp only [if_pos hnil]
  · simp only [if_neg hnil]

theorem offered_eq (v4 v6 : Option Json) :
    offered ip v4 v6 =
      if (entries v4).getD [] ++ (entries v6).getD [] = [] then
        (defaultStripeIps.map Json.str).filterMap ip.network
      else (networksOf ip v4).getD [] ++ (networksOf ip v6).getD [] := by
  have hgetD : ∀ v, (networksOf ip v).getD [] = ((entries v).getD []).filterMap ip.network := by
    intro v
    cases h : entries v <;> simp [networksOf, h]
  rw [offered, fetchStripeIps, hgetD, hgetD, ← List.filterMap_append]
  split_ifs <;> rfl

theorem mem_offered (hn : n ∈ (networksOf ip v4).getD [] ++ (networksOf ip v6).getD []) :
    n ∈ offered ip v4 v6 := by
  rw [offered_eq]
  split_ifs with hnil
  · rw [List.append_eq_nil_iff] at hnil
    have hgetD : ∀ v, (entries v).getD [] = [] → (networksOf ip v).getD [] = [] := by
      intro v hv
      cases h : entries v with
      | none => simp [networksOf, h]
      | some items =>
        rw [h, Option.getD_some] at hv
        simp [networksOf, h, hv]
    rw [hgetD v4 hnil.1, hgetD v6 hnil.2] at hn
    exact absurd hn List.not_mem_nil
  · exact hn

/-- The default networks are those of the import. -/
theorem filterMap_of_ensureDefaultsLoaded {now : ℚ} (h : ensureDefaultsLoaded ip now = some s) :
    (defaultStripeIps.map Json.str).filterMap ip.network = s.cachedNetworks := by
  obtain ⟨networks, hnetworks, rfl⟩ := Option.map_eq_some_iff.mp h
  rw [List.filterMap_map]
  exact Fallible.filterMap_of_mapM hnetworks

theorem cachedNetworks_ne_nil {now : ℚ} (h : ensureDefaultsLoaded ip now = some s) :
    s.cachedNetworks ≠ [] := by
  obtain ⟨networks, hnetworks, rfl⟩ := Option.map_eq_some_iff.mp h
  have hlength : networks.length = 22 := Fallible.length_of_mapM hnetworks
  exact List.ne_nil_of_length_eq_add_one hlength

end

/-! ## What is owed -/

/-- The networks of the last complete refresh that no later download of their own list has left out,
and all networks that were ever downloaded or are default ones. -/
structure Owed (Network : Type) where
  v4 : List Network
  v6 : List Network
  known : List Network

variable [DecidableEq Network]

def Owed.after (owed : Owed Network) : Option (List Network) → Option (List Network) → Owed Network
  | some v4, some v6 => ⟨v4, v6, owed.known ++ (v4 ++ v6)⟩
  | some v4, none => ⟨owed.v4.filter (· ∈ v4), owed.v6, owed.known ++ v4⟩
  | none, some v6 => ⟨owed.v4, owed.v6.filter (· ∈ v6), owed.known ++ v6⟩
  | none, none => owed

structure Config (Network : Type) where
  state : State Network
  owed : Owed Network

def step (c : Config Network) (e : Event) : Config Network where
  state := stepState ip c.state e
  owed :=
    match refreshOf ip c.state e with
    | none => c.owed
    | some call => c.owed.after (networksOf ip call.v4) (networksOf ip call.v6)

/-- The module after its import. -/
def begin (s : State Network) : Config Network := ⟨s, [], [], s.cachedNetworks⟩

def run (s : State Network) (events : List Event) : Config Network :=
  events.foldl (step ip) (begin s)

/-- What holds of a run: an address in an owed network is accepted, while the cache is fresh and by
each call of the run, and in production no address outside the known networks is. -/
structure FailsSafe (s : State Network) (events : List Event) : Prop where
  fresh : ∀ before, before <+: events → ∀ n ∈ (run ip s before).owed.v4 ++ (run ip s before).owed.v6,
    ∀ req : Request, Within ip req.clientIp n → (run ip s before).state.IsFresh req.refresh →
      (validateStripeIp ip (run ip s before).state req).1 = true
  answers : ∀ before req, before ++ [.validate req] <+: events →
    ∀ n ∈ (run ip s (before ++ [.validate req])).owed.v4 ++
      (run ip s (before ++ [.validate req])).owed.v6,
    Within ip req.clientIp n → (validateStripeIp ip (run ip s before).state req).1 = true
  known : ∀ before req, before ++ [.validate req] <+: events → req.debug = false →
    (validateStripeIp ip (run ip s before).state req).1 = true →
      ∃ n ∈ (run ip s (before ++ [.validate req])).owed.known, Within ip req.clientIp n

/-- A refresh has nothing to offer, or its networks cover what is owed of each list that failed. -/
def Spares (c : Config Network) (call : Refresh) : Prop :=
  offered ip call.v4 call.v6 = [] ∨
    (networksOf ip call.v4 = none → ∀ n ∈ c.owed.v4, Covered ip n (offered ip call.v4 call.v6)) ∧
    (networksOf ip call.v6 = none → ∀ n ∈ c.owed.v6, Covered ip n (offered ip call.v4 call.v6))

variable {ip} {s : State Network} {c : Config Network} {call : Refresh} {req : Request}
  {events before : List Event} {e : Event} {n : Network} {owed : Owed Network}
  {l4 l6 : Option (List Network)}

/-! ## One step -/

theorem Owed.known_after : n ∈ (owed.after l4 l6).known ↔
    n ∈ owed.known ∨ n ∈ l4.getD [] ++ l6.getD [] := by
  cases l4 <;> cases l6 <;> simp [Owed.after]

/-- What is owed after two downloads is in a list that was downloaded, or was owed of one that was
not. -/
theorem Owed.mem_after (h : n ∈ (owed.after l4 l6).v4 ++ (owed.after l4 l6).v6) :
    n ∈ l4.getD [] ++ l6.getD [] ∨ (l4 = none ∧ n ∈ owed.v4) ∨ (l6 = none ∧ n ∈ owed.v6) := by
  cases l4 <;> cases l6 <;> simp [Owed.after] at h ⊢ <;> tauto

theorem Owed.v4_after : (owed.after none l6).v4 = owed.v4 := by
  cases l6 <;> rfl

theorem Owed.v6_after : (owed.after l4 none).v6 = owed.v6 := by
  cases l4 <;> rfl

/-- The cache is not empty, and holds known networks; the default ones are known. -/
structure Consistent (ip : Ipaddress Address Network) (c : Config Network) : Prop where
  ne_nil : c.state.cachedNetworks ≠ []
  known : ∀ m ∈ c.state.cachedNetworks, m ∈ c.owed.known
  defaults : ∀ m ∈ (defaultStripeIps.map Json.str).filterMap ip.network, m ∈ c.owed.known

/-- Each owed network is covered by the cache. -/
def Covers (ip : Ipaddress Address Network) (c : Config Network) : Prop :=
  ∀ n ∈ c.owed.v4 ++ c.owed.v6, Covered ip n c.state.cachedNetworks

theorem step_of_none (h : refreshOf ip c.state e = none) : step ip c e = c := by
  have hstate : stepState ip c.state e = c.state := by rw [stepState_eq, h]
  simp only [step, hstate, h]

theorem step_of_some (h : refreshOf ip c.state e = some call) :
    (step ip c e).state.cachedNetworks =
        (if offered ip call.v4 call.v6 = [] then c.state.cachedNetworks
        else offered ip call.v4 call.v6) ∧
      (step ip c e).owed = c.owed.after (networksOf ip call.v4) (networksOf ip call.v6) := by
  have hstate : stepState ip c.state e = refreshStripeIps ip c.state call := by
    rw [stepState_eq, h]
  refine ⟨?_, by simp only [step, h]⟩
  rw [← refreshStripeIps_cached (not_isFresh_of_refreshOf h), ← hstate]
  rfl

theorem Consistent.step (hc : Consistent ip c) (e : Event) : Consistent ip (step ip c e) := by
  cases h : refreshOf ip c.state e with
  | none => exact (step_of_none h).symm ▸ hc
  | some call =>
    obtain ⟨hcached, howed⟩ := step_of_some h
    have hknown : ∀ m ∈ c.owed.known, m ∈ (StripeIps.step ip c e).owed.known := by
      intro m hm
      rw [howed]
      exact Owed.known_after.mpr (.inl hm)
    refine ⟨?_, ?_, fun m hm => hknown m (hc.defaults m hm)⟩
    · rw [hcached]
      split_ifs with hnil
      · exact hc.ne_nil
      · exact hnil
    · rw [hcached]
      split_ifs with hnil
      · exact fun m hm => hknown m (hc.known m hm)
      · intro m hm
        rw [offered_eq] at hm
        split_ifs at hm
        · exact hknown m (hc.defaults m hm)
        · rw [howed]
          exact Owed.known_after.mpr (.inr hm)

/-- A step covers what is owed after it exactly if its refresh spares what the failed lists owe. -/
theorem covers_step_iff (hc : Covers ip c) :
    Covers ip (step ip c e) ↔ ∀ call, refreshOf ip c.state e = some call → Spares ip c call := by
  cases h : refreshOf ip c.state e with
  | none =>
    rw [step_of_none h]
    exact iff_of_true hc fun call hcall => by cases hcall
  | some call =>
    obtain ⟨hcached, howed⟩ := step_of_some h
    simp only [Covers, hcached, howed, Option.some.injEq, forall_eq']
    constructor
    · intro hcovers
      by_cases hnil : offered ip call.v4 call.v6 = []
      · exact .inl hnil
      · rw [if_neg hnil] at hcovers
        refine .inr ⟨fun h4 n hn => hcovers n ?_, fun h6 n hn => hcovers n ?_⟩
        · rw [h4, List.mem_append, Owed.v4_after]
          exact .inl hn
        · rw [h6, List.mem_append, Owed.v6_after]
          exact .inr hn
    · intro hspares n hn
      rcases Owed.mem_after hn with hnew | hold
      · have hoffered := mem_offered hnew
        rw [if_neg (List.ne_nil_of_mem hoffered)]
        exact fun clientIp hwithin => ⟨n, hoffered, hwithin⟩
      · rcases hspares with hnil | ⟨h4, h6⟩
        · rw [if_pos hnil]
          exact hc n (List.mem_append.mpr (hold.imp And.right And.right))
        · have hcovered : Covered ip n (offered ip call.v4 call.v6) :=
            hold.elim (fun hn4 => h4 hn4.1 n hn4.2) fun hn6 => h6 hn6.1 n hn6.2
          split_ifs with hnil
          · exact hc n (List.mem_append.mpr (hold.imp And.right And.right))
          · exact hcovered

/-! ## A run -/

theorem run_concat (s : State Network) (events : List Event) (e : Event) :
    run ip s (events ++ [e]) = step ip (run ip s events) e :=
  List.foldl_concat ..

theorem consistent_run {now : ℚ} (hs : ensureDefaultsLoaded ip now = some s) (events : List Event) :
    Consistent ip (run ip s events) := by
  induction events using List.reverseRecOn with
  | nil =>
    refine ⟨cachedNetworks_ne_nil hs, fun m hm => hm, fun m hm => ?_⟩
    rwa [filterMap_of_ensureDefaultsLoaded hs] at hm
  | append_singleton events e ih => exact run_concat s events e ▸ ih.step e

theorem covers_run_iff (s : State Network) (events : List Event) :
    (∀ before, before <+: events → Covers ip (run ip s before)) ↔
      ∀ before e, before ++ [e] <+: events → ∀ call,
        refreshOf ip (run ip s before).state e = some call → Spares ip (run ip s before) call := by
  constructor
  · intro h before e hbefore
    have hcovers := h _ hbefore
    rw [run_concat, covers_step_iff (h before ((List.prefix_append before [e]).trans hbefore))]
      at hcovers
    exact hcovers
  · intro h before hbefore
    induction before using List.reverseRecOn with
    | nil => exact fun n hn => absurd hn List.not_mem_nil
    | append_singleton before e ih =>
      rw [run_concat,
        covers_step_iff (ih ((List.prefix_append before [e]).trans hbefore))]
      exact h before e hbefore

omit [DecidableEq Network] in
/-- The fresh cache accepts what is owed if and only if it covers it. -/
theorem covers_iff_fresh (hc : Consistent ip c) :
    Covers ip c ↔ ∀ n ∈ c.owed.v4 ++ c.owed.v6, ∀ req : Request, Within ip req.clientIp n →
      c.state.IsFresh req.refresh → (validateStripeIp ip c.state req).1 = true := by
  constructor
  · intro hcovers n hn req hwithin hfresh
    have hstate : (validateStripeIp ip c.state req).2 = c.state := validateStripeIp_fresh hfresh
    rw [accepts_iff (by rw [hstate]; exact hc.ne_nil), hstate]
    exact .inr (hcovers n hn req.clientIp hwithin)
  · intro h n hn clientIp hwithin
    have hfresh := probe_isFresh hc.ne_nil clientIp
    have haccepts := h n hn _ hwithin hfresh
    have hstate : (validateStripeIp ip c.state _).2 = c.state := validateStripeIp_fresh hfresh
    rw [accepts_iff (by rw [hstate]; exact hc.ne_nil), hstate] at haccepts
    exact haccepts.resolve_left fun hcheck => Bool.false_ne_true hcheck.1

/-- A run fails safe if and only if each of its refreshes that downloads spares what is owed. -/
theorem failsSafe_iff_spares {now : ℚ} (hs : ensureDefaultsLoaded ip now = some s)
    (events : List Event) :
    FailsSafe ip s events ↔ ∀ before e, before ++ [e] <+: events → ∀ call,
      refreshOf ip (run ip s before).state e = some call →
        Spares ip (run ip s before) call := by
  rw [← covers_run_iff]
  constructor
  · exact fun h before hbefore =>
      (covers_iff_fresh (consistent_run hs before)).mpr (h.fresh before hbefore)
  · intro h
    have hne : ∀ before req, (validateStripeIp ip (run ip s before).state req).2 =
        (run ip s (before ++ [.validate req])).state := by
      intro before req
      rw [run_concat]
      rfl
    refine ⟨fun before hbefore => (covers_iff_fresh (consistent_run hs before)).mp
      (h before hbefore), ?_, ?_⟩
    · intro before req hbefore n hn hwithin
      have hc := consistent_run hs (before ++ [.validate req])
      rw [accepts_iff (by rw [hne]; exact hc.ne_nil), hne]
      exact .inr (h _ hbefore n hn req.clientIp hwithin)
    · intro before req _ hdebug haccepts
      have hc := consistent_run hs (before ++ [.validate req])
      rw [accepts_iff (by rw [hne]; exact hc.ne_nil), hne] at haccepts
      rcases haccepts with hcheck | ⟨n, hn, hwithin⟩
      · rw [hdebug] at hcheck
        exact absurd hcheck.2 Bool.false_ne_true
      · exact ⟨n, hc.known n hn, hwithin⟩

/-! ## A list that fails after a complete refresh -/

def v6Network : String := "2600:1f18:2000::/36"

def v6Address : String := "2600:1f18:2000::1"

/-- The default networks and one more, and an address in the latter. -/
def table : Ipaddress String String where
  network
    | .str cidr => if cidr ∈ v6Network :: defaultStripeIps then some cidr else none
    | _ => none
  address s := if s = v6Address then some s else none
  contains n address := n = v6Network && address = v6Address

def answer (cidrs : List String) : Option Json := some (.obj [("ips", .arr (cidrs.map .str))])

def imported : State String := ⟨defaultStripeIps, 0, 0⟩

/-- A complete refresh, and one where the second list fails. -/
def partialFailure : List Event :=
  [.refresh ⟨true, 1, answer ["54.187.174.0/24"], answer [v6Network]⟩,
    .refresh ⟨true, 2, answer ["54.187.174.0/24"], none⟩]

theorem ensureDefaultsLoaded_table : ensureDefaultsLoaded table 0 = some imported := rfl

theorem failsSafe_iff_spares_table :
    FailsSafe table imported partialFailure ↔ ∀ before e, before ++ [e] <+: partialFailure →
      ∀ call, refreshOf table (run table imported before).state e = some call →
        Spares table (run table imported before) call :=
  failsSafe_iff_spares ensureDefaultsLoaded_table partialFailure

/-- The network of the list that failed is owed, and its address is not accepted. -/
theorem not_failsSafe : ¬FailsSafe table imported partialFailure := by
  intro h
  have hstate : (run table imported partialFailure).state = ⟨["54.187.174.0/24"], 2, 1⟩ := rfl
  have howed : v6Network ∈ (run table imported partialFailure).owed.v4 ++
      (run table imported partialFailure).owed.v6 := by decide
  have hwithin : Within table v6Address v6Network := ⟨v6Address, rfl, rfl⟩
  have hfresh : (run table imported partialFailure).state.IsFresh
      (probe ⟨["54.187.174.0/24"], 2, 1⟩ v6Address).refresh :=
    hstate ▸ probe_isFresh (List.cons_ne_nil _ _) v6Address
  have haccepts := h.fresh partialFailure List.prefix_rfl v6Network howed _ hwithin hfresh
  have hkept : (validateStripeIp table _ _).2 = _ := validateStripeIp_fresh hfresh
  rw [accepts_iff (by rw [hkept, hstate]; exact List.cons_ne_nil _ _), hkept, hstate] at haccepts
  rcases haccepts with hcheck | ⟨n, hn, address, -, hcontains⟩
  · exact Bool.false_ne_true hcheck.1
  · obtain rfl := List.mem_singleton.mp hn
    cases hcontains

end WorkTicket.Billing.StripeIps
