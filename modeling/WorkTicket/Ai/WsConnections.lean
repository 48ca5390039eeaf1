import WorkTicket.Foundation.Transition

/-! The limit on the WebSocket connections of one user, over all replicas. Redis keeps the
connections in a set scored by the time at which each was opened, and every connect first trims
the set of what is a minute old: a connection that is open for longer is no longer counted. -/

namespace WorkTicket.Ai.WsConnections

open WorkTicket.Transition

def wsConnectWindow : ℚ := 60

def maxWsConnectionsPerUser : ℕ := 3

/-- The sorted set under `ws_conn:{user_id}`, members with their scores. -/
structure WsConn where
  entries : List (ℕ × ℚ)
  expires : ℚ
  deriving DecidableEq

namespace WsConn

def live (z : WsConn) (clock : ℚ) : List (ℕ × ℚ) := if clock < z.expires then z.entries else []

/-- The script of `_increment_ws_connection`: whether the connection is let in, the count it is
told, and the set. -/
def script (z : WsConn) (clock cutoff now : ℚ) (max member : ℕ) (ttl : ℚ) : Bool × ℕ × WsConn :=
  let entries := (z.live clock).filter (cutoff < ·.2)
  let count := entries.length
  if count < max then (true, count + 1, ⟨entries ++ [(member, now)], clock + ttl⟩)
  else (false, count, ⟨entries, z.expires⟩)

/-- `_increment_ws_connection` when Redis answers, with the connections that remain. -/
def increment (z : WsConn) (clock now : ℚ) (member : ℕ) : Bool × ℕ × WsConn :=
  let (allowed, count, z) := z.script clock (now - wsConnectWindow) now maxWsConnectionsPerUser
    member (wsConnectWindow + 1)
  (allowed, maxWsConnectionsPerUser - count, z)

/-- `_decrement_ws_connection` when Redis answers: `ZREM` of the member given at the connect. -/
def decrement (z : WsConn) (clock : ℚ) (member : ℕ) : WsConn :=
  ⟨(z.live clock).filter (·.1 ≠ member), z.expires⟩

end WsConn

/-! ## Runs -/

/-- `since` of a connection is the time its replica read when it was opened. -/
structure Connection where
  member : ℕ
  since : ℚ
  deriving DecidableEq

/-- The set in Redis and its clock, the connections let in and not yet closed, and the members
made so far. -/
structure World where
  set : WsConn
  clock : ℚ
  opened : List Connection
  made : List ℕ
  deriving DecidableEq

/-- `now` is read from the clock of the replica, `clock` is that of Redis. -/
inductive Event
  | connect (member : ℕ) (now clock : ℚ)
  | disconnect (member : ℕ) (clock : ℚ)
  deriving DecidableEq

def step (s : World) : Event → Option World
  | .connect member now clock =>
    -- a fresh uuid makes each member new
    if member ∉ s.made ∧ s.clock ≤ clock then
      let (allowed, _, set) := s.set.increment clock now member
      some { set, clock, made := member :: s.made
             opened := if allowed then s.opened ++ [⟨member, now⟩] else s.opened }
    else none
  | .disconnect member clock =>
    if member ∈ s.opened.map (·.member) ∧ s.clock ≤ clock then
      some { s with
        set := s.set.decrement clock member
        clock
        opened := s.opened.filter (·.member ≠ member) }
    else none

def start : World := ⟨⟨[], 0⟩, 0, [], []⟩

/-- At every connect the connections that are open were all opened less than a minute before, and
the set of them has not expired. -/
def YoungAtConnect (s : World) : Event → Prop
  | .connect _ now clock =>
    (∀ c ∈ s.opened, now - wsConnectWindow < c.since) ∧ (s.opened ≠ [] → clock < s.set.expires)
  | .disconnect .. => True

instance (s : World) : ∀ e, Decidable (YoungAtConnect s e)
  | .connect .. => inferInstanceAs (Decidable (_ ∧ _))
  | .disconnect .. => inferInstanceAs (Decidable True)

/-- Every run of as many connects as the limit has lets them all in. -/
def CanOpenAll (s : World) : Prop :=
  ∀ calls : List (ℕ × ℚ × ℚ), calls.length ≤ maxWsConnectionsPerUser →
    ∀ s', run step s (calls.map fun c => .connect c.1 c.2.1 c.2.2) = some s' →
      s'.opened.length = s.opened.length + calls.length

/-! ## What is in the set -/

def Connection.entry (c : Connection) : ℕ × ℚ := (c.member, c.since)

/-- In every run the set holds nothing but open connections. -/
def OnlyOpen (s : World) : Prop := s.set.entries.Sublist (s.opened.map Connection.entry)

/-- It holds all of them, unless it has expired. -/
def Counted (s : World) : Prop :=
  s.set.entries = s.opened.map Connection.entry ∨ s.set.expires ≤ s.clock

variable {s s' : World} {z : WsConn} {member : ℕ} {now clock : ℚ}

theorem live_sublist : (z.live clock).Sublist z.entries := by
  rw [WsConn.live]
  split
  · exact List.Sublist.refl _
  · exact List.nil_sublist _

theorem increment_of_lt (member : ℕ)
    (h : ((z.live clock).filter (now - wsConnectWindow < ·.2)).length < maxWsConnectionsPerUser) :
    (z.increment clock now member).1 = true ∧ (z.increment clock now member).2.2 =
      ⟨(z.live clock).filter (now - wsConnectWindow < ·.2) ++ [(member, now)],
        clock + (wsConnectWindow + 1)⟩ := by
  simp only [WsConn.increment, WsConn.script, if_pos h, true_and]

theorem increment_of_not_lt (member : ℕ)
    (h : ¬ ((z.live clock).filter (now - wsConnectWindow < ·.2)).length < maxWsConnectionsPerUser) :
    (z.increment clock now member).1 = false ∧ (z.increment clock now member).2.2 =
      ⟨(z.live clock).filter (now - wsConnectWindow < ·.2), z.expires⟩ := by
  simp only [WsConn.increment, WsConn.script, if_neg h, true_and]

theorem filter_entry (l : List Connection) (member : ℕ) :
    (l.map Connection.entry).filter (·.1 ≠ member) =
      (l.filter (·.member ≠ member)).map Connection.entry := by
  rw [List.filter_map]
  rfl

theorem step_connect_eq_some (h : step s (.connect member now clock) = some s') :
    s.clock ≤ clock ∧ s' = ⟨(s.set.increment clock now member).2.2, clock,
      if (s.set.increment clock now member).1 then s.opened ++ [⟨member, now⟩] else s.opened,
      member :: s.made⟩ := by
  simp only [step] at h
  split at h
  · rename_i hnew
    exact ⟨hnew.2, (Option.some.inj h).symm⟩
  · cases h

theorem step_disconnect_eq_some (h : step s (.disconnect member clock) = some s') :
    s.clock ≤ clock ∧ s' = { s with
      set := s.set.decrement clock member
      clock
      opened := s.opened.filter (·.member ≠ member) } := by
  simp only [step] at h
  split at h
  · rename_i hopen
    exact ⟨hopen.2, (Option.some.inj h).symm⟩
  · cases h

theorem OnlyOpen.kept {e : Event} (h : OnlyOpen s) (hs : step s e = some s') : OnlyOpen s' := by
  cases e with
  | connect member now clock =>
    obtain ⟨-, rfl⟩ := step_connect_eq_some hs
    have htrim : ((s.set.live clock).filter (now - wsConnectWindow < ·.2)).Sublist
        (s.opened.map Connection.entry) :=
      (List.filter_sublist).trans (live_sublist.trans h)
    by_cases hlt : ((s.set.live clock).filter (now - wsConnectWindow < ·.2)).length <
        maxWsConnectionsPerUser
    · obtain ⟨hallowed, hset⟩ := increment_of_lt member hlt
      simp only [OnlyOpen, hallowed, hset, if_true, List.map_append]
      exact htrim.append (List.Sublist.refl _)
    · obtain ⟨hallowed, hset⟩ := increment_of_not_lt member hlt
      simpa only [OnlyOpen, hallowed, hset, Bool.false_eq_true, if_false] using htrim
  | disconnect member clock =>
    obtain ⟨-, rfl⟩ := step_disconnect_eq_some hs
    simp only [OnlyOpen, WsConn.decrement, ← filter_entry]
    exact (live_sublist.trans h).filter _

/-- A connect that finds only young connections counts every open one. -/
theorem Counted.trim_eq (h : Counted s) (hclock : s.clock ≤ clock)
    (hyoung : YoungAtConnect s (.connect member now clock)) :
    (s.set.live clock).filter (now - wsConnectWindow < ·.2) = s.opened.map Connection.entry := by
  obtain ⟨hsince, hlive⟩ := hyoung
  have hkeep : (s.opened.map Connection.entry).filter (now - wsConnectWindow < ·.2) =
      s.opened.map Connection.entry := by
    rw [List.filter_eq_self]
    intro x hx
    obtain ⟨c, hc, rfl⟩ := List.mem_map.mp hx
    exact decide_eq_true (hsince c hc)
  rcases h with hentries | hexpired
  · by_cases hopened : s.opened = []
    · have hlive : (s.set.live clock).Sublist s.set.entries := live_sublist
      rw [hentries, hopened, List.map_nil, List.sublist_nil] at hlive
      rw [hlive, hopened]
      rfl
    · rw [WsConn.live, if_pos (hlive hopened), hentries, hkeep]
  · have hopened : s.opened = [] := by
      by_contra hne
      exact absurd (hlive hne) (not_lt.mpr (hexpired.trans hclock))
    rw [WsConn.live, if_neg (not_lt.mpr (hexpired.trans hclock)), hopened]
    rfl

theorem Counted.kept {e : Event} (h : Counted s) (hmax : s.opened.length ≤ maxWsConnectionsPerUser)
    (hyoung : YoungAtConnect s e) (hs : step s e = some s') :
    Counted s' ∧ s'.opened.length ≤ maxWsConnectionsPerUser := by
  cases e with
  | connect member now clock =>
    obtain ⟨hclock, rfl⟩ := step_connect_eq_some hs
    have htrim := h.trim_eq hclock hyoung
    by_cases hlt : s.opened.length < maxWsConnectionsPerUser
    · have hlt' : ((s.set.live clock).filter (now - wsConnectWindow < ·.2)).length <
          maxWsConnectionsPerUser := by
        rwa [htrim, List.length_map]
      obtain ⟨hallowed, hset⟩ := increment_of_lt member hlt'
      refine ⟨.inl ?_, ?_⟩
      · simp only [hallowed, hset, htrim, if_true, List.map_append]
        rfl
      · simpa [hallowed] using hlt
    · have hlt' : ¬ ((s.set.live clock).filter (now - wsConnectWindow < ·.2)).length <
          maxWsConnectionsPerUser := by
        rwa [htrim, List.length_map]
      obtain ⟨hallowed, hset⟩ := increment_of_not_lt member hlt'
      refine ⟨.inl ?_, ?_⟩
      · simp only [hallowed, hset, htrim, Bool.false_eq_true, if_false]
      · simpa [hallowed] using hmax
  | disconnect member clock =>
    obtain ⟨hclock, rfl⟩ := step_disconnect_eq_some hs
    refine ⟨?_, (List.length_filter_le _ _).trans hmax⟩
    rcases h with hentries | hexpired
    · by_cases hlive : clock < s.set.expires
      · left
        simp only [WsConn.decrement, WsConn.live, if_pos hlive, hentries, filter_entry]
      · exact .inr (not_lt.mp hlive)
    · exact .inr (hexpired.trans hclock)

theorem OnlyOpen.connect_admitted (h : OnlyOpen s) (hlt : s.opened.length < maxWsConnectionsPerUser)
    (hs : step s (.connect member now clock) = some s') :
    s'.opened.length = s.opened.length + 1 := by
  obtain ⟨-, rfl⟩ := step_connect_eq_some hs
  have hcount := ((List.filter_sublist (p := fun x => now - wsConnectWindow < x.2)).trans
    (live_sublist.trans h) : (List.filter _ (s.set.live clock)).Sublist _).length_le
  rw [List.length_map] at hcount
  simp [(increment_of_lt member (hcount.trans_lt hlt)).1]

theorem OnlyOpen.connects_admitted {calls : List (ℕ × ℚ × ℚ)} (h : OnlyOpen s)
    (hroom : s.opened.length + calls.length ≤ maxWsConnectionsPerUser)
    (hrun : run step s (calls.map fun c => .connect c.1 c.2.1 c.2.2) = some s') :
    s'.opened.length = s.opened.length + calls.length := by
  induction calls generalizing s with
  | nil =>
    obtain rfl := Option.some.inj hrun
    rfl
  | cons c calls ih =>
    obtain ⟨t, ht, hrest⟩ := Option.bind_eq_some_iff.mp hrun
    rw [List.length_cons] at hroom ⊢
    have hopened := h.connect_admitted (by omega) ht
    rw [ih (h.kept ht) (by omega) hrest]
    omega

/-- In every run in which no connect finds a connection open that is a minute old, the limit is
kept, and when all are closed the user can open as many again. -/
theorem opened_le_max (h : ReachedBy step YoungAtConnect start s) :
    s.opened.length ≤ maxWsConnectionsPerUser ∧ (s.opened = [] → CanOpenAll s) := by
  have hinv := h.invariant
    (I := fun s => OnlyOpen s ∧ Counted s ∧ s.opened.length ≤ maxWsConnectionsPerUser)
    ⟨List.Sublist.refl _, .inl rfl, Nat.zero_le _⟩
    fun s e s' ⟨hopen, hcounted, hmax⟩ hyoung hs =>
      ⟨hopen.kept hs, hcounted.kept hmax hyoung hs⟩
  obtain ⟨hopen, -, hmax⟩ := hinv
  refine ⟨hmax, fun hclosed calls hcalls s' hrun => ?_⟩
  exact hopen.connects_admitted (by rwa [hclosed, List.length_nil, Nat.zero_add]) hrun

/-- Three connections, one of them closed and opened anew within the minute. -/
theorem opened_le_max_three : ∃ s, s.opened.length = 3 ∧
    s.opened.length ≤ maxWsConnectionsPerUser ∧ (s.opened = [] → CanOpenAll s) := by
  have hrun : runWhile step YoungAtConnect start [.connect 1 0 0, .connect 2 10 10,
      .connect 3 20 20, .disconnect 1 30, .connect 4 40 40] =
      some ⟨⟨[(2, 10), (3, 20), (4, 40)], 101⟩, 40, [⟨2, 10⟩, ⟨3, 20⟩, ⟨4, 40⟩], [4, 3, 2, 1]⟩ := by
    decide +kernel
  exact ⟨_, rfl, opened_le_max (.of_runWhile hrun)⟩

/-- A minute on three open connections are forgotten and a fourth is let in. -/
theorem not_opened_le_max_minute :
    ¬ ∀ s, Reached step start s → s.opened.length ≤ maxWsConnectionsPerUser := by
  intro h
  have hrun : run step start [.connect 1 0 0, .connect 2 0 0, .connect 3 0 0, .connect 4 60 60] =
      some ⟨⟨[(4, 60)], 121⟩, 60, [⟨1, 0⟩, ⟨2, 0⟩, ⟨3, 0⟩, ⟨4, 60⟩], [4, 3, 2, 1]⟩ := by
    decide +kernel
  exact absurd (h _ (.of_run hrun)) (by decide)

end WorkTicket.Ai.WsConnections
