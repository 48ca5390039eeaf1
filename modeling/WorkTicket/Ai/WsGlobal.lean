import WorkTicket.Foundation.Transition

/-! The cap on the WebSocket connections of all users. Redis keeps a set with a member for every
connection that was let in, over all replicas; each command of a handler is one step. -/

namespace WorkTicket.Ai.WsGlobal

open WorkTicket.Transition

def keyTtl : ℚ := 3600

/-- How a call of Redis ends: with its answer, with an exception after it was executed, or with
an exception and nothing done. -/
inductive Reply
  | answered
  | lost
  | failed
  deriving DecidableEq, Repr

/-- Where the handler of a connection is. -/
inductive Phase
  | new
  -- `_increment_ws_global`: past `SCARD`, past `SADD`
  | counted
  | added
  -- the increment has let it in, the `try` of the handler is ahead
  | handshake
  | opened
  -- `_decrement_ws_global` is ahead
  | leaving
  | ended
  deriving DecidableEq, Repr

/-- From `SADD` to the end of the handler the connection is registered. -/
def Phase.registered : Phase → Bool
  | .added | .handshake | .opened | .leaving => true
  | .new | .counted | .ended => false

/-- `members` and `expires` are the set under `ws_global_connections`, `localCount` is the
`_ws_global_count` of each replica, `raised` whether an increment has raised. -/
structure World where
  members : List ℕ
  expires : Option ℚ
  clock : ℚ
  phase : ℕ → Phase
  localCount : ℕ → ℕ
  raised : Bool

namespace World

def move (w : World) (m : ℕ) (p : Phase) : World := { w with phase := Function.update w.phase m p }

/-- The fallback of `_increment_ws_global`. It assigns `_ws_global_count` without declaring it
global, so that reading it raises before anything is counted. -/
def fallback (w : World) (m : ℕ) : World := { w.move m .ended with raised := true }

def add (w : World) (m : ℕ) : World := { w with members := w.members ++ [m] }

def extend (w : World) : World := { w with expires := some (w.clock + keyTtl) }

/-- `SREM`; an empty set is no key. -/
def remove (w : World) (m : ℕ) : World :=
  let members := w.members.filter (· ≠ m)
  { w with members, expires := if members = [] then none else w.expires }

end World

/-- What comes of a handshake after the increment: the handler gets to its `try`, the limit of
the user denies it, or an exception ends it. -/
inductive Handshake
  | completed
  | denied
  | failed
  deriving DecidableEq, Repr

/-- A command by the handler of the member; no reply stands for no client. -/
inductive Event
  | scard (m : ℕ) (reply : Option Reply)
  | sadd (m : ℕ) (reply : Reply)
  | expire (m : ℕ) (reply : Reply)
  | handshake (m : ℕ) (outcome : Handshake)
  | disconnect (m : ℕ)
  | srem (m : ℕ) (reply : Option Reply)
  | pass (clock : ℚ)
  deriving DecidableEq, Repr

section
variable (cap : ℕ) (replica : ℕ → ℕ)

/-- What an event does; `cap` is `_MAX_WS_CONNECTIONS_GLOBAL`, and `replica` the one on which the
handler of a member runs. -/
def stepIn (w : World) : Event → World
  | .scard m (some .answered) => w.move m (if cap ≤ w.members.length then .ended else .counted)
  | .scard m _ => w.fallback m
  | .sadd m .answered => (w.add m).move m .added
  | .sadd m .lost => (w.add m).fallback m
  | .sadd m .failed => w.fallback m
  | .expire m .answered => w.extend.move m .handshake
  | .expire m .lost => w.extend.fallback m
  | .expire m .failed => w.fallback m
  | .handshake m .completed => w.move m .opened
  | .handshake m .denied => w.move m .leaving
  | .handshake m .failed => w.move m .ended
  | .disconnect m => w.move m .leaving
  | .srem m (some .answered) => (w.remove m).move m .ended
  | .srem m (some .lost) => { (w.remove m).move m .ended with
      localCount := Function.update w.localCount (replica m) (w.localCount (replica m) - 1) }
  | .srem m _ => { w.move m .ended with
      localCount := Function.update w.localCount (replica m) (w.localCount (replica m) - 1) }
  | .pass clock =>
    if w.expires.any (· ≤ clock) then { w with members := [], expires := none, clock }
    else { w with clock }

/-- When a handler is there for the event. A member is a fresh uuid. -/
def enabled (w : World) : Event → Bool
  | .scard m _ => w.phase m = .new
  | .sadd m _ => w.phase m = .counted
  | .expire m _ => w.phase m = .added
  | .handshake m _ => w.phase m = .handshake
  | .disconnect m => w.phase m = .opened
  | .srem m _ => w.phase m = .leaving
  | .pass clock => w.clock ≤ clock

def step (w : World) (e : Event) : Option World :=
  if enabled w e then some (stepIn cap replica w e) else none

end

def start : World := ⟨[], none, 0, fun _ => .new, fun _ => 0, false⟩

/-! ## The cap -/

/-- The set holds the registered connections, each once, and no more than the cap; nothing is
registered in a local counter, and every increment has returned a decision. -/
structure Sound (cap : ℕ) (w : World) : Prop where
  members : ∀ m, m ∈ w.members ↔ (w.phase m).registered
  nodup : w.members.Nodup
  capped : w.members.length ≤ cap
  localCount : ∀ r, w.localCount r = 0
  decided : w.raised = false

/-- Redis answers every command of an increment, a member is added below the cap, no handshake
fails, a removal is executed, and the key does not expire under its members. -/
def Meets (cap : ℕ) (w : World) : Event → Prop
  | .scard _ reply => reply = some .answered
  | .sadd _ reply => reply = .answered ∧ w.members.length < cap
  | .expire _ reply => reply = .answered
  | .handshake _ outcome => outcome ≠ .failed
  | .disconnect _ => True
  | .srem _ reply => reply = some .answered ∨ reply = some .lost
  | .pass clock => w.members = [] ∨ w.expires.all (clock < ·)

/-! ## One step -/

section
variable {cap : ℕ} {w : World} {m : ℕ}

theorem Sound.move {p : Phase} (h : Sound cap w) (hp : p.registered = (w.phase m).registered) :
    Sound cap (w.move m p) := by
  refine ⟨fun m' => ?_, h.nodup, h.capped, h.localCount, h.decided⟩
  by_cases hm : m' = m
  · subst hm
    simp [World.move, hp, h.members]
  · simpa [World.move, Function.update_of_ne hm] using h.members m'

theorem Sound.add (h : Sound cap w) (hp : w.phase m = .counted)
    (hlt : w.members.length < cap) : Sound cap ((w.add m).move m .added) := by
  have hnew : m ∉ w.members := by
    intro hm
    have hregistered := (h.members m).mp hm
    rw [hp] at hregistered
    cases hregistered
  refine ⟨fun m' => ?_, ?_, ?_, h.localCount, h.decided⟩
  · by_cases hm : m' = m
    · subst hm
      simp [World.move, World.add, Phase.registered]
    · simpa [World.move, World.add, Function.update_of_ne hm, hm] using h.members m'
  · simp only [World.move, World.add]
    exact h.nodup.append (List.nodup_singleton m) (by simpa using hnew)
  · simpa [World.move, World.add] using hlt

theorem Sound.remove (h : Sound cap w) : Sound cap ((w.remove m).move m .ended) := by
  refine ⟨fun m' => ?_, h.nodup.filter _, ?_, h.localCount, h.decided⟩
  · by_cases hm : m' = m
    · subst hm
      simp [World.move, World.remove, Phase.registered]
    · simpa [World.move, World.remove, Function.update_of_ne hm, hm] using h.members m'
  · exact (List.length_filter_le _ _).trans h.capped

theorem Sound.decrement (h : Sound cap w) (r : ℕ) : Sound cap { w with
    localCount := Function.update w.localCount r (w.localCount r - 1) } := by
  refine ⟨h.members, h.nodup, h.capped, fun r' => ?_, h.decided⟩
  by_cases hr : r' = r
  · subst hr
    simp [h.localCount]
  · simp [Function.update_of_ne hr, h.localCount]

theorem not_sound_fallback (cap : ℕ) (w : World) (m : ℕ) : ¬Sound cap (w.fallback m) := by
  intro h
  have hraised : (w.fallback m).raised = true := rfl
  rw [h.decided] at hraised
  cases hraised

/-- A handler that ends without its `SREM` leaves its member behind. -/
theorem not_sound_ended (h : Sound cap w) (hp : (w.phase m).registered = true) {v : World}
    (hmembers : v.members = w.members) (hphase : v.phase m = .ended) : ¬Sound cap v := by
  intro hv
  have hm := (h.members m).mpr hp
  rw [← hmembers] at hm
  have hregistered := (hv.members m).mp hm
  rw [hphase] at hregistered
  cases hregistered

end

theorem stepIn_sound_iff {cap : ℕ} {replica : ℕ → ℕ} {w : World} {e : Event} (h : Sound cap w)
    (hen : enabled w e = true) : Sound cap (stepIn cap replica w e) ↔ Meets cap w e := by
  cases e with
  | scard m reply =>
    have hp : w.phase m = .new := by simpa [enabled] using hen
    rcases reply with _ | reply
    · exact iff_of_false (not_sound_fallback cap w m) nofun
    cases reply with
    | answered =>
      refine iff_of_true (h.move ?_) rfl
      rw [hp]
      split <;> rfl
    | lost => exact iff_of_false (not_sound_fallback cap w m) nofun
    | failed => exact iff_of_false (not_sound_fallback cap w m) nofun
  | sadd m reply =>
    have hp : w.phase m = .counted := by simpa [enabled] using hen
    cases reply with
    | answered =>
      constructor
      · intro hsound
        have hcapped : w.members.length + 1 ≤ cap := by
          simpa [stepIn, World.move, World.add] using hsound.capped
        exact ⟨rfl, hcapped⟩
      · intro hmeets
        exact h.add hp hmeets.2
    | lost => exact iff_of_false (not_sound_fallback cap _ m) fun hmeets => (nomatch hmeets.1)
    | failed => exact iff_of_false (not_sound_fallback cap _ m) fun hmeets => (nomatch hmeets.1)
  | expire m reply =>
    have hp : w.phase m = .added := by simpa [enabled] using hen
    cases reply with
    | answered =>
      have hextended : Sound cap w.extend :=
        ⟨h.members, h.nodup, h.capped, h.localCount, h.decided⟩
      exact iff_of_true (hextended.move (by simp [World.extend, hp, Phase.registered])) rfl
    | lost => exact iff_of_false (not_sound_fallback cap _ m) nofun
    | failed => exact iff_of_false (not_sound_fallback cap _ m) nofun
  | handshake m outcome =>
    have hp : w.phase m = .handshake := by simpa [enabled] using hen
    have hregistered : (w.phase m).registered = true := by rw [hp]; rfl
    cases outcome with
    | completed => exact iff_of_true (h.move (by rw [hp]; rfl)) nofun
    | denied => exact iff_of_true (h.move (by rw [hp]; rfl)) nofun
    | failed =>
      refine iff_of_false (not_sound_ended h hregistered rfl ?_) fun hmeets => hmeets rfl
      simp [stepIn, World.move]
  | disconnect m =>
    have hp : w.phase m = .opened := by simpa [enabled] using hen
    exact iff_of_true (h.move (by rw [hp]; rfl)) trivial
  | srem m reply =>
    have hp : w.phase m = .leaving := by simpa [enabled] using hen
    have hregistered : (w.phase m).registered = true := by rw [hp]; rfl
    have hleft : ¬Sound cap { w.move m .ended with
        localCount := Function.update w.localCount (replica m) (w.localCount (replica m) - 1) } :=
      not_sound_ended h hregistered rfl (by simp [World.move])
    rcases reply with _ | reply
    · refine iff_of_false hleft ?_
      rintro (hmeets | hmeets) <;> cases hmeets
    cases reply with
    | answered => exact iff_of_true h.remove (.inl rfl)
    | lost => exact iff_of_true (h.remove.decrement (replica m)) (.inr rfl)
    | failed =>
      refine iff_of_false hleft ?_
      rintro (hmeets | hmeets) <;> cases hmeets
  | pass clock =>
    have hall : w.expires.all (clock < ·) = !w.expires.any (· ≤ clock) := by
      cases w.expires <;> simp [← not_le]
    simp only [stepIn, Meets, hall]
    split
    · rename_i hexpired
      simp only [hexpired, Bool.not_true, Bool.false_eq_true, or_false]
      constructor
      · intro hsound
        refine List.eq_nil_iff_forall_not_mem.mpr fun m hm => ?_
        exact absurd ((hsound.members m).mpr ((h.members m).mp hm)) List.not_mem_nil
      · intro hnil
        refine ⟨fun m => ?_, List.nodup_nil, Nat.zero_le _, h.localCount, h.decided⟩
        have hm := h.members m
        rwa [hnil] at hm
    · rename_i hlive
      refine iff_of_true ⟨h.members, h.nodup, h.capped, h.localCount, h.decided⟩ (.inr ?_)
      simpa using hlive

end WorkTicket.Ai.WsGlobal
