import WorkTicket.Ai.WsSending

/-! What the end of a WebSocket handler gives back: the slots of the connection, its place among the
active ones, and the tasks that were started under it. -/

namespace WorkTicket.Ai.WsSending

open Transition

section
variable {μ : Type} {c c₀ c' : Connection μ}

/-- The sender had come to its end, and there was room for the `None`. -/
def Connection.Settled (c : Connection μ) : Prop :=
  c.sender = .ended ∧ c.queue.length < sendQueueSize

/-- The slots are taken, and the connection is among the active ones, or neither. -/
def Connection.Holds (c : Connection μ) (b : Bool) : Prop := c.counted = b ∧ c.active = b

/-- What comes after a loop that was left as `c₀`. A handler that waits for room waits for ever. -/
inductive Leaves (c₀ c : Connection μ) : Prop
  | stuck (hstage : c.stage = .leaving) (hfull : ¬ c.queue.length < sendQueueSize)
      (hfull₀ : ¬ c₀.queue.length < sendQueueSize) (hholds : c.Holds true) (hlate : c.late = false)
  | joining (hstage : c.stage = .joining) (hroom₀ : c₀.queue.length < sendQueueSize)
      (hsender : c.sender = .ended ↔ c₀.sender = .ended) (hholds : c.Holds true)
      (hlate : c.late = false)
  | released (hstage : c.stage = .released) (hwhy : c₀.Settled ∨ c.late = true)
      (hholds : c.Holds false)
  | aborted (hstage : c.stage = .aborted) (hwhy : c₀.sender ≠ .ended) (hholds : c.Holds true)
      (hlate : c.late = false)

/-- After its loop a handler gets further with room for the `None`, or with a sender that is done;
what else happens leaves it where it is. -/
theorem acts_after_loop (ho : Orderly c) (hclosed : c.stage.isOpen = false)
    (hne : c.stage ≠ .opening) (hacts : Acts c c') :
    (c'.stage = c.stage ∧ c'.queue = c.queue ∧ c'.counted = c.counted ∧ c'.active = c.active ∧
      c'.late = c.late ∧ (c'.sender = .ended ↔ c.sender = .ended)) ∨
    (c.stage = .leaving ∧ c.queue.length < sendQueueSize) ∨
    (c.stage = .joining ∧ c.sender = .ended ∧ c' = c.release) ∨
    (c.stage = .joining ∧ c.sender = .cancelled ∧
      (c' = { c.release with late := true } ∨ c' = { c with stage := .aborted })) := by
  have hdead := ho.not_alive_of_closed hclosed
  cases hacts with
  | accept hstage => exact absurd hstage hne
  | put hstage | wait hstage | putLater hstage | refuse hstage | drop hstage =>
    rw [hstage] at hclosed
    cases hclosed
  | take hsender | takeNone hsender | deliver hsender | fail hsender =>
    rw [hsender] at hdead
    cases hdead
  | throw hsender =>
    refine .inl ⟨rfl, rfl, rfl, rfl, rfl, ?_⟩
    rw [hsender]
    exact iff_of_false (by rintro ⟨⟩) (by rintro ⟨⟩)
  | discard => exact .inl ⟨rfl, rfl, rfl, rfl, rfl, Iff.rfl⟩
  | putNone hstage hroom => exact .inr (.inl ⟨hstage, hroom⟩)
  | release hstage hsender => exact .inr (.inr (.inl ⟨hstage, hsender, rfl⟩))
  | releaseLate hstage hsender => exact .inr (.inr (.inr ⟨hstage, hsender, .inl rfl⟩))
  | abort hstage hsender => exact .inr (.inr (.inr ⟨hstage, hsender, .inr rfl⟩))

theorem Leaves.isOpen (h : Leaves c₀ c) : c.stage.isOpen = false ∧ c.stage ≠ .opening := by
  cases h with
  | stuck hstage | joining hstage | released hstage | aborted hstage =>
    rw [hstage]
    exact ⟨rfl, by rintro ⟨⟩⟩

theorem Leaves.acts (h : Leaves c₀ c) (ho : Orderly c) (hacts : Acts c c') : Leaves c₀ c' := by
  rcases acts_after_loop ho h.isOpen.1 h.isOpen.2 hacts with
    ⟨hsame, hqueue, hcounted, hactive, hsameLate, hended⟩ | ⟨hleaving, hroom⟩ |
    ⟨hjoining, hdone, rfl⟩ | ⟨hjoining, hcancelled, rfl | rfl⟩
  · cases h with
    | stuck hstage hfull hfull₀ hholds hlate =>
      exact .stuck (hsame.trans hstage) (hqueue ▸ hfull) hfull₀
        ⟨hcounted.trans hholds.1, hactive.trans hholds.2⟩ (hsameLate.trans hlate)
    | joining hstage hroom₀ hsender hholds hlate =>
      exact .joining (hsame.trans hstage) hroom₀ (hended.trans hsender)
        ⟨hcounted.trans hholds.1, hactive.trans hholds.2⟩ (hsameLate.trans hlate)
    | released hstage hwhy hholds =>
      exact .released (hsame.trans hstage) (hsameLate ▸ hwhy)
        ⟨hcounted.trans hholds.1, hactive.trans hholds.2⟩
    | aborted hstage hwhy hholds hlate =>
      exact .aborted (hsame.trans hstage) hwhy
        ⟨hcounted.trans hholds.1, hactive.trans hholds.2⟩ (hsameLate.trans hlate)
  · cases h with
    | stuck _ hfull => exact absurd hroom hfull
    | joining hstage | released hstage | aborted hstage => cases hstage.symm.trans hleaving
  · cases h with
    | joining hstage hroom₀ hsender =>
      exact .released rfl (.inl ⟨hsender.mp hdone, hroom₀⟩) ⟨rfl, rfl⟩
    | stuck hstage | released hstage | aborted hstage => cases hstage.symm.trans hjoining
  · exact .released rfl (.inr rfl) ⟨rfl, rfl⟩
  · cases h with
    | joining hstage hroom₀ hsender hholds hlate =>
      refine .aborted rfl (fun hended => ?_) hholds hlate
      cases hcancelled.symm.trans (hsender.mpr hended)
    | stuck hstage | released hstage | aborted hstage => cases hstage.symm.trans hjoining

theorem Leaves.moves (h : Leaves c₀ c) (ho : Orderly c) (hmoves : Moves c c') : Leaves c₀ c' := by
  cases hmoves with
  | act hacts => exact h.acts ho hacts
  | register hstage | close hstage =>
    have hclosed := h.isOpen.1
    rw [hstage] at hclosed
    cases hclosed

/-- A connection whose handler is in its loop has its slots, and has not waited for its sender. -/
structure Serves (c : Connection μ) : Prop where
  counted : c.stage.isOpen = true → c.counted = true
  late : c.stage ≠ .released → c.late = false

theorem serves_initial : Serves (.initial : Connection μ) where
  counted h := by cases h
  late _ := rfl

theorem Serves.on_handler (h : Serves c) (hcounted : c'.stage.isOpen = true → c.stage.isOpen = true)
    (hsame : c'.counted = c.counted) (hne : c.stage ≠ .released) (hlate : c'.late = c.late) :
    Serves c' :=
  ⟨fun hopen => hsame.trans (h.counted (hcounted hopen)), fun _ => hlate.trans (h.late hne)⟩

theorem Serves.moves (h : Serves c) (hmoves : Moves c c') : Serves c' := by
  cases hmoves with
  | act hacts =>
    cases hacts with
    | take | takeNone | deliver | fail | throw | discard => exact ⟨h.counted, h.late⟩
    | accept hstage => exact ⟨fun _ => rfl, fun _ => h.late (hstage ▸ by rintro ⟨⟩)⟩
    | put hstage | wait hstage | putLater hstage | refuse hstage | drop hstage =>
      exact h.on_handler (fun _ => hstage ▸ rfl) rfl (hstage ▸ by rintro ⟨⟩) rfl
    | putNone hstage hroom =>
      rw [putNone_of_room hroom]
      exact h.on_handler (by rintro ⟨⟩) rfl (hstage ▸ by rintro ⟨⟩) rfl
    | release hstage => exact ⟨by rintro ⟨⟩, fun hne => absurd rfl hne⟩
    | releaseLate hstage => exact ⟨by rintro ⟨⟩, fun hne => absurd rfl hne⟩
    | abort hstage => exact h.on_handler (by rintro ⟨⟩) rfl (hstage ▸ by rintro ⟨⟩) rfl
  | register hstage => exact ⟨h.counted, h.late⟩
  | close hstage hactive =>
    by_cases hroom : c.cancelAll.queue.length < sendQueueSize
    · rw [putNone_of_room hroom]
      exact h.on_handler (by rintro ⟨⟩) rfl (hstage ▸ by rintro ⟨⟩) rfl
    · rw [putNone_of_full hroom]
      exact h.on_handler (by rintro ⟨⟩) rfl (hstage ▸ by rintro ⟨⟩) rfl

/-- The cancellation reaches a sender exactly if it has not ended. -/
theorem cancelAll_ended (ho : Orderly c) (hopen : c.stage.isOpen = true) :
    c.cancelAll.sender = .ended ↔ c.sender = .ended := by
  rcases (ho.serving hopen).2 with halive | hended
  · have htracked := (ho.alive halive).2.1
    have hsender : c.cancelAll.sender = c.sender.cancel := if_pos htracked
    rw [hsender]
    cases hx : c.sender <;> simp [hx, Sender.isAlive, Sender.cancel] at halive ⊢
  · have hsender : c.cancelAll.sender = .ended := by
      simp [Connection.cancelAll, hended, Sender.cancel]
    exact iff_of_true hsender hended

theorem leaves_of_close (ho : Orderly c) (h : Serves c) (hclose : close c = some c') :
    Leaves c c' := by
  obtain ⟨hstage, hactive, rfl⟩ := close_eq_some hclose
  have hcounted : c.counted = true := h.counted (hstage ▸ rfl)
  have hlate : c.late = false := h.late (hstage ▸ by rintro ⟨⟩)
  by_cases hroom : c.cancelAll.queue.length < sendQueueSize
  · rw [putNone_of_room hroom]
    exact .joining rfl hroom (cancelAll_ended ho (hstage ▸ rfl)) ⟨hcounted, hactive⟩ hlate
  · rw [putNone_of_full hroom]
    exact .stuck rfl hroom hroom ⟨hcounted, hactive⟩ hlate

variable {ι : Type} [DecidableEq ι] {w w' w₁ : Worker ι μ} {i : ι}

theorem orderly_serves (h : Reached step start w) :
    Orderly (w.connection i) ∧ Serves (w.connection i) :=
  connection_invariant (I := fun c => Orderly c ∧ Serves c) h ⟨orderly_initial, serves_initial⟩
    fun _ _ hc hmoves => ⟨hc.1.moves hmoves, hc.2.moves hmoves⟩

end

/-- A connection with nothing to send, in its loop. -/
def oneServed : Worker Unit ℕ :=
  (run step start [.act () .accept, .register ()]).get (by decide)

def oneLeft : Worker Unit ℕ := (step oneServed (.close ())).get (by decide)

def oneThrownOut : Worker Unit ℕ :=
  (run step oneLeft [.act () .throw, .act () (.join false)]).get (by decide)

/-- The connection is gone, and its slots are still taken. -/
example : (oneThrownOut.connection ()).counted = true := by decide

/-! ## The heartbeat of the worker -/

section
variable {μ : Type} {c c' : Connection μ} {ι : Type} {w w' : Worker ι μ} {i : ι}

/-- The heartbeat while the first of the connections that came to their loops is there, and after
it has left. -/
def Worker.heartbeatOfFirst (w : Worker ι μ) : Heartbeat :=
  match w.registered.head? with
  | none => .unstarted
  | some i => if (w.connection i).stage.isOpen then .running else .cancelled

/-- The connection under which the heartbeat was started. -/
def Worker.Carries (w : Worker ι μ) (i : ι) : Prop :=
  w.registered.head? = some i ∧ (w.connection i).stage.isOpen = true

structure Beats (w : Worker ι μ) : Prop where
  orderly : ∀ i, Orderly (w.connection i)
  carries : ∀ i, Task.heartbeat ∈ (w.connection i).pending ↔ w.Carries i
  opened : ∀ i ∈ w.registered, (w.connection i).stage ≠ .opening
  heartbeat : w.heartbeat = w.heartbeatOfFirst

theorem acts_heartbeat (ho : Orderly c) (hacts : Acts c c') :
    (Task.heartbeat ∈ c'.pending ↔ Task.heartbeat ∈ c.pending) ∧
      (c.stage ≠ .opening → c'.stage.isOpen = c.stage.isOpen ∧ c'.stage ≠ .opening) := by
  cases hacts with
  | accept hstage =>
    obtain rfl := ho.opening hstage
    refine ⟨iff_of_false ?_ List.not_mem_nil, fun hne => absurd rfl hne⟩
    show Task.heartbeat ∉ [Task.sender]
    decide
  | take | takeNone | deliver | fail | throw => exact ⟨Iff.rfl, fun hne => ⟨rfl, hne⟩⟩
  | discard =>
    refine ⟨?_, fun hne => ⟨rfl, hne⟩⟩
    rw [List.mem_filter]
    exact and_iff_left (by decide)
  | put hstage => exact ⟨Iff.rfl, fun hne => ⟨rfl, hne⟩⟩
  | wait hstage | putLater hstage | refuse hstage | drop hstage =>
    exact ⟨Iff.rfl, fun _ => ⟨hstage ▸ rfl, by rintro ⟨⟩⟩⟩
  | putNone hstage hroom =>
    rw [putNone_of_room hroom]
    exact ⟨Iff.rfl, fun _ => ⟨hstage ▸ rfl, by rintro ⟨⟩⟩⟩
  | release hstage | releaseLate hstage | abort hstage =>
    exact ⟨Iff.rfl, fun _ => ⟨hstage ▸ rfl, by rintro ⟨⟩⟩⟩

theorem heartbeatOfFirst_congr (hfirst : w'.registered.head? = w.registered.head?)
    (hopen : ∀ j, w.registered.head? = some j →
      (w'.connection j).stage.isOpen = (w.connection j).stage.isOpen) :
    w'.heartbeatOfFirst = w.heartbeatOfFirst := by
  rw [Worker.heartbeatOfFirst, Worker.heartbeatOfFirst, hfirst]
  cases hhead : w.registered.head? with
  | none => rfl
  | some j =>
    show (if _ then _ else _) = if _ then _ else _
    rw [hopen j hhead]

theorem heartbeatOfFirst_some (hfirst : w.registered.head? = some i) :
    w.heartbeatOfFirst =
      if (w.connection i).stage.isOpen then .running else .cancelled := by
  rw [Worker.heartbeatOfFirst, hfirst]

theorem Beats.unstarted_iff (h : Beats w) :
    w.heartbeat = .unstarted ↔ w.registered.head? = none := by
  rw [h.heartbeat, Worker.heartbeatOfFirst]
  cases w.registered.head? with
  | none => exact iff_of_true rfl rfl
  | some j =>
    refine iff_of_false ?_ (by rintro ⟨⟩)
    show ¬ (if _ then _ else _) = _
    split <;> rintro ⟨⟩

theorem closed_parts (c : Connection μ) :
    c.cancelAll.putNone.pending = [] ∧ c.cancelAll.putNone.stage.isOpen = false ∧
      c.cancelAll.putNone.stage ≠ .opening := by
  by_cases hroom : c.cancelAll.queue.length < sendQueueSize
  · rw [putNone_of_room hroom]
    exact ⟨rfl, rfl, by rintro ⟨⟩⟩
  · rw [putNone_of_full hroom]
    exact ⟨rfl, rfl, by rintro ⟨⟩⟩

variable [DecidableEq ι]

theorem set_connection_self : (w.set i c).connection i = c := Function.update_self ..

theorem set_connection_of_ne {j : ι} (hji : j ≠ i) :
    (w.set i c).connection j = w.connection j := Function.update_of_ne hji ..

/-- A connection moves, and no other. -/
theorem Beats.moved (h : Beats w) (hw : w'.connection = Function.update w.connection i c)
    (horderly : Orderly c) (hregistered : ∀ j ∈ w'.registered, j ∈ w.registered ∨ j = i)
    (hne : i ∈ w'.registered → c.stage ≠ .opening)
    (hcarries : Task.heartbeat ∈ c.pending ↔
      w'.registered.head? = some i ∧ c.stage.isOpen = true)
    (hothers : ∀ j, j ≠ i → (w'.registered.head? = some j ↔ w.registered.head? = some j))
    (hheartbeat : w'.heartbeat = w'.heartbeatOfFirst) : Beats w' := by
  have hself : w'.connection i = c := by rw [hw, Function.update_self]
  have hother : ∀ j, j ≠ i → w'.connection j = w.connection j := fun j hj => by
    rw [hw, Function.update_of_ne hj]
  refine ⟨fun j => ?_, fun j => ?_, fun j hj => ?_, hheartbeat⟩
  · by_cases hji : j = i
    · exact hji ▸ hself.symm ▸ horderly
    · exact hother j hji ▸ h.orderly j
  · by_cases hji : j = i
    · subst hji
      rw [Worker.Carries, hself]
      exact hcarries
    · rw [Worker.Carries, hother j hji, h.carries, Worker.Carries, hothers j hji]
  · by_cases hji : j = i
    · subst hji
      exact hself.symm ▸ hne hj
    · exact hother j hji ▸ h.opened j ((hregistered j hj).resolve_right hji)

theorem Beats.act {a : Act μ} (h : Beats w) (hact : act (w.connection i) a = some c) :
    Beats (w.set i c) := by
  have hacts := acts_of_act hact
  obtain ⟨hpending, hstage⟩ := acts_heartbeat (h.orderly i) hacts
  have hopened : i ∈ w.registered →
      c.stage.isOpen = (w.connection i).stage.isOpen ∧ c.stage ≠ .opening :=
    fun hi => hstage (h.opened i hi)
  refine h.moved rfl ((h.orderly i).acts hacts) (fun j hj => .inl hj) (fun hi => (hopened hi).2)
    ?_ (fun j _ => Iff.rfl) ?_
  · rw [hpending, h.carries]
    refine and_congr_right fun hfirst => ?_
    rw [(hopened (List.mem_of_mem_head? hfirst)).1]
  · refine h.heartbeat.trans (Eq.symm ?_)
    show (w.set i c).heartbeatOfFirst = w.heartbeatOfFirst
    refine heartbeatOfFirst_congr rfl fun j hfirst => ?_
    have hj := List.mem_of_mem_head? hfirst
    by_cases hji : j = i
    · subst hji
      rw [set_connection_self, (hopened hj).1]
    · rw [set_connection_of_ne hji]

theorem Beats.register (h : Beats w) (hs : step w (.register i) = some w') : Beats w' := by
  obtain ⟨c, hregister, rfl⟩ := Option.map_eq_some_iff.mp hs
  obtain ⟨hstage, hactive, rfl⟩ := register_eq_some hregister
  have hmoves := Moves.register hstage hactive (w.heartbeat = .unstarted)
  have hopen : (w.connection i).stage.isOpen = true := hstage ▸ rfl
  have hnot : (w.connection i).stage ≠ .opening := hstage ▸ by rintro ⟨⟩
  have hmem : ∀ j ∈ w.registered ++ [i], j ∈ w.registered ∨ j = i := fun j hj =>
    (List.mem_append.mp hj).imp_right List.mem_singleton.mp
  by_cases hunstarted : w.heartbeat = .unstarted
  · -- the first connection that comes to its loop starts the heartbeat
    have hnone := List.head?_eq_none_iff.mp (h.unstarted_iff.mp hunstarted)
    refine h.moved rfl ((h.orderly i).moves hmoves) hmem (fun _ => hnot) ?_ (fun j hj => ?_) ?_
    · refine iff_of_true ?_ ⟨?_, hopen⟩
      · simp [hunstarted]
      · simp [hnone]
    · simpa [hnone] using Ne.symm hj
    · simp [Worker.heartbeatOfFirst, hunstarted, hnone, set_connection_self, hopen]
  · obtain ⟨first, hfirst⟩ := Option.ne_none_iff_exists'.mp (mt h.unstarted_iff.mpr hunstarted)
    have hsame : (w.registered ++ [i]).head? = w.registered.head? := by
      rw [List.head?_append, hfirst]
      rfl
    refine h.moved rfl ((h.orderly i).moves hmoves) hmem (fun _ => hnot) ?_ (fun j hj => ?_) ?_
    · simpa [hunstarted, hsame, Worker.Carries] using h.carries i
    · rw [hsame]
    · rw [if_neg hunstarted]
      refine h.heartbeat.trans (heartbeatOfFirst_congr (w := w) hsame fun j _ => ?_).symm
      by_cases hji : j = i
      · subst hji
        rw [set_connection_self]
      · rw [set_connection_of_ne hji]

theorem Beats.close (h : Beats w) (hs : step w (.close i) = some w') : Beats w' := by
  obtain ⟨c, hclose, rfl⟩ := Option.map_eq_some_iff.mp hs
  obtain ⟨hstage, hactive, rfl⟩ := close_eq_some hclose
  obtain ⟨hpending, hclosed, hnot⟩ := closed_parts (w.connection i)
  have hopen : (w.connection i).stage.isOpen = true := hstage ▸ rfl
  refine h.moved rfl ((h.orderly i).closed) (fun j hj => .inl hj) (fun _ => hnot) ?_
    (fun j _ => Iff.rfl) ?_
  · rw [hpending, hclosed]
    exact iff_of_false List.not_mem_nil (by rintro ⟨-, ⟨⟩⟩)
  · by_cases hcarries : Task.heartbeat ∈ (w.connection i).pending
    · have hfirst := ((h.carries i).mp hcarries).1
      rw [if_pos hcarries]
      refine Eq.symm ((heartbeatOfFirst_some (i := i) ?_).trans ?_)
      · exact hfirst
      · rw [set_connection_self, hclosed]
        rfl
    · have hother : w.registered.head? ≠ some i := fun hfirst =>
        hcarries ((h.carries i).mpr ⟨hfirst, hopen⟩)
      rw [if_neg hcarries]
      refine h.heartbeat.trans (Eq.symm ?_)
      refine heartbeatOfFirst_congr (w := w) rfl fun j hj => ?_
      have hji : j ≠ i := fun hji => hother (hji ▸ hj)
      rw [set_connection_of_ne hji]

theorem beats_of_reached (h : Reached step start w) : Beats w := by
  refine h.invariant ⟨fun _ => orderly_initial, fun _ => ?_, ?_, rfl⟩ fun w e w' hw _ hs => ?_
  · exact iff_of_false List.not_mem_nil (by rintro ⟨⟨⟩, -⟩)
  · rintro _ ⟨⟩
  · cases e with
    | act i a =>
      obtain ⟨c, hact, rfl⟩ := Option.map_eq_some_iff.mp hs
      exact hw.act hact
    | register i => exact hw.register hs
    | close i => exact hw.close hs

/-- In every run of a worker, whatever its connections do and in whatever order, the loop that tells
the other replicas how many there are runs exactly while the first of them is there: it is cancelled
with that one, and not started again for those that stay or come later. -/
theorem heartbeat_eq (h : Reached step start w) : w.heartbeat = w.heartbeatOfFirst :=
  (beats_of_reached h).heartbeat

end

/-- The first of two connections has left. -/
def firstLeft : Worker Bool ℕ :=
  (run step start [.act false .accept, .register false, .act true .accept, .register true,
    .close false]).get (by decide)

theorem heartbeat_eq_firstLeft : firstLeft.heartbeat = firstLeft.heartbeatOfFirst :=
  heartbeat_eq (.of_run (Option.some_get _).symm)

example : firstLeft.heartbeat = .cancelled ∧ (firstLeft.connection true).stage = .serving := by
  decide

end WorkTicket.Ai.WsSending
