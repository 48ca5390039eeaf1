import WorkTicket.Mobile.OfflineQueue

/-! Whether an upload of the queue is attempted until it is completed or has used up its retries.
The gates of `processQueue` are counters of the module, which only the next start of the app sets
back. -/

namespace WorkTicket.Mobile.Stranded

open WorkTicket.Transition WorkTicket.Mobile.OfflineQueue

/-- Each call that ran online and authenticated has attempted all that was eligible, and only a
row that is completed or out of retries is not eligible. -/
def NothingStranded (s : World) : Prop :=
  (∀ r ∈ s.reports, r.online = true → r.authenticated = true → r.eligible ⊆ r.attempted) ∧
    ∀ row ∈ s.queue.rows, row.eligible = false →
      row.status = .completed ∨ maxRetries ≤ row.retryCount

/-- A call that is online and authenticated, and has something to upload, begins while fewer than
`MAX_TOTAL_REPLAYS` have ended since the start of the app, and reads the rows. -/
def GatesOpen (s : World) : Event → Prop
  | .processQueue _ online authenticated => online = true → authenticated = true →
      s.queue.eligible = [] ∨ s.totalReplayCount < maxTotalReplays
  | .select _ authenticated _ read => authenticated = true →
      s.queue.eligible = [] ∨ (s.database = .opened ∧ read = true)
  | _ => True

/-- The app as it is installed. -/
def installed : World := start ⟨[], List.nodup_nil⟩

/-! ## Rows -/

def Row.Sound (r : Row) : Prop := r.status = .failed → maxRetries ≤ r.retryCount

variable {r : Row} {q : Queue}

theorem Row.Sound.of_not_eligible (h : Row.Sound r) (hnot : r.eligible = false) :
    r.status = .completed ∨ maxRetries ≤ r.retryCount := by
  cases hstatus : r.status with
  | completed => exact .inl rfl
  | failed => exact .inr (h hstatus)
  | pending => exact .inr (by simpa [Row.eligible, hstatus] using hnot)

theorem Row.sound_complete : Row.Sound r.complete := fun hfailed => nomatch hfailed

theorem Row.sound_fail : Row.Sound r.fail := by
  intro hfailed
  by_cases hlimit : maxRetries ≤ r.retryCount + 1
  · exact hlimit
  · simp [Row.fail, hlimit] at hfailed

def Queue.Sound (q : Queue) : Prop := ∀ r ∈ q.rows, Row.Sound r

theorem Queue.Sound.enqueue (h : Queue.Sound q) : Queue.Sound q.enqueue := by
  intro r hr
  rcases List.mem_append.mp hr with hold | hnew
  · exact h r hold
  · obtain rfl := List.mem_singleton.mp hnew
    exact fun hfailed => nomatch hfailed

theorem Queue.Sound.update (h : Queue.Sound q) {id : ℕ} {f : Row → Row}
    {hf : ∀ r, (f r).id = r.id} (hsound : ∀ r, Row.Sound (f r)) :
    Queue.Sound (q.update id f hf) := by
  intro r hr
  rcases Queue.mem_update hr with ⟨hold, -⟩ | ⟨r₀, -, -, rfl⟩
  · exact h r hold
  · exact hsound r₀

theorem Queue.Sound.write (h : Queue.Sound q) (id : ℕ) (stage : Stage) (a : Answer) :
    Queue.Sound (stage.write id q a) := by
  unfold Stage.write
  split
  · exact h.update fun _ => Row.sound_complete
  · exact h.update fun _ => Row.sound_fail
  · exact h

/-! ## Calls -/

/-- A row that a call has selected was attempted, or waits for its batch. -/
structure Inv (s : World) : Prop where
  rows : Queue.Sound s.queue
  reports : ∀ r ∈ s.reports, r.online = true → r.authenticated = true → r.eligible ⊆ r.attempted
  uploading : ∀ call selected attempted, s.calls call = some (.uploading selected attempted) →
    ∀ id ∈ selected, id ∈ attempted ∨ ⟨call, id, .queued⟩ ∈ s.attempts
  analytics : ∀ call selected attempted, s.calls call = some (.analytics selected attempted) →
    selected ⊆ attempted

variable {s s' : World}

theorem Inv.nothingStranded (h : Inv s) : NothingStranded s :=
  ⟨h.reports, fun r hr hnot => (h.rows r hr).of_not_eligible hnot⟩

theorem inv_installed : Inv installed where
  rows := fun _ hr => absurd hr List.not_mem_nil
  reports := fun _ hr => absurd hr List.not_mem_nil
  uploading := fun _ _ _ hcall => nomatch hcall
  analytics := fun _ _ _ hcall => nomatch hcall

theorem Inv.report (h : Inv s) {r : Report}
    (hr : r.online = true → r.authenticated = true → r.eligible ⊆ r.attempted) :
    Inv (s.report r) where
  rows := h.rows
  reports := by
    intro r' hr'
    rcases List.mem_append.mp hr' with hold | hnew
    · exact h.reports r' hold
    · exact List.mem_singleton.mp hnew ▸ hr
  uploading := h.uploading
  analytics := h.analytics

/-- Where a call is now, when the other calls stay where they are and keep their queued rows. -/
theorem Inv.setCall (h : Inv s) {call : ℕ} {c : Option Call} {attempts : List Attempt}
    (hothers : ∀ other ≠ call, ∀ id, ⟨other, id, .queued⟩ ∈ s.attempts →
      ⟨other, id, .queued⟩ ∈ attempts)
    (huploading : ∀ selected attempted, c = some (.uploading selected attempted) →
      ∀ id ∈ selected, id ∈ attempted ∨ ⟨call, id, .queued⟩ ∈ attempts)
    (hanalytics : ∀ selected attempted, c = some (.analytics selected attempted) →
      selected ⊆ attempted) :
    Inv { s.setCall call c with attempts := attempts } where
  rows := h.rows
  reports := h.reports
  uploading := by
    intro other selected attempted hcall id hid
    by_cases hother : other = call
    · subst hother
      exact huploading selected attempted (by simpa [World.setCall] using hcall) id hid
    · have hbefore : s.calls other = some (.uploading selected attempted) := by
        simpa [World.setCall, hother] using hcall
      rcases h.uploading other selected attempted hbefore id hid with hdone | hwaits
      · exact .inl hdone
      · exact .inr (hothers other hother id hwaits)
  analytics := by
    intro other selected attempted hcall
    by_cases hother : other = call
    · subst hother
      exact hanalytics selected attempted (by simpa [World.setCall] using hcall)
    · exact h.analytics other selected attempted (by simpa [World.setCall, hother] using hcall)

/-- A batch leaves the rows of its call attempted or queued, and those of the others queued. -/
theorem mem_startBatch {as : List Attempt} {call n : ℕ} {a : Attempt} (ha : a ∈ as) :
    (a.call = call ∧ a ∈ (as.filter fun a => a.call = call ∧ a.stage = .queued).take n) ∨
      a ∈ startBatch call n as := by
  induction as generalizing n with
  | nil => exact absurd ha List.not_mem_nil
  | cons b as ih =>
    cases n with
    | zero => exact .inr ha
    | succ n =>
      unfold startBatch
      by_cases hb : b.call = call ∧ b.stage = .queued
      · rw [if_pos hb, List.filter_cons_of_pos (by simpa using hb), List.take_succ_cons]
        rcases List.mem_cons.mp ha with rfl | ha
        · exact .inl ⟨hb.1, List.mem_cons_self⟩
        · rcases ih ha (n := n) with ⟨hcall, hstarted⟩ | hwaits
          · exact .inl ⟨hcall, List.mem_cons_of_mem _ hstarted⟩
          · exact .inr (List.mem_cons_of_mem _ hwaits)
      · rw [if_neg hb, List.filter_cons_of_neg (by simpa using hb)]
        rcases List.mem_cons.mp ha with rfl | ha
        · exact .inr List.mem_cons_self
        · rcases ih ha (n := n + 1) with hstarted | hwaits
          · exact .inl hstarted
          · exact .inr (List.mem_cons_of_mem _ hwaits)

theorem Inv.nextBatch (h : Inv s) {call : ℕ} {selected attempted : List ℕ}
    (hcall : s.calls call = some (.uploading selected attempted)) :
    Inv (s.nextBatch call selected attempted) := by
  refine h.setCall ?_ ?_ (by simp)
  · intro other hother id hwaits
    rcases mem_startBatch hwaits with ⟨hsame, -⟩ | hstill
    · exact absurd hsame hother
    · exact hstill
  · intro selected' attempted' hnow id hid
    cases hnow
    rcases h.uploading call selected attempted hcall id hid with hdone | hwaits
    · exact .inl (List.mem_append_left _ hdone)
    · rcases mem_startBatch hwaits with ⟨-, hstarted⟩ | hstill
      · exact .inl (List.mem_append_right _ (List.mem_map_of_mem hstarted))
      · exact .inr hstill

/-- A row that waits for its batch is not the one that an answer is about. -/
theorem Inv.answer (h : Inv s) {k : ℕ} {attempt : Attempt} (hk : s.attempts[k]? = some attempt)
    (hqueued : attempt.stage ≠ .queued) (a : Answer) : Inv (s.answer k attempt a) where
  rows := h.rows.write _ _ _
  reports := h.reports
  uploading := by
    intro call selected attempted hcall id hid
    obtain ⟨rest, hperm, hset, herase⟩ := exists_rest hk
    rcases h.uploading call selected attempted hcall id hid with hdone | hwaits
    · exact .inl hdone
    · refine .inr ?_
      have hrest : ⟨call, id, .queued⟩ ∈ rest := by
        rcases List.mem_cons.mp (hperm.mem_iff.mp hwaits) with rfl | hrest
        · exact absurd rfl hqueued
        · exact hrest
      simp only [World.answer]
      split
      · exact (hset _).mem_iff.mpr (List.mem_cons_of_mem _ hrest)
      · exact herase.mem_iff.mpr hrest
  analytics := h.analytics

theorem Inv.processQueue (h : Inv s) {call : ℕ} {online authenticated : Bool}
    (hok : GatesOpen s (.processQueue call online authenticated)) :
    Inv (s.processQueue call online authenticated) := by
  unfold World.processQueue
  split
  · rename_i hrefused
    refine h.report fun honline hauthenticated => ?_
    rcases hok honline hauthenticated with hnone | hfewer
    · exact (hnone ▸ List.Subset.refl _ : s.queue.eligible ⊆ [])
    · obtain rfl : online = true := honline
      have hlimit : maxTotalReplays ≤ s.totalReplayCount := by simpa using hrefused
      exact absurd hfewer (Nat.not_lt.mpr hlimit)
  · exact h.setCall (fun _ _ _ hwaits => hwaits) (by simp) (by simp)

theorem Inv.select (h : Inv s) {call : ℕ} {authenticated checkFails read : Bool}
    (hok : GatesOpen s (.select call authenticated checkFails read)) :
    Inv (s.select call authenticated checkFails read) := by
  have hended : Inv (s.setCall call none) :=
    h.setCall (fun _ _ _ hwaits => hwaits) (by simp) (by simp)
  unfold World.select
  split
  · rename_i hloggedOut
    refine hended.report fun _ hauthenticated => nomatch hauthenticated
  · split
    · refine h.setCall ?_ ?_ (by simp)
      · exact fun other _ id hwaits => List.mem_append_left _ hwaits
      · intro selected attempted hnow id hid
        cases hnow
        exact .inr (List.mem_append_right _ (List.mem_map.mpr ⟨id, hid, rfl⟩))
    · rename_i hunread
      refine hended.report fun _ hauthenticated => ?_
      rcases hok hauthenticated with hnone | hread
      · exact (hnone ▸ List.Subset.refl _ : s.queue.eligible ⊆ [])
      · exact absurd hread hunread

theorem inv_step {e : Event} (h : Inv s) (hok : GatesOpen s e) (hs : step s e = some s') :
    Inv s' := by
  cases e with
  | appStart =>
    cases hs
    exact ⟨h.rows, h.reports, fun _ _ _ hcall => (nomatch hcall),
      fun _ _ _ hcall => (nomatch hcall)⟩
  | openDatabase opens =>
    obtain ⟨-, hopened⟩ := Option.ite_none_right_eq_some.mp hs
    cases hopened
    exact ⟨h.rows, h.reports, h.uploading, h.analytics⟩
  | enqueueUpload =>
    obtain ⟨-, hadded⟩ := Option.ite_none_right_eq_some.mp hs
    cases hadded
    exact ⟨h.rows.enqueue, h.reports, h.uploading, h.analytics⟩
  | processQueue call online authenticated =>
    obtain ⟨-, hbegun⟩ := Option.ite_none_right_eq_some.mp hs
    cases hbegun
    exact h.processQueue hok
  | select call authenticated checkFails read =>
    obtain ⟨-, hselected⟩ := Option.ite_none_right_eq_some.mp hs
    cases hselected
    exact h.select hok
  | nextBatch call =>
    simp only [step] at hs
    split at hs
    · rename_i hcall
      obtain ⟨-, hstarted⟩ := Option.ite_none_right_eq_some.mp hs
      cases hstarted
      exact h.nextBatch hcall
    · cases hs
  | answer k a =>
    simp only [step] at hs
    split at hs
    · rename_i attempt hk
      obtain ⟨hqueued, hanswered⟩ := Option.ite_none_left_eq_some.mp hs
      cases hanswered
      exact h.answer hk hqueued a
    · cases hs
  | endLoop call =>
    simp only [step] at hs
    split at hs
    · rename_i selected attempted hcall
      obtain ⟨hnone, hended⟩ := Option.ite_none_right_eq_some.mp hs
      cases hended
      refine h.setCall (fun _ _ _ hwaits => hwaits) (by simp) ?_
      intro selected' attempted' hnow id hid
      cases hnow
      rcases h.uploading call selected attempted hcall id hid with hdone | hwaits
      · exact hdone
      · exact absurd rfl (hnone _ hwaits)
    · cases hs
  | finish call analytics =>
    simp only [step] at hs
    split at hs
    · rename_i selected attempted hcall
      cases hs
      have hended : Inv (s.setCall call none) :=
        h.setCall (fun _ _ _ hwaits => hwaits) (by simp) (by simp)
      have hreported := hended.report (r := ⟨true, true, selected, attempted⟩)
        fun _ _ => h.analytics call selected attempted hcall
      exact ⟨hreported.rows, hreported.reports, hreported.uploading, hreported.analytics⟩
    · cases hs

/-! ## Runs -/

/-- A call that is refused, or cannot read the rows, attempts none. -/
theorem eligible_eq_nil {t : World} {r : Report}
    (h : NothingStranded (t.report r)) (honline : r.online = true)
    (hauthenticated : r.authenticated = true) (hnone : r.attempted = []) : r.eligible = [] := by
  have hall := h.1 r (List.mem_append_right _ (List.mem_singleton_self r)) honline hauthenticated
  rw [hnone] at hall
  exact List.subset_nil.mp hall

theorem gatesOpen_of_nothingStranded {e : Event} (hs : step s e = some s')
    (h : NothingStranded s') : GatesOpen s e := by
  cases e with
  | processQueue call online authenticated =>
    intro honline hauthenticated
    obtain ⟨-, hbegun⟩ := Option.ite_none_right_eq_some.mp hs
    cases hbegun
    by_contra hclosed
    rw [not_or, Nat.not_lt] at hclosed
    rw [World.processQueue, if_pos (by simp [hclosed.2])] at h
    exact hclosed.1 (eligible_eq_nil h honline hauthenticated rfl)
  | select call authenticated checkFails read =>
    intro hauthenticated
    obtain ⟨-, hselected⟩ := Option.ite_none_right_eq_some.mp hs
    cases hselected
    by_contra hclosed
    rw [not_or] at hclosed
    rw [World.select, if_neg (by simp [hauthenticated]), if_neg hclosed.2] at h
    exact hclosed.1 (eligible_eq_nil h rfl hauthenticated rfl)
  | _ => trivial

/-- From the installation on, over any number of starts of the app: every eligible upload is
attempted by each call exactly if no call finds the gates of its run closed. -/
theorem nothingStranded_along_iff (es : List Event) :
    Along step NothingStranded installed es ↔ EachStep step GatesOpen installed es :=
  along_iff_eachStep (fun _ => Inv.nothingStranded) (fun _ _ _ h hok hs => inv_step h hok hs)
    (fun _ _ _ _ hs h => gatesOpen_of_nothingStranded hs h) inv_installed es

def idleCall : List Event :=
  [.processQueue 0 true true, .select 0 true false true, .endLoop 0, .finish 0 true]

/-- An app that stays open makes `MAX_TOTAL_REPLAYS` calls, and then a photo is taken. -/
def longOpen : List Event :=
  .openDatabase true :: (List.replicate maxTotalReplays idleCall).flatten ++
    [.enqueueUpload, .processQueue 0 true true]

def afterLongOpen : World := (run step installed longOpen).get (by decide)

/-- The upload is not attempted, and will not be before the app is started again. -/
theorem longOpen_strands : ¬∀ es, Along step NothingStranded installed es := by
  intro h
  have hrun : run step installed longOpen = some afterLongOpen := (Option.some_get _).symm
  have hlast := (h longOpen).last hrun
  have hreports : ⟨true, true, [1], []⟩ ∈ afterLongOpen.reports := by decide +kernel
  exact absurd (hlast.1 _ hreports rfl rfl) (by simp)

end WorkTicket.Mobile.Stranded
