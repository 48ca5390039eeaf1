import WorkTicket.Mobile.OfflineQueue

/-! How often an upload of the queue succeeds. Nothing in the table tells a row that a call is
working on, and the status of the `PUT` is not looked at. -/

namespace WorkTicket.Mobile.Uploads

open WorkTicket.Transition WorkTicket.Mobile.OfflineQueue

/-- No upload succeeds twice, and only one that has succeeded is marked completed. -/
def SucceedsOnce (s : World) : Prop :=
  ∀ r ∈ s.queue.rows, s.succeeded r.id ≤ 1 ∧ (r.status = .completed → s.succeeded r.id = 1)

/-- A call selects no row that an attempt is working on, a `PUT` that was not answered with a 2xx
status is not confirmed, and nothing comes between a confirm call that has succeeded and the
`UPDATE` that marks the row, neither its failure nor the end of the app. -/
def KeepsApart (s : World) : Event → Prop
  | .select _ authenticated checkFails read =>
      (checkFails = true ∨ authenticated = true) → s.database = .opened → read = true →
        ∀ a ∈ s.attempts, a.id ∉ s.queue.eligible
  | .answer k a => ∀ attempt ∈ s.attempts[k]?,
      (attempt.stage = .confirm false → a = .rejected) ∧
        ∀ put2xx, attempt.stage = .markComplete put2xx → a ≠ .rejected
  | .appStart => ∀ a ∈ s.attempts, ∀ put2xx, a.stage ≠ .markComplete put2xx
  | _ => True

/-! ## The rows and the attempts on them -/

/-- An attempt on the row has been confirmed and marks it now. -/
def Marking (attempts : List Attempt) (id : ℕ) : Prop :=
  ∃ a ∈ attempts, a.id = id ∧ a.stage = .markComplete true

/-- A row has succeeded if it is completed, then no attempt works on it, or is being marked. -/
structure Inv (s : World) : Prop where
  apart : (s.attempts.map Attempt.id).Nodup
  known : ∀ a ∈ s.attempts, a.id ∈ s.queue.ids
  put2xx : ∀ a ∈ s.attempts, a.stage ≠ .markComplete false
  unknown : ∀ id ∉ s.queue.ids, s.succeeded id = 0
  completed : ∀ r ∈ s.queue.rows, r.status = .completed →
    s.succeeded r.id = 1 ∧ ∀ a ∈ s.attempts, a.id ≠ r.id
  marking : ∀ r ∈ s.queue.rows, r.status ≠ .completed → Marking s.attempts r.id →
    s.succeeded r.id = 1
  untouched : ∀ r ∈ s.queue.rows, r.status ≠ .completed → ¬Marking s.attempts r.id →
    s.succeeded r.id = 0

section
variable {s s' : World} {q : Queue} {id : ℕ}

theorem Inv.succeedsOnce (h : Inv s) : SucceedsOnce s := by
  intro r hr
  by_cases hcompleted : r.status = .completed
  · have hone := (h.completed r hr hcompleted).1
    exact ⟨hone.le, fun _ => hone⟩
  · refine ⟨?_, fun hdone => absurd hdone hcompleted⟩
    by_cases hmarking : Marking s.attempts r.id
    · exact (h.marking r hr hcompleted hmarking).le
    · exact (h.untouched r hr hcompleted hmarking).trans_le zero_le_one

theorem inv_start (q : Queue) : Inv (start q) where
  apart := List.nodup_nil
  known := fun _ ha => absurd ha List.not_mem_nil
  put2xx := fun _ ha => absurd ha List.not_mem_nil
  unknown := by
    intro id hid
    refine if_neg ?_
    rintro ⟨r, hr, rfl, -⟩
    exact hid (List.mem_map_of_mem hr)
  completed := fun r hr hcompleted =>
    ⟨if_pos ⟨r, hr, rfl, hcompleted⟩, fun _ ha => absurd ha List.not_mem_nil⟩
  marking := fun _ _ _ ⟨_, ha, _⟩ => absurd ha List.not_mem_nil
  untouched := by
    intro r hr hopen _
    refine if_neg ?_
    rintro ⟨r', hr', hid, hcompleted⟩
    have hsame : r' = r := List.inj_on_of_nodup_map q.distinct hr' hr hid
    exact hopen (hsame ▸ hcompleted)

/-- Only which attempts there are matters. -/
theorem Inv.of_perm (h : Inv s) {attempts : List Attempt} (hperm : s.attempts.Perm attempts) :
    Inv { s with attempts := attempts } := by
  have hmem : ∀ {a}, a ∈ attempts → a ∈ s.attempts := fun ha => hperm.mem_iff.mpr ha
  have hmarking : ∀ {id}, Marking attempts id ↔ Marking s.attempts id := by
    intro id
    simp only [Marking, hperm.mem_iff]
  exact {
    apart := (hperm.map _).nodup_iff.mp h.apart
    known := fun a ha => h.known a (hmem ha)
    put2xx := fun a ha => h.put2xx a (hmem ha)
    unknown := h.unknown
    completed := fun r hr hcompleted =>
      ⟨(h.completed r hr hcompleted).1, fun a ha => (h.completed r hr hcompleted).2 a (hmem ha)⟩
    marking := fun r hr hopen hm => h.marking r hr hopen (hmarking.mp hm)
    untouched := fun r hr hopen hm => h.untouched r hr hopen fun h => hm (hmarking.mpr h) }

theorem exists_row (hid : id ∈ q.ids) : ∃ r ∈ q.rows, r.id = id := List.mem_map.mp hid

/-! ## What an answer does -/

theorem marking_cons {a : Attempt} {rest : List Attempt} : Marking (a :: rest) id ↔
    (a.id = id ∧ a.stage = .markComplete true) ∨ Marking rest id := by
  simp [Marking]

theorem not_marking_of_apart {a : Attempt} {rest : List Attempt}
    (h : ((a :: rest).map Attempt.id).Nodup) : ¬Marking rest a.id := by
  rintro ⟨b, hb, hid, -⟩
  exact (List.nodup_cons.mp h).1 (hid ▸ List.mem_map_of_mem hb)

section
variable {a : Attempt} {rest : List Attempt}

/-- The row an attempt works on is not completed. -/
theorem Inv.not_completed (h : Inv { s with attempts := a :: rest }) {r : Row}
    (hr : r ∈ s.queue.rows) (hid : r.id = a.id) : r.status ≠ .completed := by
  intro hcompleted
  exact (h.completed r hr hcompleted).2 a List.mem_cons_self hid.symm

/-- Until it is confirmed, an attempt leaves its row without a success. -/
theorem Inv.succeeded_eq_zero (h : Inv { s with attempts := a :: rest })
    (hstage : a.stage ≠ .markComplete true) : s.succeeded a.id = 0 := by
  obtain ⟨r, hr, hid⟩ := exists_row (h.known a List.mem_cons_self)
  have hnot : ¬Marking (a :: rest) r.id := by
    rw [marking_cons, hid]
    rintro (⟨-, hmarks⟩ | hmarks)
    · exact hstage hmarks
    · exact not_marking_of_apart h.apart hmarks
  have huntouched := h.untouched r hr (h.not_completed hr hid) hnot
  exact hid ▸ huntouched

theorem Inv.known_restage (h : Inv { s with attempts := a :: rest }) (stage : Stage) :
    ∀ b ∈ { a with stage := stage } :: rest, b.id ∈ s.queue.ids := by
  intro b hb
  rcases List.mem_cons.mp hb with rfl | hb
  · exact h.known a List.mem_cons_self
  · exact h.known b (List.mem_cons_of_mem _ hb)

theorem Inv.advance (h : Inv { s with attempts := a :: rest })
    (hbefore : a.stage ≠ .markComplete true) {stage : Stage}
    (hafter : ∀ put2xx, stage ≠ .markComplete put2xx) :
    Inv { s with attempts := { a with stage := stage } :: rest } := by
  have hmarking : ∀ {id}, Marking ({ a with stage := stage } :: rest) id ↔
      Marking (a :: rest) id := by
    intro id
    simp [marking_cons, hafter, hbefore]
  exact {
    apart := h.apart
    known := h.known_restage _
    put2xx := by
      intro b hb
      rcases List.mem_cons.mp hb with rfl | hb
      · exact hafter false
      · exact h.put2xx b (List.mem_cons_of_mem _ hb)
    unknown := h.unknown
    completed := by
      intro r hr hcompleted
      obtain ⟨hone, hnone⟩ := h.completed r hr hcompleted
      refine ⟨hone, fun b hb => ?_⟩
      rcases List.mem_cons.mp hb with rfl | hb
      · exact hnone a List.mem_cons_self
      · exact hnone b (List.mem_cons_of_mem _ hb)
    marking := fun r hr hopen hm => h.marking r hr hopen (hmarking.mp hm)
    untouched := fun r hr hopen hm => h.untouched r hr hopen fun h => hm (hmarking.mpr h) }

/-- The confirm call of an attempt succeeds. -/
theorem Inv.confirm (h : Inv { s with attempts := a :: rest })
    (hbefore : a.stage ≠ .markComplete true) :
    Inv { s with
      attempts := { a with stage := .markComplete true } :: rest
      succeeded := Function.update s.succeeded a.id (s.succeeded a.id + 1) } := by
  have hzero := h.succeeded_eq_zero hbefore
  have hmarking : ∀ {id}, id ≠ a.id → (Marking ({ a with stage := .markComplete true } :: rest) id ↔
      Marking (a :: rest) id) := by
    intro id hne
    simp [marking_cons, hne.symm]
  exact {
    apart := h.apart
    known := h.known_restage _
    put2xx := by
      intro b hb
      rcases List.mem_cons.mp hb with rfl | hb
      · exact fun hfalse => nomatch hfalse
      · exact h.put2xx b (List.mem_cons_of_mem _ hb)
    unknown := by
      intro id hid
      have hne : id ≠ a.id := fun heq => hid (heq ▸ h.known a List.mem_cons_self)
      simpa [hne] using h.unknown id hid
    completed := by
      intro r hr hcompleted
      obtain ⟨hone, hnone⟩ := h.completed r hr hcompleted
      have hne : r.id ≠ a.id := (hnone a List.mem_cons_self).symm
      refine ⟨by simpa [hne] using hone, fun b hb => ?_⟩
      rcases List.mem_cons.mp hb with rfl | hb
      · exact hne.symm
      · exact hnone b (List.mem_cons_of_mem _ hb)
    marking := by
      intro r hr hopen hm
      by_cases hid : r.id = a.id
      · simp [hid, hzero]
      · simpa [hid] using h.marking r hr hopen ((hmarking hid).mp hm)
    untouched := by
      intro r hr hopen hm
      have hid : r.id ≠ a.id := by
        intro hid
        exact hm ⟨_, List.mem_cons_self, hid.symm, rfl⟩
      simpa [hid] using h.untouched r hr hopen fun h => hm ((hmarking hid).mpr h) }

/-- An attempt leaves. Its row is completed just when its confirm call has succeeded. -/
theorem Inv.leave (h : Inv { s with attempts := a :: rest }) {q : Queue}
    (hids : q.ids = s.queue.ids)
    (hrow : ∀ r ∈ q.rows, (r ∈ s.queue.rows ∧ r.id ≠ a.id) ∨
      (r.id = a.id ∧ s.succeeded a.id = if r.status = .completed then 1 else 0)) :
    Inv { s with queue := q, attempts := rest } := by
  have hapart := List.nodup_cons.mp h.apart
  have hmarking : ∀ {id}, id ≠ a.id → (Marking rest id ↔ Marking (a :: rest) id) := by
    intro id hne
    simp [marking_cons, hne.symm]
  exact {
    apart := hapart.2
    known := fun b hb => hids ▸ h.known b (List.mem_cons_of_mem _ hb)
    put2xx := fun b hb => h.put2xx b (List.mem_cons_of_mem _ hb)
    unknown := fun id hid => h.unknown id (hids ▸ hid)
    completed := by
      intro r hr hcompleted
      rcases hrow r hr with ⟨hold, -⟩ | ⟨hid, hone⟩
      · obtain ⟨hone, hnone⟩ := h.completed r hold hcompleted
        exact ⟨hone, fun b hb => hnone b (List.mem_cons_of_mem _ hb)⟩
      · rw [if_pos hcompleted] at hone
        refine ⟨hid ▸ hone, fun b hb heq => hapart.1 ?_⟩
        rw [← hid, ← heq]
        exact List.mem_map_of_mem hb
    marking := by
      intro r hr hopen hm
      rcases hrow r hr with ⟨hold, hne⟩ | ⟨hid, -⟩
      · exact h.marking r hold hopen ((hmarking hne).mp hm)
      · exact absurd (hid ▸ hm) (not_marking_of_apart h.apart)
    untouched := by
      intro r hr hopen hm
      rcases hrow r hr with ⟨hold, hne⟩ | ⟨hid, hzero⟩
      · exact h.untouched r hold hopen fun h => hm ((hmarking hne).mpr h)
      · rw [if_neg hopen] at hzero
        exact hid ▸ hzero }

/-- An attempt settles and leaves its row as it is, or with a failure more. -/
theorem Inv.settle (h : Inv { s with attempts := a :: rest })
    (hbefore : a.stage ≠ .markComplete true) {q : Queue}
    (hq : q = s.queue ∨ q = s.queue.markFailed a.id) :
    Inv { s with queue := q, attempts := rest } := by
  have hzero := h.succeeded_eq_zero hbefore
  have hids : q.ids = s.queue.ids := by
    rcases hq with rfl | rfl
    · rfl
    · exact Queue.ids_update _ _
  refine h.leave hids fun r hr => ?_
  by_cases hid : r.id = a.id
  · -- the row stays open
    have hopen : r.status ≠ .completed := by
      rcases hq with rfl | rfl
      · exact h.not_completed hr hid
      · rcases Queue.mem_update hr with ⟨-, hne⟩ | ⟨r₀, -, -, rfl⟩
        · exact absurd hid hne
        · simp only [Row.fail]
          split <;> simp
    rw [if_neg hopen]
    exact .inr ⟨hid, hzero⟩
  · refine .inl ⟨?_, hid⟩
    rcases hq with rfl | rfl
    · exact hr
    · rcases Queue.mem_update hr with ⟨hold, -⟩ | ⟨r₀, -, hid₀, rfl⟩
      · exact hold
      · exact absurd hid₀ hid

/-- An attempt that has succeeded marks its row. -/
theorem Inv.complete (h : Inv { s with attempts := a :: rest })
    (hstage : a.stage = .markComplete true) :
    Inv { s with queue := s.queue.markComplete a.id, attempts := rest } := by
  have hone : s.succeeded a.id = 1 := by
    obtain ⟨r, hr, hid⟩ := exists_row (h.known a List.mem_cons_self)
    have hmarks : Marking (a :: rest) r.id := ⟨a, List.mem_cons_self, hid.symm, hstage⟩
    exact hid ▸ h.marking r hr (h.not_completed hr hid) hmarks
  refine h.leave (Queue.ids_update _ _) fun r hr => ?_
  rcases Queue.mem_update hr with hold | ⟨r₀, -, hid, rfl⟩
  · exact .inl hold
  · exact .inr ⟨hid, hone⟩

end

theorem Inv.answer (h : Inv s) {k : ℕ} {a : Attempt} (hk : s.attempts[k]? = some a)
    (hqueued : a.stage ≠ .queued) {answer : Answer}
    (hok : KeepsApart s (.answer k answer)) : Inv (s.answer k a answer) := by
  obtain ⟨rest, hperm, hset, herase⟩ := exists_rest hk
  have hrest := h.of_perm hperm
  have hput : a.stage ≠ .markComplete false := hrest.put2xx a List.mem_cons_self
  obtain ⟨hconfirm, hmark⟩ := hok a hk
  obtain ⟨call, id, stage⟩ := a
  have hgo : ∀ next, stage ≠ .markComplete true → (∀ put2xx, next ≠ .markComplete put2xx) →
      Inv { s with attempts := s.attempts.set k ⟨call, id, next⟩ } := fun next hbefore hafter =>
    (hrest.advance hbefore hafter).of_perm (hset _).symm
  have hend : ∀ q, stage ≠ .markComplete true → (q = s.queue ∨ q = s.queue.markFailed id) →
      Inv { s with queue := q, attempts := s.attempts.eraseIdx k } := fun q hbefore hq =>
    (hrest.settle hbefore hq).of_perm herase.symm
  cases stage with
  | queued => exact absurd rfl hqueued
  | getInfo =>
    cases answer with
    | resolved good => cases good <;> exact hgo _ (by simp) (by simp)
    | rejected => exact hgo _ (by simp) (by simp)
  | getUploadUrl => cases answer <;> exact hgo _ (by simp) (by simp)
  | put => cases answer <;> exact hgo _ (by simp) (by simp)
  | confirm put2xx =>
    cases answer with
    | rejected => cases put2xx <;> exact hgo _ (by simp) (by simp)
    | resolved good =>
      cases put2xx with
      | false => cases hconfirm rfl
      | true => exact (hrest.confirm (by simp)).of_perm (hset _).symm
  | markComplete put2xx =>
    cases put2xx with
    | false => exact absurd rfl hput
    | true =>
      cases answer with
      | rejected => exact absurd rfl (hmark true rfl)
      | resolved good => exact (hrest.complete rfl).of_perm herase.symm
  | markFailed inTry =>
    cases answer with
    | resolved good => exact hend _ (by simp) (.inr rfl)
    | rejected =>
      cases inTry with
      | true => exact hgo _ (by simp) (by simp)
      | false => exact hend _ (by simp) (.inl rfl)

/-! ## The other steps -/

theorem Inv.congr (h : Inv s) (hqueue : s'.queue = s.queue) (hattempts : s'.attempts = s.attempts)
    (hsucceeded : s'.succeeded = s.succeeded) : Inv s' := by
  obtain ⟨_, _, _, _, _, _, _⟩ := s
  obtain ⟨_, _, _, _, _, _, _⟩ := s'
  cases hqueue
  cases hattempts
  cases hsucceeded
  exact ⟨h.apart, h.known, h.put2xx, h.unknown, h.completed, h.marking, h.untouched⟩

theorem nodup_eligible (q : Queue) : q.eligible.Nodup :=
  q.distinct.sublist (List.filter_sublist.map _)

/-- A call selects rows that no attempt works on. -/
theorem Inv.select (h : Inv s) (hapart : ∀ a ∈ s.attempts, a.id ∉ s.queue.eligible) (call : ℕ) :
    Inv { s with
      attempts := s.attempts ++ s.queue.eligible.map fun id => ⟨call, id, .queued⟩ } := by
  have hnew : ∀ a ∈ s.queue.eligible.map fun id => (⟨call, id, .queued⟩ : Attempt),
      a.stage = .queued ∧ a.id ∈ s.queue.eligible := by
    intro a ha
    obtain ⟨id, hid, rfl⟩ := List.mem_map.mp ha
    exact ⟨rfl, hid⟩
  have hmarking : ∀ {id}, Marking (s.attempts ++ s.queue.eligible.map
      fun id => ⟨call, id, .queued⟩) id ↔ Marking s.attempts id := by
    intro id
    simp [Marking, or_and_right, exists_or]
  exact {
    apart := by
      have hids : (s.queue.eligible.map fun id => (⟨call, id, .queued⟩ : Attempt)).map
          Attempt.id = s.queue.eligible := by
        rw [List.map_map]
        exact List.map_id _
      rw [List.map_append, hids, List.nodup_append]
      refine ⟨h.apart, nodup_eligible _, fun id hid id' hid' => ?_⟩
      obtain ⟨a, ha, rfl⟩ := List.mem_map.mp hid
      exact fun heq => hapart a ha (heq ▸ hid')
    known := by
      intro a ha
      rcases List.mem_append.mp ha with hold | ha
      · exact h.known a hold
      · exact (List.filter_sublist.map _).subset (hnew a ha).2
    put2xx := by
      intro a ha
      rcases List.mem_append.mp ha with hold | ha
      · exact h.put2xx a hold
      · rw [(hnew a ha).1]
        simp
    unknown := h.unknown
    completed := by
      intro r hr hcompleted
      obtain ⟨hone, hnone⟩ := h.completed r hr hcompleted
      refine ⟨hone, fun a ha hid => ?_⟩
      rcases List.mem_append.mp ha with hold | ha
      · exact hnone a hold hid
      · obtain ⟨r', hr', hid'⟩ := List.mem_map.mp (hnew a ha).2
        obtain ⟨hmem, heligible⟩ := List.mem_filter.mp hr'
        have hsame : r' = r :=
          List.inj_on_of_nodup_map s.queue.distinct hmem hr (hid'.trans hid)
        simp [Row.eligible, hsame, hcompleted] at heligible
    marking := fun r hr hopen hm => h.marking r hr hopen (hmarking.mp hm)
    untouched := fun r hr hopen hm => h.untouched r hr hopen fun h => hm (hmarking.mpr h) }

theorem ids_startBatch (call n : ℕ) (as : List Attempt) :
    (startBatch call n as).map Attempt.id = as.map Attempt.id := by
  induction as generalizing n with
  | nil => cases n <;> rfl
  | cons a as ih =>
    cases n with
    | zero => rfl
    | succ n =>
      unfold startBatch
      split <;> simp [ih]

theorem mem_startBatch {call n : ℕ} {as : List Attempt} {a : Attempt} (hqueued : a.stage ≠ .queued)
    (hinfo : a.stage ≠ .getInfo) : a ∈ startBatch call n as ↔ a ∈ as := by
  induction as generalizing n with
  | nil => cases n <;> rfl
  | cons b as ih =>
    cases n with
    | zero => rfl
    | succ n =>
      unfold startBatch
      split
      · rename_i hb
        have hstarted : a ≠ { b with stage := .getInfo } := by
          rintro rfl
          exact hinfo rfl
        have hwaiting : a ≠ b := by
          rintro rfl
          exact hqueued hb.2
        simp [ih, hstarted, hwaiting]
      · simp [ih]

theorem Inv.startBatch (h : Inv s) (call n : ℕ) :
    Inv { s with attempts := startBatch call n s.attempts } := by
  have hid : ∀ {a}, a ∈ OfflineQueue.startBatch call n s.attempts →
      ∃ b ∈ s.attempts, b.id = a.id := by
    intro a ha
    have hmem := List.mem_map_of_mem (f := Attempt.id) ha
    rw [ids_startBatch] at hmem
    exact List.mem_map.mp hmem
  have hmarking : ∀ {id}, Marking (OfflineQueue.startBatch call n s.attempts) id ↔
      Marking s.attempts id := by
    intro id
    refine exists_congr fun a => ?_
    by_cases hstage : a.stage = .markComplete true
    · rw [mem_startBatch (by simp [hstage]) (by simp [hstage])]
    · simp [hstage]
  exact {
    apart := by
      rw [ids_startBatch]
      exact h.apart
    known := by
      intro a ha
      obtain ⟨b, hb, hsame⟩ := hid ha
      exact hsame ▸ h.known b hb
    put2xx := by
      intro a ha hstage
      rw [mem_startBatch (by simp [hstage]) (by simp [hstage])] at ha
      exact h.put2xx a ha hstage
    unknown := h.unknown
    completed := by
      intro r hr hcompleted
      obtain ⟨hone, hnone⟩ := h.completed r hr hcompleted
      refine ⟨hone, fun a ha => ?_⟩
      obtain ⟨b, hb, hsame⟩ := hid ha
      exact hsame ▸ hnone b hb
    marking := fun r hr hopen hm => h.marking r hr hopen (hmarking.mp hm)
    untouched := fun r hr hopen hm => h.untouched r hr hopen fun h => hm (hmarking.mpr h) }

theorem Inv.enqueue (h : Inv s) : Inv { s with queue := s.queue.enqueue } := by
  have hids : s.queue.enqueue.ids = s.queue.ids ++ [s.queue.nextId] := by
    simp [Queue.ids, Queue.enqueue]
  have hrow : ∀ r ∈ s.queue.enqueue.rows, r ∈ s.queue.rows ∨
      (r.id = s.queue.nextId ∧ r.status ≠ .completed) := by
    intro r hr
    rcases List.mem_append.mp hr with hold | hnew
    · exact .inl hold
    · obtain rfl := List.mem_singleton.mp hnew
      exact .inr ⟨rfl, by simp⟩
  exact {
    apart := h.apart
    known := by
      intro a ha
      rw [hids]
      exact List.mem_append_left _ (h.known a ha)
    put2xx := h.put2xx
    unknown := by
      intro id hid
      rw [hids, List.mem_append, not_or] at hid
      exact h.unknown id hid.1
    completed := by
      intro r hr hcompleted
      rcases hrow r hr with hold | ⟨-, hopen⟩
      · exact h.completed r hold hcompleted
      · exact absurd hcompleted hopen
    marking := by
      intro r hr hopen hm
      rcases hrow r hr with hold | ⟨hid, -⟩
      · exact h.marking r hold hopen hm
      · obtain ⟨a, ha, hsame, -⟩ := hm
        have hknown := h.known a ha
        rw [hsame, hid] at hknown
        exact absurd hknown s.queue.nextId_not_mem
    untouched := by
      intro r hr hopen hm
      rcases hrow r hr with hold | ⟨hid, -⟩
      · exact h.untouched r hold hopen hm
      · rw [hid]
        exact h.unknown _ s.queue.nextId_not_mem }

theorem Inv.appStart (h : Inv s) (hnone : ∀ a ∈ s.attempts, ∀ put2xx,
    a.stage ≠ .markComplete put2xx) : Inv { s with attempts := [] } := by
  have hopen : ∀ id, ¬Marking s.attempts id := by
    rintro id ⟨a, ha, -, hstage⟩
    exact hnone a ha true hstage
  exact {
    apart := List.nodup_nil
    known := fun _ ha => absurd ha List.not_mem_nil
    put2xx := fun _ ha => absurd ha List.not_mem_nil
    unknown := h.unknown
    completed := fun r hr hcompleted =>
      ⟨(h.completed r hr hcompleted).1, fun _ ha => absurd ha List.not_mem_nil⟩
    marking := fun _ _ _ ⟨_, ha, _⟩ => absurd ha List.not_mem_nil
    untouched := fun r hr hnot _ => h.untouched r hr hnot (hopen r.id) }

theorem inv_step {e : Event} (h : Inv s) (hok : KeepsApart s e) (hs : step s e = some s') :
    Inv s' := by
  cases e with
  | appStart =>
    cases hs
    exact (h.appStart hok).congr rfl rfl rfl
  | openDatabase opens =>
    obtain ⟨-, hopened⟩ := Option.ite_none_right_eq_some.mp hs
    cases hopened
    exact h.congr rfl rfl rfl
  | enqueueUpload =>
    obtain ⟨-, hadded⟩ := Option.ite_none_right_eq_some.mp hs
    cases hadded
    exact h.enqueue
  | processQueue call online authenticated =>
    obtain ⟨-, hbegun⟩ := Option.ite_none_right_eq_some.mp hs
    cases hbegun
    unfold World.processQueue
    split <;> exact h.congr rfl rfl rfl
  | select call authenticated checkFails read =>
    obtain ⟨-, hselected⟩ := Option.ite_none_right_eq_some.mp hs
    cases hselected
    unfold World.select
    split
    · exact h.congr rfl rfl rfl
    · rename_i hloggedIn
      split
      · rename_i hopen
        have hgoes : checkFails = true ∨ authenticated = true := by
          cases checkFails <;> cases authenticated <;> simp at hloggedIn ⊢
        exact (h.select (hok hgoes hopen.1 hopen.2) call).congr rfl rfl rfl
      · exact h.congr rfl rfl rfl
  | nextBatch call =>
    simp only [step] at hs
    split at hs
    · obtain ⟨-, hstarted⟩ := Option.ite_none_right_eq_some.mp hs
      cases hstarted
      exact (h.startBatch call _).congr rfl rfl rfl
    · cases hs
  | answer k answer =>
    simp only [step] at hs
    split at hs
    · rename_i a hk
      obtain ⟨hqueued, hanswered⟩ := Option.ite_none_left_eq_some.mp hs
      cases hanswered
      exact h.answer hk hqueued hok
    · cases hs
  | endLoop call =>
    simp only [step] at hs
    split at hs
    · obtain ⟨-, hended⟩ := Option.ite_none_right_eq_some.mp hs
      cases hended
      exact h.congr rfl rfl rfl
    · cases hs
  | finish call analytics =>
    simp only [step] at hs
    split at hs
    · cases hs
      exact h.congr rfl rfl rfl
    · cases hs

/-- For every queue and every interleaving of calls and answers: as long as the calls keep their
rows apart, every upload succeeds at most once, and a row is completed only by its success. -/
theorem succeedsOnce_of_reachedBy {q : Queue} (h : ReachedBy step KeepsApart (start q) s) :
    SucceedsOnce s :=
  (h.invariant (inv_start q) fun _ _ _ h hok hs => inv_step h hok hs).succeedsOnce

end

instance (s : World) : (e : Event) → Decidable (KeepsApart s e)
  | .appStart => inferInstanceAs (Decidable (∀ a ∈ s.attempts, ∀ _ : Bool, _))
  | .select .. => inferInstanceAs (Decidable (_ → _ → _ → _))
  | .answer k _ => inferInstanceAs (Decidable (∀ a ∈ s.attempts[k]?, _ ∧ ∀ _ : Bool, _))
  | .openDatabase _ | .enqueueUpload | .processQueue .. | .nextBatch _ | .endLoop _ | .finish .. =>
    .isTrue trivial

def onePending : Queue := ⟨[⟨1, .pending, 0⟩], by decide⟩

def upload (call : ℕ) (put2xx : Bool) : List Event :=
  [.processQueue call true true, .select call true false true, .nextBatch call,
    .answer 0 (.resolved true), .answer 0 (.resolved true), .answer 0 (.resolved put2xx),
    .answer 0 (.resolved true), .answer 0 (.resolved true), .endLoop call, .finish call true]

/-- Of two calls one after the other the second finds nothing to upload. -/
theorem succeedsOnce_two_calls :
    SucceedsOnce ((runWhile step KeepsApart (start onePending)
      (.openDatabase true :: upload 0 true ++ [.processQueue 1 true true, .select 1 true false true,
        .endLoop 1, .finish 1 true])).get (by decide)) :=
  succeedsOnce_of_reachedBy (ReachedBy.of_runWhile (Option.some_get _).symm)

def afterRefusal : World :=
  (run step (start onePending) (.openDatabase true :: upload 0 false)).get (by decide)

/-- The storage refuses the upload, and the row is marked completed. -/
theorem refused_put_completes : ¬∀ q s, Reached step (start q) s → SucceedsOnce s := by
  intro h
  have hrows : afterRefusal.queue.rows = [⟨1, .completed, 0⟩] := by decide
  have hnone : afterRefusal.succeeded 1 = 0 := by decide
  have hreached : Reached step (start onePending) afterRefusal :=
    Reached.of_run (Option.some_get _).symm
  have hone := (h onePending afterRefusal hreached _ (hrows ▸ List.mem_singleton_self _)).2 rfl
  rw [hnone] at hone
  exact absurd hone zero_ne_one

end WorkTicket.Mobile.Uploads
