import WorkTicket.Foundation.RowSessions
import WorkTicket.Jobs.QuotedJobs

/-! The requests of several sessions on one quote: `approve_quote` looks at its confidence and
`send_quote` at its status, each in the copy that its session has read without a lock. -/

namespace WorkTicket.Jobs.QuoteStatus

open WorkTicket.Transition WorkTicket.Fallible WorkTicket.RowSessions
open WorkTicket.Billing (Time)
open WorkTicket.Jobs.QuotedJobs (Quote HttpError Analysis newQuote)

/-! ## The requests -/

/-- `stored_confidence is not None and stored_confidence < 0.3` -/
def lowConfidence (q : Quote) : Bool := q.lineItems.aiConfidence.any (· < 3 / 10)

/-- `approve_quote` once it has found the quote. -/
def approve (now : Time) (q : Quote) : Except HttpError Quote :=
  if lowConfidence q then
    .error (400, "AI analysis confidence was below threshold at quote generation time. " ++
      "Please regenerate the quote.")
  else .ok { q with status := .approved, approvedAt := some now }

/-- `send_quote` once it has found the quote. -/
def send (q : Quote) : Except HttpError Quote :=
  if q.status ≠ .approved then .error (400, "Quote must be approved before sending")
  else .ok { q with status := .sent }

theorem approveQuote_eq (quoteId : ℕ) (now : Time) (w : QuotedJobs.World) :
    QuotedJobs.approveQuote quoteId now w =
      w.find quoteId >>= fun q => approve now q >>= fun q' => .ok (w.replace q') := by
  refine congrArg _ (funext fun q => ?_)
  rw [approve, lowConfidence]
  split <;> rfl

theorem sendQuote_eq (quoteId : ℕ) (w : QuotedJobs.World) :
    QuotedJobs.sendQuote quoteId w =
      w.find quoteId >>= fun q => send q >>= fun q' => .ok (w.replace q') := by
  refine congrArg _ (funext fun q => ?_)
  rw [send]
  split <;> rfl

/-- The flush of a quote whose copy went from `old` to `new`. -/
def mergeQuote (old new row : Quote) : Quote :=
  { row with
    status := column old.status new.status row.status
    approvedAt := column old.approvedAt new.approvedAt row.approvedAt }

/-- A quote, the statuses it has had, the last one first, and how many requests have sent it. -/
structure History (ι : Type*) where
  quote : Shared ι Quote
  statuses : List QuotedJobs.QuoteStatus
  sends : ℕ

inductive Event (ι : Type*)
  | read (i : ι)
  | approve (i : ι) (now : Time)
  | send (i : ι)
  | fail (i : ι)

section
variable {ι : Type*} [DecidableEq ι]

def History.finish (s : History ι) (i : ι) (q : Quote) (sends : ℕ) : History ι :=
  let quote := s.quote.finish i mergeQuote q
  ⟨quote, quote.row.status :: s.statuses, sends⟩

def History.giveUp (s : History ι) (i : ι) : History ι := { s with quote := s.quote.rollback i }

/-- A request reads the quote, and then it judges its copy, writes and commits. Nobody sees a
flush before the commit, and the row that an UPDATE has found stays locked until then, so a
flush and its commit are one step. -/
def step (s : History ι) : Event ι → Option (History ι)
  | .read i => some { s with quote := s.quote.load i }
  | .approve i now =>
    match QuoteStatus.approve now (s.quote.view i) with
    | .ok q => some (s.finish i q s.sends)
    | .error _ => some (s.giveUp i)
  | .send i =>
    match QuoteStatus.send (s.quote.view i) with
    | .ok q => some (s.finish i q (s.sends + 1))
    | .error _ => some (s.giveUp i)
  | .fail i => some (s.giveUp i)

/-- The quote as `generate_quote` has made it. -/
def generated (id : ℕ) (hourlyRate : ℚ) (parsed : Analysis) : History ι :=
  ⟨start (newQuote id hourlyRate parsed), [.draft], 0⟩

end

/-! ## What a quote is to go through -/

def Moves (new old : QuotedJobs.QuoteStatus) : Prop :=
  new = old ∨ old = .draft ∧ new = .approved ∨ old = .approved ∧ new = .sent

/-- The status moves forward only, a step at a time, and one request at most has sent it. -/
structure Orderly {ι : Type*} (s : History ι) : Prop where
  moves : s.statuses.IsChain Moves
  once : s.sends ≤ 1

section
variable {ι : Type*} [DecidableEq ι]

/-- Once the quote is sent, no request writes its status: one that approves it has read it as
approved, or finds a low confidence, and one that sends it has read it as a draft or as sent. -/
def LeavesSent (s : History ι) : Event ι → Prop
  | .approve i _ => s.quote.row.status = .sent →
      (s.quote.view i).status = .approved ∨ lowConfidence (s.quote.view i) = true
  | .send i => s.quote.row.status = .sent → (s.quote.view i).status ≠ .approved
  | .read _ | .fail _ => True

end

/-! ## One request -/

theorem approve_eq_ok {now : Time} {q q' : Quote} (h : approve now q = .ok q') :
    lowConfidence q = false ∧ q'.status = .approved := by
  unfold approve at h
  split at h
  · cases h
  · rename_i hconfidence
    exact ⟨Bool.eq_false_iff.mpr hconfidence, Except.ok.inj h ▸ rfl⟩

theorem send_eq_ok {q q' : Quote} (h : send q = .ok q') :
    q.status = .approved ∧ q'.status = .sent := by
  unfold send at h
  split at h
  · cases h
  · rename_i hstatus
    exact ⟨not_not.mp hstatus, Except.ok.inj h ▸ rfl⟩

/-- A copy of a draft is one of a draft. -/
def Bears (c row : Quote) : Prop := row.status = .draft → c.status = .draft

structure Sound {ι : Type*} (s : History ι) : Prop extends Orderly s where
  settled : Settled (fun _ => True) Bears s.quote
  last : s.statuses.head? = some s.quote.row.status
  counted : s.sends = if s.quote.row.status = .sent then 1 else 0

theorem sound_generated {ι : Type*} (id : ℕ) (hourlyRate : ℚ) (parsed : Analysis) :
    Sound (generated id hourlyRate parsed : History ι) :=
  ⟨⟨.singleton _, Nat.zero_le _⟩, settled_start trivial, rfl, rfl⟩

theorem Sound.isChain_cons {ι : Type*} {s : History ι} (h : Sound s) {new : QuotedJobs.QuoteStatus} :
    (new :: s.statuses).IsChain Moves ↔ Moves new s.quote.row.status := by
  obtain ⟨rest, hrest⟩ := List.head?_eq_some_iff.mp h.last
  have hmoves := h.moves
  rw [hrest] at hmoves ⊢
  rw [List.isChain_cons_cons]
  exact and_iff_left hmoves

section
variable {ι : Type*} [DecidableEq ι] {s s' : History ι} {i : ι} {q : Quote}

theorem Sound.bears (h : Sound s) (i : ι) : Bears (s.quote.view i) s.quote.row :=
  h.settled.view id

theorem Sound.finish_status (h : Sound s) (i : ι) (q : Quote) (sends : ℕ) :
    (s.finish i q sends).quote.row.status =
      column (s.quote.view i).status q.status s.quote.row.status := by
  rw [History.finish, RowSessions.finish_row, h.settled.seen]
  rfl

/-- A flush that makes no draft, moves the status on and counts as a sending if it sends. -/
theorem Sound.finish (h : Sound s) {sends : ℕ} {status : QuotedJobs.QuoteStatus}
    (hstatus : column (s.quote.view i).status q.status s.quote.row.status = status)
    (hq : q.status ≠ .draft) (hmoves : Moves status s.quote.row.status)
    (hcount : sends = if status = .sent then 1 else 0) : Sound (s.finish i q sends) := by
  have hrow := (h.finish_status i q sends).trans hstatus
  have hcopies : ∀ c, Bears c s.quote.row →
      Bears c (mergeQuote (s.quote.view i) q s.quote.row) := by
    intro c hc hdraft
    obtain hkept | hnew := column_eq_or (s.quote.view i).status q.status s.quote.row.status
    · exact hc (hkept.symm.trans hdraft)
    · exact absurd (hnew.symm.trans hdraft) hq
  have hle : sends ≤ 1 := by
    rw [hcount]
    split <;> decide
  refine ⟨⟨?_, hle⟩, h.settled.finish trivial hcopies, rfl, ?_⟩
  · show ((s.finish i q sends).quote.row.status :: s.statuses).IsChain Moves
    rw [h.isChain_cons, hrow]
    exact hmoves
  · rw [hrow]
    exact hcount

theorem Sound.giveUp (h : Sound s) : Sound (s.giveUp i) :=
  ⟨⟨h.moves, h.once⟩, h.settled.rollback, h.last, h.counted⟩

theorem Sound.approve (h : Sound s) (hq : q.status = .approved)
    (hleaves : s.quote.row.status = .sent → (s.quote.view i).status = .approved) :
    Sound (s.finish i q s.sends) := by
  have hdraft : q.status ≠ .draft := by
    rw [hq]
    decide
  by_cases hcopy : (s.quote.view i).status = .approved
  · -- the status column is not written
    exact h.finish (if_pos (hq.trans hcopy.symm)) hdraft (.inl rfl) h.counted
  · have hunsent : s.quote.row.status ≠ .sent := fun hsent => hcopy (hleaves hsent)
    have hne : q.status ≠ (s.quote.view i).status := by
      rw [hq]
      exact Ne.symm hcopy
    refine h.finish ((if_neg hne).trans hq) hdraft ?_ ?_
    · cases hrow : s.quote.row.status with
      | draft => exact .inr (.inl ⟨rfl, rfl⟩)
      | approved => exact .inl rfl
      | sent => exact absurd hrow hunsent
    · rw [h.counted, if_neg hunsent]
      rfl

theorem Sound.send (h : Sound s) (hcopy : (s.quote.view i).status = .approved)
    (hq : q.status = .sent) (hleaves : s.quote.row.status ≠ .sent) :
    Sound (s.finish i q (s.sends + 1)) := by
  have hne : q.status ≠ (s.quote.view i).status := by
    rw [hq, hcopy]
    decide
  have hdraft : q.status ≠ .draft := by
    rw [hq]
    decide
  have hrow : s.quote.row.status = .approved := by
    cases hrow : s.quote.row.status with
    | draft =>
      have hcopied := h.bears i hrow
      rw [hcopy] at hcopied
      cases hcopied
    | approved => rfl
    | sent => exact absurd hrow hleaves
  refine h.finish ((if_neg hne).trans hq) hdraft ?_ ?_
  · rw [hrow]
    exact .inr (.inr ⟨rfl, rfl⟩)
  · rw [h.counted, hrow]
    rfl

theorem sound_step {ev : Event ι} (h : Sound s) (hleaves : LeavesSent s ev)
    (hs : step s ev = some s') : Sound s' := by
  cases ev with
  | read i =>
    cases hs
    exact ⟨⟨h.moves, h.once⟩, h.settled.load id, h.last, h.counted⟩
  | approve i now =>
    simp only [step] at hs
    split at hs
    · rename_i q happrove
      cases hs
      obtain ⟨hconfidence, hq⟩ := approve_eq_ok happrove
      refine h.approve hq fun hsent => ?_
      obtain happroved | hlow := hleaves hsent
      · exact happroved
      · rw [hconfidence] at hlow
        cases hlow
    · cases hs
      exact h.giveUp
  | send i =>
    simp only [step] at hs
    split at hs
    · rename_i q hsend
      cases hs
      obtain ⟨hcopy, hq⟩ := send_eq_ok hsend
      exact h.send hcopy hq fun hsent => hleaves hsent hcopy
    · cases hs
      exact h.giveUp
  | fail i =>
    cases hs
    exact h.giveUp

/-- A request that writes the status of a sent quote takes it back, or sends it again. -/
theorem leavesSent_of_orderly {ev : Event ι} (h : Sound s) (hs : step s ev = some s')
    (horderly : Orderly s') : LeavesSent s ev := by
  cases ev with
  | read i => trivial
  | fail i => trivial
  | approve i now =>
    intro hsent
    by_contra hnot
    obtain ⟨hcopy, hconfidence⟩ := not_or.mp hnot
    simp only [step] at hs
    split at hs
    · rename_i q happrove
      cases hs
      obtain ⟨-, hq⟩ := approve_eq_ok happrove
      have hne : q.status ≠ (s.quote.view i).status := by
        rw [hq]
        exact Ne.symm hcopy
      have hmoves : ((s.finish i q s.sends).quote.row.status :: s.statuses).IsChain Moves :=
        horderly.moves
      rw [h.isChain_cons, h.finish_status, column, if_neg hne, hq, hsent] at hmoves
      simp [Moves] at hmoves
    · rename_i e hrefused
      rw [approve, if_neg hconfidence] at hrefused
      cases hrefused
  | send i =>
    intro hsent hcopy
    have hsend : QuoteStatus.send (s.quote.view i) = .ok { s.quote.view i with status := .sent } :=
      if_neg (not_not.mpr hcopy)
    simp only [step, hsend] at hs
    cases hs
    have honce : s.sends + 1 ≤ 1 := horderly.once
    rw [h.counted, if_pos hsent] at honce
    exact absurd honce (by decide)

/-- Over a generated quote, in every interleaving: its status moves forward only and it is sent
once at most, exactly if no request writes the status of the quote when it is sent. -/
theorem orderly_iff (id : ℕ) (hourlyRate : ℚ) (parsed : Analysis) (es : List (Event ι)) :
    Along step Orderly (generated id hourlyRate parsed) es ↔
      EachStep step LeavesSent (generated id hourlyRate parsed) es :=
  along_iff_eachStep (fun _ h => h.toOrderly) (fun _ _ _ h hok hs => sound_step h hok hs)
    (fun _ _ _ h hs ho => leavesSent_of_orderly h hs ho) (sound_generated id hourlyRate parsed) es

end

/-! ## A quote that is approved again -/

def leak : Analysis := ⟨2, ["washer"], 9 / 10, false⟩

/-- Approved, sent, approved once more and sent once more, each request after the last. -/
def sentTwice : List (Event ℕ) :=
  [.approve 0 5, .send 1, .approve 2 6, .send 3]

theorem sentTwice_not_orderly : ¬Along step Orderly (generated 1 80 leak) sentTwice := by
  intro halong
  have hruns : (run step (generated 1 80 leak) sentTwice).any (fun s => s.sends = 2) = true := by
    decide +kernel
  obtain ⟨s, hs, hsends⟩ := (Option.any_eq_true _ _).mp hruns
  have honce := (halong.last hs).once
  rw [of_decide_eq_true hsends] at honce
  exact absurd honce (by decide)

end WorkTicket.Jobs.QuoteStatus
