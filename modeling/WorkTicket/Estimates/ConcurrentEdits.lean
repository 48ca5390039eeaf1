import WorkTicket.Estimates.Arithmetic
import WorkTicket.Foundation.RowSessions
import WorkTicket.Foundation.Transition

/-! The requests of several sessions on one estimate: each reads the row and judges its
status, and writes its changed columns when others may have gone on. -/

namespace WorkTicket.Estimates.ConcurrentEdits

open WorkTicket.Billing (Time)
open WorkTicket.Fallible WorkTicket.Transition WorkTicket.RowSessions
open WorkTicket.Estimates.Arithmetic

structure Content where
  lineItems : List LineItem
  subtotal : ℚ
  tax : ℚ
  total : ℚ
  deriving DecidableEq, Repr

def content (e : Estimate) : Content := ⟨e.lineItems, e.subtotal, e.tax, e.total⟩

/-- What was approved, and whether a human had reviewed it by then. -/
structure Approval where
  content : Content
  reviewed : Bool
  deriving DecidableEq, Repr

/-- An estimate with its last approval; no request reads `approval` or `reviewed`. -/
structure Tracked where
  estimate : Estimate
  approval : Option Approval
  reviewed : Bool
  deriving DecidableEq, Repr

/-! ## The requests -/

inductive Act
  | review (now : Time)
  | approve (now : Time)
  | send (now : Time)
  | reopen
  | update (newId : ℕ → ℕ) (req : EstimateUpdateRequest)

def Act.apply (e : Estimate) : Act → Except Failure Estimate
  | .review now => reviewAiEstimate now e
  | .approve now => approveEstimate now e
  | .send now => sendEstimate now e
  | .reopen => reopenEstimate e
  | .update newId req => updateEstimate newId req e

def numericColumn (old new row : ℚ) : ℚ := if new = old then row else storeNumeric new

/-- The items that the session has read are deleted, those of another session stay. -/
def mergeItems (old new row : List LineItem) : List LineItem :=
  if new = old then row else row.filter (fun li => li.id ∉ old.map LineItem.id) ++ new

/-- The flush of an estimate whose copy went from `old` to `new`. -/
def mergeEstimate (old new row : Estimate) : Estimate where
  status := column old.status new.status row.status
  title := column old.title new.title row.title
  description := column old.description new.description row.description
  notes := column old.notes new.notes row.notes
  subtotal := numericColumn old.subtotal new.subtotal row.subtotal
  tax := numericColumn old.tax new.tax row.tax
  total := numericColumn old.total new.total row.total
  aiGenerated := column old.aiGenerated new.aiGenerated row.aiGenerated
  approvedAt := column old.approvedAt new.approvedAt row.approvedAt
  sentAt := column old.sentAt new.sentAt row.sentAt
  lineItems := mergeItems old.lineItems new.lineItems row.lineItems

def mergeTracked (a : Act) (old new row : Tracked) : Tracked :=
  let estimate := mergeEstimate old.estimate new.estimate row.estimate
  match a with
  | .review _ => ⟨estimate, row.approval, true⟩
  | .approve _ => ⟨estimate, some ⟨content estimate, row.reviewed⟩, row.reviewed⟩
  | _ => ⟨estimate, row.approval, row.reviewed⟩

inductive Event (ι : Type*)
  | read (i : ι)
  | readItems (i : ι)
  | write (i : ι) (a : Act)
  | fail (i : ι)

section
variable {ι : Type*} [DecidableEq ι]

/-- A request reads the row, an update also its items later, and then it writes and commits.
Nobody sees a flush before the commit, and the row that an UPDATE has found stays locked
until then, so a flush and its commit are one step. -/
def step (s : Shared ι Tracked) : Event ι → Option (Shared ι Tracked)
  | .read i => some (s.load i)
  | .readItems i => some (s.fill i fun old row =>
      { old with estimate := { old.estimate with lineItems := row.estimate.lineItems } })
  | .write i a =>
    match a.apply (s.view i).estimate with
    | .ok e => some (s.finish i (mergeTracked a) { s.view i with estimate := e })
    | .error _ => some (s.rollback i)
  | .fail i => some (s.rollback i)

def begin (e : Estimate) : Shared ι Tracked := start ⟨e.stored, none, false⟩

/-- A sent estimate has the content of its last approval. Every estimate is one of the AI at
first, so its review came before. -/
def SentAsApproved (t : Tracked) : Prop :=
  t.estimate.status = .sent → t.approval = some ⟨content t.estimate, true⟩

def released (status : EstimateStatus) : Bool := status = .approved || status = .sent

def touches (req : EstimateUpdateRequest) : Bool :=
  req.subtotal.isSome || req.tax.isSome || req.total.isSome || req.lineItems.isSome

/-- An update that read `in_review` does not touch the content of an estimate that has been
approved meanwhile, and one that was read as approved is not sent after a reopening. -/
def InOrder (s : Shared ι Tracked) : Event ι → Bool
  | .write i (.update _ req) =>
    (s.view i).estimate.status ≠ .inReview || !released s.row.estimate.status || !touches req
  | .write i (.send _) =>
    (s.view i).estimate.status ≠ .approved || released s.row.estimate.status
  | _ => true

end

/-! ## What a request does to the copy -/

theorem update_ok {newId : ℕ → ℕ} {req : EstimateUpdateRequest} {e e' : Estimate}
    (h : updateEstimate newId req e = .ok e') :
    (e.status = .draft ∨ e.status = .inReview) ∧ e'.status = .inReview ∧
      (touches req = false → SameAmounts e e') := by
  simp only [updateEstimate, bind_eq_ok] at h
  obtain ⟨_, -, _, hedit, h⟩ := h
  cases h
  have hstatus : e.status = .draft ∨ e.status = .inReview := by
    simpa using require_eq_ok.mp hedit
  have hkept : (updateAmounts newId req { e with
      title := req.title <|> e.title
      description := req.description <|> e.description
      notes := req.notes <|> e.notes }).status = e.status := by
    unfold updateAmounts
    split <;> rfl
  refine ⟨hstatus, ?_, fun htouch => ?_⟩
  · simp only [hkept]
    obtain hdraft | hreview := hstatus
    · rw [if_pos hdraft]
    · rw [hreview]
      rfl
  · simp only [touches, Bool.or_eq_false_iff, Option.isSome_eq_false_iff, Option.isNone_iff_eq_none]
      at htouch
    obtain ⟨⟨⟨hsubtotal, htax⟩, htotal⟩, hitems⟩ := htouch
    simp [SameAmounts, updateAmounts, hsubtotal, htax, htotal, hitems]

/-- What `e'` can be to the copy `e`, request by request. -/
def Changes (e e' : Estimate) : Act → Prop
  | .review _ => e'.status = .draft ∧ e.status = .aiPending ∧ SameAmounts e e'
  | .approve _ => e'.status = .approved ∧ (e.status = .draft ∨ e.status = .inReview) ∧
      SameAmounts e e'
  | .send _ => e'.status = .sent ∧ e.status = .approved ∧ SameAmounts e e'
  | .reopen => e'.status = .inReview ∧ (e.status = .sent ∨ e.status = .rejected) ∧ SameAmounts e e'
  | .update _ req => e'.status = .inReview ∧ (e.status = .draft ∨ e.status = .inReview) ∧
      (touches req = false → SameAmounts e e')

theorem apply_changes {a : Act} {e e' : Estimate} (h : a.apply e = .ok e') : Changes e e' a := by
  cases a with
  | review now =>
    have hsame := review_sameAmounts h
    obtain ⟨_, hstatus, h⟩ := bind_eq_ok.mp h
    obtain ⟨_, -, h⟩ := bind_eq_ok.mp h
    obtain ⟨-, rfl⟩ := transitionOr_eq_ok h
    exact ⟨rfl, of_decide_eq_true (require_eq_ok.mp hstatus), hsame⟩
  | approve now =>
    have hsame := transitionOr_sameAmounts h
    obtain ⟨hvalid, rfl⟩ := transitionOr_eq_ok h
    refine ⟨rfl, ?_, hsame⟩
    revert hvalid
    cases e.status <;> decide
  | send now =>
    have hsame := send_sameAmounts h
    obtain ⟨_, hstatus, h⟩ := bind_eq_ok.mp h
    obtain ⟨-, rfl⟩ := transitionOr_eq_ok h
    exact ⟨rfl, of_decide_eq_true (require_eq_ok.mp hstatus), hsame⟩
  | reopen =>
    have hsame := reopen_sameAmounts h
    obtain ⟨_, hstatus, h⟩ := bind_eq_ok.mp h
    cases h
    exact ⟨rfl, by simpa using require_eq_ok.mp hstatus, hsame⟩
  | update newId req =>
    obtain ⟨hstatus, hnew, hsame⟩ := update_ok h
    exact ⟨hnew, hstatus, hsame⟩

/-! ## What a flush does to the row -/

theorem column_ne {α : Type*} [DecidableEq α] {old new : α} (h : new ≠ old) (row : α) :
    column old new row = new := if_neg h

theorem content_merge {old new row : Estimate} (h : SameAmounts old new) :
    content (mergeEstimate old new row) = content row := by
  obtain ⟨hsubtotal, htax, htotal, hitems⟩ := h
  simp [content, mergeEstimate, numericColumn, mergeItems, hsubtotal, htax, htotal, hitems]

structure Sound (t : Tracked) : Prop where
  released : released t.estimate.status = true → t.approval = some ⟨content t.estimate, true⟩
  reviewed : t.estimate.status ≠ .aiPending → t.reviewed = true

/-- A copy beyond `ai_pending` tells that the row has been reviewed. -/
def Bears (c row : Tracked) : Prop := c.estimate.status ≠ .aiPending → row.reviewed = true

theorem Sound.sentAsApproved {t : Tracked} (h : Sound t) : SentAsApproved t :=
  fun hsent => h.released (by rw [hsent]; rfl)

theorem Sound.bears {t : Tracked} (h : Sound t) : Bears t t := h.reviewed

theorem Bears.merge {c row : Tracked} (h : Bears c row) (a : Act) (old new : Tracked) :
    Bears c (mergeTracked a old new row) := by
  intro hstatus
  cases a with
  | review now => rfl
  | _ => exact h hstatus

/-- A row taken to a status that is not released needs no approval. -/
theorem Sound.of_status {t : Tracked} {status : EstimateStatus} (h : t.estimate.status = status)
    (hstatus : ConcurrentEdits.released status = false) (hreviewed : t.reviewed = true) : Sound t where
  released := fun hreleased => by
    rw [h, hstatus] at hreleased
    cases hreleased
  reviewed := fun _ => hreviewed

section
variable {ι : Type*} [DecidableEq ι] {s s' : Shared ι Tracked} {i : ι} {e : Estimate}

theorem sound_update {newId : ℕ → ℕ} {req : EstimateUpdateRequest} {old new row : Tracked}
    (h : Sound row) (hbears : Bears old row)
    (hchanges : Changes old.estimate new.estimate (.update newId req))
    (hok : old.estimate.status ≠ .inReview ∨ ConcurrentEdits.released row.estimate.status = false ∨
      touches req = false) :
    Sound (mergeTracked (.update newId req) old new row) := by
  obtain ⟨hnew, hold, hsame⟩ := hchanges
  have hreviewed : row.reviewed = true := hbears (by rcases hold with h | h <;> rw [h] <;> decide)
  by_cases hread : old.estimate.status = .inReview
  · -- the status column is not written, so the row keeps the status another session gave it
    have hstatus : (mergeEstimate old.estimate new.estimate row.estimate).status =
        row.estimate.status := if_pos (hnew.trans hread.symm)
    obtain hnot | hfree | huntouched := hok
    · exact absurd hread hnot
    · exact Sound.of_status hstatus hfree hreviewed
    · refine ⟨fun hreleased => ?_, fun _ => hreviewed⟩
      have hcontent : content (mergeEstimate old.estimate new.estimate row.estimate) =
          content row.estimate := content_merge (hsame huntouched)
      rw [show (mergeTracked (.update newId req) old new row).estimate.status = _ from hstatus]
        at hreleased
      exact (h.released hreleased).trans (by rw [← hcontent]; rfl)
  · -- a copy that was read as a draft writes the status, which takes the row out of release
    have hne : new.estimate.status ≠ old.estimate.status := fun heq => hread (heq ▸ hnew)
    exact Sound.of_status ((column_ne hne _).trans hnew) rfl hreviewed

theorem sound_send {now : Time} {old new row : Tracked} (h : Sound row)
    (hchanges : Changes old.estimate new.estimate (.send now))
    (hok : old.estimate.status ≠ .approved ∨ ConcurrentEdits.released row.estimate.status = true) :
    Sound (mergeTracked (.send now) old new row) := by
  obtain ⟨hnew, hold, hsame⟩ := hchanges
  obtain hnot | hreleased := hok
  · exact absurd hold hnot
  · have happroval := h.released hreleased
    have hreviewed : row.reviewed = true := h.reviewed fun hpending => by
      rw [hpending] at hreleased
      cases hreleased
    exact ⟨fun _ => happroval.trans (by rw [← content_merge hsame]; rfl), fun _ => hreviewed⟩

theorem sound_approve {now : Time} {old new row : Tracked} (hbears : Bears old row)
    (hchanges : Changes old.estimate new.estimate (.approve now)) :
    Sound (mergeTracked (.approve now) old new row) := by
  obtain ⟨-, hold, -⟩ := hchanges
  have hreviewed : row.reviewed = true := hbears (by rcases hold with h | h <;> rw [h] <;> decide)
  exact ⟨fun _ => by simp only [mergeTracked, hreviewed], fun _ => hreviewed⟩

theorem sound_write {a : Act} {e : Estimate} (h : Sound s.row)
    (hbears : Bears (s.view i) s.row) (happly : a.apply (s.view i).estimate = .ok e)
    (hok : InOrder s (.write i a) = true) :
    Sound (mergeTracked a (s.view i) { s.view i with estimate := e } s.row) := by
  have hchanges := apply_changes happly
  cases a with
  | review now =>
    obtain ⟨hnew, hold, -⟩ := hchanges
    have hne : e.status ≠ (s.view i).estimate.status := by
      rw [hnew, hold]
      decide
    exact Sound.of_status ((column_ne hne _).trans hnew) rfl rfl
  | approve now => exact sound_approve hbears hchanges
  | send now =>
    refine sound_send h hchanges ?_
    simpa [InOrder, Bool.or_eq_true, decide_eq_true_eq] using hok
  | reopen =>
    obtain ⟨hnew, hold, -⟩ := hchanges
    have hne : e.status ≠ (s.view i).estimate.status := by
      rw [hnew]
      rcases hold with h | h <;> rw [h] <;> decide
    have hreviewed : s.row.reviewed = true :=
      hbears (by rcases hold with h | h <;> rw [h] <;> decide)
    exact Sound.of_status ((column_ne hne _).trans hnew) rfl hreviewed
  | update newId req =>
    refine sound_update h hbears hchanges ?_
    simpa [InOrder, or_assoc] using hok

theorem settled_step {ev : Event ι} (h : Settled Sound Bears s) (hok : InOrder s ev = true)
    (hs : step s ev = some s') : Settled Sound Bears s' := by
  have hview : ∀ i, Bears (s.view i) s.row := fun i => h.view h.row.bears
  cases ev with
  | read i => exact Option.some.inj hs ▸ h.load h.row.bears
  | readItems i => exact Option.some.inj hs ▸ h.fill (hview i)
  | write i a =>
    simp only [step] at hs
    split at hs
    · rename_i e happly
      cases hs
      exact h.finish (sound_write h.row (hview i) happly hok) fun c hc => hc.merge a _ _
    · exact Option.some.inj hs ▸ h.rollback
  | fail i => exact Option.some.inj hs ▸ h.rollback

theorem newEstimate_aiPending {parse : String → Option ℚ} {newId : ℕ → ℕ} {jobDescription : String}
    {aiResult : Json} {e : Estimate} (h : newEstimate parse newId jobDescription aiResult = some e) :
    e.status = .aiPending := by
  simp only [newEstimate, Option.bind_eq_bind, Option.bind_eq_some_iff, Option.some.injEq] at h
  obtain ⟨_, -, _, -, _, -, _, -, rfl⟩ := h
  rfl

/-- Over an estimate of `generate_estimate`, in every interleaving whose edits and sendings
find the estimate where they read it, what is sent was approved. -/
theorem sentAsApproved_of_inOrder {parse : String → Option ℚ} {newId : ℕ → ℕ}
    {jobDescription : String} {aiResult : Json}
    (hnew : newEstimate parse newId jobDescription aiResult = some e)
    (h : ReachedBy step (fun s ev => InOrder s ev) (begin e) s) : SentAsApproved s.row := by
  have hpending : e.stored.status = .aiPending :=
    show e.status = .aiPending from newEstimate_aiPending hnew
  have hstart : Settled Sound Bears (begin e : Shared ι Tracked) := by
    refine settled_start ⟨fun hreleased => ?_, fun hne => absurd hpending hne⟩
    rw [hpending] at hreleased
    cases hreleased
  exact (h.invariant hstart fun _ _ _ hi hok hs => settled_step hi hok hs).row.sentAsApproved

end

/-! ## An edit that comes after the sending -/

def pump : Estimate := (newEstimate noText id "Fix the pump" answer).get (by decide +kernel)

def retitled : EstimateUpdateRequest := ⟨some "Pump", none, none, none, none, none, none⟩

/-- The estimate is reviewed and edited, and is now in review. -/
def inReview : List (Event ℕ) :=
  [.read 0, .write 0 (.review 5), .read 1, .readItems 1, .write 1 (.update id retitled)]

def approvedAndSent : List (Event ℕ) :=
  [.read 3, .write 3 (.approve 6), .read 4, .write 4 (.send 7)]

theorem sentAsApproved_pump : SentAsApproved ((runWhile step (fun s ev => InOrder s ev) (begin pump)
    (inReview ++ approvedAndSent)).get (by decide +kernel)).row :=
  sentAsApproved_of_inOrder (Option.some_get _).symm (ReachedBy.of_runWhile (Option.some_get _).symm)

/-- Session 2 reads the estimate in review, and writes when it has been approved and sent. -/
def editedAfter : Shared ℕ Tracked :=
  (run step (begin pump) (inReview ++ [.read 2, .readItems 2] ++ approvedAndSent ++
    [.write 2 (.update id hundred)])).get (by decide +kernel)

/-- What was approved was a subtotal of 50 dollars, what is sent has one of 100. -/
theorem editedAfter_not_sentAsApproved :
    Reached step (begin pump) editedAfter ∧ ¬ SentAsApproved editedAfter.row := by
  refine ⟨Reached.of_run (Option.some_get _).symm, fun h => ?_⟩
  have happroval := h (by decide +kernel)
  have happroved : editedAfter.row.approval.map (fun a => a.content.subtotal) = some 50 := by
    decide +kernel
  rw [happroval] at happroved
  exact absurd (Option.some.inj happroved) (by decide +kernel)

end WorkTicket.Estimates.ConcurrentEdits
