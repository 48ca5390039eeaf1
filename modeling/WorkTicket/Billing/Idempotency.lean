import WorkTicket.Foundation.Transition

/-! Requests to process a job that carry one company's `Idempotency-Key`: the key's
record, which is unique for the company, the user and the key, the enqueued tasks and the
answers. Each request is one transaction, which a failure after any of its steps rolls
back; what it has enqueued stays enqueued. -/

namespace WorkTicket.Billing.Idempotency

open WorkTicket.Transition

structure Request where
  userId : String
  requestHash : String
  jobId : String
  deriving DecidableEq

structure Response where
  jobId : String
  status : String
  output : Option String
  deriving DecidableEq

/-- What `process_job` answers, and stores, for a job that it has enqueued. -/
def responsePayload (r : Request) : Response := ⟨r.jobId, "queued", none⟩

inductive RecordStatus
  | processing
  | completed
  | failed
  deriving DecidableEq

structure IdempotencyKey where
  requestHash : String
  status : RecordStatus
  responseJson : Option Response
  deriving DecidableEq

structure HTTPException where
  statusCode : ℕ
  detail : String
  deriving DecidableEq

/-- `get_idempotent_response` on the record that its SELECT found. -/
def getIdempotentResponse (requestHash : String) :
    Option IdempotencyKey → Except HTTPException (Option Response)
  | none => .ok none
  | some record =>
    if record.status = .processing then
      .error ⟨409, "Request is already being processed"⟩
    else if record.requestHash ≠ requestHash then
      .error ⟨422, "Idempotency-Key reused with different request body"⟩
    else .ok record.responseJson

def createIdempotencyRecord (requestHash : String) : IdempotencyKey :=
  ⟨requestHash, .processing, none⟩

def completeIdempotencyRecord (response : Response) (record : IdempotencyKey) : IdempotencyKey :=
  { record with status := .completed, responseJson := some response }

inductive Answer
  | success (response : Response)
  | failure (e : HTTPException)
  deriving DecidableEq

/-- How far a request is. From `claimed` to `completed` its transaction holds the record
that it has inserted. -/
inductive Stage
  | received
  | unclaimed
  | claimed (record : IdempotencyKey)
  | enqueued (record : IdempotencyKey)
  | completed (record : IdempotencyKey)
  | answered (a : Answer)
  deriving DecidableEq

def Stage.hasTask : Stage → Bool
  | .enqueued _ | .completed _ => true
  | .received | .unclaimed | .claimed _ | .answered _ => false

def Stage.holdsRecord : Stage → Bool
  | .claimed _ | .enqueued _ | .completed _ => true
  | .received | .unclaimed | .answered _ => false

def Stage.isAnswered : Stage → Bool
  | .answered _ => true
  | _ => false

/-- The committed record and the request holding an uncommitted one, for each user, and
the tasks that reached the broker. -/
structure World (ι : Type*) where
  records : String → Option IdempotencyKey
  claim : String → Option ι
  stage : ι → Stage
  tasks : List ι

inductive Event (ι : Type*)
  | check (i : ι)
  | create (i : ι)
  | enqueue (i : ι)
  | complete (i : ι)
  | commit (i : ι)
  | fail (i : ι) (e : HTTPException)

section
variable {ι : Type*} [DecidableEq ι] (request : ι → Request)

/-- The request `i` goes on to the stage `p`, and its transaction takes or gives up the
user's uncommitted record as the stages say. -/
def World.set (s : World ι) (i : ι) (p : Stage) : World ι :=
  { s with
    stage := Function.update s.stage i p
    claim := if p.holdsRecord then Function.update s.claim (request i).userId (some i)
      else if (s.stage i).holdsRecord then Function.update s.claim (request i).userId none
      else s.claim }

def World.fail (s : World ι) (i : ι) (e : HTTPException) : World ι :=
  s.set request i (.answered (.failure e))

def step (s : World ι) : Event ι → Option (World ι)
  | .check i =>
    match s.stage i with
    | .received =>
      match getIdempotentResponse (request i).requestHash (s.records (request i).userId) with
      | .error e => some (s.fail request i e)
      | .ok (some response) => some (s.set request i (.answered (.success response)))
      | .ok none => some (s.set request i .unclaimed)
    | _ => none
  | .create i =>
    match s.stage i, s.claim (request i).userId with
    | .unclaimed, none =>
      match s.records (request i).userId with
      -- the unique constraint fails the flush, and the SELECT that follows in the failed
      -- transaction raises in its turn
      | some _ => some (s.fail request i ⟨500, "Internal Server Error"⟩)
      | none =>
        some (s.set request i (.claimed (createIdempotencyRecord (request i).requestHash)))
    -- an INSERT waits for the transaction that has inserted the same key
    | _, _ => none
  | .enqueue i =>
    match s.stage i with
    | .claimed record => some { s.set request i (.enqueued record) with tasks := s.tasks ++ [i] }
    | _ => none
  | .complete i =>
    match s.stage i with
    | .enqueued record => some (s.set request i
        (.completed (completeIdempotencyRecord (responsePayload (request i)) record)))
    | _ => none
  | .commit i =>
    match s.stage i with
    | .completed record =>
      some { s.set request i (.answered (.success (responsePayload (request i)))) with
        records := Function.update s.records (request i).userId (some record) }
    | _ => none
  | .fail i e => if (s.stage i).isAnswered then none else some (s.fail request i e)

def start : World ι := ⟨fun _ => none, fun _ => none, fun _ => .received, []⟩

/-- Of the requests in `among` at most one has a task, and those answered with success
are answered with that task's response. -/
structure OneTask (among : ι → Bool) (s : World ι) : Prop where
  atMostOne : (s.tasks.filter among).length ≤ 1
  answers : ∀ i response, among i → s.stage i = .answered (.success response) →
    ∃ j ∈ s.tasks, among j ∧ response = responsePayload (request j)

/-- A request fails, if at all, before its task reaches the broker. -/
def FailsBeforeEnqueue (s : World ι) : Event ι → Bool
  | .fail i _ => !(s.stage i).hasTask
  | _ => true

def ofUser (userId : String) (i : ι) : Bool := (request i).userId = userId

end

/-! ## One task for each user -/

section
variable {ι : Type*} {request : ι → Request} {s s' : World ι} {i : ι}

/-- The user's tasks: the one that his committed record answers for, else the one of the
request that holds his record and has enqueued, else none. -/
def UserWell (request : ι → Request) (s : World ι) (u : String) : Prop :=
  match s.records u, s.claim u with
  | some record, none => ∃ j, s.tasks.filter (ofUser request u) = [j] ∧
      record.responseJson = some (responsePayload (request j))
  | some _, some _ => False
  | none, some i => s.tasks.filter (ofUser request u) = if (s.stage i).hasTask then [i] else []
  | none, none => s.tasks.filter (ofUser request u) = []

def StageWell (request : ι → Request) (tasks : List ι) (i : ι) : Stage → Prop
  | .completed record => record.responseJson = some (responsePayload (request i))
  | .answered (.success response) => ∃ j ∈ tasks,
      (request j).userId = (request i).userId ∧ response = responsePayload (request j)
  | _ => True

structure Inv (request : ι → Request) (s : World ι) : Prop where
  holder : ∀ u i, s.claim u = some i ↔ (request i).userId = u ∧ (s.stage i).holdsRecord
  user : ∀ u, UserWell request s u
  stage : ∀ i, StageWell request s.tasks i (s.stage i)

theorem inv_start : Inv request (start : World ι) where
  holder := fun u i => by simp [start, Stage.holdsRecord]
  user := fun u => rfl
  stage := fun i => trivial

theorem mem_ofUser {tasks : List ι} {u : String} {j : ι} :
    j ∈ tasks.filter (ofUser request u) ↔ j ∈ tasks ∧ (request j).userId = u := by
  simp [ofUser]

theorem UserWell.frame {u : String} (h : UserWell request s u) (hrecords : s'.records u = s.records u)
    (hclaim : s'.claim u = s.claim u)
    (htasks : s'.tasks.filter (ofUser request u) = s.tasks.filter (ofUser request u))
    (hstage : ∀ j, s.claim u = some j → s'.stage j = s.stage j) : UserWell request s' u := by
  unfold UserWell at h ⊢
  rw [hrecords, hclaim, htasks]
  cases hr : s.records u with
  | some record =>
    rw [hr] at h
    cases hc : s.claim u with
    | none => rwa [hc] at h
    | some j => rwa [hc] at h
  | none =>
    cases hc : s.claim u with
    | none => rwa [hr, hc] at h
    | some j =>
      rw [hr, hc] at h
      simp only [hstage j hc]
      exact h

theorem StageWell.mono {tasks tasks' : List ι} (hsub : tasks ⊆ tasks') {p : Stage}
    (h : StageWell request tasks i p) : StageWell request tasks' i p := by
  cases p with
  | answered a =>
    cases a with
    | success response =>
      obtain ⟨j, hj, hrest⟩ := h
      exact ⟨j, hsub hj, hrest⟩
    | failure e => trivial
  | completed record => exact h
  | received => trivial
  | unclaimed => trivial
  | claimed record => trivial
  | enqueued record => trivial

variable [DecidableEq ι]

theorem stage_set (p : Stage) (j : ι) :
    (s.set request i p).stage j = if j = i then p else s.stage j := Function.update_apply ..

theorem claim_set_ne (p : Stage) {u : String} (hu : u ≠ (request i).userId) :
    (s.set request i p).claim u = s.claim u := by
  simp only [World.set]
  split
  · exact Function.update_of_ne hu _ _
  · split
    · exact Function.update_of_ne hu _ _
    · rfl

omit [DecidableEq ι] in
theorem Inv.claim_eq (h : Inv request s) (hholds : (s.stage i).holdsRecord) :
    s.claim (request i).userId = some i := (h.holder _ i).mpr ⟨rfl, hholds⟩

/-- The claims after a step, if a record is only taken where no other request has it. -/
theorem Inv.holder_set (h : Inv request s) {p : Stage}
    (hfree : p.holdsRecord → s.claim (request i).userId = none ∨ (s.stage i).holdsRecord)
    (u : String) (j : ι) :
    (s.set request i p).claim u = some j ↔
      (request j).userId = u ∧ ((s.set request i p).stage j).holdsRecord := by
  by_cases hu : u = (request i).userId
  · subst hu
    by_cases hji : j = i
    · subst hji
      have hself := h.holder (request j).userId j
      rw [stage_set, if_pos rfl]
      simp only [World.set]
      split
      · simp [*]
      · split
        · simp [*]
        · simp_all
    · have hnot : p.holdsRecord ∨ (s.stage i).holdsRecord →
          s.claim (request i).userId ≠ some j := by
        intro hrecord hj
        rcases hrecord.elim hfree .inr with hnone | hholds
        · exact absurd (hnone.symm.trans hj) (by simp)
        · exact hji (Option.some.inj (hj.symm.trans (h.claim_eq hholds)))
      rw [stage_set, if_neg hji, ← h.holder]
      by_cases hp : p.holdsRecord
      · simp [World.set, hp, hnot (.inl hp), Ne.symm hji]
      · by_cases hi : (s.stage i).holdsRecord
        · simp [World.set, hp, hi, hnot (.inr hi)]
        · simp [World.set, hp, hi]
  · rw [claim_set_ne p hu, h.holder, stage_set]
    by_cases hji : j = i
    · subst hji
      simp [Ne.symm hu]
    · rw [if_neg hji]

/-- A step of one request, in which only his user's records, claims and tasks change. -/
theorem Inv.next (h : Inv request s) {p : Stage} {records : String → Option IdempotencyKey}
    {tasks : List ι} (hsub : s.tasks ⊆ tasks)
    (hfree : p.holdsRecord → s.claim (request i).userId = none ∨ (s.stage i).holdsRecord)
    (hother : ∀ u, u ≠ (request i).userId → records u = s.records u ∧
      tasks.filter (ofUser request u) = s.tasks.filter (ofUser request u))
    (huser : UserWell request { s.set request i p with records := records, tasks := tasks }
      (request i).userId)
    (hstage : StageWell request tasks i p) :
    Inv request { s.set request i p with records := records, tasks := tasks } where
  holder := h.holder_set hfree
  user := by
    intro u
    by_cases hu : u = (request i).userId
    · exact hu ▸ huser
    · obtain ⟨hrecords, htasks⟩ := hother u hu
      refine (h.user u).frame hrecords (claim_set_ne p hu) htasks fun j hj => ?_
      have hji : j ≠ i := by
        rintro rfl
        exact hu ((h.holder u j).mp hj).1.symm
      exact Function.update_of_ne hji _ _
  stage := (Function.forall_update_iff _ _).mpr ⟨hstage, fun j _ => (h.stage j).mono hsub⟩

theorem Inv.quiet (h : Inv request s) {p : Stage} (hold : (s.stage i).holdsRecord = false)
    (hp : p.holdsRecord = false) (hstage : StageWell request s.tasks i p) :
    Inv request (s.set request i p) := by
  have hclaim : (s.set request i p).claim = s.claim := by simp [World.set, hold, hp]
  refine h.next (List.Subset.refl _) (fun hholds => by simp [hp] at hholds)
    (fun u _ => ⟨rfl, rfl⟩) ?_ hstage
  refine (h.user _).frame rfl (congrFun hclaim _) rfl fun j hj => ?_
  have hji : j ≠ i := by
    rintro rfl
    simp [((h.holder _ j).mp hj).2] at hold
  exact Function.update_of_ne hji _ _

omit [DecidableEq ι] in
/-- Nothing is committed for a user whose record is held, and his tasks are its. -/
theorem Inv.held (h : Inv request s) (hholds : (s.stage i).holdsRecord) :
    s.records (request i).userId = none ∧
      s.tasks.filter (ofUser request (request i).userId) =
        if (s.stage i).hasTask then [i] else [] := by
  have huser := h.user (request i).userId
  rw [UserWell, h.claim_eq hholds] at huser
  cases hr : s.records (request i).userId with
  | some record => simp [hr] at huser
  | none => exact ⟨rfl, by simpa [hr] using huser⟩

theorem Inv.fail (h : Inv request s) (hnoTask : (s.stage i).hasTask = false) (e : HTTPException) :
    Inv request (s.fail request i e) := by
  by_cases hholds : (s.stage i).holdsRecord
  · obtain ⟨hrecords, htasks⟩ := h.held hholds
    rw [hnoTask] at htasks
    refine h.next (p := .answered (.failure e)) (List.Subset.refl _) (fun hp => by cases hp)
      (fun u _ => ⟨rfl, rfl⟩) ?_ trivial
    have hclaim : (s.set request i (.answered (.failure e))).claim (request i).userId = none := by
      have hend : (Stage.answered (.failure e)).holdsRecord = false := rfl
      simp [World.set, hend, hholds]
    simpa [UserWell, hrecords, hclaim] using htasks
  · exact h.quiet (Bool.eq_false_iff.mpr hholds) rfl trivial

theorem Inv.create (h : Inv request s) (hclaim : s.claim (request i).userId = none)
    (hrecords : s.records (request i).userId = none) (record : IdempotencyKey) :
    Inv request (s.set request i (.claimed record)) := by
  refine h.next (p := .claimed record) (List.Subset.refl _) (fun _ => .inl hclaim)
    (fun u _ => ⟨rfl, rfl⟩) ?_ trivial
  have htasks := h.user (request i).userId
  rw [UserWell, hclaim, hrecords] at htasks
  simpa [UserWell, hrecords, World.set, Stage.holdsRecord, Stage.hasTask] using htasks

theorem Inv.enqueue (h : Inv request s) {record : IdempotencyKey}
    (hi : s.stage i = .claimed record) :
    Inv request { s.set request i (.enqueued record) with tasks := s.tasks ++ [i] } := by
  have hholds : (s.stage i).holdsRecord := by rw [hi]; rfl
  obtain ⟨hrecords, htasks⟩ := h.held hholds
  refine h.next (List.subset_append_left _ _) (fun _ => .inr hholds) (fun u hu => ⟨rfl, ?_⟩) ?_
    trivial
  · simp [List.filter_append, ofUser, Ne.symm hu]
  · have hown : (s.tasks ++ [i]).filter (ofUser request (request i).userId) = [i] := by
      rw [List.filter_append, htasks, hi]
      simp [Stage.hasTask, ofUser]
    simpa [UserWell, hrecords, World.set, Stage.holdsRecord, Stage.hasTask] using hown

theorem Inv.complete (h : Inv request s) {record : IdempotencyKey}
    (hi : s.stage i = .enqueued record) :
    Inv request (s.set request i
      (.completed (completeIdempotencyRecord (responsePayload (request i)) record))) := by
  have hholds : (s.stage i).holdsRecord := by rw [hi]; rfl
  obtain ⟨hrecords, htasks⟩ := h.held hholds
  refine h.next (p := .completed _) (List.Subset.refl _) (fun _ => .inr hholds)
    (fun u _ => ⟨rfl, rfl⟩) ?_ rfl
  rw [hi] at htasks
  simpa [UserWell, hrecords, World.set, Stage.holdsRecord, Stage.hasTask] using htasks

theorem Inv.commit (h : Inv request s) {record : IdempotencyKey}
    (hi : s.stage i = .completed record) :
    Inv request { s.set request i (.answered (.success (responsePayload (request i)))) with
      records := Function.update s.records (request i).userId (some record) } := by
  have hholds : (s.stage i).holdsRecord := by rw [hi]; rfl
  have hown : s.tasks.filter (ofUser request (request i).userId) = [i] := by
    rw [(h.held hholds).2, hi]
    rfl
  have hresponse : record.responseJson = some (responsePayload (request i)) := by
    have hstage := h.stage i
    rwa [hi] at hstage
  have hmem : i ∈ s.tasks.filter (ofUser request (request i).userId) := by
    rw [hown]
    exact List.mem_cons_self
  refine h.next (List.Subset.refl _) (fun hp => by cases hp)
    (fun u hu => ⟨Function.update_of_ne hu _ _, rfl⟩) ?_ ⟨i, (mem_ofUser.mp hmem).1, rfl, rfl⟩
  simpa [UserWell, World.set, Stage.holdsRecord, hi] using ⟨i, hown, hresponse⟩

omit [DecidableEq ι] in
theorem Inv.recorded (h : Inv request s) {u : String} {record : IdempotencyKey}
    {response : Response} (hrecord : s.records u = some record)
    (hresponse : record.responseJson = some response) :
    ∃ j ∈ s.tasks, (request j).userId = u ∧ response = responsePayload (request j) := by
  have huser := h.user u
  rw [UserWell, hrecord] at huser
  cases hc : s.claim u with
  | some j => simp [hc] at huser
  | none =>
    simp only [hc] at huser
    obtain ⟨j, hj, hstored⟩ := huser
    have hmem : j ∈ s.tasks.filter (ofUser request u) := by
      rw [hj]
      exact List.mem_cons_self
    obtain ⟨htask, hsame⟩ := mem_ofUser.mp hmem
    exact ⟨j, htask, hsame, Option.some.inj (hresponse.symm.trans hstored)⟩

theorem getIdempotentResponse_eq_some {requestHash : String} {record : Option IdempotencyKey}
    {response : Response} (h : getIdempotentResponse requestHash record = .ok (some response)) :
    ∃ r, record = some r ∧ r.responseJson = some response := by
  cases record with
  | none => cases h
  | some r =>
    simp only [getIdempotentResponse] at h
    split at h
    · cases h
    · split at h
      · cases h
      · exact ⟨r, rfl, Except.ok.inj h⟩

theorem inv_step {e : Event ι} (h : Inv request s) (hok : FailsBeforeEnqueue s e)
    (hs : step request s e = some s') : Inv request s' := by
  cases e with
  | check i =>
    simp only [step] at hs
    split at hs
    · rename_i hi
      have hold : (s.stage i).holdsRecord = false := by rw [hi]; rfl
      split at hs <;> obtain rfl := Option.some.inj hs
      · exact h.quiet hold rfl trivial
      · rename_i response hfound
        obtain ⟨record, hrecord, hresponse⟩ := getIdempotentResponse_eq_some hfound
        exact h.quiet hold rfl (h.recorded hrecord hresponse)
      · exact h.quiet hold rfl trivial
    · cases hs
  | create i =>
    simp only [step] at hs
    split at hs
    · rename_i hi hclaim
      split at hs <;> obtain rfl := Option.some.inj hs
      · exact h.fail (by rw [hi]; rfl) _
      · rename_i hrecords
        exact h.create hclaim hrecords _
    · cases hs
  | enqueue i =>
    simp only [step] at hs
    split at hs
    · rename_i hi
      obtain rfl := Option.some.inj hs
      exact h.enqueue hi
    · cases hs
  | complete i =>
    simp only [step] at hs
    split at hs
    · rename_i hi
      obtain rfl := Option.some.inj hs
      exact h.complete hi
    · cases hs
  | commit i =>
    simp only [step] at hs
    split at hs
    · rename_i hi
      obtain rfl := Option.some.inj hs
      exact h.commit hi
    · cases hs
  | fail i e =>
    simp only [step] at hs
    split at hs
    · cases hs
    · obtain rfl := Option.some.inj hs
      exact h.fail (by simpa [FailsBeforeEnqueue] using hok) e

omit [DecidableEq ι] in
theorem Inv.oneTask (h : Inv request s) (u : String) : OneTask request (ofUser request u) s := by
  constructor
  · have huser := h.user u
    unfold UserWell at huser
    split at huser
    · obtain ⟨j, hj, -⟩ := huser
      rw [hj, List.length_singleton]
    · exact huser.elim
    · rw [huser]
      split <;> simp
    · simp [huser]
  · intro i response hi hanswer
    have hstage := h.stage i
    rw [hanswer] at hstage
    obtain ⟨j, hj, hsame, hresponse⟩ := hstage
    refine ⟨j, hj, ?_, hresponse⟩
    simpa [ofUser, hsame] using hi

/-- However the requests interleave and fail before their enqueues, each user's requests
have one task at most, and its response for their answer. -/
theorem oneTask_of_user
    (h : ReachedBy (step request) (fun s e => FailsBeforeEnqueue s e) start s) (u : String) :
    OneTask request (ofUser request u) s :=
  (h.invariant inv_start fun _ _ _ hi hok hs => inv_step hi hok hs).oneTask u

end

/-! ## Two users of a company, and a failure after the enqueue -/

/-- `true` and `false` are requests of the same user for the same job. -/
def sameUser : Bool → Request := fun _ => ⟨"user-1", "hash", "job-1"⟩

def twoUsers : Bool → Request
  | true => ⟨"user-1", "hash", "job-1"⟩
  | false => ⟨"user-2", "hash", "job-1"⟩

def processed (i : Bool) : List (Event Bool) := [.check i, .create i, .enqueue i, .complete i, .commit i]

/-- The first request fails before its enqueue, the second is processed. -/
def retried : List (Event Bool) :=
  [.check true, .create true, .fail true ⟨429, "Too many requests"⟩] ++ processed false

theorem oneTask_retried :
    OneTask sameUser (ofUser sameUser "user-1")
      ((runWhile (step sameUser) (fun s e => FailsBeforeEnqueue s e) start retried).get
        (by decide)) :=
  oneTask_of_user (ReachedBy.of_runWhile (Option.some_get _).symm) "user-1"

def afterBothUsers : World Bool :=
  (run (step twoUsers) start (processed true ++ processed false)).get (by decide)

/-- The trace of the first request cannot be recorded after its enqueue. -/
def afterLateFailure : World Bool :=
  (run (step sameUser) start ([.check true, .create true, .enqueue true,
      .fail true ⟨503, "AI processing temporarily unavailable. Please try again."⟩] ++
    processed false)).get (by decide)

/-- Two users enqueue a task each under one key, and so does one user whose first request
fails after its enqueue. -/
theorem key_not_oneTask :
    (Reached (step twoUsers) start afterBothUsers ∧
      ¬OneTask twoUsers (fun _ => true) afterBothUsers) ∧
    (Reached (step sameUser) start afterLateFailure ∧
      ¬OneTask sameUser (fun _ => true) afterLateFailure) := by
  refine ⟨⟨Reached.of_run (Option.some_get _).symm, fun h => ?_⟩,
    ⟨Reached.of_run (Option.some_get _).symm, fun h => ?_⟩⟩
  · exact absurd h.atMostOne (by decide)
  · exact absurd h.atMostOne (by decide)

end WorkTicket.Billing.Idempotency
