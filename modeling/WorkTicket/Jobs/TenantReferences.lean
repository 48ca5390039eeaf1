import WorkTicket.Estimates.Generation
import WorkTicket.Foundation.Fallible
import WorkTicket.Foundation.Transition
import WorkTicket.Jobs.StatusCoupling

/-! The references between the rows of companies that share their tables: a job names a customer
and a technician, an estimate a job and a customer. The foreign keys ask only that the row is
there; that it belongs to the same company is for the routes to see to. -/

namespace WorkTicket.Jobs.TenantReferences

open WorkTicket.Transition WorkTicket.Fallible WorkTicket.Billing WorkTicket.Estimates
open WorkTicket.Estimates.Generation (Refusal given)
open WorkTicket.Jobs.StatusCoupling (JobStatus)

structure User where
  id : String
  companyId : CompanyId
  deriving DecidableEq, Repr

structure Customer where
  id : ℕ
  companyId : CompanyId
  deriving DecidableEq, Repr

/-- A row of `jobs`; `row` holds its status and its AI state. -/
structure JobRow where
  id : ℕ
  companyId : CompanyId
  customerId : ℕ
  technicianId : String
  description : Option String
  row : StatusCoupling.JobRow
  isDeleted : Bool
  deriving DecidableEq, Repr

structure EstimateRow where
  id : ℕ
  companyId : CompanyId
  jobId : Option ℕ
  customerId : Option ℕ
  estimate : Estimate
  deriving DecidableEq, Repr

/-- No modelled route writes the users. -/
structure State where
  users : List User
  customers : List Customer
  jobs : List JobRow
  estimates : List EstimateRow
  accounts : CompanyId → Option BillingAccount

def State.user (s : State) (id : String) : Option User := s.users.find? (·.id = id)
def State.customer (s : State) (id : ℕ) : Option Customer := s.customers.find? (·.id = id)
def State.job (s : State) (id : ℕ) : Option JobRow := s.jobs.find? (·.id = id)

/-- The job is there and the company's. -/
def State.ownJob (s : State) (companyId : CompanyId) (id : ℕ) : Option JobRow :=
  (s.job id).filter (·.companyId = companyId)

def State.ownCustomer (s : State) (companyId : CompanyId) (id : ℕ) : Option Customer :=
  (s.customer id).filter (·.companyId = companyId)

def State.ownUser (s : State) (companyId : CompanyId) (id : String) : Option User :=
  (s.user id).filter (·.companyId = companyId)

/-- `UPDATE jobs` by primary key. -/
def State.setJob (s : State) (job : JobRow) : State :=
  { s with jobs := s.jobs.map fun j => if j.id = job.id then job else j }

/-! ## Jobs -/

structure JobCreate where
  customerId : ℕ
  technicianId : Option String
  description : Option String
  deriving DecidableEq, Repr

/-- `payload.technician_id or current_user.id`. -/
def JobCreate.technician (payload : JobCreate) (currentUser : User) : String :=
  (payload.technicianId.filter (· ≠ "")).getD currentUser.id

def JobCreate.job (payload : JobCreate) (currentUser : User) (newId : ℕ) : JobRow where
  id := newId
  companyId := currentUser.companyId
  customerId := payload.customerId
  technicianId := payload.technician currentUser
  description := payload.description
  row := ⟨⟨newId, currentUser.companyId, some .none, none, some 0, some 0, none⟩, .pending⟩
  isDeleted := false

/-- Neither the customer nor the technician is looked up: the insert fails only where a row is
not there at all. -/
def createJob (s : State) (currentUser : User) (payload : JobCreate) (newId : ℕ) :
    Except Refusal State :=
  let job := payload.job currentUser newId
  given (if s.job newId = none ∧ s.customer job.customerId ≠ none ∧ s.user job.technicianId ≠ none
    then some { s with jobs := s.jobs ++ [job] } else none) .raised

/-- The fields of a payload that are set; a reference may be set to null. -/
structure JobUpdate where
  description : Option (Option String)
  status : Option String
  customerId : Option (Option ℕ)
  technicianId : Option (Option String)

def jobNotFound : Refusal := .failure (.http 404 "Job not found")

def updateJob (s : State) (currentUser : User) (jobId : ℕ) (payload : JobUpdate) :
    Except Refusal State := do
  let job ← given ((s.ownJob currentUser.companyId jobId).filter (!·.isDeleted)) jobNotFound
  let customerFound := payload.customerId.all fun id =>
    (id.bind (s.ownCustomer currentUser.companyId)).isSome
  let technicianFound := payload.technicianId.all fun id =>
    (id.bind (s.ownUser currentUser.companyId)).isSome
  let row ← (StatusCoupling.updateJob ⟨payload.status, customerFound, technicianFound⟩
    job.row).mapError fun (code, detail) => .failure (.http code detail)
  return s.setJob
    { job with
      description := payload.description.getD job.description
      customerId := payload.customerId.join.getD job.customerId
      technicianId := payload.technicianId.join.getD job.technicianId
      row := row }

/-- `activeQuote` is whether the job has a draft quote. -/
def deleteJob (s : State) (currentUser : User) (jobId : ℕ) (activeQuote : Bool) :
    Except Refusal State := do
  let job ← given ((s.ownJob currentUser.companyId jobId).filter (!·.isDeleted)) jobNotFound
  given (if activeQuote then none else some (s.setJob { job with isDeleted := true }))
    (.failure (.http 400 "Cannot delete job with an active quote. Delete the quote first."))

/-! ## Customers -/

def createCustomer (s : State) (currentUser : User) (newId : ℕ) : Except Refusal State :=
  given (if s.customer newId = none
    then some { s with customers := s.customers ++ [⟨newId, currentUser.companyId⟩] } else none)
    .raised

/-- The estimates lose their reference, and a job of another company that has one, in a column
that is never null, makes the statement fail. -/
def deleteCustomer (s : State) (currentUser : User) (customerId : ℕ) : Except Refusal State := do
  let _ ← given (s.ownCustomer currentUser.companyId customerId)
    (.failure (.http 404 "Customer not found"))
  let existingJobs := s.jobs.countP fun j =>
    j.customerId = customerId ∧ j.companyId = currentUser.companyId
  let _ ← given (if existingJobs = 0 then some () else none) (.failure (.http 400
    s!"Cannot delete customer with {existingJobs} existing job(s). Reassign or delete jobs first."))
  given (if s.jobs.any (·.customerId = customerId) then none else some
    { s with
      customers := s.customers.filter (·.id ≠ customerId)
      estimates := s.estimates.map fun e =>
        if e.customerId = some customerId then { e with customerId := none } else e }) .raised

/-! ## Estimates -/

structure EstimateGenerateRequest where
  jobId : ℕ
  customerId : Option ℕ
  description : Option String
  deriving DecidableEq, Repr

/-- `req.customer_id or job.customer_id`. -/
def EstimateGenerateRequest.customer (req : EstimateGenerateRequest) (job : Option JobRow) :
    Option ℕ :=
  req.customerId.or (job.map JobRow.customerId)

/-- What the route finds for the request, with the answers of everything but these tables. A
customer of another company is only left out of the prompt; the insert asks for the rows. -/
def answered (s : State) (companyId : CompanyId) (req : EstimateGenerateRequest) (newId : ℕ)
    (answers : Generation.Request) : Generation.Request :=
  let job := s.ownJob companyId req.jobId
  { answers with
    description := req.description
    job := job.map JobRow.description
    stores := answers.stores && (s.estimates.find? (·.id = newId)).isNone &&
      (req.customer job).all fun id => (s.customer id).isSome }

def State.insertEstimate (s : State) (companyId : CompanyId) (req : EstimateGenerateRequest)
    (newId : ℕ) (estimate : Estimate) : State :=
  { s with
    estimates := s.estimates ++ [⟨newId, companyId, some req.jobId,
      req.customer (s.ownJob companyId req.jobId), estimate⟩] }

section
variable (parse : String → Option ℚ)

/-- The account may change where the route refuses, too. -/
def generateEstimate (s : State) (currentUser : User) (req : EstimateGenerateRequest)
    (newId : ℕ) (answers : Generation.Request) : State × Option Refusal :=
  let companyId := currentUser.companyId
  let (account, result) := Generation.generateEstimate parse companyId (s.accounts companyId)
    (answered s companyId req newId answers)
  let s := { s with accounts := Function.update s.accounts companyId account }
  match result with
  | .error refusal => (s, some refusal)
  | .ok estimate => (s.insertEstimate companyId req newId estimate, none)

/-! ## Runs -/

/-- `aiState` stands for the tasks that move a job through its AI states. -/
inductive Event
  | createJob (user : String) (payload : JobCreate) (newId : ℕ)
  | updateJob (user : String) (jobId : ℕ) (payload : JobUpdate)
  | deleteJob (user : String) (jobId : ℕ) (activeQuote : Bool)
  | createCustomer (user : String) (newId : ℕ)
  | deleteCustomer (user : String) (customerId : ℕ)
  | generateEstimate (user : String) (req : EstimateGenerateRequest) (newId : ℕ)
      (answers : Generation.Request)
  | aiState (jobId : ℕ) (job : Job)

def Event.user : Event → Option String
  | .createJob user .. | .updateJob user .. | .deleteJob user .. | .createCustomer user ..
  | .deleteCustomer user .. | .generateEstimate user .. => some user
  | .aiState .. => none

/-- A request that fails leaves the tables as they are. -/
def commit (s : State) (result : Except Refusal State) : State := result.toOption.getD s

def perform (s : State) (currentUser : User) : Event → State
  | .createJob _ payload newId => commit s (createJob s currentUser payload newId)
  | .updateJob _ jobId payload => commit s (updateJob s currentUser jobId payload)
  | .deleteJob _ jobId activeQuote => commit s (deleteJob s currentUser jobId activeQuote)
  | .createCustomer _ newId => commit s (createCustomer s currentUser newId)
  | .deleteCustomer _ customerId => commit s (deleteCustomer s currentUser customerId)
  | .generateEstimate _ req newId answers =>
    (generateEstimate parse s currentUser req newId answers).1
  | .aiState .. => s

def step (s : State) (e : Event) : Option State :=
  match e with
  | .aiState jobId job => some <| (s.job jobId).elim s fun j =>
      s.setJob { j with row := { j.row with job := job } }
  | e => (e.user.bind s.user).map fun currentUser => perform parse s currentUser e

end

/-! ## References within a company -/

def JobWithin (s : State) (j : JobRow) : Prop :=
  (∃ c ∈ s.customer j.customerId, c.companyId = j.companyId) ∧
    ∃ t ∈ s.user j.technicianId, t.companyId = j.companyId

def EstimateWithin (s : State) (e : EstimateRow) : Prop :=
  (∀ id ∈ e.jobId, ∃ j ∈ s.job id, j.companyId = e.companyId) ∧
    ∀ id ∈ e.customerId, ∃ c ∈ s.customer id, c.companyId = e.companyId

structure SameCompany (s : State) : Prop where
  jobs : ∀ j ∈ s.jobs, JobWithin s j
  estimates : ∀ e ∈ s.estimates, EstimateWithin s e

/-- A job is created with a customer and a technician of the company, and an estimate that is
stored names no customer of another one. -/
def OwnReferences (parse : String → Option ℚ) (s : State) : Event → Prop
  | .createJob user payload newId => ∀ u ∈ s.user user, s.job newId = none →
      ∀ c ∈ s.customer payload.customerId, ∀ t ∈ s.user (payload.technician u),
        c.companyId = u.companyId ∧ t.companyId = u.companyId
  | .generateEstimate user req newId answers => ∀ u ∈ s.user user,
      Generation.succeeds parse u.companyId (s.accounts u.companyId)
        (answered s u.companyId req newId answers) = true →
      ∀ id ∈ req.customerId, ∀ c ∈ s.customer id, c.companyId = u.companyId
  | _ => True

section
variable {parse : String → Option ℚ} {s s' : State} {u : User}

/-- Rows that others refer to stay, under the same company. -/
structure Keeps (s s' : State) : Prop where
  users : s'.users = s.users
  customer : ∀ id, ∀ c ∈ s.customer id, c ∈ s'.customer id
  job : ∀ id, ∀ j ∈ s.job id, ∃ j' ∈ s'.job id, j'.companyId = j.companyId

theorem Keeps.jobWithin (h : Keeps s s') {j : JobRow} (hj : JobWithin s j) : JobWithin s' j := by
  obtain ⟨⟨c, hc, hcompany⟩, t, ht, hown⟩ := hj
  refine ⟨⟨c, h.customer _ c hc, hcompany⟩, t, ?_, hown⟩
  rw [State.user, h.users]
  exact ht

theorem Keeps.estimateWithin (h : Keeps s s') {e : EstimateRow} (he : EstimateWithin s e) :
    EstimateWithin s' e := by
  constructor
  · intro id hid
    obtain ⟨j, hj, hcompany⟩ := he.1 id hid
    obtain ⟨j', hj', hsame⟩ := h.job id j hj
    exact ⟨j', hj', hsame.trans hcompany⟩
  · intro id hid
    obtain ⟨c, hc, hcompany⟩ := he.2 id hid
    exact ⟨c, h.customer id c hc, hcompany⟩

theorem Keeps.sameCompany (h : Keeps s s') (hs : SameCompany s)
    (hjobs : ∀ j ∈ s'.jobs, j ∈ s.jobs ∨ JobWithin s' j)
    (hestimates : ∀ e ∈ s'.estimates, e ∈ s.estimates ∨ EstimateWithin s' e) :
    SameCompany s' where
  jobs := by
    intro j hj
    rcases hjobs j hj with hold | hnew
    · exact h.jobWithin (hs.jobs j hold)
    · exact hnew
  estimates := by
    intro e he
    rcases hestimates e he with hold | hnew
    · exact h.estimateWithin (hs.estimates e hold)
    · exact hnew

theorem find?_append_of_mem {α : Type} {l l' : List α} {p : α → Bool} {a : α}
    (h : a ∈ l.find? p) : a ∈ (l ++ l').find? p := by
  rw [List.find?_append, Option.mem_def.mp h]
  rfl

theorem job_setJob {job : JobRow} (id : ℕ) :
    (s.setJob job).job id =
      (s.job id).map fun j => if j.id = job.id then job else j := by
  have hid : ((fun j : JobRow => decide (j.id = id)) ∘ fun j => if j.id = job.id then job else j) =
      fun j => decide (j.id = id) := by
    funext j
    by_cases hj : j.id = job.id <;> simp [hj]
  simp only [State.setJob, State.job, List.find?_map, hid]

/-! ### Each route -/

theorem given_eq_ok {α : Type} {x : Option α} {f : Refusal} {a : α} :
    given x f = .ok a ↔ x = some a := by
  cases x <;> simp [given]

theorem mem_ownJob {companyId : CompanyId} {id : ℕ} {j : JobRow} :
    j ∈ s.ownJob companyId id ↔ j ∈ s.job id ∧ j.companyId = companyId := by
  simp [State.ownJob, Option.filter_eq_some_iff]

theorem job_id {id : ℕ} {j : JobRow} (h : j ∈ s.job id) : j.id = id := by
  have hfound := @List.find?_some _ (fun j : JobRow => decide (j.id = id)) _ _ h
  exact of_decide_eq_true hfound

/-- A write to a job that is found keeps the references, if the row it writes refers to rows of
the company. -/
theorem SameCompany.setJob (h : SameCompany s) {id : ℕ} {j job : JobRow} (hj : j ∈ s.job id)
    (hid : job.id = j.id) (hcompany : job.companyId = j.companyId) (hwithin : JobWithin s job) :
    SameCompany (s.setJob job) := by
  have hkeeps : Keeps s (s.setJob job) := by
    refine ⟨rfl, fun _ _ hc => hc, fun id' j' hj' => ?_⟩
    rw [job_setJob, Option.mem_def.mp hj']
    by_cases hsame : j'.id = job.id
    · have hrow : j' = j := by
        rw [job_id hj', hid, job_id hj] at hsame
        subst hsame
        exact Option.some.inj (hj'.symm.trans hj)
      exact ⟨_, rfl, (congrArg JobRow.companyId (if_pos hsame)).trans (hrow ▸ hcompany)⟩
    · exact ⟨_, rfl, congrArg JobRow.companyId (if_neg hsame)⟩
  refine hkeeps.sameCompany h (fun j' hj' => ?_) fun e he => .inl he
  obtain ⟨j₀, hj₀, rfl⟩ := List.mem_map.mp hj'
  split
  · exact .inr (hkeeps.jobWithin hwithin)
  · exact .inl hj₀

theorem createJob_eq_ok {payload : JobCreate} {newId : ℕ} :
    createJob s u payload newId = .ok s' ↔
      s.job newId = none ∧ (∃ c, c ∈ s.customer payload.customerId) ∧
        (∃ t, t ∈ s.user (payload.technician u)) ∧
        s' = { s with jobs := s.jobs ++ [payload.job u newId] } := by
  rw [createJob, given_eq_ok, Option.ite_none_right_eq_some, Option.ne_none_iff_exists',
    Option.ne_none_iff_exists', Option.some_inj, and_assoc, and_assoc, eq_comm (a := s')]
  exact Iff.rfl

theorem keeps_insertJob (job : JobRow) : Keeps s { s with jobs := s.jobs ++ [job] } where
  users := rfl
  customer := fun _ _ hc => hc
  job := fun _ j hj => ⟨j, find?_append_of_mem hj, rfl⟩

theorem SameCompany.createJob (h : SameCompany s) {payload : JobCreate} {newId : ℕ}
    (hown : ∀ c ∈ s.customer payload.customerId, ∀ t ∈ s.user (payload.technician u),
      c.companyId = u.companyId ∧ t.companyId = u.companyId)
    (hok : createJob s u payload newId = .ok s') : SameCompany s' := by
  obtain ⟨-, ⟨c, hc⟩, ⟨t, ht⟩, rfl⟩ := createJob_eq_ok.mp hok
  obtain ⟨hcown, htown⟩ := hown c hc t ht
  have hwithin : JobWithin s (payload.job u newId) := ⟨⟨c, hc, hcown⟩, t, ht, htown⟩
  refine (keeps_insertJob _).sameCompany h (fun j hj => ?_) fun e he => .inl he
  rcases List.mem_append.mp hj with hold | hnew
  · exact .inl hold
  · obtain rfl := List.mem_singleton.mp hnew
    exact .inr ((keeps_insertJob _).jobWithin hwithin)

/-- What the two lookups of `update_job` let pass belongs to the company. -/
theorem jobWithin_updated {j : JobRow} (h : JobWithin s j) {payload : JobUpdate}
    (hcustomer : (payload.customerId.all fun id =>
      (id.bind (s.ownCustomer j.companyId)).isSome) = true)
    (htechnician : (payload.technicianId.all fun id =>
      (id.bind (s.ownUser j.companyId)).isSome) = true)
    (description : Option String) (row : StatusCoupling.JobRow) :
    JobWithin s { j with
      description := description
      customerId := payload.customerId.join.getD j.customerId
      technicianId := payload.technicianId.join.getD j.technicianId
      row := row } := by
  obtain ⟨hold, htold⟩ := h
  constructor
  · rcases hid : payload.customerId with _ | _ | id
    · exact hold
    · exact hold
    · simp only [hid, Option.all_some, Option.bind_some] at hcustomer
      obtain ⟨c, hc⟩ := Option.isSome_iff_exists.mp hcustomer
      obtain ⟨hfound, hcompany⟩ := Option.filter_eq_some_iff.mp hc
      exact ⟨c, hfound, of_decide_eq_true hcompany⟩
  · rcases hid : payload.technicianId with _ | _ | id
    · exact htold
    · exact htold
    · simp only [hid, Option.all_some, Option.bind_some] at htechnician
      obtain ⟨t, ht⟩ := Option.isSome_iff_exists.mp htechnician
      obtain ⟨hfound, hcompany⟩ := Option.filter_eq_some_iff.mp ht
      exact ⟨t, hfound, of_decide_eq_true hcompany⟩

theorem updateJob_found {payload : StatusCoupling.JobUpdate} {r r' : StatusCoupling.JobRow}
    (h : StatusCoupling.updateJob payload r = .ok r') :
    payload.customerFound = true ∧ payload.technicianFound = true := by
  have hchecked : ∃ status, (if !payload.customerFound then .error (400, "Customer not found")
      else if !payload.technicianFound then
        .error (400, "Technician not found in your company")
      else .ok { r with status := status }) = (.ok r' : Except (ℕ × String) _) := by
    unfold StatusCoupling.updateJob at h
    cases hstatus : payload.status with
    | none =>
      rw [hstatus] at h
      exact ⟨_, h⟩
    | some status =>
      rw [hstatus] at h
      obtain ⟨new, -, hset⟩ := bind_eq_ok.mp h
      exact ⟨new, hset⟩
  obtain ⟨status, hset⟩ := hchecked
  split_ifs at hset with hcustomer htechnician
  simpa using And.intro hcustomer htechnician

theorem SameCompany.updateJob (h : SameCompany s) {jobId : ℕ} {payload : JobUpdate}
    (hok : updateJob s u jobId payload = .ok s') : SameCompany s' := by
  obtain ⟨j, hj, hrest⟩ := bind_eq_ok.mp hok
  obtain ⟨hown, -⟩ := Option.filter_eq_some_iff.mp (given_eq_ok.mp hj)
  obtain ⟨hfound, hcompany⟩ := mem_ownJob.mp hown
  obtain ⟨row, hrow, hset⟩ := bind_eq_ok.mp hrest
  have hchecked := updateJob_found (mapError_eq_ok.mp hrow)
  rw [← hcompany] at hchecked
  have hwithin := jobWithin_updated (h.jobs j (List.mem_of_find?_eq_some hfound)) hchecked.1
    hchecked.2 (payload.description.getD j.description) row
  cases hset
  exact h.setJob hfound rfl rfl hwithin

theorem SameCompany.deleteJob (h : SameCompany s) {jobId : ℕ} {activeQuote : Bool}
    (hok : deleteJob s u jobId activeQuote = .ok s') : SameCompany s' := by
  obtain ⟨j, hj, hrest⟩ := bind_eq_ok.mp hok
  obtain ⟨hown, -⟩ := Option.filter_eq_some_iff.mp (given_eq_ok.mp hj)
  obtain ⟨hfound, -⟩ := mem_ownJob.mp hown
  obtain ⟨-, hset⟩ := Option.ite_none_left_eq_some.mp (given_eq_ok.mp hrest)
  cases hset
  exact h.setJob hfound rfl rfl (h.jobs j (List.mem_of_find?_eq_some hfound))

theorem SameCompany.createCustomer (h : SameCompany s) {newId : ℕ}
    (hok : createCustomer s u newId = .ok s') : SameCompany s' := by
  obtain ⟨-, hset⟩ := Option.ite_none_right_eq_some.mp (given_eq_ok.mp hok)
  cases hset
  have hkeeps : Keeps s { s with customers := s.customers ++ [⟨newId, u.companyId⟩] } :=
    ⟨rfl, fun _ _ hc => find?_append_of_mem hc, fun _ j hj => ⟨j, hj, rfl⟩⟩
  exact hkeeps.sameCompany h (fun _ hj => .inl hj) fun _ he => .inl he

/-- The rows that referred to the customer are gone or refer to none, the others find theirs. -/
theorem SameCompany.deleteCustomer (h : SameCompany s) {customerId : ℕ}
    (hok : deleteCustomer s u customerId = .ok s') : SameCompany s' := by
  obtain ⟨_, -, hrest⟩ := bind_eq_ok.mp hok
  obtain ⟨_, -, hdelete⟩ := bind_eq_ok.mp hrest
  obtain ⟨hnone, hset⟩ := Option.ite_none_left_eq_some.mp (given_eq_ok.mp hdelete)
  cases hset
  have hcustomer : ∀ id ≠ customerId, ∀ c ∈ s.customer id,
      c ∈ (s.customers.filter (·.id ≠ customerId)).find? (·.id = id) := by
    intro id hne c hc
    have hsame : (fun c : Customer => decide (decide (c.id ≠ customerId) = true ∧
        decide (c.id = id) = true)) = fun c => decide (c.id = id) := by
      funext c
      by_cases hid : c.id = id
      · simp [hid, hne]
      · simp [hid]
    rw [List.find?_filter, hsame]
    exact hc
  constructor
  · intro j hj
    obtain ⟨⟨c, hc, hcompany⟩, htechnician⟩ := h.jobs j hj
    have hne : j.customerId ≠ customerId := fun heq =>
      hnone (List.any_eq_true.mpr ⟨j, hj, decide_eq_true heq⟩)
    exact ⟨⟨c, hcustomer _ hne c hc, hcompany⟩, htechnician⟩
  · intro e he
    obtain ⟨e₀, he₀, rfl⟩ := List.mem_map.mp he
    obtain ⟨hjob, hown⟩ := h.estimates e₀ he₀
    by_cases hrefers : e₀.customerId = some customerId
    · rw [if_pos hrefers]
      exact ⟨hjob, fun _ hid => nomatch hid⟩
    · rw [if_neg hrefers]
      refine ⟨hjob, fun id hid => ?_⟩
      obtain ⟨c, hc, hcompany⟩ := hown id hid
      have hne : id ≠ customerId := by
        rintro rfl
        exact hrefers hid
      exact ⟨c, hcustomer id hne c hc, hcompany⟩

/-- The estimate succeeds only with a job of the company and with a customer that is there. -/
theorem found_of_succeeds {companyId : CompanyId} {account : Option BillingAccount}
    {req : EstimateGenerateRequest} {newId : ℕ} {answers : Generation.Request}
    (h : Generation.succeeds parse companyId account (answered s companyId req newId answers) =
      true) :
    ∃ j ∈ s.job req.jobId, j.companyId = companyId ∧ s.ownJob companyId req.jobId = some j ∧
      ∀ id ∈ req.customer (some j), ∃ c, c ∈ s.customer id := by
  obtain ⟨⟨_, hjob⟩, hstores⟩ := Generation.found_of_canAnswer (Bool.and_eq_true_iff.mp h).2
  obtain ⟨j, hown, -⟩ := Option.map_eq_some_iff.mp hjob
  obtain ⟨hfound, hcompany⟩ := mem_ownJob.mp hown
  have hcustomer := (Bool.and_eq_true_iff.mp hstores).2
  rw [hown] at hcustomer
  refine ⟨j, hfound, hcompany, hown, fun id hid => ?_⟩
  exact Option.isSome_iff_exists.mp ((Option.all_eq_true _ _).mp hcustomer id hid)

theorem SameCompany.insertEstimate (h : SameCompany s) {companyId : CompanyId}
    {req : EstimateGenerateRequest} {newId : ℕ} {estimate : Estimate} {j : JobRow}
    (hj : j ∈ s.job req.jobId) (hcompany : j.companyId = companyId)
    (hown : s.ownJob companyId req.jobId = some j)
    (hcustomer : ∀ id ∈ req.customerId, ∃ c ∈ s.customer id, c.companyId = companyId) :
    SameCompany (s.insertEstimate companyId req newId estimate) := by
  have hwithin : EstimateWithin s ⟨newId, companyId, some req.jobId,
      req.customer (s.ownJob companyId req.jobId), estimate⟩ := by
    constructor
    · rintro _ ⟨⟩
      exact ⟨j, hj, hcompany⟩
    · intro id hid
      rw [hown] at hid
      rcases hgiven : req.customerId with _ | given
      · -- the customer of the job
        have hjob : id = j.customerId := by
          simpa [EstimateGenerateRequest.customer, hgiven, eq_comm] using hid
        obtain ⟨⟨c, hc, hsame⟩, -⟩ := h.jobs j (List.mem_of_find?_eq_some hj)
        exact ⟨c, hjob ▸ hc, hsame.trans hcompany⟩
      · have hnamed : id = given := by
          simpa [EstimateGenerateRequest.customer, hgiven, eq_comm] using hid
        exact hnamed ▸ hcustomer given hgiven
  constructor
  · exact h.jobs
  · intro e he
    rcases List.mem_append.mp he with hold | hnew
    · exact h.estimates e hold
    · obtain rfl := List.mem_singleton.mp hnew
      exact hwithin

theorem generateEstimate_of_succeeds {req : EstimateGenerateRequest} {newId : ℕ}
    {answers : Generation.Request}
    (h : Generation.succeeds parse u.companyId (s.accounts u.companyId)
      (answered s u.companyId req newId answers) = true) :
    ∃ accounts estimate, (generateEstimate parse s u req newId answers).1 =
      State.insertEstimate { s with accounts := accounts } u.companyId req newId estimate := by
  rw [← Generation.generateEstimate_isSome] at h
  rcases hresult : Generation.generateEstimate parse u.companyId (s.accounts u.companyId)
    (answered s u.companyId req newId answers) with ⟨account, refusal | estimate⟩
  · rw [hresult] at h
    cases h
  · refine ⟨Function.update s.accounts u.companyId account, estimate, ?_⟩
    simp only [TenantReferences.generateEstimate, hresult]

theorem SameCompany.generateEstimate (h : SameCompany s) {req : EstimateGenerateRequest}
    {newId : ℕ} {answers : Generation.Request}
    (hown : Generation.succeeds parse u.companyId (s.accounts u.companyId)
        (answered s u.companyId req newId answers) = true →
      ∀ id ∈ req.customerId, ∀ c ∈ s.customer id, c.companyId = u.companyId) :
    SameCompany (generateEstimate parse s u req newId answers).1 := by
  have hbilled : ∀ accounts, SameCompany { s with accounts := accounts } :=
    fun _ => ⟨h.jobs, h.estimates⟩
  rcases hresult : Generation.generateEstimate parse u.companyId (s.accounts u.companyId)
    (answered s u.companyId req newId answers) with ⟨account, refusal | estimate⟩
  · simp only [TenantReferences.generateEstimate, hresult]
    exact hbilled _
  · have hsucceeds : Generation.succeeds parse u.companyId (s.accounts u.companyId)
        (answered s u.companyId req newId answers) = true := by
      rw [← Generation.generateEstimate_isSome, hresult]
      rfl
    obtain ⟨j, hj, hcompany, howned, hcustomer⟩ := found_of_succeeds hsucceeds
    simp only [TenantReferences.generateEstimate, hresult]
    refine (hbilled _).insertEstimate hj hcompany howned fun id hid => ?_
    have hnamed : id ∈ req.customer (some j) := by
      simp [EstimateGenerateRequest.customer, Option.mem_def.mp hid]
    obtain ⟨c, hc⟩ := hcustomer id hnamed
    exact ⟨c, hc, hown hsucceeds id hid c hc⟩

/-! ### Runs of requests -/

theorem SameCompany.commit (h : SameCompany s) {result : Except Refusal State}
    (hok : ∀ s', result = .ok s' → SameCompany s') : SameCompany (commit s result) := by
  cases result with
  | error f => exact h
  | ok s' => exact hok s' rfl

theorem step_eq_some {e : Event} {user : String} (huser : e.user = some user)
    (hs : step parse s e = some s') : ∃ u ∈ s.user user, s' = perform parse s u e := by
  cases e with
  | aiState jobId job => cases huser
  | _ =>
    cases huser
    obtain ⟨u, hu, hperform⟩ := Option.map_eq_some_iff.mp hs
    exact ⟨u, hu, hperform.symm⟩

theorem perform_of_step {e : Event} {user : String} (huser : e.user = some user)
    (hs : step parse s e = some s') (hu : u ∈ s.user user) : s' = perform parse s u e := by
  obtain ⟨u', hu', rfl⟩ := step_eq_some huser hs
  rw [Option.some.inj (hu'.symm.trans hu)]

theorem sameCompany_step {e : Event} (h : SameCompany s) (hok : OwnReferences parse s e)
    (hs : step parse s e = some s') : SameCompany s' := by
  cases e with
  | createJob user payload newId =>
    obtain ⟨u, hu, rfl⟩ := step_eq_some rfl hs
    refine h.commit fun s' hcreate => h.createJob ?_ hcreate
    exact hok u hu (createJob_eq_ok.mp hcreate).1
  | updateJob user jobId payload =>
    obtain ⟨u, -, rfl⟩ := step_eq_some rfl hs
    exact h.commit fun s' => h.updateJob
  | deleteJob user jobId activeQuote =>
    obtain ⟨u, -, rfl⟩ := step_eq_some rfl hs
    exact h.commit fun s' => h.deleteJob
  | createCustomer user newId =>
    obtain ⟨u, -, rfl⟩ := step_eq_some rfl hs
    exact h.commit fun s' => h.createCustomer
  | deleteCustomer user customerId =>
    obtain ⟨u, -, rfl⟩ := step_eq_some rfl hs
    exact h.commit fun s' => h.deleteCustomer
  | generateEstimate user req newId answers =>
    obtain ⟨u, hu, rfl⟩ := step_eq_some rfl hs
    exact h.generateEstimate (hok u hu)
  | aiState jobId job =>
    obtain rfl := Option.some.inj hs
    rcases hjob : s.job jobId with _ | j
    · exact h
    · exact h.setJob hjob rfl rfl (h.jobs j (List.mem_of_find?_eq_some hjob))

/-- A job or an estimate with a row of another company is there after the request that named
it. -/
theorem ownReferences_of_sameCompany {e : Event} (hs : step parse s e = some s')
    (h : SameCompany s') : OwnReferences parse s e := by
  cases e with
  | createJob user payload newId =>
    intro u hu hnew c hc t ht
    have hs' : s' = { s with jobs := s.jobs ++ [payload.job u newId] } := by
      rw [perform_of_step rfl hs hu, perform,
        createJob_eq_ok.mpr ⟨hnew, ⟨c, hc⟩, ⟨t, ht⟩, rfl⟩]
      rfl
    subst hs'
    obtain ⟨⟨c', hc', hcompany⟩, t', ht', hown⟩ := h.jobs (payload.job u newId) (by simp)
    obtain rfl : c = c' := Option.some.inj (hc.symm.trans hc')
    obtain rfl : t = t' := Option.some.inj (ht.symm.trans ht')
    exact ⟨hcompany, hown⟩
  | generateEstimate user req newId answers =>
    intro u hu hsucceeds id hid c hc
    obtain ⟨accounts, estimate, hs'⟩ := generateEstimate_of_succeeds hsucceeds
    rw [perform_of_step rfl hs hu, perform, hs'] at h
    have hnew : ⟨newId, u.companyId, some req.jobId, some id, estimate⟩ ∈
        s.estimates ++ [⟨newId, u.companyId, some req.jobId,
          req.customer (s.ownJob u.companyId req.jobId), estimate⟩] := by
      simp [EstimateGenerateRequest.customer, Option.mem_def.mp hid]
    obtain ⟨-, hcustomer⟩ := h.estimates _ hnew
    obtain ⟨c', hc', hcompany⟩ := hcustomer id rfl
    obtain rfl : c = c' := Option.some.inj (hc.symm.trans hc')
    exact hcompany
  | _ => trivial

/-- For every run of requests by users of any companies: all references stay within a company
exactly if each request that stores one names rows of the company. -/
theorem sameCompany_along_iff (parse : String → Option ℚ) (users : List User)
    (accounts : CompanyId → Option BillingAccount) (es : List Event) :
    Along (step parse) SameCompany ⟨users, [], [], [], accounts⟩ es ↔
      EachStep (step parse) (OwnReferences parse) ⟨users, [], [], [], accounts⟩ es :=
  along_iff_eachStep (fun _ h => h) (fun _ _ _ h hok hs => sameCompany_step h hok hs)
    (fun _ _ _ _ hs h => ownReferences_of_sameCompany hs h)
    ⟨fun _ hj => absurd hj List.not_mem_nil, fun _ he => absurd he List.not_mem_nil⟩ es

/-- A user of company 1 creates a job for a customer of company 2. -/
theorem foreign_customer : ¬∀ parse users accounts es,
    Along (step parse) SameCompany ⟨users, [], [], [], accounts⟩ es := by
  intro h
  have hrun := h (fun _ => none) [⟨"ann", 1⟩, ⟨"bob", 2⟩] (fun _ => none)
    [.createCustomer "bob" 5, .createJob "ann" ⟨5, none, none⟩ 9]
  have hlast := ((hrun.2 _ rfl).2 _ rfl).jobs (JobCreate.job ⟨5, none, none⟩ ⟨"ann", 1⟩ 9)
    (by decide)
  obtain ⟨⟨c, hc, hcompany⟩, -⟩ := hlast
  obtain rfl : c = ⟨5, 2⟩ := Option.some.inj (hc.symm.trans (by decide))
  cases hcompany

end

end WorkTicket.Jobs.TenantReferences
