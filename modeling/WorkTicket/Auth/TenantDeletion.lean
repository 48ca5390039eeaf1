import WorkTicket.Foundation.Transaction

/-! `delete_tenant`: one DELETE for each table of a list, in one transaction, whose
failures are logged and passed over. -/

namespace WorkTicket.Auth.TenantDeletion

structure Company where
  id : ℕ
  name : String
  deriving DecidableEq

/-- The companies, and the `company_id`s of the rows of every other table. -/
structure Db where
  companies : List Company
  rows : String → List ℕ

def deleteOrder : List String :=
  ["ai_output_feedback", "ai_outputs", "quotes", "job_media", "ai_job_estimates", "notifications",
    "push_tokens", "usage_ledger", "invoices", "estimate_line_items", "estimates", "jobs",
    "billing_accounts", "analytics_events", "customers", "users", "companies"]

/-- The tables of the list that have a column `company_id`: `notifications` is no table,
and `companies` has only its `id`. -/
def hasCompanyId (table : String) : Bool := table ∉ ["notifications", "companies"]

/-- The statements that fail for a reason of their own. -/
structure Failures where
  selectCompany : Bool
  delete : String → Bool
  commit : Bool

/-- `DELETE FROM table WHERE company_id = :cid`. -/
def deleteFrom (f : Failures) (companyId : ℕ) (table : String) (db : Db) :
    Except String (Unit × Db) :=
  if !hasCompanyId table then .error s!"no column company_id in {table}"
  else if f.delete table then .error s!"delete from {table} failed"
  else .ok ((), { db with
    rows := Function.update db.rows table ((db.rows table).filter (· ≠ companyId)) })

structure CurrentUser where
  companyId : ℕ
  role : String

inductive Answer
  | success (message : String) (companyId : ℕ)
  | failure (statusCode : ℕ) (detail : String)

def Answer.isSuccess : Answer → Bool
  | .success _ _ => true
  | .failure _ _ => false

/-- The request, with the COMMIT that follows it; `normalized s` is `s.strip().lower()`. -/
def deleteTenant (normalized : String → String) (f : Failures) (currentUser : CurrentUser)
    (confirmation : String) (db : Db) : Answer × Db :=
  if currentUser.role ≠ "owner" then
    (.failure 403 "Only the company owner can delete the tenant.", db)
  else if f.selectCompany then (.failure 500 "Internal Server Error", db)
  else
    match db.companies.find? (·.id = currentUser.companyId) with
    | none => (.failure 404 "Company not found", db)
    | some company =>
      if normalized confirmation ≠ normalized company.name then
        (.failure 400 "Confirmation must match the company name exactly.", db)
      else
        let t := (Transaction.begin db).executeAll (deleteOrder.map (deleteFrom f company.id))
        if f.commit then (.failure 500 "Internal Server Error", db)
        else
          (.success s!"Tenant '{company.name}' and all associated data have been deleted."
            company.id, t.commit)

/-- Nothing of the company is left in the tables of the list. -/
def Gone (companyId : ℕ) (db : Db) : Prop :=
  (∀ table ∈ deleteOrder, companyId ∉ db.rows table) ∧ ∀ c ∈ db.companies, c.id ≠ companyId

/-- After a success nothing of the company is left, after an error everything is. -/
structure AllOrNothing (companyId : ℕ) (db : Db) (result : Answer × Db) : Prop where
  all : result.1.isSuccess → Gone companyId result.2
  nothing : result.1.isSuccess = false → result.2 = db

/-- The request is turned down, or the database fails the SELECT of the company or the
COMMIT. -/
def TurnedDown (normalized : String → String) (f : Failures) (currentUser : CurrentUser)
    (confirmation : String) (db : Db) : Prop :=
  currentUser.role ≠ "owner" ∨ f.selectCompany ∨ f.commit ∨
    ∀ c, db.companies.find? (·.id = currentUser.companyId) = some c →
      normalized confirmation ≠ normalized c.name

/-- The DELETE of the company itself aborts the transaction, and with it all the others. -/
theorem commit_deletions (f : Failures) (companyId : ℕ) (db : Db) :
    ((Transaction.begin db).executeAll (deleteOrder.map (deleteFrom f companyId))).commit = db := by
  have hmem : deleteFrom f companyId "companies" ∈ deleteOrder.map (deleteFrom f companyId) :=
    List.mem_map_of_mem (by decide)
  have hfails : ∀ db, ∃ e, deleteFrom f companyId "companies" db = .error e :=
    fun db => ⟨_, rfl⟩
  rw [Transaction.commit_of_aborted (Transaction.aborted_executeAll hmem hfails),
    Transaction.executeAll_committed]
  rfl

theorem deleteTenant_snd (normalized : String → String) (f : Failures) (currentUser : CurrentUser)
    (confirmation : String) (db : Db) :
    (deleteTenant normalized f currentUser confirmation db).2 = db := by
  unfold deleteTenant
  split
  · rfl
  split
  · rfl
  split
  · rfl
  split
  · rfl
  split
  · rfl
  · exact commit_deletions f _ db

theorem deleteTenant_success_iff {normalized : String → String} {f : Failures}
    {currentUser : CurrentUser} {confirmation : String} {db : Db} :
    (deleteTenant normalized f currentUser confirmation db).1.isSuccess ↔
      ¬TurnedDown normalized f currentUser confirmation db := by
  unfold deleteTenant TurnedDown
  by_cases hrole : currentUser.role ≠ "owner"
  · simp [hrole, Answer.isSuccess]
  rw [if_neg hrole]
  by_cases hselect : f.selectCompany
  · simp [hselect, Answer.isSuccess]
  rw [if_neg hselect]
  cases hfound : db.companies.find? (·.id = currentUser.companyId) with
  | none => simp [Answer.isSuccess]
  | some company =>
    by_cases hname : normalized confirmation ≠ normalized company.name
    · simp [hname, Answer.isSuccess]
    · by_cases hcommit : f.commit
      · simp [hname, hcommit, Answer.isSuccess]
      · simpa [hname, hcommit, hselect, Answer.isSuccess] using not_not.mp hrole

theorem not_gone {normalized : String → String} {f : Failures} {currentUser : CurrentUser}
    {confirmation : String} {db : Db}
    (h : ¬TurnedDown normalized f currentUser confirmation db) : ¬Gone currentUser.companyId db := by
  intro hgone
  refine h (.inr (.inr (.inr fun c hc => ?_)))
  have hid : c.id = currentUser.companyId := by simpa using List.find?_some hc
  exact absurd hid (hgone.2 c (List.mem_of_find?_eq_some hc))

/-- The deletion is all or nothing exactly when it is turned down. -/
theorem allOrNothing_iff (normalized : String → String) (f : Failures) (currentUser : CurrentUser)
    (confirmation : String) (db : Db) :
    AllOrNothing currentUser.companyId db
        (deleteTenant normalized f currentUser confirmation db) ↔
      TurnedDown normalized f currentUser confirmation db := by
  have hsame := deleteTenant_snd normalized f currentUser confirmation db
  constructor
  · intro h
    by_contra hnot
    have hgone := h.all (deleteTenant_success_iff.mpr hnot)
    rw [hsame] at hgone
    exact not_gone hnot hgone
  · intro hturned
    have hfailure : (deleteTenant normalized f currentUser confirmation db).1.isSuccess = false :=
      Bool.eq_false_iff.mpr fun hsuccess => deleteTenant_success_iff.mp hsuccess hturned
    refine ⟨fun hsuccess => ?_, fun _ => hsame⟩
    exact absurd hsuccess (by simp [hfailure])

def noFailures : Failures := ⟨false, fun _ => false, false⟩

/-- One company with one user, who is its owner. -/
def acmeDb : Db := ⟨[⟨1, "Acme"⟩], fun table => if table = "users" then [1] else []⟩

/-- The owner is told that everything is gone, and all of it is there. -/
theorem acme_not_allOrNothing :
    ¬AllOrNothing 1 acmeDb (deleteTenant String.toLower noFailures ⟨1, "owner"⟩ "Acme" acmeDb) := by
  intro h
  have hsuccess : (deleteTenant String.toLower noFailures ⟨1, "owner"⟩ "Acme" acmeDb).1.isSuccess :=
    by decide +kernel
  have hgone := h.all hsuccess
  rw [deleteTenant_snd] at hgone
  exact hgone.2 ⟨1, "Acme"⟩ List.mem_cons_self rfl

end WorkTicket.Auth.TenantDeletion
