import WorkTicket.Foundation.Transition

/-! Concurrent requests to `/register`: each is one transaction that looks its company up
by name, or creates it, and adds its user to it as an owner. A SELECT sees the committed
rows; an INSERT waits for a transaction that has inserted the same unique value. -/

namespace WorkTicket.Auth.Registration

open WorkTicket.Transition

structure Company where
  id : ℕ
  name : String
  deriving DecidableEq

structure User where
  id : String
  email : String
  name : String
  companyId : ℕ
  role : String
  deriving DecidableEq

/-- A request: its payload, and the user that the identity provider vouches for. -/
structure Register where
  userId : String
  email : String
  name : String
  companyName : String
  identityUserId : String
  deriving DecidableEq

def Register.user (r : Register) (companyId : ℕ) : User where
  id := r.userId
  email := r.email
  name := r.name
  companyId := companyId
  role := "owner"

/-- How far a request is; `own` tells that it has inserted the company itself. -/
inductive Stage
  | received
  | noCompany
  | hasCompany (company : Company) (own : Bool)
  | noUser (company : Company) (own : Bool)
  | inserted (company : Company) (own : Bool)
  | registered (companyId : ℕ)
  | refused (statusCode : ℕ) (detail : String)
  deriving DecidableEq

def Stage.isOver : Stage → Bool
  | .registered _ | .refused _ _ => true
  | _ => false

/-- The committed rows, the uncommitted ones with the requests that have inserted them,
and the requests. -/
structure World (ι : Type*) where
  companies : List Company
  users : List User
  newCompanies : List (ι × Company)
  newUsers : List (ι × User)
  stage : ι → Stage

inductive Event (ι : Type*)
  | selectCompany (i : ι)
  | insertCompany (i : ι) (newId : ℕ)
  | selectUser (i : ι)
  | insertUser (i : ι)
  | commit (i : ι)
  | fail (i : ι) (statusCode : ℕ) (detail : String)

section
variable {ι : Type*} [DecidableEq ι] (request : ι → Register)

def World.set (s : World ι) (i : ι) (p : Stage) : World ι :=
  { s with stage := Function.update s.stage i p }

/-- The request ends with an HTTP error, which rolls its transaction back. -/
def World.refuse (s : World ι) (i : ι) (statusCode : ℕ) (detail : String) : World ι :=
  { s.set i (.refused statusCode detail) with
    newCompanies := s.newCompanies.filter (·.1 ≠ i)
    newUsers := s.newUsers.filter (·.1 ≠ i) }

def World.companyNamed (s : World ι) (name : String) : Option Company :=
  s.companies.find? (·.name = name)

def step (s : World ι) : Event ι → Option (World ι)
  | .selectCompany i =>
    match s.stage i with
    | .received =>
      if (request i).identityUserId ≠ (request i).userId then
        some (s.refuse i 403 "Authenticated user_id does not match registration payload")
      else
        match s.companyNamed (request i).companyName with
        | some company => some (s.set i (.hasCompany company false))
        | none => some (s.set i .noCompany)
    | _ => none
  | .insertCompany i newId =>
    match s.stage i with
    | .noCompany =>
      if s.newCompanies.any (·.2.name = (request i).companyName) then none
      else
        match s.companyNamed (request i).companyName with
        -- the unique name fails the savepoint, and the company is looked up again
        | some company => some (s.set i (.hasCompany company false))
        | none =>
          -- a generated id is one that nothing else has
          if newId ∈ s.companies.map Company.id ∨ newId ∈ s.newCompanies.map (·.2.id) then none
          else
            let company := ⟨newId, (request i).companyName⟩
            some { s.set i (.hasCompany company true) with
              newCompanies := (i, company) :: s.newCompanies }
    | _ => none
  | .selectUser i =>
    match s.stage i with
    | .hasCompany company own =>
      if s.users.any (·.id = (request i).userId) then
        some (s.refuse i 409 "User already registered")
      else some (s.set i (.noUser company own))
    | _ => none
  | .insertUser i =>
    match s.stage i with
    | .noUser company own =>
      if s.newUsers.any (·.2.id = (request i).userId) then none
      else if s.users.any (·.id = (request i).userId) then
        some (s.refuse i 500 "Internal Server Error")
      else some { s.set i (.inserted company own) with
        newUsers := (i, (request i).user company.id) :: s.newUsers }
    | _ => none
  | .commit i =>
    match s.stage i with
    | .inserted company own => some
      { stage := Function.update s.stage i (.registered company.id)
        companies := if own then company :: s.companies else s.companies
        users := (request i).user company.id :: s.users
        newCompanies := s.newCompanies.filter (·.1 ≠ i)
        newUsers := s.newUsers.filter (·.1 ≠ i) }
    | _ => none
  | .fail i statusCode detail =>
    if (s.stage i).isOver then none else some (s.refuse i statusCode detail)

/-- The rows before the requests: every user is of a company. -/
structure Db where
  companies : List Company
  users : List User
  foreignKey : ∀ u ∈ users, u.companyId ∈ companies.map Company.id

def start (db : Db) : World ι := ⟨db.companies, db.users, [], [], fun _ => .received⟩

/-- A registered user is alone in the company he has become an owner of. -/
def NoTakeover (s : World ι) : Prop :=
  ∀ i companyId, s.stage i = .registered companyId →
    ∀ u ∈ s.users, u.companyId = companyId → u.id = (request i).userId

/-- A user is inserted into a company that the request has created itself, or that has
no user, committed or inserted. -/
def JoinsOnlyUnused (s : World ι) : Event ι → Bool
  | .insertUser i =>
    match s.stage i with
    | .noUser company own =>
      own || (s.users.all (·.companyId ≠ company.id) &&
        s.newUsers.all (·.2.companyId ≠ company.id))
    | _ => true
  | _ => true

end

section
variable {ι : Type*} {request : ι → Register} {s s' : World ι} {i : ι}

def CompanyWell (s : World ι) (i : ι) (company : Company) (own : Bool) : Prop :=
  if own then (i, company) ∈ s.newCompanies else company ∈ s.companies

def StageWell (request : ι → Register) (s : World ι) (i : ι) : Stage → Prop
  | .hasCompany company own | .noUser company own => CompanyWell s i company own
  | .inserted company own =>
    CompanyWell s i company own ∧ (i, (request i).user company.id) ∈ s.newUsers
  | .registered companyId => (∃ u ∈ s.users, u.companyId = companyId) ∧
      ∀ u ∈ s.users, u.companyId = companyId → u.id = (request i).userId
  | .received | .noCompany | .refused _ _ => True

/-- The rows: ids of new companies are new, users are of companies, and a user that is
inserted is the only one of his company. -/
structure RowsWell (s : World ι) : Prop where
  newId : ∀ i c, (i, c) ∈ s.newCompanies → c.id ∉ s.companies.map Company.id
  newIds : ∀ i c j d, (i, c) ∈ s.newCompanies → (j, d) ∈ s.newCompanies → c.id = d.id → i = j
  foreignKey : ∀ u ∈ s.users, u.companyId ∈ s.companies.map Company.id
  newForeignKey : ∀ i u, (i, u) ∈ s.newUsers → u.companyId ∈ s.companies.map Company.id ∨
    ∃ c, (i, c) ∈ s.newCompanies ∧ c.id = u.companyId
  first : ∀ i u, (i, u) ∈ s.newUsers → ∀ v ∈ s.users, v.companyId ≠ u.companyId
  alone : ∀ i u j v, (i, u) ∈ s.newUsers → (j, v) ∈ s.newUsers → u.companyId = v.companyId → i = j

structure Inv (request : ι → Register) (s : World ι) : Prop where
  rows : RowsWell s
  stage : ∀ i, StageWell request s i (s.stage i)

theorem inv_start (db : Db) : Inv request (start db : World ι) where
  rows := by
    constructor
    · intro i c h
      cases h
    · intro i c j d h
      cases h
    · exact db.foreignKey
    · intro i u h
      cases h
    · intro i u h
      cases h
    · intro i u j v h
      cases h
  stage := fun i => trivial

/-- A request's stage stays well when its own new rows and the committed ones stay, and
no user is added to a company that has one. -/
theorem StageWell.frame {p : Stage} (h : StageWell request s i p)
    (hcompanies : s.companies ⊆ s'.companies) (husers : s.users ⊆ s'.users)
    (hnewCompanies : ∀ c, (i, c) ∈ s.newCompanies → (i, c) ∈ s'.newCompanies)
    (hnewUsers : ∀ u, (i, u) ∈ s.newUsers → (i, u) ∈ s'.newUsers)
    (hkept : ∀ u ∈ s'.users, u ∈ s.users ∨ ∀ v ∈ s.users, v.companyId ≠ u.companyId) :
    StageWell request s' i p := by
  have hcompany : ∀ c own, CompanyWell s i c own → CompanyWell s' i c own := by
    intro c own hc
    cases own with
    | true => exact hnewCompanies c hc
    | false => exact hcompanies hc
  cases p with
  | hasCompany c own => exact hcompany c own h
  | noUser c own => exact hcompany c own h
  | inserted c own => exact ⟨hcompany c own h.1, hnewUsers _ h.2⟩
  | registered companyId =>
    obtain ⟨⟨v, hv, hcompanyId⟩, honly⟩ := h
    refine ⟨⟨v, husers hv, hcompanyId⟩, fun u hu heq => ?_⟩
    rcases hkept u hu with hold | hnew
    · exact honly u hold heq
    · exact absurd (hcompanyId.trans heq.symm) (hnew v hv)
  | received => trivial
  | noCompany => trivial
  | refused statusCode detail => trivial

variable [DecidableEq ι]

/-- After a step of one request: its own stage, and the frame of the others'. -/
theorem Inv.next {p : Stage} (h : Inv request s) (hrows : RowsWell s')
    (hstage : s'.stage = Function.update s.stage i p) (hp : StageWell request s' i p)
    (hframe : ∀ j, j ≠ i → StageWell request s j (s.stage j) → StageWell request s' j (s.stage j)) :
    Inv request s' where
  rows := hrows
  stage := by
    rw [hstage]
    exact (Function.forall_update_iff _ _).mpr ⟨hp, fun j hji => hframe j hji (h.stage j)⟩

omit [DecidableEq ι] in
theorem Inv.stageWell {p : Stage} (h : Inv request s) (hi : s.stage i = p) :
    StageWell request s i p := hi ▸ h.stage i

theorem Inv.move (h : Inv request s) {p : Stage} (hp : StageWell request s i p) :
    Inv request (s.set i p) := by
  have hsame : ∀ {j : ι} {q : Stage}, StageWell request s j q → StageWell request (s.set i p) j q :=
    fun hq => hq.frame (List.Subset.refl _) (List.Subset.refl _) (fun _ => id) (fun _ => id)
      fun _ => .inl
  refine h.next ⟨h.rows.newId, h.rows.newIds, h.rows.foreignKey, h.rows.newForeignKey,
    h.rows.first, h.rows.alone⟩ rfl (hsame hp) fun j _ => hsame

theorem mem_others {α : Type*} {rows : List (ι × α)} {j : ι} {a : α} :
    (j, a) ∈ rows.filter (·.1 ≠ i) ↔ (j, a) ∈ rows ∧ j ≠ i := by
  simp

theorem RowsWell.refuse (h : RowsWell s) (statusCode : ℕ) (detail : String) :
    RowsWell (s.refuse i statusCode detail) := by
  constructor
  · intro j c hc
    exact h.newId j c (mem_others.mp hc).1
  · intro j c k d hc hd
    exact h.newIds j c k d (mem_others.mp hc).1 (mem_others.mp hd).1
  · exact h.foreignKey
  · intro j u hu
    obtain ⟨hmem, hji⟩ := mem_others.mp hu
    refine (h.newForeignKey j u hmem).imp_right ?_
    rintro ⟨c, hc, hid⟩
    exact ⟨c, mem_others.mpr ⟨hc, hji⟩, hid⟩
  · intro j u hu
    exact h.first j u (mem_others.mp hu).1
  · intro j u k v hu hv
    exact h.alone j u k v (mem_others.mp hu).1 (mem_others.mp hv).1

theorem Inv.refuse (h : Inv request s) (statusCode : ℕ) (detail : String) :
    Inv request (s.refuse i statusCode detail) := by
  refine h.next (h.rows.refuse statusCode detail) rfl trivial fun j hji hj => ?_
  exact hj.frame (List.Subset.refl _) (List.Subset.refl _)
    (fun c hc => mem_others.mpr ⟨hc, hji⟩) (fun u hu => mem_others.mpr ⟨hu, hji⟩) fun _ => .inl

theorem RowsWell.insertCompany (h : RowsWell s) {c : Company} {p : Stage}
    (hid : c.id ∉ s.companies.map Company.id) (hnewId : c.id ∉ s.newCompanies.map (·.2.id)) :
    RowsWell { s.set i p with newCompanies := (i, c) :: s.newCompanies } := by
  have hother : ∀ j d, (j, d) ∈ s.newCompanies → d.id ≠ c.id := by
    rintro j d hd heq
    exact hnewId (List.mem_map.mpr ⟨(j, d), hd, heq⟩)
  constructor
  · intro j d hd
    rcases List.mem_cons.mp hd with heq | hd
    · cases heq
      exact hid
    · exact h.newId j d hd
  · intro j d k e hd he heq
    rcases List.mem_cons.mp hd with hd | hd <;> rcases List.mem_cons.mp he with he | he
    · rw [(Prod.mk.inj hd).1, (Prod.mk.inj he).1]
    · cases hd
      exact absurd heq.symm (hother k e he)
    · cases he
      exact absurd heq (hother j d hd)
    · exact h.newIds j d k e hd he heq
  · exact h.foreignKey
  · intro j u hu
    refine (h.newForeignKey j u hu).imp_right ?_
    rintro ⟨d, hd, heq⟩
    exact ⟨d, List.mem_cons_of_mem _ hd, heq⟩
  · exact h.first
  · exact h.alone

theorem Inv.insertCompany (h : Inv request s) {c : Company}
    (hid : c.id ∉ s.companies.map Company.id) (hnewId : c.id ∉ s.newCompanies.map (·.2.id)) :
    Inv request { s.set i (.hasCompany c true) with
      newCompanies := (i, c) :: s.newCompanies } := by
  refine h.next (h.rows.insertCompany hid hnewId) rfl ?_ fun j _ hj => ?_
  · exact List.mem_cons_self
  · exact hj.frame (List.Subset.refl _) (List.Subset.refl _) (fun _ => List.mem_cons_of_mem _)
      (fun _ => id) fun _ => .inl

/-- The user's company is one that the request has created, or is unused: either way no
one is in it. -/
theorem RowsWell.insertUser (h : RowsWell s) {c : Company} {own : Bool} {u : User} {p : Stage}
    (hcompany : CompanyWell s i c own) (hu : u.companyId = c.id)
    (hunused : own = false → (∀ u ∈ s.users, u.companyId ≠ c.id) ∧
      ∀ j u, (j, u) ∈ s.newUsers → u.companyId ≠ c.id) :
    RowsWell { s.set i p with newUsers := (i, u) :: s.newUsers } := by
  have hfirst : ∀ v ∈ s.users, v.companyId ≠ c.id := by
    cases own with
    | false => exact (hunused rfl).1
    | true =>
      intro v hv heq
      exact h.newId i c hcompany (heq ▸ h.foreignKey v hv)
  have halone : ∀ j v, (j, v) ∈ s.newUsers → v.companyId = c.id → j = i := by
    cases own with
    | false => exact fun j v hv heq => absurd heq ((hunused rfl).2 j v hv)
    | true =>
      intro j v hv heq
      rcases h.newForeignKey j v hv with hold | ⟨d, hd, hid⟩
      · exact absurd (heq ▸ hold) (h.newId i c hcompany)
      · exact h.newIds j d i c hd hcompany (hid.trans heq)
  constructor
  · exact h.newId
  · exact h.newIds
  · exact h.foreignKey
  · intro j v hv
    rcases List.mem_cons.mp hv with heq | hv
    · cases heq
      rw [hu]
      cases own with
      | true => exact .inr ⟨c, hcompany, rfl⟩
      | false => exact .inl (List.mem_map_of_mem hcompany)
    · exact h.newForeignKey j v hv
  · intro j v hv
    rcases List.mem_cons.mp hv with heq | hv
    · cases heq
      exact hu ▸ hfirst
    · exact h.first j v hv
  · intro j v k w hv hw heq
    rcases List.mem_cons.mp hv with hv | hv <;> rcases List.mem_cons.mp hw with hw | hw
    · rw [(Prod.mk.inj hv).1, (Prod.mk.inj hw).1]
    · cases hv
      exact (halone k w hw (heq.symm.trans hu)).symm
    · cases hw
      exact halone j v hv (heq.trans hu)
    · exact h.alone j v k w hv hw heq

theorem Inv.insertUser (h : Inv request s) {c : Company} {own : Bool}
    (hi : s.stage i = .noUser c own)
    (hunused : own = false → (∀ u ∈ s.users, u.companyId ≠ c.id) ∧
      ∀ j u, (j, u) ∈ s.newUsers → u.companyId ≠ c.id) :
    Inv request { s.set i (.inserted c own) with
      newUsers := (i, (request i).user c.id) :: s.newUsers } := by
  have hcompany : CompanyWell s i c own := h.stageWell hi
  refine h.next (h.rows.insertUser hcompany rfl hunused) rfl ⟨hcompany, List.mem_cons_self⟩
    fun j _ hj => ?_
  exact hj.frame (List.Subset.refl _) (List.Subset.refl _) (fun _ => id)
    (fun _ => List.mem_cons_of_mem _) fun _ => .inl

/-- The request's company and user become the last of the committed rows. -/
theorem RowsWell.commit (h : RowsWell s) {c : Company} {own : Bool} {u : User}
    {stage : ι → Stage} (hcompany : CompanyWell s i c own) (huser : (i, u) ∈ s.newUsers)
    (hu : u.companyId = c.id) :
    RowsWell
      { stage
        companies := if own then c :: s.companies else s.companies
        users := u :: s.users
        newCompanies := s.newCompanies.filter (·.1 ≠ i)
        newUsers := s.newUsers.filter (·.1 ≠ i) } := by
  have hids : ∀ id, id ∈ (if own then c :: s.companies else s.companies).map Company.id ↔
      id = c.id ∨ id ∈ s.companies.map Company.id := by
    intro id
    cases own with
    | true => simp
    | false =>
      refine ⟨.inr, ?_⟩
      rintro (rfl | hmem)
      · exact List.mem_map_of_mem hcompany
      · exact hmem
  constructor
  · intro j d hd hmem
    obtain ⟨hold, hji⟩ := mem_others.mp hd
    rcases (hids _).mp hmem with heq | hid
    · cases own with
      | true => exact hji (h.newIds j d i c hold hcompany heq)
      | false => exact h.newId j d hold (heq ▸ List.mem_map_of_mem hcompany)
    · exact h.newId j d hold hid
  · intro j d k e hd he
    exact h.newIds j d k e (mem_others.mp hd).1 (mem_others.mp he).1
  · intro v hv
    rcases List.mem_cons.mp hv with rfl | hv
    · exact (hids _).mpr (.inl hu)
    · exact (hids _).mpr (.inr (h.foreignKey v hv))
  · intro j v hv
    obtain ⟨hmem, hji⟩ := mem_others.mp hv
    rcases h.newForeignKey j v hmem with hold | ⟨d, hd, hid⟩
    · exact .inl ((hids _).mpr (.inr hold))
    · exact .inr ⟨d, mem_others.mpr ⟨hd, hji⟩, hid⟩
  · intro j v hv w hw
    obtain ⟨hold, hji⟩ := mem_others.mp hv
    rcases List.mem_cons.mp hw with rfl | hw
    · exact fun heq => hji (h.alone j v i _ hold huser heq.symm)
    · exact h.first j v hold w hw
  · intro j v k w hv hw
    exact h.alone j v k w (mem_others.mp hv).1 (mem_others.mp hw).1

theorem Inv.commit (h : Inv request s) {c : Company} {own : Bool}
    (hi : s.stage i = .inserted c own) :
    Inv request
      { stage := Function.update s.stage i (.registered c.id)
        companies := if own then c :: s.companies else s.companies
        users := (request i).user c.id :: s.users
        newCompanies := s.newCompanies.filter (·.1 ≠ i)
        newUsers := s.newUsers.filter (·.1 ≠ i) } := by
  obtain ⟨hcompany, huser⟩ : CompanyWell s i c own ∧ (i, (request i).user c.id) ∈ s.newUsers :=
    h.stageWell hi
  have hfirst := h.rows.first i _ huser
  have hcompanies : s.companies ⊆ if own then c :: s.companies else s.companies := by
    split
    · exact List.subset_cons_self _ _
    · exact List.Subset.refl _
  refine h.next (h.rows.commit hcompany huser rfl) rfl ?_ fun j hji hj => ?_
  · refine ⟨⟨_, List.mem_cons_self, rfl⟩, fun u hu heq => ?_⟩
    rcases List.mem_cons.mp hu with rfl | hu
    · rfl
    · exact absurd heq (hfirst u hu)
  · refine hj.frame hcompanies (List.subset_cons_self _ _)
      (fun d hd => mem_others.mpr ⟨hd, hji⟩) (fun u hu => mem_others.mpr ⟨hu, hji⟩) fun u hu => ?_
    rcases List.mem_cons.mp hu with rfl | hu
    · exact .inr hfirst
    · exact .inl hu

omit [DecidableEq ι] in
theorem mem_companyNamed {name : String} {c : Company} (h : s.companyNamed name = some c) :
    c ∈ s.companies := List.mem_of_find?_eq_some h

theorem inv_step {e : Event ι} (h : Inv request s) (hok : JoinsOnlyUnused s e)
    (hs : step request s e = some s') : Inv request s' := by
  cases e with
  | selectCompany i =>
    simp only [step] at hs
    split at hs
    · split at hs
      · obtain rfl := Option.some.inj hs
        exact h.refuse _ _
      · split at hs <;> obtain rfl := Option.some.inj hs
        · rename_i company hfound
          exact h.move (mem_companyNamed hfound)
        · exact h.move trivial
    · cases hs
  | insertCompany i newId =>
    simp only [step] at hs
    split at hs
    · split at hs
      · cases hs
      · split at hs
        · rename_i company hfound
          obtain rfl := Option.some.inj hs
          exact h.move (mem_companyNamed hfound)
        · split at hs
          · cases hs
          · rename_i hfresh
            obtain rfl := Option.some.inj hs
            obtain ⟨hid, hnewId⟩ := not_or.mp hfresh
            exact h.insertCompany (c := ⟨newId, (request i).companyName⟩) hid hnewId
    · cases hs
  | selectUser i =>
    simp only [step] at hs
    split at hs
    · rename_i company own hi
      have hcompany : CompanyWell s i company own := h.stageWell hi
      split at hs <;> obtain rfl := Option.some.inj hs
      · exact h.refuse _ _
      · exact h.move (p := .noUser company own) hcompany
    · cases hs
  | insertUser i =>
    simp only [step] at hs
    split at hs
    · rename_i company own hi
      split at hs
      · cases hs
      · split at hs <;> obtain rfl := Option.some.inj hs
        · exact h.refuse _ _
        · refine h.insertUser hi fun hfound => ?_
          simpa [JoinsOnlyUnused, hi, hfound] using hok
    · cases hs
  | commit i =>
    simp only [step] at hs
    split at hs
    · rename_i company own hi
      obtain rfl := Option.some.inj hs
      exact h.commit hi
    · cases hs
  | fail i statusCode detail =>
    simp only [step] at hs
    split at hs
    · cases hs
    · obtain rfl := Option.some.inj hs
      exact h.refuse _ _

end

/-! ## Two sign-ups for one company name -/

def signUp (userId companyName : String) : Register :=
  ⟨userId, userId ++ "@example.org", userId, companyName, userId⟩

def emptyDb : Db := ⟨[], [], fun _ h => by cases h⟩

def signUpEvents (i : Bool) (newId : ℕ) : List (Event Bool) :=
  [.selectCompany i, .insertCompany i newId, .selectUser i, .insertUser i, .commit i]

/-- The names differ in spacing only. -/
def apart : Bool → Register
  | true => signUp "user_1" "Acme"
  | false => signUp "user_2" "Acme "

def sameName : Bool → Register
  | true => signUp "user_1" "Acme"
  | false => signUp "user_2" "Acme"

/-- The second request finds the company of the first. -/
def afterBothSignUps : World Bool :=
  (run (step sameName) (start emptyDb)
    (signUpEvents true 1 ++ [.selectCompany false, .selectUser false, .insertUser false,
      .commit false])).get (by decide)

end WorkTicket.Auth.Registration
