import WorkTicket.Foundation.Transition

/-! The requests that take users out of a company: `delete_my_data`, which counts the
company's owners first, and `deactivate_user`. Each is one transaction under READ
COMMITTED: a SELECT sees the committed rows, an UPDATE locks its row until the end, and
`register`, the one request that gives a role, adds an owner. -/

namespace WorkTicket.Auth.Owners

open WorkTicket.Transition

structure User where
  id : String
  companyId : ℕ
  email : String
  name : String
  role : String
  isActive : Bool
  isDeleted : Bool
  tokenVersion : ℕ
  deriving DecidableEq

def User.isOwner (companyId : ℕ) (u : User) : Bool :=
  u.companyId = companyId ∧ u.role = "owner"

/-- An owner who is active and not deleted. -/
def User.isLiveOwner (companyId : ℕ) (u : User) : Bool :=
  u.isOwner companyId && u.isActive && !u.isDeleted

inductive Operation
  | deleteMyData
  | deactivate (userId : String)
  deriving DecidableEq

/-- A request, with what its token says. -/
structure Request where
  userId : String
  tokenVersion : ℕ
  operation : Operation
  deriving DecidableEq

/-- `UPDATE users SET is_active = false, ..` of one row. -/
structure RowUpdate where
  id : String
  email : Option String
  name : Option String
  tokenVersion : ℕ
  deriving DecidableEq

def RowUpdate.apply (w : RowUpdate) (u : User) : User :=
  if u.id = w.id then
    { u with
      email := w.email.getD u.email
      name := w.name.getD u.name
      isActive := false
      tokenVersion := w.tokenVersion }
  else u

def anonymize (me : User) : RowUpdate where
  id := me.id
  email := some ("deleted-" ++ me.id ++ "@anonymized.workticket")
  name := some "Deleted User"
  tokenVersion := me.tokenVersion + 1

def deactivation (target : User) : RowUpdate where
  id := target.id
  email := none
  name := none
  tokenVersion := target.tokenVersion + 1

/-- How far a request is. `mayDelete` carries the count that let an owner pass. -/
inductive Stage
  | received
  | authenticated (me : User)
  | mayDelete (me : User) (ownerCount : Option ℕ)
  | mayDeactivate (target : User)
  | written (w : RowUpdate)
  | answered (statusCode : ℕ) (detail : String)
  deriving DecidableEq

/-- The committed rows, who has written an uncommitted version of which, and the requests. -/
structure World (ι : Type*) where
  users : List User
  lock : String → Option ι
  stage : ι → Stage

inductive Event (ι : Type*)
  | authenticate (i : ι)
  | check (i : ι)
  | write (i : ι)
  | commit (i : ι)
  | fail (i : ι)
  | register (user : User)

section
variable {ι : Type*} [DecidableEq ι] (request : ι → Request)

def World.userById (s : World ι) (id : String) : Option User := s.users.find? (·.id = id)

def World.set (s : World ι) (i : ι) (p : Stage) : World ι :=
  { s with stage := Function.update s.stage i p }

def World.answer (s : World ι) (i : ι) (statusCode : ℕ) (detail : String) : World ι :=
  s.set i (.answered statusCode detail)

def getCurrentUser (r : Request) : Option User → Except String User
  | none => .error "User not found"
  | some user =>
    if !user.isActive then
      .error "Account has been deactivated. Please contact your administrator."
    else if r.tokenVersion < user.tokenVersion then
      .error "Token has been revoked. Please sign in again."
    else .ok user

/-- The owners that `delete_my_data` counts: it does not look at `is_deleted`. -/
def ownerCount (companyId : ℕ) (users : List User) : ℕ :=
  users.countP fun u => u.isOwner companyId && u.isActive

def deleteMyData (s : World ι) (i : ι) (me : User) : World ι :=
  if me.role = "owner" then
    if ownerCount me.companyId s.users ≤ 1 then
      s.answer i 400 "Cannot delete the last owner. Transfer ownership or delete the company first."
    else s.set i (.mayDelete me (some (ownerCount me.companyId s.users)))
  else s.set i (.mayDelete me none)

def deactivateUser (s : World ι) (i : ι) (me : User) (userId : String) : World ι :=
  if me.id ≠ userId ∧ me.role ∉ ["admin", "owner"] then
    s.answer i 403 "Not authorized to deactivate this user"
  else
    match s.userById userId with
    | none => s.answer i 404 "User not found"
    | some target =>
      if target.companyId ≠ me.companyId then
        s.answer i 403 "Not authorized to deactivate user from another company"
      else s.set i (.mayDeactivate target)

def Operation.message : Operation → String
  | .deleteMyData => "Your data has been deleted/anonymized"
  | .deactivate _ => "User deactivated successfully"

/-- The row that a request past its checks writes. -/
def Stage.rowUpdate? : Stage → Option RowUpdate
  | .mayDelete me _ => some (anonymize me)
  | .mayDeactivate target => some (deactivation target)
  | _ => none

def step (s : World ι) : Event ι → Option (World ι)
  | .authenticate i =>
    match s.stage i with
    | .received =>
      match getCurrentUser (request i) (s.userById (request i).userId) with
      | .error detail => some (s.answer i 401 detail)
      | .ok me => some (s.set i (.authenticated me))
    | _ => none
  | .check i =>
    match s.stage i with
    | .authenticated me =>
      match (request i).operation with
      | .deleteMyData => some (deleteMyData s i me)
      | .deactivate userId => some (deactivateUser s i me userId)
    | _ => none
  | .write i =>
    match (s.stage i).rowUpdate? with
    | some w =>
      match s.lock w.id with
      | none => some { s.set i (.written w) with lock := Function.update s.lock w.id (some i) }
      | some _ => none
    | none => none
  | .commit i =>
    match s.stage i with
    | .written w => some { s.answer i 200 (request i).operation.message with
        users := s.users.map w.apply
        lock := Function.update s.lock w.id none }
    | _ => none
  | .fail i =>
    match s.stage i with
    | .answered _ _ => none
    | .written w => some { s.answer i 500 "Internal Server Error" with
        lock := Function.update s.lock w.id none }
    | _ => some (s.answer i 500 "Internal Server Error")
  | .register user =>
    if s.users.any (·.id = user.id) then none
    else some { s with
      users := { user with role := "owner", isActive := true, isDeleted := false } :: s.users }

structure Db where
  users : List User
  primaryKey : (users.map User.id).Nodup

def start (db : Db) : World ι := ⟨db.users, fun _ => none, fun _ => .received⟩

def KeepsOwner (companyId : ℕ) (s : World ι) : Prop :=
  ∃ u ∈ s.users, u.isLiveOwner companyId

/-- The live owners of the company whose rows no request is writing. -/
def World.restingOwners (companyId : ℕ) (s : World ι) : List User :=
  s.users.filter fun u => u.isLiveOwner companyId && (s.lock u.id).isNone

/-- A write leaves an owner: a deactivated owner is not the last live one that rests, and
when an owner's data are deleted as many live ones rest as were counted before. -/
def LeavesOwner (companyId : ℕ) (s : World ι) : Event ι → Bool
  | .write i =>
    match s.stage i with
    | .mayDeactivate target =>
      !target.isOwner companyId || (s.restingOwners companyId).any (·.id ≠ target.id)
    | .mayDelete me (some counted) =>
      me.companyId ≠ companyId || counted ≤ (s.restingOwners companyId).length
    | _ => true
  | _ => true

end

section
variable {ι : Type*} {request : ι → Request} {s s' : World ι} {i : ι} {companyId : ℕ}

/-- A row that was read is still there, in its company and its role. -/
def Known (s : World ι) (u : User) : Prop :=
  ∃ v ∈ s.users, v.id = u.id ∧ v.role = u.role ∧ v.companyId = u.companyId

def StageWell (s : World ι) (i : ι) : Stage → Prop
  | .authenticated me => Known s me
  | .mayDelete me none => Known s me ∧ me.role ≠ "owner"
  | .mayDelete me (some counted) => Known s me ∧ 2 ≤ counted
  | .mayDeactivate target => Known s target
  | .written w => s.lock w.id = some i
  | .received | .answered _ _ => True

structure Inv (companyId : ℕ) (s : World ι) : Prop where
  primaryKey : (s.users.map User.id).Nodup
  resting : ∃ u ∈ s.users, u.isLiveOwner companyId ∧ s.lock u.id = none
  stage : ∀ i, StageWell s i (s.stage i)

theorem Inv.stageWell {p : Stage} (h : Inv companyId s) (hi : s.stage i = p) : StageWell s i p :=
  hi ▸ h.stage i

theorem mem_restingOwners {u : User} :
    u ∈ s.restingOwners companyId ↔ u ∈ s.users ∧ u.isLiveOwner companyId ∧ s.lock u.id = none := by
  simp [World.restingOwners]

theorem User.isOwner_of_isLiveOwner {u : User} (h : u.isLiveOwner companyId) :
    u.isOwner companyId := by
  simp only [User.isLiveOwner, Bool.and_eq_true] at h
  exact h.1.1

theorem RowUpdate.apply_ne {w : RowUpdate} {u : User} (h : u.id ≠ w.id) : w.apply u = u :=
  if_neg h

theorem RowUpdate.apply_key (w : RowUpdate) (u : User) :
    (w.apply u).id = u.id ∧ (w.apply u).role = u.role ∧ (w.apply u).companyId = u.companyId := by
  unfold RowUpdate.apply
  split <;> exact ⟨rfl, rfl, rfl⟩

theorem Inv.ne_of_not_owner (h : Inv companyId s) {me u : User} (hme : Known s me)
    (hnot : me.isOwner companyId = false) (hu : u ∈ s.users) (hlive : u.isLiveOwner companyId) :
    u.id ≠ me.id := by
  intro heq
  obtain ⟨v, hv, hid, hrole, hcompany⟩ := hme
  have hsame : v = u := List.inj_on_of_nodup_map h.primaryKey hv hu (hid.trans heq.symm)
  have howner := User.isOwner_of_isLiveOwner hlive
  rw [← hsame] at howner
  simp [User.isOwner, ← hrole, ← hcompany] at hnot howner
  exact hnot howner.1 howner.2

/-- Two resting owners are enough for one to be another than the given user. -/
theorem Inv.exists_other (h : Inv companyId s) (id : String)
    (htwo : 2 ≤ (s.restingOwners companyId).length) :
    ∃ u ∈ s.restingOwners companyId, u.id ≠ id := by
  by_contra hnone
  push Not at hnone
  have hnodup : ((s.restingOwners companyId).map User.id).Nodup :=
    h.primaryKey.sublist (List.filter_sublist.map _)
  have hall : (s.restingOwners companyId).map User.id =
      List.replicate (s.restingOwners companyId).length id :=
    List.eq_replicate_iff.mpr ⟨List.length_map _, by simpa using hnone⟩
  rw [hall, List.nodup_replicate] at hnodup
  omega

/-- What a request has read stays known, and its lock held. -/
theorem StageWell.frame {p : Stage} (h : StageWell s i p)
    (hknown : ∀ u, Known s u → Known s' u) (hlock : ∀ id, s.lock id = some i → s'.lock id = some i) :
    StageWell s' i p := by
  cases p with
  | authenticated me => exact hknown me h
  | mayDelete me counted =>
    cases counted with
    | none => exact ⟨hknown me h.1, h.2⟩
    | some n => exact ⟨hknown me h.1, h.2⟩
  | mayDeactivate target => exact hknown target h
  | written w => exact hlock w.id h
  | received => trivial
  | answered statusCode detail => trivial

theorem known_of_userById {id : String} {u : User} (h : s.userById id = some u) : Known s u :=
  ⟨u, List.mem_of_find?_eq_some h, rfl, rfl, rfl⟩

/-- The row that a request may write leaves a resting owner. -/
theorem Inv.leaves (h : Inv companyId s) {w : RowUpdate} (hw : (s.stage i).rowUpdate? = some w)
    (hok : LeavesOwner companyId s (.write i)) :
    ∃ u ∈ s.users, u.isLiveOwner companyId ∧ s.lock u.id = none ∧ u.id ≠ w.id := by
  obtain ⟨u, hu, hlive, hfree⟩ := h.resting
  have hstage := h.stage i
  simp only [LeavesOwner] at hok
  cases hi : s.stage i with
  | mayDeactivate target =>
    rw [hi] at hstage hw hok
    obtain rfl := Option.some.inj hw
    cases howner : target.isOwner companyId with
    | false => exact ⟨u, hu, hlive, hfree, h.ne_of_not_owner hstage howner hu hlive⟩
    | true =>
      simp only [howner, Bool.not_true, Bool.false_or, List.any_eq_true, decide_eq_true_eq] at hok
      obtain ⟨v, hv, hne⟩ := hok
      obtain ⟨hmem, hvlive, hvfree⟩ := mem_restingOwners.mp hv
      exact ⟨v, hmem, hvlive, hvfree, hne⟩
  | mayDelete me counted =>
    rw [hi] at hstage hw hok
    obtain rfl := Option.some.inj hw
    cases counted with
    | none =>
      have howner : me.isOwner companyId = false := by simp [User.isOwner, hstage.2]
      exact ⟨u, hu, hlive, hfree, h.ne_of_not_owner hstage.1 howner hu hlive⟩
    | some n =>
      by_cases hcompany : me.companyId = companyId
      · have htwo : 2 ≤ (s.restingOwners companyId).length :=
          hstage.2.trans (by simpa [hcompany] using hok)
        obtain ⟨v, hv, hne⟩ := h.exists_other me.id htwo
        obtain ⟨hmem, hvlive, hvfree⟩ := mem_restingOwners.mp hv
        exact ⟨v, hmem, hvlive, hvfree, hne⟩
      · have howner : me.isOwner companyId = false := by simp [User.isOwner, hcompany]
        exact ⟨u, hu, hlive, hfree, h.ne_of_not_owner hstage.1 howner hu hlive⟩
  | received => simp [hi, Stage.rowUpdate?] at hw
  | authenticated me => simp [hi, Stage.rowUpdate?] at hw
  | written v => simp [hi, Stage.rowUpdate?] at hw
  | answered statusCode detail => simp [hi, Stage.rowUpdate?] at hw

theorem Inv.register (h : Inv companyId s) {user : User}
    (hnew : ∀ u ∈ s.users, u.id ≠ user.id) :
    Inv companyId { s with users := user :: s.users } where
  primaryKey := by
    rw [List.map_cons, List.nodup_cons]
    refine ⟨fun hmem => ?_, h.primaryKey⟩
    obtain ⟨u, hu, heq⟩ := List.mem_map.mp hmem
    exact hnew u hu heq
  resting := by
    obtain ⟨u, hu, hlive⟩ := h.resting
    exact ⟨u, List.mem_cons_of_mem _ hu, hlive⟩
  stage := by
    intro j
    refine (h.stage j).frame ?_ fun _ => id
    rintro u ⟨v, hv, hsame⟩
    exact ⟨v, List.mem_cons_of_mem _ hv, hsame⟩

variable [DecidableEq ι]

theorem Inv.move (h : Inv companyId s) {p : Stage} (hp : StageWell s i p) :
    Inv companyId (s.set i p) where
  primaryKey := h.primaryKey
  resting := h.resting
  stage := (Function.forall_update_iff _ _).mpr
    ⟨hp.frame (fun _ => id) fun _ => id, fun j _ => (h.stage j).frame (fun _ => id) fun _ => id⟩

theorem getCurrentUser_eq_ok {r : Request} {row : Option User} {me : User}
    (h : getCurrentUser r row = .ok me) : row = some me := by
  cases row with
  | none => cases h
  | some user =>
    simp only [getCurrentUser] at h
    split at h
    · cases h
    · split at h
      · cases h
      · rw [Except.ok.inj h]

theorem Inv.deleteMyData (h : Inv companyId s) {me : User} (hme : Known s me) :
    Inv companyId (deleteMyData s i me) := by
  unfold Owners.deleteMyData
  split
  · split
    · exact h.move trivial
    · rename_i hcount
      exact h.move ⟨hme, not_le.mp hcount⟩
  · rename_i hnot
    exact h.move (p := .mayDelete me none) ⟨hme, hnot⟩

theorem Inv.deactivateUser (h : Inv companyId s) {me : User} {userId : String} :
    Inv companyId (deactivateUser s i me userId) := by
  unfold Owners.deactivateUser
  split
  · exact h.move trivial
  · split
    · exact h.move trivial
    · rename_i target htarget
      split
      · exact h.move trivial
      · exact h.move (p := .mayDeactivate target) (known_of_userById htarget)

/-- The row that a request writes is not the one of every resting owner. -/
theorem Inv.write (h : Inv companyId s) {w : RowUpdate} (hlock : s.lock w.id = none)
    (hother : ∃ u ∈ s.users, u.isLiveOwner companyId ∧ s.lock u.id = none ∧ u.id ≠ w.id) :
    Inv companyId { s.set i (.written w) with lock := Function.update s.lock w.id (some i) } where
  primaryKey := h.primaryKey
  resting := by
    obtain ⟨u, hu, hlive, hfree, hne⟩ := hother
    exact ⟨u, hu, hlive, (Function.update_of_ne hne _ _).trans hfree⟩
  stage := by
    refine (Function.forall_update_iff _ _).mpr ⟨Function.update_self .., fun j _ => ?_⟩
    refine (h.stage j).frame (fun _ => id) fun id hj => ?_
    have hid : id ≠ w.id := by
      rintro rfl
      exact absurd (hlock.symm.trans hj) (by simp)
    exact (Function.update_of_ne hid _ _).trans hj

/-- A request that has written ends, and its row with it, or not. -/
theorem Inv.finish (h : Inv companyId s) {w : RowUpdate} (hi : s.stage i = .written w)
    {f : User → User} (hf : ∀ u, u.id ≠ w.id → f u = u)
    (hkey : ∀ u, (f u).id = u.id ∧ (f u).role = u.role ∧ (f u).companyId = u.companyId)
    (statusCode : ℕ) (detail : String) :
    Inv companyId { s.answer i statusCode detail with
      users := s.users.map f, lock := Function.update s.lock w.id none } := by
  have hlock : s.lock w.id = some i := h.stageWell hi
  constructor
  · have hids : (s.users.map f).map User.id = s.users.map User.id := by
      rw [List.map_map]
      exact List.map_congr_left fun u _ => (hkey u).1
    rw [hids]
    exact h.primaryKey
  · obtain ⟨u, hu, hlive, hfree⟩ := h.resting
    have hne : u.id ≠ w.id := by
      intro heq
      rw [heq, hlock] at hfree
      cases hfree
    exact ⟨u, List.mem_map.mpr ⟨u, hu, hf u hne⟩, hlive,
      (Function.update_of_ne hne _ _).trans hfree⟩
  · refine (Function.forall_update_iff _ _).mpr ⟨trivial, fun j hji => ?_⟩
    refine (h.stage j).frame ?_ fun id hj => ?_
    · rintro u ⟨v, hv, hid, hrole, hcompany⟩
      obtain ⟨hid', hrole', hcompany'⟩ := hkey v
      exact ⟨f v, List.mem_map_of_mem hv, hid'.trans hid, hrole'.trans hrole,
        hcompany'.trans hcompany⟩
    · have hid : id ≠ w.id := by
        rintro rfl
        exact hji (Option.some.inj (hj.symm.trans hlock))
      exact (Function.update_of_ne hid _ _).trans hj

theorem inv_step {e : Event ι} (h : Inv companyId s) (hok : LeavesOwner companyId s e)
    (hs : step request s e = some s') : Inv companyId s' := by
  cases e with
  | authenticate i =>
    simp only [step] at hs
    split at hs
    · split at hs <;> obtain rfl := Option.some.inj hs
      · exact h.move trivial
      · rename_i me hme
        exact h.move (p := .authenticated me) (known_of_userById (getCurrentUser_eq_ok hme))
    · cases hs
  | check i =>
    simp only [step] at hs
    split at hs
    · rename_i me hi
      have hme : Known s me := h.stageWell hi
      split at hs <;> obtain rfl := Option.some.inj hs
      · exact h.deleteMyData hme
      · exact h.deactivateUser
    · cases hs
  | write i =>
    simp only [step] at hs
    split at hs
    · rename_i w hw
      split at hs
      · rename_i hlock
        obtain rfl := Option.some.inj hs
        exact h.write hlock (h.leaves hw hok)
      · cases hs
    · cases hs
  | commit i =>
    simp only [step] at hs
    split at hs
    · rename_i w hi
      obtain rfl := Option.some.inj hs
      exact h.finish hi (fun u => RowUpdate.apply_ne) w.apply_key _ _
    · cases hs
  | fail i =>
    simp only [step] at hs
    split at hs
    · cases hs
    · rename_i w hi
      obtain rfl := Option.some.inj hs
      have hend := h.finish hi (f := id) (fun _ _ => rfl) (fun _ => ⟨rfl, rfl, rfl⟩) 500
        "Internal Server Error"
      rw [List.map_id] at hend
      exact hend
    · obtain rfl := Option.some.inj hs
      exact h.move trivial
  | register user =>
    simp only [step] at hs
    split at hs
    · cases hs
    · rename_i hnew
      obtain rfl := Option.some.inj hs
      exact h.register (by simpa using hnew)

/-- A company with a live owner keeps one through every run whose writes leave one. -/
theorem keepsOwner_of_leaving {db : Db} (howner : ∃ u ∈ db.users, u.isLiveOwner companyId)
    (h : ReachedBy (step request) (fun s e => LeavesOwner companyId s e) (start db) s) :
    KeepsOwner companyId s := by
  have hstart : Inv companyId (start db : World ι) := by
    obtain ⟨u, hu, hlive⟩ := howner
    exact ⟨db.primaryKey, ⟨u, hu, hlive, rfl⟩, fun i => trivial⟩
  have hinv := h.invariant hstart fun _ _ _ hi hok hs => inv_step hi hok hs
  obtain ⟨u, hu, hlive, -⟩ := hinv.resting
  exact ⟨u, hu, hlive⟩

end

/-! ## The last owner, and the last two -/

def owner (id : String) : User :=
  ⟨id, 1, id ++ "@example.org", id, "owner", true, false, 0⟩

def oneOwner : Db := ⟨[owner "user_1"], by decide⟩

def twoOwners : Db := ⟨[owner "user_1", owner "user_2"], by decide⟩

def deletions : Bool → Request
  | true => ⟨"user_1", 0, .deleteMyData⟩
  | false => ⟨"user_2", 0, .deleteMyData⟩

def selfDeactivation : Unit → Request := fun _ => ⟨"user_1", 0, .deactivate "user_1"⟩

theorem keepsOwner_oneDeletion :
    KeepsOwner 1 ((runWhile (step deletions) (fun s e => LeavesOwner 1 s e) (start twoOwners)
      [.authenticate true, .check true, .write true, .commit true]).get (by decide)) :=
  keepsOwner_of_leaving (by decide) (ReachedBy.of_runWhile (Option.some_get _).symm)

def afterSelfDeactivation : World Unit :=
  (run (step selfDeactivation) (start oneOwner)
    [.authenticate (), .check (), .write (), .commit ()]).get (by decide)

/-- Both owners are counted before either is written. -/
def afterBothDeletions : World Bool :=
  (run (step deletions) (start twoOwners)
    [.authenticate true, .authenticate false, .check true, .check false, .write true, .write false,
      .commit true, .commit false]).get (by decide)

/-- The only owner deactivates himself; two owners delete their data at once. -/
theorem lastOwner_not_kept :
    (Reached (step selfDeactivation) (start oneOwner) afterSelfDeactivation ∧
      ¬KeepsOwner 1 afterSelfDeactivation) ∧
    (Reached (step deletions) (start twoOwners) afterBothDeletions ∧
      ¬KeepsOwner 1 afterBothDeletions) := by
  refine ⟨⟨Reached.of_run (Option.some_get _).symm, ?_⟩,
    ⟨Reached.of_run (Option.some_get _).symm, ?_⟩⟩
  · unfold KeepsOwner
    decide
  · unfold KeepsOwner
    decide

end WorkTicket.Auth.Owners
