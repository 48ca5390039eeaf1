import WorkTicket.Db.TenantRedis

/-! Runs of the operations of many tenants on one Redis: what each tenant sees is what it would see
alone, and what is left when the keys of a tenant are deleted. -/

namespace WorkTicket.Db.TenantRedis

open AnsweredRuns KeyStore
open WorkTicket.Utf8 (Bytes)

variable {tenant owner : TenantId} {w v : World} {k p : Bytes} {req : Request}

/-! ## What `delete_all_tenant_keys` leaves -/

/-- The operations that can make a key. -/
def Op.creates : Op → Bool
  | .set .. => true
  | .incr .. => true
  | .decr .. => true
  | _ => false

def Request.Creates (k : Bytes) : Request → Prop
  | .call tenant op => op.creates = true ∧ Utf8.encodeCodes (tenantKey tenant op.key) = some k
  | _ => False

/-- The call will still delete the key. -/
def Purging (w : World) (tenant : TenantId) (id : ℕ) (k : Bytes) : Prop :=
  match w.purges tenant id with
  | some ⟨.scan cursor, _⟩ =>
    cursor < 2 ^ 64 ∧ (cursor = 0 ∨ w.redis.Owes (tenant.scope ++ [Glob.star]) cursor k)
  | some ⟨.delete keys next, _⟩ =>
    k ∈ keys ∨ next < 2 ^ 64 ∧ next ≠ 0 ∧ w.redis.Owes (tenant.scope ++ [Glob.star]) next k
  | _ => False

theorem command_of_none {op : Op} (hop : op.creates = false) {now : ℕ} {answer : Answer}
    {entry : Option (Entry Bytes)} (h : op.command now none = some (answer, entry)) :
    entry = none := by
  cases op with
  | set key value ex => cases hop
  | get key => exact (Prod.mk.inj (Option.some.inj h)).2.symm
  | delete key => exact (Prod.mk.inj (Option.some.inj h)).2.symm
  | «exists» key => exact (Prod.mk.inj (Option.some.inj h)).2.symm
  | expire key seconds =>
    simp only [Op.command, expireCommand, Option.bind_none] at h
    split_ifs at h
    exact (Prod.mk.inj (Option.some.inj h)).2.symm
  | ttl key => exact (Prod.mk.inj (Option.some.inj h)).2.symm
  | incr key amount => cases hop
  | decr key amount => cases hop

/-- A key that is there was there before, or has been made. -/
theorem present_of_step (hcreates : ¬req.Creates k)
    (h : (step req w).2.redis.present k = true) : w.redis.present k = true := by
  cases req with
  | tick ms => exact present_of_tick h
  | call owner op =>
    simp only [step, keyed] at h
    split at h
    case h_1 => exact h
    case h_2 k' hk' =>
      split at h
      case h_1 => exact h
      case h_2 answer entry hcommand =>
        refine present_of_write (fun heq hsome => ?_) h
        subst heq
        have hop : op.creates = false := by
          cases hop : op.creates with
          | false => rfl
          | true => exact absurd ⟨hop, hk'⟩ hcreates
        cases hfind : w.redis.find k' with
        | some e => rw [Store.present, hfind, Option.isSome_some]
        | none =>
          rw [hfind] at hcommand
          rw [command_of_none hop hcommand] at hsome
          cases hsome
  | scan owner cursor pattern count reply =>
    simp only [step, scan] at h
    split at h
    · exact h
    · rwa [scanned_present] at h
  | deleteAll owner id =>
    simp only [step, deleteAllTenantKeys] at h
    split_ifs at h <;> exact h
  | purgeScan owner id reply =>
    simp only [step, purgeScan] at h
    split at h
    · split at h
      · exact h
      · rwa [scanned_present] at h
    · exact h
  | purgeDelete owner id =>
    simp only [step, purgeDelete] at h
    split at h
    · exact (present_of_erase h).2
    · exact h

theorem owes_step {cursor : ℕ} (h : (step req w).2.redis.present k = true)
    (howes : w.redis.Owes p cursor k) : (step req w).2.redis.Owes p cursor k := by
  cases req with
  | tick ms => exact howes.settle rfl h
  | call owner op =>
    simp only [step, keyed] at h ⊢
    split at h
    case h_1 => exact howes
    case h_2 k' hk' =>
      split at h
      case h_1 => exact howes
      case h_2 => exact howes.settle rfl h
  | scan owner cursor pattern count reply =>
    simp only [step, scan]
    split
    · exact howes
    · exact howes.scanned
  | deleteAll owner id =>
    simp only [step, deleteAllTenantKeys]
    split_ifs <;> exact howes
  | purgeScan owner id reply =>
    simp only [step, purgeScan]
    split
    · split
      · exact howes
      · exact howes.scanned
    · exact howes
  | purgeDelete owner id =>
    simp only [step, purgeDelete] at h ⊢
    split at h
    · exact howes.settle rfl h
    · exact howes

section
variable {id id' : ℕ} {reply : Page Bytes}

theorem purges_purge_other {q : Purge} (h : ¬(owner = tenant ∧ id' = id)) :
    (w.purge owner id' q).purges tenant id = w.purges tenant id := by
  by_cases howner : owner = tenant
  · subst howner
    rw [purges_purge_self, Function.update_of_ne fun heq => h ⟨rfl, heq.symm⟩]
  · rw [purges_purge_of_ne fun heq => howner heq.symm]

/-- The turns of one call. -/
def Request.IsTurn (tenant : TenantId) (id : ℕ) : Request → Prop
  | .purgeScan owner id' _ => owner = tenant ∧ id' = id
  | .purgeDelete owner id' => owner = tenant ∧ id' = id
  | _ => False

theorem purges_step (hturn : ¬req.IsTurn tenant id) (hsome : w.purges tenant id ≠ none) :
    (step req w).2.purges tenant id = w.purges tenant id := by
  cases req with
  | tick ms => rfl
  | call owner op =>
    simp only [step, keyed]
    split
    · rfl
    · split <;> rfl
  | scan owner cursor pattern count reply =>
    simp only [step, scan]
    split <;> rfl
  | deleteAll owner id' =>
    simp only [step, deleteAllTenantKeys]
    split_ifs with hnone
    · refine purges_purge_other ?_
      rintro ⟨rfl, rfl⟩
      exact hsome hnone
    · rfl
  | purgeScan owner id' reply =>
    simp only [step, purgeScan]
    split
    · split
      · exact purges_purge_other hturn
      · exact purges_purge_other hturn
    · rfl
  | purgeDelete owner id' =>
    simp only [step, purgeDelete]
    split
    · exact purges_purge_other hturn
    · rfl

theorem Purging.congr (h : Purging w tenant id k) (hpurges : v.purges tenant id = w.purges tenant id)
    (howes : ∀ cursor, w.redis.Owes (tenant.scope ++ [Glob.star]) cursor k →
      v.redis.Owes (tenant.scope ++ [Glob.star]) cursor k) : Purging v tenant id k := by
  unfold Purging at h ⊢
  rw [hpurges]
  split at h
  · exact ⟨h.1, h.2.imp_right (howes _)⟩
  · exact h.imp_right fun hnext => ⟨hnext.1, hnext.2.1, howes _ hnext.2.2⟩
  · exact h

theorem Purging.ne_none (h : Purging w tenant id k) : w.purges tenant id ≠ none := by
  intro hnone
  rw [Purging, hnone] at h
  exact h

theorem scanPattern_some {cursor : ℕ} (h : cursor < 2 ^ 64) :
    scanPattern tenant cursor everything 500 = some (tenant.scope ++ [Glob.star]) := by
  rw [scanPattern, if_pos ⟨by decide, by decide, h⟩, tenantKeyPattern, encodeCodes_scope]
  rfl

/-- A page has the key, or the scan goes on. -/
theorem Purging.purgeScan (hk : IsKeyOf tenant k) (h : Purging w tenant id k)
    (hallowed : Allowed w (.purgeScan tenant id reply)) (hpresent : w.redis.present k = true) :
    Purging (purgeScan tenant id reply w).2 tenant id k := by
  obtain ⟨⟨stage, count⟩, hq⟩ := Option.ne_none_iff_exists'.mp h.ne_none
  cases stage with
  | scan cursor =>
    rw [Purging, hq] at h
    obtain ⟨hcursor, hscan⟩ := h
    have hp : scanPattern tenant cursor everything 500 = _ := scanPattern_some hcursor
    have hnext := owes_scanned (glob_everything hk) hpresent (hallowed.2 cursor count hq _ hp) hscan
    simp only [TenantRedis.purgeScan, hq, hp, Purging, World.purge, Function.update_self,
      Purge.paged]
    by_cases hkeys : reply.keys = []
    · rw [if_pos hkeys, Stage.after]
      rw [hkeys] at hnext
      obtain ⟨hne, howes⟩ := hnext.resolve_left List.not_mem_nil
      rw [if_neg hne]
      exact ⟨hallowed.1, .inr howes⟩
    · rw [if_neg hkeys]
      exact hnext.imp_right fun hmore => ⟨hallowed.1, hmore⟩
  | delete keys next =>
    simp only [TenantRedis.purgeScan, hq]
    exact h
  | done =>
    simp only [TenantRedis.purgeScan, hq]
    exact h

/-- The page's keys are deleted; if the key is still there the scan goes on. -/
theorem Purging.purgeDelete (h : Purging w tenant id k)
    (hpresent : (purgeDelete tenant id w).2.redis.present k = true) :
    Purging (TenantRedis.purgeDelete tenant id w).2 tenant id k := by
  obtain ⟨⟨stage, count⟩, hq⟩ := Option.ne_none_iff_exists'.mp h.ne_none
  cases stage with
  | scan cursor =>
    simp only [TenantRedis.purgeDelete, hq]
    exact h
  | delete keys next =>
    rw [Purging, hq] at h
    simp only [TenantRedis.purgeDelete, hq] at hpresent
    obtain ⟨hnext, hne, howes⟩ := h.resolve_left (present_of_erase hpresent).1
    simp only [TenantRedis.purgeDelete, hq, Purging, World.purge, Function.update_self, Stage.after,
      if_neg hne]
    exact ⟨hnext, .inr (howes.settle rfl hpresent)⟩
  | done =>
    simp only [TenantRedis.purgeDelete, hq]
    exact h

theorem Purging.step (hk : IsKeyOf tenant k) (h : Purging w tenant id k) (hallowed : Allowed w req)
    (hcreates : ¬req.Creates k) (hpresent : (step req w).2.redis.present k = true) :
    Purging (TenantRedis.step req w).2 tenant id k := by
  by_cases hturn : req.IsTurn tenant id
  · cases req with
    | purgeScan owner id' reply =>
      obtain ⟨rfl, rfl⟩ := hturn
      exact h.purgeScan hk hallowed (present_of_step hcreates hpresent)
    | purgeDelete owner id' =>
      obtain ⟨rfl, rfl⟩ := hturn
      exact h.purgeDelete hpresent
    | _ => exact hturn.elim
  · exact h.congr (purges_step hturn h.ne_none) fun cursor => owes_step hpresent

end

/-- A key of the tenant that nothing makes is there for as long only as the call will delete it. -/
theorem purging_after (hk : IsKeyOf tenant k) {id : ℕ} {requests : List Request}
    (h : w.redis.present k = true → Purging w tenant id k)
    (hallowed : EachCall step Allowed w requests)
    (hcreates : ∀ req ∈ requests, ¬req.Creates k)
    (hpresent : (after step w requests).redis.present k = true) :
    Purging (after step w requests) tenant id k := by
  induction requests generalizing w with
  | nil => exact h hpresent
  | cons req requests ih =>
    rw [List.forall_mem_cons] at hcreates
    refine ih (fun hstep => ?_) hallowed.2 hcreates.2 hpresent
    exact (h (present_of_step hcreates.1 hstep)).step hk hallowed.1 hcreates.1 hstep

/-! ## Any run -/

/-- The requests of `delete_all_tenant_keys`. -/
def Request.isPurgeOf (tenant : TenantId) : Request → Bool
  | .deleteAll owner _ => owner = tenant
  | .purgeScan owner _ _ => owner = tenant
  | .purgeDelete owner _ => owner = tenant
  | _ => false

/-- What holds of a run of any tenants: Redis may answer as it does if and only if it may so answer
each tenant alone; each tenant is answered as if alone; a scan that has ended returned the tenant's
keys that were there throughout and none that never was, and which these are is as in the run of the
tenant alone; and a call of `delete_all_tenant_keys` that has ended leaves no key of the tenant that
was not made again while it ran, and no other tenant's key is touched by it. -/
structure Isolated (requests : List Request) : Prop where
  allowed_iff : EachCall step Allowed start requests ↔
    ∀ tenant, EachCall step Allowed start (requests.filter (Request.isOf tenant))
  answers_eq : EachCall step Allowed start requests → ∀ tenant,
    (answers step start requests).filter (fun a => a.1.isOf tenant) =
      answers step start (requests.filter (Request.isOf tenant))
  scanned : EachCall step Allowed start requests →
    ∀ before tenant cursor pattern count reply p,
      before ++ [.scan tenant cursor pattern count reply] <+: requests → reply.next = 0 →
      scanPattern tenant cursor pattern count = some p →
      ∀ c ∈ (after step start before).redis.continuing Glob.glob p cursor,
        c ∈ (after step start (before.filter (Request.isOf tenant))).redis.continuing Glob.glob
          p cursor ∧
        ∀ k, (c.throughout k = true → k ∈ c.collected ++ reply.keys) ∧
          (k ∈ c.collected ++ reply.keys → c.sometime k = true ∧ IsKeyOf tenant k)
  purged : EachCall step Allowed start requests → ∀ before during tenant id count k,
    before ++ .deleteAll tenant id :: during <+: requests →
    (after step start before).purges tenant id = none →
    (after step start (before ++ .deleteAll tenant id :: during)).purges tenant id =
      some ⟨.done, count⟩ →
    IsKeyOf tenant k → (∀ req ∈ during, ¬req.Creates k) →
      (after step start (before ++ .deleteAll tenant id :: during)).redis.present k = false
  spared : EachCall step Allowed start requests → ∀ before tenant req k,
    before ++ [req] <+: requests → req.isPurgeOf tenant = true → ¬IsKeyOf tenant k →
      (after step start (before ++ [req])).redis.entries k =
        (after step start before).redis.entries k

variable {requests before : List Request}

def nilTenant : TenantId where
  text := List.replicate 8 0x30 ++ hyphen :: List.replicate 4 0x30 ++ hyphen ::
    List.replicate 4 0x30 ++ hyphen :: List.replicate 4 0x30 ++ hyphen :: List.replicate 12 0x30
  canonical := by decide

theorem exists_isOf (req : Request) : ∃ tenant, req.isOf tenant = true := by
  cases req with
  | tick ms => exact ⟨nilTenant, rfl⟩
  | call owner op => exact ⟨owner, decide_eq_true rfl⟩
  | scan owner cursor pattern count reply => exact ⟨owner, decide_eq_true rfl⟩
  | deleteAll owner id => exact ⟨owner, decide_eq_true rfl⟩
  | purgeScan owner id reply => exact ⟨owner, decide_eq_true rfl⟩
  | purgeDelete owner id => exact ⟨owner, decide_eq_true rfl⟩

theorem agrees_after (h : EachCall step Allowed start requests) (tenant : TenantId) :
    Agrees tenant (after step start requests)
      (after step start (requests.filter (Request.isOf tenant))) :=
  after_filter (fun _ _ _ hR ho hi => (hR.step ho hi).2) (fun _ _ _ hR ho hi => hR.step_left ho hi)
    (agrees_start tenant) h

theorem eachCall_of_prefix {more : List Request} (hstart : before ++ more <+: requests)
    (h : EachCall step Allowed start requests) :
    EachCall step Allowed start before ∧
      EachCall step Allowed (after step start before) more := by
  obtain ⟨rest, rfl⟩ := hstart
  exact EachCall.append.mp (EachCall.append.mp h).1

theorem entries_step_of_isPurgeOf (hpending : PendingOwn w) (hreq : req.isPurgeOf tenant = true)
    (hk : ¬IsKeyOf tenant k) : (step req w).2.redis.entries k = w.redis.entries k := by
  cases req with
  | tick ms => cases hreq
  | call owner op => cases hreq
  | scan owner cursor pattern count reply => cases hreq
  | deleteAll owner id =>
    simp only [step, deleteAllTenantKeys]
    split_ifs <;> rfl
  | purgeScan owner id reply =>
    simp only [step, purgeScan]
    split
    · split
      · rfl
      · simp only [Store.scanned]
        split_ifs <;> rfl
    · rfl
  | purgeDelete owner id =>
    obtain rfl := of_decide_eq_true hreq
    simp only [step, purgeDelete]
    split
    case h_1 keys cursor count hstage =>
      have hnot : k ∉ keys := fun hmem => hk (hpending owner id keys cursor count hstage k hmem)
      exact if_neg hnot
    case h_2 => rfl

end WorkTicket.Db.TenantRedis
