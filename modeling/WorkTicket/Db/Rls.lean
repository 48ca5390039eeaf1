import WorkTicket.Foundation.SessionSettings

/-! The row-level-security context of a database session: `app.current_tenant_id` and
`app.bypass_rls`, set at the start of a session and reset before its connection goes
back to the pool. The reset comes after the commit, in a transaction that the close of
the session rolls back. -/

namespace WorkTicket.Db.Rls

open WorkTicket.SessionSettings

inductive RlsSetting
  | currentTenantId
  | bypassRls
  deriving DecidableEq, Repr

abbrev ConnId := ℕ
abbrev RlsOp := Op RlsSetting String
abbrev Pool := ConnId → Settings RlsSetting String

def rlsBlockUuid : String := "00000000-0000-0000-0000-000000000000"

def setRlsTenantContext (tenantId : String) (ok : Bool) : List RlsOp :=
  [.assign ⟨.currentTenantId, some tenantId⟩ ok]

def setRlsBlockContext (ok : Bool) : List RlsOp := setRlsTenantContext rlsBlockUuid ok

def setRlsBypassContext (ok : Bool) : List RlsOp := [.assign ⟨.bypassRls, some "true"⟩ ok]

/-- The two RESETs share one handler: the second is not tried when the first fails. -/
def clearRlsTenantContext (tenantOk bypassOk : Bool) : List RlsOp :=
  .assign ⟨.currentTenantId, none⟩ tenantOk ::
    if tenantOk then [.assign ⟨.bypassRls, none⟩ bypassOk] else []

def close : List RlsOp := [.rollback]

/-! ## Sessions -/

/-- How the body of a session ends: its commit holds or raises, the body raises, or it is
left by an exception the wrapper does not catch (a cancelled request). -/
inductive Ending
  | committed
  | commitFailed
  | raised
  | abandoned
  deriving DecidableEq, Repr

def Ending.ops : Ending → List RlsOp
  | .committed => [.commit true]
  | .commitFailed => [.commit false, .rollback]
  | .raised => [.rollback]
  | .abandoned => []

/-- What happens in one session: the tenant of the request, the outcome of each statement
of the wrapper, and the statements, commits and rollbacks of the body. -/
structure Request where
  tenant : Option String
  setOk : Bool
  body : List RlsOp
  ending : Ending
  clearTenantOk : Bool
  clearBypassOk : Bool

/-- The context of the request's tenant, or the one that blocks every query. -/
def initialContext (tenant : Option String) (ok : Bool) : List RlsOp :=
  match tenant with
  | some tid => setRlsTenantContext tid ok
  | none => setRlsBlockContext ok

/-- The frame the session dependencies share; `afterCommit` is what follows a commit. -/
def managedSession (afterCommit : List RlsOp) (r : Request) : List RlsOp :=
  initialContext r.tenant r.setOk ++ (r.body ++ (r.ending.ops ++
    ((if r.ending = .committed then afterCommit else []) ++
      (clearRlsTenantContext r.clearTenantOk r.clearBypassOk ++ close))))

def getDb (r : Request) : List RlsOp := managedSession [] r

/-- `expire_all` is no coroutine, so awaiting it raises after the commit and the handler
rolls back. -/
def getDbWithRefresh (r : Request) : List RlsOp := managedSession [.rollback] r

def getDbReadonly (r : Request) : List RlsOp := managedSession [] r

def transactional (r : Request) : List RlsOp := managedSession [] r

/-- The attempts of a function wrapped by `transactional` on the session of `get_db`,
part of that session's body. -/
def transactionalOn (attempts : List (List RlsOp × Ending)) : List RlsOp :=
  attempts.flatMap fun a => a.1 ++ a.2.ops

def bypassSession (setOk : Bool) (body : List RlsOp) : List RlsOp :=
  setRlsBypassContext setOk ++ (body ++ close)

inductive SessionKind
  | getDb (r : Request)
  | getDbWithRefresh (r : Request)
  | getDbReadonly (r : Request)
  | transactional (r : Request)
  | bypass (setOk : Bool) (body : List RlsOp)

def SessionKind.ops : SessionKind → List RlsOp
  | .getDb r => Rls.getDb r
  | .getDbWithRefresh r => Rls.getDbWithRefresh r
  | .getDbReadonly r => Rls.getDbReadonly r
  | .transactional r => Rls.transactional r
  | .bypass setOk body => bypassSession setOk body

structure PooledSession where
  kind : SessionKind
  connection : ℕ → ConnId

def PooledSession.kept (s : PooledSession) : List (ConnId × Assignment RlsSetting String) :=
  SessionSettings.kept s.connection .new s.kind.ops

def PooledSession.after (s : PooledSession) (pool : Pool) : Pool := settle pool s.kept

def PooledSession.views (s : PooledSession) (pool : Pool) : List (Settings RlsSetting String) :=
  SessionSettings.views s.connection .new pool s.kind.ops

def PooledSession.Asks (s : PooledSession) (k : RlsSetting) (v : String) : Prop :=
  ∃ ok, .assign ⟨k, some v⟩ ok ∈ s.kind.ops

def unset : Pool := fun _ _ => none

/-- After each session every connection is back without a context, and every query of a
session runs under settings it asked for. -/
def ContextEndsWithSession : Pool → List PooledSession → Prop
  | _, [] => True
  | pool, s :: rest => s.after pool = unset ∧
      (∀ view ∈ s.views pool, ComesFrom s.Asks view) ∧ ContextEndsWithSession (s.after pool) rest

theorem commit_not_mem_clear (tenantOk bypassOk : Bool) :
    .commit true ∉ clearRlsTenantContext tenantOk bypassOk := by
  cases tenantOk <;> simp [clearRlsTenantContext]

theorem commit_not_mem_close : .commit true ∉ close := by simp [close]

theorem foldl_next_queries (connection : ℕ → ConnId) {body : List RlsOp} {n : ℕ}
    {x : Tx ConnId RlsSetting String} (hbody : ∀ op ∈ body, op = .query true) :
    body.foldl (Session.next connection) ⟨n, some x⟩ = ⟨n, some x⟩ := by
  induction body with
  | nil => rfl
  | cons op body ih =>
    obtain rfl := hbody op List.mem_cons_self
    have hquery : Session.next connection ⟨n, some x⟩ (.query true : RlsOp) = ⟨n, some x⟩ := by
      simp [Session.next, Session.inTx, Session.opened, Tx.query]
    rw [List.foldl_cons, hquery]
    exact ih fun op hop => hbody op (List.mem_cons_of_mem _ hop)

/-- The context of every request that succeeds in one transaction outlives its session. -/
theorem getDb_committed_not_undone {tenant : Option String} {body : List RlsOp}
    (hbody : ∀ op ∈ body, op = .query true) (clearTenantOk clearBypassOk : Bool)
    (connection : ℕ → ConnId) :
    ¬ Undone (PooledSession.kept
      ⟨.getDb ⟨tenant, true, body, .committed, clearTenantOk, clearBypassOk⟩, connection⟩) := by
  obtain ⟨tid, htid⟩ : ∃ tid, initialContext tenant true = setRlsTenantContext tid true := by
    cases tenant with
    | none => exact ⟨rlsBlockUuid, rfl⟩
    | some tid => exact ⟨tid, rfl⟩
  have hset : Session.next connection (.new : Session ConnId RlsSetting String)
      (.assign ⟨.currentTenantId, some tid⟩ true) =
      ⟨1, some ⟨connection 0, [⟨.currentTenantId, some tid⟩], false⟩⟩ := rfl
  have hnone : SessionSettings.kept connection
      ⟨1, some ⟨connection 0, [⟨RlsSetting.currentTenantId, some tid⟩], false⟩⟩ body = [] :=
    kept_eq_nil fun hm => nomatch hbody _ hm
  have hkept : PooledSession.kept
      ⟨.getDb ⟨tenant, true, body, .committed, clearTenantOk, clearBypassOk⟩, connection⟩ =
        [(connection 0, ⟨.currentTenantId, some tid⟩)] := by
    simp only [PooledSession.kept, SessionKind.ops, getDb, managedSession, htid,
      setRlsTenantContext, kept_append, List.foldl_cons, List.foldl_nil, hset, hnone,
      foldl_next_queries connection hbody, Ending.ops, if_true,
      kept_eq_nil (commit_not_mem_clear _ _), kept_eq_nil commit_not_mem_close]
    rfl
  rw [hkept]
  exact fun h => List.not_mem_nil (h [] [] _ _ _ rfl)

theorem managedSession_uncommitted_undone {r : Request} (hbody : .commit true ∉ r.body)
    (hending : r.ending ≠ .committed) (connection : ℕ → ConnId) :
    Undone (SessionSettings.kept connection .new (managedSession [] r)) := by
  have hnil : SessionSettings.kept connection .new (managedSession [] r) = [] := by
    have hset : .commit true ∉ initialContext r.tenant r.setOk := by
      cases r.tenant <;> simp [initialContext, setRlsTenantContext, setRlsBlockContext]
    have hend : .commit true ∉ r.ending.ops := by
      cases he : r.ending <;> simp_all [Ending.ops]
    simp only [managedSession, kept_append, kept_eq_nil hset, kept_eq_nil hbody,
      kept_eq_nil hend, kept_eq_nil (commit_not_mem_clear _ _), kept_eq_nil commit_not_mem_close,
      if_neg hending, List.nil_append]
  rw [hnil]
  intro pre post c k v h
  simp at h

end WorkTicket.Db.Rls
