import WorkTicket.Foundation.AnsweredRuns
import WorkTicket.Foundation.Glob
import WorkTicket.Foundation.KeyStore
import WorkTicket.Foundation.Utf8

/-! Redis as it is used for the tenants, who share one server: each key and each pattern starts with
the id of its tenant. -/

namespace WorkTicket.Db.TenantRedis

open AnsweredRuns KeyStore
open WorkTicket.Utf8 (Bytes)

/-! ## Keys -/

/-- Code points, among which there can be lone surrogates. -/
abbrev Text := List ℕ

def hyphen : ℕ := 0x2d

def separator : ℕ := 0x3a

def isHexDigit (c : ℕ) : Bool := (0x30 ≤ c && c ≤ 0x39) || (0x61 ≤ c && c ≤ 0x66)

/-- Hexadecimal digits in groups of 8, 4, 4, 4 and 12. -/
def isCanonicalUuid (text : Text) : Bool :=
  text.length = 36 && text.zipIdx.all fun (c, i) =>
    if i ∈ [8, 13, 18, 23] then c = hyphen else isHexDigit c

@[ext]
structure TenantId where
  text : Text
  canonical : isCanonicalUuid text = true
  deriving DecidableEq

/-- `"tnt"`. -/
def tenantKeyPrefix : Text := [0x74, 0x6e, 0x74]

/-- What all keys of the tenant start with. -/
def TenantId.scopeText (tenant : TenantId) : Text :=
  tenantKeyPrefix ++ separator :: tenant.text ++ [separator]

/-- `_tenant_key`. -/
def tenantKey (tenant : TenantId) (key : Text) : Text := tenant.scopeText ++ key

/-- `_tenant_key_pattern`. -/
def tenantKeyPattern (tenant : TenantId) (pattern : Text) : Text := tenant.scopeText ++ pattern

/-- `"*"`. -/
def everything : Text := [0x2a]

/-! ## The commands of Redis -/

/-- An `int` that Redis takes. -/
def isInt64 (n : ℤ) : Bool := -2 ^ 63 ≤ n && n < 2 ^ 63

def decimal (n : ℤ) : Bytes :=
  ((if n < 0 then ['-'] else []) ++ Nat.toDigits 10 n.natAbs).map fun c => UInt8.ofNat c.toNat

/-- `string2ll`: a value that is the decimal text of a number in range, and nothing else. -/
def parseInt64 (value : Bytes) : Option ℤ :=
  let negative := value.head? = some 0x2d
  let magnitude : ℕ :=
    (if negative then value.tail else value).foldl (fun n b => n * 10 + (b.toNat - 0x30)) 0
  let n : ℤ := if negative then -magnitude else magnitude
  if decimal n = value ∧ isInt64 n then some n else none

inductive Answer
  | bool (b : Bool)
  | text (value : Option Text)
  | int (n : Option ℤ)
  | page (page : Page Bytes)
  | none
  deriving DecidableEq, Repr

/-- A command for one key: it is refused, or answers and leaves an entry. -/
abbrev Command := ℕ → Option (Entry Bytes) → Option (Answer × Option (Entry Bytes))

/-- The time in milliseconds that a number of seconds after `now` is. -/
def deadline (now : ℕ) (seconds : ℤ) : ℤ := now + 1000 * seconds

/-- `SET`, with `EX`; a value that the client cannot encode is refused as well. -/
def setCommand (value : Option Bytes) (ex : Option ℤ) : Command := fun now _ =>
  match value, ex with
  | none, _ => none
  | some value, none => some (.bool true, some ⟨value, none⟩)
  | some value, some ex =>
    if 0 < ex ∧ isInt64 (deadline now ex) then
      some (.bool true, some ⟨value, some (deadline now ex).toNat⟩)
    else none

/-- `GET`; the client decodes the value. -/
def getCommand : Command := fun _ entry =>
  match entry with
  | none => some (.text none, none)
  | some e => (Utf8.decodeCodes e.value).map fun text => (.text (some text), some e)

def deleteCommand : Command := fun _ _ => some (.bool true, none)

def existsCommand : Command := fun _ entry => some (.bool entry.isSome, entry)

/-- `EXPIRE`, which deletes a key whose time has come. -/
def expireCommand (seconds : ℤ) : Command := fun now entry =>
  if isInt64 (1000 * seconds) ∧ isInt64 (deadline now seconds) then
    some (.bool true, entry.bind fun e =>
      if deadline now seconds ≤ now then none
      else some ⟨e.value, some (deadline now seconds).toNat⟩)
  else none

/-- `TTL`, in seconds. -/
def ttlCommand : Command := fun now entry =>
  match entry with
  | none => some (.int (some (-2)), none)
  | some e =>
    match e.expireAt with
    | none => some (.int (some (-1)), entry)
    | some at' => some (.int (some ↑((at' - now + 500) / 1000)), entry)

/-- `INCRBY`, which keeps the time to live. -/
def incrCommand (amount : ℤ) : Command := fun _ entry => do
  let n ← (entry.map fun e => parseInt64 e.value).getD (some 0)
  if isInt64 amount ∧ isInt64 (n + amount) then
    some (.int (some (n + amount)), some ⟨decimal (n + amount), entry.bind Entry.expireAt⟩)
  else none

/-! ## The operations -/

/-- How far `delete_all_tenant_keys` has got: before a page with this cursor, before the page's keys
are deleted, or at its end. -/
inductive Stage
  | scan (cursor : ℕ)
  | delete (keys : List Bytes) (next : ℕ)
  | done
  deriving DecidableEq, Repr

structure Purge where
  stage : Stage
  count : ℕ
  deriving DecidableEq, Repr

/-- The server, and the calls of `delete_all_tenant_keys` that are under way, by tenant and number. -/
structure World where
  redis : Store Bytes Bytes Bytes
  purges : TenantId → ℕ → Option Purge

def start : World := ⟨empty, fun _ _ => none⟩

/-- An operation for one key of a tenant. An exception, be it of the client or from the server, gives
`failed`. -/
def keyed (tenant : TenantId) (key : Text) (failed : Answer) (command : Command) (w : World) :
    Answer × World :=
  match Utf8.encodeCodes (tenantKey tenant key) with
  | none => (failed, w)
  | some k =>
    match command w.redis.now (w.redis.find k) with
    | none => (failed, w)
    | some (answer, entry) => (answer, { w with redis := w.redis.write Glob.glob k entry })

inductive Op
  | set (key : Text) (value : Option Bytes) (ex : Option ℤ)
  | get (key : Text)
  | delete (key : Text)
  | exists (key : Text)
  | expire (key : Text) (seconds : ℤ)
  | ttl (key : Text)
  | incr (key : Text) (amount : ℤ)
  | decr (key : Text) (amount : ℤ)
  deriving DecidableEq, Repr

def Op.key : Op → Text
  | .set key _ _ => key
  | .get key => key
  | .delete key => key
  | .exists key => key
  | .expire key _ => key
  | .ttl key => key
  | .incr key _ => key
  | .decr key _ => key

def Op.failed : Op → Answer
  | .set .. => .bool false
  | .get _ => .text none
  | .delete _ => .bool false
  | .exists _ => .bool false
  | .expire .. => .bool false
  | .ttl _ => .int none
  | .incr .. => .int none
  | .decr .. => .int none

def Op.command : Op → Command
  | .set _ value ex => setCommand value ex
  | .get _ => getCommand
  | .delete _ => deleteCommand
  | .exists _ => existsCommand
  | .expire _ seconds => expireCommand seconds
  | .ttl _ => ttlCommand
  | .incr _ amount => incrCommand amount
  | .decr _ amount => incrCommand (-amount)

/-- The pattern of a `SCAN` that is not refused. -/
def scanPattern (tenant : TenantId) (cursor : ℕ) (pattern : Text) (count : ℤ) : Option Bytes :=
  if 0 < count ∧ isInt64 count ∧ cursor < 2 ^ 64 then
    Utf8.encodeCodes (tenantKeyPattern tenant pattern)
  else none

def scan (tenant : TenantId) (cursor : ℕ) (pattern : Text) (count : ℤ) (reply : Page Bytes)
    (w : World) : Answer × World :=
  match scanPattern tenant cursor pattern count with
  | none => (.page ⟨0, []⟩, w)
  | some p => (.page reply, { w with redis := w.redis.scanned Glob.glob p cursor reply })

def World.purge (w : World) (tenant : TenantId) (id : ℕ) (p : Purge) : World :=
  { w with purges := Function.update w.purges tenant (Function.update (w.purges tenant) id (some p)) }

/-- After a page, the loop goes on unless the cursor is `0`. -/
def Stage.after (next : ℕ) : Stage := if next = 0 then .done else .scan next

/-- The loop after a page: an empty one is not passed to `DEL`. -/
def Purge.paged (count : ℕ) (reply : Page Bytes) : Purge where
  stage := if reply.keys = [] then .after reply.next else .delete reply.keys reply.next
  count := count

/-- The count is returned at the end. -/
def Purge.answer (p : Purge) : Answer := if p.stage = .done then .int (some p.count) else .none

def deleteAllTenantKeys (tenant : TenantId) (id : ℕ) (w : World) : Answer × World :=
  (.none, if w.purges tenant id = none then w.purge tenant id ⟨.scan 0, 0⟩ else w)

/-- The `SCAN` of a turn of the loop. -/
def purgeScan (tenant : TenantId) (id : ℕ) (reply : Page Bytes) (w : World) : Answer × World :=
  match w.purges tenant id with
  | some ⟨.scan cursor, count⟩ =>
    match scanPattern tenant cursor everything 500 with
    | none => (.int (some count), w.purge tenant id ⟨.done, count⟩)
    | some p =>
      let next := Purge.paged count reply
      (next.answer, { w.purge tenant id next with redis := w.redis.scanned Glob.glob p cursor reply })
  | _ => (.none, w)

/-- The `DEL` of a turn. -/
def purgeDelete (tenant : TenantId) (id : ℕ) (w : World) : Answer × World :=
  match w.purges tenant id with
  | some ⟨.delete keys cursor, count⟩ =>
    let next : Purge := ⟨.after cursor, count + keys.length⟩
    (next.answer, { w.purge tenant id next with redis := w.redis.erase Glob.glob keys })
  | _ => (.none, w)

/-- What happens on the server, one command at a time. A scan comes with what Redis returns for it. -/
inductive Request
  | tick (ms : ℕ)
  | call (tenant : TenantId) (op : Op)
  | scan (tenant : TenantId) (cursor : ℕ) (pattern : Text) (count : ℤ) (reply : Page Bytes)
  | deleteAll (tenant : TenantId) (id : ℕ)
  | purgeScan (tenant : TenantId) (id : ℕ) (reply : Page Bytes)
  | purgeDelete (tenant : TenantId) (id : ℕ)
  deriving DecidableEq

def step : Request → World → Answer × World
  | .tick ms, w => (.none, { w with redis := w.redis.tick Glob.glob ms })
  | .call tenant op, w => keyed tenant op.key op.failed op.command w
  | .scan tenant cursor pattern count reply, w => scan tenant cursor pattern count reply w
  | .deleteAll tenant id, w => deleteAllTenantKeys tenant id w
  | .purgeScan tenant id reply, w => purgeScan tenant id reply w
  | .purgeDelete tenant id, w => purgeDelete tenant id w

/-! ## What is said of the runs -/

attribute [grind =] keyed Op.command scan Purge.paged deleteAllTenantKeys purgeScan purgeDelete step

def Request.isOf (tenant : TenantId) : Request → Bool
  | .tick _ => true
  | .call owner _ => owner = tenant
  | .scan owner .. => owner = tenant
  | .deleteAll owner _ => owner = tenant
  | .purgeScan owner .. => owner = tenant
  | .purgeDelete owner _ => owner = tenant

/-- What a scan comes with is something Redis may return for it. -/
def Allowed (w : World) : Request → Prop
  | .scan tenant cursor pattern count reply =>
    reply.next < 2 ^ 64 ∧ ∀ p, scanPattern tenant cursor pattern count = some p →
      w.redis.Lawful Glob.glob p cursor reply
  | .purgeScan tenant id reply =>
    reply.next < 2 ^ 64 ∧ ∀ cursor count, w.purges tenant id = some ⟨.scan cursor, count⟩ →
      ∀ p, scanPattern tenant cursor everything 500 = some p →
        w.redis.Lawful Glob.glob p cursor reply
  | _ => True

/-- The bytes all keys of the tenant start with. -/
def TenantId.scope (tenant : TenantId) : Bytes := tenant.scopeText.map UInt8.ofNat

def IsKeyOf (tenant : TenantId) (k : Bytes) : Prop := tenant.scope <+: k

def isPatternOf (tenant : TenantId) (p : Bytes) : Bool := tenant.scope.isPrefixOf p

variable {tenant owner : TenantId} {w v : World} {k p : Bytes}

/-! ## Keys of one tenant -/

theorem TenantId.text_mem {c : ℕ} (hc : c ∈ tenant.text) : c = hyphen ∨ isHexDigit c = true := by
  have hcanonical := tenant.canonical
  simp only [isCanonicalUuid, Bool.and_eq_true, List.all_eq_true] at hcanonical
  obtain ⟨i, hi, rfl⟩ := List.mem_iff_getElem.mp hc
  have hdigit := hcanonical.2 (tenant.text[i], i) (List.mk_mem_zipIdx_iff_getElem?.mpr (by simp))
  simp only at hdigit
  split_ifs at hdigit
  · exact .inl (of_decide_eq_true hdigit)
  · exact .inr hdigit

theorem TenantId.text_length (tenant : TenantId) : tenant.text.length = 36 := by
  have hcanonical := tenant.canonical
  rw [isCanonicalUuid, Bool.and_eq_true] at hcanonical
  exact of_decide_eq_true hcanonical.1

/-- ASCII, and none of `*`, `?`, `[` and the backslash. -/
def isPlainCode (c : ℕ) : Bool :=
  c < 0x80 && c ≠ 0x2a && c ≠ 0x3f && c ≠ 0x5b && c ≠ 0x5c

theorem TenantId.isPlainCode {c : ℕ} (hc : c ∈ tenant.scopeText) : isPlainCode c = true := by
  have hdigit : ∀ c < 0x80, isHexDigit c = true → TenantRedis.isPlainCode c = true := by decide
  simp only [TenantId.scopeText, List.mem_append, List.mem_cons, List.not_mem_nil, or_false] at hc
  rcases hc with (hc | rfl | hc) | rfl
  · revert c
    decide
  · decide
  · rcases tenant.text_mem hc with rfl | hhex
    · decide
    · refine hdigit c ?_ hhex
      simp only [isHexDigit, Bool.or_eq_true, Bool.and_eq_true, decide_eq_true_eq] at hhex
      omega
  · decide

/-- The bytes of a scope are ASCII and stand for themselves in a pattern. -/
theorem scope_byte {b : UInt8} (hb : b ∈ tenant.scope) : b < 0x80 ∧ Glob.Plain b := by
  have hplain : ∀ c < 0x80, isPlainCode c = true →
      UInt8.ofNat c < 0x80 ∧ Glob.Plain (UInt8.ofNat c) := by decide
  obtain ⟨c, hc, rfl⟩ := List.mem_map.mp hb
  have hcode := tenant.isPlainCode hc
  refine hplain c ?_ hcode
  simp only [isPlainCode, Bool.and_eq_true, decide_eq_true_eq] at hcode
  omega

theorem map_toNat_scope (tenant : TenantId) : tenant.scope.map UInt8.toNat = tenant.scopeText := by
  rw [TenantId.scope, List.map_map]
  refine (List.map_congr_left fun c hc => ?_).trans (List.map_id _)
  have hcode := tenant.isPlainCode hc
  simp only [isPlainCode, Bool.and_eq_true, decide_eq_true_eq] at hcode
  rw [Function.comp_apply, UInt8.toNat_ofNat', Nat.mod_eq_of_lt (by omega)]
  rfl

theorem encodeCodes_scope (tenant : TenantId) (key : Text) :
    Utf8.encodeCodes (tenant.scopeText ++ key) =
      (Utf8.encodeCodes key).map (tenant.scope ++ ·) := by
  rw [← map_toNat_scope]
  exact Utf8.encodeCodes_append_ascii (fun b hb => (scope_byte hb).1) key

theorem isKeyOf_of_encode {key : Text} (h : Utf8.encodeCodes (tenantKey tenant key) = some k) :
    IsKeyOf tenant k := by
  rw [tenantKey, encodeCodes_scope] at h
  obtain ⟨bytes, -, rfl⟩ := Option.map_eq_some_iff.mp h
  exact List.prefix_append _ _

/-- A key is of one tenant only. -/
theorem IsKeyOf.eq (h : IsKeyOf tenant k) (h' : IsKeyOf owner k) : tenant = owner := by
  have hlength : tenant.scope.length = owner.scope.length := by
    simp [TenantId.scope, TenantId.scopeText, TenantId.text_length]
  have hscope : tenant.scope = owner.scope :=
    (List.prefix_of_prefix_length_le h h' hlength.le).eq_of_length hlength
  have htext : tenant.scopeText = owner.scopeText := by
    rw [← map_toNat_scope, ← map_toNat_scope, hscope]
  exact TenantId.ext (by simpa [TenantId.scopeText] using htext)

theorem isPatternOf_iff : isPatternOf tenant p = true ↔ tenant.scope <+: p :=
  List.isPrefixOf_iff_prefix

theorem isPatternOf_scanPattern {cursor : ℕ} {pattern : Text} {count : ℤ}
    (h : scanPattern tenant cursor pattern count = some p) : isPatternOf tenant p = true := by
  unfold scanPattern at h
  split_ifs at h
  exact isPatternOf_iff.mpr (isKeyOf_of_encode h)

theorem isPatternOf_eq (h : isPatternOf tenant p = true) (h' : isPatternOf owner p = true) :
    tenant = owner :=
  IsKeyOf.eq (isPatternOf_iff.mp h) (isPatternOf_iff.mp h')

/-- A pattern of a tenant matches no key of another one. -/
theorem isKeyOf_of_glob (hp : isPatternOf tenant p = true) (hk : Glob.glob p k = true) :
    IsKeyOf tenant k := by
  obtain ⟨pattern, rfl⟩ := isPatternOf_iff.mp hp
  obtain ⟨rest, rfl, -⟩ :=
    (Glob.glob_append_plain (fun b hb => (scope_byte hb).2) pattern k).mp hk
  exact List.prefix_append _ _

theorem glob_everything (h : IsKeyOf tenant k) :
    Glob.glob (tenant.scope ++ [Glob.star]) k = true := by
  obtain ⟨rest, rfl⟩ := h
  exact (Glob.glob_append_plain (fun b hb => (scope_byte hb).2) _ _).mpr
    ⟨rest, rfl, Glob.glob_star rest⟩

/-! ## One request -/

/-- The keys that are about to be deleted are the tenant's. -/
def PendingOwn (w : World) : Prop :=
  ∀ tenant id keys next count, w.purges tenant id = some ⟨.delete keys next, count⟩ →
    ∀ k ∈ keys, IsKeyOf tenant k

/-- The tenant's part of `w` is as in `v`. -/
structure Agrees (tenant : TenantId) (w v : World) : Prop where
  redis : Follows Glob.glob (IsKeyOf tenant) (isPatternOf tenant) w.redis v.redis
  purges : w.purges tenant = v.purges tenant
  pending : PendingOwn w

theorem agrees_start (tenant : TenantId) : Agrees tenant start start :=
  ⟨follows_empty, rfl, fun _ _ _ _ _ h => by cases h⟩

theorem glob_own (tenant : TenantId) :
    ∀ p k, isPatternOf tenant p = true → Glob.glob p k = true → IsKeyOf tenant k :=
  fun _ _ hp hk => isKeyOf_of_glob hp hk

section
variable {id : ℕ} {q : Purge}

theorem purges_purge_self (w : World) (tenant : TenantId) (id : ℕ) (q : Purge) :
    (w.purge tenant id q).purges tenant = Function.update (w.purges tenant) id (some q) :=
  Function.update_self ..

theorem purges_purge_of_ne (h : tenant ≠ owner) :
    (w.purge owner id q).purges tenant = w.purges tenant :=
  Function.update_of_ne h ..

/-- Only the tenant's own keys are marked. -/
theorem PendingOwn.purge (h : PendingOwn w)
    (hpurge : ∀ keys next, q.stage = .delete keys next → ∀ k ∈ keys, IsKeyOf tenant k) :
    PendingOwn (w.purge tenant id q) := by
  intro owner id' keys next count hkeys
  by_cases howner : owner = tenant
  · subst howner
    rw [purges_purge_self] at hkeys
    by_cases hid : id' = id
    · subst hid
      rw [Function.update_self] at hkeys
      exact hpurge keys next (by rw [Option.some.inj hkeys])
    · rw [Function.update_of_ne hid] at hkeys
      exact h owner id' keys next count hkeys
  · rw [purges_purge_of_ne howner] at hkeys
    exact h owner id' keys next count hkeys

end

/-! ## A key of the tenant, and a key of another one -/

theorem Agrees.keyed (h : Agrees tenant w v) (key : Text) (failed : Answer) (command : Command) :
    (keyed tenant key failed command w).1 = (keyed tenant key failed command v).1 ∧
      Agrees tenant (keyed tenant key failed command w).2 (keyed tenant key failed command v).2 := by
  unfold TenantRedis.keyed
  cases hk : Utf8.encodeCodes (tenantKey tenant key) with
  | none => exact ⟨rfl, h⟩
  | some k =>
    have hfind := h.redis.find_eq (isKeyOf_of_encode hk)
    simp only [hfind, h.redis.now_eq]
    cases command v.redis.now (v.redis.find k) with
    | none => exact ⟨rfl, h⟩
    | some result => exact ⟨rfl, h.redis.write (glob_own tenant) k _, h.purges, h.pending⟩

theorem Agrees.keyed_left (h : Agrees tenant w v) (howner : owner ≠ tenant) (key : Text)
    (failed : Answer) (command : Command) :
    Agrees tenant (TenantRedis.keyed owner key failed command w).2 v := by
  unfold TenantRedis.keyed
  cases hk : Utf8.encodeCodes (tenantKey owner key) with
  | none => exact h
  | some k =>
    simp only
    cases command w.redis.now (w.redis.find k) with
    | none => exact h
    | some result =>
      have hother : ¬IsKeyOf tenant k := fun htenant => howner ((isKeyOf_of_encode hk).eq htenant)
      exact ⟨h.redis.write_left (glob_own tenant) hother _, h.purges, h.pending⟩

/-! ## A scan -/

section
variable {cursor id : ℕ} {pattern : Text} {count : ℤ} {reply : Page Bytes}

theorem Agrees.scan (h : Agrees tenant w v)
    (hallowed : Allowed w (.scan tenant cursor pattern count reply)) :
    (scan tenant cursor pattern count reply w).1 = (scan tenant cursor pattern count reply v).1 ∧
      Agrees tenant (scan tenant cursor pattern count reply w).2
        (scan tenant cursor pattern count reply v).2 := by
  unfold TenantRedis.scan
  cases hp : scanPattern tenant cursor pattern count with
  | none => exact ⟨rfl, h⟩
  | some p =>
    exact ⟨rfl, h.redis.scanned (glob_own tenant) (isPatternOf_scanPattern hp) (hallowed.2 p hp),
      h.purges, h.pending⟩

theorem not_isPatternOf (howner : owner ≠ tenant) (h : isPatternOf owner p = true) :
    isPatternOf tenant p = false := by
  cases htenant : isPatternOf tenant p with
  | false => rfl
  | true => exact absurd (isPatternOf_eq h htenant) howner

theorem Agrees.scan_left (h : Agrees tenant w v) (howner : owner ≠ tenant)
    (hallowed : Allowed w (.scan owner cursor pattern count reply)) :
    Agrees tenant (TenantRedis.scan owner cursor pattern count reply w).2 v := by
  unfold TenantRedis.scan
  cases hp : scanPattern owner cursor pattern count with
  | none => exact h
  | some p =>
    exact ⟨h.redis.scanned_left (not_isPatternOf howner (isPatternOf_scanPattern hp))
      (hallowed.2 p hp), h.purges, h.pending⟩

/-! ## The loop of `delete_all_tenant_keys` -/

theorem Agrees.purge {q : Purge} (h : Agrees tenant w v)
    (hq : ∀ keys next, q.stage = .delete keys next → ∀ k ∈ keys, IsKeyOf tenant k) :
    Agrees tenant (w.purge tenant id q) (v.purge tenant id q) where
  redis := h.redis
  purges := by rw [purges_purge_self, purges_purge_self, h.purges]
  pending := h.pending.purge hq

theorem Agrees.purge_left {q : Purge} (h : Agrees tenant w v) (howner : owner ≠ tenant)
    (hq : ∀ keys next, q.stage = .delete keys next → ∀ k ∈ keys, IsKeyOf owner k) :
    Agrees tenant (w.purge owner id q) v where
  redis := h.redis
  purges := (purges_purge_of_ne howner.symm).trans h.purges
  pending := h.pending.purge hq

theorem Agrees.deleteAll (h : Agrees tenant w v) :
    Agrees tenant (deleteAllTenantKeys tenant id w).2 (deleteAllTenantKeys tenant id v).2 := by
  simp only [deleteAllTenantKeys, h.purges]
  split_ifs
  · exact h.purge fun keys next hstage => by cases hstage
  · exact h

theorem Agrees.deleteAll_left (h : Agrees tenant w v) (howner : owner ≠ tenant) :
    Agrees tenant (deleteAllTenantKeys owner id w).2 v := by
  simp only [deleteAllTenantKeys]
  split_ifs
  · exact h.purge_left howner fun keys next hstage => by cases hstage
  · exact h

theorem after_ne_delete {next next' : ℕ} {keys : List Bytes} :
    Stage.after next ≠ .delete keys next' := by
  unfold Stage.after
  split_ifs <;> exact fun h => by cases h

/-- After a page the loop holds the page's keys, which are the tenant's. -/
theorem own_of_paged (hp : scanPattern tenant cursor everything 500 = some p)
    (hlaw : w.redis.Lawful Glob.glob p cursor reply) (count : ℕ) (keys : List Bytes) (next : ℕ)
    (hstage : (Purge.paged count reply).stage = .delete keys next) :
    ∀ k ∈ keys, IsKeyOf tenant k := by
  simp only [Purge.paged] at hstage
  split_ifs at hstage
  · exact absurd hstage after_ne_delete
  · obtain ⟨rfl, -⟩ := Stage.delete.inj hstage
    exact fun k hk => isKeyOf_of_glob (isPatternOf_scanPattern hp) (hlaw.there k hk).1

theorem Agrees.purgeScan (h : Agrees tenant w v)
    (hallowed : Allowed w (.purgeScan tenant id reply)) :
    (purgeScan tenant id reply w).1 = (purgeScan tenant id reply v).1 ∧
      Agrees tenant (purgeScan tenant id reply w).2 (purgeScan tenant id reply v).2 := by
  have hpurge : w.purges tenant id = v.purges tenant id := congrFun h.purges id
  unfold TenantRedis.purgeScan
  rw [← hpurge]
  split
  case h_1 cursor count hstage =>
    cases hp : scanPattern tenant cursor everything 500 with
    | none => exact ⟨rfl, h.purge fun keys next hdone => by cases hdone⟩
    | some p =>
      have hlaw := hallowed.2 cursor count hstage p hp
      have hmarked : Agrees tenant (w.purge tenant id _) (v.purge tenant id _) :=
        h.purge (own_of_paged hp hlaw count)
      exact ⟨rfl, h.redis.scanned (glob_own tenant) (isPatternOf_scanPattern hp) hlaw,
        hmarked.purges, hmarked.pending⟩
  case h_2 => exact ⟨rfl, h⟩

theorem Agrees.purgeScan_left (h : Agrees tenant w v) (howner : owner ≠ tenant)
    (hallowed : Allowed w (.purgeScan owner id reply)) :
    Agrees tenant (TenantRedis.purgeScan owner id reply w).2 v := by
  unfold TenantRedis.purgeScan
  split
  case h_1 cursor count hstage =>
    cases hp : scanPattern owner cursor everything 500 with
    | none => exact h.purge_left howner fun keys next hdone => by cases hdone
    | some p =>
      have hlaw := hallowed.2 cursor count hstage p hp
      have hmarked : Agrees tenant (w.purge owner id _) v :=
        h.purge_left howner (own_of_paged hp hlaw count)
      exact ⟨h.redis.scanned_left (not_isPatternOf howner (isPatternOf_scanPattern hp)) hlaw,
        hmarked.purges, hmarked.pending⟩
  case h_2 => exact h

theorem Agrees.purgeDelete (h : Agrees tenant w v) :
    (purgeDelete tenant id w).1 = (purgeDelete tenant id v).1 ∧
      Agrees tenant (purgeDelete tenant id w).2 (purgeDelete tenant id v).2 := by
  have hpurge : w.purges tenant id = v.purges tenant id := congrFun h.purges id
  unfold TenantRedis.purgeDelete
  rw [← hpurge]
  split
  case h_1 keys cursor count hstage =>
    let next : Purge := ⟨.after cursor, count + keys.length⟩
    have hmarked : Agrees tenant (w.purge tenant id next) (v.purge tenant id next) :=
      h.purge fun keys' next' hnext => absurd hnext after_ne_delete
    exact ⟨rfl, h.redis.erase (glob_own tenant) keys, hmarked.purges, hmarked.pending⟩
  case h_2 => exact ⟨rfl, h⟩

theorem Agrees.purgeDelete_left (h : Agrees tenant w v) (howner : owner ≠ tenant) :
    Agrees tenant (TenantRedis.purgeDelete owner id w).2 v := by
  unfold TenantRedis.purgeDelete
  split
  case h_1 keys cursor count hstage =>
    have hmarked : Agrees tenant (w.purge owner id ⟨.after cursor, count + keys.length⟩) v :=
      h.purge_left howner fun keys' next' hnext => absurd hnext after_ne_delete
    have hothers : ∀ k ∈ keys, ¬IsKeyOf tenant k := fun k hk htenant =>
      howner ((h.pending owner id keys cursor count hstage k hk).eq htenant)
    exact ⟨h.redis.erase_left (glob_own tenant) hothers, hmarked.purges, hmarked.pending⟩
  case h_2 => exact h

end

theorem Agrees.tick (h : Agrees tenant w v) (ms : ℕ) :
    Agrees tenant (step (.tick ms) w).2 (step (.tick ms) v).2 where
  redis := h.redis.tick (glob_own tenant) ms
  purges := h.purges
  pending := h.pending

/-! ## Any request -/

variable {req : Request}

theorem Agrees.step (h : Agrees tenant w v) (hreq : req.isOf tenant = true)
    (hallowed : Allowed w req) :
    (step req w).1 = (step req v).1 ∧ Agrees tenant (step req w).2 (step req v).2 := by
  cases req with
  | tick ms => exact ⟨rfl, h.tick ms⟩
  | call owner op =>
    obtain rfl := of_decide_eq_true hreq
    exact h.keyed op.key op.failed op.command
  | scan owner cursor pattern count reply =>
    obtain rfl := of_decide_eq_true hreq
    exact h.scan hallowed
  | deleteAll owner id =>
    obtain rfl := of_decide_eq_true hreq
    exact ⟨rfl, h.deleteAll⟩
  | purgeScan owner id reply =>
    obtain rfl := of_decide_eq_true hreq
    exact h.purgeScan hallowed
  | purgeDelete owner id =>
    obtain rfl := of_decide_eq_true hreq
    exact h.purgeDelete

theorem Agrees.step_left (h : Agrees tenant w v) (hreq : req.isOf tenant = false)
    (hallowed : Allowed w req) : Agrees tenant (TenantRedis.step req w).2 v := by
  cases req with
  | tick ms => cases hreq
  | call owner op =>
    exact h.keyed_left (of_decide_eq_false hreq) op.key op.failed op.command
  | scan owner cursor pattern count reply => exact h.scan_left (of_decide_eq_false hreq) hallowed
  | deleteAll owner id => exact h.deleteAll_left (of_decide_eq_false hreq)
  | purgeScan owner id reply => exact h.purgeScan_left (of_decide_eq_false hreq) hallowed
  | purgeDelete owner id => exact h.purgeDelete_left (of_decide_eq_false hreq)

/-- What Redis may return for a tenant's scan can be told from the tenant's part. -/
theorem Agrees.allowed_iff (h : Agrees tenant w v) (hreq : req.isOf tenant = true) :
    Allowed w req ↔ Allowed v req := by
  cases req with
  | tick ms => exact Iff.rfl
  | call owner op => exact Iff.rfl
  | scan owner cursor pattern count reply =>
    obtain rfl := of_decide_eq_true hreq
    exact and_congr_right fun _ => forall₂_congr fun p hp =>
      h.redis.lawful_iff (glob_own owner) (isPatternOf_scanPattern hp)
  | deleteAll owner id => exact Iff.rfl
  | purgeScan owner id reply =>
    obtain rfl := of_decide_eq_true hreq
    have hpurge : w.purges owner id = v.purges owner id := congrFun h.purges id
    simp only [Allowed, hpurge]
    exact and_congr_right fun _ => forall₅_congr fun cursor count _ p hp =>
      h.redis.lawful_iff (glob_own owner) (isPatternOf_scanPattern hp)
  | purgeDelete owner id => exact Iff.rfl

end WorkTicket.Db.TenantRedis
