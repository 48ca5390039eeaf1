import WorkTicket.Foundation.RecordedDigest

/-! The task signing key: its cached lookup, the signing and the verification of a
payload, and the window in which a replaced key should still be accepted. -/

namespace WorkTicket.Tasks

/-- The module's state in one process, with the settings `get_settings` caches for
the process's life. `none` is Python's `None`. -/
structure SigningKeyState where
  celeryTaskSigningKey : String
  cachedSigningKey : Option String
  cachedOldSigningKey : Option String
  oldKeyExpiry : ℚ
  signingKeyLastLoad : ℚ

def signingKeyRefreshInterval : ℚ := 300

def signingKeyRotationGrace : ℚ := 300

/-- `bool(key)` of a key that may be `None`. -/
def configured (key : Option String) : Bool := key.any (· ≠ "")

/-- What `CELERY_TASK_SIGNING_KEY` holds in the environment at each time. -/
abbrev Environ := ℚ → Option String

namespace SigningKeyState

/-- The process whose settings were read at the time `boot`. -/
def start (environ : Environ) (boot : ℚ) : SigningKeyState where
  celeryTaskSigningKey := (environ boot).getD "__REQUIRED__"
  cachedSigningKey := none
  cachedOldSigningKey := none
  oldKeyExpiry := 0
  signingKeyLastLoad := 0

def inSettings (s : SigningKeyState) : Bool :=
  s.celeryTaskSigningKey ≠ "" ∧ s.celeryTaskSigningKey ≠ "__REQUIRED__"

/-- The key a fresh load gives: the settings', else the environment's. -/
def loadKey (environ : Environ) (now : ℚ) (s : SigningKeyState) : Option String :=
  if s.inSettings then some s.celeryTaskSigningKey else environ now

def isFresh (now : ℚ) (s : SigningKeyState) : Bool :=
  s.cachedSigningKey.isSome ∧ now - s.signingKeyLastLoad < signingKeyRefreshInterval

/-- `_get_signing_key`. On a changed key the source also assigns
`_cached_old_signing_key` and `_old_key_expiry`, but as locals of the function:
its `global` statement names the other two only, so the module's stay as they are. -/
def getSigningKey (environ : Environ) (now : ℚ) (s : SigningKeyState) :
    Option String × SigningKeyState :=
  if s.isFresh now then (s.cachedSigningKey, s)
  else
    let key := s.loadKey environ now
    (key, { s with cachedSigningKey := key, signingKeyLastLoad := now })

variable {Payload Tag : Type} [DecidableEq Tag]

/-- `_sign_task_payload`: the digest of the canonical payload, `none` for `""`. -/
def signTaskPayload (hmac : String → Payload → Tag) (environ : Environ) (now : ℚ)
    (payload : Payload) (s : SigningKeyState) : Option Tag × SigningKeyState :=
  let (key, s) := s.getSigningKey environ now
  (if configured key then key.map (hmac · payload) else none, s)

/-- `_verify_task_payload`; the clock stands still within one call. -/
def verifyTaskPayload (hmac : String → Payload → Tag) (environ : Environ) (now : ℚ)
    (payload : Payload) (signature : Option Tag) (s : SigningKeyState) :
    Bool × SigningKeyState :=
  let (key, s) := s.getSigningKey environ now
  if !configured key then (false, s)
  else if signature.isNone then (false, s)
  else
    let (expected, s) := s.signTaskPayload hmac environ now payload
    if expected = signature then (true, s)
    else if s.cachedOldSigningKey.isSome ∧ now < s.oldKeyExpiry then
      (s.cachedOldSigningKey.map (hmac · payload) = signature, s)
    else (false, s)

end SigningKeyState

/-- A use of the key in one process, at its time. -/
inductive KeyCall (Payload Tag : Type)
  | lookup (now : ℚ)
  | sign (now : ℚ) (payload : Payload)
  | verify (now : ℚ) (payload : Payload) (signature : Option Tag)

namespace KeyCall

variable {Payload Tag : Type} [DecidableEq Tag]

def now : KeyCall Payload Tag → ℚ
  | lookup now | sign now _ | verify now _ _ => now

def perform (hmac : String → Payload → Tag) (environ : Environ) (s : SigningKeyState) :
    KeyCall Payload Tag → SigningKeyState
  | lookup now => (s.getSigningKey environ now).2
  | sign now payload => (s.signTaskPayload hmac environ now payload).2
  | verify now payload signature => (s.verifyTaskPayload hmac environ now payload signature).2

end KeyCall

namespace SigningKeyState

variable {Payload Tag : Type} [DecidableEq Tag] {hmac : String → Payload → Tag}
  {environ : Environ} {boot now : ℚ} {s : SigningKeyState}

/-- The process that started at `boot`, after the given calls. -/
def after (hmac : String → Payload → Tag) (environ : Environ) (boot : ℚ)
    (calls : List (KeyCall Payload Tag)) : SigningKeyState :=
  calls.foldl (KeyCall.perform hmac environ) (start environ boot)

/-- When the key that a lookup answers with was read: at the start if the settings
hold it, else at the last load. -/
def readingTime (boot now : ℚ) (s : SigningKeyState) : ℚ :=
  if s.inSettings then boot else if s.isFresh now then s.signingKeyLastLoad else now

/-- What the calls made up to `now` keep of the state. -/
structure Loaded (environ : Environ) (boot now : ℚ) (s : SigningKeyState) : Prop where
  settings : s.celeryTaskSigningKey = (start environ boot).celeryTaskSigningKey
  noOldKey : s.cachedOldSigningKey = none
  cached : s.cachedSigningKey.isSome →
    s.cachedSigningKey = s.loadKey environ s.signingKeyLastLoad ∧ s.signingKeyLastLoad ≤ now

theorem loaded_start : Loaded environ boot now (start environ boot) :=
  ⟨rfl, rfl, fun h => absurd h Bool.false_ne_true⟩

theorem Loaded.getSigningKey (h : Loaded environ boot now s) {t : ℚ} (ht : t ≤ now) :
    Loaded environ boot now (s.getSigningKey environ t).2 := by
  unfold SigningKeyState.getSigningKey
  split
  · exact h
  · exact ⟨h.settings, h.noOldKey, fun _ => ⟨rfl, ht⟩⟩

/-- A second lookup at the same time finds what the first left. -/
theorem getSigningKey_twice :
    (s.getSigningKey environ now).2.getSigningKey environ now = s.getSigningKey environ now := by
  by_cases hfresh : s.isFresh now
  · have hkept : s.getSigningKey environ now = (s.cachedSigningKey, s) := if_pos hfresh
    rw [hkept]
    exact hkept
  · have hloaded : s.getSigningKey environ now = (s.loadKey environ now,
        { s with cachedSigningKey := s.loadKey environ now, signingKeyLastLoad := now }) :=
      if_neg hfresh
    rw [hloaded, getSigningKey]
    split <;> rfl

omit [DecidableEq Tag] in
theorem signTaskPayload_again {payload : Payload} :
    (s.getSigningKey environ now).2.signTaskPayload hmac environ now payload =
      s.signTaskPayload hmac environ now payload := by
  simp only [signTaskPayload, getSigningKey_twice]

theorem verifyTaskPayload_snd {payload : Payload} {signature : Option Tag} :
    (s.verifyTaskPayload hmac environ now payload signature).2 =
      (s.getSigningKey environ now).2 := by
  simp only [verifyTaskPayload, signTaskPayload_again]
  repeat' split
  all_goals rfl

theorem digest_of_verified {payload : Payload} {signature : Option Tag}
    (h : (s.verifyTaskPayload hmac environ now payload signature).1 = true) :
    ∃ key, signature = some (hmac key payload) := by
  have hne : signature ≠ none := by
    rintro rfl
    simp [verifyTaskPayload] at h
  have hmap : ∀ key : Option String, key.map (hmac · payload) = signature →
      ∃ key, signature = some (hmac key payload) := by
    intro key hkey
    cases key with
    | none => exact absurd hkey.symm hne
    | some key => exact ⟨key, hkey.symm⟩
  simp only [verifyTaskPayload, signTaskPayload_again] at h
  split at h
  · cases h
  split at h
  · cases h
  split at h
  · rename_i hconfigured _ hexpected
    simp only [signTaskPayload] at hexpected
    rw [if_pos (by simpa using hconfigured)] at hexpected
    exact hmap _ hexpected
  split at h
  · exact hmap _ (of_decide_eq_true h)
  · cases h

theorem Loaded.perform (h : Loaded environ boot now s) {c : KeyCall Payload Tag}
    (hc : c.now ≤ now) : Loaded environ boot now (c.perform hmac environ s) := by
  have hload := h.getSigningKey hc
  cases c with
  | lookup t => exact hload
  | sign t payload => exact hload
  | verify t payload signature =>
    rw [KeyCall.perform, verifyTaskPayload_snd]
    exact hload

theorem loaded_after {calls : List (KeyCall Payload Tag)} (hclock : ∀ c ∈ calls, c.now ≤ now) :
    Loaded environ boot now (after hmac environ boot calls) := by
  suffices h : ∀ s, Loaded environ boot now s →
      Loaded environ boot now (calls.foldl (KeyCall.perform hmac environ) s) from h _ loaded_start
  induction calls with
  | nil => exact fun s hs => hs
  | cons c calls ih =>
    rw [List.forall_mem_cons] at hclock
    exact fun s hs => ih hclock.2 _ (hs.perform hclock.1)

theorem Loaded.settings_eq (h : Loaded environ boot now s) (hs : s.inSettings) :
    some s.celeryTaskSigningKey = environ boot := by
  simp only [SigningKeyState.inSettings, h.settings, start, decide_eq_true_eq] at hs ⊢
  cases hboot : environ boot with
  | none => exact absurd (by rw [hboot]; rfl) hs.2
  | some key => rfl

theorem Loaded.getSigningKey_fst (h : Loaded environ boot now s) :
    (s.getSigningKey environ now).1 = environ (s.readingTime boot now) := by
  have hload : ∀ t, s.loadKey environ t = if s.inSettings then environ boot else environ t := by
    intro t
    unfold loadKey
    split
    · rename_i hs
      exact h.settings_eq hs
    · rfl
  unfold SigningKeyState.getSigningKey
  split
  · rename_i hfresh
    have hsome : s.cachedSigningKey.isSome := by
      simp only [isFresh, decide_eq_true_eq] at hfresh
      exact hfresh.1
    rw [(h.cached hsome).1, hload, readingTime, if_pos hfresh]
    exact (apply_ite environ _ _ _).symm
  · rename_i hstale
    simp only [hload, readingTime, if_neg hstale]
    exact (apply_ite environ _ _ _).symm

/-- A verification compares with the key of the reading in use, and with no other. -/
theorem Loaded.verifyTaskPayload_iff (h : Loaded environ boot now s)
    (hhmac : Function.Injective2 hmac) {k : String} (hk : k ≠ "") {payload : Payload} :
    (s.verifyTaskPayload hmac environ now payload (some (hmac k payload))).1 = true ↔
      environ (s.readingTime boot now) = some k := by
  have hkey := h.getSigningKey_fst
  have hold : (s.getSigningKey environ now).2.cachedOldSigningKey = none :=
    (h.getSigningKey le_rfl).noOldKey
  simp only [verifyTaskPayload, signTaskPayload_again]
  simp only [signTaskPayload, hold, ← hkey]
  cases (s.getSigningKey environ now).1 with
  | none => simp [configured]
  | some key =>
    by_cases hempty : key = ""
    · simp [configured, hempty, hk.symm]
    · simp [configured, hempty, hhmac.eq_iff, apply_ite Prod.fst]

end SigningKeyState

/-- The signing key `k` of time `signed` is still current at `now`, or was replaced
less than the grace period before. -/
def StillDue (environ : Environ) (k : String) (signed now : ℚ) : Prop :=
  signed ≤ now ∧ ∀ t, signed ≤ t → t + signingKeyRotationGrace ≤ now → environ t = some k

/-- The key was replaced the grace period ago or earlier, and has not come back. -/
def Retired (environ : Environ) (k : String) (signed now : ℚ) : Prop :=
  ∃ replaced, signed ≤ replaced ∧ replaced + signingKeyRotationGrace ≤ now ∧
    ∀ t, replaced ≤ t → t ≤ now → environ t ≠ some k

structure WindowKept (environ : Environ) (k : String) (signed now : ℚ) (accepted : Bool) : Prop where
  accepts : StillDue environ k signed now → accepted = true
  rejects : Retired environ k signed now → accepted = false

section Window

variable {Payload Tag : Type} [DecidableEq Tag] {hmac : String → Payload → Tag}
  {environ : Environ} {boot now signed : ℚ} {s : SigningKeyState} {k : String}

/-- The answer to a verification at `now`, after the process's earlier calls. -/
def verifiesAfter (hmac : String → Payload → Tag) (environ : Environ) (boot : ℚ)
    (calls : List (KeyCall Payload Tag)) (now : ℚ) (payload : Payload) (signature : Tag) : Bool :=
  ((SigningKeyState.after hmac environ boot calls).verifyTaskPayload hmac environ now payload
    (some signature)).1

/-- The reading in use is of the signing key while a signature by it is due, and a
process whose settings hold the key was not started with one that is retired. -/
structure TimelyReading (environ : Environ) (boot signed now : ℚ) (k : String)
    (s : SigningKeyState) : Prop where
  whileDue : StillDue environ k signed now → environ (s.readingTime boot now) = environ signed
  sinceBoot : s.inSettings → Retired environ k signed now → environ boot ≠ environ signed

open SigningKeyState in
theorem Retired.not_read (h : Retired environ k signed now) (hs : Loaded environ boot now s)
    (hsettings : ¬s.inSettings) : environ (s.readingTime boot now) ≠ some k := by
  obtain ⟨replaced, -, hgrace, hgone⟩ := h
  have hwindow : now - signingKeyRefreshInterval = now - signingKeyRotationGrace := rfl
  rw [readingTime, if_neg hsettings]
  split
  · rename_i hfresh
    simp only [isFresh, decide_eq_true_eq] at hfresh
    have hload := (hs.cached hfresh.1).2
    exact hgone _ (by linarith [hfresh.2]) hload
  · exact hgone now (by norm_num [signingKeyRotationGrace] at hgrace; linarith) le_rfl

/-- Whatever the key changes and the earlier calls of the process, a verification
keeps the rotation window exactly when its reading of the key is timely. -/
theorem windowKept_iff (hhmac : Function.Injective2 hmac) {calls : List (KeyCall Payload Tag)}
    (hclock : ∀ c ∈ calls, c.now ≤ now) (hkey : environ signed = some k) (hk : k ≠ "")
    (payload : Payload) :
    WindowKept environ k signed now
        (verifiesAfter hmac environ boot calls now payload (hmac k payload)) ↔
      TimelyReading environ boot signed now k (SigningKeyState.after hmac environ boot calls) := by
  have hs : SigningKeyState.Loaded environ boot now (.after hmac environ boot calls) :=
    SigningKeyState.loaded_after hclock
  have haccepts : verifiesAfter hmac environ boot calls now payload (hmac k payload) = true ↔ _ :=
    hs.verifyTaskPayload_iff hhmac hk
  constructor
  · intro h
    constructor
    · intro hdue
      rw [hkey]
      exact haccepts.mp (h.accepts hdue)
    · intro hset hretired hboot
      have hrejected := h.rejects hretired
      rw [Bool.eq_false_iff, ne_eq, haccepts, SigningKeyState.readingTime, if_pos hset] at hrejected
      exact hrejected (hboot.trans hkey)
  · intro h
    constructor
    · intro hdue
      exact haccepts.mpr ((h.whileDue hdue).trans hkey)
    · intro hretired
      rw [Bool.eq_false_iff, ne_eq, haccepts]
      by_cases hset : (SigningKeyState.after hmac environ boot calls).inSettings
      · rw [SigningKeyState.readingTime, if_pos hset, ← hkey]
        exact h.sinceBoot hset hretired
      · exact hretired.not_read hs hset

open RecordedDigest in
theorem windowKept_steadyKey :
    let hmac := digest "k1" "{}" "e31e2d460a74e910ddcdb90dbd8c44e508fa5522d989f82c0a1ed1be8a50086d"
    let environ : Environ := fun _ => some "k1"
    WindowKept environ "k1" 1 2
        (verifiesAfter hmac environ 0 [.lookup 0] 2 "{}" (hmac "k1" "{}")) ↔
      TimelyReading environ 0 1 2 "k1" (.after hmac environ 0 [.lookup 0]) :=
  windowKept_iff digest_injective2 (by simp [KeyCall.now]) rfl (by decide) "{}"

/-- Set to `A` after the process started, replaced by `B` at 310. -/
def replacedAt310 : Environ := fun t =>
  if t < 0 then none else if t < 310 then some "A" else some "B"

/-- Signed with `A` five seconds before the change and verified ten seconds after it. -/
theorem replacedAt310_not_kept :
    ¬WindowKept replacedAt310 "A" 305 320
      (verifiesAfter Prod.mk replacedAt310 (-1) [.lookup 0] 320 "{}" ("A", "{}")) := by
  intro h
  have hdue : StillDue replacedAt310 "A" 305 320 := by
    refine ⟨by norm_num, fun t hsigned hgrace => ?_⟩
    rw [signingKeyRotationGrace] at hgrace
    linarith
  have hrejected : verifiesAfter Prod.mk replacedAt310 (-1) [.lookup 0] 320 "{}" ("A", "{}") =
      false := by decide +kernel
  exact Bool.false_ne_true (hrejected.symm.trans (h.accepts hdue))

end Window
end WorkTicket.Tasks
