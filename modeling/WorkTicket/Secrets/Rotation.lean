import WorkTicket.Foundation.RecordedDigest

/-! The secret rotator: the versions it keeps of one secret, what it detects of the
environment's changes, and the grace period of a replaced key. -/

namespace WorkTicket.Secrets

structure SecretVersion where
  key : String
  rotatedAt : ℚ
  expiresAt : ℚ
  deriving DecidableEq

def SecretVersion.isActive (now : ℚ) (v : SecretVersion) : Bool := now < v.expiresAt

structure SecretRotator where
  current : Option SecretVersion
  previous : Option SecretVersion
  deriving DecidableEq

/-- A version loaded at `now`; `grace` is `_ROTATION_GRACE_PERIOD`. -/
def loaded (grace now : ℚ) (key : String) : SecretVersion := ⟨key, now, now + grace * 10⟩

@[simp] theorem loaded_key (grace now : ℚ) (key : String) : (loaded grace now key).key = key := rfl

@[simp] theorem isActive_loaded {grace loadedAt now : ℚ} {key : String} :
    (loaded grace loadedAt key).isActive now ↔ now < loadedAt + grace * 10 :=
  decide_eq_true_iff

/-- An environment variable that is set and not empty. -/
def presentKey (env : Option String) : Option String := env.filter (· ≠ "")

namespace SecretRotator

def new : SecretRotator := ⟨none, none⟩

/-- `_rotate_internal`: the previous version keeps the expiry it was loaded with. -/
def rotateInternal (grace : ℚ) (newKey : String) (now : ℚ) (r : SecretRotator) : SecretRotator :=
  ⟨some (loaded grace now newKey), r.current⟩

/-- The end of `get_current_key`, where no current version was found to answer with. -/
def load (grace now : ℚ) (env : Option String) (r : SecretRotator) :
    Option String × SecretRotator :=
  match presentKey env with
  | some key => (some key, { r with current := some (loaded grace now key) })
  | none => (none, r)

def getCurrentKey (grace now : ℚ) (env : Option String) (r : SecretRotator) :
    Option String × SecretRotator :=
  match r.current with
  | none => r.load grace now env
  | some current =>
    match presentKey env with
    | some key =>
      if key ≠ current.key then (r.rotateInternal grace key now).load grace now env
      else if current.isActive now then (some current.key, r)
      else r.load grace now env
    | none => if current.isActive now then (some current.key, r) else r.load grace now env

variable {Value Tag : Type} [DecidableEq Tag]

def verify (hmac : String → Value → Tag) (grace now : ℚ) (env : Option String) (value : Value)
    (expected : Tag) (r : SecretRotator) : Bool × SecretRotator :=
  match r.getCurrentKey grace now env with
  | (none, r) => (false, r)
  | (some key, r) =>
    (hmac key value = expected ||
      r.previous.any fun previous => previous.isActive now && hmac previous.key value = expected, r)

/-- `sign`, of the value's canonical bytes; `none` is the empty signature. -/
def sign (hmac : String → Value → Tag) (grace now : ℚ) (env : Option String) (value : Value)
    (r : SecretRotator) : Option Tag × SecretRotator :=
  let (key, r) := r.getCurrentKey grace now env
  (key.map (hmac · value), r)

end SecretRotator

inductive Operation (Value Tag : Type)
  | getCurrentKey
  | sign (value : Value)
  | verify (value : Value) (expected : Tag)

/-- A call, with its time and what the environment variable holds then. -/
structure RotatorCall (Value Tag : Type) where
  now : ℚ
  env : Option String
  operation : Operation Value Tag

section
variable {Value Tag : Type} [DecidableEq Tag]

def RotatorCall.perform (hmac : String → Value → Tag) (grace : ℚ) (r : SecretRotator)
    (c : RotatorCall Value Tag) : SecretRotator :=
  match c.operation with
  | .getCurrentKey => (r.getCurrentKey grace c.now c.env).2
  | .sign value => (r.sign hmac grace c.now c.env value).2
  | .verify value expected => (r.verify hmac grace c.now c.env value expected).2

def SecretRotator.after (hmac : String → Value → Tag) (grace : ℚ)
    (calls : List (RotatorCall Value Tag)) : SecretRotator :=
  calls.foldl (RotatorCall.perform hmac grace) .new

end

/-! ## What the calls detect -/

/-- A detected change: the replaced key, when it was last loaded, and when it was replaced. -/
structure Replaced where
  key : String
  loadedAt : ℚ
  replacedAt : ℚ
  deriving DecidableEq

/-- The key seen last with the time of its last load, and the changes, latest first. -/
structure KeyHistory where
  current : Option (String × ℚ)
  replaced : List Replaced
  deriving DecidableEq

namespace KeyHistory

def new : KeyHistory := ⟨none, []⟩

def currentKey (h : KeyHistory) : Option String := h.current.map Prod.fst

/-- One reading of the environment. A key is loaded when it is first seen, and again
ten grace periods later. -/
def read (grace : ℚ) (h : KeyHistory) (now : ℚ) (env : Option String) : KeyHistory :=
  match presentKey env, h.current with
  | none, _ => h
  | some key, none => { h with current := some (key, now) }
  | some key, some (old, loadedAt) =>
    if key ≠ old then ⟨some (key, now), ⟨old, loadedAt, now⟩ :: h.replaced⟩
    else if now < loadedAt + grace * 10 then h
    else { h with current := some (key, now) }

def after {Value Tag : Type} (grace : ℚ) (calls : List (RotatorCall Value Tag)) : KeyHistory :=
  calls.foldl (fun h c => h.read grace c.now c.env) new

end KeyHistory

/-- The rotator keeps the current key and the one replaced last, each expiring ten grace
periods after its own last load. -/
structure Tracks (grace : ℚ) (h : KeyHistory) (r : SecretRotator) : Prop where
  current : r.current = h.current.map fun c => loaded grace c.2 c.1
  previous : r.previous = h.replaced.head?.map fun x => loaded grace x.loadedAt x.key

/-- The times in the history are in the order of its readings, and the current key is
not the one replaced last. -/
structure KeyHistory.Ordered (h : KeyHistory) (now : ℚ) : Prop where
  current : ∀ key loadedAt, h.current = some (key, loadedAt) → loadedAt ≤ now
  last : ∀ x, h.replaced.head? = some x → x.loadedAt ≤ x.replacedAt ∧
    ∃ key loadedAt, h.current = some (key, loadedAt) ∧ key ≠ x.key ∧ x.replacedAt ≤ loadedAt

section
variable {Value Tag : Type} [DecidableEq Tag] {hmac : String → Value → Tag} {grace now : ℚ}
  {env : Option String} {h : KeyHistory} {r : SecretRotator}

theorem tracks_load {replaced : List Replaced}
    (hprevious : r.previous = replaced.head?.map fun x => loaded grace x.loadedAt x.key)
    {key : String} (hkey : presentKey env = some key) :
    Tracks grace ⟨some (key, now), replaced⟩ (r.load grace now env).2 := by
  rw [SecretRotator.load, hkey]
  exact ⟨rfl, hprevious⟩

theorem load_none (hkey : presentKey env = none) : r.load grace now env = (none, r) := by
  rw [SecretRotator.load, hkey]

theorem Tracks.getCurrentKey (ht : Tracks grace h r) (now : ℚ) (env : Option String) :
    Tracks grace (h.read grace now env) (r.getCurrentKey grace now env).2 := by
  unfold SecretRotator.getCurrentKey KeyHistory.read
  rw [ht.current]
  cases hkey : presentKey env with
  | none =>
    rw [load_none hkey]
    cases h.current with
    | none => exact ht
    | some c =>
      simp only [Option.map_some]
      split <;> exact ht
  | some key =>
    cases hc : h.current with
    | none => exact tracks_load ht.previous hkey
    | some c =>
      simp only [Option.map_some, loaded_key, isActive_loaded]
      by_cases hchanged : key ≠ c.1
      · rw [if_pos hchanged, if_pos hchanged]
        refine tracks_load ?_ hkey
        rw [SecretRotator.rotateInternal, ht.current, hc]
        rfl
      · rw [if_neg hchanged, if_neg hchanged]
        split
        · exact ht
        · exact tracks_load ht.previous hkey

theorem load_fst {key : String} (hkey : presentKey env = some key) :
    (r.load grace now env).1 = some key := by
  rw [SecretRotator.load, hkey]

/-- A lookup answers the current key, or nothing once that key has expired. -/
theorem Tracks.answer (ht : Tracks grace h r) :
    (r.getCurrentKey grace now env).1 = (h.read grace now env).currentKey ∨
      (r.getCurrentKey grace now env).1 = none ∧
        ∀ key loadedAt, (h.read grace now env).current = some (key, loadedAt) →
          loadedAt + grace * 10 ≤ now := by
  unfold SecretRotator.getCurrentKey KeyHistory.read KeyHistory.currentKey
  rw [ht.current]
  cases hkey : presentKey env with
  | none =>
    rw [load_none hkey]
    cases hc : h.current with
    | none => exact .inl rfl
    | some c =>
      simp only [Option.map_some, loaded_key, isActive_loaded]
      split
      · exact .inl rfl
      · rename_i hexpired
        refine .inr ⟨rfl, fun key loadedAt heq => ?_⟩
        cases heq
        exact not_lt.mp hexpired
  | some key =>
    cases hc : h.current with
    | none => exact .inl (load_fst hkey)
    | some c =>
      simp only [Option.map_some, loaded_key, isActive_loaded]
      by_cases hchanged : key ≠ c.1
      · rw [if_pos hchanged, if_pos hchanged]
        exact .inl (load_fst hkey)
      · rw [if_neg hchanged, if_neg hchanged]
        split
        · exact .inl (by rw [hc]; rfl)
        · exact .inl (load_fst hkey)

theorem KeyHistory.Ordered.mono {last : ℚ} (ho : h.Ordered last) (hnow : last ≤ now) :
    h.Ordered now :=
  ⟨fun key loadedAt hc => (ho.current key loadedAt hc).trans hnow, ho.last⟩

theorem KeyHistory.Ordered.read {last : ℚ} (ho : h.Ordered last) (hnow : last ≤ now) :
    (h.read grace now env).Ordered now := by
  have hlater := ho.mono hnow
  unfold KeyHistory.read
  cases presentKey env with
  | none => exact hlater
  | some key =>
    cases hc : h.current with
    | none =>
      refine ⟨fun _ _ heq => by cases heq; exact le_rfl, fun x hx => ?_⟩
      obtain ⟨-, _, _, hsome, -, -⟩ := ho.last x hx
      rw [hc] at hsome
      cases hsome
    | some c =>
      have hload := ho.current c.1 c.2 hc
      simp only
      split
      · rename_i hchanged
        refine ⟨fun _ _ heq => by cases heq; exact le_rfl, fun x hx => ?_⟩
        obtain rfl := Option.some.inj hx
        exact ⟨hload.trans hnow, key, now, rfl, hchanged, le_rfl⟩
      · split
        · exact hlater
        · rename_i hsame _
          refine ⟨fun _ _ heq => by cases heq; exact le_rfl, fun x hx => ?_⟩
          obtain ⟨hbefore, _, loadedAt, hsome, hne, hle⟩ := ho.last x hx
          rw [hc] at hsome
          cases hsome
          exact ⟨hbefore, key, now, rfl, not_not.mp hsame ▸ hne, hle.trans (hload.trans hnow)⟩

theorem verify_snd (value : Value) (expected : Tag) :
    (r.verify hmac grace now env value expected).2 = (r.getCurrentKey grace now env).2 := by
  unfold SecretRotator.verify
  split <;> simp [*]

theorem perform_eq (c : RotatorCall Value Tag) :
    c.perform hmac grace r = (r.getCurrentKey grace c.now c.env).2 := by
  unfold RotatorCall.perform
  split
  · rfl
  · rfl
  · exact verify_snd _ _

theorem tracks_after (calls : List (RotatorCall Value Tag)) :
    Tracks grace (.after grace calls) (.after hmac grace calls) := by
  suffices hfold : ∀ h r, Tracks grace h r →
      Tracks grace (calls.foldl (fun h c => h.read grace c.now c.env) h)
        (calls.foldl (RotatorCall.perform hmac grace) r) from hfold _ _ ⟨rfl, rfl⟩
  induction calls with
  | nil => exact fun h r ht => ht
  | cons c calls ih =>
    intro h r ht
    refine ih _ _ ?_
    rw [perform_eq]
    exact ht.getCurrentKey c.now c.env

theorem ordered_new : KeyHistory.new.Ordered now where
  current := fun _ _ hc => by cases hc
  last := fun _ hx => by cases hx

omit [DecidableEq Tag] in
theorem ordered_after {calls : List (RotatorCall Value Tag)}
    (hclock : (calls.map RotatorCall.now ++ [now]).Pairwise (· ≤ ·)) :
    (KeyHistory.after grace calls).Ordered now := by
  suffices hfold : ∀ h : KeyHistory, (∀ t ∈ calls.map RotatorCall.now ++ [now], h.Ordered t) →
      (calls.foldl (fun h c => h.read grace c.now c.env) h).Ordered now from
    hfold _ fun _ _ => ordered_new
  induction calls with
  | nil => exact fun h ho => ho now List.mem_cons_self
  | cons c calls ih =>
    intro h ho
    obtain ⟨hfirst, hrest⟩ := List.pairwise_cons.mp hclock
    refine ih hrest _ fun t ht => ?_
    exact ((ho c.now List.mem_cons_self).read le_rfl).mono (hfirst t ht)

/-- The grace period, for a verification at `now` of a signature by `k` whose lookup left
the history `h` and answered `answer`: the current key is accepted; so is the key that
the latest change replaced, during the grace period; a replaced key that has not become
current again is rejected from the end of its grace period on. -/
structure GraceKept (grace now : ℚ) (h : KeyHistory) (answer : Option String) (k : String)
    (accepted : Bool) : Prop where
  current : answer = some k → accepted = true
  inGrace : ∀ x, h.replaced.head? = some x → x.key = k →
    x.replacedAt ≤ now → now < x.replacedAt + grace → accepted = true
  afterGrace : ∀ x, h.replaced.find? (·.key = k) = some x → h.currentKey ≠ some k →
    x.replacedAt + grace ≤ now → accepted = false

/-- If `k` is the key replaced last, its expiry and the end of its grace period are on
one side of `now`. -/
def ExpiresInTime (grace now : ℚ) (h : KeyHistory) (k : String) : Prop :=
  ∀ x, h.replaced.head? = some x → x.key = k →
    (now < x.replacedAt + grace ↔ now < x.loadedAt + grace * 10)

/-- A verification accepts the digest under the key of the lookup's answer and, when
there is one, under the key replaced last up to ten grace periods after its last load. -/
theorem Tracks.verify_iff (ht : Tracks grace h r) (hhmac : Function.Injective2 hmac) (now : ℚ)
    (env : Option String) (value : Value) (k : String) :
    (r.verify hmac grace now env value (hmac k value)).1 = true ↔
      ∃ key, (r.getCurrentKey grace now env).1 = some key ∧
        (key = k ∨ ∃ x, (h.read grace now env).replaced.head? = some x ∧ x.key = k ∧
          now < x.loadedAt + grace * 10) := by
  have hprevious := (ht.getCurrentKey now env).previous
  unfold SecretRotator.verify
  cases hlookup : r.getCurrentKey grace now env with
  | mk answer left =>
    simp only [hlookup] at hprevious
    cases answer with
    | none => simp
    | some key =>
      simp only [hprevious, Option.any_map, hhmac.eq_iff]
      cases (h.read grace now env).replaced.head? with
      | none => simp
      | some x => simp [and_comm]

/-- While the key replaced last is in its grace period or unexpired, there is an answer. -/
theorem KeyHistory.Ordered.answered (ho : h.Ordered now) {answer : Option String}
    (hanswer : answer = h.currentKey ∨ answer = none ∧
      ∀ key loadedAt, h.current = some (key, loadedAt) → loadedAt + grace * 10 ≤ now)
    {x : Replaced} (hx : h.replaced.head? = some x)
    (hearly : now < x.replacedAt + grace ∨ now < x.loadedAt + grace * 10) :
    ∃ key, answer = some key ∧ key ≠ x.key := by
  obtain ⟨hbefore, key, loadedAt, hcurrent, hne, hafter⟩ := ho.last x hx
  have hload := ho.current key loadedAt hcurrent
  rcases hanswer with rfl | ⟨-, hexpired⟩
  · exact ⟨key, by rw [KeyHistory.currentKey, hcurrent]; rfl, hne⟩
  · have hlate := hexpired key loadedAt hcurrent
    rcases hearly with hgrace | hkept
    · linarith
    · linarith

theorem KeyHistory.find?_last {k : String} {x : Replaced} (hx : h.replaced.head? = some x)
    (hxk : x.key = k) : h.replaced.find? (·.key = k) = some x := by
  obtain ⟨rest, hrest⟩ := List.head?_eq_some_iff.mp hx
  rw [hrest, List.find?_cons_of_pos (by simpa using hxk)]

section
variable {answer : Option String} {k : String} {accepted : Bool}

theorem GraceKept.expiresInTime (hkept : GraceKept grace now h answer k accepted)
    (ho : h.Ordered now)
    (hanswer : answer = h.currentKey ∨ answer = none ∧
      ∀ key loadedAt, h.current = some (key, loadedAt) → loadedAt + grace * 10 ≤ now)
    (haccepted : accepted = true ↔ ∃ key, answer = some key ∧ (key = k ∨
      ∃ x, h.replaced.head? = some x ∧ x.key = k ∧ now < x.loadedAt + grace * 10)) :
    ExpiresInTime grace now h k := by
  intro x hx hxk
  obtain ⟨-, currentKey, loadedAt, hcurrent, hne, hafter⟩ := ho.last x hx
  constructor
  · intro hgrace
    have hreplaced : x.replacedAt ≤ now := hafter.trans (ho.current currentKey loadedAt hcurrent)
    obtain ⟨key, hkey, hor⟩ := haccepted.mp (hkept.inGrace x hx hxk hreplaced hgrace)
    obtain ⟨key', hkey', hother⟩ := ho.answered hanswer hx (.inl hgrace)
    obtain rfl := Option.some.inj (hkey.symm.trans hkey')
    rcases hor with rfl | ⟨y, hy, -, hunexpired⟩
    · exact absurd hxk.symm hother
    · obtain rfl := Option.some.inj (hx.symm.trans hy)
      exact hunexpired
  · intro hunexpired
    by_contra hlate
    have hnotCurrent : h.currentKey ≠ some k := by
      rw [KeyHistory.currentKey, hcurrent, ← hxk]
      exact fun heq => hne (Option.some.inj heq)
    obtain ⟨key, hkey, -⟩ := ho.answered hanswer hx (.inr hunexpired)
    have hrejected := hkept.afterGrace x (KeyHistory.find?_last hx hxk) hnotCurrent
      (not_lt.mp hlate)
    have hyes := haccepted.mpr ⟨key, hkey, .inr ⟨x, hx, hxk, hunexpired⟩⟩
    exact Bool.false_ne_true (hrejected.symm.trans hyes)

theorem ExpiresInTime.graceKept (hexpires : ExpiresInTime grace now h k) (ho : h.Ordered now)
    (hanswer : answer = h.currentKey ∨ answer = none ∧
      ∀ key loadedAt, h.current = some (key, loadedAt) → loadedAt + grace * 10 ≤ now)
    (haccepted : accepted = true ↔ ∃ key, answer = some key ∧ (key = k ∨
      ∃ x, h.replaced.head? = some x ∧ x.key = k ∧ now < x.loadedAt + grace * 10)) :
    GraceKept grace now h answer k accepted := by
  constructor
  · intro hcurrent
    exact haccepted.mpr ⟨k, hcurrent, .inl rfl⟩
  · intro x hx hxk hreplaced hgrace
    obtain ⟨key, hkey, -⟩ := ho.answered hanswer hx (.inl hgrace)
    exact haccepted.mpr ⟨key, hkey, .inr ⟨x, hx, hxk, (hexpires x hx hxk).mp hgrace⟩⟩
  · intro x hfind hnotCurrent hlate
    rw [Bool.eq_false_iff]
    intro hyes
    obtain ⟨key, hkey, hor⟩ := haccepted.mp hyes
    rcases hor with rfl | ⟨y, hy, hyk, hunexpired⟩
    · rcases hanswer with heq | ⟨hnone, -⟩
      · exact hnotCurrent (heq.symm.trans hkey)
      · exact absurd (hkey.symm.trans hnone) (by simp)
    · obtain rfl := Option.some.inj ((KeyHistory.find?_last hy hyk).symm.trans hfind)
      exact absurd ((hexpires _ hy hyk).mpr hunexpired) (not_lt.mpr hlate)

end

/-- Whatever the environment held and whatever was called before, a verification keeps
the grace period exactly when the replaced key's expiry falls on its side of `now`. -/
theorem graceKept_iff (hhmac : Function.Injective2 hmac) {calls : List (RotatorCall Value Tag)}
    (hclock : (calls.map RotatorCall.now ++ [now]).Pairwise (· ≤ ·)) (env : Option String)
    (value : Value) (k : String) :
    let r := SecretRotator.after hmac grace calls
    let h := (KeyHistory.after grace calls).read grace now env
    GraceKept grace now h (r.getCurrentKey grace now env).1 k
        (r.verify hmac grace now env value (hmac k value)).1 ↔
      ExpiresInTime grace now h k := by
  intro r h
  have ht : Tracks grace (.after grace calls) r := tracks_after calls
  have ho : h.Ordered now := (ordered_after hclock).read le_rfl
  have haccepted := ht.verify_iff hhmac now env value k
  exact ⟨fun hkept => hkept.expiresInTime ho ht.answer haccepted,
    fun hexpires => hexpires.graceKept ho ht.answer haccepted⟩

end

open RecordedDigest in
/-- `k1` is loaded at 0 and replaced by `k2` at 10, half a minute before the verification. -/
theorem graceKept_lateVerify :
    let hmac := digest "k1" "{}" "e31e2d460a74e910ddcdb90dbd8c44e508fa5522d989f82c0a1ed1be8a50086d"
    let calls : List (RotatorCall String _) :=
      [⟨0, some "k1", .getCurrentKey⟩, ⟨10, some "k2", .sign "{}"⟩]
    let r := SecretRotator.after hmac 300 calls
    let h := (KeyHistory.after 300 calls).read 300 40 (some "k2")
    GraceKept 300 40 h (r.getCurrentKey 300 40 (some "k2")).1 "k1"
        (r.verify hmac 300 40 (some "k2") "{}" (hmac "k1" "{}")).1 ↔
      ExpiresInTime 300 40 h "k1" :=
  graceKept_iff digest_injective2 (by decide +kernel) (some "k2") "{}" "k1"

def lateCalls : List (RotatorCall String (String × String)) :=
  [⟨0, some "k1", .getCurrentKey⟩, ⟨10, some "k2", .getCurrentKey⟩]

/-- `k1` is replaced at 10 and still accepted at 2000, 1690 seconds past its grace period. -/
theorem lateVerify_not_graceKept :
    ¬GraceKept 300 2000 ((KeyHistory.after 300 lateCalls).read 300 2000 (some "k2"))
      ((SecretRotator.after Prod.mk 300 lateCalls).getCurrentKey 300 2000 (some "k2")).1 "k1"
      ((SecretRotator.after Prod.mk 300 lateCalls).verify Prod.mk 300 2000 (some "k2") "{}"
        ("k1", "{}")).1 := by
  intro h
  have hrejected := h.afterGrace ⟨"k1", 0, 10⟩ (by decide +kernel) (by decide +kernel) (by norm_num)
  revert hrejected
  decide +kernel

end WorkTicket.Secrets
