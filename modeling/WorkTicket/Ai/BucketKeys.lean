import WorkTicket.Ai.RateLimiter

/-! Under which keys the buckets of users, tenants and addresses lie in Redis. The key is made of
the kind of the bucket twice and of nothing else, so that all subjects of a kind draw on one
bucket; the kinds do not meet. -/

namespace WorkTicket.Ai.BucketKeys

open WorkTicket.AnsweredRuns

inductive Kind
  | user
  | tenant
  | ip
  deriving DecidableEq, Repr

/-- `subject` is the user, the tenant or the address that the call is about. -/
structure Call where
  kind : Kind
  subject : String
  moment : Moment
  deriving DecidableEq

/-- A call of one of the three checks while Redis answers. -/
def check (rl : RateLimiter) (c : Call) : Limiters → Bool × Limiters :=
  match c.kind with
  | .user => rl.checkUser c.moment true c.subject
  | .tenant => rl.checkTenant c.moment true c.subject
  | .ip => rl.checkIp c.moment true c.subject

def Call.ofSubject (kind : Kind) (subject : String) (c : Call) : Bool :=
  c.kind = kind && c.subject = subject

/-- The subject is answered as in the run of its own calls alone. -/
def Independent (rl : RateLimiter) (kind : Kind) (subject : String) (w : Limiters)
    (calls : List Call) : Prop :=
  (answers (check rl) w calls).filter (fun a => a.1.ofSubject kind subject) =
    answers (check rl) w (calls.filter (Call.ofSubject kind subject))

/-! ## The bucket of a kind -/

def bucket (rl : RateLimiter) : Kind → RedisTokenBucket
  | .user => ⟨"rl:user", rl.userRate, rl.userBurst⟩
  | .tenant => ⟨"rl:tenant", rl.tenantRate, rl.tenantBurst⟩
  | .ip => ⟨"rl:ip", 10, 20⟩

def key : Kind → String
  | .user => "rl:user:user"
  | .tenant => "rl:tenant:tenant"
  | .ip => "rl:ip:ip"

theorem key_inj : Function.Injective key := by
  intro k k' h
  cases k <;> cases k' <;> first | rfl | exact absurd h (by decide)

variable {rl : RateLimiter} {kind : Kind} {subject : String} {c : Call} {w w' : Limiters}

/-- The answer to a call and the bucket it leaves, from the bucket found under the key. -/
def drawn (rl : RateLimiter) (c : Call) (stored : Option RedisBucket) : Bool × RedisBucket :=
  (bucket rl c.kind).take c.moment (stored.filter fun b => c.moment.redis < b.expires)

theorem check_fst : (check rl c w).1 = (drawn rl c (w.redis (key c.kind))).1 := by
  obtain ⟨kind, subject, m⟩ := c
  cases kind <;> rfl

theorem check_redis : (check rl c w).2.redis =
    Function.update w.redis (key c.kind) (some (drawn rl c (w.redis (key c.kind))).2) := by
  obtain ⟨kind, subject, m⟩ := c
  cases kind <;> rfl

theorem check_redis_of_ne (h : c.kind ≠ kind) :
    (check rl c w).2.redis (key kind) = w.redis (key kind) := by
  rw [check_redis, Function.update_of_ne]
  exact fun heq => h (key_inj heq).symm

theorem check_redis_self (h : c.kind = kind) :
    (check rl c w).2.redis (key kind) = some (drawn rl c (w.redis (key kind))).2 := by
  rw [check_redis, h, Function.update_self]

theorem ofSubject_iff : c.ofSubject kind subject = true ↔ c.kind = kind ∧ c.subject = subject := by
  simp [Call.ofSubject]

/-- No call about another subject of the kind comes before a call about the subject. -/
def Undisturbed (kind : Kind) (subject : String) : List (Kind × String) → Prop :=
  List.Pairwise fun c d => d = (kind, subject) → c.1 = kind → c.2 = subject

def Call.who (c : Call) : Kind × String := (c.kind, c.subject)

/-- The answers of the subject, from two states that agree on the bucket of its kind. -/
theorem answers_own_eq {calls : List Call} (hcalls : Undisturbed kind subject (calls.map Call.who))
    (hw : w.redis (key kind) = w'.redis (key kind)) :
    (answers (check rl) w calls).filter (fun a => a.1.ofSubject kind subject) =
      answers (check rl) w' (calls.filter (Call.ofSubject kind subject)) := by
  induction calls generalizing w w' with
  | nil => rfl
  | cons c calls ih =>
    obtain ⟨hfirst, hrest⟩ := List.pairwise_cons.mp hcalls
    by_cases hkind : c.kind = kind
    · by_cases hsubject : c.subject = subject
      · have hown : c.ofSubject kind subject = true := ofSubject_iff.mpr ⟨hkind, hsubject⟩
        have hans : (check rl c w).1 = (check rl c w').1 := by
          rw [check_fst, check_fst, hkind, hw]
        have hnext : (check rl c w).2.redis (key kind) = (check rl c w').2.redis (key kind) := by
          rw [check_redis_self hkind, check_redis_self hkind, hw]
        rw [filter_answers_cons_pos hown, List.filter_cons_of_pos hown, answers, hans,
          ih hrest hnext]
      · -- after a call about another subject of the kind none about this one is left
        have hnone : ∀ d ∈ c :: calls, d.ofSubject kind subject = false := by
          intro d hd
          rw [← Bool.not_eq_true, ofSubject_iff]
          rintro ⟨hk, hs⟩
          rcases List.mem_cons.mp hd with rfl | hd
          · exact hsubject hs
          · have hwho : d.who = (kind, subject) := by rw [Call.who, hk, hs]
            exact hsubject (hfirst d.who (List.mem_map_of_mem hd) hwho hkind)
        rw [filter_answers_eq_nil hnone, List.filter_eq_nil_iff.mpr (by simpa using hnone)]
        rfl
    · have hother : c.ofSubject kind subject = false := by
        rw [← Bool.not_eq_true, ofSubject_iff]
        exact fun h => hkind h.1
      rw [filter_answers_cons_neg hother, List.filter_cons_of_neg (by simp [hother])]
      exact ih hrest (by rw [check_redis_of_ne hkind, hw])

/-! ## What one call about another subject does -/

/-- The bucket of the kind is there, and was empty at `now`. -/
def Drained (kind : Kind) (now : ℚ) (w : Limiters) : Prop :=
  ∃ b, w.redis (key kind) = some b ∧ b.tokens = 0 ∧ b.ts = now ∧ 0 < b.expires

def callAt (now : ℚ) (who : Kind × String) : Call := ⟨who.1, who.2, ⟨now, 0, 0⟩⟩

theorem map_who_callAt (now : ℚ) (l : List (Kind × String)) :
    (l.map (callAt now)).map Call.who = l := by
  rw [List.map_map]
  exact List.map_id l

theorem filter_callAt (now : ℚ) (l : List (Kind × String)) :
    (l.map (callAt now)).filter (Call.ofSubject kind subject) =
      (l.filter (· = (kind, subject))).map (callAt now) := by
  rw [List.filter_map]
  congr 2
  funext who
  exact Bool.eq_iff_iff.mpr (ofSubject_iff.trans (by simp [callAt, Prod.ext_iff]))

section Drained

variable {now : ℚ} {who : Kind × String} (hburst : 1 ≤ (bucket rl kind).burst)
include hburst

theorem Drained.check_denied (h : Drained kind now w) (hkind : who.1 = kind) :
    (check rl (callAt now who) w).1 = false ∧
      Drained kind now (check rl (callAt now who) w).2 := by
  obtain ⟨b, hb, htokens, hts, hlive⟩ := h
  have hburst' : (0 : ℚ) ≤ (bucket rl kind).burst := by exact_mod_cast Int.le_of_lt hburst
  have hdrawn : drawn rl (callAt now who) (some b) = (false, ⟨0, now, 3600⟩) := by
    norm_num [drawn, RedisTokenBucket.take, consumeScript, callAt, hkind, Option.filter, htokens,
      hts, hlive, hburst']
  have hwho : (callAt now who).kind = kind := hkind
  refine ⟨by rw [check_fst, hwho, hb, hdrawn], ⟨0, now, 3600⟩, ?_, rfl, rfl, by norm_num⟩
  rw [check_redis_self hwho, hb, hdrawn]

/-- Once a token has come in, the next call of the kind takes it. -/
theorem Drained.check_admitted (h : Drained kind now w) (hrate : 0 < (bucket rl kind).rate)
    (hkind : who.1 = kind) :
    (check rl (callAt (now + 1 / (bucket rl kind).rate) who) w).1 = true ∧
      Drained kind (now + 1 / (bucket rl kind).rate)
        (check rl (callAt (now + 1 / (bucket rl kind).rate) who) w).2 := by
  obtain ⟨b, hb, htokens, hts, hlive⟩ := h
  have hburst' : (1 : ℚ) ≤ (bucket rl kind).burst := by exact_mod_cast hburst
  have hone : 1 / (bucket rl kind).rate * (bucket rl kind).rate = 1 :=
    one_div_mul_cancel hrate.ne'
  have hdrawn : drawn rl (callAt (now + 1 / (bucket rl kind).rate) who) (some b) =
      (true, ⟨0, now + 1 / (bucket rl kind).rate, 3600⟩) := by
    simp only [drawn, RedisTokenBucket.take, consumeScript, callAt, hkind, Option.filter, hlive,
      decide_true, if_true, Option.map_some, htokens, hts, add_sub_cancel_left, hone, zero_add,
      min_eq_right hburst', ge_iff_le, le_refl, sub_self]
  have hwho : (callAt (now + 1 / (bucket rl kind).rate) who).kind = kind := hkind
  refine ⟨by rw [check_fst, hwho, hb, hdrawn], ⟨0, _, 3600⟩, ?_, rfl, rfl, by norm_num⟩
  rw [check_redis_self hwho, hb, hdrawn]

end Drained

theorem Drained.check {now : ℚ} {who : Kind × String} (hburst : 1 ≤ (bucket rl kind).burst)
    (h : Drained kind now w) : Drained kind now (check rl (callAt now who) w).2 := by
  by_cases hwho : who.1 = kind
  · exact (h.check_denied hburst hwho).2
  · obtain ⟨b, hb, hrest⟩ := h
    have hne : (callAt now who).kind ≠ kind := hwho
    exact ⟨b, by rw [check_redis_of_ne hne, hb], hrest⟩

theorem Drained.after {now : ℚ} {l : List (Kind × String)} (hburst : 1 ≤ (bucket rl kind).burst)
    (h : Drained kind now w) :
    Drained kind now (after (BucketKeys.check rl) w (l.map (callAt now))) := by
  induction l generalizing w with
  | nil => exact h
  | cons who l ih => exact ih (h.check hburst)

/-- While no time passes an empty bucket denies every call of its kind. -/
theorem Drained.answers_denied {now : ℚ} {l : List (Kind × String)}
    (hburst : 1 ≤ (bucket rl kind).burst) (h : Drained kind now w) {a : Call × Bool}
    (ha : a ∈ answers (BucketKeys.check rl) w (l.map (callAt now))) (hkind : a.1.kind = kind) :
    a.2 = false := by
  induction l generalizing w with
  | nil => cases ha
  | cons who l ih =>
    rcases List.mem_cons.mp ha with rfl | ha
    · exact (h.check_denied hburst hkind).1
    · exact ih (h.check hburst) ha

theorem exists_disturbed {schedule : List (Kind × String)}
    (h : ¬ Undisturbed kind subject schedule) :
    ∃ l₁ other l₂, schedule = l₁ ++ (kind, other) :: l₂ ∧ other ≠ subject ∧
      (kind, subject) ∈ l₂ := by
  induction schedule with
  | nil => exact absurd List.Pairwise.nil h
  | cons c schedule ih =>
    by_cases hrest : Undisturbed kind subject schedule
    · have hc : ¬ ∀ d ∈ schedule, d = (kind, subject) → c.1 = kind → c.2 = subject :=
        fun hc => h (List.pairwise_cons.mpr ⟨hc, hrest⟩)
      push Not at hc
      obtain ⟨d, hd, rfl, rfl, hother⟩ := hc
      exact ⟨[], c.2, schedule, rfl, hother, hd⟩
    · obtain ⟨l₁, other, l₂, rfl, hother, hmem⟩ := ih hrest
      exact ⟨c :: l₁, other, l₂, rfl, hother, hmem⟩

/-- Whatever the order of the calls: at all times and on all buckets the subject is answered as in
the run of its own calls alone if no call about another subject of the kind comes before one of
its own, and, where the bucket of the kind can fill, only then. -/
theorem independent_iff_undisturbed (rl : RateLimiter) (kind : Kind) (subject : String)
    (schedule : List (Kind × String)) :
    (Undisturbed kind subject schedule →
      ∀ calls w, calls.map Call.who = schedule → Independent rl kind subject w calls) ∧
    (0 < (bucket rl kind).rate ∧ 1 ≤ (bucket rl kind).burst →
      (∀ calls w, calls.map Call.who = schedule → Independent rl kind subject w calls) →
        Undisturbed kind subject schedule) := by
  refine ⟨?_, ?_⟩
  · rintro h calls w rfl
    exact answers_own_eq h rfl
  · rintro ⟨hrate, hburst⟩ h
    by_contra hnot
    obtain ⟨l₁, other, l₂, rfl, hother, hmem⟩ := exists_disturbed hnot
    -- the calls up to the other subject's find the bucket empty; then it gets one token
    let now := 0 + 1 / (bucket rl kind).rate
    let w : Limiters := ⟨fun _ => some ⟨0, 0, 1⟩, {}⟩
    have hw : Drained kind 0 w := ⟨⟨0, 0, 1⟩, rfl, rfl, rfl, by norm_num⟩
    have hind := h (l₁.map (callAt 0) ++ callAt now (kind, other) :: l₂.map (callAt now)) w
      (by rw [List.map_append, List.map_cons, map_who_callAt, map_who_callAt]; rfl)
    have hdenied : ∀ a ∈ (answers (check rl) w
        (l₁.map (callAt 0) ++ callAt now (kind, other) :: l₂.map (callAt now))).filter
          (fun a => a.1.ofSubject kind subject), a.2 = false := by
      intro a ha
      obtain ⟨ha, hown⟩ := List.mem_filter.mp ha
      obtain ⟨hkind, hsubject⟩ := ofSubject_iff.mp hown
      rw [answers_append] at ha
      rcases List.mem_append.mp ha with ha | ha
      · exact hw.answers_denied hburst ha hkind
      · rcases List.mem_cons.mp ha with rfl | ha
        · exact absurd hsubject hother
        · have hgiven := ((hw.after hburst (l := l₁)).check_admitted hburst hrate
            (show (kind, other).1 = kind from rfl)).2
          exact hgiven.answers_denied hburst ha hkind
    -- without the other subject's call the token goes to the next call about this one
    obtain ⟨who, l, hfilter⟩ : ∃ who l, l₂.filter (· = (kind, subject)) = who :: l :=
      List.exists_cons_of_ne_nil
        (List.ne_nil_of_mem (List.mem_filter.mpr ⟨hmem, decide_eq_true rfl⟩))
    have hwho : who.1 = kind := by
      have := (List.mem_filter.mp (hfilter ▸ List.mem_cons_self (a := who) (l := l))).2
      simp [of_decide_eq_true this]
    have hgiven := (hw.after hburst (l := l₁.filter (· = (kind, subject)))).check_admitted hburst
      hrate hwho
    have hnot' : ¬ (callAt now (kind, other)).ofSubject kind subject = true := by
      rw [ofSubject_iff]
      exact fun h => hother h.2
    rw [hind, List.filter_append, List.filter_cons_of_neg hnot', filter_callAt, filter_callAt,
      hfilter, answers_append, List.map_cons, answers] at hdenied
    have hfalse := hdenied _ (List.mem_append.mpr (.inr (List.mem_cons_self ..)))
    exact Bool.false_ne_true (hfalse.symm.trans hgiven.1)

/-- Three calls about one user leave nothing for another. -/
theorem not_independent_otherUser :
    ¬ ∀ calls, Independent {} .user "a" ⟨fun _ => none, {}⟩ calls := by
  intro h
  have hcalls := h [callAt 0 (.user, "b"), callAt 0 (.user, "b"), callAt 0 (.user, "b"),
    callAt 0 (.user, "a")]
  unfold Independent at hcalls
  revert hcalls
  decide +kernel

end WorkTicket.Ai.BucketKeys
