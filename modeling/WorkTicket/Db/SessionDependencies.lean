import Mathlib.Data.List.Infix

/-! The session dependencies of the routes: a loop of attempts around a `yield`, which is to try a
request again that failed with a retryable error. The body of a request cannot be run again, so an
attempt after the first one yields a second session to a framework that takes only one. -/

namespace WorkTicket.Db.SessionDependencies

abbrev Text := List Char

/-! ## What an attempt meets -/

/-- An exception: its text, and whether it is an `Exception` (a cancellation is not). -/
structure Failure where
  text : Text
  ordinary : Bool
  deriving DecidableEq, Repr

/-- What the calls of an attempt raise: the body at its `yield` (of a later attempt, what the
framework throws in there), and the commit, rollback, report to the circuit breaker and so on of
the dependency. `next` is the making of the next session. -/
structure Attempt where
  body : Option Failure
  commit : Option Failure
  rollback : Option Failure
  report : Option Failure
  sleep : Option Failure
  clear : Option Failure
  close : Option Failure
  next : Option Failure
  deriving DecidableEq, Repr

inductive Raised
  | failure (f : Failure)
  | dbUnavailable (detail : String)
  | internal (f : Failure)
  deriving DecidableEq, Repr

inductive Ending
  | returned
  | again
  | raised (e : Raised)
  deriving DecidableEq, Repr

/-! ## The code -/

inductive Dependency
  | getDb
  | getDbWithRefresh
  | getDbReadonly
  deriving DecidableEq, Repr

def retryablePgCodes : List String := ["40001", "40P01", "55P03"]
def maxRetries : ℕ := 2

def isRetryableError (text : Text) : Bool :=
  retryablePgCodes.any fun code => decide (code.toList <:+: text)

/-- `await session.expire_all()`, which has nothing to await. -/
def awaitNone : Failure := ⟨"object NoneType can't be used in 'await' expression".toList, true⟩

def failedAfterRetries : Dependency → String
  | .getDbReadonly => "DB read-only operation failed after retries"
  | _ => "DB operation failed after retries"

section
variable (lower : Text → Text)

/-- `"timeout" in exc_str.lower() and "pool" in exc_str.lower()`. -/
def isPoolTimeout (text : Text) : Bool :=
  decide ("timeout".toList <:+: lower text) && decide ("pool".toList <:+: lower text)

/-- The `except` clause, for what was raised in the `try`. -/
def handle (d : Dependency) (attempt : ℕ) (a : Attempt) (e : Raised) (f : Failure) : Ending :=
  if !f.ordinary then .raised e
  else
    match a.rollback with
    | some f' => .raised (.internal f')
    | none =>
      if isPoolTimeout lower f.text then
        match a.report with
        | some f' => .raised (.internal f')
        | none => .raised (.dbUnavailable "Database connection pool exhausted")
      else if isRetryableError f.text then
        -- only `get_db` reports the error
        match if d = .getDb then a.report else none with
        | some f' => .raised (.internal f')
        | none =>
          if attempt < maxRetries then
            match a.sleep with
            | some f' => .raised (.internal f')
            | none => .again
          else .raised e
      else .raised e

/-- The `finally` clause. -/
def finish (a : Attempt) (ending : Ending) : Ending :=
  match a.clear.filter (!·.ordinary) with
  | some f => .raised (.internal f)
  | none =>
    match a.close with
    | some f => .raised (.internal f)
    | none => ending

/-- What the body of the request or the commit raises. -/
def Attempt.failure (a : Attempt) : Option Failure := a.body.or a.commit

def tryOnce (d : Dependency) (attempt : ℕ) (a : Attempt) : Ending :=
  finish a <|
    match a.failure with
    | some f => handle lower d attempt a (.failure f) f
    | none =>
      if d = .getDbWithRefresh then handle lower d attempt a (.internal awaitNone) awaitNone
      else .returned

/-- The loop from an attempt on: how many sessions it yields, and how it ends. -/
def attemptsFrom (d : Dependency) (attempts : ℕ → Attempt) : ℕ → ℕ → ℕ × Ending
  | 0, _ => (0, .raised (.dbUnavailable (failedAfterRetries d)))
  | more + 1, attempt =>
    match tryOnce lower d attempt (attempts attempt) with
    | .again =>
      match (attempts attempt).next with
      | some f => (1, .raised (.internal f))
      | none =>
        let (sessions, ending) := attemptsFrom d attempts more (attempt + 1)
        (sessions + 1, ending)
    | ending => (1, ending)

/-- The dependency, once the circuit breaker has let the request pass and its session is made. -/
def dependency (d : Dependency) (attempts : ℕ → Attempt) : ℕ × Ending :=
  attemptsFrom lower d attempts (maxRetries + 1) 0

/-! ## One session -/

/-- One session is yielded; an exception of the body or of the commit leaves as itself or as
DBUnavailableError; after a commit none does. -/
structure OneSession (d : Dependency) (attempts : ℕ → Attempt) : Prop where
  sessions : (dependency lower d attempts).1 = 1
  failed : ∀ f ∈ (attempts 0).failure,
    (dependency lower d attempts).2 = .raised (.failure f) ∨
      ∃ detail, (dependency lower d attempts).2 = .raised (.dbUnavailable detail)
  committed : (attempts 0).failure = none → (dependency lower d attempts).2 = .returned

/-- The clean-up raises nothing. -/
def Attempt.Closes (a : Attempt) : Prop := (∀ f ∈ a.clear, f.ordinary = true) ∧ a.close = none

/-- What fails is not tried again, nor is its handling disturbed. -/
def Attempt.GivesUp (a : Attempt) (f : Failure) : Prop :=
  f.ordinary = true → a.rollback = none ∧
    if isPoolTimeout lower f.text = true then a.report = none else isRetryableError f.text = false

def Meets (d : Dependency) (a : Attempt) : Prop :=
  a.Closes ∧ match a.failure with
    | some f => a.GivesUp lower f
    | none => d ≠ .getDbWithRefresh

end

attribute [grind =] handle finish Attempt.failure tryOnce attemptsFrom dependency

section
variable {lower : Text → Text} {d : Dependency} {a : Attempt} {attempts : ℕ → Attempt} {f : Failure}
  {ending : Ending}

theorem finish_of_closes (h : a.Closes) (ending : Ending) : finish a ending = ending := by
  have hclear : a.clear.filter (!·.ordinary) = none := by
    rw [Option.filter_eq_none_iff]
    intro f hf
    simp [h.1 f hf]
  rw [finish, hclear, h.2]

theorem finish_of_not_closes (h : ¬a.Closes) (ending : Ending) :
    ∃ f, finish a ending = .raised (.internal f) := by
  unfold finish
  cases hclear : a.clear.filter (!·.ordinary) with
  | some f => exact ⟨f, rfl⟩
  | none =>
    cases hclose : a.close with
    | some f => exact ⟨f, rfl⟩
    | none =>
      refine absurd ⟨fun f hf => ?_, hclose⟩ h
      simpa using Option.filter_eq_none_iff.mp hclear f hf

/-- An attempt that is not repeated is the whole dependency. -/
theorem dependency_eq (h : tryOnce lower d 0 (attempts 0) = ending) (hlast : ending ≠ .again) :
    dependency lower d attempts = (1, ending) := by
  rw [dependency, attemptsFrom, h]
  split
  · contradiction
  · rfl

theorem not_oneSession_of_internal (h : (dependency lower d attempts).2 = .raised (.internal f)) :
    ¬OneSession lower d attempts := by
  intro hone
  cases hfailure : (attempts 0).failure with
  | some f' =>
    have hfailed := hone.failed f' hfailure
    simp [h] at hfailed
  | none =>
    have hcommitted := hone.committed hfailure
    simp [h] at hcommitted

theorem one_le_sessions (more attempt : ℕ) :
    1 ≤ (attemptsFrom lower d attempts (more + 1) attempt).1 := by
  rw [attemptsFrom]
  split
  · split
    · exact le_rfl
    · exact Nat.le_add_left 1 _
  · exact le_rfl

/-- An attempt that is repeated yields once more, or cannot. -/
theorem not_oneSession_of_again (h : tryOnce lower d 0 (attempts 0) = .again) :
    ¬OneSession lower d attempts := by
  have hdependency : dependency lower d attempts = match (attempts 0).next with
      | some f => (1, .raised (.internal f))
      | none => ((attemptsFrom lower d attempts maxRetries 1).1 + 1,
          (attemptsFrom lower d attempts maxRetries 1).2) := by
    rw [dependency, attemptsFrom, h]
  cases hnext : (attempts 0).next with
  | some f =>
    rw [hnext] at hdependency
    exact not_oneSession_of_internal (f := f) (by rw [hdependency])
  | none =>
    intro hone
    have hsessions := hone.sessions
    have hmore : 1 ≤ (attemptsFrom lower d attempts maxRetries 1).1 := one_le_sessions 1 1
    rw [hdependency, hnext] at hsessions
    simp only at hsessions
    omega

theorem handle_of_givesUp (h : a.GivesUp lower f) (attempt : ℕ) (e : Raised) :
    handle lower d attempt a e f = .raised e ∨
      ∃ detail, handle lower d attempt a e f = .raised (.dbUnavailable detail) := by
  cases hordinary : f.ordinary with
  | false => exact .inl (by simp [handle, hordinary])
  | true =>
    obtain ⟨hrollback, hgives⟩ := h hordinary
    cases htimeout : isPoolTimeout lower f.text with
    | true =>
      rw [if_pos htimeout] at hgives
      exact .inr ⟨_, by simp [handle, hordinary, hrollback, htimeout, hgives]; rfl⟩
    | false =>
      rw [if_neg (by simp [htimeout])] at hgives
      exact .inl (by simp [handle, hordinary, hrollback, htimeout, hgives])

theorem handle_of_not_givesUp (h : ¬a.GivesUp lower f) (e : Raised) :
    handle lower d 0 a e f = .again ∨
      ∃ f', handle lower d 0 a e f = .raised (.internal f') := by
  obtain ⟨hordinary, h⟩ := Classical.not_imp.mp h
  cases hrollback : a.rollback with
  | some f' => exact .inr ⟨f', by simp [handle, hordinary, hrollback]⟩
  | none =>
    cases htimeout : isPoolTimeout lower f.text with
    | true =>
      cases hreport : a.report with
      | some f' => exact .inr ⟨f', by simp [handle, hordinary, hrollback, htimeout, hreport]⟩
      | none => exact absurd ⟨hrollback, by rw [if_pos htimeout]; exact hreport⟩ h
    | false =>
      cases hretryable : isRetryableError f.text with
      | false =>
        exact absurd ⟨hrollback, by rw [if_neg (by simp [htimeout])]; exact hretryable⟩ h
      | true =>
        cases hreport : (if d = .getDb then a.report else none) with
        | some f' =>
          exact .inr ⟨f', by simp [handle, hordinary, hrollback, htimeout, hretryable, hreport]⟩
        | none =>
          have hmore : 0 < maxRetries := Nat.two_pos
          cases hsleep : a.sleep with
          | some f' =>
            exact .inr ⟨f', by
              simp [handle, hordinary, hrollback, htimeout, hretryable, hreport, hmore, hsleep]⟩
          | none =>
            exact .inl (by
              simp [handle, hordinary, hrollback, htimeout, hretryable, hreport, hmore, hsleep])

theorem handle_ne_returned (attempt : ℕ) (e : Raised) :
    handle lower d attempt a e f ≠ .returned := by
  unfold handle
  split_ifs <;> (repeat' split) <;> simp

theorem handle_awaitNone (e : Raised) : handle lower d 0 a e awaitNone ≠ .again := by
  have hretryable : isRetryableError awaitNone.text = false := by decide
  unfold handle
  split_ifs <;> (repeat' split) <;> simp_all

theorem oneSession_failed (hcloses : (attempts 0).Closes) (hfailure : (attempts 0).failure = some f) :
    OneSession lower d attempts ↔ (attempts 0).GivesUp lower f := by
  have honce : tryOnce lower d 0 (attempts 0) = handle lower d 0 (attempts 0) (.failure f) f := by
    rw [tryOnce, finish_of_closes hcloses, hfailure]
  constructor
  · intro hone
    by_contra hnot
    rcases handle_of_not_givesUp (d := d) hnot (.failure f) with hagain | ⟨f', hraised⟩
    · exact not_oneSession_of_again (honce.trans hagain) hone
    · have hdependency := dependency_eq (honce.trans hraised) (by simp)
      exact not_oneSession_of_internal (by rw [hdependency]) hone
  · intro hgives
    have hleaves := handle_of_givesUp (d := d) hgives 0 (.failure f)
    have hlast : handle lower d 0 (attempts 0) (.failure f) f ≠ .again := by
      rcases hleaves with hleaves | ⟨detail, hleaves⟩ <;> simp [hleaves]
    have hdependency := dependency_eq honce hlast
    refine ⟨by rw [hdependency], fun f' hf' => ?_, fun hnone => ?_⟩
    · obtain rfl := Option.some.inj (hfailure.symm.trans hf')
      rw [hdependency]
      exact hleaves
    · rw [hfailure] at hnone
      cases hnone

theorem oneSession_committed (hcloses : (attempts 0).Closes)
    (hfailure : (attempts 0).failure = none) :
    OneSession lower d attempts ↔ d ≠ .getDbWithRefresh := by
  constructor
  · intro hone hrefresh
    have honce : tryOnce lower d 0 (attempts 0) =
        handle lower d 0 (attempts 0) (.internal awaitNone) awaitNone := by
      rw [tryOnce, finish_of_closes hcloses, hfailure]
      simp only [hrefresh, if_true]
    have hcommitted := hone.committed hfailure
    rw [dependency_eq honce (handle_awaitNone _)] at hcommitted
    simp only at hcommitted
    exact handle_ne_returned _ _ hcommitted
  · intro hplain
    have honce : tryOnce lower d 0 (attempts 0) = .returned := by
      rw [tryOnce, finish_of_closes hcloses, hfailure]
      simp only [hplain, if_false]
    have hdependency := dependency_eq honce (by simp)
    refine ⟨by rw [hdependency], fun f' hf' => ?_, fun _ => by rw [hdependency]⟩
    rw [hfailure] at hf'
    cases hf'

end

/-- Each dependency keeps to one session exactly if its clean-up raises nothing and its first
attempt fails without a retry, or, unless it is the one that refreshes, does not fail. -/
theorem oneSession_iff_meets (lower : Text → Text) (d : Dependency) (attempts : ℕ → Attempt) :
    OneSession lower d attempts ↔ Meets lower d (attempts 0) := by
  unfold Meets
  by_cases hcloses : (attempts 0).Closes
  · simp only [hcloses, true_and]
    cases hfailure : (attempts 0).failure with
    | some f => exact oneSession_failed hcloses hfailure
    | none => exact oneSession_committed hcloses hfailure
  · obtain ⟨f, hf⟩ : ∃ f, tryOnce lower d 0 (attempts 0) = .raised (.internal f) :=
      finish_of_not_closes hcloses _
    have hdependency := dependency_eq hf (by simp)
    refine iff_of_false (not_oneSession_of_internal (f := f) ?_) fun hmeets => hcloses hmeets.1
    rw [hdependency]

/-- Nothing is raised. -/
def quiet : Attempt := ⟨none, none, none, none, none, none, none, none⟩

/-- The commit fails with a serialization error. -/
def serialization : Attempt :=
  { quiet with commit := some ⟨"SQLSTATE 40001: could not serialize access".toList, true⟩ }

/-- `get_db` yields a second session, and `get_db_with_refresh` raises after its commit. -/
theorem not_oneSession :
    ¬OneSession (List.map Char.toLower) .getDb (fun k => if k = 0 then serialization else quiet) ∧
      ¬OneSession (List.map Char.toLower) .getDbWithRefresh (fun _ => quiet) := by
  constructor
  · intro hone
    have htwo : (dependency (List.map Char.toLower) .getDb
        fun k => if k = 0 then serialization else quiet).1 = 2 := by decide
    exact absurd (htwo.symm.trans hone.sessions) (by decide)
  · intro hone
    have hraised : (dependency (List.map Char.toLower) .getDbWithRefresh fun _ => quiet).2 =
        .raised (.internal awaitNone) := by decide
    have hreturned := hone.committed rfl
    rw [hraised] at hreturned
    cases hreturned

end WorkTicket.Db.SessionDependencies
