import Mathlib

/-! Programs that call their surroundings: trees of commands with a continuation for every
answer, an exception among them. A program is run against given answers, or reasoned about
for all answers by preconditions over a ghost state that the answers move on. -/

namespace WorkTicket

inductive Program {C : Type} (R : C → Type) (ε α : Type)
  | ret (a : α)
  | raise (e : ε)
  | call (c : C) (next : Except ε (R c) → Program R ε α)

namespace Program

variable {C : Type} {R : C → Type} {ε α β : Type}

def bind : Program R ε α → (α → Program R ε β) → Program R ε β
  | ret a, f => f a
  | raise e, _ => raise e
  | call c next, f => call c fun r => (next r).bind f

instance : Monad (Program R ε) where
  pure := ret
  bind := bind

/-- The program that returns how `p` ends instead of raising. -/
def outcome : Program R ε α → Program R ε (Except ε α)
  | ret a => ret (.ok a)
  | raise e => ret (.error e)
  | call c next => call c fun r => (next r).outcome

def ask (c : C) : Program R ε (R c) :=
  call c fun r => match r with
    | .ok a => ret a
    | .error e => raise e

def raiseIf (p : Prop) [Decidable p] (e : ε) : Program R ε Unit := if p then raise e else pure ()

def onlyIf (p : Prop) [Decidable p] (x : Program R ε Unit) : Program R ε Unit :=
  if p then x else pure ()

/-! ## Runs against given answers -/

section
variable (answers : (c : C) → Except ε (R c))

def result : Program R ε α → Except ε α
  | ret a => .ok a
  | raise e => .error e
  | call c next => (next (answers c)).result

def calls : Program R ε α → List C
  | ret _ => []
  | raise _ => []
  | call c next => c :: (next (answers c)).calls

@[simp] theorem result_pure (a : α) : (pure a : Program R ε α).result answers = .ok a := rfl

@[simp] theorem result_raise (e : ε) : (raise e : Program R ε α).result answers = .error e := rfl

@[simp] theorem calls_pure (a : α) : (pure a : Program R ε α).calls answers = [] := rfl

@[simp] theorem result_ask (c : C) : (ask c : Program R ε (R c)).result answers = answers c := by
  simp only [ask, result]
  cases answers c <;> rfl

@[simp] theorem calls_ask (c : C) : (ask c : Program R ε (R c)).calls answers = [c] := by
  simp only [ask, calls]
  cases answers c <;> rfl

theorem result_bind (p : Program R ε α) (f : α → Program R ε β) :
    (p >>= f).result answers = match p.result answers with
      | .ok a => (f a).result answers
      | .error e => .error e := by
  change (p.bind f).result answers = _
  induction p with
  | ret a => rfl
  | raise e => rfl
  | call c next ih => exact ih (answers c)

theorem calls_bind (p : Program R ε α) (f : α → Program R ε β) :
    (p >>= f).calls answers = p.calls answers ++ match p.result answers with
      | .ok a => (f a).calls answers
      | .error _ => [] := by
  change (p.bind f).calls answers = _
  induction p with
  | ret a => rfl
  | raise e => rfl
  | call c next ih => exact congrArg (c :: ·) (ih (answers c))

theorem mem_calls_bind {p : Program R ε α} {f : α → Program R ε β} {c : C} :
    c ∈ (p >>= f).calls answers ↔
      c ∈ p.calls answers ∨ ∃ a, p.result answers = .ok a ∧ c ∈ (f a).calls answers := by
  rw [calls_bind, List.mem_append]
  cases p.result answers with
  | ok a => simp
  | error e => simp

theorem result_bind_eq_ok {p : Program R ε α} {f : α → Program R ε β} {b : β} :
    (p >>= f).result answers = .ok b ↔
      ∃ a, p.result answers = .ok a ∧ (f a).result answers = .ok b := by
  rw [result_bind]
  cases p.result answers with
  | ok a => simp
  | error e => simp

@[simp] theorem result_raiseIf_eq_ok {p : Prop} [Decidable p] {e : ε} {u : Unit} :
    (raiseIf p e : Program R ε Unit).result answers = .ok u ↔ ¬ p := by
  unfold raiseIf
  split <;> simp [*]

@[simp] theorem result_onlyIf_eq_ok {p : Prop} [Decidable p] {x : Program R ε Unit} {u : Unit} :
    (onlyIf p x).result answers = .ok u ↔ (p → x.result answers = .ok ()) := by
  unfold onlyIf
  split <;> simp [*]

@[simp] theorem result_outcome (p : Program R ε α) :
    p.outcome.result answers = .ok (p.result answers) := by
  induction p with
  | ret a => rfl
  | raise e => rfl
  | call c next ih => exact ih (answers c)

@[simp] theorem calls_outcome (p : Program R ε α) : p.outcome.calls answers = p.calls answers := by
  induction p with
  | ret a => rfl
  | raise e => rfl
  | call c next ih => exact congrArg (c :: ·) (ih (answers c))

end

/-! ## The commands a program may call -/

def CallsOnly (S : C → Prop) : Program R ε α → Prop
  | ret _ | raise _ => True
  | call c next => S c ∧ ∀ r, (next r).CallsOnly S

section
variable {S : C → Prop}

@[simp] theorem callsOnly_pure (a : α) : (pure a : Program R ε α).CallsOnly S := trivial

@[simp] theorem callsOnly_raise (e : ε) : (raise e : Program R ε α).CallsOnly S := trivial

@[simp] theorem callsOnly_ask {c : C} : (ask c : Program R ε (R c)).CallsOnly S ↔ S c := by
  refine ⟨fun h => h.1, fun h => ⟨h, fun r => ?_⟩⟩
  cases r <;> exact trivial

theorem CallsOnly.bind {p : Program R ε α} {f : α → Program R ε β} (hp : p.CallsOnly S)
    (hf : ∀ a, (f a).CallsOnly S) : (p >>= f).CallsOnly S := by
  change (p.bind f).CallsOnly S
  induction p with
  | ret a => exact hf a
  | raise e => exact trivial
  | call c next ih => exact ⟨hp.1, fun r => ih r (hp.2 r)⟩

theorem CallsOnly.outcome {p : Program R ε α} (hp : p.CallsOnly S) : p.outcome.CallsOnly S := by
  induction p with
  | ret a => exact trivial
  | raise e => exact trivial
  | call c next ih => exact ⟨hp.1, fun r => ih r (hp.2 r)⟩

@[simp] theorem callsOnly_raiseIf {p : Prop} [Decidable p] {e : ε} :
    (raiseIf p e : Program R ε Unit).CallsOnly S := by
  unfold raiseIf
  split <;> exact trivial

theorem CallsOnly.onlyIf {p : Prop} [Decidable p] {x : Program R ε Unit}
    (hx : x.CallsOnly S) : (onlyIf p x).CallsOnly S := by
  unfold Program.onlyIf
  split
  · exact hx
  · exact trivial

theorem CallsOnly.mono {T : C → Prop} {p : Program R ε α} (hp : p.CallsOnly S)
    (h : ∀ c, S c → T c) : p.CallsOnly T := by
  induction p with
  | ret a => exact trivial
  | raise e => exact trivial
  | call c next ih => exact ⟨h c hp.1, fun r => ih r (hp.2 r)⟩

theorem CallsOnly.mem_calls {p : Program R ε α} (hp : p.CallsOnly S)
    {answers : (c : C) → Except ε (R c)} {c : C} (hc : c ∈ p.calls answers) : S c := by
  induction p with
  | ret a => cases hc
  | raise e => cases hc
  | call d next ih =>
    rcases List.mem_cons.mp hc with rfl | hc
    · exact hp.1
    · exact ih _ (hp.2 _) hc

end

/-! ## What the calls of a run stand for -/

/-- The effects of a run, where every call has a list of them. -/
def gather {τ : Type*} (effects : C → List τ) (answers : (c : C) → Except ε (R c))
    (p : Program R ε α) : List τ :=
  (p.calls answers).flatMap effects

section
variable {τ : Type*} {effects : C → List τ} {answers : (c : C) → Except ε (R c)} {t : τ}

theorem gather_ask (c : C) :
    (ask c : Program R ε (R c)).gather effects answers = effects c := by
  rw [gather, calls_ask, List.flatMap_singleton]

theorem gather_bind (p : Program R ε α) (f : α → Program R ε β) :
    (p >>= f).gather effects answers = p.gather effects answers ++ match p.result answers with
      | .ok a => (f a).gather effects answers
      | .error _ => [] := by
  rw [gather, calls_bind, List.flatMap_append]
  cases p.result answers <;> rfl

theorem gather_bind_pure (p : Program R ε α) (f : α → β) :
    (p >>= fun a => pure (f a)).gather effects answers = p.gather effects answers := by
  rw [gather_bind]
  cases p.result answers <;> exact List.append_nil _

theorem gather_raiseIf_bind (p : Prop) [Decidable p] (e : ε) (f : Unit → Program R ε α) :
    (raiseIf p e >>= f).gather effects answers =
      if p then [] else (f ()).gather effects answers := by
  unfold raiseIf
  split <;> rfl

theorem gather_onlyIf (p : Prop) [Decidable p] (x : Program R ε Unit) :
    (onlyIf p x).gather effects answers = if p then x.gather effects answers else [] := by
  unfold onlyIf
  split <;> rfl

theorem gather_outcome (p : Program R ε α) :
    p.outcome.gather effects answers = p.gather effects answers := by
  rw [gather, calls_outcome, gather]

theorem gather_of_callsOnly {p : Program R ε α} (h : p.CallsOnly (effects · = [])) :
    p.gather effects answers = [] :=
  List.flatMap_eq_nil_iff.mpr fun _ hc => h.mem_calls hc

end

/-! ## Programs with further commands -/

section
variable {E : Type} {S : E → Type}

@[reducible] def Both (R : C → Type) (S : E → Type) : C ⊕ E → Type
  | .inl c => R c
  | .inr e => S e

/-- The program as one of a larger set of commands, of which it calls no other. -/
def lift : Program R ε α → Program (Both R S) ε α
  | ret a => ret a
  | raise e => raise e
  | call c next => call (.inl c) fun r => (next r).lift

/-- Whatever the further commands answer, the first program does what the second does. -/
inductive Extends : Program (Both R S) ε α → Program R ε α → Prop
  | ret (a : α) : Extends (ret a) (ret a)
  | raise (e : ε) : Extends (raise e) (raise e)
  | call {c : C} {next : Except ε (R c) → Program (Both R S) ε α}
      {next' : Except ε (R c) → Program R ε α} :
      (∀ r, Extends (next r) (next' r)) → Extends (call (.inl c) next) (call c next')
  | further {e : E} {next : Except ε (S e) → Program (Both R S) ε α} {q : Program R ε α} :
      (∀ r, Extends (next r) q) → Extends (call (.inr e) next) q

theorem extends_lift (p : Program R ε α) : (p.lift : Program (Both R S) ε α).Extends p := by
  induction p with
  | ret a => exact .ret a
  | raise e => exact .raise e
  | call c next ih => exact .call ih

theorem Extends.bind {p : Program (Both R S) ε α} {q : Program R ε α}
    {f : α → Program (Both R S) ε β} {g : α → Program R ε β} (h : p.Extends q)
    (hf : ∀ a, (f a).Extends (g a)) : (p >>= f).Extends (q >>= g) := by
  change (p.bind f).Extends (q.bind g)
  induction h with
  | ret a => exact hf a
  | raise e => exact .raise e
  | call _ ih => exact .call ih
  | further _ ih => exact .further ih

theorem Extends.outcome {p : Program (Both R S) ε α} {q : Program R ε α} (h : p.Extends q) :
    p.outcome.Extends q.outcome := by
  induction h with
  | ret a => exact .ret _
  | raise e => exact .ret _
  | call _ ih => exact .call ih
  | further _ ih => exact .further ih

theorem Extends.raiseIf (p : Prop) [Decidable p] (e : ε) :
    (Program.raiseIf p e : Program (Both R S) ε Unit).Extends (Program.raiseIf p e) := by
  unfold Program.raiseIf
  split
  · exact .raise e
  · exact .ret ()

theorem Extends.onlyIf {p : Prop} [Decidable p] {x : Program (Both R S) ε Unit}
    {y : Program R ε Unit} (h : x.Extends y) : (Program.onlyIf p x).Extends (Program.onlyIf p y) := by
  unfold Program.onlyIf
  split
  · exact h
  · exact .ret ()

/-- Only further commands are called before `f`, and it does not matter how they end. -/
theorem Extends.outcome_bind {p : Program (Both R S) ε α} (hp : p.CallsOnly (·.isRight))
    {f : Except ε α → Program (Both R S) ε β} {q : Program R ε β} (hf : ∀ r, (f r).Extends q) :
    (p.outcome >>= f).Extends q := by
  change (p.outcome.bind f).Extends q
  induction p with
  | ret a => exact hf _
  | raise e => exact hf _
  | call d next ih =>
    cases d with
    | inl c => exact absurd hp.1 Bool.false_ne_true
    | inr e => exact .further fun r => ih r (hp.2 r)

section
variable {answers : (d : C ⊕ E) → Except ε (Both R S d)} {p : Program (Both R S) ε α}
  {q : Program R ε α}

theorem Extends.result_eq (h : p.Extends q) :
    p.result answers = q.result fun c => answers (.inl c) := by
  induction h with
  | ret a => rfl
  | raise e => rfl
  | call _ ih => exact ih _
  | further _ ih => exact ih _

theorem Extends.calls_eq (h : p.Extends q) :
    (p.calls answers).filterMap Sum.getLeft? = q.calls fun c => answers (.inl c) := by
  induction h with
  | ret a => rfl
  | raise e => rfl
  | call _ ih => exact congrArg (_ :: ·) (ih _)
  | further _ ih => exact ih _

end

end

/-! ## Programs that pass on the exceptions of their commands -/

/-- The program raises an exception of a command as soon as it gets it, and none of its own. -/
def PassesOn : Program R ε α → Prop
  | ret _ => True
  | raise _ => False
  | call _ next => (∀ a, (next (.ok a)).PassesOn) ∧ ∀ e, next (.error e) = raise e

theorem passesOn_ask {c : C} : (ask c : Program R ε (R c)).PassesOn :=
  ⟨fun _ => trivial, fun _ => rfl⟩

theorem PassesOn.bind {p : Program R ε α} {f : α → Program R ε β} (hp : p.PassesOn)
    (hf : ∀ a, (f a).PassesOn) : (p >>= f).PassesOn := by
  change (p.bind f).PassesOn
  induction p with
  | ret a => exact hf a
  | raise e => exact hp.elim
  | call c next ih =>
    refine ⟨fun a => ih (.ok a) (hp.1 a), fun e => ?_⟩
    show (next (.error e)).bind f = raise e
    rw [hp.2 e]
    rfl

theorem PassesOn.onlyIf {p : Prop} [Decidable p] {x : Program R ε Unit} (hx : x.PassesOn) :
    (onlyIf p x).PassesOn := by
  unfold Program.onlyIf
  split
  · exact hx
  · exact trivial

/-! ## Preconditions over a ghost state -/

/-- A ghost state of a program: what a command needs of it, which answers are expected in
it, and how an answer changes it. -/
structure Ghost (σ : Type) (R : C → Type) (ε : Type) where
  needs : σ → C → Prop
  expects : σ → (c : C) → Except ε (R c) → Prop
  after : σ → (c : C) → Except ε (R c) → σ

/-- As long as its answers are expected, the program calls commands only where their needs
are met, and if it ends it ends in `Q`. -/
def wp {σ : Type} (g : Ghost σ R ε) : Program R ε α → (Except ε α → σ → Prop) → σ → Prop
  | ret a, Q, s => Q (.ok a) s
  | raise e, Q, s => Q (.error e) s
  | call c next, Q, s => g.needs s c ∧ ∀ r, g.expects s c r → wp g (next r) Q (g.after s c r)

section
variable {σ : Type} {g : Ghost σ R ε} {s : σ}

@[simp] theorem wp_pure (a : α) (Q : Except ε α → σ → Prop) :
    wp g (pure a) Q s ↔ Q (.ok a) s := Iff.rfl

@[simp] theorem wp_raise (e : ε) (Q : Except ε α → σ → Prop) :
    wp g (raise e) Q s ↔ Q (.error e) s := Iff.rfl

theorem wp_mono {p : Program R ε α} {Q Q' : Except ε α → σ → Prop}
    (h : wp g p Q s) (hQ : ∀ r s', Q r s' → Q' r s') : wp g p Q' s := by
  induction p generalizing s with
  | ret a => exact hQ _ _ h
  | raise e => exact hQ _ _ h
  | call c next ih => exact ⟨h.1, fun r hr => ih r (h.2 r hr)⟩

@[simp] theorem wp_ask (c : C) (Q : Except ε (R c) → σ → Prop) :
    wp g (ask c) Q s ↔ g.needs s c ∧ ∀ r, g.expects s c r → Q r (g.after s c r) := by
  refine and_congr Iff.rfl (forall_congr' fun r => imp_congr Iff.rfl ?_)
  cases r <;> exact Iff.rfl

@[simp] theorem wp_bind (p : Program R ε α) (f : α → Program R ε β) (Q : Except ε β → σ → Prop) :
    wp g (p >>= f) Q s ↔ wp g p (fun r s' => match r with
      | .ok a => wp g (f a) Q s'
      | .error e => Q (.error e) s') s := by
  change wp g (p.bind f) Q s ↔ _
  induction p generalizing s with
  | ret a => exact Iff.rfl
  | raise e => exact Iff.rfl
  | call c next ih =>
    exact and_congr Iff.rfl (forall_congr' fun r => imp_congr Iff.rfl (ih r))

@[simp] theorem wp_outcome (p : Program R ε α) (Q : Except ε (Except ε α) → σ → Prop) :
    wp g p.outcome Q s ↔ wp g p (fun r s' => Q (.ok r) s') s := by
  induction p generalizing s with
  | ret a => exact Iff.rfl
  | raise e => exact Iff.rfl
  | call c next ih =>
    exact and_congr Iff.rfl (forall_congr' fun r => imp_congr Iff.rfl (ih r))

end

end Program
end WorkTicket
