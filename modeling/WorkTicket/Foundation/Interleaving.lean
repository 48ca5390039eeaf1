import WorkTicket.Foundation.Program
import WorkTicket.Foundation.Transition

/-! Programs that run side by side over one server. Each makes its calls one at a time, and
between two of its calls come those of the others. A precondition of each program by itself, over
a ghost state of its own, and what a call does to the server together give an invariant of all
of them, in whatever order they run. -/

namespace WorkTicket.Interleaving

open Program Transition

variable {C : Type} {R : C → Type} {ε α σ τ A O X : Type}

/-- Which program an arrival runs, what the server answers to a call, where the outcome is what
it does not decide by itself (`none` for one that cannot be), and what changes it without a call. -/
structure System (σ : Type) (R : C → Type) (ε α A O X : Type) where
  program : A → Program R ε α
  answer : σ → (c : C) → O → Option (Except ε (R c) × σ)
  outside : σ → X → Option σ

structure Pool (σ : Type) (R : C → Type) (ε α : Type) where
  server : σ
  programs : List (Program R ε α)

inductive Event (A O X : Type)
  | arrive (a : A)
  | call (i : ℕ) (o : O)
  | outside (x : X)

section
variable (S : System σ R ε α A O X)

def step (p : Pool σ R ε α) : Event A O X → Option (Pool σ R ε α)
  | .arrive a => some { p with programs := p.programs ++ [S.program a] }
  | .outside x => (S.outside p.server x).map fun s => { p with server := s }
  | .call i o =>
    match p.programs[i]? with
    | some (.call c next) =>
      (S.answer p.server c o).map fun (r, s) => ⟨s, p.programs.set i (next r)⟩
    | _ => none

/-- What is called has `fair` outcomes. -/
def Fair (fair : σ → C → O → Prop) (p : Pool σ R ε α) : Event A O X → Prop
  | .call i o => ∀ c next, p.programs[i]? = some (.call c next) → fair p.server c o
  | .arrive _ | .outside _ => True

def start (s : σ) : Pool σ R ε α := ⟨s, []⟩

end

/-- The program has come to its end. -/
def Ended : Program R ε α → Prop
  | .ret _ | .raise _ => True
  | .call _ _ => False

/-! ## The invariant rule -/

/-- A ghost state of each program, with which its precondition and the common invariant hold. -/
structure Holds (g : Ghost τ R ε) (Q : Except ε α → τ → Prop) (I : σ → List τ → Prop)
    (p : Pool σ R ε α) (ts : List τ) : Prop where
  server : I p.server ts
  programs : List.Forall₂ (fun q t => wp g q Q t) p.programs ts

/-- What is needed of the parts: programs that arrive meet their precondition, and an answer is
one that the caller expects and keeps the common invariant. -/
structure Sound (S : System σ R ε α A O X) (fair : σ → C → O → Prop) (g : Ghost τ R ε) (t₀ : A → τ)
    (Q : Except ε α → τ → Prop) (I : σ → List τ → Prop) : Prop where
  program : ∀ a, wp g (S.program a) Q (t₀ a)
  arrive : ∀ s ts a, I s ts → I s (ts ++ [t₀ a])
  call : ∀ s ts i t c o r s', I s ts → ts[i]? = some t → g.needs t c → fair s c o →
    S.answer s c o = some (r, s') → g.expects t c r ∧ I s' (ts.set i (g.after t c r))
  outside : ∀ s ts x s', I s ts → S.outside s x = some s' → I s' ts

section
variable {S : System σ R ε α A O X} {fair : σ → C → O → Prop} {g : Ghost τ R ε} {t₀ : A → τ}
  {Q : Except ε α → τ → Prop} {I : σ → List τ → Prop} {p p' : Pool σ R ε α} {ts : List τ}

theorem forall₂_getElem? {β γ : Type*} {rel : β → γ → Prop} {l : List β} {m : List γ} {i : ℕ}
    {b : β} (h : List.Forall₂ rel l m) (hb : l[i]? = some b) : ∃ t, m[i]? = some t ∧ rel b t := by
  induction h generalizing i with
  | nil => cases hb
  | cons hrel _ ih =>
    cases i with
    | zero => exact ⟨_, rfl, Option.some.inj hb ▸ hrel⟩
    | succ i => exact ih hb

theorem forall₂_set {β γ : Type*} {rel : β → γ → Prop} {l : List β} {m : List γ} {b : β} {t : γ}
    (h : List.Forall₂ rel l m) (i : ℕ) (hrel : rel b t) :
    List.Forall₂ rel (l.set i b) (m.set i t) := by
  induction h generalizing i with
  | nil => exact .nil
  | cons hhead htail ih =>
    cases i with
    | zero => exact .cons hrel htail
    | succ i => exact .cons hhead (ih i)

/-- A step is an arrival, an answered call, or a change from outside. -/
theorem step_cases {e : Event A O X} (h : step S p e = some p') :
    (∃ a, e = .arrive a ∧ p' = { p with programs := p.programs ++ [S.program a] }) ∨
    (∃ x s, e = .outside x ∧ S.outside p.server x = some s ∧ p' = { p with server := s }) ∨
    ∃ i o c next r s, e = .call i o ∧ p.programs[i]? = some (.call c next) ∧
      S.answer p.server c o = some (r, s) ∧ p' = ⟨s, p.programs.set i (next r)⟩ := by
  cases e with
  | arrive a => exact .inl ⟨a, rfl, (Option.some.inj h).symm⟩
  | outside x =>
    obtain ⟨s, hs, rfl⟩ := Option.map_eq_some_iff.mp h
    exact .inr (.inl ⟨x, s, rfl, hs, rfl⟩)
  | call i o =>
    simp only [step] at h
    split at h
    · rename_i c next hprogram
      obtain ⟨⟨r, s⟩, hanswer, rfl⟩ := Option.map_eq_some_iff.mp h
      exact .inr (.inr ⟨i, o, c, next, r, s, rfl, hprogram, hanswer, rfl⟩)
    · cases h

theorem Sound.step (hsound : Sound S fair g t₀ Q I) {e : Event A O X} (h : Holds g Q I p ts)
    (hfair : Fair fair p e) (hs : step S p e = some p') : ∃ ts', Holds g Q I p' ts' := by
  rcases step_cases hs with ⟨a, rfl, rfl⟩ | ⟨x, s, rfl, hx, rfl⟩ |
    ⟨i, o, c, next, r, s, rfl, hprogram, hanswer, rfl⟩
  · refine ⟨ts ++ [t₀ a], hsound.arrive _ _ _ h.server, ?_⟩
    exact List.rel_append h.programs (.cons (hsound.program a) .nil)
  · exact ⟨ts, hsound.outside _ _ _ _ h.server hx, h.programs⟩
  · -- the precondition of the caller says what it needs and what follows an expected answer
    obtain ⟨t, ht, hneeds, hnext⟩ := forall₂_getElem? h.programs hprogram
    obtain ⟨hexpects, hserver⟩ :=
      hsound.call _ _ _ _ _ _ _ _ h.server ht hneeds (hfair c next hprogram) hanswer
    exact ⟨_, hserver, forall₂_set h.programs i (hnext r hexpects)⟩

/-- The invariant rule for programs side by side. -/
theorem Sound.reached (hsound : Sound S fair g t₀ Q I) {s₀ : σ} (h₀ : I s₀ [])
    (h : ReachedBy (Interleaving.step S) (Fair fair) (start s₀) p) : ∃ ts, Holds g Q I p ts := by
  have hstart : Holds g Q I (start s₀) [] := ⟨h₀, .nil⟩
  refine h.invariant (I := fun p => ∃ ts, Holds g Q I p ts) ⟨[], hstart⟩ ?_
  rintro p e p' ⟨ts, hts⟩ hfair hs
  exact hsound.step hts hfair hs

/-- A run whose outcomes are fair wherever they are met. -/
theorem reachedBy_of_run (es : List (Event A O X)) (h : run (Interleaving.step S) p es = some p')
    (hfair : ∀ i o, .call i o ∈ es → ∀ s c, fair s c o) :
    ReachedBy (Interleaving.step S) (Fair fair) p p' := by
  induction es generalizing p with
  | nil => exact Option.some.inj h ▸ .start
  | cons e es ih =>
    obtain ⟨q, hq, hrest⟩ := Option.bind_eq_some_iff.mp h
    have hfirst : Fair fair p e := by
      cases e with
      | call i o => exact fun c _ _ => hfair i o List.mem_cons_self p.server c
      | arrive | outside => trivial
    refine ReachedBy.trans (ReachedBy.start.step hfirst hq) (ih hrest ?_)
    exact fun i o hmem => hfair i o (List.mem_cons_of_mem e hmem)

/-- Programs that have ended are in their postcondition. -/
theorem Holds.post (h : Holds g Q I p ts) {t : τ} (hended : ∀ q ∈ p.programs, Ended q)
    (ht : t ∈ ts) : ∃ r, Q r t := by
  obtain ⟨i, hi⟩ := List.mem_iff_getElem?.mp ht
  obtain ⟨q, hq, hwp⟩ := forall₂_getElem? h.programs.flip hi
  have hlast := hended q (List.mem_of_getElem? hq)
  cases q with
  | ret a => exact ⟨_, hwp⟩
  | raise e => exact ⟨_, hwp⟩
  | call c next => exact hlast.elim

end

end WorkTicket.Interleaving
