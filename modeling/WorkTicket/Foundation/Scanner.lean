import WorkTicket.Foundation.Fallible

/-! Scanners: programs that read a value off the front of a text. The rules say when a loop of
one needs no bound, and when what is read does not depend on a last character of the text. -/

namespace WorkTicket.Scanner

open WorkTicket.Fallible

/-- A text is refused, or something else goes wrong. -/
inductive Failure
  | refused
  | raised
  deriving DecidableEq, Repr

variable {τ σ α β : Type}

abbrev Scan (τ α : Type) := StateT (List τ) (Except Failure) α

def refuse : Scan τ α := fun _ => .error .refused

def raise : Scan τ α := fun _ => .error .raised

def satisfy (p : τ → Bool) : Scan τ τ
  | [] => .error .refused
  | c :: s => if p c then .ok (c, s) else .error .refused

/-- The first character that is not skipped. -/
def lexeme (skip : τ → Bool) : Scan τ τ := fun s =>
  match s.dropWhile skip with
  | [] => .error .refused
  | c :: rest => .ok (c, rest)

def span (p : τ → Bool) : Scan τ (List τ) := fun s => .ok (s.takeWhile p, s.dropWhile p)

/-- What `f` reads, or else the default and nothing. -/
def option (f : List τ → Option (α × List τ)) (default : α) : Scan τ α := fun s =>
  .ok ((f s).getD (default, s))

def loop (body : σ → Scan τ (σ ⊕ α)) : ℕ → σ → Scan τ α
  | 0, _ => refuse
  | n + 1, x => do
    match ← body x with
    | .inl y => loop body n y
    | .inr a => pure a

/-- `while True`; a body that consumes something runs at most once for each character, and once
at the end of the text. -/
def forever (body : σ → Scan τ (σ ⊕ α)) (x : σ) : Scan τ α := fun s => loop body (s.length + 1) x s

theorem scan_bind_eq_ok {f : Scan τ α} {g : α → Scan τ β} {s r : List τ} {b : β} :
    (f >>= g) s = .ok (b, r) ↔ ∃ a t, f s = .ok (a, t) ∧ g a t = .ok (b, r) := by
  constructor
  · intro h
    obtain ⟨⟨a, t⟩, hf, hg⟩ := bind_eq_ok.mp h
    exact ⟨a, t, hf, hg⟩
  · rintro ⟨a, t, hf, hg⟩
    exact bind_eq_ok.mpr ⟨(a, t), hf, hg⟩

theorem satisfy_eq_ok {p : τ → Bool} {s r : List τ} {c : τ} (h : satisfy p s = .ok (c, r)) :
    s = c :: r := by
  cases s with
  | nil => cases h
  | cons d s =>
    simp only [satisfy] at h
    split at h
    · cases h
      rfl
    · cases h

theorem lexeme_eq_ok {skip : τ → Bool} {s r : List τ} {c : τ} (h : lexeme skip s = .ok (c, r)) :
    s.takeWhile skip ++ c :: r = s := by
  unfold lexeme at h
  split at h
  · cases h
  · rename_i hdrop
    cases h
    rw [← hdrop, List.takeWhile_append_dropWhile]

/-! ## What a scanner leaves -/

def Consumes (f : Scan τ α) : Prop := ∀ s a r, f s = .ok (a, r) → r.length < s.length

/-- The scanner reads a part of the text, and the same part when `w` is behind the text. -/
structure Steady (w : τ) (f : Scan τ α) : Prop where
  shrinks : ∀ s a r, f s = .ok (a, r) → r.length ≤ s.length
  ignores : ∀ s a r, f (s ++ [w]) = .ok (a, r) → ∃ t, r = t ++ [w] ∧ f s = .ok (a, t)

variable {w : τ} {f : Scan τ α} {g : α → Scan τ β}

theorem Consumes.bind (hf : Consumes f) (hg : ∀ a, Steady w (g a)) : Consumes (f >>= g) := by
  intro s b r h
  obtain ⟨a, t, ht, hr⟩ := scan_bind_eq_ok.mp h
  have hfirst := hf s a t ht
  have hrest := (hg a).shrinks t b r hr
  omega

theorem Steady.bind_consumes (hf : Steady w f) (hg : ∀ a, Consumes (g a)) :
    Consumes (f >>= g) := by
  intro s b r h
  obtain ⟨a, t, ht, hr⟩ := scan_bind_eq_ok.mp h
  have hfirst := hf.shrinks s a t ht
  have hrest := hg a t b r hr
  omega

theorem consumes_refuse : Consumes (refuse : Scan τ α) := nofun

theorem consumes_satisfy (p : τ → Bool) : Consumes (satisfy p) := by
  intro s c r h
  rw [satisfy_eq_ok h]
  exact Nat.lt_succ_self _

theorem consumes_lexeme (skip : τ → Bool) : Consumes (lexeme skip) := by
  intro s c r h
  have hlength := congrArg List.length (lexeme_eq_ok h)
  rw [List.length_append, List.length_cons] at hlength
  omega

theorem takeWhile_snoc {p : τ → Bool} (hw : p w = false) (s : List τ) :
    (s ++ [w]).takeWhile p = s.takeWhile p := by
  induction s with
  | nil => simp [hw]
  | cons c s ih => simp only [List.cons_append, List.takeWhile_cons, ih]

theorem dropWhile_snoc {p : τ → Bool} (hw : p w = false) (s : List τ) :
    (s ++ [w]).dropWhile p = s.dropWhile p ++ [w] := by
  induction s with
  | nil => simp [hw]
  | cons c s ih =>
    simp only [List.cons_append, List.dropWhile_cons, ih]
    split <;> rfl

namespace Steady

theorem pure (a : α) : Steady w (pure a : Scan τ α) where
  shrinks := by
    intro s b r h
    cases h
    exact le_rfl
  ignores := by
    intro s b r h
    cases h
    exact ⟨s, rfl, rfl⟩

theorem refuse : Steady w (refuse : Scan τ α) := ⟨nofun, nofun⟩

theorem raise : Steady w (raise : Scan τ α) := ⟨nofun, nofun⟩

theorem bind (hf : Steady w f) (hg : ∀ a, Steady w (g a)) : Steady w (f >>= g) where
  shrinks := by
    intro s b r h
    obtain ⟨a, t, ht, hr⟩ := scan_bind_eq_ok.mp h
    exact ((hg a).shrinks t b r hr).trans (hf.shrinks s a t ht)
  ignores := by
    intro s b r h
    obtain ⟨a, t, ht, hr⟩ := scan_bind_eq_ok.mp h
    obtain ⟨t', rfl, ht'⟩ := hf.ignores s a t ht
    obtain ⟨r', rfl, hr'⟩ := (hg a).ignores t' b r hr
    exact ⟨r', rfl, scan_bind_eq_ok.mpr ⟨a, t', ht', hr'⟩⟩

theorem ite {c : Prop} [Decidable c] {f' : Scan τ α} (hf : Steady w f) (hf' : Steady w f') :
    Steady w (if c then f else f') := by
  split
  · exact hf
  · exact hf'

theorem satisfy {p : τ → Bool} (hw : p w = false) : Steady w (satisfy p) where
  shrinks := fun s a r h => (consumes_satisfy p s a r h).le
  ignores := by
    intro s a r h
    cases s with
    | nil => simp [Scanner.satisfy, hw] at h
    | cons c s =>
      simp only [Scanner.satisfy, List.cons_append] at h ⊢
      split at h
      · rename_i hc
        cases h
        exact ⟨s, rfl, if_pos hc⟩
      · cases h

theorem span {p : τ → Bool} (hw : p w = false) : Steady w (span p) where
  shrinks := by
    intro s a r h
    cases h
    exact (List.dropWhile_sublist p).length_le
  ignores := by
    intro s a r h
    cases h
    refine ⟨s.dropWhile p, dropWhile_snoc hw s, ?_⟩
    rw [takeWhile_snoc hw]
    rfl

theorem lexeme {skip : τ → Bool} (hw : skip w = true) : Steady w (lexeme skip) where
  shrinks := fun s a r h => (consumes_lexeme skip s a r h).le
  ignores := by
    intro s a r h
    simp only [Scanner.lexeme, List.dropWhile_append] at h ⊢
    cases hdrop : s.dropWhile skip with
    | nil => simp [hdrop, hw] at h
    | cons c rest =>
      simp only [hdrop, List.isEmpty_cons, Bool.false_eq_true, if_false, List.cons_append] at h
      cases h
      exact ⟨rest, rfl, rfl⟩

theorem option {f : List τ → Option (α × List τ)} {default : α}
    (hshrinks : ∀ s x, f s = some x → x.2.length ≤ s.length)
    (hsnoc : ∀ s, f (s ++ [w]) = (f s).map fun x => (x.1, x.2 ++ [w])) :
    Steady w (option f default) where
  shrinks := by
    intro s a r h
    unfold Scanner.option at h
    cases hx : f s with
    | none =>
      rw [hx] at h
      cases h
      exact le_rfl
    | some x =>
      rw [hx] at h
      cases h
      exact hshrinks s _ hx
  ignores := by
    intro s a r h
    simp only [Scanner.option, hsnoc] at h
    cases hx : f s with
    | none =>
      rw [hx] at h
      cases h
      exact ⟨s, rfl, by rw [Scanner.option, hx]; rfl⟩
    | some x =>
      rw [hx] at h
      cases h
      exact ⟨_, rfl, by rw [Scanner.option, hx]; rfl⟩

end Steady

/-! ## Loops -/

variable {body : σ → Scan τ (σ ⊕ α)}

/-- A body that consumes something needs no more fuel than there are characters. -/
theorem loop_fuel (hbody : ∀ x, Consumes (body x)) {n m : ℕ} {x : σ} {s : List τ}
    (hn : s.length < n) (hm : s.length < m) : loop body n x s = loop body m x s := by
  induction n generalizing m x s with
  | zero => exact absurd hn (Nat.not_lt_zero _)
  | succ n ih =>
    obtain ⟨m, rfl⟩ := Nat.exists_eq_succ_of_ne_zero (Nat.ne_of_gt (Nat.zero_lt_of_lt hm))
    change Except.bind (body x s) _ = Except.bind (body x s) _
    cases hx : body x s with
    | error e => rfl
    | ok p =>
      obtain ⟨y | a, r⟩ := p
      · have hlt := hbody x s _ r hx
        exact ih (by omega) (by omega)
      · rfl

theorem loop_steady (hbody : ∀ x, Steady w (body x)) (n : ℕ) (x : σ) :
    Steady w (loop body n x) := by
  induction n generalizing x with
  | zero => exact .refuse
  | succ n ih =>
    refine (hbody x).bind fun y => ?_
    cases y with
    | inl y => exact ih y
    | inr a => exact .pure a

theorem Steady.forever (hbody : ∀ x, Steady w (body x)) (hconsumes : ∀ x, Consumes (body x))
    (x : σ) : Steady w (forever body x) where
  shrinks := fun s a r h => (loop_steady hbody _ x).shrinks s a r h
  ignores := by
    intro s a r h
    obtain ⟨t, ht, hloop⟩ := (loop_steady hbody _ x).ignores s a r h
    refine ⟨t, ht, ?_⟩
    rw [← hloop]
    exact loop_fuel hconsumes (by omega) (by simp)

end WorkTicket.Scanner
