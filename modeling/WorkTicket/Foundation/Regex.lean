import Mathlib.Data.List.Infix

/-! Regular expressions with word boundaries, searched for anywhere in a text: the relation that
matching is, an executable search, and what a search finds in texts that are cut or rewritten. -/

namespace WorkTicket.Regex

variable {α β : Type*}

inductive Pattern (α : Type*)
  | empty
  | char (p : α → Bool)
  | boundary
  | seq (r r' : Pattern α)
  | alt (r r' : Pattern α)
  | star (r : Pattern α)

namespace Pattern

def plus (r : Pattern α) : Pattern α := r.seq r.star

def opt (r : Pattern α) : Pattern α := r.alt .empty

def all (rs : List (Pattern α)) : Pattern α := rs.foldr .seq .empty

/-- One of the first expression and the others. -/
def oneOf (r : Pattern α) (rs : List (Pattern α)) : Pattern α := rs.foldl .alt r

def literal [DecidableEq α] (w : List α) : Pattern α := all (w.map fun c => .char (· == c))

end Pattern

/-! ## Matching -/

section
variable (word : α → Bool)

/-- `r` matches from the place before `s` to the place before `s'`; the flags say whether a word
symbol stands in front of the place. -/
inductive Matches : Pattern α → Bool → List α → Bool → List α → Prop
  | empty {b s} : Matches .empty b s b s
  | char {p b c s} (h : p c = true) : Matches (.char p) b (c :: s) (word c) s
  | boundary {b s} (h : b ≠ s.head?.any word) : Matches .boundary b s b s
  | seq {r r' b b' b'' s s' s''} (h : Matches r b s b' s') (h' : Matches r' b' s' b'' s'') :
      Matches (.seq r r') b s b'' s''
  | left {r r' b b' s s'} (h : Matches r b s b' s') : Matches (.alt r r') b s b' s'
  | right {r r' b b' s s'} (h : Matches r' b s b' s') : Matches (.alt r r') b s b' s'
  | done {r b s} : Matches (.star r) b s b s
  | more {r b b' b'' s s' s''} (h : Matches r b s b' s') (h' : Matches (.star r) b' s' b'' s'') :
      Matches (.star r) b s b'' s''

/-- The expression matches from some place of the text on. -/
inductive Found (r : Pattern α) : Bool → List α → Prop
  | here {b b' s s'} (h : Matches word r b s b' s') : Found r b s
  | later {b c s} (h : Found r (word c) s) : Found r b (c :: s)

/-- The places that `star` reaches in at most `fuel` turns that consume something. -/
def closure (next : Bool × List α → List (Bool × List α)) :
    ℕ → Bool × List α → List (Bool × List α)
  | 0, place => [place]
  | fuel + 1, place =>
    place :: ((next place).filter (·.2.length < place.2.length)).flatMap (closure next fuel)

/-- The places at which a match can end. -/
def ends : Pattern α → Bool → List α → List (Bool × List α)
  | .empty, b, s => [(b, s)]
  | .char _, _, [] => []
  | .char p, _, c :: s => if p c then [(word c, s)] else []
  | .boundary, b, s => if b ≠ s.head?.any word then [(b, s)] else []
  | .seq r r', b, s => (ends r b s).flatMap fun place => ends r' place.1 place.2
  | .alt r r', b, s => ends r b s ++ ends r' b s
  | .star r, b, s => closure (fun place => ends r place.1 place.2) s.length (b, s)

def search (r : Pattern α) : Bool → List α → Bool
  | b, [] => !(ends word r b []).isEmpty
  | b, c :: s => !(ends word r b (c :: s)).isEmpty || search r (word c) s

end

/-! ## The executable search -/

section
variable {word : α → Bool} {r r' : Pattern α} {b b' b'' : Bool} {s s' s'' : List α}

theorem suffix_trans (h : s' <:+ s ∧ (s' = s → b' = b)) (h' : s'' <:+ s' ∧ (s'' = s' → b'' = b')) :
    s'' <:+ s ∧ (s'' = s → b'' = b) := by
  refine ⟨h'.1.trans h.1, fun heq => ?_⟩
  subst heq
  have hsame := h.1.eq_of_length_le h'.1.length_le
  exact (h'.2 hsame.symm).trans (h.2 hsame)

/-- A match moves forward, or stays where it is. -/
theorem Matches.suffix (h : Matches word r b s b' s') : s' <:+ s ∧ (s' = s → b' = b) := by
  induction h with
  | empty => exact ⟨List.suffix_refl _, fun _ => rfl⟩
  | char h => exact ⟨List.suffix_cons _ _, fun heq => absurd heq (List.ne_cons_self)⟩
  | boundary h => exact ⟨List.suffix_refl _, fun _ => rfl⟩
  | seq h h' ih ih' => exact suffix_trans ih ih'
  | left h ih => exact ih
  | right h ih => exact ih
  | done => exact ⟨List.suffix_refl _, fun _ => rfl⟩
  | more h h' ih ih' => exact suffix_trans ih ih'

theorem matches_of_mem_closure {next : Bool × List α → List (Bool × List α)}
    (hnext : ∀ place place', place' ∈ next place →
      Matches word r place.1 place.2 place'.1 place'.2) {fuel : ℕ} {place place' : Bool × List α}
    (h : place' ∈ closure next fuel place) :
    Matches word (.star r) place.1 place.2 place'.1 place'.2 := by
  induction fuel generalizing place with
  | zero =>
    obtain rfl := List.mem_singleton.mp h
    exact .done
  | succ fuel ih =>
    rcases List.mem_cons.mp h with rfl | h
    · exact .done
    · obtain ⟨middle, hmiddle, h⟩ := List.mem_flatMap.mp h
      exact .more (hnext _ _ (List.mem_of_mem_filter hmiddle)) (ih h)

theorem matches_of_mem_ends (h : (b', s') ∈ ends word r b s) : Matches word r b s b' s' := by
  induction r generalizing b s b' s' with
  | empty =>
    obtain ⟨rfl, rfl⟩ := Prod.mk.inj (List.mem_singleton.mp h)
    exact .empty
  | char p =>
    cases s with
    | nil => cases h
    | cons c s =>
      simp only [ends] at h
      split at h
      · rename_i hp
        obtain ⟨rfl, rfl⟩ := Prod.mk.inj (List.mem_singleton.mp h)
        exact .char hp
      · cases h
  | boundary =>
    simp only [ends] at h
    split at h
    · rename_i hb
      obtain ⟨rfl, rfl⟩ := Prod.mk.inj (List.mem_singleton.mp h)
      exact .boundary hb
    · cases h
  | seq r r' ih ih' =>
    obtain ⟨⟨b₁, s₁⟩, hfirst, hsecond⟩ := List.mem_flatMap.mp h
    exact .seq (ih hfirst) (ih' hsecond)
  | alt r r' ih ih' =>
    rcases List.mem_append.mp h with h | h
    · exact .left (ih h)
    · exact .right (ih' h)
  | star r ih => exact matches_of_mem_closure (fun place place' hplace => ih hplace) h

theorem mem_closure_of_matches {next : Bool × List α → List (Bool × List α)}
    (hnext : ∀ place place' : Bool × List α, Matches word r place.1 place.2 place'.1 place'.2 →
      place' ∈ next place) (h : Matches word (.star r) b s b' s') {fuel : ℕ}
    (hfuel : s.length ≤ fuel) : (b', s') ∈ closure next fuel (b, s) := by
  generalize hstar : Pattern.star r = star at h
  induction h generalizing fuel with
  | done =>
    cases fuel with
    | zero => exact List.mem_singleton_self _
    | succ fuel => exact List.mem_cons_self
  | more h h' ih ih' =>
    cases hstar
    rename_i b b₁ b₂ s s₁ s₂
    obtain ⟨hsuffix, hstay⟩ := h.suffix
    rcases hsuffix.length_le.lt_or_eq with hlt | heq
    · cases fuel with
      | zero => omega
      | succ fuel =>
        have hrest : (b₂, s₂) ∈ closure next fuel (b₁, s₁) := ih' (by omega) rfl
        apply List.mem_cons_of_mem
        apply List.mem_flatMap.mpr
        refine ⟨(b₁, s₁), ?_, hrest⟩
        rw [List.mem_filter]
        exact ⟨hnext (b, s) (b₁, s₁) h, by simpa using hlt⟩
    · -- a turn that consumes nothing is left out
      have hsame := hsuffix.eq_of_length heq
      have hflag := hstay hsame
      subst hsame hflag
      exact ih' hfuel rfl
  | empty | char | boundary | seq | left | right => cases hstar

theorem mem_ends_of_matches (h : Matches word r b s b' s') : (b', s') ∈ ends word r b s := by
  induction r generalizing b s b' s' with
  | empty =>
    cases h
    exact List.mem_singleton_self _
  | char p =>
    cases h with
    | char hp => simp [ends, hp]
  | boundary =>
    cases h with
    | boundary hb =>
      rw [ends, if_pos hb]
      exact List.mem_singleton_self _
  | seq r r' ih ih' =>
    cases h with
    | seq h h' => exact List.mem_flatMap.mpr ⟨_, ih h, ih' h'⟩
  | alt r r' ih ih' =>
    cases h with
    | left h => exact List.mem_append.mpr (.inl (ih h))
    | right h => exact List.mem_append.mpr (.inr (ih' h))
  | star r ih => exact mem_closure_of_matches (fun _ _ hplace => ih hplace) h le_rfl

theorem ends_isEmpty : (ends word r b s).isEmpty = false ↔ ∃ b' s', Matches word r b s b' s' := by
  rw [List.isEmpty_eq_false_iff_exists_mem]
  constructor
  · rintro ⟨⟨b', s'⟩, h⟩
    exact ⟨b', s', matches_of_mem_ends h⟩
  · rintro ⟨b', s', h⟩
    exact ⟨(b', s'), mem_ends_of_matches h⟩

/-- The search finds a match exactly if there is one. -/
theorem search_iff : search word r b s = true ↔ Found word r b s := by
  induction s generalizing b with
  | nil =>
    rw [search, Bool.not_eq_true', ends_isEmpty]
    constructor
    · rintro ⟨b', s', h⟩
      exact .here h
    · intro h
      cases h with
      | here h => exact ⟨_, _, h⟩
  | cons c s ih =>
    rw [search, Bool.or_eq_true, Bool.not_eq_true', ends_isEmpty, ih]
    constructor
    · rintro (⟨b', s', h⟩ | h)
      · exact .here h
      · exact .later h
    · intro h
      cases h with
      | here h => exact .inl ⟨_, _, h⟩
      | later h => exact .inr h

end

/-! ## Cutting a text -/

namespace Pattern

def anchored : Pattern α → Bool
  | .empty | .char _ => false
  | .boundary => true
  | .seq r r' | .alt r r' => r.anchored || r'.anchored
  | .star r => r.anchored

/-- No match consumes `d`. -/
def rejects (d : α) : Pattern α → Bool
  | .empty | .boundary => true
  | .char p => !p d
  | .seq r r' | .alt r r' => r.rejects d && r'.rejects d
  | .star r => r.rejects d

/-- The expression treats the two symbols alike. -/
def alike (x y : α) : Pattern α → Bool
  | .empty | .boundary => true
  | .char p => p x == p y
  | .seq r r' | .alt r r' => r.alike x y && r'.alike x y
  | .star r => r.alike x y

end Pattern

section
variable {word : α → Bool} {r : Pattern α} {b b' : Bool} {s s' : List α}

/-- What follows a text changes a match in it only at a boundary. -/
theorem Matches.append (h : Matches word r b s b' s') {tail : List α}
    (htail : r.anchored = false ∨ tail.head?.any word = false) :
    Matches word r b (s ++ tail) b' (s' ++ tail) := by
  induction h with
  | empty => exact .empty
  | char h => exact .char h
  | boundary h =>
    rename_i s
    apply Matches.boundary
    have hplain := htail.resolve_left nofun
    cases s with
    | nil => simpa [hplain] using h
    | cons c s => exact h
  | seq h h' ih ih' =>
    simp only [Pattern.anchored, Bool.or_eq_false_iff] at htail
    exact .seq (ih (htail.imp_left And.left)) (ih' (htail.imp_left And.right))
  | left h ih =>
    simp only [Pattern.anchored, Bool.or_eq_false_iff] at htail
    exact .left (ih (htail.imp_left And.left))
  | right h ih =>
    simp only [Pattern.anchored, Bool.or_eq_false_iff] at htail
    exact .right (ih (htail.imp_left And.right))
  | done => exact .done
  | more h h' ih ih' => exact .more (ih htail) (ih' htail)

theorem Found.append (h : Found word r b s) {tail : List α}
    (htail : r.anchored = false ∨ tail.head?.any word = false) : Found word r b (s ++ tail) := by
  induction h with
  | here h => exact .here (h.append htail)
  | later h ih => exact .later ih

/-- Only the symbols of the text decide what matches in it. -/
theorem Matches.congr {word' : α → Bool} (h : Matches word r b s b' s')
    (hword : ∀ c ∈ s, word c = word' c) : Matches word' r b s b' s' := by
  induction h with
  | empty => exact .empty
  | char h =>
    rw [hword _ List.mem_cons_self]
    exact .char h
  | boundary h =>
    apply Matches.boundary
    rename_i b s
    cases s with
    | nil => exact h
    | cons c s =>
      have hc := hword c List.mem_cons_self
      simpa [hc] using h
  | seq h h' ih ih' => exact .seq (ih hword) (ih' fun c hc => hword c (h.suffix.1.subset hc))
  | left h ih => exact .left (ih hword)
  | right h ih => exact .right (ih hword)
  | done => exact .done
  | more h h' ih ih' => exact .more (ih hword) (ih' fun c hc => hword c (h.suffix.1.subset hc))

theorem Found.congr {word' : α → Bool} (h : Found word r b s)
    (hword : ∀ c ∈ s, word c = word' c) : Found word' r b s := by
  induction h with
  | here h => exact .here (h.congr hword)
  | later h ih =>
    apply Found.later
    rw [← hword _ List.mem_cons_self]
    exact ih fun c hc => hword c (List.mem_cons_of_mem _ hc)

/-- A match does not get past a symbol that the expression rejects. -/
theorem Matches.cut (h : Matches word r b s b' s') {d : α} (hreject : r.rejects d = true)
    (hd : word d = false) {x rest : List α} (hs : s = x ++ d :: rest) :
    ∃ x', s' = x' ++ d :: rest ∧ Matches word r b x b' x' := by
  induction h generalizing x with
  | empty => exact ⟨x, hs, .empty⟩
  | char h =>
    rename_i p b c s
    cases x with
    | nil =>
      obtain ⟨rfl, -⟩ := List.cons.inj hs
      simp [Pattern.rejects, h] at hreject
    | cons c' x =>
      obtain ⟨rfl, rfl⟩ := List.cons.inj hs
      exact ⟨x, rfl, .char h⟩
  | boundary h =>
    refine ⟨x, hs, .boundary ?_⟩
    subst hs
    cases x with
    | nil => simpa [hd] using h
    | cons c x => exact h
  | seq h h' ih ih' =>
    simp only [Pattern.rejects, Bool.and_eq_true] at hreject
    obtain ⟨x₁, hs₁, hfirst⟩ := ih hreject.1 hs
    obtain ⟨x₂, hs₂, hsecond⟩ := ih' hreject.2 hs₁
    exact ⟨x₂, hs₂, .seq hfirst hsecond⟩
  | left h ih =>
    simp only [Pattern.rejects, Bool.and_eq_true] at hreject
    obtain ⟨x', hs', hx⟩ := ih hreject.1 hs
    exact ⟨x', hs', .left hx⟩
  | right h ih =>
    simp only [Pattern.rejects, Bool.and_eq_true] at hreject
    obtain ⟨x', hs', hx⟩ := ih hreject.2 hs
    exact ⟨x', hs', .right hx⟩
  | done => exact ⟨x, hs, .done⟩
  | more h h' ih ih' =>
    obtain ⟨x₁, hs₁, hfirst⟩ := ih hreject hs
    obtain ⟨x₂, hs₂, hrest⟩ := ih' hreject hs₁
    exact ⟨x₂, hs₂, .more hfirst hrest⟩

/-- A symbol that the expression rejects and that is no part of a word separates a text. -/
theorem found_append_cons {d : α} (hreject : r.rejects d = true) (hd : word d = false)
    {x rest : List α} :
    Found word r b (x ++ d :: rest) ↔ Found word r b x ∨ Found word r false rest := by
  have htail : r.anchored = false ∨ (d :: rest).head?.any word = false := .inr (by simpa using hd)
  constructor
  · intro h
    induction x generalizing b with
    | nil =>
      cases h with
      | here h =>
        obtain ⟨x', -, hmatch⟩ := h.cut hreject hd rfl
        exact .inl (.here hmatch)
      | later h => exact .inr (hd ▸ h)
    | cons c x ih =>
      cases h with
      | here h =>
        obtain ⟨x', -, hmatch⟩ := h.cut hreject hd rfl
        exact .inl (.here hmatch)
      | later h => exact (ih h).imp_left .later
  · rintro (h | h)
    · exact h.append htail
    · induction x generalizing b with
      | nil => exact .later (hd.symm ▸ h)
      | cons c x ih => exact .later ih

/-! ## Rewriting a text -/

/-- Where one rewriting leaves a separator, the other may put a text without a match between two
separators. -/
theorem found_flatMap {Separates : α → Prop}
    (hseparates : ∀ d, Separates d → r.rejects d = true ∧ word d = false) {f g : β → List α}
    (hfg : ∀ c, f c = g c ∨ ∃ d e e' body, Separates d ∧ Separates e ∧ Separates e' ∧
      ¬Found word r false body ∧ f c = [d] ∧ g c = e :: (body ++ [e']))
    (u : List β) (x : List α) :
    Found word r b (x ++ u.flatMap g) ↔ Found word r b (x ++ u.flatMap f) := by
  induction u generalizing b x with
  | nil => rfl
  | cons c u ih =>
    rw [List.flatMap_cons, List.flatMap_cons]
    rcases hfg c with hsame | ⟨d, e, e', body, hd, he, he', hbody, hf, hg⟩
    · rw [hsame, ← List.append_assoc, ← List.append_assoc]
      exact ih (x ++ g c)
    · have hrest := ih (b := false) []
      simp only [List.nil_append] at hrest
      have hgx : x ++ (g c ++ u.flatMap g) = x ++ e :: (body ++ e' :: u.flatMap g) := by simp [hg]
      have hfx : x ++ (f c ++ u.flatMap f) = x ++ d :: u.flatMap f := by simp [hf]
      rw [hgx, hfx, found_append_cons (hseparates e he).1 (hseparates e he).2,
        found_append_cons (hseparates e' he').1 (hseparates e' he').2,
        found_append_cons (hseparates d hd).1 (hseparates d hd).2, hrest]
      simp only [hbody, false_or]

section
variable [DecidableEq α] {x y : α}

/-- One symbol in place of another. -/
def rename (x y c : α) : α := if c = x then y else c

theorem word_rename (hword : word x = word y) (c : α) : word (rename x y c) = word c := by
  unfold rename
  split
  · rename_i hc
    rw [hc, hword]
  · rfl

theorem Matches.of_rename (hword : word x = word y) (halike : r.alike x y = true) {t t' : List α}
    (h : Matches word r b t b' t') {s : List α} (ht : t = s.map (rename x y)) :
    ∃ s', t' = s'.map (rename x y) ∧ Matches word r b s b' s' := by
  induction h generalizing s with
  | empty => exact ⟨s, ht, .empty⟩
  | char h =>
    rename_i p b c t
    obtain ⟨c', s, rfl, rfl, rfl⟩ := List.map_eq_cons_iff.mp ht.symm
    refine ⟨s, rfl, ?_⟩
    rw [word_rename hword]
    apply Matches.char
    unfold rename at h
    split at h
    · rename_i hc
      rw [hc]
      exact (beq_iff_eq.mp halike).trans h
    · exact h
  | boundary h =>
    refine ⟨s, ht, .boundary ?_⟩
    subst ht
    cases s with
    | nil => exact h
    | cons c s => simpa [word_rename hword] using h
  | seq h h' ih ih' =>
    simp only [Pattern.alike, Bool.and_eq_true] at halike
    obtain ⟨s₁, hs₁, hfirst⟩ := ih halike.1 ht
    obtain ⟨s₂, hs₂, hsecond⟩ := ih' halike.2 hs₁
    exact ⟨s₂, hs₂, .seq hfirst hsecond⟩
  | left h ih =>
    simp only [Pattern.alike, Bool.and_eq_true] at halike
    obtain ⟨s', hs', hx⟩ := ih halike.1 ht
    exact ⟨s', hs', .left hx⟩
  | right h ih =>
    simp only [Pattern.alike, Bool.and_eq_true] at halike
    obtain ⟨s', hs', hx⟩ := ih halike.2 ht
    exact ⟨s', hs', .right hx⟩
  | done => exact ⟨s, ht, .done⟩
  | more h h' ih ih' =>
    obtain ⟨s₁, hs₁, hfirst⟩ := ih halike ht
    obtain ⟨s₂, hs₂, hrest⟩ := ih' halike hs₁
    exact ⟨s₂, hs₂, .more hfirst hrest⟩

theorem Matches.rename (hword : word x = word y) (halike : r.alike x y = true)
    (h : Matches word r b s b' s') :
    Matches word r b (s.map (rename x y)) b' (s'.map (rename x y)) := by
  induction h with
  | empty => exact .empty
  | char h =>
    rename_i p b c s
    rw [List.map_cons, ← word_rename hword]
    apply Matches.char
    unfold Regex.rename
    split
    · rename_i hc
      rw [← beq_iff_eq.mp halike, ← hc]
      exact h
    · exact h
  | boundary h =>
    rename_i b s
    apply Matches.boundary
    cases s with
    | nil => exact h
    | cons c s => simpa [word_rename hword] using h
  | seq h h' ih ih' =>
    simp only [Pattern.alike, Bool.and_eq_true] at halike
    exact .seq (ih halike.1) (ih' halike.2)
  | left h ih =>
    simp only [Pattern.alike, Bool.and_eq_true] at halike
    exact .left (ih halike.1)
  | right h ih =>
    simp only [Pattern.alike, Bool.and_eq_true] at halike
    exact .right (ih halike.2)
  | done => exact .done
  | more h h' ih ih' => exact .more (ih halike) (ih' halike)

/-- What an expression finds does not change with a symbol that it treats like another. -/
theorem found_rename (hword : word x = word y) (halike : r.alike x y = true) :
    Found word r b (s.map (rename x y)) ↔ Found word r b s := by
  constructor
  · intro h
    generalize ht : s.map (Regex.rename x y) = t at h
    induction h generalizing s with
    | here h =>
      obtain ⟨s', -, hs⟩ := h.of_rename hword halike ht.symm
      exact .here hs
    | later h ih =>
      obtain ⟨c', s', rfl, rfl, hs'⟩ := List.map_eq_cons_iff.mp ht
      rw [word_rename hword] at ih
      exact .later (ih hs')
  · intro h
    induction h with
    | here h => exact .here (h.rename hword halike)
    | later h ih =>
      rw [List.map_cons]
      apply Found.later
      rw [word_rename hword]
      exact ih

end

/-! ## Literals -/

section
variable [DecidableEq α] {w : List α}

theorem Matches.literal (h : Matches word (.literal w) b s b' s') : s = w ++ s' := by
  induction w generalizing b s with
  | nil =>
    cases h
    rfl
  | cons c w ih =>
    cases h with
    | seq h h' =>
      cases h with
      | char hc => rw [ih h', List.cons_append, beq_iff_eq.mp hc]

theorem exists_matches_literal (word : α → Bool) (w : List α) (b : Bool) (s : List α) :
    ∃ b', Matches word (.literal w) b (w ++ s) b' s := by
  induction w generalizing b with
  | nil => exact ⟨b, .empty⟩
  | cons c w ih =>
    obtain ⟨b', h⟩ := ih (word c)
    exact ⟨b', .seq (.char (beq_self_eq_true c)) h⟩

theorem found_literal : Found word (.literal w) b s ↔ w <:+: s := by
  constructor
  · intro h
    induction h with
    | here h => exact ⟨[], _, by rw [h.literal, List.nil_append]⟩
    | later h ih => exact ih.trans (List.suffix_cons _ _).isInfix
  · rintro ⟨x, rest, rfl⟩
    induction x generalizing b with
    | nil =>
      obtain ⟨b', h⟩ := exists_matches_literal word w b rest
      exact .here h
    | cons c x ih => exact .later ih

end

end
end WorkTicket.Regex
