import Mathlib.Data.List.Basic
import Mathlib.Data.List.DropRight
import Mathlib.Data.List.TakeWhile

/-! A text cut at the places of a separator, and a text cut at its line breaks. -/

namespace WorkTicket.TextSplits

variable {α : Type*}

section
variable [DecidableEq α] (separator : List α)

/-- The parts from here on: `skip` symbols of a separator are still to come, and `part` was read of
the part that is next. -/
def splitFrom : ℕ → List α → List α → List (List α)
  | _, part, [] => [part]
  | skip + 1, part, _ :: text => splitFrom skip part text
  | 0, part, c :: text =>
    if separator <+: c :: text then part :: splitFrom (separator.length - 1) [] text
    else splitFrom 0 (part ++ [c]) text

/-- `text.split(separator)`. -/
def splitOn (text : List α) : List (List α) := splitFrom separator 0 [] text

end

/-- `text.rsplit(separator, 1)` of one symbol, if it is there. -/
def splitLast [DecidableEq α] (separator : α) : List α → Option (List α × List α)
  | [] => none
  | c :: text =>
    match splitLast separator text with
    | some (first, last) => some (c :: first, last)
    | none => if c = separator then some ([], text) else none

/-- `text.split(separator, 1)`, if the separator is there. -/
def splitOnce [DecidableEq α] (separator : List α) : List α → Option (List α × List α)
  | [] => none
  | c :: text =>
    if separator <+: c :: text then some ([], (c :: text).drop separator.length)
    else (splitOnce separator text).map fun parts => (c :: parts.1, parts.2)

/-- The symbols that end a line; a newline after a carriage return ends none. -/
structure LineBreaks (α : Type*) where
  isBreak : α → Bool
  carriage : α
  newline : α
  isBreak_carriage : isBreak carriage = true

section
variable [DecidableEq α] (b : LineBreaks α)

def splitLinesFrom : Bool → List α → List α → List (List α)
  | _, line, [] => if line = [] then [] else [line]
  | afterCarriage, line, c :: text =>
    if afterCarriage && c = b.newline then splitLinesFrom false line text
    else if b.isBreak c then line :: splitLinesFrom (c = b.carriage) [] text
    else splitLinesFrom false (line ++ [c]) text

/-- `text.splitlines()`. -/
def splitLines (text : List α) : List (List α) := splitLinesFrom b false [] text

end

attribute [grind =] splitFrom splitOn splitLast splitOnce splitLinesFrom splitLines

section
variable [DecidableEq α] {separator part line text : List α} {b : LineBreaks α}

theorem splitFrom_length (skipped : List α) :
    splitFrom separator skipped.length part (skipped ++ text) =
      splitFrom separator 0 part text := by
  induction skipped with
  | nil => rfl
  | cons c skipped ih => exact ih

theorem splitFrom_separator (hne : separator ≠ []) :
    splitFrom separator 0 part (separator ++ text) = part :: splitFrom separator 0 [] text := by
  cases separator with
  | nil => exact absurd rfl hne
  | cons c rest =>
    have hprefix : c :: rest <+: c :: (rest ++ text) := List.prefix_append (c :: rest) text
    rw [List.cons_append, splitFrom, if_pos hprefix]
    exact congrArg _ (splitFrom_length rest)

theorem splitFrom_cons {c : α} (hc : ¬separator <+: c :: text) :
    splitFrom separator 0 part (c :: text) = splitFrom separator 0 (part ++ [c]) text := by
  rw [splitFrom, if_neg hc]

theorem splitFrom_ne_nil (skip : ℕ) (part text : List α) :
    splitFrom separator skip part text ≠ [] := by
  induction text generalizing skip part with
  | nil => cases skip <;> exact List.cons_ne_nil _ _
  | cons c text ih =>
    cases skip with
    | zero =>
      rw [splitFrom]
      split
      · exact List.cons_ne_nil _ _
      · exact ih 0 _
    | succ skip => exact ih skip part

/-- The first line is what stands before the first break. -/
theorem exists_splitLinesFrom (hne : line ++ text ≠ []) :
    ∃ lines, splitLinesFrom b false line text =
      (line ++ text.takeWhile fun c => !b.isBreak c) :: lines := by
  induction text generalizing line with
  | nil =>
    rw [List.append_nil] at hne
    exact ⟨[], by rw [splitLinesFrom, if_neg hne, List.takeWhile_nil, List.append_nil]⟩
  | cons c text ih =>
    rw [splitLinesFrom, if_neg (by simp)]
    by_cases hc : b.isBreak c = true
    · exact ⟨_, by rw [if_pos hc, List.takeWhile_cons_of_neg (by simp [hc]), List.append_nil]⟩
    · have hlonger : line ++ [c] ++ text ≠ [] := by simp
      obtain ⟨lines, hlines⟩ := ih hlonger
      refine ⟨lines, ?_⟩
      rw [if_neg hc, hlines, List.takeWhile_cons_of_pos (by simp [hc]), List.append_assoc,
        List.singleton_append]

theorem exists_splitLines (hne : text ≠ []) :
    ∃ lines, splitLines b text = (text.takeWhile fun c => !b.isBreak c) :: lines :=
  exists_splitLinesFrom hne

theorem splitLinesFrom_line {whole : List α} (hwhole : ∀ c ∈ whole, b.isBreak c = false) :
    splitLinesFrom b false line (whole ++ b.carriage :: b.newline :: text) =
      (line ++ whole) :: splitLines b text := by
  induction whole generalizing line with
  | nil => simp [splitLinesFrom, b.isBreak_carriage, splitLines]
  | cons c whole ih =>
    have hc := hwhole c List.mem_cons_self
    rw [List.cons_append, splitLinesFrom, if_neg (by simp), if_neg (by simp [hc]),
      ih fun c' hc' => hwhole c' (List.mem_cons_of_mem _ hc'), List.append_assoc,
      List.singleton_append]

theorem splitLines_line (hline : ∀ c ∈ line, b.isBreak c = false) :
    splitLines b (line ++ b.carriage :: b.newline :: text) = line :: splitLines b text :=
  splitLinesFrom_line hline

end

section
variable [DecidableEq α] {separator : α} {text : List α}

theorem splitLast_eq_none (h : separator ∉ text) : splitLast separator text = none := by
  induction text with
  | nil => rfl
  | cons c text ih =>
    rw [List.mem_cons, not_or] at h
    rw [splitLast, ih h.2]
    exact if_neg fun hc => h.1 hc.symm

theorem splitLast_append (first : List α) (h : separator ∉ text) :
    splitLast separator (first ++ separator :: text) = some (first, text) := by
  induction first with
  | nil => rw [List.nil_append, splitLast, splitLast_eq_none h, if_pos rfl]
  | cons c first ih => rw [List.cons_append, splitLast, ih]

theorem splitOnce_cons {c : α} (hc : separator ≠ c) : splitOnce [separator] (c :: text) =
    (splitOnce [separator] text).map fun parts => (c :: parts.1, parts.2) :=
  if_neg fun h => hc (List.singleton_prefix_cons_iff.mp h)

theorem splitOnce_append {first : List α} (h : separator ∉ first) (rest : List α) :
    splitOnce [separator] (first ++ separator :: rest) = some (first, rest) := by
  induction first with
  | nil => exact if_pos (List.prefix_append [separator] rest)
  | cons c first ih =>
    rw [List.mem_cons, not_or] at h
    rw [List.cons_append, splitOnce_cons h.1, ih h.2, Option.map_some]

theorem splitOnce_eq_none (h : separator ∉ text) : splitOnce [separator] text = none := by
  induction text with
  | nil => rfl
  | cons c text ih =>
    rw [List.mem_cons, not_or] at h
    rw [splitOnce_cons h.1, ih h.2, Option.map_none]

theorem not_mem_of_splitOnce {parts : List α × List α}
    (h : splitOnce [separator] text = some parts) : separator ∉ parts.1 := by
  induction text generalizing parts with
  | nil => cases h
  | cons c text ih =>
    by_cases hc : separator = c
    · subst hc
      obtain rfl := Option.some.inj ((if_pos (List.prefix_append [separator] text)).symm.trans h)
      exact List.not_mem_nil
    · rw [splitOnce_cons hc] at h
      obtain ⟨rest, hrest, rfl⟩ := Option.map_eq_some_iff.mp h
      rw [List.mem_cons, not_or]
      exact ⟨hc, ih hrest⟩

end

/-! ## The last place of a separator, and the first of a symbol -/

section
variable [DecidableEq α] (separator : List α)

/-- What stands before the last place of the separator, if it has one. -/
def beforeLast : List α → Option (List α)
  | [] => if separator = [] then some [] else none
  | c :: text =>
    match beforeLast text with
    | some first => some (c :: first)
    | none => if separator <+: c :: text then some [] else none

/-- `text.rsplit(separator, 1)[0]`. -/
def cutLast (text : List α) : List α := (beforeLast separator text).getD text

/-- `text.split(c, 1)[-1]` of a symbol. -/
def afterFirst (c : α) (text : List α) : List α :=
  match text.dropWhile (· ≠ c) with
  | [] => text
  | _ :: rest => rest

end

section
variable [DecidableEq α] {separator text tail : List α}

theorem beforeLast_eq_none (h : ¬separator <:+: text) : beforeLast separator text = none := by
  induction text with
  | nil =>
    refine if_neg fun hempty => h ?_
    exact hempty ▸ List.infix_rfl
  | cons c text ih =>
    rw [beforeLast, ih fun htext => h (htext.trans (List.suffix_cons c text).isInfix)]
    exact if_neg fun hstart => h hstart.isInfix

/-- A separator that does not come again, not even overlapping with itself, is the last one. -/
theorem beforeLast_append (body : List α) {c : α}
    (hlast : ¬(c :: separator) <:+: separator ++ tail) :
    beforeLast (c :: separator) (body ++ (c :: separator ++ tail)) = some body := by
  induction body with
  | nil =>
    rw [List.nil_append, List.cons_append, beforeLast, beforeLast_eq_none hlast]
    exact if_pos (List.prefix_append (c :: separator) tail)
  | cons d body ih => rw [List.cons_append, beforeLast, ih]

theorem cutLast_append (body : List α) {c : α}
    (hlast : ¬(c :: separator) <:+: separator ++ tail) :
    cutLast (c :: separator) (body ++ (c :: separator ++ tail)) = body := by
  rw [cutLast, beforeLast_append body hlast, Option.getD_some]

theorem afterFirst_append {c : α} {line : List α} (hline : c ∉ line) :
    afterFirst c (line ++ c :: text) = text := by
  have hdrop : (line ++ c :: text).dropWhile (· ≠ c) = c :: text := by
    rw [List.dropWhile_append_of_pos fun d hd => by simpa using ne_of_mem_of_not_mem hd hline]
    exact List.dropWhile_cons_of_neg (by simp)
  rw [afterFirst, hdrop]

theorem afterFirst_of_not_mem {c : α} (h : c ∉ text) : afterFirst c text = text := by
  have hdrop : text.dropWhile (· ≠ c) = [] := by
    apply List.dropWhile_eq_nil_iff.mpr
    intro d hd
    simpa using ne_of_mem_of_not_mem hd h
  rw [afterFirst, hdrop]

end

/-! ## Trimming -/

/-- The text without the symbols of a kind at its ends. -/
def trim (p : α → Bool) (text : List α) : List α := (text.dropWhile p).rdropWhile p

section
variable {p : α → Bool} {text tail : List α} {c : α}

theorem trim_trim (p : α → Bool) (text : List α) : trim p (trim p text) = trim p text := by
  have hstart : (trim p text).dropWhile p = trim p text := by
    rw [List.dropWhile_eq_self_iff]
    intro hpos
    obtain ⟨rest, hrest⟩ : trim p text <+: text.dropWhile p := List.rdropWhile_prefix p _
    have hfirst : 0 < (text.dropWhile p).length := by
      rw [← hrest, List.length_append]
      exact Nat.add_pos_left hpos _
    have hget : (trim p text)[0] = (text.dropWhile p)[0] := by
      rw [List.getElem_of_eq hrest.symm, List.getElem_append_left hpos]
    rw [hget]
    exact List.dropWhile_get_zero_not p text hfirst
  conv_lhs => rw [trim, hstart]
  exact List.rdropWhile_idempotent p _

theorem rdropWhile_append_of_not (first : List α) (hc : ¬p c) (tail : List α) :
    (first ++ c :: tail).rdropWhile p = first ++ c :: tail.rdropWhile p := by
  induction tail using List.reverseRecOn with
  | nil => exact List.rdropWhile_concat_neg _ _ _ hc
  | append_singleton tail d ih =>
    rw [← List.cons_append, ← List.append_assoc]
    by_cases hd : p d
    · rw [List.rdropWhile_concat_pos _ _ _ hd, ih, List.rdropWhile_concat_pos _ _ _ hd]
    · rw [List.rdropWhile_concat_neg _ _ _ hd, List.rdropWhile_concat_neg _ _ _ hd,
        List.append_assoc, List.cons_append]

theorem dropWhile_append_of_not (first : List α) (hc : ¬p c) (tail : List α) :
    (first ++ c :: tail).dropWhile p = first.dropWhile p ++ c :: tail := by
  induction first with
  | nil => exact List.dropWhile_cons_of_neg hc
  | cons d first ih =>
    by_cases hd : p d
    · rw [List.cons_append, List.dropWhile_cons_of_pos hd, ih, List.dropWhile_cons_of_pos hd]
    · rw [List.cons_append, List.dropWhile_cons_of_neg hd, List.dropWhile_cons_of_neg hd,
        List.cons_append]

theorem trim_append_of_not (first : List α) (hc : ¬p c) (tail : List α) :
    trim p (first ++ c :: tail) = first.dropWhile p ++ c :: tail.rdropWhile p := by
  rw [trim, dropWhile_append_of_not first hc, rdropWhile_append_of_not _ hc]

theorem trim_eq_self (h : ∀ c ∈ text, p c = false) : trim p text = text := by
  have hstart : text.dropWhile p = text := by
    rw [List.dropWhile_eq_self_iff]
    intro hpos
    simp [h _ (List.getElem_mem hpos)]
  rw [trim, hstart, List.rdropWhile_eq_self_iff]
  intro hne
  simp [h _ (List.getLast_mem hne)]

theorem trim_rdropWhile (p : α → Bool) (text : List α) :
    trim p (text.rdropWhile p) = trim p text := by
  by_cases hall : ∀ c ∈ text, p c
  · have hdrop : text.dropWhile p = [] := List.dropWhile_eq_nil_iff.mpr hall
    rw [List.rdropWhile_eq_nil_iff.mpr hall, trim, trim, hdrop, List.dropWhile_nil]
  · push Not at hall
    obtain ⟨c, hmem, hc⟩ := hall
    obtain ⟨first, tail, rfl⟩ := List.append_of_mem hmem
    rw [rdropWhile_append_of_not first hc, trim_append_of_not first hc, trim_append_of_not first hc,
      List.rdropWhile_idempotent]

end
end WorkTicket.TextSplits
