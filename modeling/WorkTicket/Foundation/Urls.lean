import Mathlib
import WorkTicket.Foundation.TextSplits

/-! How Python reads a URL, a URL put together from its parts, and a word of a text replaced where
it first stands. -/

namespace WorkTicket.Urls

open TextSplits

abbrev Text := List Char

/-! ## A word replaced once -/

section
variable {α : Type*} [DecidableEq α] (old new : List α)

/-- `text.replace(old, new, 1)`. -/
def replaceOnce : List α → List α
  | [] => if old = [] then new else []
  | c :: text =>
    if old <+: c :: text then new ++ (c :: text).drop old.length else c :: replaceOnce text

variable {old new} {seg rest : List α} {d : α}

theorem replaceOnce_of_not_infix {text : List α} (h : ¬old <:+: text) :
    replaceOnce old new text = text := by
  induction text with
  | nil =>
    refine if_neg fun hempty => h ?_
    exact hempty ▸ List.infix_rfl
  | cons c text ih =>
    rw [replaceOnce, if_neg fun hstart => h hstart.isInfix,
      ih fun htext => h (htext.trans (List.suffix_cons c text).isInfix)]

theorem replaceOnce_prefix (hold : old ≠ []) :
    replaceOnce old new (old ++ rest) = new ++ rest := by
  cases old with
  | nil => exact absurd rfl hold
  | cons c old =>
    have hstart : c :: old <+: c :: (old ++ rest) := List.prefix_append (c :: old) rest
    rw [List.cons_append, replaceOnce, if_pos hstart, ← List.cons_append, List.drop_left]

omit [DecidableEq α] in
/-- A word does not reach over a symbol that it does not have. -/
theorem prefix_append_cons_iff (seg : List α) (hd : d ∉ old) :
    old <+: seg ++ d :: rest ↔ old <+: seg := by
  constructor
  · intro hstart
    rcases List.prefix_or_prefix_of_prefix hstart (List.prefix_append seg (d :: rest)) with h | h
    · exact h
    · obtain ⟨tail, rfl⟩ := h
      cases tail with
      | nil => exact ⟨[], by simp⟩
      | cons c tail =>
        have hcd : c = d := (List.cons_prefix_cons.mp
          ((List.prefix_append_right_inj seg).mp hstart)).1
        exact absurd (hcd ▸ List.mem_append_right _ List.mem_cons_self) hd
  · exact fun h => h.trans (List.prefix_append _ _)

/-- The word is looked for in what stands before the symbol, and then in what stands after it. -/
theorem replaceOnce_append_cons (hold : old ≠ []) (hd : d ∉ old) :
    replaceOnce old new (seg ++ d :: rest) =
      if old <:+: seg then replaceOnce old new seg ++ d :: rest
      else seg ++ d :: replaceOnce old new rest := by
  induction seg with
  | nil =>
    have hstart : ¬old <+: d :: rest := by
      intro h
      exact hold (List.prefix_nil.mp ((prefix_append_cons_iff [] hd).mp h))
    rw [if_neg fun h => hold (List.infix_nil.mp h), List.nil_append, replaceOnce, if_neg hstart]
    rfl
  | cons c seg ih =>
    rw [List.cons_append, replaceOnce, replaceOnce]
    by_cases hstart : old <+: c :: seg
    · have hlonger : old <+: c :: (seg ++ d :: rest) :=
        (prefix_append_cons_iff (c :: seg) hd).mpr hstart
      rw [if_pos hlonger, if_pos hstart.isInfix, if_pos hstart, List.append_assoc,
        ← List.cons_append, List.drop_append_of_le_length hstart.length_le]
    · have hlonger : ¬old <+: c :: (seg ++ d :: rest) := fun h =>
        hstart ((prefix_append_cons_iff (c :: seg) hd).mp h)
      have hwithin : old <:+: c :: seg ↔ old <:+: seg :=
        List.infix_cons_iff.trans (or_iff_right hstart)
      rw [if_neg hlonger, if_neg hstart, ih]
      by_cases h : old <:+: seg
      · rw [if_pos h, if_pos (hwithin.mpr h), List.cons_append]
      · rw [if_neg h, if_neg (mt hwithin.mp h), List.cons_append]

theorem replaceOnce_cons_of_not_mem (hold : old ≠ []) (hd : d ∉ old) :
    replaceOnce old new (d :: rest) = d :: replaceOnce old new rest := by
  have h : replaceOnce old new ([] ++ d :: rest) =
      if old <:+: [] then replaceOnce old new [] ++ d :: rest
      else [] ++ d :: replaceOnce old new rest := replaceOnce_append_cons hold hd
  rwa [if_neg fun h => hold (List.infix_nil.mp h)] at h

omit [DecidableEq α] in
theorem infix_concat_iff_of_not_mem (hold : old ≠ []) (hd : d ∉ old) :
    old <:+: seg ++ [d] ↔ old <:+: seg := by
  rw [List.infix_concat_iff, List.suffix_concat_iff]
  refine or_iff_right ?_
  rintro (hempty | ⟨first, rfl, -⟩)
  · exact hold hempty
  · exact hd (List.mem_append_right _ List.mem_cons_self)

/-- A word is not found where its first symbol is not. -/
theorem replaceOnce_append_of_not_mem (hd : d ∉ seg) :
    replaceOnce (d :: old) new (seg ++ rest) = seg ++ replaceOnce (d :: old) new rest := by
  induction seg with
  | nil => rfl
  | cons c seg ih =>
    rw [List.mem_cons, not_or] at hd
    have hstart : ¬d :: old <+: c :: (seg ++ rest) := fun h => hd.1 (List.cons_prefix_cons.mp h).1
    rw [List.cons_append, replaceOnce, if_neg hstart, ih hd.2, List.cons_append]

theorem mem_of_mem_replaceOnce {text : List α} {x : α} (h : x ∈ replaceOnce old new text) :
    x ∈ text ∨ x ∈ new := by
  induction text with
  | nil =>
    rw [replaceOnce] at h
    split at h
    · exact .inr h
    · exact .inl h
  | cons c text ih =>
    rw [replaceOnce] at h
    split at h
    · rcases List.mem_append.mp h with h | h
      · exact .inr h
      · exact .inl (List.mem_of_mem_drop h)
    · rcases List.mem_cons.mp h with rfl | h
      · exact .inl List.mem_cons_self
      · exact (ih h).imp_left (List.mem_cons_of_mem c)

theorem infix_replaceOnce {text : List α} (h : old <:+: text) :
    new <:+: replaceOnce old new text := by
  induction text with
  | nil =>
    have hnil : replaceOnce old new [] = new := if_pos (List.infix_nil.mp h)
    exact ⟨[], [], (List.append_nil new).trans hnil.symm⟩
  | cons c text ih =>
    rw [replaceOnce]
    split
    · exact (List.prefix_append _ _).isInfix
    · rename_i hstart
      have htext := (List.infix_cons_iff.mp h).resolve_left hstart
      exact (ih htext).trans (List.suffix_cons c _).isInfix

end

/-! ## Python's reading of a URL -/

/-- A path, a query or a fragment starts. -/
def isDelimiter (c : Char) : Bool := c = '/' || c = '?' || c = '#'

/-- `scheme_chars`. -/
def isSchemeChar (c : Char) : Bool := c.isAlphanum || c = '+' || c = '-' || c = '.'

def isScheme : Text → Bool
  | [] => false
  | c :: text => c.isAlpha && (c :: text).all isSchemeChar

def lower (text : Text) : Text := text.map Char.toLower

/-- The scheme and what follows its colon, for a URL without control characters. -/
def splitScheme (url : Text) : Text × Text :=
  match splitOnce [':'] url with
  | some (scheme, rest) => if isScheme scheme then (lower scheme, rest) else ([], url)
  | none => ([], url)

def netloc (url : Text) : Text :=
  match (splitScheme url).2 with
  | '/' :: '/' :: rest => rest.takeWhile fun c => !isDelimiter c
  | _ => []

/-- The host and the port, for a URL without brackets. -/
def hostInfo (url : Text) : Text × Text :=
  let place := ((splitLast '@' (netloc url)).map Prod.snd).getD (netloc url)
  (splitOnce [':'] place).getD (place, [])

/-- `parsed.hostname`, nothing for none. A zone keeps its case. -/
def hostname (url : Text) : Text :=
  let host := (hostInfo url).1
  lower (host.takeWhile (· ≠ '%')) ++ host.dropWhile (· ≠ '%')

/-- What stands before the host and its `@`. -/
def userinfo (url : Text) : Text := ((splitLast '@' (netloc url)).map Prod.fst).getD []

/-- `parsed.port`, or nothing where it raises; an empty port is none. -/
def port (url : Text) : Option (Option ℕ) :=
  let text := (hostInfo url).2
  if text = [] then some none
  else if text.all Char.isDigit && Nat.ofDigitChars 10 text 0 ≤ 65535 then
    some (some (Nat.ofDigitChars 10 text 0))
  else none

/-- A port as it stands after a host. -/
def portText (n : ℕ) : Text := ':' :: Nat.toDigits 10 n

attribute [grind =] isScheme lower splitScheme netloc hostInfo hostname userinfo port portText

/-! ## A URL from its parts -/

/-- `user` has the `@` that ends it, `place` the colon and the port, if there are any. -/
structure Parts where
  scheme : Text
  user : Text
  host : Text
  place : Text
  path : Text

namespace Parts

def text (p : Parts) : Text :=
  p.scheme ++ ':' :: '/' :: '/' :: (p.user ++ (p.host ++ (p.place ++ p.path)))

/-- The parts are those that are read of the text. -/
structure Proper (p : Parts) : Prop where
  scheme : isScheme p.scheme = true
  user : p.user = [] ∨ ∃ name, p.user = name ++ ['@']
  place : p.place = [] ∨ ∃ port, p.place = ':' :: port
  path : p.path = [] ∨ ∃ c rest, p.path = c :: rest ∧ isDelimiter c = true
  plainUser : ∀ c ∈ p.user, isDelimiter c = false
  plainHost : ∀ c ∈ p.host, isDelimiter c = false ∧ c ≠ '@' ∧ c ≠ ':'
  plainPlace : ∀ c ∈ p.place, isDelimiter c = false ∧ c ≠ '@'

theorem isDelimiter_digit {c : Char} (h : c.isDigit = true) :
    isDelimiter c = false ∧ c ≠ '@' := by
  refine ⟨?_, ?_⟩
  · by_contra hc
    rw [Bool.not_eq_false, isDelimiter, Bool.or_eq_true, Bool.or_eq_true, decide_eq_true_eq,
      decide_eq_true_eq, decide_eq_true_eq] at hc
    rcases hc with (rfl | rfl) | rfl <;> cases h
  · rintro rfl
    cases h

variable {p : Parts}

theorem Proper.colon_not_mem (h : p.Proper) : ':' ∉ p.scheme := by
  intro hcolon
  have hscheme := h.scheme
  cases hs : p.scheme with
  | nil =>
    rw [hs] at hcolon
    cases hcolon
  | cons c rest =>
    rw [hs, isScheme, Bool.and_eq_true, List.all_eq_true] at hscheme
    exact absurd (hscheme.2 ':' (hs ▸ hcolon)) (by decide)

theorem splitScheme_text (h : p.Proper) : splitScheme p.text =
    (lower p.scheme, '/' :: '/' :: (p.user ++ (p.host ++ (p.place ++ p.path)))) := by
  rw [splitScheme, text, splitOnce_append h.colon_not_mem]
  exact if_pos h.scheme

theorem netloc_text (h : p.Proper) : netloc p.text = p.user ++ (p.host ++ p.place) := by
  have hplain : ∀ c ∈ p.user ++ (p.host ++ p.place), (!isDelimiter c) = true := by
    intro c hc
    rw [Bool.not_eq_true']
    rcases List.mem_append.mp hc with hc | hc
    · exact h.plainUser c hc
    · rcases List.mem_append.mp hc with hc | hc
      · exact (h.plainHost c hc).1
      · exact (h.plainPlace c hc).1
  have hpath : p.path.takeWhile (fun c => !isDelimiter c) = [] := by
    rcases h.path with hpath | ⟨c, rest, hpath, hc⟩
    · rw [hpath, List.takeWhile_nil]
    · rw [hpath, List.takeWhile_cons_of_neg (by simp [hc])]
  rw [netloc, splitScheme_text h]
  show List.takeWhile _ _ = _
  rw [← List.append_assoc p.host, ← List.append_assoc p.user,
    List.takeWhile_append_of_pos hplain, hpath, List.append_nil]

theorem Proper.at_not_mem (h : p.Proper) : '@' ∉ p.host ++ p.place := by
  intro hc
  rcases List.mem_append.mp hc with hc | hc
  · exact (h.plainHost _ hc).2.1 rfl
  · exact (h.plainPlace _ hc).2 rfl

theorem hostInfo_text (h : p.Proper) : hostInfo p.text = (p.host, p.place.tail) := by
  have hat := h.at_not_mem
  have hcolon : ':' ∉ p.host := fun hc => (h.plainHost _ hc).2.2 rfl
  have hlast : ((splitLast '@' (netloc p.text)).map Prod.snd).getD (netloc p.text) =
      p.host ++ p.place := by
    rw [netloc_text h]
    rcases h.user with huser | ⟨name, huser⟩
    · rw [huser, List.nil_append, splitLast_eq_none hat]
      rfl
    · rw [huser, List.append_assoc, List.singleton_append, splitLast_append name hat]
      rfl
  rw [hostInfo, hlast]
  rcases h.place with hplace | ⟨port, hplace⟩
  · rw [hplace, List.append_nil, splitOnce_eq_none hcolon]
    rfl
  · rw [hplace, splitOnce_append hcolon]
    rfl

/-- A text up to the last place of a symbol, with it, and the rest. -/
theorem exists_last (d : Char) (text : Text) :
    ∃ first last, text = first ++ last ∧ d ∉ last ∧ (first = [] ∨ ∃ name, first = name ++ [d]) := by
  by_cases hd : d ∈ text
  · obtain ⟨last, first, htext, hlast⟩ := List.eq_append_cons_of_mem (List.mem_reverse.mpr hd)
    refine ⟨first.reverse ++ [d], last.reverse, ?_, by simpa using hlast, .inr ⟨_, rfl⟩⟩
    have hback := congrArg List.reverse htext
    simpa using hback
  · exact ⟨[], text, rfl, hd, .inl rfl⟩

/-- A text up to the first place of a symbol, and the rest. -/
theorem exists_first (d : Char) (text : Text) :
    ∃ first last, text = first ++ last ∧ d ∉ first ∧ (last = [] ∨ ∃ rest, last = d :: rest) := by
  by_cases hd : d ∈ text
  · obtain ⟨first, rest, htext, hfirst⟩ := List.eq_append_cons_of_mem hd
    exact ⟨first, d :: rest, htext, hfirst, .inr ⟨rest, rfl⟩⟩
  · exact ⟨text, [], (List.append_nil text).symm, hd, .inl rfl⟩

/-- A URL with a scheme and a host is put together from its parts. -/
theorem exists_text {url : Text} (hscheme : (splitScheme url).1 ≠ []) (hnetloc : netloc url ≠ []) :
    ∃ p : Parts, p.Proper ∧ p.text = url := by
  -- the scheme ends at the first colon
  obtain ⟨scheme, last, rfl, hcolon, hlast⟩ := exists_first ':' url
  rcases hlast with rfl | ⟨rest, rfl⟩
  · rw [List.append_nil, splitScheme, splitOnce_eq_none hcolon] at hscheme
    exact absurd rfl hscheme
  have hisScheme : isScheme scheme = true := by
    by_contra hnot
    rw [splitScheme, splitOnce_append hcolon] at hscheme
    exact hscheme (congrArg Prod.fst (if_neg hnot))
  have hsplit : splitScheme (scheme ++ ':' :: rest) = (lower scheme, rest) := by
    rw [splitScheme, splitOnce_append hcolon]
    exact if_pos hisScheme
  rw [netloc, hsplit] at hnetloc
  split at hnetloc
  · -- the path starts at the first delimiter, the user ends at the last `@`, the host at a colon
    rename_i after hafter
    obtain rfl : rest = '/' :: '/' :: after := hafter
    obtain ⟨user, host, huserHost, hat, huser⟩ :=
      exists_last '@' (after.takeWhile fun c => !isDelimiter c)
    obtain ⟨host, place, rfl, hhost, hplace⟩ := exists_first ':' host
    have hplain : ∀ c ∈ user ++ (host ++ place), isDelimiter c = false := by
      intro c hc
      rw [← huserHost] at hc
      have hkept := List.mem_takeWhile_imp hc
      exact Bool.not_eq_true' _ ▸ hkept
    refine ⟨⟨scheme, user, host, place, after.dropWhile fun c => !isDelimiter c⟩, ?_, ?_⟩
    · refine ⟨hisScheme, huser, hplace, ?_, ?_, ?_, ?_⟩
      · cases hpath : after.dropWhile fun c => !isDelimiter c with
        | nil => exact .inl rfl
        | cons c rest =>
          have hhead := List.head?_dropWhile_not (fun c => !isDelimiter c) after
          rw [hpath] at hhead
          exact .inr ⟨c, rest, rfl, Bool.not_eq_false' _ ▸ hhead⟩
      · exact fun c hc => hplain c (List.mem_append_left _ hc)
      · refine fun c hc => ⟨hplain c ?_, ?_, ?_⟩
        · exact List.mem_append_right _ (List.mem_append_left _ hc)
        · rintro rfl
          exact hat (List.mem_append_left _ hc)
        · rintro rfl
          exact hhost hc
      · refine fun c hc => ⟨hplain c ?_, ?_⟩
        · exact List.mem_append_right _ (List.mem_append_right _ hc)
        · rintro rfl
          exact hat (List.mem_append_right _ hc)
    · have hwhole :
          user ++ (host ++ (place ++ after.dropWhile fun c => !isDelimiter c)) = after := by
        rw [← List.append_assoc host, ← List.append_assoc user, ← huserHost,
          List.takeWhile_append_dropWhile]
      rw [text, hwhole]
  · exact absurd rfl hnetloc

/-- The hostname is the host in small letters. -/
theorem hostname_text (h : p.Proper) (hzone : '%' ∉ p.host) : hostname p.text = lower p.host := by
  have hkept : ∀ c ∈ p.host, decide (c ≠ '%') = true := by
    intro c hc
    rw [decide_eq_true_eq]
    rintro rfl
    exact hzone hc
  rw [hostname, hostInfo_text h]
  show lower (p.host.takeWhile (· ≠ '%')) ++ p.host.dropWhile (· ≠ '%') = lower p.host
  rw [List.takeWhile_eq_self_iff.mpr hkept, List.dropWhile_eq_nil_iff.mpr hkept, List.append_nil]

/-- The part for the user has the `@` that the userinfo is read without. -/
theorem infix_userinfo_text (h : p.Proper) {word : Text} (hword : word ≠ []) (hat : '@' ∉ word) :
    word <:+: userinfo p.text ↔ word <:+: p.user := by
  have hplace : '@' ∉ p.host ++ p.place := h.at_not_mem
  rcases h.user with huser | ⟨name, huser⟩
  · rw [userinfo, netloc_text h, huser, List.nil_append, splitLast_eq_none hplace]
    exact Iff.rfl
  · rw [userinfo, netloc_text h, huser, List.append_assoc, List.singleton_append,
      splitLast_append name hplace]
    exact (infix_concat_iff_of_not_mem hword hat).symm

theorem port_congr {q : Parts} (h : p.Proper) (hq : q.Proper) (hplace : q.place = p.place) :
    port q.text = port p.text := by
  rw [port, port, hostInfo_text h, hostInfo_text hq, hplace]

theorem port_digits (h : p.Proper) {n : Option ℕ} (hport : port p.text = some n) :
    ∀ c ∈ p.place.tail, c.isDigit = true := by
  rw [port, hostInfo_text h] at hport
  split_ifs at hport with hempty hdigits
  · intro c hc
    rw [show p.place.tail = [] from hempty] at hc
    cases hc
  · rw [Bool.and_eq_true, List.all_eq_true] at hdigits
    exact hdigits.1

/-- The port is read of what stands after the host. -/
theorem exists_port (h : p.Proper) {n : ℕ} (hport : port p.text = some (some n)) :
    ∃ digits, p.place = ':' :: digits ∧ (∀ c ∈ digits, c.isDigit = true) ∧
      Nat.ofDigitChars 10 digits 0 = n := by
  rw [port, hostInfo_text h] at hport
  split_ifs at hport with hempty hdigits
  · cases hport
  rcases h.place with hplace | ⟨digits, hplace⟩
  · exact absurd (congrArg List.tail hplace) hempty
  · rw [hplace, Bool.and_eq_true, List.all_eq_true] at hdigits
    rw [hplace] at hport
    exact ⟨digits, hplace, hdigits.1, Option.some.inj (Option.some.inj hport)⟩

/-! ## A word replaced in the text of a URL -/

section
variable {word new : Text}

theorem replaceOnce_user (h : p.Proper) (hword : word ≠ []) (hat : '@' ∉ word) (rest : Text) :
    replaceOnce word new (p.user ++ rest) =
      if word <:+: p.user then replaceOnce word new p.user ++ rest
      else p.user ++ replaceOnce word new rest := by
  rcases h.user with huser | ⟨name, huser⟩
  · rw [huser, if_neg fun hwithin => hword (List.infix_nil.mp hwithin)]
    rfl
  · have hwithin : word <:+: name ++ ['@'] ↔ word <:+: name :=
      infix_concat_iff_of_not_mem hword hat
    rw [huser, List.append_assoc, List.singleton_append, replaceOnce_append_cons hword hat]
    by_cases hname : word <:+: name
    · rw [if_pos hname, if_pos (hwithin.mpr hname), replaceOnce_append_cons hword hat,
        if_pos hname, List.append_assoc, List.singleton_append]
    · rw [if_neg hname, if_neg (mt hwithin.mp hname), List.append_assoc, List.singleton_append]

theorem Proper.replaceUser (h : p.Proper) (hword : word ≠ []) (hat : '@' ∉ word)
    (hnew : ∀ c ∈ new, isDelimiter c = false) :
    { p with user := replaceOnce word new p.user }.Proper := by
  refine { h with user := ?_, plainUser := ?_ }
  · rcases h.user with huser | ⟨name, huser⟩
    · refine .inl ?_
      show replaceOnce word new p.user = []
      rw [huser]
      exact if_neg hword
    · refine .inr ?_
      show ∃ name, replaceOnce word new p.user = name ++ ['@']
      rw [huser, replaceOnce_append_cons hword hat]
      split
      · exact ⟨_, rfl⟩
      · exact ⟨name, congrArg (fun rest => name ++ '@' :: rest) (if_neg hword)⟩
  · intro c hc
    rcases mem_of_mem_replaceOnce hc with hc | hc
    · exact h.plainUser c hc
    · exact hnew c hc

theorem Proper.replacePath (h : p.Proper) (hword : word ≠ [])
    (hplain : ∀ c ∈ word, isDelimiter c = false) :
    { p with path := replaceOnce word new p.path }.Proper := by
  refine { h with path := ?_ }
  rcases h.path with hpath | ⟨d, rest, hpath, hd⟩
  · refine .inl ?_
    show replaceOnce word new p.path = []
    rw [hpath]
    exact if_neg hword
  · have hmem : d ∉ word := by
      intro hmem
      rw [hplain d hmem] at hd
      cases hd
    refine .inr ⟨d, replaceOnce word new rest, ?_, hd⟩
    show replaceOnce word new p.path = d :: replaceOnce word new rest
    rw [hpath, replaceOnce_cons_of_not_mem hword hmem]

/-- A word that does not stand before the path does not reach into it. -/
theorem replaceOnce_path (h : p.Proper) (hword : word ≠ [])
    (hplain : ∀ c ∈ word, isDelimiter c = false) {seg : Text} (hseg : ¬word <:+: seg) :
    replaceOnce word new (seg ++ p.path) = seg ++ replaceOnce word new p.path := by
  rcases h.path with hpath | ⟨d, rest, hpath, hd⟩
  · have hnil : replaceOnce word new [] = [] := if_neg hword
    rw [hpath, hnil, List.append_nil, replaceOnce_of_not_infix hseg]
  · have hmem : d ∉ word := by
      intro hmem
      rw [hplain d hmem] at hd
      cases hd
    rw [hpath, replaceOnce_append_cons hword hmem, if_neg hseg,
      replaceOnce_cons_of_not_mem hword hmem]

/-- A word without a symbol that parts the URL is looked for in the scheme, then in the user's
part and then from the host on. -/
theorem replaceOnce_text (h : p.Proper) (hword : word ≠ [])
    (hplain : ∀ c ∈ word, isDelimiter c = false ∧ c ≠ '@' ∧ c ≠ ':')
    (hscheme : ¬word <:+: p.scheme) :
    replaceOnce word new p.text =
      if word <:+: p.user then { p with user := replaceOnce word new p.user }.text
      else p.scheme ++ ':' :: '/' :: '/' ::
        (p.user ++ replaceOnce word new (p.host ++ (p.place ++ p.path))) := by
  have hcolon : ':' ∉ word := fun hc => (hplain _ hc).2.2 rfl
  have hslash : '/' ∉ word := fun hc => absurd (hplain _ hc).1 (by decide)
  have hat : '@' ∉ word := fun hc => (hplain _ hc).2.1 rfl
  rw [text, replaceOnce_append_cons hword hcolon, if_neg hscheme,
    replaceOnce_cons_of_not_mem hword hslash, replaceOnce_cons_of_not_mem hword hslash,
    replaceOnce_user h hword hat]
  split
  · rfl
  · rfl

end

/-- The digits of a number other than zero are not the start of other digits for it. -/
theorem eq_of_prefix_toDigits {n : ℕ} (hn : n ≠ 0) {digits : Text}
    (hdigits : Nat.ofDigitChars 10 digits 0 = n) (hstart : Nat.toDigits 10 n <+: digits) :
    digits = Nat.toDigits 10 n := by
  obtain ⟨rest, rfl⟩ := hstart
  rw [Nat.ofDigitChars_append, Nat.ofDigitChars_ten_toDigits,
    Nat.ofDigitChars_eq_ofDigitChars_zero] at hdigits
  cases rest with
  | nil => exact List.append_nil _
  | cons c rest =>
    have hmore : 10 * n ≤ 10 ^ (c :: rest).length * n := by
      refine Nat.mul_le_mul_right n ?_
      exact Nat.le_self_pow (Nat.succ_ne_zero _) 10
    omega

theorem portText_plain (n : ℕ) : ∀ c ∈ portText n, isDelimiter c = false ∧ c ≠ '@' := by
  intro c hc
  rcases List.mem_cons.mp hc with rfl | hc
  · decide
  · exact isDelimiter_digit (Nat.isDigit_of_mem_toDigits (by decide) (by decide) hc)

theorem portText_ne_nil (n : ℕ) : portText n ≠ [] := List.cons_ne_nil _ _

/-- The colon of a scheme is not that of a port. -/
theorem replaceOnce_portText_scheme (n : ℕ) {scheme : Text} (hscheme : ':' ∉ scheme) (rest : Text) :
    replaceOnce (portText n) [] (scheme ++ ':' :: '/' :: '/' :: rest) =
      scheme ++ ':' :: '/' :: '/' :: replaceOnce (portText n) [] rest := by
  have hslash : '/' ∉ portText n := fun hc => absurd (portText_plain n _ hc).1 (by decide)
  have hstart : ¬portText n <+: ':' :: '/' :: '/' :: rest := by
    rw [portText, List.cons_prefix_cons, not_and]
    intro _ hdigits
    cases hn : Nat.toDigits 10 n with
    | nil => exact Nat.toDigits_ne_nil hn
    | cons c tail =>
      rw [hn] at hdigits
      rw [portText, hn] at hslash
      obtain ⟨rfl, -⟩ := List.cons_prefix_cons.mp hdigits
      exact hslash (List.mem_cons_of_mem _ List.mem_cons_self)
  rw [portText, replaceOnce_append_of_not_mem hscheme, ← portText, replaceOnce, if_neg hstart,
    replaceOnce_cons_of_not_mem (portText_ne_nil n) hslash,
    replaceOnce_cons_of_not_mem (portText_ne_nil n) hslash]

/-- With its port removed where it first stands, a URL has the scheme and the host that it had. -/
theorem exists_removePort (h : p.Proper) {n : ℕ} (hn : n ≠ 0)
    (hport : port p.text = some (some n)) : ∃ q : Parts, q.Proper ∧ q.scheme = p.scheme ∧
      q.host = p.host ∧ replaceOnce (portText n) [] p.text = q.text := by
  obtain ⟨digits, hplace, hdigits, hvalue⟩ := exists_port h hport
  have hplain := portText_plain n
  have hword := portText_ne_nil n
  have hat : '@' ∉ portText n := fun hc => (hplain _ hc).2 rfl
  have hhost : ':' ∉ p.host := fun hc => (h.plainHost _ hc).2.2 rfl
  -- from the host on the text is the port, or it stands in the path
  have htail : replaceOnce (portText n) [] (p.host ++ (p.place ++ p.path)) =
      p.host ++ replaceOnce (portText n) [] (p.place ++ p.path) :=
    replaceOnce_append_of_not_mem hhost
  rw [text, replaceOnce_portText_scheme n h.colon_not_mem, replaceOnce_user h hword hat, htail]
  split
  · exact ⟨_, h.replaceUser hword hat (by simp), rfl, rfl, rfl⟩
  by_cases hstart : portText n <+: p.place
  · have hwhole : p.place = portText n := by
      rw [hplace, portText] at hstart ⊢
      rw [eq_of_prefix_toDigits hn hvalue (List.cons_prefix_cons.mp hstart).2]
    rw [hwhole, replaceOnce_prefix hword]
    exact ⟨{ p with place := [] }, { h with place := .inl rfl, plainPlace := by simp },
      rfl, rfl, rfl⟩
  · have hnot : ¬portText n <+: p.place ++ p.path := by
      rcases h.path with hpath | ⟨d, rest, hpath, hd⟩
      · rwa [hpath, List.append_nil]
      · rw [hpath, prefix_append_cons_iff]
        · exact hstart
        · intro hmem
          rw [(hplain d hmem).1] at hd
          cases hd
    have hcolon : ':' ∉ digits := fun hc => absurd (hdigits _ hc) (by decide)
    have hrest : replaceOnce (portText n) [] (p.place ++ p.path) =
        p.place ++ replaceOnce (portText n) [] p.path := by
      rw [hplace, List.cons_append] at hnot ⊢
      rw [replaceOnce, if_neg hnot]
      exact congrArg _ (replaceOnce_append_of_not_mem hcolon)
    rw [hrest]
    exact ⟨{ p with path := replaceOnce (portText n) [] p.path },
      h.replacePath hword fun c hc => (hplain c hc).1, rfl, rfl, rfl⟩

end Parts

end WorkTicket.Urls
