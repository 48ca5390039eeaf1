import Mathlib.Data.List.DropRight
import Mathlib.Data.List.Infix
import WorkTicket.Foundation.Csv
import WorkTicket.Foundation.TextSplits

/-! The export of a user's data as CSV: the rows are written with every field quoted, and the text
is then taken apart again at its lines and its quoted commas to neutralise formulas. -/

namespace WorkTicket.Auth.ComplianceExport

open WorkTicket.Csv WorkTicket.TextSplits

abbrev Text := List Char

/-! ## The code -/

/-- What `str.splitlines` takes as the end of a line. -/
def lineBreaks : LineBreaks Char where
  isBreak c := c ∈
    ['\n', '\r', '\x0b', '\x0c', '\x1c', '\x1d', '\x1e', '\u0085', '\u2028', '\u2029']
  carriage := '\r'
  newline := '\n'
  isBreak_carriage := by decide

def formulaTriggers : List Char := "=+-@\t\n\r|%&\x7b\x7d".toList

def apostrophe : Char := Char.ofNat 0x27

/-- `_sanitize_csv_cell`. -/
def sanitizeCsvCell : Text → Text
  | [] => []
  | c :: val => if c ∈ formulaTriggers then apostrophe :: c :: val else c :: val

/-- `p.strip('"')`. -/
def stripQuotes (p : Text) : Text := (p.dropWhile (· = '"')).rdropWhile (· = '"')

def quotedComma : Text := ['"', ',', '"']

def safePart (p : Text) : Text := quoted excel (sanitizeCsvCell (stripQuotes p))

def safeLine (line : Text) : Text :=
  joined excel ((splitOn quotedComma line).map safePart) ++ ['\n']

def exportCsv (rows : List (List Text)) : Text :=
  (splitLines lineBreaks (writeRows excel rows)).flatMap safeLine

/-! ### The rows of a user -/

structure User where
  id : Text
  email : Text
  name : Text
  role : Text

structure Job where
  id : Text
  status : Option Text
  description : Option Text
  address : Option Text

structure Customer where
  id : Text
  name : Option Text
  email : Option Text

/-- The section, the field and the value of each row; a value that is missing is written as an empty
one. -/
def dataCells (user : User) (jobs : List Job) (customers : List Customer) :
    List (String × String × Text) :=
  [("section", "field", "value".toList), ("user", "id", user.id), ("user", "email", user.email),
      ("user", "name", user.name), ("user", "role", user.role)] ++
    jobs.flatMap (fun j => [("job", "id", j.id), ("job", "status", j.status.getD []),
      ("job", "description", j.description.getD []), ("job", "address", j.address.getD [])]) ++
    customers.flatMap fun c => [("customer", "id", c.id), ("customer", "name", c.name.getD []),
      ("customer", "email", c.email.getD [])]

def dataRow (cell : String × String × Text) : List Text :=
  [cell.1.toList, cell.2.1.toList, cell.2.2]

/-- `export_my_data` with the format `csv`. -/
def exportMyData (user : User) (jobs : List Job) (customers : List Customer) : Text :=
  exportCsv ((dataCells user jobs customers).map dataRow)

/-! ## What is claimed -/

/-- One record a row, with its fields but for the formulas, which are neutralised. -/
structure Faithful (rows : List (List Text)) : Prop where
  records : read excel (exportCsv rows) = rows.map (·.map sanitizeCsvCell)
  safe : ∀ record ∈ read excel (exportCsv rows), ∀ field ∈ record, ∀ c ∈ field.head?,
    c ∉ formulaTriggers

/-- The field is on one line, does not begin or end with a quote, and no comma in it stands between
two quotes, of which the second can be the one that closes the field. -/
structure Plain (f : Text) : Prop where
  lines : ∀ c ∈ f, lineBreaks.isBreak c = false
  starts : f.head? ≠ some '"'
  ends : f.getLast? ≠ some '"'
  commas : ¬quotedComma <:+: f ++ ['"']

/-- There is a field, the fields are plain, and the first does not begin with a comma before a
quote. -/
def PlainRow : List Text → Prop
  | [] => False
  | f :: row => ¬quotedComma <+: '"' :: (f ++ ['"']) ∧ ∀ g ∈ f :: row, Plain g

/-! ## Quotes -/

section
variable {a e f g p part v : Text}

def Quotes (e : Text) : Prop := ∀ c ∈ e, c = '"'

theorem quotes_nil : Quotes [] := nofun

theorem quotes_singleton : Quotes ['"'] := by simp [Quotes]

theorem dropWhile_quotes (he : Quotes e) : e.dropWhile (· = '"') = [] := by
  rw [List.dropWhile_eq_nil_iff]
  simpa [Quotes] using he

theorem rdropWhile_quotes (he : Quotes e) :
    (p ++ e).rdropWhile (· = '"') = p.rdropWhile (· = '"') := by
  have hreverse : Quotes e.reverse := fun c hc => he c (List.mem_reverse.mp hc)
  rw [List.rdropWhile, List.reverse_append, List.dropWhile_append, dropWhile_quotes hreverse]
  rfl

theorem stripQuotes_append (hpart : Quotes part) (he : Quotes e) :
    stripQuotes (part ++ p ++ e) = stripQuotes p := by
  unfold stripQuotes
  rw [List.append_assoc, List.dropWhile_append, dropWhile_quotes hpart, List.isEmpty_nil,
    if_pos rfl, List.dropWhile_append]
  by_cases hp : (p.dropWhile (· = '"')).isEmpty = true
  · rw [if_pos hp, dropWhile_quotes he, List.isEmpty_iff.mp hp]
  · rw [if_neg hp, rdropWhile_quotes he]

theorem double_quote (v : Text) : double excel ('"' :: v) = '"' :: '"' :: double excel v := rfl

theorem double_other {c : Char} (hc : c ≠ '"') (v : Text) :
    double excel (c :: v) = c :: double excel v := by
  have hquote : c ≠ excel.quote := hc
  rw [double_cons, if_neg hquote, List.singleton_append]

theorem dropWhile_double (v : Text) :
    (double excel v).dropWhile (· = '"') = double excel (v.dropWhile (· = '"')) := by
  induction v with
  | nil => rfl
  | cons c v ih =>
    by_cases hc : c = '"'
    · rw [hc, double_quote]
      simpa using ih
    · rw [double_other hc]
      simp [hc, double_other hc]

theorem double_reverse (v : Text) : (double excel v).reverse = double excel v.reverse := by
  induction v with
  | nil => rfl
  | cons c v ih =>
    rw [double_cons, List.reverse_append, ih, List.reverse_cons, double_append]
    by_cases hc : c = excel.quote
    · simp [double, hc]
    · simp [double, hc]

theorem stripQuotes_double (v : Text) :
    stripQuotes (double excel v) = double excel (stripQuotes v) := by
  rw [stripQuotes, dropWhile_double, List.rdropWhile, double_reverse, dropWhile_double,
    double_reverse, stripQuotes, List.rdropWhile]

theorem sanitizeCsvCell_double (v : Text) :
    sanitizeCsvCell (double excel v) = double excel (sanitizeCsvCell v) := by
  cases v with
  | nil => rfl
  | cons c v =>
    by_cases hc : c = '"'
    · subst hc
      have hquote : '"' ∉ formulaTriggers := by decide
      rw [double_quote, sanitizeCsvCell, sanitizeCsvCell, if_neg hquote, if_neg hquote,
        double_quote]
    · have happ : apostrophe ≠ '"' := by decide
      rw [double_other hc, sanitizeCsvCell, sanitizeCsvCell]
      split
      · rw [double_other happ, double_other hc]
      · rw [double_other hc]

theorem safePart_double (hpart : Quotes part) (he : Quotes e) (v : Text) :
    safePart (part ++ double excel v ++ e) =
      quoted excel (double excel (sanitizeCsvCell (stripQuotes v))) := by
  rw [safePart, stripQuotes_append hpart he, stripQuotes_double, sanitizeCsvCell_double]

theorem sanitizeCsvCell_cases (f : Text) : sanitizeCsvCell f = f ∨
    ∃ c v, c ∈ formulaTriggers ∧ f = c :: v ∧ sanitizeCsvCell f = apostrophe :: f := by
  cases f with
  | nil => exact .inl rfl
  | cons c v =>
    rw [sanitizeCsvCell]
    split
    · rename_i hc
      exact .inr ⟨c, v, hc, rfl, rfl⟩
    · exact .inl rfl

theorem stripQuotes_sublist (a : Text) : (stripQuotes a).Sublist a :=
  (List.rdropWhile_prefix _ _).sublist.trans (List.dropWhile_suffix _).sublist

/-- What begins with an apostrophe keeps it. -/
theorem stripQuotes_apostrophe {c : Char} (ha : a <+: apostrophe :: v)
    (hc : stripQuotes a = c :: g) : c = apostrophe := by
  have happ : apostrophe ≠ '"' := by decide
  cases a with
  | nil => cases hc
  | cons c' a =>
    obtain ⟨rfl, -⟩ := List.cons_prefix_cons.mp ha
    have hstrip : stripQuotes (apostrophe :: a) <+: apostrophe :: a := by
      rw [stripQuotes, List.dropWhile_cons_of_neg (by simpa using happ)]
      exact List.rdropWhile_prefix _ _
    rw [hc] at hstrip
    exact (List.cons_prefix_cons.mp hstrip).1

/-- What a start of a field that was stripped cannot be: the field, neutralised, unless it is all of
the field and nothing was stripped. -/
theorem eq_of_sanitized (ha : a <+: f)
    (h : sanitizeCsvCell (stripQuotes a) = sanitizeCsvCell f) : a = f ∧ stripQuotes f = f := by
  have hstrip := (stripQuotes_sublist a).length_le
  have hstart := ha.length_le
  have hwhole : stripQuotes a = f → a = f ∧ stripQuotes f = f := by
    intro heq
    have hlength := congrArg List.length heq
    obtain rfl := ha.eq_of_length (by omega)
    exact ⟨rfl, heq⟩
  rcases sanitizeCsvCell_cases f with hf | ⟨c, v, hc, rfl, hf⟩
  · rcases sanitizeCsvCell_cases (stripQuotes a) with hsame | ⟨c, v, hc, ha', hsame⟩
    · exact hwhole (hsame.symm.trans (h.trans hf))
    · -- the field would begin with the apostrophe, and not with a formula
      rw [hsame, hf] at h
      rw [← h] at ha
      rw [stripQuotes_apostrophe ha ha'] at hc
      exact absurd hc (by decide)
  · rcases sanitizeCsvCell_cases (stripQuotes a) with hsame | ⟨c', v', hc', ha', hsame⟩
    · have hlength := congrArg List.length (hsame.symm.trans (h.trans hf))
      simp only [List.length_cons] at hlength hstart
      omega
    · rw [hsame, hf] at h
      exact hwhole (List.cons.inj h).2

/-! ## Cuts in a field -/

def onLine (c : Char) : Bool := !lineBreaks.isBreak c

theorem takeWhile_double (hg : ∀ c ∈ g, onLine c = true) (rest : Text) :
    (double excel g ++ rest).takeWhile onLine = double excel g ++ rest.takeWhile onLine := by
  induction g with
  | nil => rfl
  | cons c g ih =>
    have hrest := ih fun c' hc' => hg c' (List.mem_cons_of_mem _ hc')
    have hc := hg c List.mem_cons_self
    by_cases hquote : c = '"'
    · subst hquote
      rw [double_quote, List.cons_append, List.cons_append, List.takeWhile_cons_of_pos hc,
        List.takeWhile_cons_of_pos hc, hrest, List.cons_append, List.cons_append]
    · rw [double_other hquote, List.cons_append, List.takeWhile_cons_of_pos hc, hrest,
        List.cons_append]

/-- A line break in a field cuts it. -/
theorem takeWhile_double_cut (hg : ¬∀ c ∈ g, onLine c = true) (rest : Text) :
    (double excel g ++ rest).takeWhile onLine = double excel (g.takeWhile onLine) := by
  induction g with
  | nil => exact absurd nofun hg
  | cons c g ih =>
    by_cases hc : onLine c = true
    · have hrest := ih fun h => hg (List.forall_mem_cons.mpr ⟨hc, h⟩)
      rw [List.takeWhile_cons_of_pos hc]
      by_cases hquote : c = '"'
      · subst hquote
        rw [double_quote, List.cons_append, List.cons_append, List.takeWhile_cons_of_pos hc,
          List.takeWhile_cons_of_pos hc, hrest, double_quote]
      · rw [double_other hquote, List.cons_append, List.takeWhile_cons_of_pos hc, hrest,
          double_other hquote]
    · have hquote : c ≠ '"' := by
        rintro rfl
        exact hc rfl
      rw [double_other hquote, List.cons_append, List.takeWhile_cons_of_neg hc,
        List.takeWhile_cons_of_neg hc]
      rfl

theorem quotedComma_starts {c : Char} {t : Text} :
    quotedComma <+: c :: t ↔ c = '"' ∧ [',', '"'] <+: t := by
  rw [quotedComma, List.cons_prefix_cons]
  exact and_congr_left fun _ => eq_comm

theorem comma_starts {c : Char} {t : Text} :
    [',', '"'] <+: c :: t ↔ c = ',' ∧ t.head? = some '"' := by
  rw [List.cons_prefix_cons]
  cases t with
  | nil => simp
  | cons c' t =>
    rw [List.cons_prefix_cons, List.head?_cons, Option.some_inj]
    simp [eq_comm]

theorem head?_double (g rest : Text) :
    (double excel g ++ rest).head? = (g ++ rest.take 1).head? := by
  cases g with
  | nil => cases rest <;> rfl
  | cons c g =>
    by_cases hc : c = '"'
    · rw [hc]
      rfl
    · rw [double_other hc]
      rfl

theorem comma_starts_double (g : Text) {rest : Text} (hrest : rest = [] ∨ rest.head? = some '"') :
    [',', '"'] <+: double excel g ++ rest ↔ [',', '"'] <+: g ++ rest.take 1 := by
  cases g with
  | nil =>
    rcases hrest with rfl | hquote
    · rfl
    · cases rest with
      | nil => cases hquote
      | cons c rest =>
        obtain rfl := Option.some_inj.mp hquote
        simp [double]
  | cons c g =>
    by_cases hc : c = '"'
    · subst hc
      rw [double_quote, List.cons_append, List.cons_append, comma_starts, List.cons_append,
        comma_starts]
      simp
    · rw [double_other hc, List.cons_append, comma_starts, List.cons_append, comma_starts,
        head?_double]

theorem not_prefix_other {c : Char} (hc : c ≠ '"') (t : Text) : ¬quotedComma <+: c :: t :=
  fun h => hc (quotedComma_starts.mp h).1

theorem not_prefix_double (t : Text) : ¬quotedComma <+: '"' :: '"' :: t := by
  simp [quotedComma_starts]

theorem splitFrom_quotedComma (part t : Text) :
    splitFrom quotedComma 0 part ('"' :: ([',', '"'] ++ t)) =
      part :: splitFrom quotedComma 0 [] t :=
  splitFrom_separator (by decide)

/-- A field without a comma between quotes is not split. -/
theorem splitFrom_double {rest : Text} (hrest : rest = [] ∨ rest.head? = some '"')
    (hg : ¬quotedComma <:+: g ++ rest.take 1) (part : Text) :
    splitFrom quotedComma 0 part (double excel g ++ rest) =
      splitFrom quotedComma 0 (part ++ double excel g) rest := by
  induction g generalizing part with
  | nil => rw [double, List.flatMap_nil, List.append_nil, List.nil_append]
  | cons c g ih =>
    rw [List.cons_append, List.infix_cons_iff, not_or] at hg
    by_cases hc : c = '"'
    · subst hc
      have hnext : ¬quotedComma <+: '"' :: (double excel g ++ rest) := by
        rw [quotedComma_starts, comma_starts_double g hrest, ← quotedComma_starts]
        exact hg.1
      rw [double_quote, List.cons_append, List.cons_append, splitFrom_cons (not_prefix_double _),
        splitFrom_cons hnext, ih hg.2]
      simp
    · rw [double_other hc, List.cons_append, splitFrom_cons (not_prefix_other hc _), ih hg.2]
      simp

/-- A field with a comma between quotes is split there. -/
theorem splitFrom_double_cut {rest : Text} (hrest : rest = [] ∨ rest.head? = some '"')
    (hg : quotedComma <:+: g ++ rest.take 1) (part : Text) :
    ∃ a more, a <+: g ∧ a ≠ g ∧ splitFrom quotedComma 0 part (double excel g ++ rest) =
      (part ++ double excel a ++ ['"']) :: more := by
  induction g generalizing part with
  | nil =>
    have hlength := hg.length_le.trans (List.length_take_le 1 rest)
    simp [quotedComma] at hlength
  | cons c g ih =>
    rw [List.cons_append, List.infix_cons_iff] at hg
    by_cases hc : c = '"'
    · subst hc
      rw [double_quote, List.cons_append, List.cons_append, splitFrom_cons (not_prefix_double _)]
      by_cases hcomma : [',', '"'] <+: g ++ rest.take 1
      · -- the second of the two quotes begins a separator
        obtain ⟨t, ht⟩ := (comma_starts_double g hrest).mpr hcomma
        refine ⟨[], splitFrom quotedComma 0 [] t, List.nil_prefix, nofun, ?_⟩
        rw [← ht, splitFrom_quotedComma, double, List.flatMap_nil, List.append_nil]
      · have hnext : ¬quotedComma <+: '"' :: (double excel g ++ rest) := by
          rw [quotedComma_starts, comma_starts_double g hrest]
          exact fun h => hcomma h.2
        have hlater := hg.resolve_left fun h => hcomma (quotedComma_starts.mp h).2
        obtain ⟨a, more, ha, hne, hsplit⟩ := ih hlater (part ++ ['"'] ++ ['"'])
        refine ⟨'"' :: a, more, List.cons_prefix_cons.mpr ⟨rfl, ha⟩, by simpa using hne, ?_⟩
        rw [splitFrom_cons hnext, hsplit, double_quote]
        simp
    · have hlater := hg.resolve_left (not_prefix_other hc _)
      obtain ⟨a, more, ha, hne, hsplit⟩ := ih hlater (part ++ [c])
      refine ⟨c :: a, more, List.cons_prefix_cons.mpr ⟨rfl, ha⟩, by simpa using hne, ?_⟩
      rw [double_other hc, List.cons_append, splitFrom_cons (not_prefix_other hc _), hsplit,
        double_other hc]
      simp

end

end WorkTicket.Auth.ComplianceExport
