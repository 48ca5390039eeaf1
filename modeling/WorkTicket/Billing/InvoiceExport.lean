import WorkTicket.Foundation.Csv
import WorkTicket.Foundation.PythonJson
import WorkTicket.Foundation.Regex
import WorkTicket.Middleware.StreamSanitizer

/-! The export of an invoice as CSV: the cells with text are sanitised, and then the row is written
with every cell quoted. -/

namespace WorkTicket.Billing.InvoiceExport

open WorkTicket.Csv WorkTicket.Regex
open WorkTicket.PythonJson (Value Interpreter Text dumps intRepr)
open WorkTicket.Middleware.StreamSanitizer (isSpace)

/-! ## The code -/

/-- A letter, or with `(?i)` what Python takes for it. -/
def letter (c : Char) : Pattern Char := .char (· == c)

def anyCase (c : Char) : Pattern Char := .char fun d =>
  d.toUpper = c || (c = 'I' && (d = '\u0130' || d = '\u0131')) || (c = 'K' && d = '\u212a') ||
    (c = 'S' && d = '\u017f')

def space : Pattern Char := .char isSpace

/-- `(?i)=command\s*\(`. -/
def command (name : String) : Pattern Char :=
  .all (name.toList.map anyCase ++ [.star space, letter '('])

def csvDangerousPatterns : List (Pattern Char) :=
  [command "=HYPERLINK", command "=DDE", command "=CMD", command "=EXEC", command "=SHELL",
    .all ("=MSEXCEL|".toList.map anyCase),
    .all ("TABLE".toList.map anyCase ++ [.plus space]),
    .all ("<script".toList.map letter ++ [.star (.char (· != '>')), letter '>']),
    .all ("javascript".toList.map letter ++ [.star space, letter ':'])]

def formulaTriggers : List Char := "=+-@\t\n\r|%&\x7b\x7d".toList

/-- `^[\s]*[=+\-@\t\n\r|%&...]`. -/
def triggered : Text → Bool
  | [] => false
  | c :: val => c ∈ formulaTriggers || (isSpace c && triggered val)

def isControl (c : Char) : Bool := c.toNat < 0x20 && c ∉ ['\t', '\n', '\r']

def blanked (val : Text) : Text := val.map fun c => if isControl c then ' ' else c

def apostrophe : Char := Char.ofNat 0x27

/-- `re.search` without flags; no pattern has a word boundary. -/
def found (r : Pattern Char) (val : Text) : Bool := search (fun _ => false) r false val

def marked (val : Text) (r : Pattern Char) : Text := if found r val then apostrophe :: val else val

/-- `_sanitize_csv`. -/
def sanitizeCsv (val : Text) : Text :=
  if val = [] then val
  else
    let val := blanked (val.flatMap fun c => if c = '"' then ['"', '"'] else [c])
    let val := if triggered val then apostrophe :: val else val
    csvDangerousPatterns.foldl marked val

structure Invoice where
  id : Text
  companyId : Text
  jobId : Text
  customerId : Text
  lineItems : Value
  subtotal : Text
  tax : Text
  total : Text
  status : Option Text
  createdAt : Option Text
  updatedAt : Option Text

section
variable (python : Interpreter)

/-- `str` of a value that is no list and no object. -/
def pyStr : Value → Text
  | .null => "None".toList
  | .bool b => if b then "True".toList else "False".toList
  | .int n => intRepr n
  | .float literal => python.floatRepr literal
  | .nan => "nan".toList
  | .infinity negative => if negative then "-inf".toList else "inf".toList
  | .str s => s.map Char.ofNat
  | .arr items => dumps python (.arr items)
  | .obj fields => dumps python (.obj fields)

/-- A cell with text, or with the float of a decimal. -/
inductive Field
  | text (val : Text)
  | amount (literal : Text)

/-- The text of a field before it is sanitised. -/
def Field.original : Field → Text
  | .text val => val
  | .amount literal => python.floatRepr literal

def Field.cell : Field → Text
  | .text val => sanitizeCsv val
  | .amount literal => python.floatRepr literal

def invoiceHeader : List Text :=
  ["id", "company_id", "job_id", "customer_id", "line_items", "subtotal", "tax", "total", "status",
    "created_at", "updated_at"].map String.toList

def invoiceFields (invoice : Invoice) : List Field :=
  [.text invoice.id, .text invoice.companyId, .text invoice.jobId, .text invoice.customerId,
    .text (pyStr python invoice.lineItems), .amount invoice.subtotal, .amount invoice.tax,
    .amount invoice.total, .text (invoice.status.getD []), .text (invoice.createdAt.getD []),
    .text (invoice.updatedAt.getD [])]

def exportInvoice (invoice : Invoice) : Text :=
  writeRows excel [invoiceHeader, (invoiceFields python invoice).map (·.cell python)]

/-! ## What is claimed, and what is the case -/

/-- Every field is given back as it was if it is no formula, and no cell is a formula. -/
def RoundTrip (invoice : Invoice) : Prop :=
  ∃ record, read excel (exportInvoice python invoice) = [invoiceHeader, record] ∧
    List.Forall₂ (fun field cell =>
      (triggered (field.original python) = false → cell = field.original python) ∧
        triggered cell = false) (invoiceFields python invoice) record

/-- The apostrophes that a text gets: for a formula, and for each pattern that is found. -/
def marks (val : Text) : ℕ :=
  (if triggered val then 1 else 0) + csvDangerousPatterns.countP (found · val)

/-- A cell of a text without a quote is the text with its control characters blanked, behind its
marks; no cell is a formula. -/
structure Neutralised (val cell : Text) : Prop where
  unchanged : '"' ∉ val → (∀ c ∈ val, isControl c = false) → triggered val = false →
    (∀ r ∈ csvDangerousPatterns, ¬Found (fun _ => false) r false val) → cell = val
  marked : '"' ∉ val → cell = List.replicate (marks (blanked val)) apostrophe ++ blanked val
  safe : triggered cell = false

def Returned : Field → Text → Prop
  | .text val, cell => Neutralised val cell
  | .amount literal, cell => cell = python.floatRepr literal

end

/-! ## Cells -/

section
variable {val : Text}

theorem triggered_apostrophe (val : Text) : triggered (apostrophe :: val) = false := by
  have hspace : isSpace apostrophe = false := by decide
  have htrigger : apostrophe ∉ formulaTriggers := by decide
  simp [triggered, hspace, htrigger]

theorem apostrophe_starts : ∀ r ∈ csvDangerousPatterns,
    ∃ p r', r = .seq (.char p) r' ∧ p apostrophe = false := by
  intro r hr
  simp only [csvDangerousPatterns, List.mem_cons, List.not_mem_nil, or_false] at hr
  rcases hr with rfl | rfl | rfl | rfl | rfl | rfl | rfl | rfl | rfl
  all_goals exact ⟨_, _, rfl, by decide⟩

/-- A mark makes no pattern be found and hides none. -/
theorem found_apostrophe {r : Pattern Char} (hr : r ∈ csvDangerousPatterns) (val : Text) :
    found r (apostrophe :: val) = found r val := by
  obtain ⟨p, r', rfl, hp⟩ := apostrophe_starts r hr
  rw [found, found, Bool.eq_iff_iff, search_iff, search_iff]
  constructor
  · intro h
    cases h with
    | here h =>
      cases h with
      | seq h h' =>
        cases h with
        | char hc => exact absurd hc (by simp [hp])
    | later h => exact h
  · exact fun h => .later h

theorem foldl_marked {rs : List (Pattern Char)} (hrs : ∀ r ∈ rs, r ∈ csvDangerousPatterns)
    (val : Text) :
    rs.foldl marked val = List.replicate (rs.countP (found · val)) apostrophe ++ val := by
  induction rs generalizing val with
  | nil => rfl
  | cons r rs ih =>
    have hrest : ∀ r ∈ rs, r ∈ csvDangerousPatterns := fun r hr => hrs r (List.mem_cons_of_mem _ hr)
    have hcount : rs.countP (found · (apostrophe :: val)) = rs.countP (found · val) :=
      List.countP_congr fun r hr => by rw [found_apostrophe (hrest r hr)]
    rw [List.foldl_cons, marked, List.countP_cons]
    split
    · rw [ih hrest, hcount, List.replicate_succ']
      simp
    · rw [ih hrest]
      simp

theorem foldl_marked_all (val : Text) : csvDangerousPatterns.foldl marked val =
    List.replicate (csvDangerousPatterns.countP (found · val)) apostrophe ++ val :=
  foldl_marked (fun _ hr => hr) val

theorem sanitizeCsv_eq (hquote : '"' ∉ val) :
    sanitizeCsv val = List.replicate (marks (blanked val)) apostrophe ++ blanked val := by
  have hdouble : (val.flatMap fun c => if c = '"' then ['"', '"'] else [c]) = val := by
    have hcells : ∀ c ∈ val, (if c = '"' then ['"', '"'] else [c]) = [c] :=
      fun c hc => if_neg (ne_of_mem_of_not_mem hc hquote)
    rw [List.flatMap_congr hcells, List.flatMap_singleton']
  by_cases hempty : val = []
  · have hnone : marks (blanked []) = 0 := by decide
    rw [sanitizeCsv, if_pos hempty, hempty, hnone]
    rfl
  · simp only [sanitizeCsv, if_neg hempty, hdouble, marks]
    split
    · have hcount : csvDangerousPatterns.countP (found · (apostrophe :: blanked val)) =
          csvDangerousPatterns.countP (found · (blanked val)) :=
        List.countP_congr fun r hr => by rw [found_apostrophe hr]
      rw [foldl_marked_all, hcount, Nat.add_comm, List.replicate_succ']
      simp
    · rw [foldl_marked_all, Nat.zero_add]

theorem blanked_eq_self (hcontrol : ∀ c ∈ val, isControl c = false) : blanked val = val := by
  have hsame : ∀ c ∈ val, (if isControl c then ' ' else c) = id c :=
    fun c hc => if_neg (by simp [hcontrol c hc])
  rw [blanked, List.map_congr_left hsame, List.map_id]

theorem triggered_marked {w : Text} (hw : triggered w = false) (n : ℕ) :
    triggered (List.replicate n apostrophe ++ w) = false := by
  cases n with
  | zero => exact hw
  | succ n => exact triggered_apostrophe _

theorem sanitizeCsv_safe (val : Text) : triggered (sanitizeCsv val) = false := by
  by_cases hempty : val = []
  · rw [sanitizeCsv, if_pos hempty, hempty]
    rfl
  · simp only [sanitizeCsv, if_neg hempty, foldl_marked_all]
    apply triggered_marked
    split
    · exact triggered_apostrophe _
    · rename_i hplain
      simpa using hplain

theorem neutralised (val : Text) : Neutralised val (sanitizeCsv val) := by
  constructor
  · intro hquote hcontrol hplain hpatterns
    have hcount : csvDangerousPatterns.countP (found · val) = 0 := by
      rw [List.countP_eq_zero]
      exact fun r hr h => hpatterns r hr (search_iff.mp h)
    rw [sanitizeCsv_eq hquote, blanked_eq_self hcontrol, marks, hcount, hplain]
    rfl
  · exact sanitizeCsv_eq
  · exact sanitizeCsv_safe val

end

/-- The export is read as the header and one record, in which the amounts are as they were and the
texts are neutralised. -/
theorem exportInvoice_returned (python : Interpreter) (invoice : Invoice) :
    ∃ record, read excel (exportInvoice python invoice) = [invoiceHeader, record] ∧
      List.Forall₂ (Returned python) (invoiceFields python invoice) record := by
  refine ⟨(invoiceFields python invoice).map (·.cell python), read_writeRows _, ?_⟩
  rw [List.forall₂_map_right_iff]
  apply List.forall₂_same.mpr
  intro field _
  cases field with
  | text val => exact neutralised val
  | amount literal => rfl

/-- A float is printed as its literal. -/
def literalPython : Interpreter where
  floatRepr literal := literal.filter (· != '\n')
  floatRepr_line literal := by simp
  scanDepth := 1000

def tableInvoice : Invoice where
  id := "4f2a".toList
  companyId := "91c0".toList
  jobId := "77d3".toList
  customerId := "0b5e".toList
  lineItems := .arr []
  subtotal := "40.5".toList
  tax := "3.25".toList
  total := "43.75".toList
  status := some "Table 4".toList
  createdAt := none
  updatedAt := none

/-- A status that mentions a table is taken for a formula. -/
theorem not_roundTrip_table : ¬RoundTrip literalPython tableInvoice := by
  rintro ⟨record, hread, hfields⟩
  rw [exportInvoice, read_writeRows] at hread
  obtain rfl := List.singleton_inj.mp (List.cons.inj hread).2
  rw [List.forall₂_map_right_iff, List.forall₂_same] at hfields
  have hstatus := (hfields (.text "Table 4".toList) (by simp [invoiceFields, tableInvoice])).1
  have hcell : sanitizeCsv "Table 4".toList ≠ "Table 4".toList := by decide
  exact hcell (hstatus (by decide))

end WorkTicket.Billing.InvoiceExport
