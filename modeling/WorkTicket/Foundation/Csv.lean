import Mathlib.Data.List.Basic

/-! Comma-separated values: the writer that quotes every field, and a reader that takes any text. -/

namespace WorkTicket.Csv

variable {α : Type*}

/-- The four symbols that mean something to the reader. -/
structure Dialect (α : Type*) where
  delimiter : α
  quote : α
  newline : α
  carriage : α
  distinct : [delimiter, quote, newline, carriage].Nodup

/-- The dialect of Python's `csv` without arguments. -/
def excel : Dialect Char := ⟨',', '"', '\n', '\r', by decide⟩

section
variable (d : Dialect α)

theorem delimiter_ne_quote : d.delimiter ≠ d.quote := by
  have hdistinct := d.distinct
  simp only [List.nodup_cons, List.mem_cons, not_or] at hdistinct
  exact hdistinct.1.1

theorem newline_ne :
    d.newline ≠ d.quote ∧ d.newline ≠ d.delimiter ∧ d.newline ≠ d.carriage := by
  have hdistinct := d.distinct
  simp only [List.nodup_cons, List.mem_cons, List.not_mem_nil, not_or] at hdistinct
  exact ⟨Ne.symm hdistinct.2.1.1, Ne.symm hdistinct.1.2.1, hdistinct.2.2.1.1⟩

theorem carriage_ne :
    d.carriage ≠ d.quote ∧ d.carriage ≠ d.delimiter := by
  have hdistinct := d.distinct
  simp only [List.nodup_cons, List.mem_cons, List.not_mem_nil, not_or] at hdistinct
  exact ⟨Ne.symm hdistinct.2.1.2.1, Ne.symm hdistinct.1.2.2.1⟩

theorem quote_ne : d.quote ≠ d.newline ∧ d.quote ≠ d.carriage :=
  ⟨(newline_ne d).1.symm, (carriage_ne d).1.symm⟩

end

section
variable [DecidableEq α] (d : Dialect α)

/-! ## Writing -/

/-- The text of a field between its quotes. -/
def double (v : List α) : List α := v.flatMap fun c => if c = d.quote then [c, c] else [c]

def quoted (text : List α) : List α := d.quote :: (text ++ [d.quote])

def joined : List (List α) → List α
  | [] => []
  | cell :: cells => cell ++ cells.flatMap (d.delimiter :: ·)

def writeRow (row : List (List α)) : List α :=
  joined d (row.map fun v => quoted d (double d v)) ++ [d.carriage, d.newline]

def writeRows (rows : List (List (List α))) : List α := rows.flatMap (writeRow d)

/-! ## Reading -/

inductive State
  | startRecord
  | skipNewline
  | startField
  | inField
  | inQuotedField
  | quoteInQuotedField

/-- The fields of the record that is being read, and the part of the next one that was read. -/
structure Reader (α : Type*) where
  state : State
  fields : List (List α)
  field : List α

def Reader.start : Reader α := ⟨.startRecord, [], []⟩

/-- The record that a symbol ends, if it ends one, and where the reader is then. -/
abbrev Step (α : Type*) := Option (List (List α)) × Reader α

def goto (r : Reader α) (state : State) : Step α := (none, { r with state })

def add (r : Reader α) (c : α) (state : State) : Step α :=
  (none, { r with state, field := r.field ++ [c] })

def saveField (r : Reader α) : Step α := (none, ⟨.startField, r.fields ++ [r.field], []⟩)

/-- A newline may follow the carriage return that ends a record. -/
def endRecord (record : List (List α)) (c : α) : Step α :=
  (some record, ⟨if c = d.carriage then .skipNewline else .startRecord, [], []⟩)

def stepStart (r : Reader α) (c : α) : Step α :=
  if c = d.newline ∨ c = d.carriage then endRecord d (r.fields ++ [r.field]) c
  else if c = d.quote then goto r .inQuotedField
  else if c = d.delimiter then saveField r
  else add r c .inField

def step (r : Reader α) (c : α) : Step α :=
  match r.state with
  | .startRecord => if c = d.newline ∨ c = d.carriage then endRecord d [] c else stepStart d r c
  | .skipNewline =>
    if c = d.newline then goto r .startRecord
    else if c = d.carriage then endRecord d [] c
    else stepStart d r c
  | .startField => stepStart d r c
  | .inField =>
    if c = d.newline ∨ c = d.carriage then endRecord d (r.fields ++ [r.field]) c
    else if c = d.delimiter then saveField r
    else add r c .inField
  | .inQuotedField =>
    if c = d.quote then goto r .quoteInQuotedField else add r c .inQuotedField
  | .quoteInQuotedField =>
    if c = d.quote then add r c .inQuotedField
    else if c = d.delimiter then saveField r
    else if c = d.newline ∨ c = d.carriage then endRecord d (r.fields ++ [r.field]) c
    else add r c .inField

/-- The records of a text; the end of the text ends the last of them. -/
def readFrom (r : Reader α) : List α → List (List (List α))
  | [] =>
    match r.state with
    | .startRecord | .skipNewline => []
    | .startField | .inField | .inQuotedField | .quoteInQuotedField => [r.fields ++ [r.field]]
  | c :: text => (step d r c).1.toList ++ readFrom (step d r c).2 text

def read (text : List α) : List (List (List α)) := readFrom d .start text

/-! ## Reading line by line -/

/-- A reader that is handed the text in lines which end with a newline: after a carriage return it
takes nothing else on the line, and a field has at most `limit` symbols. -/
def lineStep (limit : ℕ) (r : Reader α) (c : α) : Except String (Step α) :=
  match r.state with
  | .skipNewline =>
    if c = d.newline then .ok (goto r .startRecord)
    else if c = d.carriage then .ok (goto r .skipNewline)
    else .error "new-line character seen in unquoted field"
  | .startRecord | .startField | .inField | .inQuotedField | .quoteInQuotedField =>
    let s := step d r c
    if limit < s.2.field.length then
      .error ("field larger than field limit (" ++ toString limit ++ ")")
    else .ok s

/-- The records before the first error, and the error. -/
def readLinesFrom (limit : ℕ) (r : Reader α) : List α → List (List (List α)) × Option String
  | [] => (readFrom d r [], none)
  | c :: text =>
    match lineStep d limit r c with
    | .error e => ([], some e)
    | .ok s =>
      let rest := readLinesFrom limit s.2 text
      (s.1.toList ++ rest.1, rest.2)

def readLines (limit : ℕ) (text : List α) : List (List (List α)) × Option String :=
  readLinesFrom d limit .start text

end

attribute [grind =] double quoted joined writeRow goto add saveField endRecord stepStart step
  readFrom read

/-! ## What is written is read -/

section
variable [DecidableEq α] {d : Dialect α} {fields : List (List α)} {field : List α} {text : List α}

omit [DecidableEq α] in
theorem joined_cons (d : Dialect α) (cell : List α) {cells : List (List α)} (hcells : cells ≠ []) :
    joined d (cell :: cells) = cell ++ d.delimiter :: joined d cells := by
  cases cells with
  | nil => exact absurd rfl hcells
  | cons next cells => rfl

theorem double_cons (d : Dialect α) (c : α) (v : List α) :
    double d (c :: v) = (if c = d.quote then [c, c] else [c]) ++ double d v := rfl

theorem double_append (d : Dialect α) (v w : List α) :
    double d (v ++ w) = double d v ++ double d w := List.flatMap_append

theorem readFrom_double (v : List α) :
    readFrom d ⟨.inQuotedField, fields, field⟩ (double d v ++ text) =
      readFrom d ⟨.inQuotedField, fields, field ++ v⟩ text := by
  induction v generalizing field with
  | nil => simp [double]
  | cons c v ih =>
    rw [double_cons, List.append_assoc]
    have hrest : readFrom d ⟨.inQuotedField, fields, field ++ [c]⟩ (double d v ++ text) =
        readFrom d ⟨.inQuotedField, fields, field ++ c :: v⟩ text := by
      rw [ih, List.append_assoc, List.singleton_append]
    by_cases hc : c = d.quote
    · rw [if_pos hc, List.cons_append, List.cons_append, List.nil_append]
      simpa [readFrom, step, goto, add, hc] using hc ▸ hrest
    · rw [if_neg hc, List.singleton_append]
      simpa [readFrom, step, add, hc] using hrest

/-- A field that begins with a quote is read up to its closing quote. -/
theorem readFrom_quoted (v : List α) :
    readFrom d ⟨.startField, fields, []⟩ (quoted d (double d v) ++ text) =
      readFrom d ⟨.quoteInQuotedField, fields, v⟩ text := by
  have hdouble : readFrom d ⟨.inQuotedField, fields, []⟩ (double d v ++ d.quote :: text) =
      readFrom d ⟨.inQuotedField, fields, v⟩ (d.quote :: text) := readFrom_double v
  simp only [quoted, List.cons_append, List.append_assoc, List.nil_append]
  simpa [readFrom, step, stepStart, goto, quote_ne d] using hdouble

theorem read_quoted (cell : List α) :
    read d (quoted d cell ++ text) = readFrom d ⟨.startField, [], []⟩ (quoted d cell ++ text) := by
  simp [read, Reader.start, quoted, readFrom, step, stepStart, goto, quote_ne d]

theorem readFrom_delimiter (v : List α) :
    readFrom d ⟨.quoteInQuotedField, fields, v⟩ (d.delimiter :: text) =
      readFrom d ⟨.startField, fields ++ [v], []⟩ text := by
  simp [readFrom, step, saveField, delimiter_ne_quote d]

theorem readFrom_newline (v : List α) :
    readFrom d ⟨.quoteInQuotedField, fields, v⟩ (d.newline :: text) =
      (fields ++ [v]) :: read d text := by
  simp [readFrom, step, endRecord, newline_ne d, read, Reader.start]

theorem readFrom_carriage (v : List α) :
    readFrom d ⟨.quoteInQuotedField, fields, v⟩ (d.carriage :: d.newline :: text) =
      (fields ++ [v]) :: read d text := by
  simp [readFrom, step, endRecord, carriage_ne d, goto, read, Reader.start]

/-- What ends the record after a quoted field. -/
def Ends (d : Dialect α) (terminator : List α) : Prop :=
  ∀ fields v text, readFrom d ⟨.quoteInQuotedField, fields, v⟩ (terminator ++ text) =
    (fields ++ [v]) :: read d text

theorem ends_newline (d : Dialect α) : Ends d [d.newline] := fun _ v _ => readFrom_newline v

theorem ends_carriage (d : Dialect α) : Ends d [d.carriage, d.newline] :=
  fun _ v _ => readFrom_carriage v

theorem readFrom_cells {terminator : List α} (h : Ends d terminator) (v : List α)
    (row : List (List α)) :
    readFrom d ⟨.quoteInQuotedField, fields, v⟩
        ((row.map fun v => quoted d (double d v)).flatMap (d.delimiter :: ·) ++
          (terminator ++ text)) =
      (fields ++ v :: row) :: read d text := by
  induction row generalizing fields v with
  | nil => exact h fields v text
  | cons w row ih =>
    rw [List.map_cons, List.flatMap_cons, List.append_assoc, List.cons_append, readFrom_delimiter,
      readFrom_quoted, ih, List.append_assoc, List.singleton_append]

theorem read_row {terminator : List α} (h : Ends d terminator) {row : List (List α)}
    (hrow : row ≠ []) :
    read d (joined d (row.map fun v => quoted d (double d v)) ++ (terminator ++ text)) =
      row :: read d text := by
  cases row with
  | nil => exact absurd rfl hrow
  | cons v row =>
    rw [List.map_cons, joined, List.append_assoc, read_quoted, readFrom_quoted, readFrom_cells h,
      List.nil_append]

theorem read_writeRow (row : List (List α)) :
    read d (writeRow d row ++ text) = row :: read d text := by
  by_cases hrow : row = []
  · subst hrow
    simp [writeRow, joined, read, Reader.start, readFrom, step, endRecord, goto]
  · rw [writeRow, List.append_assoc]
    exact read_row (ends_carriage d) hrow

/-- The reader gives back the rows that the writer was given. -/
theorem read_writeRows (rows : List (List (List α))) : read d (writeRows d rows) = rows := by
  induction rows with
  | nil => rfl
  | cons row rows ih =>
    rw [writeRows, List.flatMap_cons, read_writeRow]
    exact congrArg _ ih

/-! ## The first record -/

/-- Neither before a record nor between two of them. -/
def State.inRecord : State → Bool
  | .startRecord | .skipNewline => false
  | .startField | .inField | .inQuotedField | .quoteInQuotedField => true

/-- In a record a symbol ends it or is read into it. -/
theorem step_inRecord {r : Reader α} (hr : r.state.inRecord = true) (c : α) :
    step d r c = endRecord d (r.fields ++ [r.field]) c ∨
      (step d r c).1 = none ∧ (step d r c).2.state.inRecord = true ∧
        r.fields <+: (step d r c).2.fields := by
  have hgoto : ∀ state : State, state.inRecord = true → (goto r state).1 = none ∧
      (goto r state).2.state.inRecord = true ∧ r.fields <+: (goto r state).2.fields :=
    fun state hstate => ⟨rfl, hstate, List.prefix_refl _⟩
  have hadd : ∀ state : State, state.inRecord = true → (add r c state).1 = none ∧
      (add r c state).2.state.inRecord = true ∧ r.fields <+: (add r c state).2.fields :=
    fun state hstate => ⟨rfl, hstate, List.prefix_refl _⟩
  have hsave : (saveField r).1 = none ∧ (saveField r).2.state.inRecord = true ∧
      r.fields <+: (saveField r).2.fields := ⟨rfl, rfl, List.prefix_append _ _⟩
  obtain ⟨state, fields, field⟩ := r
  cases state with
  | startRecord | skipNewline => cases hr
  | startField =>
    simp only [step, stepStart]
    split_ifs
    · exact .inl rfl
    · exact .inr (hgoto _ rfl)
    · exact .inr hsave
    · exact .inr (hadd _ rfl)
  | inField =>
    simp only [step]
    split_ifs
    · exact .inl rfl
    · exact .inr hsave
    · exact .inr (hadd _ rfl)
  | inQuotedField =>
    simp only [step]
    split_ifs
    · exact .inr (hgoto _ rfl)
    · exact .inr (hadd _ rfl)
  | quoteInQuotedField =>
    simp only [step]
    split_ifs
    · exact .inr (hadd _ rfl)
    · exact .inr hsave
    · exact .inl rfl
    · exact .inr (hadd _ rfl)

/-- The fields that were read stay at the front of the record. -/
theorem exists_record {r : Reader α} (hr : r.state.inRecord = true) (text : List α) :
    ∃ record records, readFrom d r text = record :: records ∧ r.fields <+: record := by
  induction text generalizing r with
  | nil =>
    refine ⟨r.fields ++ [r.field], [], ?_, List.prefix_append _ _⟩
    obtain ⟨state, fields, field⟩ := r
    cases state with
    | startRecord | skipNewline => cases hr
    | startField | inField | inQuotedField | quoteInQuotedField => rfl
  | cons c text ih =>
    rw [readFrom]
    rcases step_inRecord hr c with hend | ⟨hnone, hstate, hfields⟩
    · rw [hend]
      exact ⟨r.fields ++ [r.field], _, rfl, List.prefix_append _ _⟩
    · obtain ⟨record, records, hread, hrecord⟩ := ih hstate
      rw [hnone]
      exact ⟨record, records, hread, hfields.trans hrecord⟩

end
end WorkTicket.Csv
