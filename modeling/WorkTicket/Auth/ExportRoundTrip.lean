import WorkTicket.Auth.ComplianceExport

/-! What is read from the export: the line of a row is taken apart into its fields exactly if they
are plain. -/

namespace WorkTicket.Auth.ComplianceExport

open WorkTicket.Csv WorkTicket.TextSplits

section
variable {a e f g p part : Text}

/-! ## Lines -/

/-- What follows a field in the text of its row. -/
def cells (gs : List Text) : Text :=
  (gs.map fun g => quoted excel (double excel g)).flatMap (',' :: ·)

/-- The text of a row behind its first opening quote. -/
def rowText (g : Text) (gs : List Text) (rest : Text) : Text :=
  double excel g ++ '"' :: (cells gs ++ rest)

theorem cells_cons (g : Text) (gs : List Text) (rest : Text) :
    cells (g :: gs) ++ rest = ',' :: '"' :: rowText g gs rest := by
  simp [cells, rowText, quoted, excel]

theorem takeWhile_cells (g : Text) (gs : List Text) (rest : Text) :
    (cells (g :: gs) ++ rest).takeWhile onLine =
      [',', '"'] ++ (rowText g gs rest).takeWhile onLine := by
  rw [cells_cons, List.takeWhile_cons_of_pos (by decide), List.takeWhile_cons_of_pos (by decide)]
  rfl

/-- No line break and no comma between quotes divides the field. -/
def Unbroken (g : Text) : Prop := (∀ c ∈ g, onLine c = true) ∧ ¬quotedComma <:+: g ++ ['"']

theorem rowText_takeWhile (hg : ∀ c ∈ g, onLine c = true) (gs : List Text) (rest : Text) :
    (rowText g gs rest).takeWhile onLine =
      double excel g ++ '"' :: (cells gs ++ rest).takeWhile onLine := by
  rw [rowText, takeWhile_double hg, List.takeWhile_cons_of_pos (by decide)]

theorem splitFrom_rowText (hg : Unbroken g) (part : Text) (gs : List Text) (rest : Text) :
    splitFrom quotedComma 0 part ((rowText g gs rest).takeWhile onLine) =
      splitFrom quotedComma 0 (part ++ double excel g)
        ('"' :: (cells gs ++ rest).takeWhile onLine) := by
  rw [rowText_takeWhile hg.1]
  exact splitFrom_double (.inr rfl) hg.2 part

theorem splitFrom_rowText_cut (hg : ¬Unbroken g) (part : Text) (gs : List Text) (rest : Text) :
    ∃ a e more, Quotes e ∧ a <+: g ∧ a ≠ g ∧
      splitFrom quotedComma 0 part ((rowText g gs rest).takeWhile onLine) =
        (part ++ double excel a ++ e) :: more := by
  by_cases hline : ∀ c ∈ g, onLine c = true
  · have hcomma : quotedComma <:+: g ++ ['"'] := by
      by_contra hcomma
      exact hg ⟨hline, hcomma⟩
    have hcut : quotedComma <:+: g ++ ('"' :: (cells gs ++ rest).takeWhile onLine).take 1 := hcomma
    obtain ⟨a, more, ha, hne, hsplit⟩ := splitFrom_double_cut (.inr rfl) hcut part
    rw [rowText_takeWhile hline]
    exact ⟨a, ['"'], more, quotes_singleton, ha, hne, hsplit⟩
  · have hstart : g.takeWhile onLine <+: g := List.takeWhile_prefix _
    have hne : g.takeWhile onLine ≠ g := fun h => hline (List.takeWhile_eq_self_iff.mp h)
    rw [rowText, takeWhile_double_cut hline, ← List.append_nil (double excel _)]
    by_cases hcomma : quotedComma <:+: g.takeWhile onLine ++ ([] : Text).take 1
    · obtain ⟨a, more, ha, hshort, hsplit⟩ := splitFrom_double_cut (.inl rfl) hcomma part
      have hlength := ha.length_le.trans_lt
        (hstart.length_le.lt_of_ne fun h => hne (hstart.eq_of_length h))
      have hcut : a ≠ g := fun h => hlength.ne (congrArg List.length h)
      exact ⟨a, ['"'], more, quotes_singleton, ha.trans hstart, hcut, hsplit⟩
    · refine ⟨g.takeWhile onLine, [], [], nofun, hstart, hne, ?_⟩
      rw [splitFrom_double (.inl rfl) hcomma, splitFrom, List.append_nil]

/-! ## Records -/

theorem stripQuotes_length (v : Text) :
    (stripQuotes ('"' :: v)).length ≤ v.length ∧ (stripQuotes (v ++ ['"'])).length ≤ v.length := by
  have hfront := stripQuotes_append quotes_singleton quotes_nil (p := v)
  have hback := stripQuotes_append quotes_nil quotes_singleton (p := v)
  rw [List.append_nil, List.singleton_append] at hfront
  rw [List.nil_append] at hback
  rw [hfront, hback]
  exact ⟨(stripQuotes_sublist v).length_le, (stripQuotes_sublist v).length_le⟩

theorem stripQuotes_eq_self :
    stripQuotes g = g ↔ g.head? ≠ some '"' ∧ g.getLast? ≠ some '"' := by
  constructor
  · intro h
    constructor
    · intro hhead
      obtain ⟨v, rfl⟩ := List.head?_eq_some_iff.mp hhead
      have hlength := (stripQuotes_length v).1
      rw [h, List.length_cons] at hlength
      omega
    · intro hlast
      obtain ⟨v, rfl⟩ := List.getLast?_eq_some_iff.mp hlast
      have hlength := (stripQuotes_length v).2
      rw [h, List.length_append, List.length_singleton] at hlength
      omega
  · rintro ⟨hhead, hlast⟩
    have hfront : g.dropWhile (· = '"') = g := by
      cases g with
      | nil => rfl
      | cons c g => exact List.dropWhile_cons_of_neg (by simpa using hhead)
    rw [stripQuotes, hfront, List.rdropWhile_eq_self_iff]
    intro hne hquote
    rw [List.getLast?_eq_some_getLast hne] at hlast
    exact hlast (congrArg some (by simpa using hquote))

theorem plain_iff : Plain g ↔ Unbroken g ∧ stripQuotes g = g := by
  rw [stripQuotes_eq_self]
  constructor
  · intro h
    exact ⟨⟨fun c hc => by simp [onLine, h.lines c hc], h.commas⟩, h.starts, h.ends⟩
  · rintro ⟨⟨hline, hcomma⟩, hstart, hend⟩
    exact ⟨fun c hc => by simpa [onLine] using hline c hc, hstart, hend, hcomma⟩

/-- What is read of the parts of a line and the text behind it, after some fields of a record. -/
def readParts (fields parts : List Text) (text : Text) : List (List Text) :=
  readFrom excel ⟨.startField, fields, []⟩ (joined excel (parts.map safePart) ++ '\n' :: text)

section
variable {v text : Text} {fields parts : List Text} {records : List (List Text)}

theorem readParts_cons (hp : safePart p = quoted excel (double excel v)) (hparts : parts ≠ []) :
    readParts fields (p :: parts) text = readParts (fields ++ [v]) parts text := by
  have hmore : parts.map safePart ≠ [] := by simpa using hparts
  rw [readParts, List.map_cons, joined_cons excel _ hmore, hp, List.append_assoc, readFrom_quoted,
    List.cons_append, readFrom_delimiter]
  rfl

theorem readParts_singleton (hp : safePart p = quoted excel (double excel v)) :
    readParts fields [p] text = (fields ++ [v]) :: read excel text := by
  rw [readParts, List.map_singleton, joined, List.flatMap_nil, List.append_nil, hp, readFrom_quoted]
  exact readFrom_newline v

/-- The field that a part is read as stands in the record. -/
theorem exists_record_of_part (hp : safePart p = quoted excel (double excel v))
    (fields parts : List Text) (text : Text) : ∃ record records,
      readParts fields (p :: parts) text = record :: records ∧ fields ++ [v] <+: record := by
  by_cases hparts : parts = []
  · subst hparts
    exact ⟨fields ++ [v], _, readParts_singleton hp, List.prefix_refl _⟩
  · rw [readParts_cons hp hparts]
    exact exists_record rfl _

/-- A part that is read back as a field, neutralised, is all of the field. -/
theorem eq_of_record {gs : List Text} (hpart : Quotes part) (he : Quotes e) (ha : a <+: g)
    (h : readParts fields ((part ++ double excel a ++ e) :: parts) text =
      (fields ++ (g :: gs).map sanitizeCsvCell) :: records) : a = g ∧ stripQuotes g = g := by
  obtain ⟨record, records', hread, hrecord⟩ :=
    exists_record_of_part (safePart_double hpart he a) fields parts text
  rw [hread] at h
  rw [(List.cons.inj h).1, List.prefix_append_right_inj] at hrecord
  exact eq_of_sanitized ha (List.cons_prefix_cons.mp hrecord).1

theorem unbroken_of_record {gs : List Text} {rest : Text} (hpart : Quotes part)
    (h : readParts fields
      (splitFrom quotedComma 0 part ((rowText g gs rest).takeWhile onLine)) text =
        (fields ++ (g :: gs).map sanitizeCsvCell) :: records) : Unbroken g := by
  by_contra hunbroken
  obtain ⟨a, e, more, he, ha, hne, hsplit⟩ := splitFrom_rowText_cut hunbroken part gs rest
  rw [hsplit] at h
  exact hne (eq_of_record hpart he ha h).1

/-- A line that is read back as its row, neutralised, is one of plain fields. -/
theorem plain_of_record {gs : List Text} {rest : Text} (hpart : Quotes part)
    (hrest : rest.takeWhile onLine = [])
    (h : readParts fields
      (splitFrom quotedComma 0 part ((rowText g gs rest).takeWhile onLine)) text =
        (fields ++ (g :: gs).map sanitizeCsvCell) :: records) : ∀ f ∈ g :: gs, Plain f := by
  induction gs generalizing g part fields with
  | nil =>
    have hunbroken := unbroken_of_record hpart h
    have hend : (cells [] ++ rest).takeWhile onLine = [] := hrest
    rw [splitFrom_rowText hunbroken, hend, splitFrom_cons (by decide), splitFrom] at h
    obtain ⟨-, hstrip⟩ := eq_of_record hpart quotes_singleton (List.prefix_refl g) h
    exact List.forall_mem_singleton.mpr (plain_iff.mpr ⟨hunbroken, hstrip⟩)
  | cons f gs ih =>
    have hunbroken := unbroken_of_record hpart h
    have hg : part ++ double excel g = part ++ double excel g ++ [] := (List.append_nil _).symm
    rw [splitFrom_rowText hunbroken, takeWhile_cells, splitFrom_quotedComma, hg] at h
    obtain ⟨-, hstrip⟩ := eq_of_record hpart quotes_nil (List.prefix_refl g) h
    have hsafe := safePart_double hpart quotes_nil g
    rw [hstrip] at hsafe
    have hrecord : fields ++ (g :: f :: gs).map sanitizeCsvCell =
        fields ++ [sanitizeCsvCell g] ++ (f :: gs).map sanitizeCsvCell := by simp
    rw [readParts_cons hsafe (splitFrom_ne_nil 0 [] _), hrecord] at h
    exact List.forall_mem_cons.mpr ⟨plain_iff.mpr ⟨hunbroken, hstrip⟩, ih quotes_nil h⟩

end

/-- The parts of the line of plain fields are the fields. -/
theorem map_safePart_rowText {gs : List Text} {rest : Text} (hpart : Quotes part)
    (hrest : rest.takeWhile onLine = []) (hplain : ∀ f ∈ g :: gs, Plain f) :
    (splitFrom quotedComma 0 part ((rowText g gs rest).takeWhile onLine)).map safePart =
      (g :: gs).map fun f => quoted excel (double excel (sanitizeCsvCell f)) := by
  obtain ⟨hunbroken, hstrip⟩ := plain_iff.mp (hplain g List.mem_cons_self)
  rw [splitFrom_rowText hunbroken]
  induction gs generalizing g part with
  | nil =>
    have hend : (cells [] ++ rest).takeWhile onLine = [] := hrest
    have hsafe := safePart_double hpart quotes_singleton g
    rw [hstrip] at hsafe
    rw [hend, splitFrom_cons (by decide), splitFrom, List.map_singleton, hsafe, List.map_singleton]
  | cons f gs ih =>
    have hnext : ∀ f' ∈ f :: gs, Plain f' := fun f' hf' => hplain f' (List.mem_cons_of_mem _ hf')
    obtain ⟨hunbroken', hstrip'⟩ := plain_iff.mp (hnext f List.mem_cons_self)
    have hsafe := safePart_double hpart quotes_nil g
    rw [hstrip, List.append_nil] at hsafe
    have hrow := ih quotes_nil hnext hunbroken' hstrip'
    rw [takeWhile_cells, splitFrom_quotedComma, List.map_cons, hsafe, splitFrom_rowText hunbroken',
      hrow]
    rfl

end

/-! ## Rows -/

section
variable {f : Text} {row : List Text} {rest text : Text}

theorem writeRow_eq (f : Text) (row : List Text) (rest : Text) :
    writeRow excel (f :: row) ++ rest = '"' :: rowText f row ('\r' :: '\n' :: rest) := by
  simp [writeRow, joined, quoted, rowText, cells, excel]

/-- The first line of the text of a row. -/
def firstLine (row : List Text) (rest : Text) : Text :=
  (writeRow excel row ++ rest).takeWhile onLine

theorem firstLine_cons (f : Text) (row : List Text) (rest : Text) :
    firstLine (f :: row) rest =
      '"' :: (rowText f row ('\r' :: '\n' :: rest)).takeWhile onLine := by
  rw [firstLine, writeRow_eq, List.takeWhile_cons_of_pos (by decide)]

theorem prefix_takeWhile {w t : Text} (hw : ∀ c ∈ w, onLine c = true) :
    w <+: t.takeWhile onLine ↔ w <+: t := by
  constructor
  · exact fun h => h.trans (List.takeWhile_prefix _)
  · rintro ⟨t, rfl⟩
    rw [List.takeWhile_append_of_pos hw]
    exact List.prefix_append _ _

theorem quotedComma_starts_firstLine (f : Text) (row : List Text) (rest : Text) :
    quotedComma <+: firstLine (f :: row) rest ↔ quotedComma <+: '"' :: (f ++ ['"']) := by
  have hline : [',', '"'].all onLine = true := by decide
  rw [firstLine_cons, quotedComma_starts, quotedComma_starts,
    prefix_takeWhile (List.all_eq_true.mp hline), rowText, comma_starts_double f (.inr rfl)]
  rfl

theorem takeWhile_end (rest : Text) : ('\r' :: '\n' :: rest).takeWhile onLine = [] := rfl

theorem splitOn_firstLine (hf : ¬quotedComma <+: '"' :: (f ++ ['"'])) (row : List Text)
    (rest : Text) : splitOn quotedComma (firstLine (f :: row) rest) =
      splitFrom quotedComma 0 ['"'] ((rowText f row ('\r' :: '\n' :: rest)).takeWhile onLine) := by
  have hnext : ¬quotedComma <+: firstLine (f :: row) rest := by
    rw [quotedComma_starts_firstLine]
    exact hf
  rw [splitOn]
  rw [firstLine_cons] at hnext ⊢
  exact splitFrom_cons hnext

/-- The line of a plain row is written again as it was, with its formulas neutralised. -/
theorem safeLine_plain (hrow : PlainRow row) (rest : Text) :
    safeLine (firstLine row rest) = joined excel
      ((row.map sanitizeCsvCell).map fun f => quoted excel (double excel f)) ++ ['\n'] := by
  cases row with
  | nil => exact hrow.elim
  | cons f row =>
    rw [safeLine, splitOn_firstLine hrow.1,
      map_safePart_rowText quotes_singleton (takeWhile_end rest) hrow.2, List.map_map]
    rfl

theorem read_parts {parts : List Text} (hparts : parts ≠ []) (text : Text) :
    read excel (joined excel (parts.map safePart) ++ '\n' :: text) = readParts [] parts text := by
  cases parts with
  | nil => exact absurd rfl hparts
  | cons p parts =>
    rw [readParts, List.map_cons, joined, List.append_assoc]
    exact read_quoted _

/-- A row whose first line is read back as it, neutralised, is plain. -/
theorem plainRow_of_record {records : List (List Text)}
    (h : read excel (safeLine (firstLine row rest) ++ text) = row.map sanitizeCsvCell :: records) :
    PlainRow row := by
  cases row with
  | nil =>
    have hline : safeLine (firstLine [] rest) = ['"', '"', '\n'] := rfl
    rw [hline] at h
    exact absurd (List.cons.inj h).1 (List.cons_ne_nil _ _)
  | cons f row =>
    have hparts : splitOn quotedComma (firstLine (f :: row) rest) ≠ [] := splitFrom_ne_nil 0 [] _
    rw [safeLine, List.append_assoc, List.singleton_append, read_parts hparts] at h
    by_cases hf : quotedComma <+: '"' :: (f ++ ['"'])
    · -- the first part is empty, but the field is not
      obtain ⟨t, ht⟩ := (quotedComma_starts_firstLine f row rest).mpr hf
      rw [splitOn, ← ht, splitFrom_separator (by decide)] at h
      have hpart : ([] : Text) = [] ++ double excel [] ++ [] := rfl
      rw [hpart] at h
      obtain ⟨rfl, -⟩ := eq_of_record quotes_nil quotes_nil List.nil_prefix h
      exact absurd hf (by decide)
    · rw [splitOn_firstLine hf] at h
      exact ⟨hf, plain_of_record quotes_singleton (takeWhile_end rest) h⟩

end

/-! ## The export -/

theorem exists_exportCsv (row : List Text) (rows : List (List Text)) :
    ∃ text, exportCsv (row :: rows) =
      safeLine (firstLine row (writeRows excel rows)) ++ text := by
  have hne : writeRow excel row ++ writeRows excel rows ≠ [] := by simp [writeRow]
  obtain ⟨lines, hlines⟩ := exists_splitLines (b := lineBreaks) hne
  refine ⟨lines.flatMap safeLine, ?_⟩
  have hrows : writeRows excel (row :: rows) = writeRow excel row ++ writeRows excel rows := rfl
  rw [exportCsv, hrows, hlines, List.flatMap_cons]
  rfl

theorem mem_double {c : Char} {v : Text} (hc : c ∈ double excel v) : c ∈ v := by
  obtain ⟨c', hc', hmem⟩ := List.mem_flatMap.mp hc
  split at hmem
  · simp only [List.mem_cons, List.not_mem_nil, or_false, or_self] at hmem
    exact hmem ▸ hc'
  · exact List.mem_singleton.mp hmem ▸ hc'

theorem onLine_writeRow {row : List Text} (hrow : ∀ g ∈ row, ∀ c ∈ g, onLine c = true) :
    ∀ c ∈ joined excel (row.map fun v => quoted excel (double excel v)), onLine c = true := by
  have hcell : ∀ g ∈ row, ∀ c ∈ quoted excel (double excel g), onLine c = true := by
    intro g hg c hc
    simp only [quoted, List.mem_cons, List.mem_append, List.not_mem_nil, or_false] at hc
    rcases hc with rfl | hc | rfl
    · decide
    · exact hrow g hg c (mem_double hc)
    · decide
  intro c hc
  cases row with
  | nil => exact absurd hc List.not_mem_nil
  | cons f row =>
    rw [List.map_cons, joined, List.mem_append] at hc
    rcases hc with hc | hc
    · exact hcell f List.mem_cons_self c hc
    · obtain ⟨cell, hmem, hc⟩ := List.mem_flatMap.mp hc
      obtain ⟨g, hg, rfl⟩ := List.mem_map.mp hmem
      rcases List.mem_cons.mp hc with rfl | hc
      · decide
      · exact hcell g (List.mem_cons_of_mem _ hg) c hc

theorem exportCsv_plain {row : List Text} (hrow : ∀ g ∈ row, Plain g) (rows : List (List Text)) :
    exportCsv (row :: rows) =
      safeLine (firstLine row (writeRows excel rows)) ++ exportCsv rows := by
  have hline := onLine_writeRow fun g hg => (plain_iff.mp (hrow g hg)).1.1
  have hrows : writeRows excel (row :: rows) =
      joined excel (row.map fun v => quoted excel (double excel v)) ++
        '\r' :: '\n' :: writeRows excel rows := by
    simp [writeRows, writeRow, excel]
  have hfirst : firstLine row (writeRows excel rows) =
      joined excel (row.map fun v => quoted excel (double excel v)) := by
    have htext : writeRow excel row ++ writeRows excel rows =
        joined excel (row.map fun v => quoted excel (double excel v)) ++
          '\r' :: '\n' :: writeRows excel rows := hrows
    rw [firstLine, htext, List.takeWhile_append_of_pos hline, takeWhile_end, List.append_nil]
  have hsplit : splitLines lineBreaks (writeRows excel (row :: rows)) =
      joined excel (row.map fun v => quoted excel (double excel v)) ::
        splitLines lineBreaks (writeRows excel rows) := by
    rw [hrows]
    exact splitLines_line fun c hc => by simpa [onLine] using hline c hc
  rw [exportCsv, hsplit, List.flatMap_cons, hfirst]
  rfl

theorem read_exportCsv (rows : List (List Text)) :
    read excel (exportCsv rows) = rows.map (·.map sanitizeCsvCell) ↔
      ∀ row ∈ rows, PlainRow row := by
  induction rows with
  | nil => exact iff_of_true rfl nofun
  | cons row rows ih =>
    rw [List.forall_mem_cons, List.map_cons]
    by_cases hrow : PlainRow row
    · have hne : row.map sanitizeCsvCell ≠ [] := by
        rintro h
        rw [List.map_eq_nil_iff.mp h] at hrow
        exact hrow
      have hplain : ∀ g ∈ row, Plain g := by
        cases row with
        | nil => exact nofun
        | cons f row => exact hrow.2
      have hread : read excel (joined excel ((row.map sanitizeCsvCell).map fun f =>
          quoted excel (double excel f)) ++ (['\n'] ++ exportCsv rows)) =
          row.map sanitizeCsvCell :: read excel (exportCsv rows) :=
        read_row (ends_newline excel) hne
      rw [exportCsv_plain hplain, safeLine_plain hrow, List.append_assoc, hread, List.cons.injEq,
        ih]
      simp only [hrow, true_and]
    · obtain ⟨text, htext⟩ := exists_exportCsv row rows
      rw [htext]
      exact iff_of_false (fun h => hrow (plainRow_of_record h)) fun h => hrow h.1

theorem sanitizeCsvCell_safe (f : Text) : ∀ c ∈ (sanitizeCsvCell f).head?, c ∉ formulaTriggers := by
  cases f with
  | nil => exact nofun
  | cons c f =>
    intro c' hc'
    rw [sanitizeCsvCell] at hc'
    split at hc'
    · obtain rfl := Option.some_inj.mp hc'
      decide
    · rename_i hc
      obtain rfl := Option.some_inj.mp hc'
      exact hc

/-- The export gives back the rows exactly if every row is plain. -/
theorem faithful_iff_plain (rows : List (List Text)) :
    Faithful rows ↔ ∀ row ∈ rows, PlainRow row := by
  constructor
  · intro h
    exact (read_exportCsv rows).mp h.records
  · intro h
    have hrecords := (read_exportCsv rows).mpr h
    refine ⟨hrecords, ?_⟩
    rw [hrecords]
    intro record hrecord field hfield
    obtain ⟨row, -, rfl⟩ := List.mem_map.mp hrecord
    obtain ⟨f, -, rfl⟩ := List.mem_map.mp hfield
    exact sanitizeCsvCell_safe f

def labels : List String :=
  ["section", "user", "job", "customer", "field", "id", "email", "name", "role", "status",
    "description", "address"]

theorem plain_label {label : String} (h : label ∈ labels) :
    Plain label.toList ∧ ¬quotedComma <+: '"' :: (label.toList ++ ['"']) := by
  have hall : ∀ label ∈ labels, label.toList.all onLine = true ∧
      label.toList.head? ≠ some '"' ∧ label.toList.getLast? ≠ some '"' ∧
      ¬quotedComma <:+: label.toList ++ ['"'] ∧
      ¬quotedComma <+: '"' :: (label.toList ++ ['"']) := by
    decide +kernel
  obtain ⟨hlines, hstarts, hends, hcommas, hfirst⟩ := hall label h
  have hline : ∀ c ∈ label.toList, lineBreaks.isBreak c = false := fun c hc => by
    simpa [onLine] using List.all_eq_true.mp hlines c hc
  exact ⟨⟨hline, hstarts, hends, hcommas⟩, hfirst⟩

theorem mem_labels {user : User} {jobs : List Job} {customers : List Customer}
    {cell : String × String × Text} (h : cell ∈ dataCells user jobs customers) :
    cell.1 ∈ labels ∧ cell.2.1 ∈ labels := by
  simp only [dataCells, List.mem_append, List.mem_flatMap, List.mem_cons, List.not_mem_nil,
    or_false] at h
  rcases h with ((rfl | rfl | rfl | rfl | rfl) | ⟨j, -, rfl | rfl | rfl | rfl⟩) |
    ⟨c, -, rfl | rfl | rfl⟩
  all_goals simp [labels]

/-- A user's data is given back exactly if every value is plain. -/
theorem faithful_dataRows (user : User) (jobs : List Job) (customers : List Customer) :
    Faithful ((dataCells user jobs customers).map dataRow) ↔
      ∀ cell ∈ dataCells user jobs customers, Plain cell.2.2 := by
  rw [faithful_iff_plain, List.forall_mem_map]
  apply forall₂_congr
  intro cell hcell
  obtain ⟨hsection, hfield⟩ := mem_labels hcell
  constructor
  · intro h
    exact h.2 _ (by simp)
  · intro h
    refine ⟨(plain_label hsection).2, ?_⟩
    intro g hg
    simp only [List.mem_cons, List.not_mem_nil, or_false] at hg
    rcases hg with rfl | rfl | rfl
    · exact (plain_label hsection).1
    · exact (plain_label hfield).1
    · exact h

/-- Plain values are read from the export. -/
theorem read_exportMyData {user : User} {jobs : List Job} {customers : List Customer}
    (h : ∀ cell ∈ dataCells user jobs customers, Plain cell.2.2) :
    read excel (exportMyData user jobs customers) =
      ((dataCells user jobs customers).map dataRow).map (·.map sanitizeCsvCell) :=
  ((faithful_dataRows user jobs customers).mpr h).records

/-- An address on two lines becomes two records. -/
theorem not_faithful_address :
    ¬Faithful [["job".toList, "address".toList, "1 Main St\nFlat 2".toList]] := by
  intro h
  have hlength := congrArg List.length h.records
  revert hlength
  decide +kernel

end WorkTicket.Auth.ComplianceExport
