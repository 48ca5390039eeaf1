import WorkTicket.Foundation.Csv
import WorkTicket.Foundation.KeyedLists
import WorkTicket.Foundation.Utf8
import WorkTicket.Integrations.ImportService
import WorkTicket.Middleware.StreamSanitizer

/-! The import of a CSV file: every data row becomes a canonical record, whose external id is made
from the hash that the process has of the row's text. -/

namespace WorkTicket.Integrations.CsvImport

open WorkTicket.Transaction
open WorkTicket.KeyedLists (setEntry lookup_setEntry_self lookup_setEntry_of_ne)
open WorkTicket.Middleware.StreamSanitizer (isSpace)

abbrev Text := List Char

/-- The tables of Unicode that the interpreter uses, and which texts pydantic takes for a value of
a type other than `str`. -/
structure Env where
  lower : Text → Text
  printable : Char → Bool
  takesDecimal : Text → Bool
  takesDatetime : Text → Bool
  takesBool : Text → Bool

/-- A worker process; the hash of strings is seeded anew for each. -/
structure Process where
  hash : Text → ℤ

/-! ## Canonical records -/

inductive FieldType
  | text
  | decimal
  | datetime
  | boolean
  | listOfDicts
  | dict
  deriving DecidableEq, Repr

structure Field where
  name : String
  type : FieldType
  required : Bool
  deriving DecidableEq, Repr

def optional (type : FieldType) (name : String) : Field := ⟨name, type, false⟩

/-- The fields of the canonical models beside `external_system` and `external_id`, which are strings
that all of them require. -/
def canonicalCustomer : List Field :=
  [⟨"name", .text, true⟩] ++
    ["email", "phone", "address_line1", "address_line2", "city", "state", "postal_code", "country",
      "notes"].map (optional .text) ++ [optional .dict "raw_data"]

def canonicalInvoice : List Field :=
  ["customer_external_id", "job_external_id", "invoice_number", "status"].map (optional .text) ++
    ["subtotal", "tax", "total"].map (optional .decimal) ++ [optional .text "currency"] ++
    ["issued_date", "due_date", "paid_date"].map (optional .datetime) ++
    [optional .listOfDicts "line_items", optional .text "notes", optional .dict "raw_data"]

def canonicalJob : List Field :=
  ["customer_external_id", "title", "description", "status"].map (optional .text) ++
    ["scheduled_start", "scheduled_end"].map (optional .datetime) ++
    ["address_line1", "address_line2", "city", "state", "postal_code",
      "assigned_employee_external_id", "priority", "notes"].map (optional .text) ++
    [optional .dict "raw_data"]

def canonicalEmployee : List Field :=
  ["first_name", "last_name", "email", "phone", "role"].map (optional .text) ++
    [optional .datetime "hire_date", optional .decimal "hourly_rate",
      optional .boolean "is_active", optional .text "notes", optional .dict "raw_data"]

def canonicalAsset : List Field :=
  ["name", "asset_type", "serial_number", "status", "assigned_employee_external_id",
    "location_external_id"].map (optional .text) ++
    [optional .datetime "purchase_date", optional .text "notes", optional .dict "raw_data"]

def canonicalScheduleEvent : List Field :=
  ["title", "description"].map (optional .text) ++
    ["start_time", "end_time"].map (optional .datetime) ++
    ["employee_external_id", "job_external_id", "customer_external_id", "event_type", "status",
      "recurrence_rule", "notes"].map (optional .text) ++ [optional .dict "raw_data"]

def csvEntityTypeMap : ImportType → Option (List Field)
  | .customers => some canonicalCustomer
  | .jobs => some canonicalJob
  | .invoices => some canonicalInvoice
  | .employees => some canonicalEmployee
  | .assets => some canonicalAsset
  | .scheduleEvents => some canonicalScheduleEvent
  | .workOrders | .payments | .locations => none

abbrev Mapping := List (Text × Text)

def FieldType.takes (env : Env) : FieldType → Text → Bool
  | .text, _ => true
  | .decimal, v => env.takesDecimal v
  | .datetime, v => env.takesDatetime v
  | .boolean, v => env.takesBool v
  | .listOfDicts, _ | .dict, _ => false

def Field.accepts (env : Env) (mapped : Mapping) (f : Field) : Bool :=
  match mapped.lookup f.name.toList with
  | some v => f.type.takes env v
  | none => !f.required

/-- A validated record; a value of its model that was not given is `none`. -/
structure Record where
  externalSystem : Text
  externalId : Text
  values : List (String × Option Text)
  deriving DecidableEq, Repr

/-- `canonical_model(**mapped)`, which ignores the keys that the model does not have. -/
def canonicalModel (env : Env) (fields : List Field) (mapped : Mapping) : Option Record := do
  let externalSystem ← mapped.lookup "external_system".toList
  let externalId ← mapped.lookup "external_id".toList
  if fields.all (Field.accepts env mapped) then
    return ⟨externalSystem, externalId, fields.map fun f => (f.name, mapped.lookup f.name.toList)⟩
  else none

/-! ## The rows of a file -/

inductive Cell
  | text (value : Text)
  | none
  | rest (values : List Text)
  deriving DecidableEq, Repr

/-- A row as `csv.DictReader` gives it; the fields that have no header stand under `None`. -/
abbrev Row := List (Option Text × Cell)

def dictRow (fieldnames row : List Text) : Row :=
  let d := (fieldnames.zip row).foldl (fun d kv => setEntry (some kv.1) (.text kv.2) d) []
  if fieldnames.length < row.length then
    setEntry Option.none (.rest (row.drop fieldnames.length)) d
  else (fieldnames.drop row.length).foldl (fun d key => setEntry (some key) Cell.none d) d

/-- `file_content.decode("utf-8-sig")`. -/
def decodeSig (content : Utf8.Bytes) : Option Text :=
  (Utf8.decode content).map fun text => if text.head? = some '\uFEFF' then text.tail else text

def fieldSizeLimit : ℕ := 131072

structure Sheet where
  fieldnames : List Text
  fields : List Field
  rows : List Row

def unsupported (importType : ImportType) : String :=
  "Unsupported import type for CSV: " ++ importType.value

/-- The header and the data rows of a text; `none` is a text without a header. A row without fields
is passed over. -/
def sheetOf (importType : ImportType) (text : Text) : Except String (Option Sheet) :=
  match Csv.readLines Csv.excel fieldSizeLimit text with
  | ([], none) => .ok none
  | ([], some e) => .error e
  | (fieldnames :: records, failure) =>
    match csvEntityTypeMap importType, failure with
    | none, _ => .error (unsupported importType)
    | some _, some e => .error e
    | some fields, none =>
      .ok (some ⟨fieldnames, fields,
        (records.filter fun record => record ≠ []).map (dictRow fieldnames)⟩)

/-- What `parse` reads of a file before it maps the rows. -/
def readSheet (content : Utf8.Bytes) (importType : ImportType) : Except String (Option Sheet) :=
  match decodeSig content with
  | none => .error "'utf-8' codec can't decode the file"
  | some text => sheetOf importType text

/-! ## The text of a row -/

def hexDigits (width n : ℕ) : Text :=
  (List.range width).reverse.map fun i => Nat.digitChar (n / 16 ^ i % 16)

def reprChar (printable : Char → Bool) (quote c : Char) : Text :=
  if c = quote ∨ c = '\\' then ['\\', c]
  else if c = '\t' then ['\\', 't']
  else if c = '\n' then ['\\', 'n']
  else if c = '\r' then ['\\', 'r']
  else if c.toNat < 0x20 ∨ c.toNat = 0x7f then '\\' :: 'x' :: hexDigits 2 c.toNat
  else if c.toNat < 0x7f ∨ printable c then [c]
  else if c.toNat ≤ 0xff then '\\' :: 'x' :: hexDigits 2 c.toNat
  else if c.toNat ≤ 0xffff then '\\' :: 'u' :: hexDigits 4 c.toNat
  else '\\' :: 'U' :: hexDigits 8 c.toNat

def apostrophe : Char := Char.ofNat 0x27

/-- `repr` of a string. -/
def reprText (printable : Char → Bool) (s : Text) : Text :=
  let quote := if apostrophe ∈ s ∧ '"' ∉ s then '"' else apostrophe
  quote :: (s.flatMap (reprChar printable quote) ++ [quote])

def commaSeparated (items : List Text) : Text := [',', ' '].intercalate items

def reprCell (printable : Char → Bool) : Cell → Text
  | .text v => reprText printable v
  | .none => "None".toList
  | .rest vs => '[' :: (commaSeparated (vs.map (reprText printable)) ++ [']'])

/-- `str(row)`. -/
def strRow (printable : Char → Bool) (row : Row) : Text :=
  Char.ofNat 0x7b :: (commaSeparated (row.map fun item =>
    item.1.elim "None".toList (reprText printable) ++ [':', ' '] ++ reprCell printable item.2) ++
      [Char.ofNat 0x7d])

/-! ## Parsing -/

/-- `DEFAULT_MAPPINGS`. -/
def defaultMappings : ImportType → List (String × String)
  | .customers =>
    [("name", "name"), ("email", "email"), ("phone", "phone"), ("address", "address_line1"),
      ("city", "city"), ("state", "state"), ("zip", "postal_code"), ("zip_code", "postal_code"),
      ("postal_code", "postal_code"), ("country", "country"), ("notes", "notes"),
      ("description", "notes")]
  | .invoices =>
    [("invoice_number", "invoice_number"), ("number", "invoice_number"),
      ("customer", "customer_external_id"), ("customer_id", "customer_external_id"),
      ("subtotal", "subtotal"), ("tax", "tax"), ("total", "total"), ("amount", "total"),
      ("status", "status"), ("due_date", "due_date"), ("date", "issued_date"), ("notes", "notes")]
  | .jobs =>
    [("title", "title"), ("name", "title"), ("description", "description"), ("status", "status"),
      ("scheduled_start", "scheduled_start"), ("scheduled_end", "scheduled_end"),
      ("address", "address_line1"), ("city", "city"), ("state", "state"), ("zip", "postal_code"),
      ("customer", "customer_external_id"), ("customer_id", "customer_external_id"),
      ("assigned_to", "assigned_employee_external_id"),
      ("technician", "assigned_employee_external_id"), ("priority", "priority"),
      ("notes", "notes")]
  | .employees =>
    [("first_name", "first_name"), ("last_name", "last_name"), ("name", "first_name"),
      ("email", "email"), ("phone", "phone"), ("role", "role"), ("position", "role"),
      ("hire_date", "hire_date"), ("hourly_rate", "hourly_rate"), ("rate", "hourly_rate"),
      ("active", "is_active"), ("is_active", "is_active")]
  | .assets =>
    [("name", "name"), ("asset_name", "name"), ("type", "asset_type"),
      ("asset_type", "asset_type"), ("serial", "serial_number"),
      ("serial_number", "serial_number"), ("status", "status"),
      ("assigned_to", "assigned_employee_external_id"), ("location", "location_external_id"),
      ("purchase_date", "purchase_date"), ("notes", "notes")]
  | .scheduleEvents =>
    [("title", "title"), ("name", "title"), ("description", "description"),
      ("start", "start_time"), ("start_time", "start_time"), ("end", "end_time"),
      ("end_time", "end_time"), ("employee_id", "employee_external_id"),
      ("assigned_to", "employee_external_id"), ("job_id", "job_external_id"),
      ("customer_id", "customer_external_id"), ("type", "event_type"),
      ("event_type", "event_type"), ("status", "status"), ("notes", "notes")]
  | .workOrders | .payments | .locations => []

def strip (s : Text) : Text := (s.dropWhile isSpace).rdropWhile isSpace

def destination (env : Env) (importType : ImportType) (header : Text) : Text :=
  let hLower := strip (env.lower header)
  match ((defaultMappings importType).find? fun item => item.1.toList = hLower) with
  | some item => item.2.toList
  | none => env.lower (hLower.map fun c => if c = ' ' then '_' else c)

def autoMap (env : Env) (headers : List Text) (importType : ImportType) : Mapping :=
  headers.foldl
    (fun mapping header => setEntry header (destination env importType header) mapping) []

def applyMapping (row : Row) (mapping : Mapping) : Mapping :=
  mapping.foldl (fun mapped item =>
    match row.lookup (some item.1) with
    | some (.text v) => if strip v = [] then mapped else setEntry item.2 (strip v) mapped
    -- a list only stands under `None`, which is no key of a mapping
    | _ => mapped) []

def externalId (env : Env) (process : Process) (importType : ImportType) (row : Row) : Text :=
  ("csv_" ++ importType.value ++ "_").toList ++
    (process.hash (strRow env.printable row)).repr.toList

structure RowError where
  row : ℕ
  data : Row

section
variable (env : Env) (process : Process) (system : Text) (importType : ImportType)

/-- The record of a row, unless its model refuses it. -/
def recordOf (mapping : Mapping) (fields : List Field) (row : Row) : Option Record :=
  canonicalModel env fields (setEntry "external_id".toList (externalId env process importType row)
    (setEntry "external_system".toList system (applyMapping row mapping)))

/-- The body of the loop. -/
def parseRow (mapping : Mapping) (fields : List Field) (acc : List Record × List RowError)
    (numbered : Row × ℕ) : List Record × List RowError :=
  match recordOf env process system importType mapping fields numbered.1 with
  | some record => (acc.1 ++ [record], acc.2)
  | none => (acc.1, acc.2 ++ [⟨numbered.2, numbered.1⟩])

/-- An empty mapping is taken for none. -/
def mappingOf (columnMapping : Option Mapping) (fieldnames : List Text) : Mapping :=
  match columnMapping with
  | some (item :: mapping) => item :: mapping
  | some [] | none => autoMap env fieldnames importType

/-- `parse`; the errors of the rows are dropped. -/
def parse (content : Utf8.Bytes) (columnMapping : Option Mapping) :
    Except String (List Record) := do
  match ← readSheet content importType with
  | none => return []
  | some sheet =>
    let mapping := mappingOf env importType columnMapping sheet.fieldnames
    let parsed := (sheet.rows.zipIdx 2).foldl
      (parseRow env process system importType mapping sheet.fields) ([], [])
    return parsed.1

end

/-! ## What an import should do -/

def ids (out : Except String (List Record)) : List Text :=
  (out.toOption.getD []).map Record.externalId

/-- Every data row has its record, where the caller is not told of an error. -/
def Accounted (env : Env) (process : Process) (system : Text) (importType : ImportType)
    (content : Utf8.Bytes) (columnMapping : Option Mapping) : Prop :=
  ∀ sheet records, readSheet content importType = .ok (some sheet) →
    parse env process system importType content columnMapping = .ok records →
      List.Forall₂ (fun row record => recordOf env process system importType
        (mappingOf env importType columnMapping sheet.fieldnames) sheet.fields row = some record)
        sheet.rows records

structure Meets (env : Env) (p p' : Process) (system : Text) (importType : ImportType)
    (content : Utf8.Bytes) (columnMapping : Option Mapping) : Prop where
  stable : ids (parse env p system importType content columnMapping) =
    ids (parse env p' system importType content columnMapping)
  accounted : Accounted env p system importType content columnMapping
  accounted' : Accounted env p' system importType content columnMapping

/-- The model takes what the mapping makes of the row. -/
def accepts (env : Env) (mapping : Mapping) (fields : List Field) (row : Row) : Bool :=
  fields.all (Field.accepts env (applyMapping row mapping))

/-- All rows are accepted, and both processes have the same hash of their texts. -/
def Sound (env : Env) (p p' : Process) (importType : ImportType) (content : Utf8.Bytes)
    (columnMapping : Option Mapping) : Prop :=
  ∀ sheet, readSheet content importType = .ok (some sheet) → ∀ row ∈ sheet.rows,
    accepts env (mappingOf env importType columnMapping sheet.fieldnames) sheet.fields row = true ∧
      p.hash (strRow env.printable row) = p'.hash (strRow env.printable row)

/-! ## The record of a row -/

section
variable {env : Env} {p p' process : Process} {system : Text} {importType : ImportType}
  {content : Utf8.Bytes} {columnMapping : Option Mapping} {mapping : Mapping} {fields : List Field}
  {sheet : Sheet} {row : Row}

/-- The ids are no fields that a mapping could fill. -/
theorem name_ne {f : Field} (hfields : csvEntityTypeMap importType = some fields)
    (hf : f ∈ fields) : f.name.toList ≠ "external_id".toList ∧
      f.name.toList ≠ "external_system".toList := by
  have hnames : ∀ t, ∀ fs ∈ csvEntityTypeMap t, ∀ f ∈ fs,
      f.name.toList ≠ "external_id".toList ∧ f.name.toList ≠ "external_system".toList := by
    intro t
    cases t <;> decide
  exact hnames importType fields hfields f hf

theorem canonicalModel_eq {mapped given : Mapping} {externalSystem externalId : Text}
    (hsystem : mapped.lookup "external_system".toList = some externalSystem)
    (hid : mapped.lookup "external_id".toList = some externalId)
    (hlookup : ∀ f ∈ fields, mapped.lookup f.name.toList = given.lookup f.name.toList) :
    canonicalModel env fields mapped =
      if fields.all (Field.accepts env given) then
        some ⟨externalSystem, externalId, fields.map fun f => (f.name, given.lookup f.name.toList)⟩
      else none := by
  have hall : fields.all (Field.accepts env mapped) = fields.all (Field.accepts env given) := by
    rw [Bool.eq_iff_iff, List.all_eq_true, List.all_eq_true]
    apply forall₂_congr
    intro f hf
    rw [Field.accepts, Field.accepts, hlookup f hf]
  have hvalues : (fields.map fun f => (f.name, mapped.lookup f.name.toList)) =
      fields.map fun f => (f.name, given.lookup f.name.toList) := by
    apply List.map_congr_left
    intro f hf
    rw [hlookup f hf]
  simp only [canonicalModel, hsystem, hid, Option.bind_eq_bind, Option.bind_some, hall, hvalues,
    Option.pure_def]

theorem recordOf_eq (hfields : csvEntityTypeMap importType = some fields) :
    recordOf env process system importType mapping fields row =
      if accepts env mapping fields row then
        some ⟨system, externalId env process importType row,
          fields.map fun f => (f.name, (applyMapping row mapping).lookup f.name.toList)⟩
      else none := by
  apply canonicalModel_eq
  · rw [lookup_setEntry_of_ne (by decide), lookup_setEntry_self]
  · rw [lookup_setEntry_self]
  · intro f hf
    obtain ⟨hid, hsystem⟩ := name_ne hfields hf
    rw [lookup_setEntry_of_ne hid, lookup_setEntry_of_ne hsystem]

theorem fields_of_readSheet (h : readSheet content importType = .ok (some sheet)) :
    csvEntityTypeMap importType = some sheet.fields := by
  unfold readSheet at h
  split at h
  · cases h
  unfold sheetOf at h
  split at h
  · cases h
  · cases h
  split at h
  · cases h
  · cases h
  · rename_i fields hfields _
    cases h
    exact hfields

/-! ## The records of a file -/

theorem foldl_parseRow (numbered : List (Row × ℕ)) (acc : List Record × List RowError) :
    (numbered.foldl (parseRow env process system importType mapping fields) acc).1 =
      acc.1 ++ numbered.filterMap fun n =>
        recordOf env process system importType mapping fields n.1 := by
  induction numbered generalizing acc with
  | nil => rw [List.foldl_nil, List.filterMap_nil, List.append_nil]
  | cons n numbered ih =>
    rw [List.foldl_cons, ih, parseRow, List.filterMap_cons]
    cases recordOf env process system importType mapping fields n.1 with
    | none => rfl
    | some record => rw [List.append_assoc, List.singleton_append]

theorem parse_eq (h : readSheet content importType = .ok (some sheet)) :
    parse env process system importType content columnMapping =
      .ok (sheet.rows.filterMap (recordOf env process system importType
        (mappingOf env importType columnMapping sheet.fieldnames) sheet.fields)) := by
  have hrows : ∀ f : Row → Option Record, (sheet.rows.zipIdx 2).filterMap (fun n => f n.1) =
      sheet.rows.filterMap f := by
    intro f
    have hfst := List.zipIdx_map_fst 2 sheet.rows
    conv_rhs => rw [← hfst, List.filterMap_map]
    rfl
  unfold parse
  rw [h]
  change Except.ok _ = _
  rw [foldl_parseRow, hrows, List.nil_append]

theorem forall₂_filterMap {α β : Type*} {g : α → Option β} {as : List α} :
    List.Forall₂ (fun a b => g a = some b) as (as.filterMap g) ↔ ∀ a ∈ as, (g a).isSome = true := by
  induction as with
  | nil => simp
  | cons a as ih =>
    cases ha : g a with
    | none =>
      rw [List.filterMap_cons_none ha]
      refine iff_of_false (fun h => ?_) fun h => ?_
      · have hlength := h.length_eq
        have hle := List.length_filterMap_le g as
        rw [List.length_cons] at hlength
        omega
      · have hsome := h a List.mem_cons_self
        rw [ha] at hsome
        cases hsome
    | some b =>
      rw [List.filterMap_cons_some ha, List.forall₂_cons, ih]
      simp [ha]

theorem accounted_iff_accepts : Accounted env process system importType content columnMapping ↔
    ∀ sheet, readSheet content importType = .ok (some sheet) → ∀ row ∈ sheet.rows,
      accepts env (mappingOf env importType columnMapping sheet.fieldnames) sheet.fields row =
        true := by
  have hsheet : ∀ sheet, readSheet content importType = .ok (some sheet) →
      ((∀ records, parse env process system importType content columnMapping = .ok records →
        List.Forall₂ (fun row record => recordOf env process system importType
          (mappingOf env importType columnMapping sheet.fieldnames) sheet.fields row = some record)
          sheet.rows records) ↔ ∀ row ∈ sheet.rows, accepts env
        (mappingOf env importType columnMapping sheet.fieldnames) sheet.fields row = true) := by
    intro sheet h
    rw [parse_eq h]
    simp only [Except.ok.injEq, forall_eq']
    rw [forall₂_filterMap]
    apply forall₂_congr
    intro row _
    rw [recordOf_eq (fields_of_readSheet h)]
    split <;> simp_all
  constructor
  · intro haccounted sheet h
    exact (hsheet sheet h).mp fun records => haccounted sheet records h
  · intro haccepted sheet records h
    exact (hsheet sheet h).mpr (haccepted sheet h) records

theorem externalId_inj : externalId env p importType row = externalId env p' importType row ↔
    p.hash (strRow env.printable row) = p'.hash (strRow env.printable row) := by
  constructor
  · intro h
    exact Int.repr_injective (String.toList_injective (List.append_cancel_left h))
  · intro h
    rw [externalId, externalId, h]

theorem ids_eq (h : readSheet content importType = .ok (some sheet))
    (haccepted : ∀ row ∈ sheet.rows, accepts env
      (mappingOf env importType columnMapping sheet.fieldnames) sheet.fields row = true) :
    ids (parse env process system importType content columnMapping) =
      sheet.rows.map (externalId env process importType) := by
  have hrecords : (sheet.rows.filterMap (recordOf env process system importType
      (mappingOf env importType columnMapping sheet.fieldnames) sheet.fields)).map
        Record.externalId = sheet.rows.map (externalId env process importType) := by
    rw [List.map_filterMap, ← List.filterMap_eq_map]
    apply List.filterMap_congr
    intro row hrow
    rw [recordOf_eq (fields_of_readSheet h), if_pos (haccepted row hrow)]
    rfl
  rw [parse_eq h]
  exact hrecords

theorem ids_of_no_sheet (h : ∀ sheet, readSheet content importType ≠ .ok (some sheet)) :
    ids (parse env process system importType content columnMapping) = [] := by
  unfold parse
  cases hread : readSheet content importType with
  | error e => rfl
  | ok sheet =>
    cases sheet with
    | none => rfl
    | some sheet => exact absurd hread (h sheet)

/-- The ids are stable and no row vanishes exactly when every row is accepted and its text has the
same hash in both processes. -/
theorem meets_iff_sound : Meets env p p' system importType content columnMapping ↔
    Sound env p p' importType content columnMapping := by
  constructor
  · rintro ⟨hstable, haccounted, -⟩ sheet h row hrow
    have haccepted := accounted_iff_accepts.mp haccounted sheet h
    refine ⟨haccepted row hrow, ?_⟩
    rw [ids_eq h haccepted, ids_eq h haccepted] at hstable
    exact externalId_inj.mp (List.map_inj_left.mp hstable row hrow)
  · intro hsound
    have haccepted : ∀ sheet, readSheet content importType = .ok (some sheet) →
        ∀ row ∈ sheet.rows, accepts env
          (mappingOf env importType columnMapping sheet.fieldnames) sheet.fields row = true :=
      fun sheet h row hrow => (hsound sheet h row hrow).1
    refine ⟨?_, accounted_iff_accepts.mpr haccepted, accounted_iff_accepts.mpr haccepted⟩
    by_cases hsheet : ∃ sheet, readSheet content importType = .ok (some sheet)
    · obtain ⟨sheet, h⟩ := hsheet
      rw [ids_eq h (haccepted sheet h), ids_eq h (haccepted sheet h)]
      exact List.map_congr_left fun row hrow => externalId_inj.mpr (hsound sheet h row hrow).2
    · have hnone : ∀ sheet, readSheet content importType ≠ .ok (some sheet) :=
        fun sheet h => hsheet ⟨sheet, h⟩
      rw [ids_of_no_sheet hnone, ids_of_no_sheet hnone]

/-- With stable ids a second import of the file meets only records that it knows. -/
theorem alreadyImported_of_meets {records records' : List Record} {companyId : ℕ}
    {provider : String} {db : Db} (h : Meets env p p' system importType content columnMapping)
    (hparse : parse env p system importType content columnMapping = .ok records)
    (hparse' : parse env p' system importType content columnMapping = .ok records')
    (hlogged : ∀ r ∈ records, ∃ log ∈ db.logs, log.key =
      ⟨companyId, provider, String.ofList r.externalId, importType⟩ ∧ log.result = .success)
    {r : Record} (hr : r ∈ records') :
    ((alreadyImported companyId provider (String.ofList r.externalId) importType).run
      (begin db)).1 = .ok true := by
  have hids := h.stable
  rw [hparse, hparse'] at hids
  have hsame : records.map Record.externalId = records'.map Record.externalId := hids
  have hmem : r.externalId ∈ records.map Record.externalId := by
    rw [hsame]
    exact List.mem_map_of_mem hr
  obtain ⟨first, hfirst, hsame⟩ := List.mem_map.mp hmem
  obtain ⟨log, hlog, hkey, hsuccess⟩ := hlogged first hfirst
  have hfound : (db.logs.any fun log => log.key =
      ⟨companyId, provider, String.ofList r.externalId, importType⟩ && log.result = .success) =
        true := by
    rw [List.any_eq_true]
    refine ⟨log, hlog, ?_⟩
    rw [hkey, hsame, hsuccess]
    simp
  rw [alreadyImported, Session.run_execute]
  exact congrArg Except.ok hfound

end

/-- Customers without a name. -/
def unnamed : Text := "email\nann@example.com\n".toList

def plainEnv : Env := ⟨id, fun _ => true, fun _ => true, fun _ => true, fun _ => true⟩

theorem readSheet_unnamed : readSheet (Utf8.encode unnamed) .customers =
    .ok (some ⟨["email".toList], canonicalCustomer,
      [[(some "email".toList, .text "ann@example.com".toList)]]⟩) := by
  have hdecode : decodeSig (Utf8.encode unnamed) = some unnamed := by
    rw [decodeSig, Utf8.decode_encode]
    rfl
  rw [readSheet, hdecode]
  rfl

/-- Their only row gives neither a record nor an error. -/
theorem not_meets_unnamed : ¬∀ env p p' system importType content columnMapping,
    Meets env p p' system importType content columnMapping := by
  intro h
  have haccounted :=
    (h plainEnv ⟨fun _ => 0⟩ ⟨fun _ => 0⟩ [] .customers (Utf8.encode unnamed) none).accounted
  have haccepted := accounted_iff_accepts.mp haccounted _ readSheet_unnamed _ List.mem_cons_self
  exact absurd haccepted (by decide)

end WorkTicket.Integrations.CsvImport
