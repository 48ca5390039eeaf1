import WorkTicket.Analytics.Cursors
import WorkTicket.Foundation.KeysetPaging

/-! The listing of analytics events by cursor, and a reader who follows the next cursor while events
are recorded and deleted. -/

namespace WorkTicket.Analytics.EventPages

open WorkTicket.Analytics.Cursors KeysetPaging

/-- `M` is the JSON of an event. -/
structure Event (Uuid M : Type) where
  id : Uuid
  timestamp : DateTime
  clientTimestamp : Option DateTime
  eventName : String
  userId : String
  companyId : Option Uuid
  jobId : Option Uuid
  metadata : Option M
  deriving DecidableEq

/-- How the database orders times, and ids as texts. -/
structure Columns (Uuid : Type) where
  instant : DateTime → ℤ
  uuidText : Uuid → Text
  uuid : Text → Option Uuid
  uuid_uuidText : ∀ i, uuid (uuidText i) = some i
  bar_not_mem : ∀ i, bar ∉ uuidText i
  encodable : ∀ i, Encodable (uuidText i)

structure CursorPaginationParams where
  cursor : Option Text
  pageSize : ℤ
  direction : String

structure Filters (Uuid : Type) where
  eventName : Option String
  userId : Option String
  jobId : Option Uuid

structure Response (Uuid M : Type) where
  items : List (Event Uuid M)
  nextCursor : Option Text
  prevCursor : Option Text
  pageSize : ℤ
  hasMore : Bool

inductive Failure
  | http (statusCode : ℕ) (detail : String)
  | unhandled
  deriving DecidableEq

section
variable {Uuid M : Type} [LinearOrder Uuid] (columns : Columns Uuid) (python : Python)
  (companyId : Uuid)

/-- The events are ordered by time and then by id. -/
def key (e : Event Uuid M) : ℤ ×ₗ Uuid := toLex (columns.instant e.timestamp, e.id)

/-- A filter that is not given, or is empty, lets every event pass. -/
def Filters.selects (f : Filters Uuid) (e : Event Uuid M) : Bool :=
  e.companyId = some companyId && (f.eventName.filter (· ≠ "")).all (e.eventName = ·) &&
    (f.userId.filter (· ≠ "")).all (e.userId = ·) && f.jobId.all (e.jobId = some ·)

/-- The condition that the cursor adds. Nothing can be compared to a cursor without a time, and the
database refuses what is no id. -/
def cursorCondition (direction : String) : Option Text → Except Failure (Event Uuid M → Bool)
  | none => .ok fun _ => true
  | some cursor =>
    match decodeCursor python cursor with
    | .error _ => .error (.http 400 "Invalid cursor format")
    | .ok (cursorTs, cursorId) =>
      match cursorTs, columns.uuid cursorId with
      | some ts, some i =>
        let cursorTs := columns.instant ts
        if direction = "next" then
          .ok fun e => columns.instant e.timestamp < cursorTs ∨
            columns.instant e.timestamp = cursorTs ∧ e.id < i
        else
          .ok fun e => cursorTs < columns.instant e.timestamp ∨
            columns.instant e.timestamp = cursorTs ∧ i < e.id
      | _, _ => .error .unhandled

def cursorOf (e : Event Uuid M) : Except Failure Text :=
  match encodeCursor e.timestamp (.str (columns.uuidText e.id)) with
  | .ok cursor => .ok cursor
  | .error _ => .error .unhandled

/-- The cursor of an event, if there is one and it is to be given. -/
def cursorWhen (given : Bool) : Option (Event Uuid M) → Except Failure (Option Text)
  | some e => if given then (cursorOf columns e).map some else .ok none
  | none => .ok none

/-- The events that the query returns in its order, cut to the page, and their cursors. -/
def respond (pagination : CursorPaginationParams) (rows : List (Event Uuid M)) :
    Except Failure (Response Uuid M) := do
  let given := (pagination.cursor.filter (· ≠ [])).isSome
  let hasMore := decide (pagination.pageSize < rows.length)
  let events := if hasMore then rows.take pagination.pageSize.toNat else rows
  let events := if pagination.direction = "prev" then events.reverse else events
  let last := if pagination.direction = "next" then events.getLast? else events.head?
  let first := if pagination.direction = "next" then events.head? else events.getLast?
  let nextCursor ← cursorWhen columns (hasMore || given) last
  let prevCursor ← cursorWhen columns given first
  .ok ⟨events, nextCursor, prevCursor, pagination.pageSize, hasMore⟩

/-- `list_analytics_events_cursor`, of the table as it is. -/
def listAnalyticsEventsCursor (filters : Filters Uuid) (table : List (Event Uuid M))
    (pagination : CursorPaginationParams) : Except Failure (Response Uuid M) := do
  let condition ← cursorCondition columns python pagination.direction
    (pagination.cursor.filter (· ≠ []))
  if pagination.pageSize + 1 < 0 then .error .unhandled
  else
    let rows := newestFirst (key columns)
      (table.filter fun e => filters.selects companyId e && condition e)
    respond columns pagination (rows.take (pagination.pageSize + 1).toNat)

/-- A reader who starts without a cursor and follows the next one while there is more, of the table
as it is at each request. -/
def readAll (filters : Filters Uuid) (pageSize : ℤ) : Option Text → List (List (Event Uuid M)) →
    Except Failure (List (Event Uuid M) × Bool)
  | _, [] => .ok ([], false)
  | cursor, table :: tables => do
    let response ← listAnalyticsEventsCursor columns python companyId filters table
      ⟨cursor, pageSize, "next"⟩
    if response.hasMore then do
      let rest ← readAll filters pageSize response.nextCursor tables
      .ok (response.items ++ rest.1, rest.2)
    else .ok (response.items, true)

end

section
variable {Uuid M : Type} [LinearOrder Uuid] {columns : Columns Uuid} {python : Python}
  {companyId : Uuid} {e : Event Uuid M} {o : Option (Event Uuid M)}
  {table : List (Event Uuid M)} {filters : Filters Uuid}

theorem key_lt_iff {a b : Event Uuid M} : key columns a < key columns b ↔
    columns.instant a.timestamp < columns.instant b.timestamp ∨
      columns.instant a.timestamp = columns.instant b.timestamp ∧ a.id < b.id :=
  Prod.Lex.lt_iff

/-- The time is read again as it was written. -/
def Readable (python : Python) (e : Event Uuid M) : Prop :=
  python.fromisoformat e.timestamp.isoformat = .ok e.timestamp

theorem decodeCursor_nil : decodeCursor python [] = .error (.valueError
    (codes "Invalid cursor: ".toList ++
      python.str (.valueError (codes "Invalid cursor format: ".toList)))) := rfl

omit [LinearOrder Uuid] in
theorem exists_cursor (columns : Columns Uuid) (h : Readable python e) :
    ∃ cursor, cursorOf columns e = .ok cursor ∧ cursor ≠ [] ∧
      decodeCursor python cursor = .ok (some e.timestamp, columns.uuidText e.id) := by
  have htext : (ItemId.str (columns.uuidText e.id)).text = .ok (columns.uuidText e.id) := rfl
  obtain ⟨cursor, hencode, hdecode⟩ :=
    decode_encode h htext (columns.bar_not_mem e.id) (columns.encodable e.id)
  refine ⟨cursor, by rw [cursorOf, hencode], ?_, hdecode⟩
  rintro rfl
  cases decodeCursor_nil.symm.trans hdecode

/-- The cursor lets the events after a key pass. -/
def StandsFor (M : Type) (columns : Columns Uuid) (python : Python) (cursor : Option Text)
    (k : Option (ℤ ×ₗ Uuid)) : Prop :=
  cursorCondition columns python "next" (cursor.filter (· ≠ [])) =
    .ok (after (key columns : Event Uuid M → ℤ ×ₗ Uuid) k)

theorem standsFor_none : StandsFor M columns python none none := rfl

theorem standsFor_cursor (h : Readable python e) {cursor : Text}
    (hcursor : cursorOf columns e = .ok cursor) :
    StandsFor M columns python (some cursor) (some (key columns e)) := by
  obtain ⟨cursor', hcursor', hne, hdecode⟩ := exists_cursor columns h
  obtain rfl := Except.ok.inj (hcursor.symm.trans hcursor')
  have hfilter : (some cursor).filter (· ≠ []) = some cursor := by simp [hne]
  rw [StandsFor, hfilter, cursorCondition, hdecode]
  simp only [columns.uuid_uuidText, if_true]
  refine congrArg Except.ok (funext fun b => ?_)
  exact decide_eq_decide.mpr key_lt_iff.symm

theorem exists_cursorWhen (columns : Columns Uuid) (given : Bool)
    (h : ∀ a, o = some a → Readable python a) :
    ∃ cursor, cursorWhen columns given o = .ok cursor ∧
      ∀ a, given = true → o = some a →
        StandsFor M columns python cursor (some (key columns a)) := by
  cases o with
  | none => exact ⟨none, rfl, fun a _ ha => by cases ha⟩
  | some b =>
    cases given with
    | false => exact ⟨none, rfl, fun a ha => by cases ha⟩
    | true =>
      obtain ⟨cursor, hcursor, -⟩ := exists_cursor columns (h b rfl)
      refine ⟨some cursor, by rw [cursorWhen, if_pos rfl, hcursor]; rfl, fun a _ ha => ?_⟩
      cases ha
      exact standsFor_cursor (h b rfl) hcursor

/-- The events of the company that the filters let pass. -/
def selected (companyId : Uuid) (filters : Filters Uuid) (table : List (Event Uuid M)) :
    List (Event Uuid M) :=
  table.filter (filters.selects companyId)

omit [LinearOrder Uuid] in
theorem more_rows (n : ℕ) (rows : List (Event Uuid M)) :
    decide ((n : ℤ) < (rows.take (n + 1)).length) = decide (n < rows.length) := by
  rw [List.length_take, decide_eq_decide]
  omega

omit [LinearOrder Uuid] in
/-- What is cut from one row more than a page is the page. -/
theorem cut_rows (n : ℕ) (rows : List (Event Uuid M)) :
    (if n < rows.length then (rows.take (n + 1)).take n else rows.take (n + 1)) = rows.take n := by
  split_ifs with hn
  · rw [List.take_take, min_eq_left n.le_succ]
  · rw [List.take_of_length_le (by omega), List.take_of_length_le (not_lt.mp hn)]

theorem respond_next (columns : Columns Uuid) (n : ℕ) (cursor : Option Text)
    {rows : List (Event Uuid M)} (hread : ∀ e ∈ rows, Readable python e) :
    ∃ next prev, respond columns ⟨cursor, n, "next"⟩ (rows.take (n + 1)) =
        .ok ⟨rows.take n, next, prev, n, decide (n < rows.length)⟩ ∧
      ∀ a, n < rows.length → (rows.take n).getLast? = some a →
        StandsFor M columns python next (some (key columns a)) := by
  have htake : ∀ e ∈ rows.take n, Readable python e := fun e he => hread e (List.mem_of_mem_take he)
  obtain ⟨next, hnext, hstands⟩ := exists_cursorWhen columns
    (decide (n < rows.length) || (cursor.filter (· ≠ [])).isSome)
    fun a ha => htake a (List.mem_of_getLast? ha)
  obtain ⟨prev, hprev, -⟩ := exists_cursorWhen columns (cursor.filter (· ≠ [])).isSome
    fun a ha => htake a (List.mem_of_head? ha)
  refine ⟨next, prev, ?_, fun a hn ha => hstands a ?_ ha⟩
  · unfold respond
    simp only [more_rows, Int.toNat_natCast, decide_eq_true_eq, cut_rows, if_true, String.reduceEq,
      if_false, hnext, hprev, Fallible.ok_bind]
  · rw [decide_eq_true hn, Bool.true_or]

/-- The events of a page back from a cursor come from the oldest to the newest. -/
theorem respond_prev (columns : Columns Uuid) (n : ℕ) (cursor : Option Text)
    {rows : List (Event Uuid M)} (hread : ∀ e ∈ rows, Readable python e) :
    ∃ back, respond columns ⟨cursor, n, "prev"⟩ (rows.take (n + 1)) = .ok back ∧
      back.items = (rows.take n).reverse := by
  have htake : ∀ e ∈ (rows.take n).reverse, Readable python e := fun e he =>
    hread e (List.mem_of_mem_take (List.mem_reverse.mp he))
  obtain ⟨next, hnext, -⟩ := exists_cursorWhen columns
    (decide (n < rows.length) || (cursor.filter (· ≠ [])).isSome)
    fun a ha => htake a (List.mem_of_head? ha)
  obtain ⟨prev, hprev, -⟩ := exists_cursorWhen columns (cursor.filter (· ≠ [])).isSome
    fun a ha => htake a (List.mem_of_getLast? ha)
  refine ⟨⟨(rows.take n).reverse, next, prev, n, decide (n < rows.length)⟩, ?_, rfl⟩
  unfold respond
  simp only [more_rows, Int.toNat_natCast, decide_eq_true_eq, cut_rows, if_true, String.reduceEq,
    if_false, hnext, hprev, Fallible.ok_bind]

/-- The rows that the query finds, once the condition of the cursor is known. -/
theorem list_eq (companyId : Uuid) (filters : Filters Uuid) (n : ℕ) {direction : String}
    {cursor : Option Text} {condition : Event Uuid M → Bool}
    (h : cursorCondition columns python direction (cursor.filter (· ≠ [])) = .ok condition) :
    listAnalyticsEventsCursor columns python companyId filters table ⟨cursor, n, direction⟩ =
      respond columns ⟨cursor, n, direction⟩
        ((newestFirst (key columns) ((selected companyId filters table).filter condition)).take
          (n + 1)) := by
  have hsize : ¬(n : ℤ) + 1 < 0 := by omega
  have hlimit : ((n : ℤ) + 1).toNat = n + 1 := rfl
  have hboth : (table.filter fun e => filters.selects companyId e && condition e) =
      (selected companyId filters table).filter condition := by
    rw [selected, List.filter_filter]
    simp only [Bool.and_comm]
  unfold listAnalyticsEventsCursor
  simp only [h, Fallible.ok_bind, if_neg hsize, hboth, hlimit]

theorem readable_of_query {condition : Event Uuid M → Bool}
    (hread : ∀ e ∈ table, Readable python e) :
    ∀ e ∈ newestFirst (key columns) ((selected companyId filters table).filter condition),
      Readable python e := fun e he =>
  hread e (List.mem_of_mem_filter (List.mem_of_mem_filter ((newestFirst_perm _).mem_iff.mp he)))

/-- A request with the cursor of an event gets the page after it, and the cursor of its last event
if there is more. -/
theorem list_next (companyId : Uuid) (filters : Filters Uuid) {cursor : Option Text}
    {k : Option (ℤ ×ₗ Uuid)} (n : ℕ) (hk : StandsFor M columns python cursor k)
    (hread : ∀ e ∈ table, Readable python e) :
    ∃ next prev, listAnalyticsEventsCursor columns python companyId filters table
        ⟨cursor, n, "next"⟩ =
          .ok ⟨page (key columns) n k (selected companyId filters table), next, prev, n,
            hasMore (key columns) n k (selected companyId filters table)⟩ ∧
      ∀ a, hasMore (key columns) n k (selected companyId filters table) = true →
        (page (key columns) n k (selected companyId filters table)).getLast? = some a →
          StandsFor M columns python next (some (key columns a)) := by
  obtain ⟨next, prev, hrespond, hstands⟩ := respond_next columns n cursor (readable_of_query hread)
  exact ⟨next, prev, (list_eq companyId filters n hk).trans hrespond,
    fun a hmore => hstands a (of_decide_eq_true hmore)⟩

/-- A reader gets what a walk over the selected events sees. -/
theorem readAll_eq {n : ℕ} (hn : 0 < n) {cursor : Option Text} {k : Option (ℤ ×ₗ Uuid)}
    {tables : List (List (Event Uuid M))} (hk : StandsFor M columns python cursor k)
    (hread : ∀ t ∈ tables, ∀ e ∈ t, Readable python e) :
    readAll columns python companyId filters n cursor tables =
      .ok (walk (key columns) n k (tables.map (selected companyId filters))) := by
  induction tables generalizing cursor k with
  | nil => rfl
  | cons t ts ih =>
    have ht := hread t List.mem_cons_self
    obtain ⟨next, prev, hlist, hstands⟩ := list_next companyId filters n hk ht
    rw [List.map_cons, walk]
    simp only [readAll, hlist, Fallible.ok_bind]
    split_ifs with hmore
    · obtain ⟨a, -, hlast⟩ := exists_lastKey hn hmore
      obtain ⟨b, hb, hba⟩ := Option.map_eq_some_iff.mp hlast
      have hrest := ih (hstands b hmore hb) fun t' ht' => hread t' (List.mem_cons_of_mem t ht')
      rw [hrest, hlast, ← hba]
      rfl
    · rfl

/-- What a reader can rely on, whatever is recorded and deleted between the requests. -/
structure ReadsWell (columns : Columns Uuid) (companyId : Uuid) (filters : Filters Uuid) (n : ℕ)
    (tables : List (List (Event Uuid M))) (seen : List (Event Uuid M)) (ended : Bool) : Prop where
  recorded : ∀ e ∈ seen, ∃ t ∈ tables, e ∈ selected companyId filters t
  descending : Descending (key columns) seen
  complete : ended = true → ∀ e, (∀ t ∈ tables, e ∈ selected companyId filters t) → e ∈ seen
  ends : ∀ all, (∀ t ∈ tables, selected companyId filters t ⊆ all) →
    all.length < n * tables.length → ended = true

theorem distinct_selected (columns : Columns Uuid) (companyId : Uuid) (filters : Filters Uuid)
    (h : (table.map Event.id).Nodup) : Distinct (key columns) (selected companyId filters table) := by
  have hkeys : ((table.map (key columns)).map fun k => (ofLex k).2).Nodup := by
    rwa [List.map_map]
  exact (List.Nodup.of_map _ hkeys).sublist (List.filter_sublist.map _)

theorem read_well (columns : Columns Uuid) (companyId : Uuid) (filters : Filters Uuid) {n : ℕ}
    (hn : 0 < n) {tables : List (List (Event Uuid M))}
    (hids : ∀ t ∈ tables, (t.map Event.id).Nodup)
    (hread : ∀ t ∈ tables, ∀ e ∈ t, Readable python e) :
    ∃ seen ended, readAll columns python companyId filters n none tables = .ok (seen, ended) ∧
      ReadsWell columns companyId filters n tables seen ended := by
  have hdistinct : ∀ t ∈ tables.map (selected companyId filters), Distinct (key columns) t := by
    intro t ht
    obtain ⟨table, htable, rfl⟩ := List.mem_map.mp ht
    exact distinct_selected columns companyId filters (hids table htable)
  refine ⟨_, _, readAll_eq hn standsFor_none hread, ?_, ?_, ?_, ?_⟩
  · intro e he
    obtain ⟨t, ht, het⟩ := walk_sound he
    obtain ⟨table, htable, rfl⟩ := List.mem_map.mp ht
    exact ⟨table, htable, het⟩
  · exact (walk_descending none hn hdistinct).1
  · intro hend e he
    exact walk_complete hn hdistinct hend (List.forall_mem_map.mpr he) rfl
  · intro all hall hlength
    refine walk_ends hn hdistinct (List.forall_mem_map.mpr hall) ?_
    rwa [List.length_map]

/-! ## Back from a cursor -/

/-- A request back from the cursor of an event gets the newest of the events before it. -/
theorem list_prev (columns : Columns Uuid) (companyId : Uuid) (filters : Filters Uuid) (n : ℕ)
    (he : Readable python e) (hread : ∀ e ∈ table, Readable python e) :
    ∃ cursor back, cursorOf columns e = .ok cursor ∧
      listAnalyticsEventsCursor columns python companyId filters table ⟨some cursor, n, "prev"⟩ =
        .ok back ∧ back.items =
          ((preceding (key columns) (key columns e) (selected companyId filters table)).take
            n).reverse := by
  obtain ⟨cursor, hcursor, hne, hdecode⟩ := exists_cursor columns he
  have hcondition : cursorCondition columns python "prev" ((some cursor).filter (· ≠ [])) =
      .ok (before (key columns : Event Uuid M → ℤ ×ₗ Uuid) (key columns e)) := by
    have hfilter : (some cursor).filter (· ≠ []) = some cursor := by simp [hne]
    rw [hfilter, cursorCondition, hdecode]
    simp only [columns.uuid_uuidText, String.reduceEq, if_false]
    refine congrArg Except.ok (funext fun b => ?_)
    rw [before, decide_eq_decide, key_lt_iff, eq_comm]
  obtain ⟨back, hback, hitems⟩ := respond_prev columns n (some cursor) (readable_of_query hread)
  exact ⟨cursor, back, hcursor, (list_eq companyId filters n hcondition).trans hback, hitems⟩

/-- The page before an event is the nearest one exactly if the events before it fit on it. Otherwise
it is the first page of all. -/
theorem back_from_cursor (columns : Columns Uuid) (companyId : Uuid) (filters : Filters Uuid)
    {n : ℕ} (hn : 0 < n) (hids : (table.map Event.id).Nodup) (he : Readable python e)
    (hread : ∀ e ∈ table, Readable python e) :
    ∃ cursor back first, cursorOf columns e = .ok cursor ∧
      listAnalyticsEventsCursor columns python companyId filters table ⟨some cursor, n, "prev"⟩ =
        .ok back ∧
      listAnalyticsEventsCursor columns python companyId filters table ⟨none, n, "next"⟩ =
        .ok first ∧
      (back.items = nearest (key columns) n (key columns e) (selected companyId filters table) ↔
        (preceding (key columns) (key columns e) (selected companyId filters table)).length ≤ n) ∧
      (n ≤ (preceding (key columns) (key columns e) (selected companyId filters table)).length →
        back.items = first.items.reverse) := by
  have hdistinct := distinct_selected columns companyId filters hids
  obtain ⟨cursor, back, hcursor, hback, hitems⟩ := list_prev columns companyId filters n he hread
  obtain ⟨next, prev, hfirst, -⟩ := list_next companyId filters n standsFor_none hread
  refine ⟨cursor, back, _, hcursor, hback, hfirst, ?_, fun hlength => ?_⟩
  · rw [hitems]
    exact take_reverse_eq_iff (nodup_preceding hdistinct _) hn
  · rw [hitems, take_preceding hdistinct hlength]

end

/-! ## Two ids -/

def twoIds : Columns Bool where
  instant t := if t = noon then 1704196800000000 else 0
  uuidText i := codes (if i then "9f8b6f5a-7f0e-4b0e-9a57-3c1d8e2f4a61".toList
    else "1c9e2d4b-5a6f-4c3d-8e7f-0a1b2c3d4e5f".toList)
  uuid text :=
    if text = codes "9f8b6f5a-7f0e-4b0e-9a57-3c1d8e2f4a61".toList then some true
    else if text = codes "1c9e2d4b-5a6f-4c3d-8e7f-0a1b2c3d4e5f".toList then some false else none
  uuid_uuidText := by decide
  bar_not_mem := by decide
  encodable _ := codes_valid _

def jobCreated (i : Bool) : Event Bool Unit :=
  ⟨i, noon, none, "job_created", "u1", some true, none, none⟩

theorem jobCreated_readable {i : Bool} : Readable onlyNoon (jobCreated i) := by
  have hnoon : onlyNoon.fromisoformat noon.isoformat = .ok noon := by simp only [onlyNoon, if_true]
  exact hnoon

def everyEvent : Filters Bool := ⟨none, none, none⟩

/-- An event is deleted after the first page. -/
def deletedMeanwhile : List (List (Event Bool Unit)) :=
  [[jobCreated false, jobCreated true], [jobCreated false]]

theorem read_well_deleted : ∃ seen ended,
    readAll twoIds onlyNoon true everyEvent 1 none deletedMeanwhile = .ok (seen, ended) ∧
      ReadsWell twoIds true everyEvent 1 deletedMeanwhile seen ended := by
  refine read_well twoIds true everyEvent one_pos (by decide) fun t ht e he => ?_
  have hcreated : ∀ t ∈ deletedMeanwhile, ∀ e ∈ t, ∃ i, e = jobCreated i := by decide
  obtain ⟨i, rfl⟩ := hcreated t ht e he
  exact jobCreated_readable

theorem back_from_cursor_two : ∃ cursor back first,
    cursorOf twoIds (jobCreated false) = .ok cursor ∧
      listAnalyticsEventsCursor twoIds onlyNoon true everyEvent [jobCreated false, jobCreated true]
        ⟨some cursor, 1, "prev"⟩ = .ok back ∧
      listAnalyticsEventsCursor twoIds onlyNoon true everyEvent [jobCreated false, jobCreated true]
        ⟨none, 1, "next"⟩ = .ok first ∧
      (back.items = nearest (key twoIds) 1 (key twoIds (jobCreated false))
        (selected true everyEvent [jobCreated false, jobCreated true]) ↔
          (preceding (key twoIds) (key twoIds (jobCreated false))
            (selected true everyEvent [jobCreated false, jobCreated true])).length ≤ 1) ∧
      (1 ≤ (preceding (key twoIds) (key twoIds (jobCreated false))
        (selected true everyEvent [jobCreated false, jobCreated true])).length →
          back.items = first.items.reverse) := by
  refine back_from_cursor twoIds true everyEvent one_pos (by decide) jobCreated_readable
    fun e he => ?_
  have hcreated : ∀ e ∈ [jobCreated false, jobCreated true], ∃ i, e = jobCreated i := by decide
  obtain ⟨i, rfl⟩ := hcreated e he
  exact jobCreated_readable

end WorkTicket.Analytics.EventPages
