import WorkTicket.Foundation.KeyedLists

/-! The audit snapshots of an estimate and their differences. A snapshot is a dictionary of
JSON values, taken up to Python's `==`; a key that is missing reads as `null`. -/

namespace WorkTicket.Estimates.SnapshotDiff

open KeyedLists

/-- A dictionary as the list of its entries. -/
abbrev Dict (V : Type) := List (String × V)

structure Item (V : Type) where
  sortOrder : ℤ
  fields : Dict V
  deriving DecidableEq, Repr

structure Snapshot (V : Type) where
  fields : Dict V
  lineItems : List (Item V)
  deriving DecidableEq, Repr

/-- `{"from": ..., "to": ...}`. -/
structure Change (V : Type) where
  old : V
  new : V
  deriving DecidableEq, Repr

inductive Changes (V : Type)
  | changed (fields : List (String × Change V))
  | removed (old : Item V)
  | added (new : Item V)
  deriving DecidableEq, Repr

structure ItemDiff (V : Type) where
  sortOrder : ℤ
  changes : Changes V
  deriving DecidableEq, Repr

/-- The keys of the returned dictionary: the scalar fields, `line_items` and `ai_generated`. -/
structure Diff (V : Type) where
  fields : List (String × Change V)
  lineItems : List (ItemDiff V)
  aiGenerated : Option (Change V)
  deriving DecidableEq, Repr

def Diff.isEmpty {V : Type} (d : Diff V) : Bool :=
  d.fields.isEmpty && d.lineItems.isEmpty && d.aiGenerated.isNone

def scalarFields : List String :=
  ["title", "description", "subtotal", "tax", "total", "confidence_score", "notes", "status"]

def itemFields : List String := ["name", "item_type", "quantity", "rate", "total"]

section
variable {V : Type} (null : V)

/-- `d.get(field)`. -/
def get (d : Dict V) (field : String) : V := (d.lookup field).getD null

/-! ## The snapshot of an estimate -/

/-- The columns of `estimates` that a snapshot has. -/
structure EstimateColumns (V : Type) where
  status : V
  title : V
  description : V
  subtotal : V
  tax : V
  total : V
  confidenceScore : V
  assumptions : V
  notes : V
  aiGenerated : V

structure LineItemColumns (V : Type) where
  name : V
  itemType : V
  quantity : V
  rate : V
  total : V
  sortOrder : ℤ
  aiQuantity : V
  aiRate : V
  aiTotal : V
  overrideReason : V

def buildItem (li : LineItemColumns V) : Item V where
  sortOrder := li.sortOrder
  fields := [("name", li.name), ("item_type", li.itemType), ("quantity", li.quantity),
    ("rate", li.rate), ("total", li.total), ("ai_quantity", li.aiQuantity),
    ("ai_rate", li.aiRate), ("ai_total", li.aiTotal), ("override_reason", li.overrideReason)]

def buildEstimateSnapshot (estimate : EstimateColumns V) (lineItems : List (LineItemColumns V)) :
    Snapshot V where
  fields := [("status", estimate.status), ("title", estimate.title),
    ("description", estimate.description), ("subtotal", estimate.subtotal), ("tax", estimate.tax),
    ("total", estimate.total), ("confidence_score", estimate.confidenceScore),
    ("assumptions", estimate.assumptions), ("notes", estimate.notes),
    ("ai_generated", estimate.aiGenerated)]
  lineItems := lineItems.map buildItem

/-! ## The difference of two snapshots -/

section
variable [DecidableEq V]

def fieldChange (old new : Dict V) (field : String) : Option (Change V) :=
  if get null old field ≠ get null new field then
    some ⟨get null old field, get null new field⟩
  else none

def changedFields (fields : List String) (old new : Dict V) : List (String × Change V) :=
  fields.filterMap fun field => (fieldChange null old new field).map fun c => (field, c)

/-- The entry of one sort order. -/
def itemDiff (previous current : Snapshot V) (k : ℤ) : Option (ItemDiff V) :=
  match find Item.sortOrder previous.lineItems k, find Item.sortOrder current.lineItems k with
  | some p, some c =>
    let itemChanges := changedFields null itemFields p.fields c.fields
    if itemChanges = [] then none else some ⟨k, .changed itemChanges⟩
  | some p, none => some ⟨k, .removed p⟩
  | none, some c => some ⟨k, .added c⟩
  | none, none => none

/-- The sort orders of both snapshots, in their order. -/
def allKeys (previous current : Snapshot V) : List ℤ :=
  ((previous.lineItems ++ current.lineItems).map Item.sortOrder).dedup.insertionSort (· ≤ ·)

def computeSnapshotDiff (previous current : Snapshot V) : Diff V where
  fields := changedFields null scalarFields previous.fields current.fields
  lineItems := (allKeys previous current).filterMap (itemDiff null previous current)
  aiGenerated := fieldChange null previous.fields current.fields "ai_generated"

end

/-! ## Applying a difference -/

def setField (d : Dict V) (field : String) (v : V) : Dict V :=
  (field, v) :: d.filter (·.1 ≠ field)

def applyChanges (changes : List (String × Change V)) (d : Dict V) : Dict V :=
  changes.foldl (fun d c => setField d c.1 c.2.new) d

/-- What is left of an item of the previous snapshot. -/
def patchItem (diffs : List (ItemDiff V)) (i : Item V) : Option (Item V) :=
  match diffs.find? fun e => e.sortOrder = i.sortOrder with
  | none => some i
  | some e =>
    match e.changes with
    | .changed changes => some { i with fields := applyChanges changes i.fields }
    | .removed _ => none
    | .added _ => some i

def addedItem (e : ItemDiff V) : Option (Item V) :=
  match e.changes with
  | .added new => some new
  | _ => none

def applyDiff (d : Diff V) (s : Snapshot V) : Snapshot V where
  fields := applyChanges (d.fields ++ (d.aiGenerated.map fun c => ("ai_generated", c)).toList)
    s.fields
  lineItems := s.lineItems.filterMap (patchItem d.lineItems) ++ d.lineItems.filterMap addedItem

/-! ## What the law is about -/

/-- A line item as it is compared: its place and its five fields. -/
def reading (i : Item V) : ℤ × List V := (i.sortOrder, itemFields.map (get null i.fields))

def comparedFields : List String := scalarFields ++ ["ai_generated"]

/-- The snapshots are equal on the compared fields and on their line items. -/
def Agree (a b : Snapshot V) : Prop :=
  (∀ field ∈ comparedFields, get null a.fields field = get null b.fields field) ∧
    (a.lineItems.map (reading null)).Perm (b.lineItems.map (reading null))

/-! ## Fields -/

variable {null}

theorem get_setField (d : Dict V) (field : String) (v : V) (other : String) :
    get null (setField d field v) other = if other = field then v else get null d other := by
  have hfilter : other ≠ field → (d.filter (·.1 ≠ field)).lookup other = d.lookup other := by
    intro hne
    induction d with
    | nil => rfl
    | cons e d ih =>
      by_cases hkey : e.1 = field
      · have hother : (other == e.1) = false := beq_false_of_ne (hkey ▸ hne)
        rw [List.filter_cons_of_neg (by simpa using hkey), ih, List.lookup_cons, hother]
      · rw [List.filter_cons_of_pos (by simpa using hkey), List.lookup_cons, List.lookup_cons, ih]
  unfold get setField
  rw [List.lookup_cons]
  by_cases h : other = field
  · simp [h]
  · rw [beq_false_of_ne h, if_neg h]
    simp only [hfilter h]

/-- Where every new value is that of `new`, the listed fields are those of `new`. -/
theorem get_applyChanges {changes : List (String × Change V)} {new : Dict V} {field : String}
    (hnew : ∀ c ∈ changes, c.2.new = get null new c.1) (d : Dict V) :
    get null (applyChanges changes d) field =
      if field ∈ changes.map Prod.fst then get null new field else get null d field := by
  induction changes generalizing d with
  | nil => rfl
  | cons c changes ih =>
    have hrest := ih (fun c' hc' => hnew c' (List.mem_cons_of_mem c hc')) (setField d c.1 c.2.new)
    rw [applyChanges, List.foldl_cons]
    refine hrest.trans ?_
    rw [get_setField, hnew c (List.mem_cons_self ..)]
    by_cases hlater : field ∈ changes.map Prod.fst
    · simp [hlater]
    · by_cases hhere : field = c.1
      · simp [hhere]
      · simp [hlater, hhere]

section
variable [DecidableEq V] {old new : Dict V} {fields : List String}

theorem fieldChange_eq_none {field : String} :
    fieldChange null old new field = none ↔ get null old field = get null new field := by
  simp [fieldChange]

theorem changedFields_eq_nil :
    changedFields null fields old new = [] ↔
      ∀ field ∈ fields, get null old field = get null new field := by
  simp only [changedFields, List.filterMap_eq_nil_iff, Option.map_eq_none_iff, fieldChange_eq_none]

theorem new_of_mem {c : String × Change V} (hc : c ∈ changedFields null fields old new) :
    c.2.new = get null new c.1 := by
  obtain ⟨field, -, hchange⟩ := List.mem_filterMap.mp hc
  obtain ⟨change, hsome, rfl⟩ := Option.map_eq_some_iff.mp hchange
  rw [fieldChange] at hsome
  split at hsome
  · obtain rfl := Option.some.inj hsome
    rfl
  · cases hsome

theorem get_patched {field : String} (hfield : field ∈ fields) :
    get null (applyChanges (changedFields null fields old new) old) field = get null new field := by
  rw [get_applyChanges fun c hc => new_of_mem hc]
  split
  · rfl
  · rename_i hnot
    rw [← fieldChange_eq_none]
    cases hchange : fieldChange null old new field with
    | none => rfl
    | some c =>
      refine absurd (List.mem_map.mpr ⟨(field, c), ?_, rfl⟩) hnot
      exact List.mem_filterMap.mpr ⟨field, hfield, by rw [hchange]; rfl⟩

end

/-! ## Line items -/

section
variable {previous current : Snapshot V} {k : ℤ}

theorem reading_eq_iff {i j : Item V} : reading null i = reading null j ↔
    i.sortOrder = j.sortOrder ∧
      ∀ field ∈ itemFields, get null i.fields field = get null j.fields field := by
  rw [reading, reading, Prod.mk.injEq, List.map_inj_left]

theorem mem_allKeys : k ∈ allKeys previous current ↔
    (∃ i ∈ previous.lineItems, i.sortOrder = k) ∨ ∃ i ∈ current.lineItems, i.sortOrder = k := by
  rw [allKeys, List.mem_insertionSort, List.mem_dedup, List.map_append, List.mem_append,
    List.mem_map, List.mem_map]

theorem allKeys_nodup : (allKeys previous current).Nodup :=
  (List.perm_insertionSort _ _).nodup_iff.mpr (List.nodup_dedup _)

theorem patchItem_sortOrder {diffs : List (ItemDiff V)} {p x : Item V}
    (h : patchItem diffs p = some x) : x.sortOrder = p.sortOrder := by
  unfold patchItem at h
  split at h
  · obtain rfl := Option.some.inj h
    rfl
  · split at h
    · obtain rfl := Option.some.inj h
      rfl
    · cases h
    · obtain rfl := Option.some.inj h
      rfl

theorem readings_perm_iff {a b : Snapshot V} (ha : Distinct Item.sortOrder a.lineItems)
    (hb : Distinct Item.sortOrder b.lineItems) :
    (a.lineItems.map (reading null)).Perm (b.lineItems.map (reading null)) ↔
      ∀ k, (find Item.sortOrder a.lineItems k).map (reading null) =
        (find Item.sortOrder b.lineItems k).map (reading null) :=
  perm_map_iff (fun _ _ h => congrArg Prod.fst h) ha hb

variable [DecidableEq V]

theorem itemDiff_sortOrder {e : ItemDiff V} (h : itemDiff null previous current k = some e) :
    e.sortOrder = k := by
  unfold itemDiff at h
  split at h
  · simp only at h
    split at h
    · cases h
    · obtain rfl := Option.some.inj h
      rfl
  · obtain rfl := Option.some.inj h
    rfl
  · obtain rfl := Option.some.inj h
    rfl
  · cases h

theorem itemDiff_eq_none : itemDiff null previous current k = none ↔
    (find Item.sortOrder previous.lineItems k).map (reading null) =
      (find Item.sortOrder current.lineItems k).map (reading null) := by
  unfold itemDiff
  cases hp : find Item.sortOrder previous.lineItems k with
  | none =>
    cases hc : find Item.sortOrder current.lineItems k with
    | none => simp
    | some c => simp
  | some p =>
    cases hc : find Item.sortOrder current.lineItems k with
    | none => simp
    | some c =>
      have hkey : p.sortOrder = c.sortOrder := (mem_of_find hp).2.trans (mem_of_find hc).2.symm
      have hnil : changedFields null itemFields p.fields c.fields = [] ↔
          reading null p = reading null c := by
        rw [changedFields_eq_nil, reading_eq_iff, and_iff_right hkey]
      rw [Option.map_some, Option.map_some, Option.some.injEq, ← hnil]
      by_cases hsame : changedFields null itemFields p.fields c.fields = []
      · simp [hsame]
      · simp [hsame]

theorem find?_itemDiffs (i : Item V) (hi : i ∈ previous.lineItems) :
    (computeSnapshotDiff null previous current).lineItems.find?
        (fun e => e.sortOrder = i.sortOrder) =
      itemDiff null previous current i.sortOrder := by
  have hkey : i.sortOrder ∈ allKeys previous current := mem_allKeys.mpr (.inl ⟨i, hi, rfl⟩)
  rw [computeSnapshotDiff, find?_filterMap fun k e he => itemDiff_sortOrder he, if_pos hkey]

/-- An item of both snapshots is patched to read as the current one. -/
theorem patchItem_some {p c : Item V} (hp : find Item.sortOrder previous.lineItems k = some p)
    (hc : find Item.sortOrder current.lineItems k = some c) :
    ∃ x, patchItem (computeSnapshotDiff null previous current).lineItems p = some x ∧
      reading null x = reading null c := by
  obtain ⟨hmem, hkey⟩ := mem_of_find hp
  have hckey := (mem_of_find hc).2
  have hdiff : itemDiff null previous current k =
      if changedFields null itemFields p.fields c.fields = [] then none
      else some ⟨k, .changed (changedFields null itemFields p.fields c.fields)⟩ := by
    simp only [itemDiff, hp, hc]
  rw [patchItem, find?_itemDiffs p hmem, hkey, hdiff]
  by_cases hsame : changedFields null itemFields p.fields c.fields = []
  · rw [if_pos hsame]
    refine ⟨p, rfl, ?_⟩
    rw [reading_eq_iff]
    exact ⟨hkey.trans hckey.symm, changedFields_eq_nil.mp hsame⟩
  · rw [if_neg hsame]
    refine ⟨_, rfl, ?_⟩
    rw [reading_eq_iff]
    exact ⟨hckey.symm, fun field hfield => get_patched hfield⟩

theorem patchItem_none {p : Item V} (hp : find Item.sortOrder previous.lineItems k = some p)
    (hc : find Item.sortOrder current.lineItems k = none) :
    patchItem (computeSnapshotDiff null previous current).lineItems p = none := by
  obtain ⟨hmem, hkey⟩ := mem_of_find hp
  have hdiff : itemDiff null previous current k = some ⟨k, .removed p⟩ := by
    simp only [itemDiff, hp, hc]
  rw [patchItem, find?_itemDiffs p hmem, hkey, hdiff]

theorem addedItem_eq_some {x : Item V} :
    (itemDiff null previous current k).bind addedItem = some x ↔
      find Item.sortOrder previous.lineItems k = none ∧
        find Item.sortOrder current.lineItems k = some x := by
  unfold itemDiff
  cases find Item.sortOrder previous.lineItems k with
  | none =>
    cases find Item.sortOrder current.lineItems k with
    | none => simp
    | some c => simp [addedItem]
  | some p =>
    cases find Item.sortOrder current.lineItems k with
    | none => simp [addedItem]
    | some c =>
      simp only [reduceCtorEq, false_and, iff_false]
      split <;> simp [addedItem]

theorem addedItems_eq : (computeSnapshotDiff null previous current).lineItems.filterMap addedItem =
    (allKeys previous current).filterMap fun k =>
      (itemDiff null previous current k).bind addedItem := by
  rw [computeSnapshotDiff, List.filterMap_filterMap]

theorem mem_addedItems {x : Item V} :
    x ∈ (computeSnapshotDiff null previous current).lineItems.filterMap addedItem ↔
      find Item.sortOrder previous.lineItems x.sortOrder = none ∧
        find Item.sortOrder current.lineItems x.sortOrder = some x := by
  rw [addedItems_eq, List.mem_filterMap]
  simp only [addedItem_eq_some]
  constructor
  · rintro ⟨k, -, hp, hc⟩
    obtain ⟨-, rfl⟩ := mem_of_find hc
    exact ⟨hp, hc⟩
  · rintro ⟨hp, hc⟩
    exact ⟨x.sortOrder, mem_allKeys.mpr (.inr ⟨x, (mem_of_find hc).1, rfl⟩), hp, hc⟩

theorem applied_distinct (hprevious : Distinct Item.sortOrder previous.lineItems) :
    Distinct Item.sortOrder
      (applyDiff (computeSnapshotDiff null previous current) previous).lineItems := by
  refine Distinct.append (hprevious.filterMap fun p x h => patchItem_sortOrder h) ?_ ?_
  · rw [addedItems_eq]
    refine distinct_filterMap (fun k x hx => ?_) allKeys_nodup
    exact (mem_of_find (addedItem_eq_some.mp hx).2).2
  · intro x hx y hy hkey
    obtain ⟨p, hp, hpatched⟩ := List.mem_filterMap.mp hx
    have hnone := (mem_addedItems.mp hy).1
    exact find_eq_none.mp hnone p hp ((patchItem_sortOrder hpatched).symm.trans hkey)

/-- Under every sort order the patched snapshot reads as the current one. -/
theorem find_applied (hprevious : Distinct Item.sortOrder previous.lineItems) (k : ℤ) :
    (find Item.sortOrder
        (applyDiff (computeSnapshotDiff null previous current) previous).lineItems k).map
        (reading null) =
      (find Item.sortOrder current.lineItems k).map (reading null) := by
  have hdistinct : Distinct Item.sortOrder
      (applyDiff (computeSnapshotDiff null previous current) previous).lineItems :=
    applied_distinct hprevious
  have hmem : ∀ x, x ∈ (applyDiff (computeSnapshotDiff null previous current) previous).lineItems ↔
      (∃ p ∈ previous.lineItems,
        patchItem (computeSnapshotDiff null previous current).lineItems p = some x) ∨
      find Item.sortOrder previous.lineItems x.sortOrder = none ∧
        find Item.sortOrder current.lineItems x.sortOrder = some x := fun x => by
    rw [applyDiff, List.mem_append, List.mem_filterMap, mem_addedItems]
  cases hc : find Item.sortOrder current.lineItems k with
  | none =>
    -- nothing of this sort order is kept or added
    have hnone : find Item.sortOrder
        (applyDiff (computeSnapshotDiff null previous current) previous).lineItems k = none := by
      rw [find_eq_none]
      rintro x hx rfl
      rcases (hmem x).mp hx with ⟨p, hp, hpatched⟩ | ⟨-, hadded⟩
      · have hfound : find Item.sortOrder previous.lineItems x.sortOrder = some p :=
          hprevious.find_eq_some.mpr ⟨hp, (patchItem_sortOrder hpatched).symm⟩
        rw [patchItem_none hfound hc] at hpatched
        cases hpatched
      · rw [hc] at hadded
        cases hadded
    rw [hnone]
  | some c =>
    obtain ⟨-, hkey⟩ := mem_of_find hc
    cases hp : find Item.sortOrder previous.lineItems k with
    | none =>
      have hadded : c ∈
          (applyDiff (computeSnapshotDiff null previous current) previous).lineItems :=
        (hmem c).mpr (.inr ⟨by rw [hkey, hp], by rw [hkey, hc]⟩)
      rw [hdistinct.find_eq_some.mpr ⟨hadded, hkey⟩]
    | some p =>
      have hpatch : ∃ x, patchItem (computeSnapshotDiff null previous current).lineItems p = some x ∧
          reading null x = reading null c := patchItem_some hp hc
      obtain ⟨x, hpatched, hreading⟩ := hpatch
      have hx : x ∈ (applyDiff (computeSnapshotDiff null previous current) previous).lineItems :=
        (hmem x).mpr (.inl ⟨p, (mem_of_find hp).1, hpatched⟩)
      have hxkey : x.sortOrder = k := (congrArg Prod.fst hreading).trans hkey
      rw [hdistinct.find_eq_some.mpr ⟨hx, hxkey⟩, Option.map_some, Option.map_some, hreading]

theorem lineItems_eq_nil : (computeSnapshotDiff null previous current).lineItems = [] ↔
    ∀ k, (find Item.sortOrder previous.lineItems k).map (reading null) =
      (find Item.sortOrder current.lineItems k).map (reading null) := by
  simp only [computeSnapshotDiff, List.filterMap_eq_nil_iff, itemDiff_eq_none]
  refine ⟨fun h k => ?_, fun h k _ => h k⟩
  by_cases hk : k ∈ allKeys previous current
  · exact h k hk
  · obtain ⟨hp, hc⟩ := not_or.mp (mt mem_allKeys.mpr hk)
    have hpnone : find Item.sortOrder previous.lineItems k = none :=
      find_eq_none.mpr fun i hi hkey => hp ⟨i, hi, hkey⟩
    have hcnone : find Item.sortOrder current.lineItems k = none :=
      find_eq_none.mpr fun i hi hkey => hc ⟨i, hi, hkey⟩
    rw [hpnone, hcnone]

theorem fields_eq : (computeSnapshotDiff null previous current).fields ++
      ((computeSnapshotDiff null previous current).aiGenerated.map
        fun c => ("ai_generated", c)).toList =
    changedFields null comparedFields previous.fields current.fields := by
  rw [comparedFields, changedFields, List.filterMap_append]
  congr 1

theorem isEmpty_iff : (computeSnapshotDiff null previous current).isEmpty = true ↔
    changedFields null comparedFields previous.fields current.fields = [] ∧
      (computeSnapshotDiff null previous current).lineItems = [] := by
  rw [← fields_eq, List.append_eq_nil_iff, Option.toList_eq_nil_iff, Option.map_eq_none_iff]
  simp only [Diff.isEmpty, Bool.and_eq_true, List.isEmpty_iff, Option.isNone_iff_eq_none]
  exact and_right_comm

/-- The difference of two snapshots turns the first into the second, and is empty exactly if
they agree. -/
theorem diff_patches (hprevious : Distinct Item.sortOrder previous.lineItems)
    (hcurrent : Distinct Item.sortOrder current.lineItems) :
    Agree null (applyDiff (computeSnapshotDiff null previous current) previous) current ∧
      ((computeSnapshotDiff null previous current).isEmpty = true ↔
        Agree null previous current) := by
  constructor
  · refine ⟨fun field hfield => ?_, ?_⟩
    · rw [applyDiff, fields_eq]
      exact get_patched hfield
    · rw [readings_perm_iff (applied_distinct hprevious) hcurrent]
      exact find_applied hprevious
  · rw [isEmpty_iff, changedFields_eq_nil, lineItems_eq_nil, Agree,
      readings_perm_iff hprevious hcurrent]

end

theorem build_distinct (estimate : EstimateColumns V) {lineItems : List (LineItemColumns V)}
    (h : Distinct LineItemColumns.sortOrder lineItems) :
    Distinct Item.sortOrder (buildEstimateSnapshot estimate lineItems).lineItems := by
  rw [Distinct, buildEstimateSnapshot, List.map_map]
  exact h

end

/-! ## An edited estimate -/

def lineItem (name quantity total : String) (sortOrder : ℤ) : LineItemColumns String :=
  ⟨name, "material", quantity, "10.0", total, sortOrder, "null", "null", "null", "null"⟩

def generated : Snapshot String :=
  buildEstimateSnapshot
    ⟨"draft", "Tap", "null", "30.0", "0.0", "30.0", "0.9", "[]", "null", "true"⟩
    [lineItem "valve" "1.0" "10.0" 0, lineItem "pipe" "2.0" "20.0" 1]

def edited : Snapshot String :=
  buildEstimateSnapshot
    ⟨"in_review", "Tap", "null", "40.0", "0.0", "40.0", "0.9", "[]", "null", "false"⟩
    [lineItem "pipe" "3.0" "30.0" 1, lineItem "seal" "1.0" "10.0" 2]

theorem diff_patches_edited :
    Agree "null" (applyDiff (computeSnapshotDiff "null" generated edited) generated) edited ∧
      ((computeSnapshotDiff "null" generated edited).isEmpty = true ↔
        Agree "null" generated edited) :=
  diff_patches (build_distinct _ (by decide)) (build_distinct _ (by decide))

example : computeSnapshotDiff "null" generated edited =
    ⟨[("subtotal", ⟨"30.0", "40.0"⟩), ("total", ⟨"30.0", "40.0"⟩),
        ("status", ⟨"draft", "in_review"⟩)],
      [⟨0, .removed (buildItem (lineItem "valve" "1.0" "10.0" 0))⟩,
        ⟨1, .changed [("quantity", ⟨"2.0", "3.0"⟩), ("total", ⟨"20.0", "30.0"⟩)]⟩,
        ⟨2, .added (buildItem (lineItem "seal" "1.0" "10.0" 2))⟩],
      some ⟨"true", "false"⟩⟩ := by decide

end WorkTicket.Estimates.SnapshotDiff
