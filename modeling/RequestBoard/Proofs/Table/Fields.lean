import Mathlib.Data.List.Basic
import RequestBoard.Json.Writer
import RequestBoard.Proofs.Store.LastWriter
import RequestBoard.Proofs.Table.Lookup

/-!
# A table shows seven fields, each as it was last written

A cell is made of a few fields of a record, and a record of the last words of the rows.  Paths reach
deep into a document, but the first step of a path already fixes the field.

* `Record.AgreeOn` — two records have the same values at some fields.
* `Formula.fields`, `Formula.eval_congr` — a formula reads the fields at which its paths begin.
* `Table.shownFields`, `Table.Row.ofRecord_congr` — the seven fields of a row, and no others.
* `View.lastRecord` — the last words on some fields as a record of their own.
* `Table.rows_show_last_words` — **the rows of two merged batches**.
-/

namespace RequestBoard

/-! ## Reading a record at some fields only -/

/-- Two records that have the same values at the given fields. -/
def Record.AgreeOn (fields : List String) (record other : Record) : Prop :=
  ∀ field ∈ fields, record[field]? = other[field]?

/-- A path only looks at the field that it begins with. -/
theorem Record.resolveNumber_congr {record other : Record} {path : String}
    (h : record[(Path.ofString path).first]? = other[(Path.ofString path).first]?) (fallback : Float) :
    record.resolveNumber path fallback = other.resolveNumber path fallback := by
  have hresolve : record.resolve path .null = other.resolve path .null := by
    rw [Record.resolve, Record.resolve, Record.resolvePath, Record.resolvePath, h]
  rw [Record.resolveNumber, Record.resolveNumber, hresolve]

/-- The fields at which the paths of a formula begin. -/
def Formula.fields : Formula → List String
  | .sum paths => paths.map fun path => (Path.ofString path).first
  | .ratio numerator denominator =>
    [(Path.ofString numerator.path).first, (Path.ofString denominator.path).first]

theorem Formula.first_mem_fields {formula : Formula} {operand : Operand}
    (h : operand ∈ formula.operands) : (Path.ofString operand.path).first ∈ formula.fields := by
  cases formula with
  | sum paths =>
    obtain ⟨path, hpath, rfl⟩ := List.mem_map.1 h
    exact List.mem_map.2 ⟨path, hpath, rfl⟩
  | ratio numerator denominator =>
    rcases List.mem_pair.1 h with rfl | rfl <;> simp [Formula.fields]

/-- A formula only looks at its fields. -/
theorem Formula.eval_congr {formula : Formula} {record other : Record}
    (h : record.AgreeOn formula.fields other) : formula.eval record = formula.eval other :=
  Formula.eval_congr_of_operands fun _ hoperand =>
    Record.resolveNumber_congr (h _ (Formula.first_mem_fields hoperand)) _

/-- All counters are read off two fields of a record. -/
theorem Counter.fields_subset (counter : Counter) :
    ∀ field ∈ counter.formula.fields, field ∈ ["status", "total_jobs"] := by
  cases counter <;> decide

theorem Counters.ofRecord_congr {record other : Record}
    (h : record.AgreeOn ["status", "total_jobs"] other) :
    Counters.ofRecord record = Counters.ofRecord other :=
  Counters.ofRecord_congr_of_eval fun counter =>
    Formula.eval_congr fun field hfield => h field (counter.fields_subset field hfield)

namespace Table

/-- The fields of a record that a table shows: five of them as they stand, and the two that the
counters are read off. -/
def shownFields : List String :=
  ["workflow", "requestor", "request_type", "inputdataset", "site_white_list", "status", "total_jobs"]

/-- **No other field affects any cell.** -/
theorem Row.ofRecord_congr {record other : Record} (h : record.AgreeOn shownFields other)
    (id : String) : Row.ofRecord id record = Row.ofRecord id other := by
  have hprojections : ∀ column ∈ projections,
      (record[column.key]?).getD .null = (other[column.key]?).getD .null := by
    intro column hcolumn
    rw [h column.key ((show ∀ c ∈ projections, c.key ∈ shownFields by decide) column hcolumn)]
  have hcounters : Counters.ofRecord record = Counters.ofRecord other :=
    Counters.ofRecord_congr fun field hfield =>
      h field ((show ∀ f ∈ ["status", "total_jobs"], f ∈ shownFields by decide) field hfield)
  rw [Row.ofRecord, Row.ofRecord, hcounters, List.map_congr_left hprojections]

theorem Row.length_cells (id : String) (record : Record) :
    (Row.ofRecord id record).cells.length = 14 :=
  Row.length_cells_ofRecord id record

end Table

/-! ## The last words on some fields -/

namespace View

/-- The record of the given fields, each with its last word in the rows of an id; a field on which
there is none is left out. -/
def lastRecord (fields : List String) (rows : List Row) (id : String) : Record :=
  Json.membersOf (fields.filterMap fun field => (lastValue? rows id field).map fun value => (field, value))

theorem lookup_filterMap_map (value? : String → Option Json) (fields : List String) (field : String) :
    (fields.filterMap fun name => (value? name).map fun value => (name, value)).lookup field =
      if field ∈ fields then value? field else none := by
  induction fields with
  | nil => rfl
  | cons name fields ih =>
    by_cases h : field = name
    · subst h
      cases hvalue : value? field <;> simp [hvalue, ih]
    · have hbeq : (field == name) = false := by simpa using h
      cases hvalue : value? name <;> simp [hvalue, ih, h, List.lookup_cons, hbeq]

@[simp] theorem getElem?_lastRecord (fields : List String) (rows : List Row) (id field : String) :
    (lastRecord fields rows id)[field]? = if field ∈ fields then lastValue? rows id field else none := by
  rw [lastRecord, Json.getElem?_membersOf, Json.find?, ← List.filterMap_reverse,
    lookup_filterMap_map]
  simp

end View

namespace Table

/-! ## The rows of a store -/

/-- The rows of a store that holds rows of a view: one for each id, in the order in which the ids
first occur, made of the last words on the seven fields. -/
theorem rowsOf_of_holds {store : Store} {rows : List View.Row} (h : store.Holds rows) :
    rowsOf store = (View.distinctIds rows).map fun id =>
      Row.ofRecord id (View.lastRecord shownFields rows id) := by
  have hrow : ∀ id ∈ store.ids, (store.get? id).map (Row.ofRecord id) =
      some (Row.ofRecord id (View.lastRecord shownFields rows id)) := by
    intro id hid
    obtain ⟨record, hget, hfield⟩ := h.exists_record hid
    have hagree : record.AgreeOn shownFields (View.lastRecord shownFields rows id) := by
      intro field hmem
      rw [hfield, View.getElem?_lastRecord, if_pos hmem]
    rw [hget, Option.map_some, Row.ofRecord_congr hagree]
  rw [rowsOf, Store.toList, List.map_filterMap, ← h.ids_eq, ← List.filterMap_eq_map]
  refine List.filterMap_congr fun id hid => ?_
  rw [Option.map_map]
  exact hrow id hid

/-- Where a row of the id writes `status`, the last words on the seven fields are those on the other
six, and the last word on `status` among that row and the rows after it. -/
theorem agreeOn_of_status (before after : List View.Row) {row : View.Row} {id : String}
    (hid : row.id = some id) (hstatus : (row.field? "status").isSome = true) :
    (View.lastRecord shownFields (before ++ row :: after) id).AgreeOn shownFields
      ((View.lastRecord (shownFields.erase "status") (before ++ row :: after) id).overlay
        (View.lastRecord ["status"] (row :: after) id)) := by
  intro field hmem
  rw [Store.getElem?_overlay, View.getElem?_lastRecord, View.getElem?_lastRecord,
    View.getElem?_lastRecord, if_pos hmem]
  by_cases hfield : field = "status"
  · subst hfield
    rw [View.lastValue?_append_of_word (by simp) hid hstatus]
    simp [shownFields]
  · have hother : field ∈ shownFields.erase "status" := (List.mem_erase_of_ne hfield).2 hmem
    simp [hfield, hother]

/-- **A table shows the last words.**  The table of two merged batches has one row for each distinct
id, in the order in which the ids first occur in the registry rows followed by the agent rows.  Its
fourteen cells are those of a record that holds nothing but the seven shown fields, each with the value
of the last row that writes it, and no other field of a record can affect a cell.  Once a row writes
`status`, only that row and later ones have a say in it: of an earlier `status` no counter is left. -/
theorem rows_show_last_words {primary secondary : List View.Row} {store : Store}
    (h : Store.merge primary secondary = .ok store) :
    (ofStore store).rows = ((View.distinctIds (primary ++ secondary)).map fun id =>
      Row.ofRecord id (View.lastRecord shownFields (primary ++ secondary) id)) ∧
    ((ofStore store).rows.map (·.id)).Nodup ∧
    (∀ row ∈ (ofStore store).rows, row.cells.length = 14) ∧
    (∀ id, ∀ record other : Record, record.AgreeOn shownFields other →
      Row.ofRecord id record = Row.ofRecord id other) ∧
    (∀ before row after id, primary ++ secondary = before ++ row :: after → row.id = some id →
      (row.field? "status").isSome = true → ∀ shown ∈ (ofStore store).rows, shown.id = id →
        shown = Row.ofRecord id
          ((View.lastRecord (shownFields.erase "status") (primary ++ secondary) id).overlay
            (View.lastRecord ["status"] (row :: after) id))) := by
  have hrows : (ofStore store).rows = (View.distinctIds (primary ++ secondary)).map fun id =>
      Row.ofRecord id (View.lastRecord shownFields (primary ++ secondary) id) :=
    rowsOf_of_holds (Store.holds_of_merge h)
  have hshown : ∀ shown ∈ (ofStore store).rows,
      shown = Row.ofRecord shown.id (View.lastRecord shownFields (primary ++ secondary) shown.id) := by
    intro shown hmem
    rw [hrows] at hmem
    obtain ⟨id, -, rfl⟩ := List.mem_map.1 hmem
    rfl
  refine ⟨hrows, ?_, ?_, fun id record other hagree => Row.ofRecord_congr hagree id, ?_⟩
  · rw [hrows, List.map_map]
    simpa [Function.comp_def, Row.ofRecord] using View.nodup_distinctIds (primary ++ secondary)
  · intro shown hmem
    rw [hshown shown hmem]
    exact Row.length_cells _ _
  · rintro before row after id hsplit hid hstatus shown hmem rfl
    have hagree := agreeOn_of_status before after hid hstatus
    rw [← hsplit] at hagree
    exact (hshown shown hmem).trans (Row.ofRecord_congr hagree shown.id)

/-- A `status` without counters replaces one that has some: what had succeeded is not counted any more, and
the name of the workflow stays. -/
theorem rows_show_last_words_of_two :
    let before := View.Row.document "a" (.object [("workflow", .string "W1"),
      ("status", .object [("success", .ofNat 7)])])
    let after := View.Row.document "a" (.object [("status", .object [])])
    (∃ store, Store.merge [before] [] = .ok store ∧
      ((ofStore store).rows.map fun row => row.cells.map Json.write) =
        [["\"W1\"", "null", "null", "null", "null", "0", "0", "0", "0", "0", "7", "0", "0", "0"]]) ∧
    ∃ store, Store.merge [before] [after] = .ok store ∧
      ((ofStore store).rows.map fun row => row.cells.map Json.write) =
        [["\"W1\"", "null", "null", "null", "null", "0", "0", "0", "0", "0", "0", "0", "0", "0"]] := by
  intro before after
  have hbefore : Store.merge [before] [] = .ok ((∅ : Store).applyAll [before]) := rfl
  have hmerge : Store.merge [before] [after] = .ok ((∅ : Store).applyAll [before, after]) := rfl
  refine ⟨⟨_, hbefore, ?_⟩, _, hmerge, ?_⟩
  · rw [(rows_show_last_words hbefore).1]
    decide +kernel
  · rw [(rows_show_last_words hmerge).1]
    decide +kernel

end Table

end RequestBoard
