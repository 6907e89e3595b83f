import Mathlib.Data.List.Nodup
import RequestBoard.Proofs.Counter.Formula
import RequestBoard.Table

/-!
# Every column has its cell

The columns and the cells of a row are two lists, and a cell is looked up at the position that its column
has among the columns.  That this is the cell of the column rests on the two lists being in step: the
projected fields first and then the counters, in the same order and none left out.

* `Column.nodup_keys` — no two columns have the same key.
* `Table.Row.cell?_of_getElem?` — the cell under a column is the one at its position.
* `Table.Row.cell?_of_projection`, `Table.Row.cell?_of_counter`, `Table.Row.cell?_eq_none` — what is
  found under a key.
* `Table.Row.columns_match_cells` — **the result**.
-/

namespace RequestBoard

/-! ## Columns -/

@[simp] theorem Counter.key_column (counter : Counter) : counter.column.key = counter.key := rfl

namespace Column

/-- **No two columns have the same key.** -/
theorem nodup_keys : (all.map Column.key).Nodup := by decide

/-- The column of a key is the only one that the search can stop at. -/
theorem findIdx?_key {columns : List Column} (hnodup : (columns.map Column.key).Nodup) {i : Nat}
    {column : Column} (h : columns[i]? = some column) :
    columns.findIdx? (·.key == column.key) = some i := by
  obtain ⟨hi, rfl⟩ := List.getElem?_eq_some_iff.1 h
  refine List.findIdx?_eq_some_iff_getElem.2 ⟨hi, by simp, fun j hj hkey => ?_⟩
  have hi' : i < (columns.map Column.key).length := by simpa using hi
  have hj' : j < (columns.map Column.key).length := by omega
  have hsame : (columns.map Column.key)[j] = (columns.map Column.key)[i] := by simpa using hkey
  have hindex : j = i := (List.Nodup.getElem_inj_iff hnodup).1 hsame
  omega

end Column

namespace Table.Row

/-! ## Cells -/

/-- The cells, each made for its column. -/
theorem cells_ofRecord (id : String) (record : Record) :
    (ofRecord id record).cells =
      (projections.map fun column => (record[column.key]?).getD .null) ++
        Counter.all.map fun counter => Cell.ofFloat (counter.eval record) := by
  simp only [ofRecord, Counters.toList_ofRecord, List.map_map, Function.comp_def]

theorem length_cells_ofRecord (id : String) (record : Record) :
    (ofRecord id record).cells.length = Column.all.length := by
  simp only [cells_ofRecord, Column.all, List.length_append, List.length_map]

/-- **The cell under a column is the one at its position.** -/
theorem cell?_of_getElem? (row : Row) {i : Nat} {column : Column} (h : Column.all[i]? = some column) :
    row.cell? column.key = row.cells[i]? := by
  rw [cell?, Column.findIdx?_key Column.nodup_keys h, Option.bind_some]

/-- A projected field stands as it is. -/
theorem cell?_of_projection (id : String) (record : Record) {column : Column} (h : column ∈ projections) :
    (ofRecord id record).cell? column.key = some ((record[column.key]?).getD .null) := by
  obtain ⟨i, hi, rfl⟩ := List.getElem_of_mem h
  have hcolumn : Column.all[i]? = some projections[i] := by
    rw [Column.all, List.getElem?_append_left hi, List.getElem?_eq_getElem hi]
  rw [cell?_of_getElem? _ hcolumn, cells_ofRecord, List.getElem?_append_left (by simpa using hi)]
  simp [hi]

/-- A counter stands under its own column. -/
theorem cell?_of_counter (id : String) (record : Record) (counter : Counter) :
    (ofRecord id record).cell? counter.key = some (Cell.ofFloat (counter.eval record)) := by
  obtain ⟨i, hi, rfl⟩ := List.getElem_of_mem counter.mem_all
  have hcolumn : Column.all[projections.length + i]? = some Counter.all[i].column := by
    rw [Column.all, List.getElem?_append_right (by omega), Nat.add_sub_cancel_left]
    simp [hi]
  have hcell := cell?_of_getElem? (ofRecord id record) hcolumn
  rw [cells_ofRecord, List.getElem?_append_right (by simp), List.length_map, Nat.add_sub_cancel_left] at hcell
  simpa [hi] using hcell

/-- There is nothing under any other key. -/
theorem cell?_eq_none (row : Row) {key : String} (hprojections : ∀ column ∈ projections, column.key ≠ key)
    (hcounters : ∀ counter : Counter, counter.key ≠ key) : row.cell? key = none := by
  have hnone : Column.all.findIdx? (·.key == key) = none := by
    rw [List.findIdx?_eq_none_iff]
    intro column hcolumn
    rcases List.mem_append.1 hcolumn with hmem | hmem
    · simpa using hprojections column hmem
    · obtain ⟨counter, -, rfl⟩ := List.mem_map.1 hmem
      simpa using hcounters counter
  rw [cell?, hnone, Option.bind_none]

/-- **Columns and cells match.**  A row has one cell for each column, and looking up the columns one
after the other gives the cells one after the other: no two columns have the same key, and the counters
are filled in and listed in the order of their columns.  Under the key of a projected field stands the
value of that field as it is, or null if the record has none; under the key of a counter stands the
counter of the record; under any other key there is nothing. -/
theorem columns_match_cells (id : String) (record : Record) :
    (ofRecord id record).cells.length = Column.all.length ∧
    (Column.all.map fun column => (ofRecord id record).cell? column.key) =
      (ofRecord id record).cells.map some ∧
    (Column.all.map Column.key).Nodup ∧
    (Counters.ofRecord record).toList = (Counter.all.map fun counter => counter.eval record) ∧
    ∀ key,
      (∀ column ∈ projections, column.key = key →
        (ofRecord id record).cell? key = some ((record[key]?).getD .null)) ∧
      (∀ counter : Counter, counter.key = key →
        (ofRecord id record).cell? key = some (Cell.ofFloat (counter.eval record))) ∧
      ((∀ column ∈ projections, column.key ≠ key) → (∀ counter : Counter, counter.key ≠ key) →
        (ofRecord id record).cell? key = none) := by
  have hlength := length_cells_ofRecord id record
  refine ⟨hlength, ?_, Column.nodup_keys, Counters.toList_ofRecord record, fun key => ⟨?_, ?_, ?_⟩⟩
  · refine List.ext_getElem (by simp [hlength]) fun i hi hi' => ?_
    have hcolumn : i < Column.all.length := by simpa using hi
    have hcell : i < (ofRecord id record).cells.length := by omega
    have hfound := cell?_of_getElem? (ofRecord id record) (List.getElem?_eq_getElem hcolumn)
    simpa [hcell] using hfound
  · rintro column hcolumn rfl
    exact cell?_of_projection id record hcolumn
  · rintro counter rfl
    exact cell?_of_counter id record counter
  · exact fun hprojections hcounters => cell?_eq_none _ hprojections hcounters

/-- A record with an empty name and a zero, which stand as they are. -/
theorem columns_match_cells_of_falsy :
    let record : Record := Json.membersOf
      [("workflow", .string ""), ("requestor", .number (.whole 0 (by decide)))]
    (∃ column ∈ projections, column.key = "workflow") ∧
      (ofRecord "r" record).cell? "workflow" = some (.string "") ∧
      (ofRecord "r" record).cell? "requestor" = some (.number (.whole 0 (by decide))) ∧
      (ofRecord "r" record).cell? "inputdataset" = some .null ∧
      (ofRecord "r" record).cell? "cool_off" = some (Cell.ofFloat (Counter.coolOff.eval record)) ∧
      (∀ column ∈ projections, column.key ≠ "status") ∧ (∀ counter : Counter, counter.key ≠ "status") ∧
      (ofRecord "r" record).cell? "status" = none := by
  intro record
  have hprojected : ∀ key ∈ ["workflow", "requestor", "inputdataset"],
      ∃ column ∈ projections, column.key = key := by decide
  have hprojections : ∀ column ∈ projections, column.key ≠ "status" := by decide
  have hcounters : ∀ counter : Counter, counter.key ≠ "status" := by
    intro counter
    cases counter <;> decide
  obtain ⟨-, -, -, -, hcells⟩ := columns_match_cells "r" record
  obtain ⟨workflow, hworkflow, hname⟩ := hprojected "workflow" (by simp)
  obtain ⟨requestor, hrequestor, hname'⟩ := hprojected "requestor" (by simp)
  obtain ⟨dataset, hdataset, hname''⟩ := hprojected "inputdataset" (by simp)
  exact ⟨⟨workflow, hworkflow, hname⟩, (hcells "workflow").1 workflow hworkflow hname,
    (hcells "requestor").1 requestor hrequestor hname',
    (hcells "inputdataset").1 dataset hdataset hname'', (hcells "cool_off").2.1 .coolOff rfl,
    hprojections, hcounters, (hcells "status").2.2 hprojections hcounters⟩

end Table.Row

end RequestBoard
