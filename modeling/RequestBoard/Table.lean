import RequestBoard.Counter
import RequestBoard.Store

/-!
# The status table

A table has one row per request.  The first five cells of a row are fields of the record as they
stand, the other nine are the status counters.
-/

namespace RequestBoard

/-- A column of the table. -/
structure Column where
  key : String
  title : String
  deriving DecidableEq, Repr

/-- The record fields that are shown as they stand. -/
def projections : List Column :=
  [⟨"workflow", "workflow"⟩, ⟨"requestor", "requestor"⟩, ⟨"request_type", "type"⟩,
    ⟨"inputdataset", "inputdataset"⟩, ⟨"site_white_list", "site white list"⟩]

/-- The column of a counter. -/
def Counter.column (counter : Counter) : Column := ⟨counter.key, counter.title⟩

/-- All columns: the projections, then the counters. -/
def Column.all : List Column := projections ++ Counter.all.map Counter.column

/-! ## Cells -/

/-- The whole number that a binary64 is, if it is one of magnitude at most `2 ^ 53`. -/
def exactWhole? (x : Float) : Option Int :=
  let magnitude := x.abs.toUInt64
  if magnitude.toFloat == x.abs && magnitude.toNat ≤ 9007199254740992 then
    some (if x < 0 then -(magnitude.toNat : Int) else magnitude.toNat)
  else none

/-- The cell of a counter: a whole number of magnitude at most `2 ^ 53` is written as such, any other
finite number as a float, and what is not finite as null. -/
def Cell.ofFloat (x : Float) : Json := match exactWhole? x with
  | some n => .ofInt n
  | none => .ofFloat x

/-- The cells of one request. -/
structure Table.Row where
  id : String
  cells : List Json

/-- The columns and rows of a table. -/
structure Table where
  columns : List Column
  rows : List Table.Row

namespace Table

namespace Row

/-- The row of a record. -/
def ofRecord (id : String) (record : Record) : Row where
  id := id
  cells := (projections.map fun column => (record[column.key]?).getD .null) ++
    (Counters.ofRecord record).toList.map Cell.ofFloat

/-- The cell under the column of the given key, if there is such a column. -/
def cell? (row : Row) (key : String) : Option Json :=
  (Column.all.findIdx? (·.key == key)).bind fun i => row.cells[i]?

/-- The object form of a row. -/
def toJson (row : Row) : Json := .object [("cells", .array row.cells), ("id", .string row.id)]

end Row

/-- The rows of a store, in its order. -/
def rowsOf (store : Store) : List Row := store.toList.map fun (id, record) => Row.ofRecord id record

/-- The table of a store. -/
def ofStore (store : Store) : Table := ⟨Column.all, rowsOf store⟩

/-- The table of two batches. -/
def ofBatches (primary secondary : List View.Row) : Except Fault Table :=
  (Store.merge primary secondary).map ofStore

end Table

/-- The object form of a column. -/
def Column.toJson (column : Column) : Json :=
  .object [("key", .string column.key), ("title", .string column.title)]

end RequestBoard
