import RequestBoard.Fault
import RequestBoard.Record.Path
import RequestBoard.View.Row

/-!
# The request store

The store keeps one record per request id and the order in which the ids were first seen.  A document
for an id that is already known is laid over the stored record: its fields replace the fields of the
same name, each as a whole, and all other fields stay.  `Store.merge` applies the registry batch and
then the agent batch to an empty store.
-/

namespace RequestBoard

/-- The record with the fields of a later document laid over it. -/
def Record.overlay (record doc : Record) : Record := record ∪ doc

/-- Merged records by request id, and the ids in the order in which they were first seen. -/
structure Store where
  order : List String
  records : Std.ExtTreeMap String Record

namespace Store

/-- The store that holds nothing. -/
def empty : Store := ⟨[], ∅⟩

instance : EmptyCollection Store := ⟨empty⟩

/-! ## Access -/

/-- The record of an id. -/
def get? (store : Store) (id : String) : Option Record := store.records[id]?

/-- The number of records. -/
def size (store : Store) : Nat := store.order.length

/-- Whether there are no records. -/
def isEmpty (store : Store) : Bool := store.order.isEmpty

/-- The ids in the order in which they were first seen. -/
def ids (store : Store) : List String := store.order

/-- The records with their ids, in the order of `ids`. -/
def toList (store : Store) : List (String × Record) :=
  store.order.filterMap fun id => (store.get? id).map fun record => (id, record)

/-- The records in the order of `ids`. -/
def list (store : Store) : List Record := store.toList.map (·.2)

/-! ## Updates -/

/-- Inserts a document under a new id, or lays it over the record of a known one. -/
def update (store : Store) (id : String) (doc : Record) : Store :=
  match store.get? id with
  | some record => { store with records := store.records.insert id (record.overlay doc) }
  | none => { order := store.order ++ [id], records := store.records.insert id doc }

/-- The id and the document that a row of a batch brings in; an absent or null document is empty.
The batch and the row's position in it serve the error. -/
def entry (batch : String) (index : Nat) (row : View.Row) : Except Fault (String × Record) :=
  match row.id with
  | none => .error (.missingIdentifier batch index)
  | some id => match row.doc with
    | none => .ok (id, ∅)
    | some .null => .ok (id, ∅)
    | some (.object members) => .ok (id, Json.membersOf members)
    | some _ => .error (.invalidRecord id)

/-- Applies rows in order, the first of them at position `index` of its batch.  The first row that
brings in nothing ends the work; the rows before it stay applied. -/
def updateFrom (batch : String) : (index : Nat) → Store → List View.Row → Store × Except Fault Unit
  | _, store, [] => (store, .ok ())
  | index, store, row :: rest => match entry batch index row with
    | .ok (id, doc) => updateFrom batch (index + 1) (store.update id doc) rest
    | .error fault => (store, .error fault)

/-- Applies a batch of rows to the store. -/
def updateBulk (store : Store) (batch : String) (rows : List View.Row) :
    Store × Except Fault Unit :=
  updateFrom batch 0 store rows

/-! ## Merging two batches -/

/-- The name of the registry batch in error messages. -/
def primaryBatch : String := "primary"

/-- The name of the agent batch in error messages. -/
def secondaryBatch : String := "secondary"

/-- The store of the registry batch with the agent batch applied after it. -/
def merge (primary secondary : List View.Row) : Except Fault Store := do
  let (store, outcome) := empty.updateBulk primaryBatch primary
  outcome
  let (store, outcome) := store.updateBulk secondaryBatch secondary
  outcome
  return store

end Store

end RequestBoard
