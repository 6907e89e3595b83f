import RequestBoard.Json.Basic

/-!
# Rows and responses of a view

A map row carries the id of its document; a reduced row has only a key and a value.  What a row can
be looked up by in a later query is its `identifier`.
-/

namespace RequestBoard.View

/-- One row of a view. -/
structure Row where
  id : Option String := none
  key : Json := .null
  value : Json := .null
  /-- The document, if the query asked for it; a deleted document is null. -/
  doc : Option Json := none

/-- The answer to a view query. -/
structure Response where
  totalRows : Option UInt64 := none
  offset : Option UInt64 := none
  rows : List Row := []

namespace Row

/-- A row that carries a document. -/
def document (id : String) (doc : Json) : Row := { id := some id, doc := some doc }

/-- A reduced row. -/
def reduced (key value : Json) : Row := { key := key, value := value }

/-- What a follow-up query can look the row up by: its id, or else its key, unless that is null. -/
def identifier? (row : Row) : Option Json :=
  match row.id with
  | some id => some (.string id)
  | none => if row.key.isNull then none else some row.key

end Row

/-- The identifiers of rows, in row order. -/
def identifiers (rows : List Row) : List Json := rows.filterMap Row.identifier?

end RequestBoard.View
