import RequestBoard.Json.Reader
import RequestBoard.View.Row

/-!
# The JSON form of rows and responses

A row is an object with the members `id`, `key`, `value` and `doc`, or an array of these four values
in this order; a response likewise has `total_rows`, `offset` and `rows`.  Missing members take their
defaults, and an array may end early.  Both are written as objects.

A text is read more strictly than a value: a known member must not be repeated.  And it is read more
loosely: a member that is not known is checked for its grammar alone.
-/

namespace RequestBoard.View

/-- The members of a row, in the order of the array form. -/
def rowFields : List String := ["id", "key", "value", "doc"]

/-- The members of a response, in the order of the array form. -/
def responseFields : List String := ["total_rows", "offset", "rows"]

/-- The members that a value in object or array form holds. -/
def fieldsOf? (names : List String) : Json → Option (List (String × Json))
  | .object members => some members
  | .array items => if items.length ≤ names.length then some (names.zip items) else none
  | _ => none

/-- A value or nothing, null counting as nothing. -/
def optional? {α : Type} (decode : Json → Option α) : Option Json → Option (Option α)
  | none => some none
  | some .null => some none
  | some value => (decode value).map some

/-- A natural number below `2 ^ 64`. -/
def count? (value : Json) : Option UInt64 := value.nat?.map Nat.toUInt64

namespace Row

/-- The row that a value stands for. -/
def decode? (value : Json) : Option Row := do
  let fields ← fieldsOf? rowFields value
  let id ← optional? Json.string? (Json.find? fields "id")
  let doc ← optional? some (Json.find? fields "doc")
  some {
    id := id
    key := (Json.find? fields "key").getD .null
    value := (Json.find? fields "value").getD .null
    doc := doc }

/-- The object form of a row; an id or document that is absent is left out. -/
def encode (row : Row) : Json :=
  .object <|
    (row.doc.map fun doc => ("doc", doc)).toList ++
    (row.id.map fun id => ("id", Json.string id)).toList ++
    [("key", row.key), ("value", row.value)]

end Row

namespace Response

/-- The response that a value stands for. -/
def decode? (value : Json) : Option Response := do
  let fields ← fieldsOf? responseFields value
  let totalRows ← optional? count? (Json.find? fields "total_rows")
  let offset ← optional? count? (Json.find? fields "offset")
  let rows ← match Json.find? fields "rows" with
    | none => some []
    | some (.array items) => items.mapM Row.decode?
    | some _ => none
  some { totalRows := totalRows, offset := offset, rows := rows }

/-- The object form of a response; a count that is absent is left out. -/
def encode (response : Response) : Json :=
  .object <|
    (response.offset.map fun n => ("offset", Json.ofNat n.toNat)).toList ++
    [("rows", .array (response.rows.map Row.encode))] ++
    (response.totalRows.map fun n => ("total_rows", Json.ofNat n.toNat)).toList

end Response

/-! ## Texts -/

/-- Keeps the members of the given names.  Every name must be readable, and none of the given names
may come twice. -/
def knownMembers? (names : List String) (members : List (List Piece × Draft)) :
    Option (List (List Piece × Draft)) := do
  let named ← members.mapM fun (name, part) => do some (← Draft.textOf? name, name, part)
  let known := named.filter fun member => names.contains member.1
  if (known.map (·.1)).Nodup then some (known.map (·.2)) else none

/-- Forgets the members of a row that are not known. -/
def knownRow? : Draft → Option Draft
  | .object members => (knownMembers? rowFields members).map .object
  | draft => some draft

/-- Forgets the members of the rows that are not known. -/
def knownRows? : Draft → Option Draft
  | .array rows => (rows.mapM knownRow?).map .array
  | draft => some draft

/-- Forgets the members of a response and of its rows that are not known. -/
def knownResponse? : Draft → Option Draft
  | .object members => do
    let known ← knownMembers? responseFields members
    let parts ← known.mapM fun (name, part) => do
      if Draft.textOf? name == some "rows" then some (name, ← knownRows? part)
      else some (name, part)
    some (.object parts)
  | .array [totalRows, offset, rows] => do some (.array [totalRows, offset, ← knownRows? rows])
  | draft => some draft

/-- The response that the body of an answer spells. -/
def Response.ofBody? (body : Bytes) : Option Response := do
  let draft ← Draft.ofText? body
  let known ← knownResponse? draft
  Response.decode? (← known.toJson? Json.depthLimit)

end RequestBoard.View
