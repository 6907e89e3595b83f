import RequestBoard.Json.Basic
import RequestBoard.Text.Split

/-!
# Records and the paths into them

A record is a finite map from field names to values.  A path names a value below a record, one
segment for each level, and is followed as long as every value on the way counts as present.  Null,
false, zero and the empty text do not, so that a zero count and a missing count read the same.
-/

namespace RequestBoard

/-- A partial request document. -/
abbrev Record := Members

/-- A value counts as present unless it is null, false, zero, NaN or the empty text. -/
def Json.isTruthy : Json → Bool
  | .null => false
  | .bool value => value
  | .number n => !(n.toFloat == 0) && !n.toFloat.isNaN
  | .string text => !text.isEmpty
  | .array _ => true
  | .object _ => true

/-! ## Paths -/

/-- A path: a field of the record, and the segments below it. -/
structure Path where
  first : String
  rest : List String
  deriving DecidableEq, Repr

namespace Path

/-- The path that a text with dots between the segments spells.  Empty segments are segments. -/
def ofString (text : String) : Path :=
  let (first, rest) := parted (· == '.') text.toList
  ⟨String.ofList first, rest.map String.ofList⟩

/-- The natural number that decimal digits spell, if there is at least one and nothing else. -/
def decimal? (digits : List Char) : Option Nat :=
  if digits.isEmpty || !digits.all Char.isDigit then none
  else some (digits.foldl (fun n c => 10 * n + (c.toNat - '0'.toNat)) 0)

/-- The array index that a segment spells: decimal digits, after at most one plus sign, of a number
below `2 ^ 64`. -/
def index? (segment : String) : Option Nat :=
  let digits := match segment.toList with
    | '+' :: digits => digits
    | digits => digits
  (decimal? digits).filter (· < 18446744073709551616)

end Path

/-- The value that a segment selects below a value: a member of an object or an item of an array.
There is nothing below any other value. -/
def Json.child? : Json → String → Option Json
  | .object members, segment => Json.find? members segment
  | .array items, segment => (Path.index? segment).bind fun i => items[i]?
  | _, _ => none

/-- Follows segments from a value, each step to a value that counts as present. -/
def Json.follow? : Json → List String → Option Json
  | value, [] => some value
  | value, segment :: rest =>
    ((value.child? segment).filter Json.isTruthy).bind fun child => child.follow? rest

namespace Record

/-- The value at the end of a path, or the fallback if some value on the way is missing or does not
count as present. -/
def resolvePath (record : Record) (path : Path) (fallback : Json) : Json :=
  ((record[path.first]?.filter Json.isTruthy).bind fun value =>
    value.follow? path.rest).getD fallback

/-- `resolvePath` with the path as a text. -/
def resolve (record : Record) (path : String) (fallback : Json) : Json :=
  record.resolvePath (Path.ofString path) fallback

/-- The number at the end of a path, or the fallback if there is no value or no number. -/
def resolveNumber (record : Record) (path : String) (fallback : Float) : Float :=
  match record.resolve path .null with
  | .number n => n.toFloat
  | _ => fallback

/-- The record as a value. -/
def toJson (record : Record) : Json := Json.ofMap record

end Record

end RequestBoard
