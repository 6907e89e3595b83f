import Std.Data.ExtTreeMap
import RequestBoard.Json.Number

/-!
# JSON values

`Json` is the tree of a JSON text.  The members of an object are a list; values that are built with
`Json.ofMembers`, as every value that is read is, hold them in the order of their names and each
name once.  `Members` is the finite map from names to values that such a list spells out.
-/

namespace RequestBoard

/-- A JSON value. -/
inductive Json where
  | null
  | bool (value : Bool)
  | number (value : Number)
  | string (value : String)
  | array (items : List Json)
  | object (members : List (String × Json))

/-- A finite map from member names to values. -/
abbrev Members := Std.ExtTreeMap String Json

namespace Json

instance : Inhabited Json := ⟨.null⟩

/-- The map that a list of members stands for: of a repeated name the last value counts. -/
def membersOf (members : List (String × Json)) : Members := Std.ExtTreeMap.ofList members

/-- The object with the given members. -/
def ofMap (members : Members) : Json := .object members.toList

/-- The object with the given members: in the order of their names, and of a repeated name only the
last value. -/
def ofMembers (members : List (String × Json)) : Json := ofMap (membersOf members)

/-- The whole number `value` as JSON; a number that does not fit 64 bits is null. -/
def ofInt (value : Int) : Json := match Number.ofInt? value with
  | some n => .number n
  | none => .null

/-- A natural number as a value. -/
def ofNat (n : Nat) : Json := ofInt n

/-- A binary64 as a value; infinities and NaN have no JSON form and are null. -/
def ofFloat (x : Float) : Json := match Number.ofFloat? x with
  | some n => .number n
  | none => .null

/-! ## Access -/

/-- The member of a list that a name selects: the last one of that name. -/
def find? (members : List (String × Json)) (name : String) : Option Json :=
  members.reverse.lookup name

/-- The member of an object with the given name. -/
def get? : Json → String → Option Json
  | .object members, name => find? members name
  | _, _ => none

/-- Whether the value is null. -/
def isNull : Json → Bool
  | .null => true
  | _ => false

/-- The text, if the value is one. -/
def string? : Json → Option String
  | .string text => some text
  | _ => none

/-- The items, if the value is an array. -/
def items? : Json → Option (List Json)
  | .array items => some items
  | _ => none

/-- The number, if the value is a natural number below `2 ^ 64`. -/
def nat? : Json → Option Nat
  | .number (.whole n _) => if 0 ≤ n then some n.toNat else none
  | _ => none

/-! ## Equality -/

mutual

/-- Equality of values: numbers by `Number.same`, all else part by part. -/
def same : Json → Json → Bool
  | .null, .null => true
  | .bool a, .bool b => a == b
  | .number a, .number b => a.same b
  | .string a, .string b => a == b
  | .array as, .array bs => sameItems as bs
  | .object as, .object bs => sameMembers as bs
  | _, _ => false

/-- Equality of arrays. -/
def sameItems : List Json → List Json → Bool
  | [], [] => true
  | a :: as, b :: bs => same a b && sameItems as bs
  | _, _ => false

/-- Equality of objects whose members stand in the order of their names. -/
def sameMembers : List (String × Json) → List (String × Json) → Bool
  | [], [] => true
  | (m, a) :: as, (n, b) :: bs => m == n && same a b && sameMembers as bs
  | _, _ => false

end

end Json

end RequestBoard
