import RequestBoard.Text.Utf8

/-!
# Percent-encoding

A byte is written as a percent sign and two hexadecimal digits.  Which characters are written so depends on
where in a URL they stand; when a text is read, every such byte counts, and a percent sign without two
digits after it stands for itself.
-/

namespace RequestBoard.Url

/-! ## Writing -/

/-- The two hexadecimal digits of a byte, after a percent sign. -/
def percent (b : UInt8) : List Char :=
  ['%', (Nat.digitChar (b.toNat / 16)).toUpper, (Nat.digitChar (b.toNat % 16)).toUpper]

/-- The text with the characters of a set written as the percent-encoded bytes of their UTF-8. -/
def percentEncode (set : Char → Bool) (text : List Char) : List Char :=
  text.flatMap fun c => if set c then (String.utf8EncodeChar c).flatMap percent else [c]

/-- The characters that are encoded everywhere: controls and all that is not ASCII. -/
def isControl (c : Char) : Bool := c.toNat < 0x20 || 0x7E < c.toNat

/-- The characters that are encoded in a path. -/
def inPathSet (c : Char) : Bool :=
  isControl c || [' ', '"', '#', '<', '>', '?', '\x60', '{', '}'].contains c

/-- The characters that are encoded in a query. -/
def inQuerySet (c : Char) : Bool := isControl c || [' ', '"', '#', '<', '>', '\x27'].contains c

/-! ## Reading -/

/-- The value of a hexadecimal digit. -/
def hexDigit? (c : Char) : Option Nat :=
  if c.isDigit then some (c.toNat - 0x30)
  else if 'a' ≤ c ∧ c ≤ 'f' then some (c.toNat - 0x61 + 10)
  else if 'A' ≤ c ∧ c ≤ 'F' then some (c.toNat - 0x41 + 10)
  else none

/-- The bytes that a percent-encoded text stands for. -/
def percentDecode : List Char → Bytes
  | '%' :: a :: b :: rest => match hexDigit? a, hexDigit? b with
    | some high, some low => UInt8.ofNat (high * 16 + low) :: percentDecode rest
    | _, _ => String.utf8EncodeChar '%' ++ percentDecode (a :: b :: rest)
  | c :: rest => String.utf8EncodeChar c ++ percentDecode rest
  | [] => []

end RequestBoard.Url
