/-!
# Bytes and characters

`Utf8.decode?` reads well-formed UTF-8 and nothing else.  `Unicode.decode` reads any bytes: a byte
order mark selects UTF-8 or one of the two UTF-16 forms, UTF-8 being the default, and every
malformed part becomes the replacement character.
-/

namespace RequestBoard

/-- A sequence of bytes. -/
abbrev Bytes := List UInt8

/-- The character that stands for a malformed part of a text. -/
def replacement : Char := Char.ofNat 0xFFFD

namespace Utf8

/-- The UTF-8 form of a text. -/
def encode (text : String) : Bytes := text.toUTF8.data.toList

/-- The text that well-formed UTF-8 spells. -/
def decode? (bytes : Bytes) : Option String := String.fromUTF8? ⟨bytes.toArray⟩

/-- What is known of an unfinished character: the bits read so far, the number of bytes still to
come, and the range of the next one. -/
structure Pending where
  bits : Nat
  missing : Nat
  low : Nat
  high : Nat

/-- What a byte means where a character may start: a character, the start of one, or neither. -/
inductive Lead where
  | whole (c : Char)
  | opens (pending : Pending)
  | malformed

/-- The classes of first bytes.  The narrower ranges rule out overlong forms, surrogates and
everything above `U+10FFFF`. -/
def lead (b : Nat) : Lead :=
  if b ≤ 0x7F then .whole (Char.ofNat b)
  else if 0xC2 ≤ b ∧ b ≤ 0xDF then .opens ⟨b - 0xC0, 1, 0x80, 0xBF⟩
  else if b = 0xE0 then .opens ⟨0, 2, 0xA0, 0xBF⟩
  else if b = 0xED then .opens ⟨0xD, 2, 0x80, 0x9F⟩
  else if 0xE1 ≤ b ∧ b ≤ 0xEF then .opens ⟨b - 0xE0, 2, 0x80, 0xBF⟩
  else if b = 0xF0 then .opens ⟨0, 3, 0x90, 0xBF⟩
  else if 0xF1 ≤ b ∧ b ≤ 0xF3 then .opens ⟨b - 0xF0, 3, 0x80, 0xBF⟩
  else if b = 0xF4 then .opens ⟨4, 3, 0x80, 0x8F⟩
  else .malformed

/-- Reads on after `pending`.  A byte that cannot continue a character ends it with one replacement
character and is then read as a first byte. -/
def decodeFrom : Option Pending → Bytes → List Char
  | none, [] => []
  | some _, [] => [replacement]
  | none, b :: rest => match lead b.toNat with
    | .whole c => c :: decodeFrom none rest
    | .opens p => decodeFrom (some p) rest
    | .malformed => replacement :: decodeFrom none rest
  | some p, b :: rest =>
    if p.low ≤ b.toNat ∧ b.toNat ≤ p.high then
      let bits := p.bits * 64 + (b.toNat - 0x80)
      if p.missing = 1 then Char.ofNat bits :: decodeFrom none rest
      else decodeFrom (some ⟨bits, p.missing - 1, 0x80, 0xBF⟩) rest
    else match lead b.toNat with
      | .whole c => replacement :: c :: decodeFrom none rest
      | .opens q => replacement :: decodeFrom (some q) rest
      | .malformed => replacement :: replacement :: decodeFrom none rest

/-- The text that bytes spell, malformed parts replaced. -/
def decode (bytes : Bytes) : String := String.ofList (decodeFrom none bytes)

end Utf8

namespace Utf16

/-- Whether a code unit opens a surrogate pair. -/
def opensPair (unit : Nat) : Bool := 0xD800 ≤ unit && unit < 0xDC00

/-- Whether a code unit closes a surrogate pair. -/
def closesPair (unit : Nat) : Bool := 0xDC00 ≤ unit && unit < 0xE000

/-- The character of a surrogate pair. -/
def pair (first second : Nat) : Char :=
  Char.ofNat (0x10000 + (first - 0xD800) * 0x400 + (second - 0xDC00))

/-- The code units of bytes; an odd byte at the end is half a unit and is given as `none`. -/
def units (bigEndian : Bool) : Bytes → List (Option Nat)
  | [] => []
  | [_] => [none]
  | a :: b :: rest =>
    some (if bigEndian then a.toNat * 256 + b.toNat else b.toNat * 256 + a.toNat)
      :: units bigEndian rest

/-- The characters of code units, a surrogate without its partner replaced. -/
def decodeUnits : List (Option Nat) → List Char
  | [] => []
  | none :: rest => replacement :: decodeUnits rest
  | some first :: some second :: rest =>
    if opensPair first && closesPair second then pair first second :: decodeUnits rest
    else if opensPair first || closesPair first then
      replacement :: decodeUnits (some second :: rest)
    else Char.ofNat first :: decodeUnits (some second :: rest)
  | some first :: rest =>
    -- an unfinished pair and half a unit at the end count as one malformed part
    if opensPair first then [replacement]
    else if closesPair first then replacement :: decodeUnits rest
    else Char.ofNat first :: decodeUnits rest

end Utf16

namespace Unicode

/-- The text that bytes spell in the encoding that their byte order mark names, or else in UTF-8;
malformed parts are replaced. -/
def decode : Bytes → String
  | 0xEF :: 0xBB :: 0xBF :: rest => Utf8.decode rest
  | 0xFE :: 0xFF :: rest => String.ofList (Utf16.decodeUnits (Utf16.units true rest))
  | 0xFF :: 0xFE :: rest => String.ofList (Utf16.decodeUnits (Utf16.units false rest))
  | bytes => Utf8.decode bytes

end Unicode

end RequestBoard
