/-!
# Blank characters

The characters with the Unicode property `White_Space`.
-/

namespace RequestBoard

/-- The ranges of blank characters. -/
def blankRanges : List (Nat × Nat) :=
  [(0x9, 0xD), (0x20, 0x20), (0x85, 0x85), (0xA0, 0xA0), (0x1680, 0x1680), (0x2000, 0x200A),
    (0x2028, 0x2029), (0x202F, 0x202F), (0x205F, 0x205F), (0x3000, 0x3000)]

/-- Whether a character is blank. -/
def isBlank (c : Char) : Bool := blankRanges.any fun (low, high) => low ≤ c.toNat && c.toNat ≤ high

/-- Whether a text has no other characters than blank ones. -/
def isAllBlank (text : String) : Bool := text.toList.all isBlank

end RequestBoard
