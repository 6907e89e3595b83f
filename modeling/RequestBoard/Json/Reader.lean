import RequestBoard.Json.Basic
import RequestBoard.Text.Utf8

/-!
# Reading JSON

A text is read in two steps.  `Draft.ofText?` checks the grammar and cuts the text into its parts;
the `Draft` it gives still holds every number as it is spelled, every string as its pieces and every
member of an object.  `Draft.toJson?` then gives the parts their meaning, and refuses what has none:
numbers out of range, strings that are not Unicode, and nesting beyond the given depth.  A part of a
draft that nobody asks for is therefore checked for its grammar alone.
-/

namespace RequestBoard

/-- A piece of a quoted string: a byte as it stands (or what a short escape stands for), or the code
unit of a `\u` escape. -/
inductive Piece where
  | byte (value : UInt8)
  | unit (code : Nat)

/-- A JSON text cut into its parts. -/
inductive Draft where
  | null
  | bool (value : Bool)
  | number (literal : Number.Literal)
  | string (pieces : List Piece)
  | array (items : List Draft)
  | object (members : List (List Piece × Draft))

namespace Draft

instance : Inhabited Draft := ⟨.null⟩

/-! ## The grammar -/

/-- The blanks of JSON: tab, line feed, carriage return and space. -/
def isBlank (b : UInt8) : Bool := b == 0x20 || b == 0x09 || b == 0x0A || b == 0x0D

/-- The text after its leading blanks. -/
def skipBlanks (text : Bytes) : Bytes := text.dropWhile isBlank

/-- The value of a decimal digit. -/
def digit? (b : UInt8) : Option Nat :=
  if 0x30 ≤ b ∧ b ≤ 0x39 then some (b.toNat - 0x30) else none

/-- The value of a hexadecimal digit. -/
def hexDigit? (b : UInt8) : Option Nat :=
  if 0x30 ≤ b ∧ b ≤ 0x39 then some (b.toNat - 0x30)
  else if 0x41 ≤ b ∧ b ≤ 0x46 then some (b.toNat - 0x41 + 10)
  else if 0x61 ≤ b ∧ b ≤ 0x66 then some (b.toNat - 0x61 + 10)
  else none

/-- The byte that a short escape stands for, by the byte after the backslash. -/
def shortEscape? (b : UInt8) : Option UInt8 :=
  [(0x22, 0x22), (0x5C, 0x5C), (0x2F, 0x2F), (0x62, 0x08), (0x66, 0x0C), (0x6E, 0x0A),
    (0x72, 0x0D), (0x74, 0x09)].lookup b

/-- The pieces of a quoted string, read after its opening quote. -/
def quoted : Bytes → Option (List Piece × Bytes)
  | [] => none
  | 0x22 :: rest => some ([], rest)
  | 0x5C :: 0x75 :: a :: b :: c :: d :: rest => do
    let code := (((← hexDigit? a) * 16 + (← hexDigit? b)) * 16 + (← hexDigit? c)) * 16
      + (← hexDigit? d)
    let (pieces, rest) ← quoted rest
    some (.unit code :: pieces, rest)
  | 0x5C :: e :: rest => do
    let b ← shortEscape? e
    let (pieces, rest) ← quoted rest
    some (.byte b :: pieces, rest)
  | b :: rest =>
    if b < 0x20 then none
    else do
      let (pieces, rest) ← quoted rest
      some (.byte b :: pieces, rest)

/-- The leading digits of a text. -/
def digits : Bytes → List Nat × Bytes
  | [] => ([], [])
  | b :: rest => match digit? b with
    | some d => let (ds, rest) := digits rest; (d :: ds, rest)
    | none => ([], b :: rest)

/-- The digits of a fraction or an exponent, of which there is at least one. -/
def someDigits (text : Bytes) : Option (List Nat × Bytes) :=
  match digits text with
  | ([], _) => none
  | found => some found

/-- A number without its sign. -/
def literal (negative : Bool) (text : Bytes) : Option (Draft × Bytes) := do
  let (whole, rest) ← someDigits text
  if whole.head? == some 0 && whole.length != 1 then none
  let (fraction, rest) ← match rest with
    | 0x2E :: rest => (someDigits rest).map fun (ds, rest) => (some ds, rest)
    | rest => some (none, rest)
  let (exponent, rest) ← match rest with
    | b :: rest =>
      if b == 0x65 || b == 0x45 then
        match rest with
        | 0x2B :: rest => (someDigits rest).map fun (ds, rest) => (some (false, ds), rest)
        | 0x2D :: rest => (someDigits rest).map fun (ds, rest) => (some (true, ds), rest)
        | rest => (someDigits rest).map fun (ds, rest) => (some (false, ds), rest)
      else some (none, b :: rest)
    | [] => some (none, [])
  some (.number ⟨negative, whole, fraction, exponent⟩, rest)

mutual

/-- A value at the start of a text.  `fuel` bounds the number of nested calls. -/
def value : (fuel : Nat) → Bytes → Option (Draft × Bytes)
  | 0, _ => none
  | fuel + 1, text => match skipBlanks text with
    | 0x6E :: 0x75 :: 0x6C :: 0x6C :: rest => some (.null, rest)
    | 0x74 :: 0x72 :: 0x75 :: 0x65 :: rest => some (.bool true, rest)
    | 0x66 :: 0x61 :: 0x6C :: 0x73 :: 0x65 :: rest => some (.bool false, rest)
    | 0x22 :: rest => (quoted rest).map fun (pieces, rest) => (.string pieces, rest)
    | 0x5B :: rest => match skipBlanks rest with
      | 0x5D :: rest => some (.array [], rest)
      | rest => (items fuel rest).map fun (found, rest) => (.array found, rest)
    | 0x7B :: rest => match skipBlanks rest with
      | 0x7D :: rest => some (.object [], rest)
      | rest => (members fuel rest).map fun (found, rest) => (.object found, rest)
    | 0x2D :: rest => literal true rest
    | rest => literal false rest

/-- The items of an array up to its closing bracket; there is at least one. -/
def items : (fuel : Nat) → Bytes → Option (List Draft × Bytes)
  | 0, _ => none
  | fuel + 1, text => do
    let (first, rest) ← value fuel text
    match skipBlanks rest with
    | 0x2C :: rest => (items fuel rest).map fun (found, rest) => (first :: found, rest)
    | 0x5D :: rest => some ([first], rest)
    | _ => none

/-- The members of an object up to its closing brace; there is at least one. -/
def members : (fuel : Nat) → Bytes → Option (List (List Piece × Draft) × Bytes)
  | 0, _ => none
  | fuel + 1, text => match skipBlanks text with
    | 0x22 :: rest => do
      let (name, rest) ← quoted rest
      match skipBlanks rest with
      | 0x3A :: rest =>
        let (first, rest) ← value fuel rest
        match skipBlanks rest with
        | 0x2C :: rest =>
          (members fuel rest).map fun (found, rest) => ((name, first) :: found, rest)
        | 0x7D :: rest => some ([(name, first)], rest)
        | _ => none
      | _ => none
    | _ => none

end

/-- The draft of a text that holds one value, blanks around it aside.  Two nested calls consume at
least one byte, so the fuel never runs out. -/
def ofText? (text : Bytes) : Option Draft :=
  match value (2 * text.length + 2) text with
  | some (draft, rest) => if (skipBlanks rest).isEmpty then some draft else none
  | none => none

/-! ## The meaning -/

/-- The UTF-8 of a string's pieces.  The two units of a surrogate pair make one character; a
surrogate on its own makes none. -/
def bytesOf? : List Piece → Option Bytes
  | [] => some []
  | .byte b :: rest => (bytesOf? rest).map (b :: ·)
  | .unit first :: .unit second :: rest =>
    if Utf16.opensPair first then
      if Utf16.closesPair second then
        (bytesOf? rest).map (String.utf8EncodeChar (Utf16.pair first second) ++ ·)
      else none
    else if Utf16.closesPair first then none
    else (bytesOf? (.unit second :: rest)).map (String.utf8EncodeChar (Char.ofNat first) ++ ·)
  | .unit code :: rest =>
    if Utf16.opensPair code || Utf16.closesPair code then none
    else (bytesOf? rest).map (String.utf8EncodeChar (Char.ofNat code) ++ ·)

/-- The text of a string's pieces. -/
def textOf? (pieces : List Piece) : Option String := (bytesOf? pieces).bind Utf8.decode?

/-- The value of a draft whose arrays and objects are nested at most `depth` deep. -/
def toJson? (depth : Nat) (draft : Draft) : Option Json :=
  match depth, draft with
  | _, .null => some .null
  | _, .bool value => some (.bool value)
  | _, .number spelled => spelled.toNumber?.map .number
  | _, .string pieces => (textOf? pieces).map .string
  | 0, .array _ => none
  | 0, .object _ => none
  | depth + 1, .array parts => (parts.mapM (toJson? depth)).map .array
  | depth + 1, .object parts =>
    (parts.mapM fun (name, part) => do
      some (← textOf? name, ← toJson? depth part)).map Json.ofMembers

end Draft

/-- Arrays and objects may be nested this deep, the outermost one included. -/
def Json.depthLimit : Nat := 127

/-- The value of a JSON text. -/
def Json.ofText? (text : Bytes) : Option Json := (Draft.ofText? text).bind (Draft.toJson? depthLimit)

end RequestBoard
