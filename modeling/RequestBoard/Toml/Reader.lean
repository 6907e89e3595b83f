import RequestBoard.Toml.Value

/-!
# Reading TOML

A document is a list of lines: headers, assignments, comments and empty lines.  Readers take the
characters of a text and give back what they read together with the rest of the text.
-/

namespace RequestBoard.Toml

/-! ## Characters -/

/-- Tab and space. -/
def isSpace (c : Char) : Bool := c == ' ' || c == '\t'

/-- The characters that may stand in a comment: tab and all that are no control characters. -/
def isPlain (c : Char) : Bool := c == '\t' || (0x20 ≤ c.toNat && c.toNat != 0x7F)

/-- The characters of a bare key. -/
def isBare (c : Char) : Bool := c.isAlphanum || c == '_' || c == '-'

/-- The text after its leading spaces. -/
def skipSpaces (text : List Char) : List Char := text.dropWhile isSpace

/-- The text after a line break, if it begins with one. -/
def lineBreak? : List Char → Option (List Char)
  | '\n' :: rest => some rest
  | '\r' :: '\n' :: rest => some rest
  | _ => none

/-- The text after the spaces and the comment at the end of a line. -/
def skipComment (text : List Char) : List Char :=
  match skipSpaces text with
  | '#' :: rest => rest.dropWhile isPlain
  | rest => rest

/-- The text after the end of a line. -/
def endOfLine? (text : List Char) : Option (List Char) :=
  match skipComment text with
  | [] => some []
  | rest => lineBreak? rest

/-- The text after spaces, comments and line breaks. -/
def skipLines : (fuel : Nat) → List Char → List Char
  | 0, text => text
  | fuel + 1, text => match lineBreak? (skipComment text) with
    | some rest => skipLines fuel rest
    | none => skipSpaces text

/-! ## Strings -/

/-- The value of a hexadecimal digit. -/
def hexDigit? (c : Char) : Option Nat :=
  if c.isDigit then some (digit c)
  else if 'a' ≤ c ∧ c ≤ 'f' then some (c.toNat - 'a'.toNat + 10)
  else if 'A' ≤ c ∧ c ≤ 'F' then some (c.toNat - 'A'.toNat + 10)
  else none

/-- The character with a code point of `count` hexadecimal digits. -/
def codePoint? (count : Nat) (text : List Char) : Option (Char × List Char) := do
  let digits := text.take count
  if digits.length ≠ count then none
  let code ← digits.foldlM (fun n c => (hexDigit? c).map (16 * n + ·)) 0
  if Nat.isValidChar code then some (Char.ofNat code, text.drop count) else none

/-- The character that an escape stands for, read after its backslash. -/
def escape? : List Char → Option (Char × List Char)
  | 'b' :: rest => some ('\x08', rest)
  | 't' :: rest => some ('\t', rest)
  | 'n' :: rest => some ('\n', rest)
  | 'f' :: rest => some ('\x0c', rest)
  | 'r' :: rest => some ('\r', rest)
  | '"' :: rest => some ('"', rest)
  | '\\' :: rest => some ('\\', rest)
  | 'u' :: rest => codePoint? 4 rest
  | 'U' :: rest => codePoint? 8 rest
  | _ => none

/-- The text after a backslash at the end of a line: all spaces and line breaks that follow. -/
def skipContinuation (text : List Char) : Option (List Char) :=
  (lineBreak? (skipSpaces text)).map fun rest => skipBreaks rest.length rest
where
  /-- The text after spaces and line breaks. -/
  skipBreaks : Nat → List Char → List Char
    | 0, text => text
    | fuel + 1, text => match lineBreak? (skipSpaces text) with
      | some rest => skipBreaks fuel rest
      | none => skipSpaces text

/-- A basic string, read after its opening quote. -/
def basic? : (fuel : Nat) → List Char → Option (List Char × List Char)
  | 0, _ => none
  | fuel + 1, text => match text with
    | '"' :: rest => some ([], rest)
    | '\\' :: rest => do
      let (c, rest) ← escape? rest
      let (cs, rest) ← basic? fuel rest
      some (c :: cs, rest)
    | c :: rest =>
      if isPlain c then (basic? fuel rest).map fun (cs, rest) => (c :: cs, rest) else none
    | [] => none

/-- A literal string, read after its opening apostrophe. -/
def literal? : List Char → Option (List Char × List Char)
  | '\x27' :: rest => some ([], rest)
  | c :: rest =>
    if isPlain c then (literal? rest).map fun (cs, rest) => (c :: cs, rest) else none
  | [] => none

/-- A multi-line string of quotes `q`, read after its opening quotes.  Up to two quotes may stand
anywhere in it, also just before the closing ones.  Line breaks are single line feeds. -/
def multiLine? (q : Char) (escapes : Bool) : (fuel : Nat) → List Char → Option (List Char × List Char)
  | 0, _ => none
  | fuel + 1, text =>
    match (text.takeWhile (· == q)).length with
    | 0 => match lineBreak? text with
      | some rest => (multiLine? q escapes fuel rest).map fun (cs, rest) => ('\n' :: cs, rest)
      | none => match text with
        | [] => none
        | c :: rest =>
          if escapes && c == '\\' then
            match escape? rest with
            | some (c, rest) =>
              (multiLine? q escapes fuel rest).map fun (cs, rest) => (c :: cs, rest)
            | none => (skipContinuation rest).bind (multiLine? q escapes fuel)
          else if isPlain c then
            (multiLine? q escapes fuel rest).map fun (cs, rest) => (c :: cs, rest)
          else none
    | 1 => (multiLine? q escapes fuel (text.drop 1)).map fun (cs, rest) => (q :: cs, rest)
    | 2 => (multiLine? q escapes fuel (text.drop 2)).map fun (cs, rest) => (q :: q :: cs, rest)
    | count =>
      let inside := min (count - 3) 2
      some (List.replicate inside q, text.drop (inside + 3))

/-- A multi-line string with its opening quotes; a line break right after them does not count. -/
def multiLineString? (q : Char) (escapes : Bool) (text : List Char) : Option (List Char × List Char) :=
  match text with
  | a :: b :: c :: rest =>
    if a == q && b == q && c == q then
      let rest := (lineBreak? rest).getD rest
      multiLine? q escapes (rest.length + 1) rest
    else none
  | _ => none

/-- A string in any of its four forms. -/
def string? (text : List Char) : Option (List Char × List Char) :=
  match multiLineString? '"' true text with
  | some found => some found
  | none => match multiLineString? '\x27' false text with
    | some found => some found
    | none => match text with
      | '"' :: rest => basic? (rest.length + 1) rest
      | '\x27' :: rest => literal? rest
      | _ => none

/-! ## Keys -/

/-- Dotted keys have fewer segments than this, and arrays and inline tables are nested less deep. -/
def nestingLimit : Nat := 80

/-- One segment of a key. -/
def segment? (text : List Char) : Option (String × List Char) :=
  match text with
  | '"' :: rest => (basic? (rest.length + 1) rest).map fun (cs, rest) => (String.ofList cs, rest)
  | '\x27' :: rest => (literal? rest).map fun (cs, rest) => (String.ofList cs, rest)
  | _ => match text.takeWhile isBare with
    | [] => none
    | cs => some (String.ofList cs, text.dropWhile isBare)

/-- The segments of a dotted key, with spaces around each of them. -/
def segments? : (fuel : Nat) → List Char → Option (List String × List Char)
  | 0, _ => none
  | fuel + 1, text => do
    let (first, rest) ← segment? (skipSpaces text)
    match skipSpaces rest with
    | '.' :: rest => (segments? fuel rest).map fun (more, rest) => (first :: more, rest)
    | rest => some ([first], rest)

/-- A key: the segments before its last one, and that one. -/
def key? (text : List Char) : Option ((List String × String) × List Char) := do
  let (segments, rest) ← segments? (text.length + 1) text
  if nestingLimit ≤ segments.length then none
  let last ← segments.getLast?
  some ((segments.dropLast, last), rest)

/-! ## Numbers -/

/-- The digits of a number, with single underscores between them. -/
def digits? (isDigit : Char → Bool) : List Char → Option (List Char × List Char)
  | [] => none
  | [c] => if isDigit c then some ([c], []) else none
  | c :: d :: rest =>
    if !isDigit c then none
    else if d == '_' then (digits? isDigit rest).map fun (cs, rest) => (c :: cs, rest)
    else if isDigit d then (digits? isDigit (d :: rest)).map fun (cs, rest) => (c :: cs, rest)
    else some ([c], d :: rest)

/-- The number that digits spell. -/
def ofDigits (base : Nat) (digits : List Char) : Nat :=
  digits.foldl (fun n c => base * n + (hexDigit? c).getD 0) 0

/-- The largest integer, `2 ^ 63 - 1`. -/
def maxInteger : Int := 9223372036854775807

/-- An integer after `0x`, `0o` or `0b`. -/
def basedInteger? (base : Nat) (text : List Char) : Option (Value × List Char) := do
  let (digits, rest) ← digits? (fun c => (hexDigit? c).any (· < base)) text
  let n := ofDigits base digits
  if (n : Int) ≤ maxInteger then some (.integer n, rest) else none

/-- The sign of a number. -/
def sign (text : List Char) : Bool × List Char :=
  match text with
  | '-' :: rest => (true, rest)
  | '+' :: rest => (false, rest)
  | _ => (false, text)

/-- The exponent of a float, zero if there is none. -/
def exponent? : List Char → Option (Int × List Char)
  | [] => some (0, [])
  | c :: rest =>
    if c == 'e' || c == 'E' then do
      let (negative, rest) := sign rest
      let (digits, rest) ← digits? Char.isDigit rest
      let n : Int := ofDigits 10 digits
      some (if negative then -n else n, rest)
    else some (0, c :: rest)

/-- The binary64 nearest to `digits · 10 ^ exponent`. -/
def nearest (digits : Nat) (exponent : Int) : Float :=
  Float.ofScientific digits (exponent < 0) exponent.natAbs

/-- A decimal integer or a float.  The part before the point has no needless leading zero.  A float
may be too large for a binary64 only if it is negative. -/
def decimal? (text : List Char) : Option (Value × List Char) := do
  let (negative, rest) := sign text
  let (whole, rest) ← match rest with
    | '0' :: rest => some (['0'], rest)
    | rest => digits? Char.isDigit rest
  let (fraction, afterFraction) ← match rest with
    | '.' :: rest => digits? Char.isDigit rest
    | rest => some ([], rest)
  let (exponent, afterExponent) ← exponent? afterFraction
  if afterExponent.length = rest.length then
    let n : Int := ofDigits 10 whole
    let n := if negative then -n else n
    if -maxInteger - 1 ≤ n ∧ n ≤ maxInteger then some (.integer n, rest) else none
  else
    let x := nearest (ofDigits 10 (whole ++ fraction)) (exponent - fraction.length)
    if negative then some (.float (-x), afterExponent)
    else if x.isInf then none
    else some (.float x, afterExponent)

/-- An infinity or NaN. -/
def special? (text : List Char) : Option (Value × List Char) :=
  let (negative, rest) := sign text
  let infinity : Float := 1 / 0
  if "inf".toList.isPrefixOf rest then
    some (.float (if negative then -infinity else infinity), rest.drop 3)
  else if "nan".toList.isPrefixOf rest then some (.float (0 / 0), rest.drop 3)
  else none

/-- A number or a moment. -/
def number? (text : List Char) : Option (Value × List Char) :=
  match text with
  | '0' :: 'x' :: rest => basedInteger? 16 rest
  | '0' :: 'o' :: rest => basedInteger? 8 rest
  | '0' :: 'b' :: rest => basedInteger? 2 rest
  | _ => match Moment.read? text with
    | some (moment, rest) => some (.moment moment, rest)
    | none => match decimal? text with
      | some found => some found
      | none => special? text

/-! ## Values -/

/-- The text after a word. -/
def word? (word : String) (text : List Char) : Option (List Char) :=
  if word.toList.isPrefixOf text then some (text.drop word.length) else none

mutual

/-- A value.  `depth` is how deep arrays and inline tables may still be nested, and `fuel` bounds the
number of nested calls. -/
def value? : (fuel depth : Nat) → List Char → Option (Value × List Char)
  | 0, _, _ => none
  | fuel + 1, depth, text => match text with
    | '[' :: rest =>
      if depth = 0 then none
      else match skipLines rest.length rest with
        | ']' :: rest => some (.array [], rest)
        | _ => (items? fuel (depth - 1) rest).map fun (items, rest) => (.array items, rest)
    | '{' :: rest =>
      if depth = 0 then none
      else match skipSpaces rest with
        | '}' :: rest => some (.table .inline [], rest)
        | _ => (pairs? fuel (depth - 1) [] rest).map fun (entries, rest) =>
            (.table .inline entries, rest)
    | c :: _ =>
      if c == '"' || c == '\x27' then
        (string? text).map fun (cs, rest) => (.string (String.ofList cs), rest)
      else match word? "true" text with
        | some rest => some (.boolean true, rest)
        | none => match word? "false" text with
          | some rest => some (.boolean false, rest)
          | none => number? text
    | [] => none

/-- The items of an array up to its closing bracket; there is at least one.  A comma may follow the
last one. -/
def items? : (fuel depth : Nat) → List Char → Option (List Value × List Char)
  | 0, _, _ => none
  | fuel + 1, depth, text => do
    let (first, rest) ← value? fuel depth (skipLines text.length text)
    match skipLines rest.length rest with
    | ']' :: rest => some ([first], rest)
    | ',' :: rest => match skipLines rest.length rest with
      | ']' :: rest => some ([first], rest)
      | _ => (items? fuel depth rest).map fun (items, rest) => (first :: items, rest)
    | _ => none

/-- The assignments of an inline table up to its closing brace; there is at least one. -/
def pairs? : (fuel depth : Nat) → Entries → List Char → Option (Entries × List Char)
  | 0, _, _, _ => none
  | fuel + 1, depth, entries, text => do
    let ((path, key), rest) ← key? text
    match rest with
    | '=' :: rest =>
      let (value, rest) ← value? fuel depth (skipSpaces rest)
      let entries ← entries.assign path key value
      match skipSpaces rest with
      | '}' :: rest => some (entries, rest)
      | ',' :: rest => pairs? fuel depth entries rest
      | _ => none
    | _ => none

end

/-- A value of a document. -/
def value (text : List Char) : Option (Value × List Char) := value? (2 * text.length + 2) (nestingLimit - 1) text

/-! ## Documents -/

/-- What has been read of a document: its root table and the path of the header that is in force. -/
structure Document where
  root : Entries := []
  header : List String := []

/-- Reads the key of a header and what closes it, up to the end of the line. -/
def headerKey? (closing : String) (text : List Char) : Option ((List String × String) × List Char) := do
  let (key, rest) ← key? text
  let rest ← word? closing rest
  let rest ← endOfLine? rest
  some (key, rest)

/-- Reads one line. -/
def Document.line? (document : Document) (text : List Char) : Option (Document × List Char) :=
  match skipSpaces text with
  | '[' :: '[' :: rest => do
    let ((path, key), rest) ← headerKey? "]]" rest
    let root ← document.root.openElement? path key
    some (⟨root, path ++ [key]⟩, rest)
  | '[' :: rest => do
    let ((path, key), rest) ← headerKey? "]" rest
    let root ← document.root.open? path key
    some (⟨root, path ++ [key]⟩, rest)
  | rest => match endOfLine? rest with
    | some rest => some (document, rest)
    | none => do
      let ((path, key), rest) ← key? rest
      let rest ← word? "=" rest
      let (found, rest) ← value (skipSpaces rest)
      let rest ← endOfLine? rest
      let root ← document.root.assignIn document.header path key found
      some ({ document with root := root }, rest)

/-- Reads all lines; every line consumes something. -/
def Document.lines? : (fuel : Nat) → Document → List Char → Option Document
  | _, document, [] => some document
  | 0, _, _ => none
  | fuel + 1, document, text => do
    let (document, rest) ← document.line? text
    document.lines? fuel rest

/-- The root table of a document.  A byte order mark at its start does not count. -/
def parse? (text : String) : Option Entries :=
  let lines := match text.toList with
    | c :: rest => if c.toNat = 0xFEFF then rest else c :: rest
    | [] => []
  ((Document.lines? lines.length {} lines).map (·.root))

end RequestBoard.Toml
