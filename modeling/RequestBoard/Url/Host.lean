import RequestBoard.Text.Split
import RequestBoard.Url.Percent

/-!
# Hosts

The host of a URL is a domain name or an address, and is read by the rules of the URL standard: what stands
in brackets is an IPv6 address, and anything else is decoded and put into the ASCII form of a domain name,
which is an IPv4 address if it ends in a number.  Names with other characters than ASCII ones have an
ASCII form by the tables of Unicode.  These are not written out here: `Idna` stands for them.
-/

namespace RequestBoard.Url

/-- An IPv6 address: eight pieces of 16 bits. -/
abbrev Ipv6 := { pieces : List UInt16 // pieces.length = 8 }

/-- A host. -/
inductive Host where
  /-- A domain name in its ASCII form. -/
  | domain (name : String)
  | ipv4 (address : UInt32)
  | ipv6 (address : Ipv6)
  deriving DecidableEq, Repr

/-- The natural number that decimal digits spell. -/
def decimal (digits : List Char) : Nat := digits.foldl (fun n c => 10 * n + (c.toNat - 0x30)) 0

namespace Host

/-! ## Domain names -/

/-- The tables of Unicode for domain names: the ASCII form of a name, if it has one.  They are asked for
names with other characters than ASCII ones, and for names with a label that stands for such. -/
abbrev Idna := List Char → Option (List Char)

/-- No tables: a name that needs them has no ASCII form. -/
def asciiOnly : Idna := fun _ => none

/-- Whether a label stands for one with other characters than ASCII ones. -/
def isEncodedLabel (label : List Char) : Bool := "xn--".toList.isPrefixOf (label.map Char.toLower)

/-- Whether the ASCII form of a name goes by the tables. -/
def needsTables (name : List Char) : Bool :=
  name.any (fun c => 0x7F < c.toNat) || (parts (· == '.') name).any isEncodedLabel

/-- The ASCII form of a domain name: without need for the tables it is the name in lower case. -/
def toAscii? (idna : Idna) (name : List Char) : Option (List Char) :=
  if needsTables name then idna name else some (name.map Char.toLower)

/-- A character that no domain name has in it. -/
def isForbidden (c : Char) : Bool :=
  c.toNat ≤ 0x20 ||
    ['#', '%', '/', ':', '<', '>', '?', '@', '[', '\\', ']', '^', '|', '\x7f'].contains c

/-! ## IPv4 addresses -/

/-- A number of an IPv4 address: hexadecimal after `0x`, octal after any other zero, else decimal. -/
def number? (text : List Char) : Option Nat :=
  let (base, digits) : Nat × List Char := match text with
    | '0' :: 'x' :: digits => (16, digits)
    | '0' :: d :: digits => (8, d :: digits)
    | digits => (10, digits)
  if text.isEmpty then none
  else digits.foldlM (fun n c => do
    let d ← hexDigit? c
    if d < base then some (base * n + d) else none) 0

/-- The labels of a domain name; a dot at its end does not count. -/
def labels (name : List Char) : List (List Char) :=
  let all := parts (· == '.') name
  if 1 < all.length && all.getLast? == some [] then all.dropLast else all

/-- Whether a domain name ends in a number, and so has to be an IPv4 address. -/
def endsInNumber (name : List Char) : Bool :=
  match (labels name).getLast? with
  | some last => (!last.isEmpty && last.all Char.isDigit) || (number? last).isSome
  | none => false

/-- The IPv4 address that a name spells.  There are up to four numbers; the last one fills all the bytes
that the others leave. -/
def ipv4? (name : List Char) : Option UInt32 := do
  let numbers ← (labels name).mapM number?
  let last ← numbers.getLast?
  let leading := numbers.dropLast
  if 3 < leading.length || leading.any (255 < ·) || Nat.pow 256 (4 - leading.length) ≤ last then none
  else some (UInt32.ofNat
    (leading.foldl (fun n byte => 256 * n + byte) 0 * Nat.pow 256 (4 - leading.length) + last))

/-! ## IPv6 addresses -/

/-- A piece of an IPv6 address: up to four hexadecimal digits. -/
def piece? (text : List Char) : Option UInt16 :=
  if text.isEmpty || 4 < text.length then none
  else (text.mapM hexDigit?).map fun digits => UInt16.ofNat (digits.foldl (fun n d => 16 * n + d) 0)

/-- A byte in decimal, without zeros before it. -/
def byte? (text : List Char) : Option Nat :=
  if text.isEmpty || !text.all Char.isDigit || (text.head? == some '0' && 1 < text.length) then none
  else if decimal text < 256 then some (decimal text)
  else none

/-- The two pieces that four bytes make. -/
def embedded? (text : List Char) : Option (List UInt16) :=
  match (parts (· == '.') text).mapM byte? with
  | some [a, b, c, d] => some [UInt16.ofNat (256 * a + b), UInt16.ofNat (256 * c + d)]
  | _ => none

/-- The pieces that stretches between colons spell.  The last stretch may be an IPv4 address. -/
def pieces? : List (List Char) → Option (List UInt16)
  | [] => some []
  | [last] => if last.contains '.' then embedded? last else (piece? last).map ([·])
  | stretch :: rest => (piece? stretch).bind fun piece => (pieces? rest).map (piece :: ·)

/-- The text before the first two colons in a row, and the text after them. -/
def cut? : List Char → Option (List Char × List Char)
  | ':' :: ':' :: rest => some ([], rest)
  | c :: rest => (cut? rest).map fun (before, after) => (c :: before, after)
  | [] => none

/-- The pieces on one side of two colons. -/
def side? (text : List Char) : Option (List UInt16) :=
  if text.isEmpty then some [] else pieces? (parts (· == ':') text)

/-- The IPv6 address that a text spells.  Two colons in a row stand for as many zero pieces as are missing,
which may be once and must be at least one. -/
def ipv6? (text : List Char) : Option Ipv6 :=
  match cut? text with
  | none => do
    let pieces ← pieces? (parts (· == ':') text)
    if h : pieces.length = 8 then some ⟨pieces, h⟩ else none
  | some (before, after) =>
    if before.contains '.' then none
    else do
      let left ← side? before
      let right ← side? after
      if h : left.length + right.length < 8 then
        some ⟨left ++ List.replicate (8 - (left.length + right.length)) 0 ++ right, by
          simp only [List.length_append, List.length_replicate]
          omega⟩
      else none

/-! ## Reading and writing -/

/-- The host that a text without brackets spells. -/
def ofName? (idna : Idna) (text : List Char) : Option Host := do
  let decoded ← Utf8.decode? (percentDecode text)
  let name ← toAscii? idna decoded.toList
  if name.isEmpty || name.any isForbidden then none
  else if endsInNumber name then (ipv4? name).map .ipv4
  else some (.domain (String.ofList name))

/-- The host that a text spells. -/
def parse? (idna : Idna) : List Char → Option Host
  | '[' :: rest => if rest.getLast? = some ']' then (ipv6? rest.dropLast).map .ipv6 else none
  | text => ofName? idna text

/-- An IPv4 address in decimal. -/
def ipv4Text (address : UInt32) : String :=
  let n := address.toNat
  ".".intercalate ([n / 16777216, n / 65536 % 256, n / 256 % 256, n % 256].map toString)

/-- Where the most zero pieces in a row begin, and how many they are; the first of several such places. -/
def zeros (pieces : List UInt16) : Nat × Nat :=
  let runs := (List.range 8).map fun i => (i, ((pieces.drop i).takeWhile (· == 0)).length)
  runs.foldl (fun best run => if best.2 < run.2 then run else best) (0, 0)

/-- An IPv6 address in hexadecimal, with two colons for zero pieces if there are at least two in a row. -/
def ipv6Text (pieces : List UInt16) : String :=
  let text (pieces : List UInt16) : String :=
    ":".intercalate (pieces.map fun piece => String.ofList (Nat.toDigits 16 piece.toNat))
  let (start, count) := zeros pieces
  if count < 2 then text pieces
  else text (pieces.take start) ++ "::" ++ text (pieces.drop (start + count))

/-- A host as it is written in a URL. -/
def text : Host → String
  | domain name => name
  | ipv4 address => ipv4Text address
  | ipv6 address => "[" ++ ipv6Text address.val ++ "]"

end Host

end RequestBoard.Url
