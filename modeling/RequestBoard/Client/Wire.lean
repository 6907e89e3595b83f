import RequestBoard.Client
import RequestBoard.Json.Writer

/-!
# Requests and answers on the wire

One connection carries one request and its answer.  `Outgoing.wire` is what is sent, and
`Delivery.ofWire` makes sense of all that comes back before the connection is closed.
-/

namespace RequestBoard

/-- The line feed that ends a line, after a carriage return. -/
def lineFeed : UInt8 := 0x0A

/-- The carriage return before it. -/
def carriageReturn : UInt8 := 0x0D

/-- A request as it is sent. -/
def Outgoing.wire (request : Outgoing) : Bytes :=
  let body := request.body.elim [] fun json => Utf8.encode json.write
  let standard := if request.url.secure then 443 else 80
  let port := if request.url.port == standard then "" else ":" ++ toString request.url.port
  let header (name value : String) : String := name ++ ": " ++ value ++ "\r\n"
  let content := request.contentType.elim "" fun kind =>
    header "content-type" kind ++ header "content-length" (toString body.length)
  let head := request.method ++ " " ++ request.url.target ++ " HTTP/1.1\r\n" ++
    header "host" (request.url.host.text ++ port) ++ header "accept" "*/*" ++
    header "connection" "close" ++ content ++ "\r\n"
  Utf8.encode head ++ body

namespace Delivery

/-- The first line of some bytes, without its end, and what follows it. -/
def line? : Bytes → Option (Bytes × Bytes)
  | [] => none
  | [_] => none
  | first :: second :: rest =>
    if first = carriageReturn ∧ second = lineFeed then some ([], rest)
    else (line? (second :: rest)).map fun (line, rest) => (first :: line, rest)

/-- The lines up to the first empty one, and what follows that. -/
def head? : (fuel : Nat) → Bytes → Option (List Bytes × Bytes)
  | 0, _ => none
  | fuel + 1, bytes => match line? bytes with
    | none => none
    | some ([], rest) => some ([], rest)
    | some (line, rest) => (head? fuel rest).map fun (lines, rest) => (line :: lines, rest)

/-- The status that the first line of an answer gives. -/
def status? (line : Bytes) : Option Nat :=
  match (Utf8.decode line).toList.dropWhile (· != ' ') with
  | _ :: rest =>
    let digits := rest.takeWhile Char.isDigit
    if digits.length = 3 then some (Url.decimal digits) else none
  | [] => none

/-- The value of a header among lines. -/
def header? (name : String) (lines : List Bytes) : Option String :=
  lines.findSome? fun line =>
    let text := (Utf8.decode line).toList
    if (text.takeWhile (· != ':')).map Char.toLower == name.toList then
      some (String.ofList (((text.dropWhile (· != ':')).drop 1).dropWhile (· == ' ')))
    else none

/-- A body that comes in chunks, each of them after its length. -/
def chunks? : (fuel : Nat) → Bytes → Option Bytes
  | 0, _ => none
  | fuel + 1, bytes => do
    let (line, rest) ← line? bytes
    let digits := (Utf8.decode line).toList.takeWhile fun c => (Url.hexDigit? c).isSome
    let size := digits.foldl (fun n c => 16 * n + (Url.hexDigit? c).getD 0) 0
    if digits.isEmpty || rest.length < size then none
    if size = 0 then return []
    let (_, next) ← line? (rest.drop size)
    (chunks? fuel next).map (rest.take size ++ ·)

/-- The body that follows the head of an answer. -/
def body? (head : List Bytes) (rest : Bytes) : Option Bytes :=
  if header? "transfer-encoding" head == some "chunked" then chunks? (rest.length + 1) rest
  else match (header? "content-length" head).bind String.toNat? with
    | some size => if rest.length < size then none else some (rest.take size)
    | none => some rest

/-- What the bytes of an answer say. -/
def ofWire (bytes : Bytes) : Delivery :=
  match head? (bytes.length + 1) bytes with
  | some (first :: head, rest) => match status? first, body? head rest with
    | some status, some body => .answered status body
    | _, _ => .lost "the answer cannot be read"
  | _ => .lost "the connection was closed before an answer came"

end Delivery

end RequestBoard
