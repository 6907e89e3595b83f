import RequestBoard.Url.Host

/-!
# HTTP URLs

`Url.parse?` reads the URLs that an HTTP request can be sent to, by the rules of the URL standard:
blanks around the text and line breaks in it do not count, a backslash is a slash, the host is read as
`Url.Host` has it, the segments `.` and `..` are resolved, and characters with a meaning of their own are
percent-encoded.  A user before the host is passed over.  `Url.target` is what the request line then names.
-/

namespace RequestBoard

/-- A parsed HTTP URL.  Path segments and query are percent-encoded. -/
structure Url where
  /-- Whether the scheme is `https`. -/
  secure : Bool
  host : Url.Host
  port : Nat
  path : List String
  query : Option String
  deriving DecidableEq, Repr

namespace Url

/-! ## The parts of a URL -/

/-- A text without the controls and spaces around it, and without tabs and line breaks in it. -/
def clean (text : List Char) : List Char :=
  let isEdge (c : Char) : Bool := c.toNat ≤ 0x20
  let trimmed := ((text.dropWhile isEdge).reverse.dropWhile isEdge).reverse
  trimmed.filter fun c => !(c == '\t' || c == '\n' || c == '\r')

/-- A slash or a backslash. -/
def isSlash (c : Char) : Bool := c == '/' || c == '\\'

/-- Where the authority ends. -/
def endsAuthority (c : Char) : Bool := isSlash c || c == '?' || c == '#'

/-- The scheme of a text in lower case, and what follows its colon. -/
def scheme? (text : List Char) : Option (List Char × List Char) :=
  match text.dropWhile fun c => c.isAlphanum || c == '+' || c == '-' || c == '.' with
  | ':' :: rest =>
    let scheme := text.takeWhile (· != ':')
    match scheme with
    | c :: _ => if c.isAlpha then some (scheme.map Char.toLower, rest) else none
    | [] => none
  | _ => none

/-- The part of a text after its last `@`. -/
def afterUserinfo (authority : List Char) : List Char :=
  (authority.reverse.takeWhile (· != '@')).reverse

/-- The port that follows a host, if any; it is a number below 65536. -/
def port? (standard : Nat) : List Char → Option Nat
  | [] => some standard
  | [':'] => some standard
  | ':' :: digits =>
    if digits.all Char.isDigit && decimal digits < 65536 then some (decimal digits) else none
  | _ => none

/-- The host and what follows it in an authority; a bracketed host ends at its bracket. -/
def splitHost (authority : List Char) : List Char × List Char :=
  match authority with
  | '[' :: rest =>
    match rest.dropWhile (· != ']') with
    | ']' :: tail => ('[' :: (rest.takeWhile (· != ']') ++ [']']), tail)
    | _ => (authority, [])
  | _ => (authority.takeWhile (· != ':'), authority.dropWhile (· != ':'))

/-! ## Paths -/

/-- Whether a segment stands for its own directory. -/
def isDot (segment : List Char) : Bool :=
  segment.map Char.toLower == ['.'] || segment.map Char.toLower == "%2e".toList

/-- Whether a segment stands for the directory above. -/
def isDotDot (segment : List Char) : Bool :=
  let lower := segment.map Char.toLower
  ["..", ".%2e", "%2e.", "%2e%2e"].any (·.toList == lower)

/-- Resolves segments after those already placed, which stand in reverse order.  A dot segment at the
end leaves an empty segment, so that the path ends with a slash. -/
def resolve : (placed : List (List Char)) → List (List Char) → List (List Char)
  | placed, [] => placed
  | placed, [last] =>
    if isDotDot last then [] :: placed.tail
    else if isDot last then [] :: placed
    else percentEncode inPathSet last :: placed
  | placed, segment :: rest =>
    if isDotDot segment then resolve placed.tail rest
    else if isDot segment then resolve placed rest
    else resolve (percentEncode inPathSet segment :: placed) rest

/-- The path that a text spells, which is empty or begins with a slash. -/
def pathOf (text : List Char) : List String :=
  (resolve [] (parts isSlash (text.drop 1))).reverse.map String.ofList

/-! ## Parsing -/

/-- The URL that a text spells, if a request can be sent to it: its scheme is `http` or `https`, it
has a host, and its port is a number.  What follows a `#` is not part of a request. -/
def parse? (idna : Host.Idna) (text : String) : Option Url := do
  let (scheme, rest) ← scheme? (clean text.toList)
  let secure ←
    if scheme == "https".toList then some true
    else if scheme == "http".toList then some false
    else none
  let rest := rest.dropWhile isSlash
  let authority := rest.takeWhile fun c => !endsAuthority c
  let tail := (rest.dropWhile fun c => !endsAuthority c).takeWhile (· != '#')
  let (hostText, portText) := splitHost (afterUserinfo authority)
  let port ← port? (if secure then 443 else 80) portText
  let host ← Host.parse? idna hostText
  let query := match tail.dropWhile (· != '?') with
    | [] => none
    | _ :: query => some (String.ofList (percentEncode inQuerySet query))
  some {
    secure := secure
    host := host
    port := port
    path := pathOf (tail.takeWhile (· != '?'))
    query := query }

/-! ## Queries -/

/-- A name and a value of a query.  Neither may hold a character with a meaning in a query. -/
def pairText (pair : String × String) : List Char := pair.1.toList ++ '=' :: pair.2.toList

/-- The URL with pairs appended to its query.  A query that stays empty is left out. -/
def appendPairs (url : Url) (pairs : List (String × String)) : Url :=
  let given := (url.query.getD "").toList
  let parts := (if given.isEmpty then [] else [given]) ++ pairs.map pairText
  let query := if parts.isEmpty then none else some (String.ofList (['&'].intercalate parts))
  { url with query := query }

/-- What the request line names: the path and the query. -/
def target (url : Url) : String :=
  let path := url.path.flatMap fun segment => '/' :: segment.toList
  let query := match url.query with
    | some query => '?' :: query.toList
    | none => []
  String.ofList (path ++ query)

end Url

end RequestBoard
