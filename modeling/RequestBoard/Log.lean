import RequestBoard.Text.Blank

/-!
# Log lines and what is shown of them

A filter is a list of directives, written with commas between them.  Each one says how much is shown
of the lines whose target begins in a certain way.  For one line the most specific directive counts,
and of two that are equally specific the later one.
-/

namespace RequestBoard.Log

/-- The importance of a line. -/
inductive Level where
  | error | warn | info | debug | trace
  deriving DecidableEq, Repr

namespace Level

/-- Levels in order, the most important one first. -/
def all : List Level := [error, warn, info, debug, trace]

/-- The place of a level in that order; the first place is 1. -/
def rank : Level → Nat
  | error => 1
  | warn => 2
  | info => 3
  | debug => 4
  | trace => 5

/-- The word for a level. -/
def word : Level → String
  | error => "ERROR"
  | warn => "WARN"
  | info => "INFO"
  | debug => "DEBUG"
  | trace => "TRACE"

end Level

/-- A line of the log. -/
structure Line where
  level : Level
  /-- The part of the program that writes it. -/
  target : String
  message : String
  deriving DecidableEq, Repr

/-- The message of a line as it is written: control characters that a terminal may act on are
spelled out. -/
def Line.text (line : Line) : String :=
  let hex (c : Char) : String := String.ofList (Nat.toDigits 16 c.toNat)
  String.join (line.message.toList.map fun c =>
    if c.toNat = 0x1B ∨ c.toNat = 0x7F then "\\x" ++ hex c
    else if c.toNat = 0x07 ∨ c.toNat = 0x08 ∨ c.toNat = 0x0C then "\\x0" ++ hex c
    else if 0x80 ≤ c.toNat ∧ c.toNat ≤ 0x9F then "\\u\x7b" ++ hex c ++ "\x7d"
    else c.toString)

/-! ## Directives -/

/-- How much is shown of some lines. -/
structure Directive where
  /-- What the target of the lines begins with. -/
  target : String := ""
  /-- Whether it is only about lines inside certain spans. -/
  inSpan : Bool := false
  /-- The field that the lines must have. -/
  field : Option String := none
  /-- The rank of the least important level that is shown; zero if none is. -/
  upTo : Nat
  deriving DecidableEq, Repr

/-- A text with the letters from A to Z in lower case. -/
def lower (text : List Char) : List Char := text.map Char.toLower

/-- The number that digits spell, a plus sign before them being allowed. -/
def natural? (text : List Char) : Option Nat :=
  let digits := match text with
    | '+' :: rest => rest
    | _ => text
  if digits.isEmpty || !digits.all Char.isDigit then none
  else some (digits.foldl (fun n c => 10 * n + (c.toNat - '0'.toNat)) 0)

/-- The bound that a word or a number names; case does not matter. -/
def bound? (text : List Char) : Option Nat :=
  match natural? text with
  | some n => if n ≤ 5 then some n else none
  | none =>
    if lower text == "off".toList then some 0
    else (Level.all.find? fun level => lower text == lower level.word.toList).map Level.rank

/-- Shows everything. -/
def everything : Nat := 5

/-- The bound that follows an equals sign; none means that everything is shown. -/
def boundAfter? (text : List Char) : Option Nat :=
  if text.isEmpty then some everything else bound? text

/-- Whether a directive may begin with a character.  All characters beyond ASCII count as letters. -/
def canBegin (c : Char) : Bool :=
  c.isAlphanum || c == '-' || c == ':' || c == '_' || c == '[' || 0x80 ≤ c.toNat

/-- The bound at the end of a directive that names spans or fields; it cannot be read if the
directive is indented. -/
def tail? (isIndented : Bool) (text : List Char) : Option Nat :=
  match text with
  | '=' :: rest => if isIndented then none else boundAfter? rest
  | _ => if text.all isBlank then some everything else none

namespace Directive

/-- A directive with spans or fields, read after its opening bracket. -/
def ofBracket? (isIndented : Bool) (target : String) (text : List Char) : Option Directive :=
  let span := text.takeWhile fun c => c != ']' && c != '\x7b'
  match text.dropWhile fun c => c != ']' && c != '\x7b' with
  | ']' :: rest =>
    (tail? isIndented rest).map fun upTo => { target := target, inSpan := true, upTo := upTo }
  | '\x7b' :: rest =>
    let field := rest.takeWhile (· != '\x7d')
    match rest.dropWhile (· != '\x7d') with
    | '\x7d' :: ']' :: rest =>
      if field.isEmpty then none
      else (tail? isIndented rest).map fun upTo => {
        target := target
        inSpan := !span.isEmpty || field.contains '='
        field := some (String.ofList field)
        upTo := upTo }
    | _ => none
  | _ => none

/-- The directive that a text spells.  A single word is a bound if it can be one, and else a target
of which everything is shown.  Blanks belong to words, and a blank in front makes a bound
unreadable. -/
def ofText? (text : List Char) : Option Directive :=
  let indent := text.takeWhile isBlank
  let body := text.dropWhile isBlank
  if !body.head?.any canBegin then none
  else
    let word := body.takeWhile fun c => c != '=' && c != '['
    let target := String.ofList (indent ++ word)
    match body.dropWhile fun c => c != '=' && c != '[' with
    | [] => match bound? (indent ++ word) with
      | some upTo => some { upTo := upTo }
      | none => some { target := target, upTo := everything }
    | '=' :: rest =>
      if indent.isEmpty then
        (boundAfter? rest).map fun upTo => { target := target, upTo := upTo }
      else none
    | _ :: rest => ofBracket? (!indent.isEmpty) target rest

/-- Whether a directive is about a line; the only field of a line is its message. -/
def isAbout (directive : Directive) (line : Line) : Bool :=
  directive.target.toList.isPrefixOf line.target.toList && !directive.inSpan &&
    directive.field.all (· == "message")

/-- Whether a directive is at least as specific as another: by its target, then by its field. -/
def isAsSpecificAs (directive other : Directive) : Bool :=
  other.target.utf8ByteSize < directive.target.utf8ByteSize ||
    (other.target.utf8ByteSize == directive.target.utf8ByteSize &&
      (directive.field.isSome || other.field.isNone))

end Directive

/-! ## Filters -/

/-- The environment variable that spells a filter. -/
def filterVariable : String := "RUST_LOG"

/-- What is shown of the log. -/
structure Filter where
  directives : List Directive
  deriving DecidableEq, Repr

namespace Filter

/-- The directives that a text spells, with the commas taken out. -/
def parts (text : String) : List (List Char) :=
  (split text.toList).filter (!·.isEmpty)
where
  /-- The parts between commas. -/
  split : List Char → List (List Char)
    | [] => [[]]
    | c :: rest =>
      if c = ',' then [] :: split rest
      else match split rest with
        | first :: more => (c :: first) :: more
        | [] => [[c]]

/-- A filter without directives shows errors only. -/
def ofDirectives (directives : List Directive) : Filter :=
  ⟨if directives.isEmpty then [{ upTo := Level.error.rank }] else directives⟩

/-- The filter that a text spells. -/
def ofText? (text : String) : Option Filter :=
  ((parts text).mapM Directive.ofText?).map ofDirectives

/-- The filter that a text spells when directives that cannot be read are left out. -/
def ofText (text : String) : Filter := ofDirectives ((parts text).filterMap Directive.ofText?)

/-- The directive that counts for a line. -/
def directive? (filter : Filter) (line : Line) : Option Directive :=
  (filter.directives.filter (·.isAbout line)).foldl (fun best directive => match best with
    | none => some directive
    | some found => if directive.isAsSpecificAs found then some directive else some found) none

/-- Whether a line is shown. -/
def shows (filter : Filter) (line : Line) : Bool :=
  (filter.directive? line).any (line.level.rank ≤ ·.upTo)

/-- The filter in force: the one that a variable spells, or else the configured one. -/
def choose (value? : Option String) (configured : String) : Filter :=
  (value?.bind ofText?).getD (ofText configured)

end Filter

end RequestBoard.Log
