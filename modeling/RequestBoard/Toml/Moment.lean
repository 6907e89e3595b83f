/-!
# Dates and times in TOML

A moment is a date, a time of day, or both, and then possibly with an offset from universal time.
`Moment.read?` reads one at the start of a text and refuses dates that the calendar does not have.
-/

namespace RequestBoard.Toml

/-- A day of the calendar. -/
structure Date where
  year : Nat
  month : Nat
  day : Nat
  deriving DecidableEq, Repr

/-- A time of day; a minute may have a sixty-first second. -/
structure Time where
  hour : Nat
  minute : Nat
  second : Nat
  /-- The digits after the decimal point. -/
  fraction : List Nat
  deriving DecidableEq, Repr

/-- A date, a time or both. -/
structure Moment where
  date : Option Date
  time : Option Time
  /-- Minutes ahead of universal time. -/
  offset : Option Int
  deriving DecidableEq, Repr

/-- Whether a year has a twenty-ninth of February. -/
def isLeapYear (year : Nat) : Bool := year % 4 == 0 && (year % 100 != 0 || year % 400 == 0)

/-- The number of days in a month. -/
def daysIn (year month : Nat) : Nat :=
  if month == 2 then (if isLeapYear year then 29 else 28)
  else if [4, 6, 9, 11].contains month then 30
  else 31

/-- The value of a decimal digit. -/
def digit (c : Char) : Nat := c.toNat - '0'.toNat

/-- Reads a number of exactly `count` digits. -/
def readDigits? : (count : Nat) → List Char → Option (Nat × List Char)
  | 0, text => some (0, text)
  | count + 1, c :: rest =>
    if c.isDigit then
      (readDigits? count rest).map fun (n, rest) => (digit c * Nat.pow 10 count + n, rest)
    else none
  | _ + 1, [] => none

/-- Reads a number of two digits that is at most `high`. -/
def readTwo? (high : Nat) (text : List Char) : Option (Nat × List Char) :=
  (readDigits? 2 text).filter (·.1 ≤ high)

/-- Reads one given character. -/
def readChar? (wanted : Char) : List Char → Option (List Char)
  | c :: rest => if c = wanted then some rest else none
  | [] => none

/-- Reads a date. -/
def Date.read? (text : List Char) : Option (Date × List Char) := do
  let (year, rest) ← readDigits? 4 text
  let rest ← readChar? '-' rest
  let (month, rest) ← readTwo? 12 rest
  let rest ← readChar? '-' rest
  let (day, rest) ← readTwo? (daysIn year month) rest
  if month == 0 || day == 0 then none else some (⟨year, month, day⟩, rest)

/-- Reads a time of day. -/
def Time.read? (text : List Char) : Option (Time × List Char) := do
  let (hour, rest) ← readTwo? 23 text
  let rest ← readChar? ':' rest
  let (minute, rest) ← readTwo? 59 rest
  let rest ← readChar? ':' rest
  let (second, rest) ← readTwo? 60 rest
  let time : Time := ⟨hour, minute, second, []⟩
  match rest with
  | '.' :: more =>
    match more.takeWhile Char.isDigit with
    | [] => some (time, rest)
    | digits => some ({ time with fraction := digits.map digit }, more.dropWhile Char.isDigit)
  | _ => some (time, rest)

/-- Reads an offset; `Z` is universal time itself. -/
def readOffset? : List Char → Option (Int × List Char)
  | [] => none
  | c :: rest =>
    if c = 'Z' ∨ c = 'z' then some (0, rest)
    else if c = '+' ∨ c = '-' then do
      let (hour, rest) ← readTwo? 23 rest
      let rest ← readChar? ':' rest
      let (minute, rest) ← readTwo? 59 rest
      let minutes : Int := 60 * hour + minute
      some (if c = '-' then -minutes else minutes, rest)
    else none

/-- Reads the time, and possibly the offset, that may follow a date. -/
def readAfterDate? : List Char → Option (Time × Option Int × List Char)
  | [] => none
  | c :: rest =>
    if c = 'T' ∨ c = 't' ∨ c = ' ' then do
      let (time, rest) ← Time.read? rest
      match readOffset? rest with
      | some (offset, rest) => some (time, some offset, rest)
      | none => some (time, none, rest)
    else none

/-- Reads a moment. -/
def Moment.read? (text : List Char) : Option (Moment × List Char) :=
  match Date.read? text with
  | some (date, rest) => match readAfterDate? rest with
    | some (time, offset, rest) => some (⟨some date, some time, offset⟩, rest)
    | none => some (⟨some date, none, none⟩, rest)
  | none => (Time.read? text).map fun (time, rest) => (⟨none, some time, none⟩, rest)

end RequestBoard.Toml
