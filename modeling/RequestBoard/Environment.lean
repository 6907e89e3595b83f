import RequestBoard.Text.Utf8

/-!
# The environment of a process

Variables and file paths are sequences of bytes, and need not be text.  `Environment.text?` is the
view of a variable that counts only as text.
-/

namespace RequestBoard

/-- The path of a file, as the bytes that the system takes. -/
abbrev FilePath := Bytes

namespace FilePath

/-- The byte between the parts of a path. -/
def slash : UInt8 := 0x2F

/-- Whether a path begins at the root. -/
def isAbsolute (path : FilePath) : Bool := path.head? == some slash

/-- A path with a name below it: a slash joins them unless the path ends in one or is empty. -/
def join (path : FilePath) (name : String) : FilePath :=
  match path.getLast? with
  | none => Utf8.encode name
  | some last => if last = slash then path ++ Utf8.encode name
      else path ++ slash :: Utf8.encode name

/-- A path as it is shown: what is not text in it is replaced. -/
def display (path : FilePath) : String := Utf8.decode path

end FilePath

/-- What a process is told by the system that runs it. -/
structure Environment where
  /-- The value of each variable that is set. -/
  find? : String → Option Bytes
  /-- The home directory of the account that the process runs under. -/
  accountHome? : Option FilePath := none

namespace Environment

/-- The value of a variable that is set to text. -/
def text? (environment : Environment) (name : String) : Option String :=
  (environment.find? name).bind Utf8.decode?

/-- The home directory: a variable names it, or else the account has one. -/
def home? (environment : Environment) : Option FilePath :=
  ((environment.find? "HOME").filter (!·.isEmpty)).or environment.accountHome?

end Environment

end RequestBoard
