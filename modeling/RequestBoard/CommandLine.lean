import RequestBoard.Environment

/-!
# The command line

Arguments are read from left to right, and the first thing that is wrong, or that asks for help or
for the version, settles the matter.  An option that takes a value may be given once.  Two options
have a variable that stands in for them; it is looked at only if the option is not given.
-/

namespace RequestBoard

/-- What the options of a command line give. -/
structure Options where
  /-- The path of the configuration file. -/
  config : Option FilePath := none
  /-- The URL of the document store. -/
  couchUrl : Option String := none
  /-- The port to listen on. -/
  port : Option UInt16 := none
  deriving DecidableEq, Repr

/-- What a command line asks for. -/
inductive Command where
  | help
  | version
  | run (options : Options)
  deriving DecidableEq, Repr

namespace CommandLine

/-! ## Arguments -/

/-- The byte that begins an option. -/
def dash : UInt8 := 0x2D

/-- The byte between an option and a value that is attached to it. -/
def equals : UInt8 := 0x3D

/-- The options that take a value. -/
inductive Setting where
  | config | couchUrl | port
  deriving DecidableEq, Repr

/-- What an argument does where an option may stand. -/
inductive Effect where
  | help
  | version
  /-- Gives an option the value that is attached to it. -/
  | sets (setting : Setting) (value : Bytes)
  /-- Leaves the value of an option to the next argument. -/
  | awaits (setting : Setting)
  /-- Ends the options. -/
  | ends
  /-- Cannot stand here. -/
  | wrong
  deriving DecidableEq, Repr

/-- The effect of an option that takes a value. -/
def Setting.effect (setting : Setting) : (attached : Option Bytes) → Effect
  | some value => .sets setting value
  | none => .awaits setting

/-- The effect of an option with a long name. -/
def longEffect (name : Bytes) (attached : Option Bytes) : Effect :=
  match Utf8.decode? name, attached with
  | some "help", none => .help
  | some "version", none => .version
  | some "config", attached => Setting.config.effect attached
  | some "couch-url", attached => Setting.couchUrl.effect attached
  | some "port", attached => Setting.port.effect attached
  | _, _ => .wrong

/-- The value that is attached to an option with a short name, in either of two ways. -/
def attachedValue : Bytes → Option Bytes
  | [] => none
  | first :: rest => some (if first = equals then rest else first :: rest)

/-- The effect of an option with a short name and of all that follows it in its argument. -/
def shortEffect (name : UInt8) (rest : Bytes) : Effect :=
  match Char.ofNat name.toNat with
  | 'h' => .help
  | 'V' => .version
  | 'c' => Setting.config.effect (attachedValue rest)
  | 'p' => Setting.port.effect (attachedValue rest)
  | _ => .wrong

/-- Whether an argument is one of those that are no options: it does not begin with a dash, or is
one. -/
def isPlain (argument : Bytes) : Bool :=
  argument.head? != some dash || argument == [dash]

/-- The effect of an argument. -/
def effect (argument : Bytes) : Effect :=
  if isPlain argument then .wrong
  else match argument.drop 1 with
    | [] => .wrong
    | first :: rest =>
      if first ≠ dash then shortEffect first rest
      else if rest.isEmpty then .ends
      else
        let (name, tail) := (rest.takeWhile (· != equals), rest.dropWhile (· != equals))
        longEffect name (if tail.isEmpty then none else some (tail.drop 1))

/-! ## Values -/

/-- The port that a text spells: a decimal number, possibly with a sign. -/
def port? (text : Bytes) : Option UInt16 :=
  let (negative, digits) := match text with
    | first :: rest =>
      if first = 0x2B then (false, rest) else if first = dash then (true, rest) else (false, text)
    | [] => (false, [])
  if digits.isEmpty || !digits.all fun b => 0x30 ≤ b && b ≤ 0x39 then none
  else
    let n := digits.foldl (fun n b => 10 * n + (b.toNat - 0x30)) 0
    if n < 65536 ∧ (negative → n = 0) then some n.toUInt16 else none

end CommandLine

namespace Options

open CommandLine

/-- The options with a value for one of them that has none yet. -/
def set? (options : Options) (setting : Setting) (value : Bytes) : Option Options :=
  match setting with
  | .config =>
    if options.config.isSome || value.isEmpty then none
    else some { options with config := some value }
  | .couchUrl =>
    if options.couchUrl.isSome then none
    else (Utf8.decode? value).map fun url => { options with couchUrl := some url }
  | .port =>
    if options.port.isSome then none
    else (port? value).map fun port => { options with port := some port }

/-- Reads arguments on top of the options that were given before them.  `awaiting` is the option
whose value comes next. -/
def read? (awaiting : Option Setting) (options : Options) : List Bytes → Option Command
  | [] => match awaiting with
    | none => some (.run options)
    | some _ => none
  | argument :: rest => match awaiting with
    | some setting => match options.set? setting argument with
      | some options => if isPlain argument then options.read? none rest else none
      | none => none
    | none => match effect argument with
      | .help => some .help
      | .version => some .version
      | .sets setting value => match options.set? setting value with
        | some options => options.read? none rest
        | none => none
      | .awaits setting => options.read? (some setting) rest
      | .ends => if rest.isEmpty then some (.run options) else none
      | .wrong => none

/-- The variable that stands in for the URL of the document store. -/
def couchUrlVariable : String := "WMSTATS_COUCH_URL"

/-- The variable that stands in for the port. -/
def portVariable : String := "WMSTATS_PORT"

/-- The options with a variable for one of them, if it is not given. -/
def orValue? (options : Options) (setting : Setting) (isGiven : Bool) (value? : Option Bytes) :
    Option Options :=
  match value? with
  | some value => if isGiven then some options else options.set? setting value
  | none => some options

/-- The options with the variables that stand in for those that are not given. -/
def withVariables? (options : Options) (environment : Environment) : Option Options := do
  let options ←
    options.orValue? .couchUrl options.couchUrl.isSome (environment.find? couchUrlVariable)
  options.orValue? .port options.port.isSome (environment.find? portVariable)

end Options

namespace Command

/-- What arguments and variables ask for, unless there is something wrong with them. -/
def read? (arguments : List Bytes) (environment : Environment) : Option Command :=
  match Options.read? none {} arguments with
  | some (.run options) => (options.withVariables? environment).map .run
  | found => found

end Command

/-! ## Help -/

namespace CommandLine

/-- The name of the program and its version. -/
def versionText : String := "wmstats-rv 0.1.0\n"

/-- How far the descriptions of the options are indented. -/
def indentation : Nat := 31

/-- A variable and its value, as they stand behind the description of an option.  Further lines of
the value are indented as the description is. -/
def variableText (environment : Environment) (name : String) : String :=
  let value := Utf8.decode ((environment.find? name).getD [])
  let indented := value.toList.flatMap fun c =>
    if c = '\n' then c :: List.replicate indentation ' ' else [c]
  " [env: " ++ name ++ "=" ++ String.ofList indented ++ "]\n"

/-- The help text. -/
def helpText (environment : Environment) : String :=
  "Request status view for WMStats\n\n" ++
  "Usage: wmstats-rv [OPTIONS]\n\n" ++
  "Options:\n" ++
  "  -c, --config <CONFIG>        Path to the TOML configuration file\n" ++
  "      --couch-url <COUCH_URL>  CouchDB server URL (overrides the config file)" ++
    variableText environment Options.couchUrlVariable ++
  "  -p, --port <PORT>            Port to listen on (overrides the config file)" ++
    variableText environment Options.portVariable ++
  "  -h, --help                   Print help\n" ++
  "  -V, --version                Print version\n"

end CommandLine

end RequestBoard
