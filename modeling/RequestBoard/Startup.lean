import RequestBoard.CommandLine
import RequestBoard.Config.File
import RequestBoard.Config.Location
import RequestBoard.Log

/-!
# Starting up

`Startup.plan` decides from the command line, the environment and the files what the program does.
The configuration is that of the file, or the defaults if no file is seen, with the options of the
command line laid over it.  It is checked twice: as it stands in the file, and as it is in force.
-/

namespace RequestBoard

/-- What is found at each path. -/
abbrev Files := FilePath → Config.Found

/-- The configuration with the options laid over it. -/
def Options.override (options : Options) (config : Config) : Config :=
  { config with
    couchUrl := options.couchUrl.getD config.couchUrl
    port := options.port.getD config.port }

namespace Startup

/-- A step of starting up that has failed. -/
inductive Failure where
  /-- The configuration file cannot be used. -/
  | loading (problem : Config.Problem)
  /-- The configuration in force cannot be used. -/
  | configuration (problem : Config.Problem)
  /-- The program cannot listen on its address. -/
  | binding (address : String)
  deriving DecidableEq, Repr

/-- The step that has failed, in words. -/
def Failure.message : Failure → String
  | loading _ => "Failed to load configuration"
  | configuration _ => "Invalid configuration"
  | binding address => "Failed to bind to " ++ address

/-- The problem beneath a failure, as far as it is the program's own. -/
def Failure.problem? : Failure → Option Config.Problem
  | loading problem | configuration problem => some problem
  | binding _ => none

/-- The path of the configuration file. -/
def configPath? (options : Options) (environment : Environment) : Option FilePath :=
  Config.locate? options.config Config.pathVariable environment

/-- What is found at a path that may not be known. -/
def lookUp (files : Files) (path? : Option FilePath) : Config.Found :=
  path?.elim .nothing files

/-- The configuration in force. -/
def configure (options : Options) (environment : Environment) (files : Files) :
    Except Failure Config :=
  match Config.loadOrDefault (lookUp files (configPath? options environment)) with
  | .error problem => .error (.loading problem)
  | .ok loaded =>
    let config := options.override loaded
    match config.validate with
    | .error problem => .error (.configuration problem)
    | .ok () => .ok config

/-- The signals that end the service. -/
inductive Signal where
  | interrupt
  | terminate
  deriving DecidableEq, Repr

/-- The service, ready to listen. -/
structure Ready where
  config : Config
  /-- The path of the configuration file, if there is one. -/
  path? : Option FilePath
  filter : Log.Filter

namespace Ready

/-- A line of the program's own log. -/
def line (message : String) : Log.Line := ⟨.info, "wmstats_rv", message⟩

/-- The lines that the filter shows, one for each message. -/
def lines (ready : Ready) (messages : List String) : List Log.Line :=
  (messages.map line).filter ready.filter.shows

/-- What is logged before the service listens. -/
def opening (ready : Ready) : List Log.Line := ready.lines [
  "Starting WMStats Request View (wmstats-rv) v0.1.0",
  "Configuration: " ++ ready.path?.elim "built-in defaults" FilePath.display,
  "Document store: " ++ ready.config.couchUrl ++ "/" ++ ready.config.database ++
    " (design " ++ ready.config.design ++ ")"]

/-- What is logged once the service listens. -/
def listening (ready : Ready) : List Log.Line := ready.lines [
  "wmstats-rv listening on http://" ++ ready.config.listenAddress,
  "Health check: http://" ++ ready.config.listenAddress ++ "/health"]

/-- What is logged when a signal comes. -/
def signalled (ready : Ready) (signal : Signal) : List Log.Line := ready.lines [
  match signal with
  | .interrupt => "Received Ctrl+C, shutting down"
  | .terminate => "Received terminate signal, shutting down"]

/-- What is logged when the service has ended. -/
def closed (ready : Ready) : List Log.Line := ready.lines ["Server shutdown complete"]

/-- Whether the address may be one to listen on: a host with a NUL in it cannot even be looked up. -/
def mayListen (ready : Ready) : Bool := !ready.config.bind.toList.contains (Char.ofNat 0)

/-- The failure to listen. -/
def failure (ready : Ready) : Failure := .binding ready.config.listenAddress

end Ready

/-- What the program does. -/
inductive Plan where
  /-- It was called wrongly. -/
  | misused
  /-- It prints a text. -/
  | print (text : String)
  /-- It ends before it listens. -/
  | fail (failure : Failure)
  | serve (ready : Ready)

/-- The exit code of a program that has been called wrongly. -/
def misuseCode : UInt8 := 2

/-- The exit code of a program that has failed. -/
def failureCode : UInt8 := 1

/-- What the program does after its options are known. -/
def planRun (options : Options) (environment : Environment) (files : Files) : Plan :=
  match configure options environment files with
  | .error failure => .fail failure
  | .ok config =>
    let path? := configPath? options environment
    .serve {
      config := config
      path? := if (lookUp files path?).isSeen then path? else none
      filter := .choose (environment.text? Log.filterVariable) config.logLevel }

/-- The only path at which the program looks for a file. -/
def wantedPath? (arguments : List Bytes) (environment : Environment) : Option FilePath :=
  match Command.read? arguments environment with
  | some (.run options) => configPath? options environment
  | _ => none

/-- What the program does. -/
def plan (arguments : List Bytes) (environment : Environment) (files : Files) : Plan :=
  match Command.read? arguments environment with
  | none => .misused
  | some .help => .print (CommandLine.helpText environment)
  | some .version => .print CommandLine.versionText
  | some (.run options) => planRun options environment files

end Startup

end RequestBoard
