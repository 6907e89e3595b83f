import RequestBoard.Client.Wire
import RequestBoard.Service
import RequestBoard.Startup
import Std.Http

/-!
# The program

Everything that is decided is decided elsewhere.  Here the files are read, the lines are printed, and
the bytes go over the network.
-/

namespace RequestBoard.Program

open Std.Async

/-! ## Files and variables -/

/-- The system's words for an error. -/
def reason : IO.Error → String
  | .permissionDenied _ _ _ => "Permission denied (os error 13)"
  | error => toString error

/-- What is found at a path.  Whether anything is seen there is settled before it is read. -/
def found (path : FilePath) : IO Config.Found := do
  try
    let _ ← IO.FS.realPath path.display
  catch
    | .noFileOrDirectory _ _ _ => return .nothing
    | error => return .unreachable (reason error)
  try
    return .file (← IO.FS.readBinFile path.display).toList
  catch
    | .inappropriateType _ 21 _ => return .directory
    | error => return .unreadable (reason error)

/-- The variables that the program looks at. -/
def consulted : List String :=
  [Config.pathVariable, Options.couchUrlVariable, Options.portVariable, Log.filterVariable,
    "XDG_CONFIG_HOME", "HOME"]

/-- The environment, as far as the program looks at it. -/
def environment : IO Environment := do
  let values ← consulted.mapM fun name => return (name, ← IO.getEnv name)
  return { find? := fun name => ((values.lookup name).bind id).map Utf8.encode }

/-- What there is at the only path at which the program looks. -/
def files (arguments : List Bytes) (environment : Environment) : IO Files := do
  match Startup.wantedPath? arguments environment with
  | some path =>
    let content ← found path
    return fun asked => if asked = path then content else .nothing
  | none => return fun _ => .nothing

/-- Prints log lines. -/
def log (lines : List Log.Line) : IO Unit := do
  let output ← IO.getStdout
  for line in lines do
    let time := Std.Time.DateTime.ofTimestampWithZone (← Std.Time.Timestamp.now) .UTC
    output.putStrLn (time.format "uuuu-MM-dd'T'HH:mm:ss.SSSSSS'Z'" ++ " " ++
      (if line.level.word.length < 5 then " " else "") ++ line.level.word ++ " " ++ line.target ++
      ": " ++ line.text)
  output.flush

/-! ## The document store -/

/-- The addresses of a host. -/
def addresses (host : String) (port : UInt16) : Async (List Std.Net.SocketAddress) := do
  let inner := String.ofList (host.toList.filter fun c => c != '[' && c != ']')
  let socket : Std.Net.IPAddr → Std.Net.SocketAddress
    | .v4 address => .v4 ⟨address, port⟩
    | .v6 address => .v6 ⟨address, port⟩
  match Std.Net.IPv4Addr.ofString inner, Std.Net.IPv6Addr.ofString inner with
  | some address, _ => return [.v4 ⟨address, port⟩]
  | none, some address => return [.v6 ⟨address, port⟩]
  | none, none => return ((← DNS.getAddrInfo inner "").toList.map socket)

/-- All that comes from a connection until it is closed. -/
partial def receive (client : TCP.Socket.Client) (received : ByteArray) : Async ByteArray := do
  match ← client.recv? 65536 with
  | some bytes => receive client (received ++ bytes)
  | none => return received

/-- Sends a request and waits for the answer. -/
def exchange (request : Outgoing) : Async Delivery := do
  if request.url.secure then return .lost "no secure connection can be made"
  try
    match ← addresses request.url.host.text request.url.port.toUInt16 with
    | [] => return .lost "the host has no address"
    | address :: _ =>
      let client ← TCP.Socket.Client.mk
      client.connect address
      client.send ⟨request.wire.toArray⟩
      return .ofWire (← receive client ByteArray.empty).toList
  catch error => return .lost (toString error)

/-- Sends a request and waits for the answer, but not for ever. -/
def exchangeWithin (seconds : UInt64) (request : Outgoing) : Async Delivery :=
  Async.race (exchange request) do
    sleep (.ofNat (seconds.toNat * 1000))
    return .lost "operation timed out"

/-! ## The service -/

/-- The service while it runs. -/
structure Running where
  client : Client
  views : ViewNames
  timeout : UInt64
  cycles : IO.Ref Cycles

/-- The answer of the document store to a question. -/
def Running.ask (running : Running) (ask : Ask) : Async Reply := do
  match running.client.request? ask with
  | none => return .error (Client.lost ask.view "the address cannot be used")
  | some request => return Client.read ask.view (← exchangeWithin running.timeout request)

/-- Asks one question after another until a run has its result. -/
partial def Running.fetch (running : Running) (stage : Fetch.Stage) : Async (Except Fault Batches) := do
  match stage.reply (← running.ask (stage.ask running.views)) with
  | .ask next => running.fetch next
  | .done result => return result

/-- Runs a render cycle. -/
def Running.render (running : Running) : Async (Except Fault Published) := do
  let generation ← running.cycles.modifyGet Cycles.begin
  match Cycles.tableOf (← running.fetch .registry) with
  | .error fault => return .error fault
  | .ok table =>
    let published : Published := ⟨generation, table⟩
    running.cycles.modify fun cycles => (cycles.publish published).2
    return .ok published

/-- The answer to a request. -/
def Running.answer (running : Running) (request : Request) : Async Answer := do
  match Service.react request with
  | .reads answer => return answer (← running.cycles.get).latest
  | .renders answer => return answer (← running.render)

/-- An answer as the network library takes it. -/
def respond (answer : Answer) : Async (Std.Http.Response Std.Http.Body.Full) := do
  let status := (Std.Http.Status.ofCode none answer.status.toUInt16).getD .internalServerError
  let mut response := Std.Http.Response.withStatus status
  if let some contentType := answer.contentType then
    response := response.header! "content-type" contentType
  if let some allow := answer.allow then
    response := response.header! "allow" allow
  response.fromBytes answer.body.toUTF8

instance : Std.Http.Server.Handler Running where
  ResponseBody := Std.Http.Body.Full
  onRequest running request := do
    respond (← running.answer ⟨toString request.line.method, toString request.line.uri⟩)

/-- Waits for a signal that ends the service. -/
def awaitSignal : Async Startup.Signal := do
  let interrupt ← Std.Async.Signal.Waiter.mk .sigint false
  let terminate ← Std.Async.Signal.Waiter.mk .sigterm false
  Selectable.one #[
    .case interrupt.selector fun _ => return .interrupt,
    .case terminate.selector fun _ => return .terminate]

/-- Listens, unless the address cannot be used. -/
def listen (ready : Startup.Ready) : Async (Option Std.Http.Server) := do
  if !ready.mayListen then return none
  let config := ready.config
  try
    match ← addresses config.bind config.port with
    | [] => return none
    | address :: _ =>
      let cycles ← IO.mkRef {}
      let running : Running :=
        ⟨Client.ofConfig config, config.views, config.requestTimeoutSecs, cycles⟩
      return some (← Std.Http.Server.serve address running)
  catch _ => return none

/-- Reports a failure. -/
def report (failure : Startup.Failure) : IO UInt32 := do
  IO.eprintln ("Error: " ++ failure.message)
  if let some problem := failure.problem? then
    IO.eprintln ("\nCaused by:\n    " ++ problem.message)
  return Startup.failureCode.toUInt32

/-- Serves until a signal comes. -/
def serve (ready : Startup.Ready) : Async UInt32 := do
  log ready.opening
  match ← listen ready with
  | none => report ready.failure
  | some server =>
    log ready.listening
    log (ready.signalled (← awaitSignal))
    server.shutdownAndWait
    log ready.closed
    return 0

/-- Does what the plan says. -/
def run (arguments : List Bytes) : IO UInt32 := do
  let environment ← environment
  match Startup.plan arguments environment (← files arguments environment) with
  | .misused =>
    IO.eprintln "error: the command line is wrong\n\nFor more information, try '--help'."
    return Startup.misuseCode.toUInt32
  | .print text => IO.print text; return 0
  | .fail failure => report failure
  | .serve ready => Async.block (serve ready)

end RequestBoard.Program

/-- Runs the service. -/
def main (arguments : List String) : IO UInt32 :=
  RequestBoard.Program.run (arguments.map RequestBoard.Utf8.encode)
