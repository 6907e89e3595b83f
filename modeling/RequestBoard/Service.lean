import RequestBoard.Cycles
import RequestBoard.Json.Writer
import RequestBoard.Service.Pages

/-!
# The HTTP service

`GET /api/requests` runs a render cycle and answers with its table; `GET /api/requests/latest` answers
with the table published last, without asking the document store.  The page, its script and the health
report do not depend on the store at all.  A `HEAD` request is handled like a `GET` request and
answered without a body.
-/

namespace RequestBoard

/-- A request. -/
structure Request where
  method : String
  target : String

/-- The answer to a request. -/
structure Answer where
  status : Nat
  contentType : Option String := none
  allow : Option String := none
  body : String := ""

/-- The resources of the service. -/
inductive Route where
  | index | script | health | requests | latest
  deriving DecidableEq, Repr

namespace Route

/-- The resource at a path; paths are compared as they are spelled. -/
def ofPath? : String → Option Route
  | "/" => some index
  | "/static/app.js" => some script
  | "/health" => some health
  | "/api/requests" => some requests
  | "/api/requests/latest" => some latest
  | _ => none

end Route

namespace Request

/-- A character of a scheme. -/
def isSchemeChar (c : Char) : Bool := c.isAlphanum || c == '+' || c == '-' || c == '.'

/-- A target without scheme and authority. -/
def localPart (target : List Char) : List Char :=
  match target.dropWhile isSchemeChar with
  | ':' :: '/' :: '/' :: rest => match rest.dropWhile fun c => !(c == '/' || c == '?' || c == '#') with
    | '/' :: path => '/' :: path
    | rest => '/' :: rest
  | _ => target

/-- The path of a target, without its query. -/
def path (request : Request) : String :=
  String.ofList <|
    (localPart request.target.toList).takeWhile fun c => !(c == '?' || c == '#')

end Request

namespace Answer

/-- An answer with a JSON body. -/
def json (status : Nat) (value : Json) : Answer :=
  { status := status, contentType := some "application/json", body := value.write }

/-- An answer that reports an error. -/
def error (status : Nat) (message : String) : Answer :=
  json status (.object [("error", .string message)])

/-- The answer to a cycle that failed: the document store is to blame for what came from it as an
error, the rows that it delivered are not. -/
def ofFault (fault : Fault) : Answer :=
  match fault with
  | .network _ | .api _ _ | .parse _ => error 502 ("Document store error: " ++ fault.message)
  | .missingIdentifier _ _ | .invalidRecord _ => error 500 ("Internal error: " ++ fault.message)

/-- The answer while nothing has been published. -/
def notLoaded : Answer := error 404 "No request table has been loaded yet"

/-- The answer for a path at which there is nothing. -/
def notFound : Answer := { status := 404 }

/-- The answer to a method that no resource has. -/
def methodNotAllowed : Answer := { status := 405, allow := some "GET,HEAD" }

end Answer

namespace Service

/-- The name under which the service reports its health. -/
def moduleName : String := "wmstats-rv"

/-- The version of the service. -/
def version : String := "0.1.0"

/-- The health report. -/
def health : Json :=
  .object [("module", .string moduleName), ("status", .string "ok"), ("version", .string version)]

/-- The answer for a table that is published. -/
def ofPublished (published : Published) : Answer := .json 200 published.toJson

/-- What an answer is made from. -/
inductive Reaction where
  /-- The table published last, if there is one. -/
  | reads (answer : Option Published → Answer)
  /-- The result of a render cycle. -/
  | renders (answer : Except Fault Published → Answer)

/-- What the answer for a resource is made from. -/
def reactionOf : Route → Reaction
  | .index => .reads fun _ =>
    { status := 200, contentType := some "text/html; charset=utf-8", body := Pages.index }
  | .script => .reads fun _ =>
    { status := 200, contentType := some "application/javascript", body := Pages.script }
  | .health => .reads fun _ => .json 200 health
  | .latest => .reads fun latest => latest.elim .notLoaded ofPublished
  | .requests => .renders fun result => match result with
    | .ok published => ofPublished published
    | .error fault => .ofFault fault

/-- A reaction whose answer loses its body. -/
def Reaction.withoutBody : Reaction → Reaction
  | reads answer => reads fun latest => { answer latest with body := "" }
  | renders answer => renders fun result => { answer result with body := "" }

/-- What the answer to a request is made from. -/
def react (request : Request) : Reaction :=
  match Route.ofPath? request.path with
  | none => .reads fun _ => .notFound
  | some route =>
    if request.method == "GET" then reactionOf route
    else if request.method == "HEAD" then (reactionOf route).withoutBody
    else .reads fun _ => .methodNotAllowed

/-- Handles one request. -/
def handle {σ : Type} (views : ViewNames) (source : Source σ) (request : Request) (cycles : Cycles)
    (state : σ) : Answer × Cycles × σ :=
  match react request with
  | .reads answer => (answer cycles.latest, cycles, state)
  | .renders answer =>
    let (result, cycles, state) := cycles.run views source state
    (answer result, cycles, state)

/-- Handles requests one after another. -/
def handleAll {σ : Type} (views : ViewNames) (source : Source σ) :
    List Request → Cycles → σ → List Answer × Cycles × σ
  | [], cycles, state => ([], cycles, state)
  | request :: rest, cycles, state =>
    let (answer, cycles, state) := handle views source request cycles state
    let (answers, cycles, state) := handleAll views source rest cycles state
    (answer :: answers, cycles, state)

end Service

end RequestBoard
