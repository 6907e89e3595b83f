import RequestBoard.Config
import RequestBoard.Url
import RequestBoard.View.Codec

/-!
# The client of the document store

A view is read from `{couch_url}/{database}/_design/{design}/_view/{view}`.  A query without keys is
a `GET` request; keys are posted as the body, where they may be many.  The flags of the query are
appended to the URL.  Every failure becomes a `Fault`.
-/

namespace RequestBoard

/-- What a client reads from: the URL of a document store, a database and a design document. -/
structure Client where
  base : String
  database : String
  design : String
  /-- The tables by which the HTTP library reads domain names. -/
  idna : Url.Host.Idna

/-- A request to the document store. -/
structure Outgoing where
  method : String
  url : Url
  contentType : Option String
  body : Option Json

/-- What became of a request. -/
inductive Delivery where
  /-- No answer came. -/
  | lost (cause : String)
  /-- An answer came, with a status and the bytes of a body. -/
  | answered (status : Nat) (body : Bytes)
  deriving Inhabited

namespace Client

/-- A text without the slashes at its end. -/
def trimSlashes (text : String) : String :=
  String.ofList (text.toList.reverse.dropWhile (· == '/')).reverse

/-- A client of the document store at a URL; slashes at the end of the URL do not count.  If no tables are
given, the document store has to have an ASCII name. -/
def make (couchUrl database design : String) (idna : Url.Host.Idna := Url.Host.asciiOnly) : Client :=
  ⟨trimSlashes couchUrl, database, design, idna⟩

/-- The client that a configuration asks for. -/
def ofConfig (config : Config) (idna : Url.Host.Idna := Url.Host.asciiOnly) : Client :=
  make config.couchUrl config.database config.design idna

/-- The URL of a view. -/
def viewUrl (client : Client) (view : String) : String :=
  client.base ++ "/" ++ client.database ++ "/_design/" ++ client.design ++ "/_view/" ++ view

/-- The body that looks up keys. -/
def keysBody (keys : List Json) : Json := .object [("keys", .array keys)]

/-- The request for a query, if the URL of the view is one that a request can be sent to. -/
def request? (client : Client) (ask : Ask) : Option Outgoing := do
  let url ← Url.parse? client.idna (client.viewUrl ask.view)
  let url := url.appendPairs ask.query.params
  if ask.query.keys.isEmpty then
    some { method := "GET", url := url, contentType := none, body := none }
  else
    some { method := "POST", url := url, contentType := some "application/json",
           body := some (keysBody ask.query.keys) }

/-- An answer of one of these statuses ends with its header, whatever follows. -/
def hasNoBody (status : Nat) : Bool := status == 101 || status == 204 || status == 304

/-- A status that only announces an answer. -/
def isInterim (status : Nat) : Bool := status / 100 == 1 && status != 101

/-- The fault of a request without an answer. -/
def lost (view cause : String) : Fault :=
  .network ("View '" ++ view ++ "' request failed: " ++ cause)

/-- What an answer is worth: a response if its status is from 200 to 299 and its body spells one. -/
def read (view : String) : Delivery → Reply
  | .lost cause => .error (lost view cause)
  | .answered status body =>
    if isInterim status then .error (lost view "")
    else
      let body := if hasNoBody status then [] else body
      if status / 100 != 2 then .error (.api status (Unicode.decode body))
      else match View.Response.ofBody? body with
        | some response => .ok response
        | none => .error (.parse ("Failed to parse view '" ++ view ++ "' response: "))

/-- The document store as a source: every question becomes a request to a server.  A URL that no
request can be sent to is a request without an answer. -/
def source {σ : Type} (client : Client) (server : Outgoing → σ → Delivery × σ) : Source σ :=
  fun ask state => match client.request? ask with
    | none => (.error (lost ask.view ""), state)
    | some request =>
      let (delivery, state) := server request state
      (read ask.view delivery, state)

end Client

end RequestBoard
