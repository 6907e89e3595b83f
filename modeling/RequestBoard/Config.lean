import RequestBoard.Fetch
import RequestBoard.Text.Blank

/-!
# Configuration

Every setting has a built-in default.  `Config.validate` checks what the type of a setting does not:
the store's URL is an HTTP URL, no name is blank and the timeout is not zero.
-/

namespace RequestBoard

/-- The settings of the service. -/
structure Config where
  /-- The URL of the document store. -/
  couchUrl : String := "http://127.0.0.1:5984"
  database : String := "wmstats"
  /-- The design document that holds the views. -/
  design : String := "WMStats"
  campaignView : String := "campaign-request"
  latestView : String := "latest-request"
  /-- The address that the service listens on. -/
  bind : String := "127.0.0.1"
  port : UInt16 := 5730
  /-- The time allowed for one view query, in seconds. -/
  requestTimeoutSecs : UInt64 := 30
  logLevel : String := "info"
  deriving DecidableEq, Repr

namespace Config

/-- What may be wrong with settings of the right types. -/
inductive Defect where
  | notHttp (url : String)
  | blank (name : String)
  | zeroTimeout
  deriving DecidableEq, Repr

/-- The wording of a defect. -/
def Defect.detail : Defect → String
  | .notHttp url => "couch_url must be an http(s) URL, got '" ++ url ++ "'"
  | .blank name => name ++ " must not be empty"
  | .zeroTimeout => "request_timeout_secs must be greater than zero"

/-- Why a configuration could not be had. -/
inductive Problem where
  /-- There is nothing at the path of the file. -/
  | notFound
  /-- There is a directory at the path of the file. -/
  | isDirectory
  /-- The system refuses to read the file, in its own words. -/
  | unreadable (reason : String)
  /-- The file is not UTF-8. -/
  | notText
  /-- The file is not TOML, or a setting has the wrong type. -/
  | malformed
  /-- A setting has no usable value. -/
  | invalid (defect : Defect)
  deriving DecidableEq, Repr

/-- The wording of a problem; what is wrong with a malformed file is not worded. -/
def Problem.message : Problem → String
  | .notFound => "IO error: No such file or directory (os error 2)"
  | .isDirectory => "IO error: Is a directory (os error 21)"
  | .unreadable reason => "IO error: " ++ reason
  | .notText => "IO error: stream did not contain valid UTF-8"
  | .malformed => "TOML parse error: "
  | .invalid defect => "Configuration error: " ++ defect.detail

/-- Whether a text begins with another. -/
def startsWith (text lead : String) : Bool := lead.toList.isPrefixOf text.toList

/-- The names that must not be blank, in the order in which they are checked. -/
def names (config : Config) : List (String × String) :=
  [("database", config.database), ("design", config.design),
    ("campaign_view", config.campaignView), ("latest_view", config.latestView)]

/-- The first defect of the settings, if there is one. -/
def defect? (config : Config) : Option Defect :=
  if !(startsWith config.couchUrl "http://" || startsWith config.couchUrl "https://") then
    some (.notHttp config.couchUrl)
  else match config.names.find? fun (_, value) => isAllBlank value with
    | some (name, _) => some (.blank name)
    | none => if config.requestTimeoutSecs == 0 then some .zeroTimeout else none

/-- Accepts settings without a defect. -/
def validate (config : Config) : Except Problem Unit :=
  match config.defect? with
  | some defect => .error (.invalid defect)
  | none => .ok ()

/-- The address that the service listens on, as `host:port`. -/
def listenAddress (config : Config) : String := config.bind ++ ":" ++ toString config.port.toNat

/-- The views that the service reads. -/
def views (config : Config) : ViewNames := ⟨config.campaignView, config.latestView⟩

end Config

end RequestBoard
