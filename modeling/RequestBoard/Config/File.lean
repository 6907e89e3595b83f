import RequestBoard.Config
import RequestBoard.Text.Utf8
import RequestBoard.Toml.Reader

/-!
# Configuration files

A configuration file is TOML.  Settings that it leaves out keep their defaults and settings that are
not known are ignored.  A file that is seen must be right: only where none is seen do the defaults stand
in for it.  A file may be there and not be seen, because the system does not let its path be looked at.
-/

namespace RequestBoard

namespace Config

open Toml (Value Entries)

/-- A setting that is a text. -/
def textOf? (fallback : String) : Option Value → Option String
  | none => some fallback
  | some (.string text) => some text
  | some _ => none

/-- A setting that is a natural number up to a bound. -/
def natOf? (bound fallback : Nat) : Option Value → Option Nat
  | none => some fallback
  | some (.integer n) => if 0 ≤ n ∧ n ≤ bound then some n.toNat else none
  | some _ => none

/-- The log level of the `logging` setting: an entry of a table, or the first item of an array.  A
moment is a table without that entry. -/
def levelOf? (fallback : String) : Option Value → Option String
  | none => some fallback
  | some (.table _ entries) => textOf? fallback (entries.lookup "level")
  | some (.array []) => some fallback
  | some (.array (first :: _)) => textOf? fallback (some first)
  | some (.moment _) => some fallback
  | some _ => none

/-- The settings of a root table, if they have the right types. -/
def ofEntries? (entries : Entries) : Option Config := do
  let standard : Config := {}
  let text (key fallback : String) : Option String := textOf? fallback (entries.lookup key)
  let couchUrl ← text "couch_url" standard.couchUrl
  let database ← text "database" standard.database
  let design ← text "design" standard.design
  let campaignView ← text "campaign_view" standard.campaignView
  let latestView ← text "latest_view" standard.latestView
  let bind ← text "bind" standard.bind
  let port ← natOf? 65535 standard.port.toNat (entries.lookup "port")
  let timeout ←
    natOf? 18446744073709551615 standard.requestTimeoutSecs.toNat (entries.lookup "request_timeout_secs")
  let logLevel ← levelOf? standard.logLevel (entries.lookup "logging")
  some {
    couchUrl := couchUrl
    database := database
    design := design
    campaignView := campaignView
    latestView := latestView
    bind := bind
    port := port.toUInt16
    requestTimeoutSecs := timeout.toUInt64
    logLevel := logLevel }

/-- The settings that a TOML text gives, right or wrong. -/
def ofToml? (text : String) : Option Config := (Toml.parse? text).bind ofEntries?

/-- The valid settings that a TOML text gives. -/
def parse (text : String) : Except Problem Config :=
  match ofToml? text with
  | none => .error .malformed
  | some config => config.validate.map fun _ => config

/-! ## Files -/

/-- What is found at a path. -/
inductive Found where
  /-- There is nothing. -/
  | nothing
  /-- The system does not let the path be looked at, whatever there may be, and says why. -/
  | unreachable (reason : String)
  | directory
  /-- A file that can be seen, but that the system refuses to read, in its own words. -/
  | unreadable (reason : String)
  | file (content : Bytes)
  deriving DecidableEq, Repr

/-- Whether something is seen at the path.  A path that cannot be looked at counts as one at which there is
nothing. -/
def Found.isSeen : Found → Bool
  | .nothing | .unreachable _ => false
  | .directory | .unreadable _ | .file _ => true

/-- Loads the file that must be there. -/
def load : Found → Except Problem Config
  | .nothing => .error .notFound
  | .unreachable reason => .error (.unreadable reason)
  | .directory => .error .isDirectory
  | .unreadable reason => .error (.unreadable reason)
  | .file content => match Utf8.decode? content with
    | none => .error .notText
    | some text => parse text

/-- Loads the file if anything is seen at its path, and else gives the defaults. -/
def loadOrDefault (found : Found) : Except Problem Config := if found.isSeen then load found else .ok {}

end Config

end RequestBoard
