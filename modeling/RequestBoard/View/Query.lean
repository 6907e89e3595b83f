import RequestBoard.Json.Basic

/-!
# View queries

A query names the keys to look up, no keys meaning the whole view, and up to four flags.  A flag that
was never set is not sent, so that the document store applies its own default.
-/

namespace RequestBoard.View

/-- The options of one view query. -/
structure Query where
  keys : List Json := []
  includeDocs : Option Bool := none
  reduce : Option Bool := none
  group : Option Bool := none
  descending : Option Bool := none

/-- One option of a query. -/
inductive Setting where
  | keys (keys : List Json)
  | includeDocs (flag : Bool)
  | reduce (flag : Bool)
  | group (flag : Bool)
  | descending (flag : Bool)

namespace Query

/-- The query with one option replaced. -/
def set (query : Query) : Setting → Query
  | .keys keys => { query with keys := keys }
  | .includeDocs flag => { query with includeDocs := some flag }
  | .reduce flag => { query with reduce := some flag }
  | .group flag => { query with group := some flag }
  | .descending flag => { query with descending := some flag }

/-- The query that a sequence of settings makes of the empty one. -/
def ofSettings (settings : List Setting) : Query := settings.foldl set {}

/-- The flags by name, in the order in which they are sent. -/
def flags (query : Query) : List (String × Option Bool) :=
  [("include_docs", query.includeDocs), ("reduce", query.reduce), ("group", query.group),
    ("descending", query.descending)]

/-- The word for a flag. -/
def flagText (flag : Bool) : String := if flag then "true" else "false"

/-- The flags that are set, as pairs of a query string. -/
def params (query : Query) : List (String × String) :=
  query.flags.filterMap fun (name, flag) => flag.map fun flag => (name, flagText flag)

end Query

end RequestBoard.View
