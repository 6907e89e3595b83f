/-!
# Why a request table could not be loaded

A `Fault` names the cause; `Fault.message` words it.
-/

namespace RequestBoard

/-- The causes for which a view query or a merge fails. -/
inductive Fault where
  /-- The document store could not be reached. -/
  | network (detail : String)
  /-- The document store answered with a status outside 200–299. -/
  | api (status : Nat) (body : String)
  /-- The document store's answer could not be read. -/
  | parse (detail : String)
  /-- A row of a batch has no id. -/
  | missingIdentifier (batch : String) (index : Nat)
  /-- A row of a batch carries a document that is not an object. -/
  | invalidRecord (id : String)
  deriving DecidableEq, Repr

/-- The wording of a fault. -/
def Fault.message : Fault → String
  | .network detail => "Network error: " ++ detail
  | .api status body => "View query failed with status " ++ toString status ++ ": " ++ body
  | .parse detail => "Parse error: " ++ detail
  | .missingIdentifier batch index =>
    "Row " ++ toString index ++ " of the " ++ batch ++ " batch has no id"
  | .invalidRecord id => "Document for '" ++ id ++ "' is not a JSON object"

end RequestBoard
