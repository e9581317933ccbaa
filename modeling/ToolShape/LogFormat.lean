import ToolShape.Failure

/-!
# Log formats

The formats a log can be written in, and how they are named; upper and lower case are alike.
-/

set_option autoImplicit false

namespace ToolShape

inductive LogFormat where
  | text | json
deriving DecidableEq

namespace LogFormat

def name : LogFormat → String
  | text => "text"
  | json => "json"

/-- The format with a name. A failure gives the name in lower case. -/
def parse (name : String) : Except Failure LogFormat :=
  let lower := String.ofList (name.toList.map Char.toLower)
  if lower = "text" || lower = "pretty" then .ok .text
  else if lower = "json" then .ok .json
  else .error (.unknownLogFormat lower)

end LogFormat

end ToolShape
