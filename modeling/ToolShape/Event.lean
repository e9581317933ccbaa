/-!
# Events

What a run reports on the way, besides its result.
-/

set_option autoImplicit false

namespace ToolShape

/-- Something that happened. Names are given as text; counts are of fields, of required fields and
of issues. -/
inductive Event where
  /-- A schema nests too deep, and the rest of it is read as any value. -/
  | depthExceeded (context : String) (depth limit : Nat)
  | recordBuilt (record : String) (fields required : Nat)
  | schemaConverted (tool record : String) (fields : Nat)
  | toolRegistered (tool record : String) (fields : Nat)
  | argumentsAccepted (tool : String)
  | argumentsRejected (tool : String) (issues : Nat)
deriving DecidableEq

namespace Event

/-- How much an event matters. -/
inductive Level where
  | debug | info | warn
deriving DecidableEq

def Level.text : Level → String
  | debug => "DEBUG"
  | info => "INFO"
  | warn => "WARN"

def level : Event → Level
  | depthExceeded .. => .warn
  | toolRegistered .. => .info
  | _ => .debug

def message : Event → String
  | depthExceeded .. => "Schema nesting exceeds depth limit; resolving as unknown"
  | recordBuilt .. => "Built record"
  | schemaConverted .. => "Converted tool schema"
  | toolRegistered .. => "Registered tool"
  | argumentsAccepted .. => "Arguments accepted"
  | argumentsRejected .. => "Arguments rejected"

/-- The particulars of an event, by name. -/
def particulars : Event → List (String × String)
  | depthExceeded context depth limit =>
    [("context", context), ("depth", toString depth), ("max_depth", toString limit)]
  | recordBuilt record fields required =>
    [("record", record), ("fields", toString fields), ("required", toString required)]
  | schemaConverted tool record fields =>
    [("tool", tool), ("record", record), ("fields", toString fields)]
  | toolRegistered tool record fields =>
    [("tool", tool), ("record", record), ("fields", toString fields)]
  | argumentsAccepted tool => [("tool", tool)]
  | argumentsRejected tool issues => [("tool", tool), ("issues", toString issues)]

/-- An event on one line. -/
def text (e : Event) : String :=
  e.level.text ++ " " ++ e.message
    ++ String.join (e.particulars.map fun (name, value) => " " ++ name ++ "=" ++ value)

end Event

end ToolShape
