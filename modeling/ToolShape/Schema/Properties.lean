import ToolShape.Json.Basic

/-!
# Properties and required names

The properties a record is built from, in order, gathered from one node or from the branches of an
`allOf`. A branch overrides the properties of earlier branches; the variants inside a branch only
add new ones.
-/

set_option autoImplicit false

namespace ToolShape.Schema

open Json (Fields)

/-- Sets each of the new properties; one already there keeps its place. -/
def override (kept : Fields) : (new : List (String × Json)) → Fields
  | [] => kept
  | (name, schema) :: rest => override (kept.put name schema) rest

/-- Adds those of the new properties that are not there yet. -/
def supplement (kept : Fields) : (new : List (String × Json)) → Fields
  | [] => kept
  | (name, schema) :: rest => supplement (kept.putNew name schema) rest

/-- The properties of a node, if it declares any. -/
def properties (node : Json) : Fields := ((node.get? "properties").bind Json.asObject?).getD []

/-- The strings of a list of required names. -/
def requiredNames (required : Option Json) : List String :=
  ((required.bind Json.asArray?).getD []).filterMap Json.asString?

/-! ## Branches of an `allOf` -/

/-- The variants of a branch under `anyOf` and then under `oneOf`. -/
def variants (branch : Json) : List Json :=
  ((branch.get? "anyOf").bind Json.asArray?).getD []
    ++ ((branch.get? "oneOf").bind Json.asArray?).getD []

/-- Adds what one branch declares: its own properties, and the new ones of its variants. -/
def addBranch (kept : Fields) (branch : Json) : Fields :=
  (variants branch).foldl (fun kept variant => supplement kept (properties variant))
    (override kept (properties branch))

/-- The branches that are objects. -/
def branches (schema : Fields) : List Json :=
  (((schema.get? "allOf").bind Json.asArray?).getD []).filter (·.asObject?.isSome)

/-- The properties of all branches together. -/
def mergedProperties (branches : List Json) : Fields := branches.foldl addBranch []

/-- The required names of all branches together. -/
def mergedRequired (branches : List Json) : List String :=
  branches.flatMap fun branch => requiredNames (branch.get? "required")

/-- The last `type` of a branch that counts as given. -/
def lastType? (branches : List Json) : Option Json :=
  (branches.filterMap fun branch => (branch.get? "type").filter Json.isTruthy).getLast?

end ToolShape.Schema
