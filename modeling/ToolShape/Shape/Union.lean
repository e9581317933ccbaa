import ToolShape.Shape.Equality

/-!
# The union rule

Alternatives are joined by one rule: the members of alternatives that are unions themselves are
taken out, a member the same as an earlier one is dropped, no members leave `unknown`, and a single
one stands alone.
-/

set_option autoImplicit false

namespace ToolShape.Shape

/-- The members an alternative contributes. -/
def members : Shape → List Shape
  | .union members => members
  | s => [s]

/-- Adds a member unless the same one is there already. -/
def addMember (kept : List Shape) (s : Shape) : List Shape :=
  if kept.any (·.same s) then kept else kept ++ [s]

/-- The first occurrences, up to sameness, of a list of members. -/
def distinct (all : List Shape) : List Shape := all.foldl addMember []

/-- The shape with the given members, none of which is the same as another. -/
def ofMembers : List Shape → Shape
  | [] => .unknown
  | [s] => s
  | members => .union members

/-- The shape that allows what any alternative allows. -/
def unionOf (alternatives : List Shape) : Shape :=
  ofMembers (distinct (alternatives.flatMap members))

/-! ## Null -/

/-- The shape that also allows `null`. -/
def nullable (s : Shape) : Shape := unionOf [s, null]

mutual

/-- Whether `null` is allowed. -/
def acceptsNull : Shape → Bool
  | .unknown => true
  | .scalar s => s == .null
  | .union members => anyAcceptsNull members
  | _ => false

def anyAcceptsNull : List Shape → Bool
  | [] => false
  | s :: rest => s.acceptsNull || anyAcceptsNull rest

end

/-- A union without its member `null`; any other shape as it is. -/
def withoutNull : Shape → Shape
  | .union members => unionOf (members.filter (!·.isNull))
  | s => s

end ToolShape.Shape

namespace ToolShape.FieldShape

/-- A field that must be given. -/
def mandatory (name : String) (shape : Shape) (description : String) : FieldShape :=
  ⟨name, shape, true, description⟩

/-- A field that may be left out or hold `null`. -/
def optional (name : String) (shape : Shape) (description : String) : FieldShape :=
  ⟨name, shape.nullable, false, description⟩

end ToolShape.FieldShape
