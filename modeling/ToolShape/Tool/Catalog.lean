import ToolShape.Tool.Definition

/-!
# Catalogs

A catalog is a document of tool definitions: a list of them, or an object with that list under
`tools`. No two definitions of a catalog share a name.
-/

set_option autoImplicit false

namespace ToolShape.Tool

open Wire (Fault)

/-- The definitions of a document, in order. -/
structure Catalog where
  definitions : List Definition

namespace Catalog

/-- The first name that occurs a second time; `seen` holds the names before. -/
def repeated? (seen : List String) : List String → Option String
  | [] => none
  | name :: rest => if seen.contains name then some name else repeated? (name :: seen) rest

/-- The names of definitions. -/
def names (definitions : List Definition) : List String := definitions.map (·.name.text)

/-- A catalog of definitions with pairwise different names. -/
def ofDefinitions (definitions : List Definition) : Except Failure Catalog :=
  match repeated? [] (names definitions) with
  | some name => .error (.definedTwice name)
  | none => .ok ⟨definitions⟩

/-! ## Documents -/

/-- Decodes definitions one by one. -/
def decodeAll : List Json → Except Fault (List Definition)
  | [] => .ok []
  | v :: rest => do
    let d ← Definition.decodeAt .tagged v
    let others ← decodeAll rest
    return d :: others

/-- The list of definitions of a document, as written: an object has it under `tools`, given
once. -/
def definitionList? : Json → Option (List Json)
  | .arr items => some items
  | .obj fields =>
    match fields.filter (·.1 == "tools") with
    | [(_, .arr items)] => some items
    | _ => none
  | _ => none

/-- The schema of a definition with its repeated keys settled. -/
def settled (d : Definition) : Definition := { d with schema := d.schema.settle }

/-- Decodes the definitions of a document. Whatever is wrong in it, the fault is the same. -/
def decode (document : Json) : Except Fault (List Definition) :=
  match (definitionList? document).map decodeAll with
  | some (.ok definitions) => .ok (definitions.map settled)
  | _ => .error .noDefinitionList

/-- Reads a document. A text that goes wrong only after its value is found so last. -/
def parse (text : String) : Except Failure Catalog :=
  match Json.readFirst text with
  | .error fault => .error (.unreadable fault)
  | .ok (document, rest) =>
    match decode document with
    | .error fault => .error (.undecodable fault)
    | .ok definitions =>
      if Json.atEnd rest then ofDefinitions definitions else .error (.unreadable .malformed)

/-! ## Looking up -/

/-- The definition with a name. -/
def byName? (catalog : Catalog) (name : String) : Option Definition :=
  catalog.definitions.find? (·.name.text == name)

/-- The definitions with the names asked for, in the order asked; all must be there. -/
def select (catalog : Catalog) (wanted : List String) : Except Failure (List Definition) :=
  match wanted.filter fun name => (catalog.byName? name).isNone with
  | [] => .ok (wanted.filterMap catalog.byName?)
  | missing => .error (.unknownTools missing)

end Catalog

end ToolShape.Tool
