import ToolShape.Conversion
import ToolShape.Name.Generated
import ToolShape.Schema.Description
import ToolShape.Schema.Form

/-!
# Converting schemas into shapes

A converter has a source of suffixes and a limit on nesting. It resolves a node by its form, one
level at a time; below the limit a node is any value, and a warning says so. A record takes its
suffix after its fields have taken theirs, so nested records are numbered first.
-/

set_option autoImplicit false

namespace ToolShape

open Name (Context)
open Json (Fields)

/-- The settings of a conversion. -/
structure Converter where
  source : Name.Source
  /-- The deepest level that is resolved; the fields of a tool's record are at level one. -/
  maxDepth : Nat

namespace Converter

/-- The limit on nesting unless another is set. -/
def defaultMaxDepth : Nat := 64

/-- A way to resolve a node under a context. -/
abbrev Resolution := Json → Context → Conversion Shape

/-! ## Records and alternatives, given how their parts are resolved -/

/-- The field of a property, once its shape is known. -/
def field (required : List String) (name : String) (schema : Json) (shape : Shape) : FieldShape :=
  if required.contains name then .mandatory name shape (Schema.describe schema)
  else .optional name shape (Schema.describe schema)

/-- The fields of a record, from first to last. -/
def resolveFields (resolution : Resolution) (required : List String) :
    List (String × Json) → Conversion (List FieldShape)
  | [] => pure []
  | (name, schema) :: rest => do
    let shape ← resolution schema (Context.ofField name)
    let others ← resolveFields resolution required rest
    return field required name schema shape :: others

/-- Names the fields of a record, and reports it. -/
def nameRecord (converter : Converter) (context : Context) (fields : List FieldShape) :
    Conversion RecordShape := do
  let suffix ← Conversion.draw converter.source
  let record : RecordShape := ⟨Name.generated context suffix, fields⟩
  Conversion.report (.recordBuilt record.name record.fields.length record.requiredFields.length)
  return record

/-- A record of properties. Required names that are no properties mean nothing. -/
def resolveRecord (converter : Converter) (resolution : Resolution) (context : Context)
    (properties : Fields) (required : List String) : Conversion RecordShape := do
  let fields ← resolveFields resolution required properties
  converter.nameRecord context fields

/-- The shapes of alternatives, all under one context. -/
def resolveAlternatives (resolution : Resolution) (context : Context) :
    List Json → Conversion (List Shape)
  | [] => pure []
  | node :: rest => do
    let shape ← if Schema.isPinned node then pure Shape.string else resolution node context
    let others ← resolveAlternatives resolution context rest
    return shape :: others

/-! ## Nodes -/

/-- Resolves a node with `levels` levels left below the limit. -/
def resolveWithin (converter : Converter) : (levels : Nat) → Resolution
  | 0, _, context => do
    Conversion.report (.depthExceeded context.text (converter.maxDepth + 1) converter.maxDepth)
    return .unknown
  | levels + 1, node, context =>
    match Schema.form node with
    | .leaf shape => pure shape
    | .list items => return .sequence (← converter.resolveWithin levels items context.item)
    | .record properties required =>
      return .record
        (← converter.resolveRecord (converter.resolveWithin levels) context properties required)
    | .alternatives nodes =>
      return Shape.unionOf
        (← resolveAlternatives (converter.resolveWithin levels) context nodes)

/-- Resolves a single node. -/
def resolve (converter : Converter) (node : Json) (context : Context) : Conversion Shape :=
  converter.resolveWithin converter.maxDepth node context

/-- A record straight from its properties and required names. -/
def buildRecord (converter : Converter) (context : Context) (properties : Fields)
    (required : List String) : Conversion RecordShape :=
  converter.resolveRecord (converter.resolveWithin converter.maxDepth) context
    (Schema.override [] properties) required

/-- The record of a tool's arguments. A schema without properties gives a record without fields. -/
def convert (converter : Converter) (toolName : String) (schema : Json) :
    Conversion RecordShape := do
  let record ← converter.buildRecord (Context.ofTool toolName) (Schema.properties schema)
    (Schema.requiredNames (schema.get? "required"))
  Conversion.report (.schemaConverted toolName record.name record.fields.length)
  return record

end Converter

end ToolShape
