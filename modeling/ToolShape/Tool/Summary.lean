import ToolShape.Tool.Basic

/-!
# Summaries

A tool in plain text: a line for the tool, and one for each field of its arguments.
-/

set_option autoImplicit false

namespace ToolShape

namespace FieldShape

/-- A field in a summary. -/
def summary (f : FieldShape) : String :=
  "  " ++ f.name ++ ": " ++ f.shape.text ++ " (" ++ (if f.required then "required" else "optional")
    ++ ")" ++ (if f.description = "" then "" else " - " ++ f.description)

end FieldShape

/-- The fields of a record in a summary. -/
def RecordShape.summary (r : RecordShape) : String :=
  "\n".intercalate (r.fields.map FieldShape.summary)

namespace Tool

/-- What a summary says in place of fields when there are none. -/
def noArguments : String := "  (no arguments)"

/-- A tool and its fields. -/
def summary (tool : Tool) : String :=
  tool.name ++ " -> " ++ tool.arguments.name ++ "\n"
    ++ (if tool.arguments.fields.isEmpty then noArguments else tool.arguments.summary)

end Tool

end ToolShape
