import ToolShape.Text.Alphabetic
import ToolShape.Text.Case

/-!
# Contexts

The context of a generated name says what the record describes: a tool's arguments, a field, or the
items of a field.
-/

set_option autoImplicit false

namespace ToolShape.Name

/-- What a generated record describes. -/
structure Context where
  text : String
deriving DecidableEq

namespace Context

/-- A tool's name with spaces and hyphens replaced by underscores. -/
def sanitize (toolName : String) : String :=
  String.ofList (toolName.toList.map fun c => if c = '-' || c = ' ' then '_' else c)

/-- The context of a tool's arguments. -/
def ofTool (toolName : String) : Context := ⟨sanitize toolName ++ "Schema"⟩

/-- Capitalises each run of letters; `inRun` tells whether the character before was a letter. -/
def capitalize (inRun : Bool) : List Char → List Char
  | [] => []
  | c :: rest =>
    if Text.isAlphabetic c then
      (if inRun then Text.lower c else Text.upper c) ++ capitalize true rest
    else c :: capitalize false rest

/-- A text with the first letter of each run of letters in upper case and the others in lower. -/
def titleCase (text : String) : String := String.ofList (capitalize false text.toList)

/-- The context of a field. -/
def ofField (fieldName : String) : Context := ⟨titleCase fieldName⟩

/-- The context of the items of a list. -/
def item (context : Context) : Context := ⟨context.text ++ "Item"⟩

end Context

end ToolShape.Name
