import ToolShape.Text.Blank

/-!
# Tool names

A tool's name is any text that shows something. The class name derived from it is an identifier in
the usual capitalised style, for use in declarations.
-/

set_option autoImplicit false

namespace ToolShape.Tool

/-- The name of a tool: a text that is not blank. -/
structure Name where
  text : String
  visible : Text.allBlank text = false
deriving DecidableEq

namespace Name

/-- The name a text gives, if it is not blank. -/
def ofText? (text : String) : Option Name :=
  if h : Text.allBlank text = false then some ⟨text, h⟩ else none

theorem ofText?_text (name : Name) : ofText? name.text = some name := by
  simp [ofText?, name.visible]

/-- The letters and digits of a text, those that begin a run of them in upper case. -/
def capitalized (begins : Bool) : List Char → List Char
  | [] => []
  | c :: rest =>
    if c.isAlphanum then (if begins then c.toUpper else c) :: capitalized false rest
    else capitalized true rest

/-- The class name of a tool. It never starts with a digit and is never empty. -/
def className (name : Name) : String :=
  match capitalized true name.text.toList with
  | [] => "Tool"
  | c :: rest =>
    if c.isDigit then "Tool" ++ String.ofList (c :: rest) else String.ofList (c :: rest)

end Name

end ToolShape.Tool
