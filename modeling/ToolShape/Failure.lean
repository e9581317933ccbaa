import ToolShape.Check.Issue
import ToolShape.Json.Reader
import ToolShape.Wire.Fault

/-!
# Failures

Why an operation on tools gives no result. Conversion itself never fails; these are the causes met
around it, and their wording is in `Failure.message` alone.
-/

set_option autoImplicit false

namespace ToolShape

/-- Why an operation gives no result. -/
inductive Failure where
  | blankToolName
  /-- Some names asked for belong to no tool. -/
  | unknownTools (names : List String)
  | alreadyRegistered (tool : String)
  /-- Two definitions of one document share a name. -/
  | definedTwice (tool : String)
  | rejected (tool : String) (issues : List Issue)
  | unknownLogFormat (name : String)
  /-- A text is no JSON value. -/
  | unreadable (fault : Json.Fault)
  /-- A JSON value does not spell what it should. -/
  | undecodable (fault : Wire.Fault)
  /-- No file can be written at a path. -/
  | unwritable (path : String)

/-- How a text that is no JSON value went wrong. -/
def Json.Fault.text : Json.Fault → String
  | .early => "the text ends too early"
  | .malformed => "the text is malformed"

def Failure.message : Failure → String
  | blankToolName => "Invalid argument: Tool name must be non-empty"
  | unknownTools names => "Tool not found: " ++ ", ".intercalate names
  | alreadyRegistered tool =>
    "Tool registration error: Tool '" ++ tool ++ "' is already registered"
  | definedTwice tool =>
    "Tool registration error: Tool '" ++ tool ++ "' is defined more than once"
  | rejected tool issues =>
    "Invalid arguments for tool '" ++ tool ++ "': " ++ "; ".intercalate (issues.map Issue.text)
  | unknownLogFormat name =>
    "Runtime configuration error: Unknown log format '" ++ name ++ "' (expected text or json)"
  | unreadable fault => "JSON error: " ++ fault.text
  | undecodable fault => "JSON error: " ++ fault.message
  | unwritable path => "IO error: cannot write " ++ path

end ToolShape
