import ToolShape.Shape.Basic

/-!
# Issues

An issue is a place in a value and what is wrong there. Places are kept as steps, and written as a
path only when shown.
-/

set_option autoImplicit false

namespace ToolShape

/-- A step into a value. -/
inductive Step where
  | field (name : String)
  | item (index : Nat)
deriving DecidableEq

/-- A place in a value: the steps to it from the top. -/
abbrev Place := List Step

namespace Place

def stepText : Step → String
  | .field name => "/" ++ name
  | .item index => "/" ++ toString index

/-- A place as a path; the top has the empty path. -/
def path (place : Place) : String := String.join (place.map stepText)

end Place

/-- What is wrong at a place. -/
inductive Mismatch where
  /-- A value of another kind than the one named. -/
  | wrongKind (expected : String) (found : Json.Kind)
  /-- A value that is none of the listed strings. -/
  | notListed (values : List String) (found : Json)
  /-- A value that should be a string with a point in time. -/
  | notText (kind : Scalar) (found : Json.Kind)
  /-- A string that is no point in time of the kind wanted. -/
  | notTemporal (kind : Scalar) (text : String)
  | missing

def Mismatch.message : Mismatch → String
  | wrongKind expected found => "expected " ++ expected ++ ", found " ++ found.text
  | notListed values found =>
    "expected one of " ++ (Shape.literal values).text ++ ", found " ++ found.compact
  | notText kind found => "expected " ++ kind.text ++ " string, found " ++ found.text
  | notTemporal kind text => "'" ++ text ++ "' is not a valid " ++ kind.text
  | missing => "missing required field"

/-- Something wrong at a place. -/
structure Issue where
  place : Place
  mismatch : Mismatch

namespace Issue

def path (issue : Issue) : String := issue.place.path

def message (issue : Issue) : String := issue.mismatch.message

/-- The place as it is shown: the top is a lone slash. -/
def location (issue : Issue) : String := if issue.path = "" then "/" else issue.path

def text (issue : Issue) : String := issue.location ++ ": " ++ issue.message

end Issue

end ToolShape
