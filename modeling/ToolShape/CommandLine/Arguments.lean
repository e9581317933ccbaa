/-!
# The command line's arguments

One file is named; options follow in any order, as two words or as one with an equals sign. Every
option and flag may be given once. After a lone `--` only files are named.
-/

set_option autoImplicit false

namespace ToolShape.CommandLine

/-- How the tools are shown. -/
inductive OutputFormat where
  | json | summary | typescript
deriving DecidableEq

def OutputFormat.parse? (name : String) : Option OutputFormat :=
  if name = "json" then some .json
  else if name = "summary" then some .summary
  else if name = "typescript" then some .typescript
  else none

/-- The options that take a value. -/
inductive Setting where
  | tool | format | validate | maxDepth | logLevel | logFormat
deriving DecidableEq

def Setting.parse? (name : String) : Option Setting :=
  if name = "tool" then some .tool
  else if name = "format" then some .format
  else if name = "validate" then some .validate
  else if name = "max-depth" then some .maxDepth
  else if name = "log-level" then some .logLevel
  else if name = "log-format" then some .logFormat
  else none

/-! ## Words -/

/-- The arguments as words, before their values are read. -/
structure Words where
  files : List String
  settings : List (Setting × String)
  /-- How often sequential numbering was asked for. -/
  deterministic : Nat

namespace Words

def empty : Words := ⟨[], [], 0⟩

def addFile (words : Words) (file : String) : Words := { words with files := words.files ++ [file] }

def addSetting (words : Words) (setting : Setting) (value : String) : Words :=
  { words with settings := words.settings ++ [(setting, value)] }

def addFlag (words : Words) : Words := { words with deterministic := words.deterministic + 1 }

end Words

/-- The parts of an option's name before and after its first equals sign. -/
def splitEquals : List Char → List Char × Option (List Char)
  | [] => ([], none)
  | c :: rest =>
    if c = '=' then ([], some rest)
    else
      let (name, value) := splitEquals rest
      (c :: name, value)

/-- Whether a word can only be an option, never a value. A lone hyphen is a value. -/
def looksLikeOption (word : String) : Bool :=
  match word.toList with
  | '-' :: _ :: _ => true
  | _ => false

/-- Sorts the arguments into files, settings and flags; nothing when one has no place. -/
def sortWords : List String → Words → Option Words
  | [], words => some words
  | word :: rest, words =>
    if !looksLikeOption word then sortWords rest (words.addFile word)
    else if word = "--" then some (rest.foldl Words.addFile words)
    else
      match word.toList with
      | '-' :: '-' :: name =>
        let (name, value) := splitEquals name
        let name := String.ofList name
        if name = "deterministic" then
          match value with
          | none => sortWords rest words.addFlag
          | some _ => none
        else
          match Setting.parse? name with
          | none => none
          | some setting =>
            match value with
            | some value => sortWords rest (words.addSetting setting (String.ofList value))
            | none =>
              match rest with
              | [] => none
              | value :: others =>
                if looksLikeOption value then none
                else sortWords others (words.addSetting setting value)
      | _ => none

/-! ## Values -/

/-- The greatest depth that can be asked for. -/
def greatestDepth : Nat := Nat.pow 2 64 - 1

/-- A natural number in decimal, with or without a plus sign. -/
def natural? (text : String) : Option Nat :=
  let digits := match text.toList with
    | '+' :: rest => rest
    | digits => digits
  if digits.isEmpty || !digits.all Char.isDigit then none
  else
    let n := digits.foldl (fun n c => n * 10 + (c.toNat - 48)) 0
    if n ≤ greatestDepth then some n else none

/-- The arguments, read. -/
structure Arguments where
  file : String
  tool : Option String
  format : OutputFormat
  /-- A text that should be a JSON value to check, instead of showing the tools. -/
  validate : Option String
  maxDepth : Nat
  deterministic : Bool
  logLevel : String
  logAsJson : Bool

/-- The value of a setting that may be given once. -/
def Words.value? (words : Words) (setting : Setting) : Option (Option String) :=
  match words.settings.filter (·.1 == setting) with
  | [] => some none
  | [(_, value)] => some (some value)
  | _ => none

/-- Reads a setting's value, or takes the one that stands when it is not given. -/
def Words.read {α : Type} (words : Words) (setting : Setting) (otherwise : α)
    (parse : String → Option α) : Option α := do
  match ← words.value? setting with
  | none => return otherwise
  | some value => parse value

/-- How a log's format is named here. -/
def logAsJson? (name : String) : Option Bool :=
  if name = "text" then some false else if name = "json" then some true else none

/-- Reads the values of the words; nothing when they do not make sense together. -/
def Words.arguments (words : Words) (defaultDepth : Nat) : Option Arguments := do
  let file ← match words.files with
    | [file] => if file = "" then none else some file
    | _ => none
  if 1 < words.deterministic then none
  let tool ← words.value? .tool
  let format ← words.read .format .json OutputFormat.parse?
  let validate ← words.value? .validate
  if validate.isSome && tool.isNone then none
  let maxDepth ← words.read .maxDepth defaultDepth natural?
  let logLevel ← words.read .logLevel "warn" some
  let logAsJson ← words.read .logFormat false logAsJson?
  return ⟨file, tool, format, validate, maxDepth, words.deterministic == 1, logLevel, logAsJson⟩

/-- Reads the arguments; nothing when they are misused. -/
def Arguments.parse? (defaultDepth : Nat) (arguments : List String) : Option Arguments := do
  let words ← sortWords arguments .empty
  words.arguments defaultDepth

end ToolShape.CommandLine
