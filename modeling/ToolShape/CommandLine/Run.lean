import ToolShape.CommandLine.Arguments
import ToolShape.CommandLine.Tasks
import ToolShape.Tool.Registry

/-!
# The command

The command reads a document of tools, picks one tool or all of them, converts and registers them,
and then shows the registry or checks a call's arguments.
-/

set_option autoImplicit false

namespace ToolShape.CommandLine

open Tool (Definition Catalog)

/-- Why the command gives no output. -/
inductive Stop where
  /-- The arguments are misused. -/
  | usage
  | zeroDepth
  /-- The arguments to check are no JSON value. -/
  | unreadableCall
  /-- The document cannot be had; without a failure, the file itself could not be read. -/
  | unloadable (path : String) (failure : Option Failure)
  | failed (failure : Failure)

namespace Stop

def exitCode : Stop → Nat
  | usage => 2
  | _ => 1

/-- What went wrong; misuse of the arguments is told in words of its own. -/
def message? : Stop → Option String
  | usage => none
  | zeroDepth => some "Failed to parse arguments"
  | unreadableCall => some "Failed to parse arguments"
  | unloadable path _ => some ("Failed to load " ++ path)
  | failed failure => some failure.message

/-- Why it went wrong, where that is more than the message says. -/
def cause? : Stop → Option String
  | zeroDepth => some "--max-depth must be at least 1"
  | unreadableCall => some "--validate expects a JSON value"
  | unloadable _ (some failure) => some failure.message
  | _ => none

end Stop

/-- What the command is to do, once its arguments make sense. -/
structure Job where
  file : String
  tool : Option String
  format : OutputFormat
  /-- The arguments to check, when a call is checked. -/
  call : Option Json
  maxDepth : Nat
  deterministic : Bool

/-- Checks the arguments that are well-formed for sense. -/
def Arguments.job (arguments : Arguments) : Except Stop Job := do
  if arguments.maxDepth = 0 then throw .zeroDepth
  let call ← match arguments.validate with
    | none => pure none
    | some text =>
      match Json.read text with
      | .ok v => pure (some v)
      | .error _ => throw .unreadableCall
  return ⟨arguments.file, arguments.tool, arguments.format, call, arguments.maxDepth,
    arguments.deterministic⟩

/-- Reads the document of a job. -/
def load (readFile : String → Option String) (path : String) : Except Stop Catalog :=
  match readFile path with
  | none => .error (.unloadable path none)
  | some text =>
    match Catalog.parse text with
    | .ok catalog => .ok catalog
    | .error failure => .error (.unloadable path (some failure))

/-- The definitions of a job: those of one tool, or all. -/
def chosen (catalog : Catalog) : Option String → Except Failure (List Definition)
  | some name => catalog.select [name]
  | none => .ok catalog.definitions

/-! ## Output -/

/-- A tool as it is shown in JSON. -/
def describeTool (tool : Tool) : Json :=
  .obj [("name", .str tool.name), ("description", .str tool.definition.description),
    ("arguments", tool.arguments.encode)]

/-- The tools of a registry in one of the formats. -/
def render (registry : Registry) : OutputFormat → String
  | .json => (Json.arr (registry.tools.map describeTool)).pretty
  | .summary => "\n\n".intercalate registry.summaries
  | .typescript => registry.typescript

/-- Does what a job asks with a registry of its tools. -/
def finish (job : Job) (registry : Registry) : Except Failure String :=
  match job.call, job.tool with
  | some call, some tool =>
    match (registry.validate tool call).result with
    | .ok _ => .ok (tool ++ ": arguments are valid")
    | .error failure => .error failure
  | _, _ => .ok (render registry job.format)

/-- Registers the tools of a job, and finishes it. -/
def deliver (job : Job) (converter : Converter) (tools : List Tool) : Except Failure String :=
  let reply := (Registry.empty converter).registerTools tools
  match reply.result with
  | .ok _ => finish job reply.registry
  | .error failure => .error failure

/-- The definitions that a job is about. -/
def Job.definitions (job : Job) (readFile : String → Option String) :
    Except Stop (List Definition) := do
  let catalog ← load readFile job.file
  (chosen catalog job.tool).mapError .failed

/-- The converter of a job: suffixes count up if that is asked for. -/
def Job.converter (job : Job) (random : Name.Source) : Converter :=
  ⟨if job.deterministic then Name.Source.counting 0 else random, job.maxDepth⟩

/-- Converts the definitions of a job. Counted suffixes are drawn by one task for all of them. -/
def Job.convert (job : Job) (definitions : List Definition)
    (schedule : Schedule definitions.length) : List Tool :=
  if job.deterministic then (convertAll ⟨.counting 0, job.maxDepth⟩ definitions 0).value
  else convertAtOnce job.maxDepth definitions schedule

/-- The output of a job, without the end of its last line, when its tasks run by a schedule. -/
def Job.runBy (job : Job) (readFile : String → Option String)
    (schedules : (count : Nat) → Schedule count) : Except Stop String := do
  let definitions ← job.definitions readFile
  let schedule := schedules definitions.length
  -- The registry would draw after all tasks, but nothing is converted from here on.
  let converter := job.converter (schedule.suffixes definitions.length)
  (deliver job converter (job.convert definitions schedule)).mapError .failed

/-- The output of the command for its arguments, when its tasks run by a schedule. -/
def runBy (arguments : List String) (readFile : String → Option String)
    (schedules : (count : Nat) → Schedule count) : Except Stop String := do
  match Arguments.parse? Converter.defaultMaxDepth arguments with
  | none => throw .usage
  | some arguments =>
    let job ← arguments.job
    let output ← job.runBy readFile schedules
    return output ++ "\n"

/-- The output of the command for its arguments. -/
def run (arguments : List String) (readFile : String → Option String) (random : Name.Source) :
    Except Stop String :=
  runBy arguments readFile (Schedule.inTurns random)

end ToolShape.CommandLine
