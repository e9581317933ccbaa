import ToolShape.Proofs.CommandLine.Run
import ToolShape.Proofs.Wire.Nesting
import ToolShape.Proofs.Wire.RoundTrip

/-!
# The command's JSON output

> **JSON output is read back exactly when it nests at most 127 levels deep, and then it shows the
> registered tools** (`json_output_reads_back`).

The depth of the output is not the depth of the file, nor that of the records, but grows with both:
five levels for a record of a record, of which two are those of a union, as optional fields are. The
limit on nesting bounds it, and a limit of 23 keeps all output readable. The usual limit of 64 does
not: a file that is read without trouble may be shown in a way that is not
(`json_output_not_read_back`).

A verdict on a call is a sentence and no JSON value, also where JSON is asked for.
-/

set_option autoImplicit false

namespace ToolShape.CommandLine

open Json (Tidy greatestNesting)
open Tool (Definition Catalog)

variable {job : Job} {readFile : String → Option String} {definitions : List Definition}

/-! ## What is shown -/

/-- What JSON output shows of tools. -/
def shown (tools : List Tool) : Json := .arr (tools.map describeTool)

theorem tidy_describeTool (tool : Tool) : Tidy (describeTool tool) := by
  refine .obj (by simp [Json.Fields.keys]) ?_
  simpa using ⟨.str tool.name, .str tool.definition.description, tool.arguments.tidy_encode⟩

theorem tidy_shown (tools : List Tool) : Tidy (shown tools) :=
  .arr (List.forall_mem_map.mpr fun tool _ => tidy_describeTool tool)

theorem nesting_shown_le {tools : List Tool} {limit : Nat}
    (h : ∀ tool ∈ tools, tool.arguments.FormedTop limit) :
    (shown tools).nesting ≤ 5 * limit + 9 := by
  refine Json.nesting_arr_le_iff.mpr (List.forall_mem_map.mpr fun tool htool => ?_)
  rw [describeTool, Json.nesting_obj_le_iff]
  simpa using (h tool htool).nesting_encode_le

/-- A value shows tools: item by item, the arguments decode to the record of the tool. -/
def Shows (v : Json) (tools : List Tool) : Prop :=
  ∃ items, v = .arr items ∧ items.length = tools.length ∧
    ∀ (i : Nat) tool, tools[i]? = some tool → ∃ item arguments,
      items[i]? = some item ∧ item.get? "arguments" = some arguments ∧
        RecordShape.decode arguments = .ok tool.arguments

theorem shows_shown (tools : List Tool) : Shows (shown tools) tools := by
  refine ⟨tools.map describeTool, rfl, List.length_map _, fun i tool htool => ?_⟩
  refine ⟨describeTool tool, tool.arguments.encode, ?_, rfl, ?_⟩
  · rw [List.getElem?_map, htool]
    rfl
  · exact tool.arguments.decodeAt_encode .document

/-! ## The tools of a job -/

theorem formedTop_convertAll (converter : Converter) (definitions : List Definition)
    (position : Nat) :
    ∀ tool ∈ (convertAll converter definitions position).value,
      tool.arguments.FormedTop converter.maxDepth := by
  induction definitions generalizing position with
  | nil => simp [convertAll]
  | cons definition rest ih =>
    rw [convertAll_cons]
    refine List.forall_mem_cons.mpr ⟨?_, ih _⟩
    rw [Tool.convert_eq]
    exact converter.formedTop_convert _ _ position

theorem formedTop_of_mem_convert (job : Job) (schedule : Schedule definitions.length) :
    ∀ tool ∈ job.convert definitions schedule, tool.arguments.FormedTop job.maxDepth := by
  unfold Job.convert
  split
  · exact formedTop_convertAll ⟨.counting 0, job.maxDepth⟩ definitions 0
  · rw [convertAtOnce_eq, results, List.map_map]
    refine List.forall_mem_map.mpr fun task _ => ?_
    simp only [Function.comp_apply, runTask, Tool.convert_eq]
    exact Converter.formedTop_convert ⟨schedule.suffixes task.2, job.maxDepth⟩ _ _ 0

/-! ## The output of a run -/

theorem job_eq {arguments : Arguments} (hjob : arguments.job = .ok job)
    (hcall : arguments.validate = none) :
    job = ⟨arguments.file, arguments.tool, arguments.format, none, arguments.maxDepth,
      arguments.deterministic⟩ := by
  unfold Arguments.job at hjob
  by_cases hzero : arguments.maxDepth = 0
  · simp [hzero, bind, Except.bind, throw, throwThe, MonadExceptOf.throw] at hjob
  · simpa [hzero, hcall, bind, Except.bind, pure, Except.pure, eq_comm] using hjob

theorem finish_json (hformat : job.format = .json) (hcall : job.call = none) (r : Registry) :
    finish job r = .ok (shown r.tools).pretty := by
  unfold finish
  rw [hcall, hformat]
  rfl

theorem runBy_json {schedules : (count : Nat) → Schedule count} (hformat : job.format = .json)
    (hcall : job.call = none) (hdefinitions : job.definitions readFile = .ok definitions) :
    job.runBy readFile schedules =
      .ok (shown (job.convert definitions (schedules definitions.length))).pretty := by
  have hadds := adds_registerConverted job (schedules definitions.length)
    (nodup_names_of_definitions hdefinitions)
  rw [runBy_eq_of_tools_eq hdefinitions hadds.consistent hadds.tools_eq_added,
    finish_json hformat hcall, hadds.tools_eq_added]
  rfl

/-- A call that its tool accepts is told to be valid, in whatever format. -/
theorem runBy_verdict {schedules : (count : Nat) → Schedule count} {call : Json} {tool : Tool}
    (hcall : job.call = some call) (htool : job.tool = some tool.name)
    (hdefinitions : job.definitions readFile = .ok definitions)
    (hmem : tool ∈ job.convert definitions (schedules definitions.length))
    (hvalid : tool.validate call = .ok ()) :
    job.runBy readFile schedules = .ok (tool.name ++ ": arguments are valid") := by
  have hadds := adds_registerConverted job (schedules definitions.length)
    (nodup_names_of_definitions hdefinitions)
  rw [← hadds.tools_eq_added] at hmem
  have hget := hadds.consistent.get?_eq_some_iff.mpr ⟨hmem, rfl⟩
  rw [runBy_eq_of_tools_eq hdefinitions hadds.consistent hadds.tools_eq_added]
  unfold finish Registry.validate
  rw [hcall, htool]
  dsimp only
  rw [hget]
  dsimp only
  rw [hvalid]
  rfl

/-- Without a call to check, JSON output is what is shown of the tools that have been registered. -/
theorem exists_output_eq {schedules : (count : Nat) → Schedule count} {words : List String}
    {arguments : Arguments} {output : String}
    (hparse : Arguments.parse? Converter.defaultMaxDepth words = some arguments)
    (hformat : arguments.format = .json) (hcall : arguments.validate = none)
    (hrun : runBy words readFile schedules = .ok output) :
    ∃ job definitions, arguments.job = .ok job ∧ job.maxDepth = arguments.maxDepth ∧
      job.definitions readFile = .ok definitions ∧
      output =
        (shown (job.convert definitions (schedules definitions.length))).pretty ++ "\n" := by
  cases hjob : arguments.job with
  | error stop =>
    unfold runBy at hrun
    rw [hparse] at hrun
    dsimp only at hrun
    rw [hjob] at hrun
    cases hrun
  | ok job =>
    rw [runBy_eq_map_of_job hparse hjob] at hrun
    have hparts := job_eq hjob hcall
    cases hdefinitions : job.definitions readFile with
    | error stop =>
      rw [runBy_of_unavailable hdefinitions] at hrun
      cases hrun
    | ok definitions =>
      rw [runBy_json (by rw [hparts]; exact hformat) (by rw [hparts]) hdefinitions] at hrun
      cases hrun
      exact ⟨job, definitions, rfl, by rw [hparts], hdefinitions, rfl⟩

/-- A run that succeeds, and whose output is no JSON value. -/
def Unreadable (result : Except Stop String) : Prop :=
  ∃ output, result = .ok output ∧ ∀ v, Json.read output ≠ .ok v

theorem runBy_json_of_words {schedules : (count : Nat) → Schedule count} {words : List String}
    {arguments : Arguments}
    (hparse : Arguments.parse? Converter.defaultMaxDepth words = some arguments)
    (hjob : arguments.job = .ok job) (hformat : job.format = .json) (hcall : job.call = none)
    (hdefinitions : job.definitions readFile = .ok definitions) :
    runBy words readFile schedules =
      .ok ((shown (job.convert definitions (schedules definitions.length))).pretty ++ "\n") := by
  rw [runBy_eq_map_of_job hparse hjob, runBy_json hformat hcall hdefinitions]
  rfl

theorem unreadable_of_deep {schedules : (count : Nat) → Schedule count} {words : List String}
    {arguments : Arguments}
    (hparse : Arguments.parse? Converter.defaultMaxDepth words = some arguments)
    (hjob : arguments.job = .ok job) (hformat : job.format = .json) (hcall : job.call = none)
    (hdefinitions : job.definitions readFile = .ok definitions)
    (hdeep : greatestNesting <
      (shown (job.convert definitions (schedules definitions.length))).nesting) :
    Unreadable (runBy words readFile schedules) := by
  refine ⟨_, runBy_json_of_words hparse hjob hformat hcall hdefinitions, fun v hv => ?_⟩
  rw [(tidy_shown _).read_pretty, Json.within_eq_ok_iff] at hv
  exact absurd hv.1 (Nat.not_le_of_lt hdeep)

theorem parse?_of_sortWords {words : List String} {sorted : Words}
    (h : sortWords words .empty = some sorted) (defaultDepth : Nat) :
    Arguments.parse? defaultDepth words = sorted.arguments defaultDepth := by
  unfold Arguments.parse?
  rw [h]
  rfl

/-! ## A file of any depth -/

/-- A chain of objects, each the only property of the one around it. -/
def chain : (length : Nat) → Json
  | 0 => .obj []
  | length + 1 => .obj [("type", .str "object"), ("properties", .obj [("a", chain length)])]

/-- A file with one tool, whose arguments are a chain. -/
def chainFile (length : Nat) : Json :=
  .arr [.obj [("name", .str "deep"), ("input_schema", chain length)]]

theorem tidy_chain (length : Nat) : Tidy (chain length) := by
  induction length with
  | zero => exact .obj List.nodup_nil (by simp)
  | succ length ih =>
    have hinner : Tidy (.obj [("a", chain length)]) := .obj (by simp [Json.Fields.keys]) (by simpa)
    exact .obj (by simp [Json.Fields.keys]) (by simpa using ⟨.str _, hinner⟩)

theorem tidy_chainFile (length : Nat) : Tidy (chainFile length) := by
  have htool : Tidy (.obj [("name", .str "deep"), ("input_schema", chain length)]) :=
    .obj (by simp [Json.Fields.keys]) (by simpa using ⟨.str _, tidy_chain length⟩)
  exact .arr (by simpa)

/-- The definition in the file of a chain. -/
def chainDefinition (length : Nat) : Definition := ⟨⟨"deep", by decide⟩, "", chain length⟩

theorem decode_chainFile (length : Nat) :
    Catalog.decode (chainFile length) = .ok [chainDefinition length] := by
  have hsettle : (chain length).settle = chain length := (tidy_chain length).settle_eq
  have hdecode : Catalog.decode (chainFile length) =
      .ok [⟨⟨"deep", by decide⟩, "", (chain length).settle⟩] := by cbv
  rw [hdecode, hsettle]
  rfl

theorem definitions_chainFile {length : Nat} (h : (chainFile length).nesting ≤ greatestNesting)
    (hall : job.tool = none) :
    job.definitions (fun _ => some (chainFile length).pretty) = .ok [chainDefinition length] := by
  have hread : Json.readFirst (chainFile length).pretty = .ok (chainFile length, []) := by
    rw [(tidy_chainFile length).readFirst_eq (List.append_nil _).symm, Json.within_of_le h]
  have hparse : Catalog.parse (chainFile length).pretty = .ok ⟨[chainDefinition length]⟩ := by
    unfold Catalog.parse
    rw [hread]
    dsimp only
    rw [decode_chainFile]
    rfl
  refine definitions_eq_ok_iff.mpr ⟨⟨[chainDefinition length]⟩, ?_, by rw [hall]; rfl⟩
  unfold load
  dsimp only
  rw [hparse]

/-! ## Reading the output back -/

/-- **JSON output is read back exactly when it does not nest too deep**, and then it shows the
registered tools. It does not nest too deep with a limit of at most 23, whatever the file holds. -/
theorem json_output_reads_back {schedules : (count : Nat) → Schedule count} {words : List String}
    {arguments : Arguments} {output : String}
    (hparse : Arguments.parse? Converter.defaultMaxDepth words = some arguments)
    (hformat : arguments.format = .json) (hcall : arguments.validate = none)
    (hrun : runBy words readFile schedules = .ok output) :
    ∃ job definitions, arguments.job = .ok job ∧ job.definitions readFile = .ok definitions ∧
      let tools :=
        (job.registerConverted definitions (schedules definitions.length)).registry.tools
      ((∃ v, Json.read output = .ok v) ↔ (shown tools).nesting ≤ greatestNesting) ∧
      (∀ v, Json.read output = .ok v → Shows v tools) ∧
      (shown tools).nesting ≤ 5 * arguments.maxDepth + 9 ∧
      (arguments.maxDepth ≤ 23 → ∃ v, Json.read output = .ok v) := by
  obtain ⟨job, definitions, hjob, hlimit, hdefinitions, rfl⟩ :=
    exists_output_eq hparse hformat hcall hrun
  refine ⟨job, definitions, hjob, hdefinitions, ?_⟩
  have hadds := adds_registerConverted job (schedules definitions.length)
    (nodup_names_of_definitions hdefinitions)
  have hformed := formedTop_of_mem_convert job (schedules definitions.length)
  rw [hadds.tools_eq_added]
  generalize job.convert definitions (schedules definitions.length) = tools at hformed
  dsimp only
  rw [(tidy_shown tools).read_pretty]
  have hnesting : (shown tools).nesting ≤ 5 * arguments.maxDepth + 9 := by
    rw [← hlimit]
    exact nesting_shown_le hformed
  refine ⟨?_, fun v hv => ?_, hnesting, fun hshallow => ⟨shown tools, ?_⟩⟩
  · simp [Json.within_eq_ok_iff]
  · obtain ⟨-, rfl⟩ := Json.within_eq_ok_iff.mp hv
    exact shows_shown tools
  · refine Json.within_of_le (Nat.le_trans hnesting ?_)
    unfold greatestNesting
    omega

/-- With a limit of 23 the chain of 25 objects is read back. -/
theorem json_output_reads_back_for_cut_chain :
    let arguments : Arguments :=
      ⟨"tools.json", none, .json, none, 23, true, "warn", false⟩
    let job : Job := ⟨"tools.json", none, .json, none, 23, true⟩
    Arguments.parse? Converter.defaultMaxDepth
        ["tools.json", "--max-depth", "23", "--deterministic"] = some arguments ∧
      ∃ output v, runBy ["tools.json", "--max-depth", "23", "--deterministic"]
          (fun _ => some (chainFile 25).pretty) Schedule.reversed = .ok output ∧
        Json.read output = .ok v ∧
        Shows v (job.registerConverted [chainDefinition 25] (Schedule.reversed 1)).registry.tools := by
  intro arguments job
  have hsorted : sortWords ["tools.json", "--max-depth", "23", "--deterministic"] .empty =
      some ⟨["tools.json"], [(.maxDepth, "23")], 1⟩ := by
    simp [sortWords, looksLikeOption, splitEquals, Setting.parse?, Words.empty, Words.addFile,
      Words.addSetting, Words.addFlag]
  have hparse : Arguments.parse? Converter.defaultMaxDepth
      ["tools.json", "--max-depth", "23", "--deterministic"] = some arguments :=
    parse?_of_sortWords hsorted _
  have hdefinitions : job.definitions (fun _ => some (chainFile 25).pretty) =
      .ok [chainDefinition 25] := definitions_chainFile (by decide +kernel) rfl
  have hjob : arguments.job = .ok job := rfl
  have hrun := @runBy_json_of_words job _ _ Schedule.reversed _ _ hparse hjob rfl rfl hdefinitions
  refine ⟨hparse, ?_⟩
  obtain ⟨job', definitions, hjob', hdefs, -, hshows, -, hread⟩ :=
    json_output_reads_back hparse rfl rfl hrun
  cases hjob'
  rw [hdefinitions] at hdefs
  cases hdefs
  obtain ⟨v, hv⟩ := hread (Nat.le_refl 23)
  exact ⟨_, v, hrun, hv, hshows v hv⟩

/-- A verdict is no JSON value. And a chain of 25 objects is shown 128 levels deep. -/
theorem json_output_not_read_back :
    Unreadable (runBy ["tools.json", "--tool", "ping", "--validate", "\x7b\x7d", "--format", "json",
      "--deterministic"] (fun _ => some "[[\"ping\"]]") Schedule.reversed) ∧
    Unreadable (runBy ["tools.json", "--format", "json", "--deterministic"]
      (fun _ => some (chainFile 25).pretty) Schedule.reversed) := by
  constructor
  · let job : Job :=
      ⟨"tools.json", some "ping", .json, some (.obj []), Converter.defaultMaxDepth, true⟩
    let ping : Definition := ⟨⟨"ping", by decide⟩, "", Definition.emptySchema⟩
    have hsorted : sortWords ["tools.json", "--tool", "ping", "--validate", "\x7b\x7d", "--format",
        "json", "--deterministic"] .empty =
          some ⟨["tools.json"], [(.tool, "ping"), (.validate, "\x7b\x7d"), (.format, "json")], 1⟩ := by
      simp [sortWords, looksLikeOption, splitEquals, Setting.parse?, Words.empty, Words.addFile,
        Words.addSetting, Words.addFlag]
    have hjob : Arguments.job ⟨"tools.json", some "ping", .json, some "\x7b\x7d",
        Converter.defaultMaxDepth, true, "warn", false⟩ = .ok job := by cbv
    have hload : load (fun _ => some "[[\"ping\"]]") "tools.json" = .ok ⟨[ping]⟩ := by cbv
    have hdefinitions : job.definitions (fun _ => some "[[\"ping\"]]") = .ok [ping] :=
      definitions_eq_ok_iff.mpr ⟨_, hload, rfl⟩
    have hrun : job.runBy (fun _ => some "[[\"ping\"]]") Schedule.reversed =
        .ok "ping: arguments are valid" :=
      runBy_verdict rfl rfl hdefinitions List.mem_cons_self rfl
    have hread : Json.read "ping: arguments are valid\n" = .error .malformed := by cbv
    refine ⟨"ping: arguments are valid\n", ?_, fun v hv => ?_⟩
    · rw [runBy_eq_map_of_job (parse?_of_sortWords hsorted _) hjob, hrun]
      rfl
    · rw [hread] at hv
      cases hv
  · have hsorted : sortWords ["tools.json", "--format", "json", "--deterministic"] .empty =
        some ⟨["tools.json"], [(.format, "json")], 1⟩ := by
      simp [sortWords, looksLikeOption, splitEquals, Setting.parse?, Words.empty, Words.addFile,
        Words.addSetting, Words.addFlag]
    let job : Job := ⟨"tools.json", none, .json, none, Converter.defaultMaxDepth, true⟩
    have hnesting : (shown (job.convert [chainDefinition 25] (Schedule.reversed 1))).nesting = 128 := by
      decide +kernel
    have hjob : Arguments.job ⟨"tools.json", none, .json, none, Converter.defaultMaxDepth, true,
        "warn", false⟩ = .ok job := rfl
    refine unreadable_of_deep (parse?_of_sortWords hsorted _) hjob rfl rfl
      (definitions_chainFile (by decide +kernel) rfl) ?_
    exact Nat.lt_of_lt_of_eq (by decide) hnesting.symm

end ToolShape.CommandLine
