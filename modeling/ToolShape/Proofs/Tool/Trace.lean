import ToolShape.Proofs.Conversion.Events
import ToolShape.Proofs.Tool.History

/-!
# The trace of a registry

> **What a run reports are its conversions, its registrations and its verdicts, in the order in
> which they happened: of each conversion the records of its result, and of the registrations
> exactly the tools that the registry holds in the end** (`Registry.trace_faithful`).

What an operation does is said apart from what it reports: each has its entries
(`Registry.entriesOf`), and the log of a run is those of its operations, one after another. The log
leaves nothing out, because a registry changes in no other way than by the steps that its entries
name (`Registry.Logs`), a draw by somebody else being such a step too. An operation reports its
entries and nothing besides (`Registry.reports_perform`), so the trace is read off the log.
-/

set_option autoImplicit false

namespace ToolShape

open Name (Source)

def Event.isRegistration : Event → Bool
  | .toolRegistered .. => true
  | _ => false

namespace Registry

open Tool (Definition)
open Event (built told)

/-! ## Logs -/

/-- What happened to a registry. -/
inductive Entry where
  /-- A definition was converted, from the position that the source had reached. -/
  | conversion (definition : Definition) (position : Nat)
  | registration (tool : Tool)
  | verdict (tool : Tool) (arguments : Json)
  | drawnElsewhere (count : Nat)

namespace Entry

def events (converter : Converter) : Entry → List Event
  | .conversion definition position =>
    (converter.convert definition.name.text definition.schema position).events
  | .registration tool => [insertionEvent tool]
  | .verdict tool arguments => [tool.validationEvent arguments]
  | .drawnElsewhere _ => []

def registered? : Entry → Option Tool
  | .registration tool => some tool
  | _ => none

end Entry

/-- One registry becomes another, each time by what the next entry of a log says: definitions are
converted where the source stands, tools are added under free names, arguments are checked against
tools that are there, and suffixes are drawn elsewhere. -/
inductive Logs (r : Registry) : List Entry → Registry → Prop where
  | refl : Logs r [] r
  | convert {log : List Entry} {s : Registry} (before : Logs r log s) (definition : Definition) :
    Logs r (log ++ [.conversion definition s.drawn]) (s.advance (s.convert definition).drawn)
  | add {log : List Entry} {s : Registry} {tool : Tool} (before : Logs r log s)
    (free : s.has tool.name = false) : Logs r (log ++ [.registration tool]) (s.insert tool)
  | check {log : List Entry} {s : Registry} {name : String} {tool : Tool} (before : Logs r log s)
    (found : s.get? name = some tool) (arguments : Json) :
    Logs r (log ++ [.verdict tool arguments]) s
  | elsewhere {log : List Entry} {s : Registry} (before : Logs r log s) (count : Nat) :
    Logs r (log ++ [.drawnElsewhere count]) (s.advance count)

variable {r s t : Registry} {entries more : List Entry}

theorem Logs.trans (h : r.Logs entries s) (h' : s.Logs more t) : r.Logs (entries ++ more) t := by
  induction h' with
  | refl => rwa [List.append_nil]
  | convert _ definition ih =>
    rw [← List.append_assoc]
    exact ih.convert definition
  | add _ free ih =>
    rw [← List.append_assoc]
    exact ih.add free
  | check _ found arguments ih =>
    rw [← List.append_assoc]
    exact ih.check found arguments
  | elsewhere _ count ih =>
    rw [← List.append_assoc]
    exact ih.elsewhere count

theorem Logs.converter_eq (h : r.Logs entries s) : s.converter = r.converter := by
  induction h with
  | refl => rfl
  | convert _ _ ih => exact ih
  | add _ _ ih => exact ih
  | check _ _ _ ih => exact ih
  | elsewhere _ _ ih => exact ih

/-- The draws of a logged conversion are among those counted. -/
theorem Logs.drawn_le (h : r.Logs entries s) {definition : Definition} {position : Nat}
    (hmem : .conversion definition position ∈ entries) :
    (r.converter.convert definition.name.text definition.schema position).drawn ≤ s.drawn := by
  induction h with
  | refl => cases hmem
  | @convert _ s before other ih =>
    rcases List.mem_append.mp hmem with hbefore | hlast
    · exact Nat.le_trans (ih hbefore) (Nat.le_add_right s.drawn _)
    · cases List.mem_singleton.mp hlast
      rw [← before.converter_eq]
      have hdrawn : (s.convert definition).drawn =
          (s.converter.convert definition.name.text definition.schema s.drawn).drawn := by
        rw [convert_apply]
      rw [← hdrawn]
      exact Nat.le_add_left _ s.drawn
  | add _ _ ih => exact ih (by simpa using hmem)
  | check _ _ _ ih => exact ih (by simpa using hmem)
  | @elsewhere _ s _ count ih =>
    exact Nat.le_trans (ih (by simpa using hmem)) (Nat.le_add_right s.drawn count)

/-- Without its log, a step is one that a registry may take. -/
theorem Logs.reaches (h : r.Logs entries s) : r.Reaches s := by
  induction h with
  | refl => exact .refl
  | convert _ _ ih => exact ih.draw _
  | add _ free ih => exact ih.add free
  | check _ _ _ ih => exact ih
  | elsewhere _ count ih => exact ih.draw count

/-- **The tools are those of the log's registrations**, behind the ones that were there. -/
theorem Logs.tools_eq (h : r.Logs entries s) (hr : r.Consistent) :
    s.tools = r.tools ++ entries.filterMap Entry.registered? := by
  induction h with
  | refl => exact (List.append_nil _).symm
  | convert _ _ ih =>
    rw [List.filterMap_append]
    exact ih.trans (by simp [Entry.registered?])
  | add before free ih =>
    rw [tools_insert (before.reaches.consistent hr) free, ih, List.filterMap_append,
      List.append_assoc]
    rfl
  | check _ _ _ ih =>
    rw [List.filterMap_append]
    exact ih.trans (by simp [Entry.registered?])
  | elsewhere _ _ ih =>
    rw [List.filterMap_append]
    exact ih.trans (by simp [Entry.registered?])

/-! ## What operations do -/

/-- A tool is added if its name is free. -/
def entriesOfTool (r : Registry) (tool : Tool) : List Entry :=
  if r.has tool.name then [] else [.registration tool]

/-- A definition is converted if its name is free, and then added. -/
def entriesOfDefinition (r : Registry) (definition : Definition) : List Entry :=
  if r.has definition.name.text then []
  else [.conversion definition r.drawn, .registration (r.convert definition).value]

/-- The parts of a batch do what each does, up to the first that fails. -/
def entriesOfBatch {α β : Type} (register : Registry → α → Reply β)
    (entries : Registry → α → List Entry) : Registry → List α → List Entry
  | _, [] => []
  | r, part :: rest =>
    match (register r part).result with
    | .error _ => entries r part
    | .ok _ => entries r part ++ entriesOfBatch register entries (register r part).registry rest

/-- What an operation does, whether it succeeds or fails. -/
def entriesOf : Operation → Registry → List Entry
  | .register definition, r => r.entriesOfDefinition definition
  | .registerTool tool, r => r.entriesOfTool tool
  -- The conversion is done whether or not the name is free.
  | .convertAndRegister definition, r =>
    .conversion definition r.drawn :: r.entriesOfTool (r.convert definition).value
  | .registerNew name description schema, r =>
    match Definition.make name description schema with
    | .error _ => []
    | .ok definition => r.entriesOfDefinition definition
  | .registerAll definitions, r => entriesOfBatch register entriesOfDefinition r definitions
  | .registerTools tools, r => entriesOfBatch registerTool entriesOfTool r tools
  | .registerDocument text, r =>
    match Tool.Catalog.parse text with
    | .error _ => []
    | .ok catalog => entriesOfBatch register entriesOfDefinition r catalog.definitions
  | .validate name arguments, r =>
    match r.get? name with
    | none => []
    | some tool => [.verdict tool arguments]
  | .look, _ => []
  | .drawElsewhere count, _ => [.drawnElsewhere count]

/-- What operations in turn do. -/
def log : List Operation → Registry → List Entry
  | [], _ => []
  | operation :: rest, r => entriesOf operation r ++ log rest (perform operation r)

/-! ## What operations report -/

/-- What an operation reports, whether it succeeds or fails. -/
def eventsOf : Operation → Registry → List Event
  | .register definition, r => (r.register definition).events
  | .registerTool tool, r => (r.registerTool tool).events
  | .convertAndRegister definition, r => (r.convertAndRegister definition).events
  | .registerNew name description schema, r => (r.registerNew name description schema).events
  | .registerAll definitions, r => (r.registerAll definitions).events
  | .registerTools tools, r => (r.registerTools tools).events
  | .registerDocument text, r => (r.registerDocument text).events
  | .validate name arguments, r => (r.validate name arguments).events
  | .look, _ => []
  | .drawElsewhere _, _ => []

/-- What operations in turn report. -/
def trace : List Operation → Registry → List Event
  | [], _ => []
  | operation :: rest, r => eventsOf operation r ++ trace rest (perform operation r)

/-- One registry becomes another by the entries of a log, and these are what is reported. -/
structure Reports (r : Registry) (entries : List Entry) (events : List Event) (s : Registry) :
    Prop where
  logs : r.Logs entries s
  events_eq : events = entries.flatMap (Entry.events r.converter)

theorem Reports.refl : r.Reports [] [] r := ⟨.refl, rfl⟩

theorem Reports.trans {events others : List Event} (h : r.Reports entries events s)
    (h' : s.Reports more others t) : r.Reports (entries ++ more) (events ++ others) t := by
  refine ⟨h.logs.trans h'.logs, ?_⟩
  rw [h.events_eq, h'.events_eq, h.logs.converter_eq, List.flatMap_append]

theorem reports_convert (r : Registry) (definition : Definition) :
    r.Reports [.conversion definition r.drawn] (r.convert definition).events
      (r.advance (r.convert definition).drawn) := by
  refine ⟨Logs.refl.convert definition, ?_⟩
  rw [List.flatMap_singleton, convert_apply]
  rfl

theorem reports_insert {tool : Tool} (free : r.has tool.name = false) :
    r.Reports [.registration tool] [insertionEvent tool] (r.insert tool) :=
  ⟨Logs.refl.add free, rfl⟩

theorem reports_register (r : Registry) (definition : Definition) :
    r.Reports (r.entriesOfDefinition definition) (r.register definition).events
      (r.register definition).registry := by
  unfold entriesOfDefinition
  cases h : r.has definition.name.text with
  | true =>
    rw [register_of_has h]
    exact .refl
  | false =>
    rw [register_of_not_has h]
    exact (reports_convert r definition).trans (reports_insert h)

theorem reports_registerTool (r : Registry) (tool : Tool) :
    r.Reports (r.entriesOfTool tool) (r.registerTool tool).events
      (r.registerTool tool).registry := by
  unfold entriesOfTool
  cases h : r.has tool.name with
  | true =>
    rw [registerTool_of_has h]
    exact .refl
  | false =>
    rw [registerTool_of_not_has h]
    exact reports_insert h

/-- What was reported before a failure stays reported. -/
theorem reports_registerAll (r : Registry) (definitions : List Definition) :
    r.Reports (entriesOfBatch register entriesOfDefinition r definitions)
      (r.registerAll definitions).events (r.registerAll definitions).registry := by
  induction definitions generalizing r with
  | nil => exact .refl
  | cons definition rest ih =>
    have hfirst := reports_register r definition
    rw [registerAll, entriesOfBatch]
    dsimp only
    cases (r.register definition).result with
    | error failure => exact hfirst
    | ok tool => exact hfirst.trans (ih _)

theorem reports_registerTools (r : Registry) (tools : List Tool) :
    r.Reports (entriesOfBatch registerTool entriesOfTool r tools) (r.registerTools tools).events
      (r.registerTools tools).registry := by
  induction tools generalizing r with
  | nil => exact .refl
  | cons tool rest ih =>
    have hfirst := reports_registerTool r tool
    rw [registerTools, entriesOfBatch]
    dsimp only
    cases (r.registerTool tool).result with
    | error failure => exact hfirst
    | ok added => exact hfirst.trans (ih _)

/-- **An operation reports what it does**, and nothing besides. -/
theorem reports_perform (r : Registry) (operation : Operation) :
    r.Reports (entriesOf operation r) (eventsOf operation r) (perform operation r) := by
  cases operation with
  | register definition => exact reports_register r definition
  | registerTool tool => exact reports_registerTool r tool
  | convertAndRegister definition =>
    exact (reports_convert r definition).trans (reports_registerTool _ _)
  | registerNew name description schema =>
    rw [entriesOf, eventsOf, perform, registerNew]
    cases Definition.make name description schema with
    | error failure => exact .refl
    | ok definition => exact reports_register r definition
  | registerAll definitions => exact reports_registerAll r definitions
  | registerTools tools => exact reports_registerTools r tools
  | registerDocument text =>
    rw [entriesOf, eventsOf, perform, registerDocument]
    cases Tool.Catalog.parse text with
    | error failure => exact .refl
    | ok catalog => exact reports_registerAll r catalog.definitions
  | validate name arguments =>
    rw [entriesOf, eventsOf, perform, validate]
    cases hfound : r.get? name with
    | none => exact .refl
    | some tool => exact ⟨Logs.refl.check hfound arguments, rfl⟩
  | look => exact .refl
  | drawElsewhere count => exact ⟨Logs.refl.elsewhere count, rfl⟩

theorem reports_run (operations : List Operation) (r : Registry) :
    r.Reports (log operations r) (trace operations r) (run operations r) := by
  induction operations generalizing r with
  | nil => exact .refl
  | cons operation rest ih => exact (reports_perform r operation).trans (ih _)

/-! ## The whole trace -/

theorem told_conversion (h : r.Logs entries s) {start : Nat}
    (hsource : r.converter.source = .counting start) (hdrawn : s.drawn ≤ 2 ^ 32)
    {definition : Definition} {position : Nat} (hmem : .conversion definition position ∈ entries) :
    let record :=
      (r.converter.convert definition.name.text definition.schema position).value
    told (Entry.events r.converter (.conversion definition position)) =
      (Shape.record record).records.map built ++
        [.schemaConverted definition.name.text record.name record.fields.length] := by
  have hfew := Nat.le_trans (h.drawn_le hmem) hdrawn
  have fresh : r.converter.source.Fresh position
      (r.converter.convert definition.name.text definition.schema position).drawn := by
    rw [hsource]
    exact Source.fresh_counting start position hfew
  exact Converter.told_convert r.converter _ _ position fresh

/-- No conversion reports a registration. -/
theorem isRegistration_of_told {events : List Event} {records : List RecordShape}
    {tool record : String} {fields : Nat}
    (h : told events = records.map built ++ [.schemaConverted tool record fields]) :
    events.filter Event.isRegistration = [] := by
  rw [List.filter_eq_nil_iff]
  intro event hmem
  cases hwarning : event.isWarning with
  | true => cases event <;> simp_all [Event.isWarning, Event.isRegistration]
  | false =>
    have htold : event ∈ told events := List.mem_filter.mpr ⟨hmem, by rw [hwarning]; rfl⟩
    rw [h, List.mem_append, List.mem_map, List.mem_singleton] at htold
    rcases htold with ⟨r, -, rfl⟩ | rfl
    · simp [Event.isRegistration, built]
    · simp [Event.isRegistration]

theorem Logs.registrations (h : r.Logs entries s) {start : Nat}
    (hsource : r.converter.source = .counting start) (hdrawn : s.drawn ≤ 2 ^ 32) :
    (entries.flatMap (Entry.events r.converter)).filter Event.isRegistration =
      (entries.filterMap Entry.registered?).map insertionEvent := by
  have hentry : ∀ entry ∈ entries, (entry.events r.converter).filter Event.isRegistration =
      (entry.registered?.map insertionEvent).toList := by
    intro entry hmem
    cases entry with
    | conversion definition position =>
      exact isRegistration_of_told (told_conversion h hsource hdrawn hmem)
    | registration tool => rfl
    | verdict tool arguments =>
      show [tool.validationEvent arguments].filter _ = []
      unfold Tool.validationEvent
      split <;> rfl
    | drawnElsewhere count => rfl
  rw [List.filter_flatMap, List.map_filterMap, List.filterMap_eq_flatMap_toList]
  exact List.flatMap_congr hentry

theorem Consistent.order_eq (h : r.Consistent) : r.order = r.tools.map Tool.name := by
  have hnames : (r.order.map r.get?).map (Option.map Tool.name) = r.order.map some := by
    rw [List.map_map]
    refine List.map_congr_left fun name hname => ?_
    obtain ⟨tool, htool⟩ := Option.isSome_iff_exists.mp ((h.isSome_get?_iff name).mpr hname)
    rw [Function.comp_apply, htool, Option.map_some, h.name_of_get? name tool htool]
  have hsome : r.order.map some = (r.tools.map Tool.name).map some := by
    rw [← hnames, h.map_get?_order, List.map_map, List.map_map]
    rfl
  exact List.map_injective_iff.mpr (fun _ _ => Option.some.inj) hsome

theorem Consistent.map_insertionEvent_tools (h : r.Consistent) :
    r.tools.map insertionEvent =
      List.zipWith (fun name record => .toolRegistered name record.name record.fields.length)
        r.order r.records := by
  rw [h.order_eq, records, List.zipWith_map, List.zipWith_self]
  rfl

/-- **The trace is faithful.** A registry draws from a counter, and no more suffixes than there are.
Then what a run reports is its log, entry by entry. Apart from warnings a conversion tells of the
records of its result, each once and in order, and then of itself; and the registrations among the
events are those of the tools that are there in the end, in order. -/
theorem trace_faithful (start maxDepth : Nat) (operations : List Operation)
    (hdrawn : (run operations (empty ⟨.counting start, maxDepth⟩)).drawn ≤ 2 ^ 32) :
    let converter : Converter := ⟨.counting start, maxDepth⟩
    let r := run operations (empty converter)
    let history := log operations (empty converter)
    let events := trace operations (empty converter)
    (empty converter).Logs history r ∧ events = history.flatMap (Entry.events converter) ∧
    (∀ definition position, Entry.conversion definition position ∈ history →
      let outcome := converter.convert definition.name.text definition.schema position
      told outcome.events = (Shape.record outcome.value).records.map built ++
        [.schemaConverted definition.name.text outcome.value.name outcome.value.fields.length]) ∧
    r.order.length = r.records.length ∧
    events.filter Event.isRegistration =
      List.zipWith (fun name record => .toolRegistered name record.name record.fields.length)
        r.order r.records := by
  intro converter r history events
  obtain ⟨hlog, hevents⟩ := reports_run operations (empty converter)
  have hempty := consistent_empty converter
  have hconsistent : r.Consistent := hlog.reaches.consistent hempty
  refine ⟨hlog, hevents, fun _ _ => told_conversion hlog rfl hdrawn, ?_, ?_⟩
  · exact hconsistent.aligned.length_order.trans hconsistent.aligned.length_records.symm
  · have htools : r.tools = history.filterMap Entry.registered? := hlog.tools_eq hempty
    rw [← hconsistent.map_insertionEvent_tools, htools]
    rw [show events = _ from hevents]
    exact hlog.registrations rfl hdrawn

/-- A forecast is registered, converted once more in vain, and called without its arguments. The
limit cuts off the place's field, so each conversion warns. -/
theorem trace_faithful_for_two_forecasts :
    let place : Json := .obj [("type", .str "object"),
      ("properties", .obj [("city", .obj [("type", .str "string")])]),
      ("required", .arr [.str "city"])]
    let forecast : Definition := ⟨⟨"forecast", by decide⟩, "",
      .obj [("properties", .obj [("place", place)]), ("required", .arr [.str "place"])]⟩
    let start := empty ⟨.counting 0, 1⟩
    let tool := (start.convert forecast).value
    let operations : List Operation :=
      [.register forecast, .convertAndRegister forecast, .validate "forecast" .null]
    let r := run operations start
    let events := trace operations start
    r.drawn = 4 ∧
      log operations start = [.conversion forecast 0, .registration tool, .conversion forecast 2,
        .verdict tool .null] ∧
      told events =
        [.recordBuilt "Generated_Place_00000000" 1 1,
          .recordBuilt "Generated_forecastSchema_00000001" 1 1,
          .schemaConverted "forecast" "Generated_forecastSchema_00000001" 1,
          .toolRegistered "forecast" "Generated_forecastSchema_00000001" 1,
          .recordBuilt "Generated_Place_00000002" 1 1,
          .recordBuilt "Generated_forecastSchema_00000003" 1 1,
          .schemaConverted "forecast" "Generated_forecastSchema_00000003" 1,
          .argumentsRejected "forecast" 1] ∧
      events.filter Event.isRegistration =
        List.zipWith (fun name record => .toolRegistered name record.name record.fields.length)
          r.order r.records := by
  intro place forecast start tool operations r events
  let filled := (start.advance 2).insert tool
  have hfree : start.has "forecast" = false := by simp [start, empty, has]
  have hfirst : perform (.register forecast) start = filled := by
    rw [perform, register_of_not_has hfree]
    rfl
  have htaken : filled.has "forecast" = true := by
    rw [has_insert]
    rfl
  have hfound : filled.get? "forecast" = some tool := by
    rw [get?_insert hfree]
    rfl
  have hsecond : perform (.convertAndRegister forecast) filled = filled.advance 2 := by
    show ((filled.advance 2).registerTool (filled.convert forecast).value).registry = _
    rw [registerTool_of_has htaken]
  have hrun : r = filled.advance 2 := by
    show run [.validate "forecast" .null] (perform (.convertAndRegister forecast)
      (perform (.register forecast) start)) = _
    rw [hfirst, hsecond]
    exact registry_validate _ _ _
  have hhistory : log operations start = [.conversion forecast 0, .registration tool,
      .conversion forecast 2, .verdict tool .null] := by
    have hregister : entriesOf (.register forecast) start =
        [.conversion forecast 0, .registration tool] := if_neg (Bool.eq_false_iff.mp hfree)
    have hconvert : entriesOf (.convertAndRegister forecast) filled = [.conversion forecast 2] :=
      congrArg (List.cons _) (if_pos htaken)
    have hvalidate : entriesOf (.validate "forecast" .null) (filled.advance 2) =
        [.verdict tool .null] := by
      rw [entriesOf]
      rw [show (filled.advance 2).get? "forecast" = some tool from hfound]
    show entriesOf _ start ++ (entriesOf _ (perform _ start) ++
      (entriesOf _ (perform _ (perform _ start)) ++ [])) = _
    rw [hfirst, hsecond, hregister, hconvert, hvalidate]
    rfl
  have hdrawn : r.drawn = 4 := by
    rw [hrun]
    rfl
  obtain ⟨-, hevents, hconversion, -, hregistrations⟩ := trace_faithful 0 1 operations (by
    rw [show (run operations start).drawn = 4 from hdrawn]
    decide)
  refine ⟨hdrawn, hhistory, ?_, hregistrations⟩
  have hfirstTold := hconversion forecast 0 (by rw [hhistory]; simp)
  have hsecondTold := hconversion forecast 2 (by rw [hhistory]; simp)
  rw [hhistory] at hevents
  rw [show events = _ from hevents, List.flatMap_cons, List.flatMap_cons, List.flatMap_cons,
    List.flatMap_singleton, Event.told_append, Event.told_append, Event.told_append]
  dsimp only [Entry.events]
  rw [hfirstTold, hsecondTold]
  decide +kernel

end Registry

end ToolShape
