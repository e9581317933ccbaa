import ToolShape.CommandLine.Run
import ToolShape.Proofs.CommandLine.Registration

/-!
# The command and the registry

> **The command gives what a registry gives that all definitions are registered with**: the same
> output or the same failure, and without counted suffixes the same up to suffixes, however the
> tasks run (`command_refines_registry`).

The command converts first and registers the tools afterwards; the registry converts each definition
as it registers it. Both end with the same tools, as the names of a catalog's definitions are
different and no registration fails. And neither output nor verdict depends on more than the tools
(`finish_eq_of_tools_eq`).
-/

set_option autoImplicit false

namespace ToolShape.CommandLine

open Name (Suffix)
open Tool (Definition Catalog)

variable {job : Job} {readFile : String → Option String} {definitions : List Definition}

/-! ## The definitions of a job -/

/-- Definitions are picked in the order of the file. -/
theorem sublist_of_chosen {catalog : Catalog} {tool : Option String}
    (h : chosen catalog tool = .ok definitions) : definitions.Sublist catalog.definitions := by
  cases tool with
  | none =>
    cases h
    exact List.Sublist.refl _
  | some name =>
    change catalog.select [name] = .ok definitions at h
    unfold Catalog.select at h
    split at h
    · cases h
      rw [List.filterMap_cons, List.filterMap_nil]
      cases hfound : catalog.byName? name with
      | none => exact List.nil_sublist _
      | some definition =>
        exact List.singleton_sublist.mpr (List.mem_of_find?_eq_some hfound)
    · cases h

theorem nodup_names_of_chosen {text : String} {catalog : Catalog}
    (hparse : Catalog.parse text = .ok catalog) {tool : Option String}
    (h : chosen catalog tool = .ok definitions) : (Catalog.names definitions).Nodup :=
  ((sublist_of_chosen h).map _).nodup (Catalog.nodup_names_of_parse hparse)

theorem exists_parse_of_load {path : String} {catalog : Catalog}
    (h : load readFile path = .ok catalog) : ∃ text, Catalog.parse text = .ok catalog := by
  unfold load at h
  split at h
  · cases h
  · next text _ =>
    split at h
    · next parsed hparse =>
      cases h
      exact ⟨text, hparse⟩
    · cases h

theorem definitions_eq_ok_iff :
    job.definitions readFile = .ok definitions ↔
      ∃ catalog, load readFile job.file = .ok catalog ∧
        chosen catalog job.tool = .ok definitions := by
  unfold Job.definitions
  cases load readFile job.file with
  | error stop => simp [bind, Except.bind]
  | ok catalog =>
    cases hchosen : chosen catalog job.tool with
    | error failure => simp [bind, Except.bind, Except.mapError, hchosen]
    | ok found => simp [bind, Except.bind, Except.mapError, hchosen]

theorem nodup_names_of_definitions (h : job.definitions readFile = .ok definitions) :
    (Catalog.names definitions).Nodup := by
  obtain ⟨catalog, hload, hchosen⟩ := definitions_eq_ok_iff.mp h
  obtain ⟨text, hparse⟩ := exists_parse_of_load hload
  exact nodup_names_of_chosen hparse hchosen

/-! ## What is done with a registry -/

/-- **Output and verdict depend on the tools of a registry only.** -/
theorem finish_eq_of_tools_eq {r r' : Registry} (h : r.Consistent) (h' : r'.Consistent)
    (htools : r.tools = r'.tools) : finish job r = finish job r' := by
  have hrender : render r job.format = render r' job.format := by
    unfold render Registry.summaries Registry.typescript
    rw [htools]
  have hvalidate : ∀ name call, (r.validate name call).result = (r'.validate name call).result := by
    intro name call
    unfold Registry.validate
    rw [Registry.get?_eq_of_tools_eq h h' htools name]
    cases r'.get? name <;> rfl
  unfold finish
  split
  · rw [hvalidate]
  · rw [hrender]

/-! ## By way of a registry -/

/-- All definitions of a job, registered one after another. -/
def Job.register (job : Job) (definitions : List Definition) : Registry.Reply Unit :=
  (Registry.empty ⟨.counting 0, job.maxDepth⟩).registerAll definitions

/-- The output of a job by way of a registry that converts as it registers. -/
def Job.viaRegistry (job : Job) (readFile : String → Option String) : Except Stop String := do
  let definitions ← job.definitions readFile
  let reply := job.register definitions
  match reply.result with
  | .ok _ => (finish job reply.registry).mapError .failed
  | .error failure => throw (.failed failure)

theorem adds_register (job : Job) (hnodup : (Catalog.names definitions).Nodup) :
    (job.register definitions).Adds (.empty ⟨.counting 0, job.maxDepth⟩)
      (convertAll ⟨.counting 0, job.maxDepth⟩ definitions 0).value := by
  apply Registry.adds_registerAll (Registry.consistent_empty _)
  refine ⟨hnodup, ?_⟩
  intro name _
  exact Std.HashMap.contains_empty

theorem viaRegistry_eq (hdefinitions : job.definitions readFile = .ok definitions) :
    job.viaRegistry readFile =
      (finish job (job.register definitions).registry).mapError .failed := by
  have hok := (adds_register job (nodup_names_of_definitions hdefinitions)).result_eq
  unfold Job.viaRegistry
  rw [hdefinitions]
  show (match (job.register definitions).result with
    | .ok _ => (finish job (job.register definitions).registry).mapError Stop.failed
    | .error failure => throw (Stop.failed failure)) = _
  rw [hok]

/-! ## By way of the tools -/

/-- The registry that the command makes for a job, once its tools are converted. -/
def Job.registerConverted (job : Job) (definitions : List Definition)
    (schedule : Schedule definitions.length) : Registry.Reply Unit :=
  (Registry.empty (job.converter (schedule.suffixes definitions.length))).registerTools
    (job.convert definitions schedule)

theorem definitions_convert (job : Job) (schedule : Schedule definitions.length) :
    (job.convert definitions schedule).map Tool.definition = definitions := by
  unfold Job.convert
  split
  · exact definitions_convertAll _ _ _
  · exact definitions_convertAtOnce schedule

theorem adds_registerConverted (job : Job) (schedule : Schedule definitions.length)
    (hnodup : (Catalog.names definitions).Nodup) :
    (job.registerConverted definitions schedule).Adds
      (.empty (job.converter (schedule.suffixes definitions.length)))
      (job.convert definitions schedule) := by
  have hnames : (job.convert definitions schedule).map Tool.name = Catalog.names definitions := by
    conv_rhs => rw [← definitions_convert job schedule, Catalog.names, List.map_map]
    rfl
  apply Registry.adds_registerTools (Registry.consistent_empty _)
  · rwa [hnames]
  · intro tool _
    exact Std.HashMap.contains_empty

theorem deliver_eq {converter : Converter} {tools : List Tool}
    (h : ((Registry.empty converter).registerTools tools).result = .ok ()) :
    deliver job converter tools =
      finish job ((Registry.empty converter).registerTools tools).registry := by
  unfold deliver
  dsimp only
  rw [h]

/-- Any registry of the converted tools will do. -/
theorem runBy_eq_of_tools_eq {schedules : (count : Nat) → Schedule count}
    (hdefinitions : job.definitions readFile = .ok definitions) {r : Registry} (h : r.Consistent)
    (htools : r.tools = job.convert definitions (schedules definitions.length)) :
    job.runBy readFile schedules = (finish job r).mapError .failed := by
  have hconverted := adds_registerConverted job (schedules definitions.length)
    (nodup_names_of_definitions hdefinitions)
  unfold Job.runBy
  rw [hdefinitions]
  show (deliver job (job.converter ((schedules definitions.length).suffixes definitions.length))
    (job.convert definitions (schedules definitions.length))).mapError Stop.failed = _
  rw [deliver_eq hconverted.result_eq]
  congr 1
  apply finish_eq_of_tools_eq hconverted.consistent h
  rw [hconverted.tools_eq_added, htools]

/-! ## The two ways compared -/

/-- Nothing has failed, and the tools are those of the definitions, in order. -/
structure Registered (definitions : List Definition) (reply : Registry.Reply Unit) : Prop where
  result_eq : reply.result = .ok ()
  definitions_eq : reply.registry.tools.map Tool.definition = definitions

/-- What a job gives is what a registry gives that converts as it registers. -/
structure Job.RefinesRegistry (job : Job) (readFile : String → Option String)
    (schedules : (count : Nat) → Schedule count) : Prop where
  /-- Without definitions both end alike. -/
  unavailable : ∀ stop, job.definitions readFile = .error stop →
    job.runBy readFile schedules = .error stop ∧ job.viaRegistry readFile = .error stop
  /-- Once there are definitions, no registration fails, and the tools are in the file's order. -/
  registers : ∀ catalog definitions, load readFile job.file = .ok catalog →
    chosen catalog job.tool = .ok definitions →
      definitions.Sublist catalog.definitions ∧
      Registered definitions (job.register definitions) ∧
      Registered definitions (job.registerConverted definitions (schedules definitions.length))
  counted : job.deterministic = true → job.runBy readFile schedules = job.viaRegistry readFile
  /-- However the tasks run, the tools differ in suffixes only: each counted suffix is replaced by
  the one that is drawn in its stead. -/
  scheduled : job.deterministic = false → ∀ definitions,
    job.definitions readFile = .ok definitions →
    let drawn := drawnSuffixes job.maxDepth (schedules definitions.length).suffixes definitions
    drawn.Nodup → ∃ ρ : Suffix → Suffix,
      (∀ n suffix, drawn[n]? = some suffix → ρ (.ofCounter n) = suffix) ∧
      job.runBy readFile schedules =
        (finish job ((job.register definitions).registry.resuffix ρ)).mapError .failed

variable {schedules : (count : Nat) → Schedule count}

theorem runBy_of_unavailable {stop : Stop} (h : job.definitions readFile = .error stop) :
    job.runBy readFile schedules = .error stop := by
  unfold Job.runBy
  rw [h]
  rfl

theorem viaRegistry_of_unavailable {stop : Stop} (h : job.definitions readFile = .error stop) :
    job.viaRegistry readFile = .error stop := by
  unfold Job.viaRegistry
  rw [h]
  rfl

theorem registered_of_chosen {catalog : Catalog} (hload : load readFile job.file = .ok catalog)
    (hchosen : chosen catalog job.tool = .ok definitions)
    (schedule : Schedule definitions.length) :
    Registered definitions (job.register definitions) ∧
      Registered definitions (job.registerConverted definitions schedule) := by
  have hnodup := nodup_names_of_definitions (definitions_eq_ok_iff.mpr ⟨catalog, hload, hchosen⟩)
  have hregister := adds_register job hnodup
  have hconverted := adds_registerConverted job schedule hnodup
  refine ⟨⟨hregister.result_eq, ?_⟩, ⟨hconverted.result_eq, ?_⟩⟩
  · rw [hregister.tools_eq_added, definitions_convertAll]
  · rw [hconverted.tools_eq_added, definitions_convert]

/-- One task for all definitions draws what the registry draws. -/
theorem runBy_eq_viaRegistry (hcounted : job.deterministic = true) :
    job.runBy readFile schedules = job.viaRegistry readFile := by
  cases hdefinitions : job.definitions readFile with
  | error stop =>
    rw [runBy_of_unavailable hdefinitions, viaRegistry_of_unavailable hdefinitions]
  | ok definitions =>
    have hregister := adds_register job (nodup_names_of_definitions hdefinitions)
    rw [viaRegistry_eq hdefinitions]
    apply runBy_eq_of_tools_eq hdefinitions hregister.consistent
    rw [hregister.tools_eq_added, Job.convert, if_pos hcounted]

/-- A task for each definition draws other suffixes, and that is all. -/
theorem runBy_eq_resuffix (hscheduled : job.deterministic = false)
    (hdefinitions : job.definitions readFile = .ok definitions) {ρ : Suffix → Suffix}
    (hdrawn : (drawnSuffixes job.maxDepth (schedules definitions.length).suffixes
      definitions).Nodup)
    (hρ : ∀ n suffix, (drawnSuffixes job.maxDepth (schedules definitions.length).suffixes
      definitions)[n]? = some suffix → ρ (.ofCounter n) = suffix) :
    job.runBy readFile schedules =
      (finish job ((job.register definitions).registry.resuffix ρ)).mapError .failed := by
  have hregister := adds_register job (nodup_names_of_definitions hdefinitions)
  have hnot : ¬ job.deterministic = true := by
    rw [hscheduled]
    exact Bool.false_ne_true
  apply runBy_eq_of_tools_eq hdefinitions hregister.consistent.resuffix
  rw [Registry.tools_resuffix, hregister.tools_eq_added, Job.convert, if_neg hnot]
  exact (convertAtOnce_eq_resuffix _ hdrawn hρ).symm

/-- Once the arguments make sense, the command does their job and ends the last line. -/
theorem runBy_eq_map_of_job {words : List String} {arguments : Arguments}
    (hparse : Arguments.parse? Converter.defaultMaxDepth words = some arguments)
    (hjob : arguments.job = .ok job) :
    runBy words readFile schedules = (job.runBy readFile schedules).map (· ++ "\n") := by
  unfold runBy
  rw [hparse]
  dsimp only
  rw [hjob]
  show (job.runBy readFile schedules).bind _ = _
  cases job.runBy readFile schedules <;> rfl

/-- **The command gives what a registry gives that all definitions are registered with.** Whatever
the file holds and however the tasks run: without definitions both end alike, with them no
registration fails, with counted suffixes both give the same, and with others, all different, the
same up to suffixes. The command does the job of its arguments. -/
theorem command_refines_registry (readFile : String → Option String)
    (schedules : (count : Nat) → Schedule count) :
    (∀ job : Job, job.RefinesRegistry readFile schedules) ∧
    ∀ words arguments job, Arguments.parse? Converter.defaultMaxDepth words = some arguments →
      arguments.job = .ok job →
      runBy words readFile schedules = (job.runBy readFile schedules).map (· ++ "\n") := by
  refine ⟨fun job => ⟨?_, ?_, ?_, ?_⟩, ?_⟩
  · intro stop h
    exact ⟨runBy_of_unavailable h, viaRegistry_of_unavailable h⟩
  · intro catalog definitions hload hchosen
    exact ⟨sublist_of_chosen hchosen, registered_of_chosen hload hchosen _⟩
  · exact runBy_eq_viaRegistry
  · intro hscheduled definitions hdefinitions drawn hdrawn
    obtain ⟨ρ, hρ⟩ := Name.exists_replacement hdrawn
    exact ⟨ρ, hρ, runBy_eq_resuffix hscheduled hdefinitions hdrawn hρ⟩
  · intro words arguments job hparse hjob
    exact runBy_eq_map_of_job hparse hjob

/-- The tasks finish in reverse, and each draws a suffix of its own. -/
def Schedule.reversed (count : Nat) : Schedule count where
  suffixes task position := .ofCounter (9 - 4 * task + position)
  finished := (List.range count).reverse
  all_finish := List.reverse_perm _

/-- Of two tasks, the second draws the smaller suffix and finishes first. -/
theorem command_refines_registry_for_two_tasks :
    let readFile : String → Option String := fun _ => some "[[\"b\"],[\"a\"]]"
    let job : Job := ⟨"tools.json", none, .json, none, Converter.defaultMaxDepth, false⟩
    let b : Definition := ⟨⟨"b", by decide⟩, "", Definition.emptySchema⟩
    let a : Definition := ⟨⟨"a", by decide⟩, "", Definition.emptySchema⟩
    ∃ ρ : Suffix → Suffix, ρ (.ofCounter 0) = .ofCounter 9 ∧ ρ (.ofCounter 1) = .ofCounter 5 ∧
      runBy ["tools.json"] readFile Schedule.reversed =
        ((finish job ((job.register [b, a]).registry.resuffix ρ)).mapError .failed).map
          (· ++ "\n") := by
  intro readFile job b a
  obtain ⟨hjobs, hruns⟩ := command_refines_registry readFile Schedule.reversed
  have hdefinitions : job.definitions readFile = .ok [b, a] := by cbv
  have hdrawn : drawnSuffixes job.maxDepth (Schedule.reversed 2).suffixes [b, a] =
      [.ofCounter 9, .ofCounter 5] := by decide +kernel
  have hnodup : (drawnSuffixes job.maxDepth (Schedule.reversed 2).suffixes [b, a]).Nodup := by
    rw [hdrawn]
    decide
  obtain ⟨ρ, hρ, hjob⟩ := (hjobs job).scheduled rfl [b, a] hdefinitions hnodup
  have hrun := hruns ["tools.json"]
    ⟨"tools.json", none, .json, none, Converter.defaultMaxDepth, false, "warn", false⟩ job rfl rfl
  refine ⟨ρ, hρ 0 _ ?_, hρ 1 _ ?_, ?_⟩
  · exact congrArg (·[0]?) hdrawn
  · exact congrArg (·[1]?) hdrawn
  · rw [hrun, hjob]

end ToolShape.CommandLine
