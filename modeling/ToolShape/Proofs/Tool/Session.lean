import ToolShape.Proofs.Conversion.Numbering
import ToolShape.Proofs.Tool.Registry

/-!
# Sessions

A session is what a program does with one source of suffixes: it converts, resolves and builds
records with any limits, and it registers tools in any registries, in any order. All of them go on
drawing where the last one stopped.

> **Over a whole session the records are numbered through.** They are as many as the suffixes drawn,
> the `i`-th carries the `i`-th suffix, and no two have one name
> (`Session.records_numbered_through`).

One call numbers its own records (`Session.advances_perform`); a run is numbered by joining its
calls (`Session.advances_run`). Through a registry one call may convert many tools, so there is such
a pair of lemmas for a registry as well, with `Registry.Grows` in the place of `Session.Advances`.
-/

set_option autoImplicit false

namespace ToolShape

open Json (Fields)
open Name (Context Source Numbered)
open Tool (Definition)

/-! ## Registries that grow -/

namespace Registry

/-- One registry is another one with further tools, and the records of those carry the suffixes
drawn in between. -/
structure Grows (r r' : Registry) (gained : List RecordShape) : Prop where
  converter_eq : r'.converter = r.converter
  consistent : r'.Consistent
  records_eq : r'.records = r.records ++ gained
  numbered : ∃ count, r'.drawn = r.drawn + count ∧
    (r.converter.source.Fresh r.drawn count →
      Numbered r.converter.source r.drawn count
        ((gained.map Shape.record).flatMap Shape.recordNames))

theorem Grows.refl {r : Registry} (h : r.Consistent) : r.Grows r [] :=
  ⟨rfl, h, (List.append_nil _).symm, 0, rfl, fun _ => Name.numbered_nil⟩

theorem Grows.trans {r s t : Registry} {gained more : List RecordShape} (h : r.Grows s gained)
    (h' : s.Grows t more) : r.Grows t (gained ++ more) := by
  obtain ⟨a, ha, hfirst⟩ := h.numbered
  obtain ⟨b, hb, hsecond⟩ := h'.numbered
  refine ⟨h'.converter_eq.trans h.converter_eq, h'.consistent, ?_, a + b, ?_, ?_⟩
  · rw [h'.records_eq, h.records_eq, List.append_assoc]
  · rw [hb, ha, Nat.add_assoc]
  · intro fresh
    rw [h.converter_eq, ha] at hsecond
    rw [List.map_append, List.flatMap_append]
    exact (hfirst fresh.left).append (hsecond fresh.right)

variable {r : Registry}

theorem numbered_convert (r : Registry) (definition : Definition)
    (fresh : r.converter.source.Fresh r.drawn (r.convert definition).drawn) :
    Numbered r.converter.source r.drawn (r.convert definition).drawn
      (Shape.record (r.convert definition).value.arguments).recordNames := by
  rw [convert_apply] at fresh ⊢
  exact Converter.numbered_convert r.converter _ _ r.drawn fresh

/-- Registering converts one tool, or changes nothing. -/
theorem grows_register (h : r.Consistent) (definition : Definition) :
    ∃ gained, r.Grows (r.register definition).registry gained := by
  cases hhas : r.has definition.name.text with
  | true =>
    rw [register_of_has hhas]
    exact ⟨[], .refl h⟩
  | false =>
    rw [register_of_not_has hhas]
    have hcons := h.advance (r.convert definition).drawn
    refine ⟨[(r.convert definition).value.arguments], rfl, hcons.insert hhas,
      records_insert hcons hhas, (r.convert definition).drawn, rfl, ?_⟩
    intro fresh
    rw [List.map_singleton, List.flatMap_singleton]
    exact numbered_convert r definition fresh

theorem grows_registerNew (h : r.Consistent) (name description : String) (schema : Json) :
    ∃ gained, r.Grows (r.registerNew name description schema).registry gained := by
  unfold registerNew
  split
  · exact ⟨[], .refl h⟩
  · exact grows_register h _

/-- Registering several definitions, up to the first failure. -/
theorem grows_registerAll (h : r.Consistent) (definitions : List Definition) :
    ∃ gained, r.Grows (r.registerAll definitions).registry gained := by
  induction definitions generalizing r with
  | nil => exact ⟨[], .refl h⟩
  | cons definition rest ih =>
    obtain ⟨first, hfirst⟩ := grows_register h definition
    rw [registerAll]
    dsimp only
    split
    · exact ⟨first, hfirst⟩
    · obtain ⟨others, hothers⟩ := ih hfirst.consistent
      exact ⟨first ++ others, hfirst.trans hothers⟩

theorem grows_registerDocument (h : r.Consistent) (text : String) :
    ∃ gained, r.Grows (r.registerDocument text).registry gained := by
  unfold registerDocument
  split
  · exact ⟨[], .refl h⟩
  · exact grows_registerAll h _

end Registry

/-! ## Calls -/

/-- What can be done with the source. Registries are told apart by handles. -/
inductive Call where
  | convert (limit : Nat) (toolName : String) (schema : Json)
  | resolve (limit : Nat) (node : Json) (context : Context)
  | buildRecord (limit : Nat) (context : Context) (properties : Fields) (required : List String)
  | register (handle : Nat) (definition : Definition)
  | registerNew (handle : Nat) (name description : String) (schema : Json)
  | registerAll (handle : Nat) (definitions : List Definition)
  | registerDocument (handle : Nat) (text : String)
  | convertAndRegister (handle : Nat) (definition : Definition)
  /-- Registers a tool that comes from elsewhere; nothing is converted. -/
  | registerTool (handle : Nat) (tool : Tool)

/-- Registries that draw from one source. -/
structure Session where
  /-- How many suffixes have been drawn, by all together. -/
  drawn : Nat
  /-- The registries by handle. What they take for drawn themselves does not matter. -/
  registries : Nat → Registry

namespace Session

/-- Nothing drawn and nothing registered; each registry has a limit of its own. -/
def empty (source : Source) (limits : Nat → Nat) : Session where
  drawn := 0
  registries handle := Registry.empty ⟨source, limits handle⟩

/-- The registry under a handle, at the point the source has reached. -/
def registry (s : Session) (handle : Nat) : Registry :=
  { s.registries handle with drawn := s.drawn }

/-- The session in which a registry has been changed. -/
def store (s : Session) (handle : Nat) (r : Registry) : Session where
  drawn := r.drawn
  registries other := if other = handle then r else s.registries other

/-- The session, and the result, after a conversion with a limit. -/
def converting (s : Session) {α : Type} (conversion : Conversion α) (result : α → Shape) :
    Session × List Shape :=
  ({ s with drawn := s.drawn + (conversion s.drawn).drawn }, [result (conversion s.drawn).value])

/-- The session after a registration, and the records of the tools that the registry has gained. -/
def registering (s : Session) (handle : Nat) (registration : Registry → Registry) :
    Session × List Shape :=
  let before := s.registry handle
  let after := registration before
  (s.store handle after, (after.records.drop before.records.length).map .record)

/-- Does what a call says, and gives the shapes that were converted. -/
def perform (source : Source) : Call → Session → Session × List Shape
  | .convert limit toolName schema, s =>
    s.converting (Converter.convert ⟨source, limit⟩ toolName schema) .record
  | .resolve limit node context, s =>
    s.converting (Converter.resolve ⟨source, limit⟩ node context) id
  | .buildRecord limit context properties required, s =>
    s.converting (Converter.buildRecord ⟨source, limit⟩ context properties required) .record
  | .register handle definition, s =>
    s.registering handle fun r => (r.register definition).registry
  | .registerNew handle name description schema, s =>
    s.registering handle fun r => (r.registerNew name description schema).registry
  | .registerAll handle definitions, s =>
    s.registering handle fun r => (r.registerAll definitions).registry
  | .registerDocument handle text, s =>
    s.registering handle fun r => (r.registerDocument text).registry
  | .convertAndRegister handle definition, s =>
    let r := s.registry handle
    (s.store handle (r.convertAndRegister definition).registry,
      [.record (r.convert definition).value.arguments])
  | .registerTool handle tool, s =>
    (s.store handle ((s.registry handle).registerTool tool).registry, [])

/-- Calls in turn; the shapes stand in the order in which they were converted. -/
def run (source : Source) : List Call → Session → Session × List Shape
  | [], s => (s, [])
  | call :: rest, s =>
    let first := perform source call s
    let others := run source rest first.1
    (others.1, first.2 ++ others.2)

/-! ## What a call keeps -/

/-- All registries are consistent and draw from the source. -/
def Sound (source : Source) (s : Session) : Prop :=
  ∀ handle, (s.registries handle).Consistent ∧ (s.registries handle).converter.source = source

/-- A session goes on to another, and the records of the results carry the suffixes drawn in
between. -/
structure Advances (source : Source) (s s' : Session) (results : List Shape) : Prop where
  sound : s'.Sound source
  numbered : ∃ count, s'.drawn = s.drawn + count ∧
    (source.Fresh s.drawn count →
      Numbered source s.drawn count (results.flatMap Shape.recordNames))

variable {source : Source} {s : Session}

theorem sound_empty (source : Source) (limits : Nat → Nat) : (empty source limits).Sound source :=
  fun handle => ⟨Registry.consistent_empty ⟨source, limits handle⟩, rfl⟩

theorem Advances.refl (h : s.Sound source) : Advances source s s [] :=
  ⟨h, 0, rfl, fun _ => Name.numbered_nil⟩

theorem Advances.trans {t u : Session} {results more : List Shape}
    (h : Advances source s t results) (h' : Advances source t u more) :
    Advances source s u (results ++ more) := by
  obtain ⟨a, ha, hfirst⟩ := h.numbered
  obtain ⟨b, hb, hsecond⟩ := h'.numbered
  refine ⟨h'.sound, a + b, by rw [hb, ha, Nat.add_assoc], fun fresh => ?_⟩
  rw [ha] at hsecond
  rw [List.flatMap_append]
  exact (hfirst fresh.left).append (hsecond fresh.right)

theorem Sound.consistent_registry (h : s.Sound source) (handle : Nat) :
    (s.registry handle).Consistent :=
  let hcons := (h handle).1
  ⟨hcons.order_nodup, hcons.mem_order_iff, hcons.name_of_get?⟩

theorem Sound.store (h : s.Sound source) (handle : Nat) {r : Registry} (hcons : r.Consistent)
    (hsource : r.converter.source = source) : (s.store handle r).Sound source := by
  intro other
  unfold Session.store
  dsimp only
  split
  · exact ⟨hcons, hsource⟩
  · exact h other

/-- A conversion numbers its result, so the session advances by it. -/
theorem advances_converting (h : s.Sound source) {α : Type} {conversion : Conversion α}
    {result : α → Shape}
    (hnumbered : source.Fresh s.drawn (conversion s.drawn).drawn →
      Numbered source s.drawn (conversion s.drawn).drawn
        (result (conversion s.drawn).value).recordNames) :
    Advances source s (s.converting conversion result).1 (s.converting conversion result).2 := by
  refine ⟨h, (conversion s.drawn).drawn, rfl, fun fresh => ?_⟩
  show Numbered _ _ _ ([result (conversion s.drawn).value].flatMap Shape.recordNames)
  rw [List.flatMap_singleton]
  exact hnumbered fresh

/-- A registration grows its registry, so the session advances by it. -/
theorem advances_registering (h : s.Sound source) (handle : Nat)
    {registration : Registry → Registry}
    (hgrows : ∃ gained, (s.registry handle).Grows (registration (s.registry handle)) gained) :
    Advances source s (s.registering handle registration).1
      (s.registering handle registration).2 := by
  obtain ⟨gained, hgrows⟩ := hgrows
  have hsource : (s.registry handle).converter.source = source := (h handle).2
  refine ⟨h.store handle hgrows.consistent (hgrows.converter_eq ▸ hsource), ?_⟩
  obtain ⟨count, hdrawn, hnumbered⟩ := hgrows.numbered
  refine ⟨count, hdrawn, fun fresh => ?_⟩
  have hnames := hnumbered (hsource.symm ▸ fresh)
  rw [hsource] at hnames
  show Numbered source s.drawn count
    ((((registration (s.registry handle)).records.drop
      (s.registry handle).records.length).map Shape.record).flatMap Shape.recordNames)
  rw [hgrows.records_eq, List.drop_left]
  exact hnames

/-- **One call numbers the records that it converts.** -/
theorem advances_perform (h : s.Sound source) (call : Call) :
    Advances source s (perform source call s).1 (perform source call s).2 := by
  cases call with
  | convert limit toolName schema =>
    exact advances_converting h (Converter.numbered_convert ⟨source, limit⟩ toolName schema s.drawn)
  | resolve limit node context =>
    exact advances_converting h (Converter.numbered_resolve ⟨source, limit⟩ node context s.drawn)
  | buildRecord limit context properties required =>
    exact advances_converting h
      (Converter.numbered_buildRecord ⟨source, limit⟩ context properties required s.drawn)
  | register handle definition =>
    exact advances_registering h handle
      (Registry.grows_register (h.consistent_registry handle) definition)
  | registerNew handle name description schema =>
    exact advances_registering h handle
      (Registry.grows_registerNew (h.consistent_registry handle) name description schema)
  | registerAll handle definitions =>
    exact advances_registering h handle
      (Registry.grows_registerAll (h.consistent_registry handle) definitions)
  | registerDocument handle text =>
    exact advances_registering h handle
      (Registry.grows_registerDocument (h.consistent_registry handle) text)
  | convertAndRegister handle definition =>
    -- The suffixes are drawn, and the tool is converted, whether or not its name is free.
    have hcons := (h.consistent_registry handle).advance
      ((s.registry handle).convert definition).drawn
    have hsource : (s.registry handle).converter.source = source := (h handle).2
    obtain ⟨hdrawn, hconverter⟩ := Registry.drawn_converter_registerTool
      ((s.registry handle).advance ((s.registry handle).convert definition).drawn)
      ((s.registry handle).convert definition).value
    refine ⟨h.store handle (Registry.consistent_registerTool hcons _)
      ((congrArg Converter.source hconverter).trans hsource), _, hdrawn, fun fresh => ?_⟩
    show Numbered _ _ _ ([_].flatMap Shape.recordNames)
    rw [List.flatMap_singleton, ← hsource]
    exact Registry.numbered_convert (s.registry handle) definition (hsource.symm ▸ fresh)
  | registerTool handle tool =>
    obtain ⟨hdrawn, hconverter⟩ := Registry.drawn_converter_registerTool (s.registry handle) tool
    exact ⟨h.store handle (Registry.consistent_registerTool (h.consistent_registry handle) tool)
      ((congrArg Converter.source hconverter).trans (h handle).2), 0, hdrawn,
      fun _ => Name.numbered_nil⟩

/-- **A run numbers the records of all its results through.** -/
theorem advances_run (h : s.Sound source) (calls : List Call) :
    Advances source s (run source calls s).1 (run source calls s).2 := by
  induction calls generalizing s with
  | nil => exact .refl h
  | cons call rest ih =>
    have hfirst := advances_perform h call
    exact hfirst.trans (ih hfirst.sound)

/-- **Over a whole session the records are numbered through.** With a counter as the source, and as
long as it draws no more than there are suffixes, the records of the results are as many as the
draws, the `i`-th carries the `i`-th number from the start, and no two have one name. -/
theorem records_numbered_through (start : Nat) (limits : Nat → Nat) (calls : List Call)
    (h : (run (.counting start) calls (empty (.counting start) limits)).1.drawn ≤ 2 ^ 32) :
    let outcome := run (.counting start) calls (empty (.counting start) limits)
    let records := outcome.2.flatMap Shape.records
    records.length = outcome.1.drawn ∧
    (∀ (i : Nat) (hi : i < records.length),
      Name.suffix? records[i].name = some (.ofCounter ((start + i) % 2 ^ 64))) ∧
    (records.map RecordShape.name).Nodup := by
  intro outcome records
  obtain ⟨count, hdrawn, hnumbered⟩ :=
    (advances_run (sound_empty (.counting start) limits) calls).numbered
  have hcount : outcome.1.drawn = count := by
    rw [show outcome.1.drawn = _ from hdrawn]
    exact Nat.zero_add count
  have fresh : (Source.counting start).Fresh 0 count :=
    Source.fresh_counting start 0 (hcount ▸ h)
  have hnames : Numbered (.counting start) 0 count (records.map RecordShape.name) := by
    rw [List.map_flatMap]
    exact hnumbered fresh
  refine ⟨?_, fun i hi => ?_, hnames.nodup fresh⟩
  · rw [hcount, ← hnames.length_eq, List.length_map]
  · have hsuffix := hnames.suffix?_getElem i (by rwa [List.length_map])
    rwa [List.getElem_map, Nat.zero_add] at hsuffix

/-- A session across the end of the counter: its draws are `2 ^ 64 - 1`, `0` and `1`. -/
theorem records_numbered_through_across_end :
    let node : Json := .obj [("type", .str "array"), ("items", .obj [("type", .str "object"),
      ("properties", .obj [("key", .obj [("type", .str "string")])])])]
    let definition : Definition :=
      ⟨⟨"search", by decide⟩, "", .obj [("properties", .obj [("filters", node)])]⟩
    let calls : List Call := [.resolve 3 node ⟨"Filters"⟩, .convertAndRegister 0 definition]
    let outcome := run (.counting (2 ^ 64 - 1)) calls (empty (.counting (2 ^ 64 - 1)) fun _ => 64)
    let records := outcome.2.flatMap Shape.records
    outcome.1.drawn = 3 ∧ records.length = 3 ∧
    (∀ (i : Nat) (hi : i < records.length),
      Name.suffix? records[i].name = some (.ofCounter ((2 ^ 64 - 1 + i) % 2 ^ 64))) ∧
    (records.map RecordShape.name).Nodup := by
  intro node definition calls outcome records
  have hdrawn : outcome.1.drawn = 3 := (Registry.drawn_converter_registerTool _ _).1
  have hle : outcome.1.drawn ≤ 2 ^ 32 := by
    rw [hdrawn]
    decide
  obtain ⟨hlength, hrest⟩ := records_numbered_through (2 ^ 64 - 1) (fun _ => 64) calls hle
  exact ⟨hdrawn, hlength.trans hdrawn, hrest⟩

end Session

end ToolShape
