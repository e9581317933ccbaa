import ToolShape.Proofs.Shape.Induction
import ToolShape.Tool.Basic

/-!
# The wire form loses nothing

> **What is written is read back as it was**: every shape, field, record, definition and tool comes
> back from its wire form part by part and in order (`Wire.forms_lossless`).

Sameness would be too weak here. Two literals are the same when they list the same strings, but the
order of the strings, and a string listed twice, must come back too; so must a union that is empty,
nested or repeats a member. Nothing is tidied on the way, so the equation is between the values
themselves, and no shape is left out.

The induction is over the shape. Its hypothesis is about every layer, since the items and members of
a tagged value are read one layer further in than the value, and the fields of a record on the same.
-/

set_option autoImplicit false

namespace ToolShape

open Wire (Fault Layer)

/-! ## Leaves -/

theorem Wire.strings_map_str (values : List String) :
    Wire.strings (values.map .str) = .ok values := by
  induction values with
  | nil => rfl
  | cons s rest ih =>
    rw [List.map_cons, Wire.strings, ih]
    rfl

theorem Scalar.decode_tag (kind : Scalar) : Scalar.decode (.str kind.tag) = .ok kind := by
  cases kind <;> rfl

theorem Shape.Tag.decode_text (layer : Layer) (tag : Shape.Tag) :
    Shape.Tag.decode layer (.str tag.text) = .ok tag := by
  cases tag <;> rfl

/-- The tag is the first field of every wire form. -/
theorem Shape.Tag.ofFields_kind (layer : Layer) (text : String) (tag : Shape.Tag)
    (h : tag.text = text) (rest : Json.Fields) :
    Shape.Tag.ofFields layer (("kind", .str text) :: rest) = .ok tag := by
  subst h
  rw [Shape.Tag.ofFields, if_pos rfl, Shape.Tag.decode_text]

/-! ## Parts, given that the shapes in them come back -/

namespace Shape

/-- A shape comes back from its wire form, wherever that stands. -/
def RoundTrips (s : Shape) : Prop := ∀ layer, decode layer s.encode = .ok s

theorem decodeAll_encodeAll {members : List Shape} (h : ∀ s ∈ members, s.RoundTrips) :
    decodeAll (encodeAll members) = .ok members := by
  induction members with
  | nil => rfl
  | cons s rest ih =>
    rw [encodeAll, decodeAll, h s List.mem_cons_self .tagged,
      ih fun t ht => h t (List.mem_cons_of_mem s ht)]
    rfl

end Shape

/-- A field comes back if its shape does. An empty description is not written, and it is what a
description that is not found is read as. -/
theorem FieldShape.decodeAt_encode_of {f : FieldShape} (h : f.shape.RoundTrips) (layer : Layer) :
    FieldShape.decodeAt layer f.encode = .ok f := by
  obtain ⟨name, shape, required, description⟩ := f
  have hshape : Shape.decode layer shape.encode = .ok shape := h layer
  by_cases hempty : description = ""
  · subst hempty
    simp [encode, descriptionFields, decodeAt, decodeFields, Wire.string, Wire.boolean,
      Wire.required, hshape, bind, Except.bind, pure, Except.pure]
  · simp [encode, descriptionFields, hempty, decodeAt, decodeFields, Wire.string, Wire.boolean,
      Wire.required, hshape, bind, Except.bind, pure, Except.pure]

theorem FieldShape.decodeAll_encodeAll {fields : List FieldShape}
    (h : ∀ f ∈ fields, f.shape.RoundTrips) (layer : Layer) :
    FieldShape.decodeAll layer (FieldShape.encodeAll fields) = .ok fields := by
  induction fields with
  | nil => rfl
  | cons f rest ih =>
    rw [encodeAll, decodeAll, decodeAt_encode_of (h f List.mem_cons_self) layer,
      ih fun g hg => h g (List.mem_cons_of_mem f hg)]
    rfl

/-- A record comes back if the shapes of its fields do. -/
theorem RecordShape.decodeFields_encodeFields {r : RecordShape}
    (h : ∀ f ∈ r.fields, f.shape.RoundTrips) (layer : Layer) :
    RecordShape.decodeFields layer r.encodeFields none none = .ok r := by
  obtain ⟨name, fields⟩ := r
  have hfields := FieldShape.decodeAll_encodeAll h layer
  simp [encodeFields, decodeFields, FieldShape.decodeList, Wire.string, Wire.required, hfields,
    bind, Except.bind, pure, Except.pure]

/-! ## Shapes -/

/-- **Every shape comes back.** By induction on it; the cases follow the tags. -/
theorem Shape.roundTrips (s : Shape) : s.RoundTrips := by
  induction s with
  | unknown =>
    intro layer
    rw [encode, decode, Tag.ofFields_kind layer "unknown" .unknown rfl]
    rfl
  | mapping =>
    intro layer
    rw [encode, decode, Tag.ofFields_kind layer "mapping" .mapping rfl]
    rfl
  | scalar kind =>
    intro layer
    have hkind : Scalar.ofFields [("kind", .str "scalar"), ("scalar", .str kind.tag)] = .ok kind :=
      Scalar.decode_tag kind
    rw [encode, decode, Tag.ofFields_kind layer "scalar" .scalar rfl, hkind]
    rfl
  | literal values =>
    intro layer
    have hvalues : literalValues [("kind", .str "literal"), ("values", .arr (values.map .str))] =
        .ok values := Wire.strings_map_str values
    rw [encode, decode, Tag.ofFields_kind layer "literal" .literal rfl, hvalues]
    rfl
  | sequence items ih =>
    intro layer
    have hitems : decodeItems [("kind", .str "sequence"), ("items", items.encode)] = .ok items := by
      simp [decodeItems, ih .tagged]
    rw [encode, decode, Tag.ofFields_kind layer "sequence" .sequence rfl, hitems]
    rfl
  | record name fields ih =>
    intro layer
    -- The tag stands among the record's own fields, which pass it over.
    have hrecord : RecordShape.decodeFields .tagged
        (("kind", .str "record") :: RecordShape.encodeFields ⟨name, fields⟩) none none =
          .ok ⟨name, fields⟩ := by
      rw [RecordShape.decodeFields, if_neg (by decide), if_neg (by decide)]
      exact RecordShape.decodeFields_encodeFields ih .tagged
    rw [encode, decode, Tag.ofFields_kind layer "record" .record rfl, hrecord]
    rfl
  | union members ih =>
    intro layer
    have hmembers : decodeMembers [("kind", .str "union"), ("members", .arr (encodeAll members))] =
        .ok members := by
      simp [decodeMembers, decodeList, decodeAll_encodeAll ih]
    rw [encode, decode, Tag.ofFields_kind layer "union" .union rfl, hmembers]
    rfl

theorem FieldShape.decodeAt_encode (f : FieldShape) (layer : Layer) :
    FieldShape.decodeAt layer f.encode = .ok f :=
  decodeAt_encode_of f.shape.roundTrips layer

theorem RecordShape.decodeAt_encode (r : RecordShape) (layer : Layer) :
    RecordShape.decodeAt layer r.encode = .ok r := by
  rw [encode, decodeAt]
  exact decodeFields_encodeFields (fun f _ => f.shape.roundTrips) layer

/-! ## Definitions and tools -/

namespace Tool

/-- A name is not blank, so reading it does not fail. -/
theorem Definition.decodeName_text (name : Name) : decodeName (.str name.text) = .ok name := by
  simp [decodeName, Wire.string, Name.ofText?_text, bind, Except.bind, pure, Except.pure]

theorem Definition.decodeAt_encode (d : Definition) (layer : Layer) :
    decodeAt layer d.encode = .ok d := by
  obtain ⟨name, description, schema⟩ := d
  simp [encode, decodeAt, decodeFields, decodeName_text, once, schemaKeys, Wire.string,
    Wire.required, bind, Except.bind, pure, Except.pure]

theorem decode_encode (tool : Tool) : decode tool.encode = .ok tool := by
  obtain ⟨definition, arguments⟩ := tool
  have hdefinition : Definition.decode definition.encode = .ok definition :=
    definition.decodeAt_encode .document
  have harguments : RecordShape.decode arguments.encode = .ok arguments :=
    arguments.decodeAt_encode .document
  simp [encode, decode, decodeFields, hdefinition, harguments, Wire.required, bind, Except.bind,
    pure, Except.pure]

end Tool

/-! ## All wire forms -/

namespace Wire

/-- A wire form that loses nothing: what is written is read back as it was, different values are
written differently, and what has been read back is written as it was before. -/
structure Lossless {α : Type} (encode : α → Json) (decode : Json → Except Fault α) : Prop where
  decode_encode : ∀ a, decode (encode a) = .ok a
  encode_injective : Function.Injective encode
  encode_again : ∀ a b, decode (encode a) = .ok b → encode b = encode a

/-- Reading back is all it takes. -/
theorem Lossless.of_decode_encode {α : Type} {encode : α → Json} {decode : Json → Except Fault α}
    (h : ∀ a, decode (encode a) = .ok a) : Lossless encode decode := by
  refine ⟨h, fun a b hab => ?_, fun a b hb => ?_⟩
  · have hdecode : Except.ok a = Except.ok (ε := Fault) b := by rw [← h a, hab, h b]
    cases hdecode
    rfl
  · rw [h a] at hb
    cases hb
    rfl

/-- **No wire form loses anything**, be it a document of its own or part of a tagged value. -/
theorem forms_lossless :
    (∀ layer, Lossless Shape.encode (Shape.decode layer)) ∧
    (∀ layer, Lossless FieldShape.encode (FieldShape.decodeAt layer)) ∧
    (∀ layer, Lossless RecordShape.encode (RecordShape.decodeAt layer)) ∧
    (∀ layer, Lossless Tool.Definition.encode (Tool.Definition.decodeAt layer)) ∧
    Lossless Tool.encode Tool.decode := by
  refine ⟨fun layer => .of_decode_encode fun s => ?_, fun layer => .of_decode_encode fun f => ?_,
    fun layer => .of_decode_encode fun r => ?_, fun layer => .of_decode_encode fun d => ?_,
    .of_decode_encode fun tool => ?_⟩
  · exact s.roundTrips layer
  · exact f.decodeAt_encode layer
  · exact r.decodeAt_encode layer
  · exact d.decodeAt_encode layer
  · exact tool.decode_encode

end Wire

end ToolShape
