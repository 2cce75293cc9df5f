import Scaffold.Blueprint.Reading
import Scaffold.Proofs.Shape.Decoding

/-!
The dictionary layout of a blueprint is faithful.

Every part of a layout is written in a form that its decoder takes for itself, and the
class of an error is renamed on the way out and on the way in. So a blueprint comes back
from its layout but for its free values, which come back in their plain form: JSON values
as they are, and others as JSON values with the same layout.

* `Blueprint.freeValues`: the values that authors write freely.
* `Field.decode_toPlain`, `Surface.decode_toPlain`, `ErrorDefinition.ofLayout_toPlain`: the
  parts are read back.
* `Blueprint.ofDocument_toPlain`: so is the whole, as `Blueprint.IsPlainOf` says.
* `Blueprint.layout_faithful`: JSON values come back as they are, unless they are nested too
  deeply for a layout, and the layout comes back in any case.
-/

namespace Scaffold

open Document Shape Checked

/-! ### Parts without free values -/

/-- A relation is read back. -/
lemma Relation.decode_toPlain (r : Relation) : Relation.decode (ofJson r.toPlain) = .ok r := by
  rw [Relation.toPlain, ofJson, Relation.decode, Shape.record]
  simp [Reading.apply, Reading.done, required, absentAsNone, defaulted, lookup_ofMembers,
    optional_ofText?, text_ofJson, within, both]

/-- An endpoint is read back. -/
lemma Endpoint.decode_toPlain (e : Endpoint) : Endpoint.decode (ofJson e.toPlain) = .ok e := by
  have hfields : tupleOf Shape.text (ofJson (.ofTexts e.fields)) = .ok e.fields :=
    checkItems_ofTexts 0 e.fields
  rw [Endpoint.toPlain, ofJson, Endpoint.decode, Shape.record]
  simp [Reading.apply, Reading.done, required, absentAsNone, defaulted, lookup_ofMembers,
    optional_ofText?, text_ofJson, hfields, within, both]

/-- A shown relation is read back. -/
lemma Include.decode_toPlain (i : Include) : Include.decode (ofJson i.toPlain) = .ok i := by
  rw [Include.toPlain, Include.decode, strictRecord_ofJson (by simp)]
  simp [Reading.apply, Reading.done, required, absentAsNone, defaulted, lookup_ofMembers,
    optional_ofText?, text_ofJson, within, both]

/-- An interface is read back. -/
lemma Surface.decode_toPlain (s : Surface) : Surface.decode (ofJson s.toPlain) = .ok s := by
  have hmiddleware : tupleOf Shape.text (ofJson (.ofTexts s.middleware)) = .ok s.middleware :=
    checkItems_ofTexts 0 s.middleware
  have hendpoints : tupleOf Endpoint.decode
      (ofJson (.array (s.endpoints.map Endpoint.toPlain))) = .ok s.endpoints :=
    checkItems_map (fun e _ => e.decode_toPlain) 0
  have hincludes : Include.decodeAll
      (ofJson (.object [("includes", .array (s.includes.map Include.toPlain))])) =
        .ok s.includes := by
    have hitems : tupleOf Include.decode (ofJson (.array (s.includes.map Include.toPlain))) =
        .ok s.includes := checkItems_map (fun i _ => i.decode_toPlain) 0
    rw [Include.decodeAll, strictRecord_ofJson (by simp)]
    simp [defaulted, lookup_ofMembers, hitems, within]
  rw [Surface.toPlain, Surface.decode, strictRecord_ofJson (by simp)]
  simp [Reading.apply, Reading.done, absentAsNone, defaulted, lookup_ofMembers, optional_ofText?,
    hmiddleware, hincludes, hendpoints, within, both]

/-- An error is read back from its layout, in which its class stands under a name of its
own. -/
lemma ErrorDefinition.ofLayout_toPlain (e : ErrorDefinition) :
    ErrorDefinition.ofLayout (ofJson (e.toPlainWith "class")) = .ok e := by
  have hrenamed : renameKey "class" "class_name" (ofMembers [("name", .string e.name),
      ("key", .string e.key), ("class", .string e.className),
      ("exception_class", .string e.exceptionClass), ("code", .string e.code),
      ("message", .string e.message), ("status", .int e.status), ("extends", .string e.parent),
      ("description", .ofText? e.description)]) =
      ofMembers [("name", .string e.name), ("key", .string e.key),
        ("exception_class", .string e.exceptionClass), ("code", .string e.code),
        ("message", .string e.message), ("status", .int e.status), ("extends", .string e.parent),
        ("description", .ofText? e.description), ("class_name", .string e.className)] := by
    simp [renameKey, lookup, ofMembers, Document.put]
  have hstatus : Shape.int (ofJson (.int e.status)) = .ok e.status := rfl
  rw [ErrorDefinition.toPlainWith, ErrorDefinition.ofLayout, ofJson, entriesOf]
  simp only [bind, Except.bind, hrenamed]
  rw [ErrorDefinition.decode, ← ofJson, strictRecord_ofJson (by simp)]
  simp [Reading.apply, Reading.done, required, absentAsNone, defaulted, lookup_ofMembers,
    optional_ofText?, text_ofJson, hstatus, within, both]

/-- The errors of a layout are read back. -/
lemma errorsOf_toPlain (errors : List ErrorDefinition) :
    errorsOf (some (ofJson (.array (errors.map (·.toPlainWith "class"))))) = .ok errors := by
  have hall : ∀ errors : List ErrorDefinition,
      (ofItems (errors.map (·.toPlainWith "class"))).mapM ErrorDefinition.ofLayout =
        .ok errors := by
    intro errors
    induction errors with
    | nil => rfl
    | cons e errors ih =>
      rw [List.map_cons, ofItems, List.mapM_cons, e.ofLayout_toPlain, ih]
      rfl
  cases errors with
  | nil => rfl
  | cons e errors => exact hall (e :: errors)

/-! ### Fields -/

namespace Field

/-- A field is what the layout of another is read as. -/
structure IsPlainOf (read f : Field) : Prop where
  /-- The name. -/
  name : read.name = f.name
  /-- The type. -/
  kind : read.kind = f.kind
  /-- The rules. -/
  rules : read.rules = f.rules
  /-- The default value in its plain form. -/
  default : read.default.IsPlainOf f.default
  /-- The precision in its plain form. -/
  precision : read.precision.IsPlainOf f.precision
  /-- The scale in its plain form. -/
  scale : read.scale.IsPlainOf f.scale
  /-- Whether the value may be absent, in its plain form. -/
  nullable : read.nullable.IsPlainOf f.nullable

/-- The values of a field that authors write freely. -/
def freeValues (f : Field) : List Document :=
  [f.default, f.precision, f.scale, f.nullable]

variable {f read : Field}

lemma toPlain_eq_ok_iff {j : Json} :
    f.toPlain = .ok j ↔ ∃ default precision scale nullable, f.default.toPlain = .ok default ∧
      f.precision.toPlain = .ok precision ∧ f.scale.toPlain = .ok scale ∧
      f.nullable.toPlain = .ok nullable ∧
      j = .object [("name", .string f.name), ("type", .string f.kind), ("rules", .ofText? f.rules),
        ("default", default), ("precision", precision), ("scale", scale),
        ("nullable", nullable)] := by
  simp only [toPlain, bind_eq_ok_iff, pure, Except.pure, Except.ok.injEq]
  constructor
  · rintro ⟨default, hdefault, precision, hprecision, scale, hscale, nullable, hnullable, rfl⟩
    exact ⟨default, precision, scale, nullable, hdefault, hprecision, hscale, hnullable, rfl⟩
  · rintro ⟨default, precision, scale, nullable, hdefault, hprecision, hscale, hnullable, rfl⟩
    exact ⟨default, hdefault, precision, hprecision, scale, hscale, nullable, hnullable, rfl⟩

/-- A field is read back with its free values in their plain form. -/
lemma decode_toPlain {j : Json} (h : f.toPlain = .ok j) :
    ∃ read, Field.decode (ofJson j) = .ok read ∧ read.IsPlainOf f := by
  obtain ⟨default, precision, scale, nullable, hdefault, hprecision, hscale, hnullable, rfl⟩ :=
    toPlain_eq_ok_iff.mp h
  refine ⟨⟨f.name, f.kind, f.rules, ofJson default, ofJson precision, ofJson scale,
    ofJson nullable⟩, ?_, ⟨rfl, rfl, rfl, ⟨_, hdefault, rfl⟩, ⟨_, hprecision, rfl⟩,
    ⟨_, hscale, rfl⟩, ⟨_, hnullable, rfl⟩⟩⟩
  rw [ofJson, Field.decode, Shape.record]
  simp [Reading.apply, Reading.done, required, absentAsNone, defaulted, lookup_ofMembers,
    optional_ofText?, text_ofJson, anything, within, both]

/-- What is read back of a field has the same layout. -/
lemma IsPlainOf.toPlain_eq (h : read.IsPlainOf f) : read.toPlain = f.toPlain := by
  rw [toPlain, toPlain, h.name, h.kind, h.rules, h.default.toPlain_eq, h.precision.toPlain_eq,
    h.scale.toPlain_eq, h.nullable.toPlain_eq]

/-- A field whose free values are JSON values is read back as it is. -/
lemma IsPlainOf.eq (h : read.IsPlainOf f) (json : ∀ d ∈ f.freeValues, d.IsJson) : read = f := by
  obtain ⟨name, kind, rules, default, precision, scale, nullable⟩ := read
  obtain ⟨rfl, rfl, rfl, hdefault, hprecision, hscale, hnullable⟩ := h
  simp only [freeValues, List.forall_mem_cons] at json
  obtain rfl := hdefault.eq json.1
  obtain rfl := hprecision.eq json.2.1
  obtain rfl := hscale.eq json.2.2.1
  obtain rfl := hnullable.eq json.2.2.2.1
  rfl

/-- The free values of a field that are JSON values are plain when the field has a
layout. -/
lemma IsPlainOf.isPlain (h : read.IsPlainOf f) (json : ∀ d ∈ f.freeValues, d.IsJson) :
    ∀ d ∈ f.freeValues, d.IsPlain := by
  simp only [freeValues, List.forall_mem_cons] at json ⊢
  exact ⟨h.default.isPlain json.1, h.precision.isPlain json.2.1, h.scale.isPlain json.2.2.1,
    h.nullable.isPlain json.2.2.2.1, by simp⟩

/-- A field has a layout when its free values have a plain form. -/
lemma exists_toPlain_iff :
    (∃ j, f.toPlain = .ok j) ↔ ∀ d ∈ f.freeValues, ∃ j, d.toPlain = .ok j := by
  simp only [toPlain_eq_ok_iff, freeValues, List.forall_mem_cons]
  constructor
  · rintro ⟨_, _, _, _, _, hdefault, hprecision, hscale, hnullable, -⟩
    exact ⟨⟨_, hdefault⟩, ⟨_, hprecision⟩, ⟨_, hscale⟩, ⟨_, hnullable⟩, by simp⟩
  · rintro ⟨⟨_, hdefault⟩, ⟨_, hprecision⟩, ⟨_, hscale⟩, ⟨_, hnullable⟩, -⟩
    exact ⟨_, _, _, _, _, hdefault, hprecision, hscale, hnullable, rfl⟩

end Field

/-! ### Blueprints -/

namespace Blueprint

/-- The names of a blueprint repeat nowhere among its options, in its documentation, its
metadata or its tenancy. -/
structure IsKeyed (b : Blueprint) : Prop where
  /-- Among the options. -/
  options : (b.options.map (·.1)).Nodup
  /-- In the documentation. -/
  docs : (b.docs.map (·.1)).Nodup
  /-- In the metadata. -/
  metadata : (b.metadata.map (·.1)).Nodup
  /-- In the tenancy. -/
  tenancy : (b.tenancy.map (·.1)).Nodup

/-- The values of a blueprint that authors write freely. -/
def freeValues (b : Blueprint) : List Document :=
  b.fields.flatMap Field.freeValues ++
    (b.options ++ b.docs ++ b.metadata ++ b.tenancy).map (·.2)

/-- A blueprint is what the layout of another is read as. -/
structure IsPlainOf (read b : Blueprint) : Prop where
  /-- What is not free is the same. -/
  rest : read =
    { b with fields := read.fields, options := read.options, docs := read.docs,
             metadata := read.metadata, tenancy := read.tenancy }
  /-- The fields in their plain form. -/
  fields : List.Forall₂ (fun f f' => f'.IsPlainOf f) b.fields read.fields
  /-- The options in their plain form. -/
  options : PlainValues b.options read.options
  /-- The documentation in its plain form. -/
  docs : PlainValues b.docs read.docs
  /-- The metadata in their plain form. -/
  metadata : PlainValues b.metadata read.metadata
  /-- The tenancy in its plain form. -/
  tenancy : PlainValues b.tenancy read.tenancy

variable {b read : Blueprint}

lemma forall_freeValues_iff {P : Document → Prop} :
    (∀ d ∈ b.freeValues, P d) ↔ (∀ f ∈ b.fields, ∀ d ∈ f.freeValues, P d) ∧
      (∀ entry ∈ b.options, P entry.2) ∧ (∀ entry ∈ b.docs, P entry.2) ∧
      (∀ entry ∈ b.metadata, P entry.2) ∧ ∀ entry ∈ b.tenancy, P entry.2 := by
  simp only [freeValues, List.forall_mem_append, List.map_append, List.forall_mem_map,
    List.forall_mem_flatMap, and_assoc]

lemma toPlain_eq_ok_iff {j : Json} :
    b.toPlain = .ok j ↔ ∃ fields options docs metadata tenancy,
      List.Forall₂ (fun f plain => f.toPlain = .ok plain) b.fields fields ∧
      toPlainRecord b.options = .ok options ∧ toPlainRecord b.docs = .ok docs ∧
      toPlainRecord b.metadata = .ok metadata ∧ toPlainRecord b.tenancy = .ok tenancy ∧
      j = .object [("path", .string b.path), ("module", .ofText? b.modulePath),
        ("entity", .string b.entity), ("table", .string b.table),
        ("architecture", .string b.architecture), ("fields", .array fields),
        ("relations", .array (b.relations.map Relation.toPlain)), ("options", options),
        ("api", b.api.toPlain), ("docs", docs), ("metadata", metadata), ("tenancy", tenancy),
        ("errors", .array (b.errors.map (·.toPlainWith "class")))] := by
  simp only [toPlain, toPlainWith, bind_eq_ok_iff, mapM_eq_ok_iff, pure, Except.pure,
    Except.ok.injEq]
  constructor
  · rintro ⟨fields, hfields, options, hoptions, docs, hdocs, metadata, hmetadata, tenancy,
      htenancy, rfl⟩
    exact ⟨fields, options, docs, metadata, tenancy, hfields, hoptions, hdocs, hmetadata,
      htenancy, rfl⟩
  · rintro ⟨fields, options, docs, metadata, tenancy, hfields, hoptions, hdocs, hmetadata,
      htenancy, rfl⟩
    exact ⟨fields, hfields, options, hoptions, docs, hdocs, metadata, hmetadata, tenancy,
      htenancy, rfl⟩

/-- **A layout is read back**: the blueprint comes back with its free values in their plain
form. -/
theorem ofDocument_toPlain (keyed : b.IsKeyed) {j : Json} (h : b.toPlain = .ok j) :
    ∃ read, ofDocument (ofJson j) = .ok read ∧ read.IsPlainOf b := by
  obtain ⟨fields, options, docs, metadata, tenancy, hfields, hoptions, hdocs, hmetadata, htenancy,
    rfl⟩ := toPlain_eq_ok_iff.mp h
  obtain ⟨optionsRead, hoptionsRead, hoptionsPlain⟩ := dictOf_toPlainRecord hoptions keyed.options
  obtain ⟨docsRead, hdocsRead, hdocsPlain⟩ := dictOf_toPlainRecord hdocs keyed.docs
  obtain ⟨metadataRead, hmetadataRead, hmetadataPlain⟩ :=
    dictOf_toPlainRecord hmetadata keyed.metadata
  obtain ⟨tenancyRead, htenancyRead, htenancyPlain⟩ := dictOf_toPlainRecord htenancy keyed.tenancy
  obtain ⟨fieldsRead, hfieldsRead, hfieldsPlain⟩ : ∃ fieldsRead,
      tupleOf Field.decode (ofJson (.array fields)) = .ok fieldsRead ∧
        List.Forall₂ (fun f f' => f'.IsPlainOf f) b.fields fieldsRead := by
    have hboth : ∃ fieldsRead,
        List.Forall₂ (fun plain f' => Field.decode (ofJson plain) = .ok f') fields fieldsRead ∧
          List.Forall₂ (fun f f' => f'.IsPlainOf f) b.fields fieldsRead := by
      clear h keyed
      generalize b.fields = declared at hfields
      induction hfields with
      | nil => exact ⟨[], .nil, .nil⟩
      | cons hfirst _ ih =>
        obtain ⟨f', hdecode, hplain⟩ := Field.decode_toPlain hfirst
        obtain ⟨rest, hrest, hrestPlain⟩ := ih
        exact ⟨f' :: rest, .cons hdecode hrest, .cons hplain hrestPlain⟩
    obtain ⟨fieldsRead, hdecode, hplain⟩ := hboth
    exact ⟨fieldsRead, checkItems_ofItems hdecode 0, hplain⟩
  have hrelations : tupleOf Relation.decode
      (ofJson (.array (b.relations.map Relation.toPlain))) = .ok b.relations :=
    checkItems_map (fun r _ => r.decode_toPlain) 0
  refine ⟨{ b with fields := fieldsRead, options := optionsRead, docs := docsRead,
                   metadata := metadataRead, tenancy := tenancyRead }, ?_, rfl, hfieldsPlain,
    hoptionsPlain, hdocsPlain, hmetadataPlain, htenancyPlain⟩
  rw [ofJson, ofDocument, entriesOf]
  simp only [bind, Except.bind, lookup_ofMembers, List.find?_cons, String.reduceBEq,
    Option.map_some, errorsOf_toPlain]
  rw [ofEntries, ← ofJson, strictRecord_ofJson (by simp [memberNames])]
  simp [reading, Reading.apply, Reading.done, required, absentAsNone, defaulted, lookup_ofMembers,
    optional_ofText?, hfieldsRead, hrelations, hoptionsRead, b.api.decode_toPlain, hdocsRead,
    hmetadataRead, htenancyRead, text_ofJson, within, both]

/-- What is read back of a blueprint has the same layout. -/
lemma IsPlainOf.toPlain_eq (h : read.IsPlainOf b) : read.toPlain = b.toPlain := by
  have hfields : read.fields.mapM Field.toPlain = b.fields.mapM Field.toPlain := by
    have hall := h.fields
    generalize b.fields = declared, read.fields = again at hall
    induction hall with
    | nil => rfl
    | cons hfirst _ ih => rw [List.mapM_cons, List.mapM_cons, hfirst.toPlain_eq, ih]
  have hrest := h.rest
  rw [toPlain, toPlain, toPlainWith, toPlainWith, hfields, h.options.toPlainRecord_eq,
    h.docs.toPlainRecord_eq, h.metadata.toPlainRecord_eq, h.tenancy.toPlainRecord_eq, hrest]

/-- A blueprint whose free values are JSON values is read back as it is. -/
lemma IsPlainOf.eq (h : read.IsPlainOf b) (json : ∀ d ∈ b.freeValues, d.IsJson) : read = b := by
  obtain ⟨jsonFields, options, docs, metadata, tenancy⟩ := forall_freeValues_iff.mp json
  have hfields : read.fields = b.fields := by
    have hall := h.fields
    generalize b.fields = declared, read.fields = again at hall jsonFields
    induction hall with
    | nil => rfl
    | cons hfirst _ ih =>
      rw [hfirst.eq (jsonFields _ (by simp)), ih fun f hf => jsonFields f (by simp [hf])]
  rw [h.rest, hfields, h.options.eq options, h.docs.eq docs, h.metadata.eq metadata,
    h.tenancy.eq tenancy]

/-- The free values of a blueprint that are JSON values are plain when the blueprint has a
layout. -/
lemma IsPlainOf.isPlain (h : read.IsPlainOf b) (json : ∀ d ∈ b.freeValues, d.IsJson) :
    ∀ d ∈ b.freeValues, d.IsPlain := by
  rw [forall_freeValues_iff] at json ⊢
  refine ⟨fun f hf => ?_, h.options.isPlain json.2.1, h.docs.isPlain json.2.2.1,
    h.metadata.isPlain json.2.2.2.1, h.tenancy.isPlain json.2.2.2.2⟩
  obtain ⟨f', -, hf'⟩ := exists_of_forall₂ h.fields hf
  exact hf'.isPlain (json.1 f hf)

/-- A blueprint has a layout when its free values have a plain form. -/
lemma exists_toPlain_iff :
    (∃ j, b.toPlain = .ok j) ↔ ∀ d ∈ b.freeValues, ∃ j, d.toPlain = .ok j := by
  simp only [forall_freeValues_iff, ← exists_toPlainRecord_iff, ← Field.exists_toPlain_iff,
    toPlain_eq_ok_iff]
  constructor
  · rintro ⟨_, _, _, _, _, _, hfields, hoptions, hdocs, hmetadata, htenancy, -⟩
    refine ⟨fun f hf => ?_, ⟨_, hoptions⟩, ⟨_, hdocs⟩, ⟨_, hmetadata⟩, ⟨_, htenancy⟩⟩
    obtain ⟨plain, -, hplain⟩ := exists_of_forall₂ hfields hf
    exact ⟨plain, hplain⟩
  · rintro ⟨fields, ⟨_, hoptions⟩, ⟨_, hdocs⟩, ⟨_, hmetadata⟩, ⟨_, htenancy⟩⟩
    obtain ⟨_, hfields⟩ := forall₂_of_exists fields
    exact ⟨_, _, _, _, _, _, hfields, hoptions, hdocs, hmetadata, htenancy, rfl⟩

/-- A blueprint whose free values are plain has a layout. -/
lemma exists_toPlain (plain : ∀ d ∈ b.freeValues, d.IsPlain) : ∃ j, b.toPlain = .ok j :=
  exists_toPlain_iff.mpr fun d hd => (plain d hd).exists_toPlain

/-- **The dictionary layout is faithful**: a blueprint whose free values are JSON values has
a layout from which it is read back exactly when these values nest no deeper than a layout
allows, and whatever has a layout is read back as something with the same layout. -/
theorem layout_faithful (b : Blueprint) (keyed : b.IsKeyed) :
    ((∀ d ∈ b.freeValues, d.IsJson) →
      ((∃ plain, b.toPlain = .ok plain ∧ ofDocument (ofJson plain) = .ok b) ↔
        ∀ d ∈ b.freeValues, d.IsPlain)) ∧
    ∀ plain, b.toPlain = .ok plain →
      ∃ again, ofDocument (ofJson plain) = .ok again ∧ again.toPlain = .ok plain := by
  refine ⟨fun json => ⟨?_, fun shallow => ?_⟩, fun plain hplain => ?_⟩
  · rintro ⟨plain, hplain, -⟩
    obtain ⟨read, -, hread⟩ := ofDocument_toPlain keyed hplain
    exact hread.isPlain json
  · obtain ⟨plain, hplain⟩ := exists_toPlain shallow
    obtain ⟨read, hdocument, hread⟩ := ofDocument_toPlain keyed hplain
    exact ⟨plain, hplain, by rw [hdocument, hread.eq json]⟩
  · obtain ⟨again, hdocument, hagain⟩ := ofDocument_toPlain keyed hplain
    exact ⟨again, hdocument, by rw [hagain.toPlain_eq, hplain]⟩

/-- A blueprint whose documentation holds one value. -/
def documented (value : Json) : Blueprint where
  path := "hr/team.yaml"
  modulePath := some "hr"
  entity := "Team"
  table := "teams"
  architecture := "hexagonal"
  fields := [⟨"size", "integer", none, .int 1, .null, .null, .bool true⟩]
  relations := []
  options := [("audited", .bool true)]
  api := .empty
  docs := [("about", .ofJson value)]
  errors := [⟨"full", "full", "Full", "FullException", "team.full", "Full.", 409, "DomainException",
    none⟩]
  metadata := []
  tenancy := []

lemma documented_isKeyed (value : Json) : (documented value).IsKeyed :=
  ⟨by simp [documented], by simp [documented], by simp [documented], by simp [documented]⟩

lemma documented_forall_freeValues {value : Json} {P : Document → Prop} (null : P .null)
    (one : P (.int 1)) (yes : P (.bool true)) (h : P (.ofJson value)) :
    ∀ d ∈ (documented value).freeValues, P d := by
  simp [documented, freeValues, Field.freeValues, null, one, yes, h]

theorem layout_faithful_documented :
    (documented (.tower 255)).IsKeyed ∧ (∀ d ∈ (documented (.tower 255)).freeValues, d.IsJson) ∧
    ∃ plain, (documented (.tower 255)).toPlain = .ok plain ∧
      ofDocument (ofJson plain) = .ok (documented (.tower 255)) := by
  have plain : ∀ d ∈ (documented (.tower 255)).freeValues, d.IsPlain :=
    documented_forall_freeValues ⟨.null, by decide, by decide, rfl⟩
      ⟨.int 1, by decide, by decide, rfl⟩ ⟨.bool true, by decide, by decide, rfl⟩
      ⟨.tower 255, Json.isStrict_tower 255, (Json.nesting_tower 255).le, rfl⟩
  have json : ∀ d ∈ (documented (.tower 255)).freeValues, d.IsJson :=
    fun d hd => (plain d hd).isJson
  have keyed := documented_isKeyed (.tower 255)
  exact ⟨keyed, json, ((layout_faithful _ keyed).1 json).mpr plain⟩

/-- A JSON value nested one step deeper leaves a blueprint without a layout. -/
theorem layout_too_deep :
    (documented (.tower 256)).IsKeyed ∧ (∀ d ∈ (documented (.tower 256)).freeValues, d.IsJson) ∧
    ¬ ∃ plain, (documented (.tower 256)).toPlain = .ok plain ∧
      ofDocument (ofJson plain) = .ok (documented (.tower 256)) := by
  refine ⟨documented_isKeyed _, documented_forall_freeValues ⟨.null, by decide, rfl⟩
    ⟨.int 1, by decide, rfl⟩ ⟨.bool true, by decide, rfl⟩
    ⟨.tower 256, Json.isStrict_tower 256, rfl⟩, ?_⟩
  rintro ⟨plain, hplain, -⟩
  have hnone : (documented (.tower 256)).toPlain.toOption.isNone = true := by decide +kernel
  rw [hplain] at hnone
  cases hnone

end Blueprint

end Scaffold
