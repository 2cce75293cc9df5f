import Scaffold.Proofs.Blueprint.Isolation
import Scaffold.Proofs.Blueprint.Options
import Scaffold.Proofs.Commands.Equipment
import Scaffold.Proofs.Text.Casing

/-!
The normal form of a blueprint.

Whatever a document holds, it is refused, or a blueprint comes out of which much is known: its
names are trimmed, its errors can be used, its lists are those of the document item by item,
its options are put over the defaults, and what authors write freely is taken over. Nothing
else happens, unless links run in circles.

* `ErrorDefinition.IsUsable`, `Normalize.IsTrimmed`, `Normalize.IsModule`: what errors, texts
  and modules are like.
* `mappings_eq_ok`, `errors_eq_ok`, `tenancy_eq_ok`: one section each.
* `partsOf`, `exists_of_assemble`: the sections put together.
* `Normalize.IsCanonical`: what a blueprint has in common with the entries of its document;
  `isCanonical_of_read`, `isCanonical_of_normalize`: so it is.
* `names_of_normalize`: where the names of a blueprint come from.
* `normalize_canonical` (**the normal form of a blueprint**): a document is refused, or a
  blueprint in normal form comes out.
* `normalize_limits`: two keys of the options may come to one name, and the root may be a
  link to itself.
-/

namespace Scaffold

open Files Text Document Shape Checked

/-- The classes that errors extend. -/
def baseClasses : List String :=
  ["DomainException", "DomainNotFoundException", "DomainConflictException",
   "DomainValidationException"]

/-- An error that a response can be made of. -/
structure ErrorDefinition.IsUsable (e : ErrorDefinition) : Prop where
  /-- The status is one. -/
  status : 100 ≤ e.status ∧ e.status ≤ 599
  /-- There is a code. -/
  code : e.code ≠ ""
  /-- There is a message. -/
  message : e.message ≠ ""
  /-- The exception class is named as one. -/
  exceptionClass : ∃ stem, e.exceptionClass = stem ++ "Exception"
  /-- The class it extends is known. -/
  parent : e.parent ∈ baseClasses

namespace Normalize

variable {tree : FileTree} {settings : Settings} {source : String} {raw : Document}
  {entries : List (Document × Document)} {b : Blueprint}

/-! ### Texts -/

/-- A text that is not blank and has no blanks at its ends. -/
def IsTrimmed (s : String) : Prop :=
  isBlankText s = false ∧ trimmed s = s

/-- What is left of a text by trimming is trimmed, if anything is. -/
lemma isTrimmed_of_ne_empty {s : String} (self : trimmed s = s) (ne : s ≠ "") : IsTrimmed s := by
  refine ⟨?_, self⟩
  rw [← Bool.not_eq_true, ← trimmed_eq_empty_iff, self]
  exact ne

lemma isTrimmed_of_trimmed? {d : Option Document} {s : String} (h : trimmed? d = some s) :
    IsTrimmed s := by
  obtain ⟨written, hfilled, rfl⟩ := Option.map_eq_some_iff.mp h
  have hblank : ¬ isBlankText written = true := by
    unfold filled? at hfilled
    split at hfilled
    · split_ifs at hfilled with hwritten
      cases hfilled
      exact hwritten
    · cases hfilled
  refine isTrimmed_of_ne_empty (trimmed_trimmed written) fun hempty => ?_
  exact hblank (trimmed_eq_empty_iff.mp hempty)

lemma isTrimmed_basePath {api : List (Document × Document)} {p : String}
    (h : basePath api = some p) : IsTrimmed p := by
  rcases Option.or_eq_some_iff.mp h with h | ⟨-, h⟩
  · exact isTrimmed_of_trimmed? h
  · exact isTrimmed_of_trimmed? h

/-! ### Modules -/

/-- A module path: segments of small letters, digits and underscores with slashes between
them. -/
def IsModule (m : String) : Prop :=
  ∃ segments : List (List Char), segments ≠ [] ∧
    (∀ segment ∈ segments, segment ≠ [] ∧
      ∀ c ∈ segment, c.isLower = true ∨ c.isDigit = true ∨ c = '_') ∧
    m = String.ofList (joinWith ['/'] segments)

lemma isModule_of_sanitize {text m : String} (h : ModulePath.sanitize text = .ok (some m)) :
    IsModule m := by
  unfold ModulePath.sanitize at h
  simp only at h
  split at h
  · cases h
  · next hnone =>
    split_ifs at h with hempty
    · cases h
    have hm : m = String.ofList (joinWith ['/'] (ModulePath.segments text.toList)) :=
      (Option.some.inj (Except.ok.inj h)).symm
    refine ⟨_, by simpa using hempty, fun segment hsegment => ⟨?_, fun c hc => ?_⟩, hm⟩
    · simpa using (List.mem_filter.mp hsegment).2
    · have hall := List.find?_eq_none.mp hnone segment hsegment
      simp only [Bool.not_eq_true', Bool.not_eq_false, List.all_eq_true] at hall
      simpa [ModulePath.isSegmentChar, or_assoc] using hall c hc

lemma isModule_of_moduleOf {m : String}
    (h : moduleOf tree settings source entries = .ok (some m)) : IsModule m := by
  rw [moduleOf] at h
  split at h
  · exact isModule_of_sanitize (mapError_eq_ok_iff.mp h)
  · split at h
    · cases h
    · cases h
    · exact isModule_of_sanitize (mapError_eq_ok_iff.mp h)
  · split at h
    · cases h
    · cases h
    · exact isModule_of_sanitize (mapError_eq_ok_iff.mp h)
  · cases h

/-! ### Lists -/

/-- The items of a section that is a list, and none of any other. -/
def itemsOr (section_ : Option Document) : List Document :=
  match section_ with
  | some (.list items) => items
  | _ => []

lemma checkItems_eq_ok {shown : String} {index : Nat} {items found : List Document}
    (h : checkItems shown index items = .ok found) : found = items := by
  induction items generalizing index found with
  | nil => cases h; rfl
  | cons item items ih =>
    unfold checkItems at h
    split at h
    · obtain ⟨rest, hrest, rfl⟩ := map_eq_ok_iff.mp h
      rw [ih hrest]
    · cases h

lemma mappings_eq_ok {shown : String} {section_ : Option Document} {found : List Document}
    (h : mappings shown section_ = .ok found) : found = itemsOr section_ := by
  unfold mappings at h
  split at h
  · cases h; rfl
  · cases h; rfl
  · exact checkItems_eq_ok h
  · cases h

/-! ### Errors -/

lemma status_bounds (value : Option Document) : 100 ≤ status value ∧ status value ≤ 599 := by
  unfold status
  simp only
  split
  · split
    · next h => simpa using h
    · decide
  · decide

lemma nonEmpty?_ne {d : Option Document} {s : String} (h : nonEmpty? d = some s) : s ≠ "" := by
  unfold nonEmpty? at h
  split at h
  · split_ifs at h with hempty
    cases h
    simpa using hempty
  · cases h

lemma getD_nonEmpty?_ne {d : Option Document} {s : String} (h : s ≠ "") :
    (nonEmpty? d).getD s ≠ "" := by
  cases hd : nonEmpty? d with
  | none => exact h
  | some t => exact nonEmpty?_ne hd

lemma parentOf_mem (word : Option Document) : parentOf word ∈ baseClasses := by
  have hall : ∀ entry ∈ parentClasses, entry.2 ∈ baseClasses := by decide +kernel
  unfold parentOf
  split
  · next s =>
    cases h : parentClasses.lookup (lowered (trimmed s)) with
    | none => exact List.mem_cons_self
    | some parent => exact hall _ (mem_of_lookup h)
  · exact List.mem_cons_self

/-- Every error that is read is usable. -/
lemma isUsable_errorOf (entity key : String) (definition : List (Document × Document)) :
    (errorOf entity key definition).IsUsable := by
  refine ⟨status_bounds _, getD_nonEmpty?_ne ?_, getD_nonEmpty?_ne ?_, ?_, parentOf_mem _⟩
  · simp
  · simp
  · rw [errorOf, exceptionName]
    split_ifs with hends
    · obtain ⟨front, hfront⟩ := String.Slice.endsWith_string_iff.mp hends
      refine ⟨String.ofList front, ?_⟩
      rw [← String.toList_inj, String.toList_append, String.toList_ofList, hfront]
      simp
    · exact ⟨_, rfl⟩

lemma isUsable_of_errorEntry {entity : String} {entry : Document × Document} {e : ErrorDefinition}
    (h : errorEntry entity entry = .ok e) : e.IsUsable := by
  unfold errorEntry at h
  split at h
  · cases h
  · split at h
    · exact Except.ok.inj h ▸ isUsable_errorOf _ _ _
    · exact Except.ok.inj h ▸ isUsable_errorOf _ _ _
    · exact Except.ok.inj h ▸ isUsable_errorOf _ _ _
    · cases h

/-- The errors are those of the entries of their section, in order. -/
lemma errors_eq_ok {entity : String} {section_ : Option Document} {found : List ErrorDefinition}
    (h : errors entity section_ = .ok found) :
    List.Forall₂ (fun entry e => errorEntry entity entry = .ok e) (entriesOr section_) found := by
  unfold errors at h
  split at h
  · cases h; exact .nil
  · cases h; exact .nil
  · exact mapM_eq_ok_iff.mp h
  · cases h

/-! ### Tenancy -/

lemma tenancyValue_eq_ok {key : String} {entry : String × String}
    (h : tenancyValue entries key = .ok (some entry)) :
    entry.1 = key ∧ IsTrimmed entry.2 ∧ lowered entry.2 = entry.2 := by
  unfold tenancyValue at h
  split at h
  · cases h
  · cases h
  · next s _ =>
    rw [Except.ok.injEq] at h
    split_ifs at h with hempty
    rw [← Option.some.inj h]
    refine ⟨rfl, isTrimmed_of_ne_empty (trimmed_lowered (trimmed_trimmed s)) ?_, lowered_lowered _⟩
    simpa using hempty
  · cases h

/-- The values of the tenancy stand under known keys, trimmed and in lower case. -/
lemma tenancy_eq_ok {section_ : Option Document} {found : List (String × String)}
    (h : tenancy section_ = .ok found) :
    ∀ entry ∈ found, entry.1 ∈ tenancyKeys ∧ IsTrimmed entry.2 ∧ lowered entry.2 = entry.2 := by
  unfold tenancy at h
  split at h
  · cases h; simp
  · cases h; simp
  · obtain ⟨values, hvalues, hfound⟩ := bind_eq_ok_iff.mp h
    cases hfound
    intro entry hentry
    obtain ⟨value, hvalue, rfl⟩ := List.mem_filterMap.mp hentry
    obtain ⟨key, hkey, hentry⟩ := exists_of_forall₂ (mapM_eq_ok_iff.mp hvalues).flip hvalue
    obtain ⟨hname, htrimmed, hlower⟩ := tenancyValue_eq_ok hentry
    exact ⟨hname ▸ hkey, htrimmed, hlower⟩
  · cases h

/-! ### The parts -/

/-- The parts that are read as a blueprint, put together from their sections. -/
def partsOf (settings : Settings) (source : String) (entries : List (Document × Document))
    (entity : String) (modulePath : Option String) (shown : List Include)
    (tenancy : List (String × String)) : List (Document × Document) :=
  let api := entriesOr (Document.lookup "api" entries)
  let table := (filled? (Document.lookup "table" entries)).getD (tableName entity)
  let architecture :=
    (filled? (Document.lookup "architecture" entries)).getD settings.defaultArchitecture
  let surface := Document.record [
    ("base_path", .ofText? (basePath api)),
    ("middleware", .list (textsOf (Document.lookup "middleware" api))),
    ("resources", .record [("includes", .ofJson (.array (shown.map Include.toPlain)))]),
    ("endpoints", .list (itemsOr (Document.lookup "endpoints" api)))]
  [(.text "path", .text source), (.text "module", .ofText? modulePath),
    (.text "entity", .text entity), (.text "table", .text (trimmed table)),
    (.text "architecture", .text (trimmed architecture)),
    (.text "fields", .list (itemsOr (Document.lookup "fields" entries))),
    (.text "relations", .list (itemsOr (Document.lookup "relations" entries))),
    (.text "options", .mapping (mergeOptions settings.defaultOptions
      (entriesOr (Document.lookup "options" entries)))),
    (.text "api", surface),
    (.text "docs", .mapping (entriesOr (Document.lookup "docs" entries))),
    (.text "metadata", .mapping (entriesOr (Document.lookup "metadata" entries))),
    (.text "tenancy", .record (tenancy.map fun entry => (entry.1, .text entry.2)))]

/-- What is assembled has an entity and fields, and its parts come from their sections. -/
lemma exists_of_assemble {parts : List (Document × Document)} {found : List ErrorDefinition}
    (h : assemble tree settings raw source = .ok (parts, found)) :
    ∃ entries entity modulePath shown tenants, raw = .mapping entries ∧
      trimmed? (Document.lookup "entity" entries) = some entity ∧
      itemsOr (Document.lookup "fields" entries) ≠ [] ∧
      moduleOf tree settings source entries = .ok modulePath ∧
      errors entity (Document.lookup "errors" entries) = .ok found ∧
      tenancy (Document.lookup "tenancy" entries) = .ok tenants ∧
      parts = partsOf settings source entries entity modulePath shown tenants := by
  rw [assemble] at h
  split at h
  · next entries hentries =>
    obtain rfl : raw = .mapping entries := by
      cases raw <;> cases hentries
      rfl
    split at h
    · next entity hentity =>
      obtain ⟨fields, hfields, h⟩ := bind_eq_ok_iff.mp h
      obtain rfl := mappings_eq_ok (mapError_eq_ok_iff.mp hfields)
      by_cases hempty : (itemsOr (Document.lookup "fields" entries)).isEmpty = true
      · simp only [hempty, if_true] at h
        cases h
      simp only [hempty, if_false, Bool.false_eq_true] at h
      have hdeclared : itemsOr (Document.lookup "fields" entries) ≠ [] := by
        simpa using hempty
      -- the options are there or not, and the other sections are read alike
      split at h
      case h_4 => cases h
      all_goals
        rename_i hoptions
        simp only [bind_eq_ok_iff, mapError_eq_ok_iff, pure, Except.pure, Except.ok.injEq,
          Prod.mk.injEq] at h
        obtain ⟨_, rfl, modulePath, hmodule, _, hrelations, shown, -, _, hendpoints, _, herrors,
          tenants, htenancy, hparts, rfl⟩ := h
        rw [mappings_eq_ok hrelations, mappings_eq_ok hendpoints] at hparts
        refine ⟨entries, entity, modulePath, shown, tenants, rfl, hentity, hdeclared, hmodule,
          herrors, htenancy, ?_⟩
        rw [← hparts, partsOf, hoptions]
        rfl
    · cases h
  · cases h

/-! ### What is read of the parts -/

lemma required_eq_ok_iff {α : Type} {name : String} {decode : Decoder α} {a : α} {d : Document}
    (h : Document.lookup name entries = some d) :
    required name decode entries = .ok a ↔ decode d = .ok a := by
  rw [required, h]
  exact within_eq_ok_iff

lemma defaulted_eq_ok_iff {α : Type} {name : String} {decode : Decoder α} {absent a : α}
    {d : Document} (h : Document.lookup name entries = some d) :
    defaulted name decode absent entries = .ok a ↔ decode d = .ok a := by
  rw [defaulted, h]
  exact within_eq_ok_iff

/-- What a blueprint in normal form has in common with the entries of its document. -/
structure IsCanonical (settings : Settings) (entries : List (Document × Document))
    (b : Blueprint) : Prop where
  /-- The entity has a name. -/
  entity : IsTrimmed b.entity
  /-- The table has no blanks at its ends. -/
  table : trimmed b.table = b.table
  /-- Nor has the architecture. -/
  architecture : trimmed b.architecture = b.architecture
  /-- There is a field. -/
  declared : b.fields ≠ []
  /-- The fields are those of the document, in order. -/
  fields : List.Forall₂ (fun d f => Field.decode d = .ok f)
    (itemsOr (Document.lookup "fields" entries)) b.fields
  /-- So are the relations. -/
  relations : List.Forall₂ (fun d r => Relation.decode d = .ok r)
    (itemsOr (Document.lookup "relations" entries)) b.relations
  /-- So are the endpoints. -/
  endpoints : List.Forall₂ (fun d e => Endpoint.decode d = .ok e)
    (itemsOr (Document.lookup "endpoints" (entriesOr (Document.lookup "api" entries))))
    b.api.endpoints
  /-- So are the errors. -/
  errors : List.Forall₂ (fun entry e => errorEntry b.entity entry = .ok e)
    (entriesOr (Document.lookup "errors" entries)) b.errors
  /-- Every error can be used. -/
  usable : ∀ e ∈ b.errors, e.IsUsable
  /-- The module is a module path, if there is one. -/
  module : ∀ m, b.modulePath = some m → IsModule m
  /-- The path in front of the endpoints is not blank, if there is one. -/
  basePath : ∀ p, b.api.basePath = some p → IsTrimmed p
  /-- The options are put over the defaults. -/
  options : Overlays settings.defaultOptions (entriesOr (Document.lookup "options" entries))
    b.options
  /-- The documentation is that of the document. -/
  docs : TakesOver (entriesOr (Document.lookup "docs" entries)) b.docs
  /-- So are the metadata. -/
  metadata : TakesOver (entriesOr (Document.lookup "metadata" entries)) b.metadata
  /-- The values of the tenancy are texts in lower case under known keys. -/
  tenancy : ∀ entry ∈ b.tenancy, entry.1 ∈ tenancyKeys ∧
    ∃ value, entry.2 = .text value ∧ IsTrimmed value ∧ lowered value = value

variable {entity : String} {modulePath : Option String} {shown : List Include}
  {tenants : List (String × String)} {found : List ErrorDefinition}

/-- A text that may be absent is read from the document in its place. -/
lemma optional_text_ofText? (s : Option String) :
    optional Shape.text (Document.ofText? s) = .ok s := by
  cases s <;> rfl

/-- An interface is read of its sections. -/
lemma read_surface {api : List (Document × Document)} {shown : Document} {surface : Surface}
    (h : Surface.decode (Document.record [("base_path", .ofText? (basePath api)),
      ("middleware", .list (textsOf (Document.lookup "middleware" api))), ("resources", shown),
      ("endpoints", .list (itemsOr (Document.lookup "endpoints" api)))]) = .ok surface) :
    surface.basePath = basePath api ∧
      List.Forall₂ (fun d e => Endpoint.decode d = .ok e)
        (itemsOr (Document.lookup "endpoints" api)) surface.endpoints := by
  obtain ⟨parts, hparts, -, hreading⟩ := strictRecord_eq_ok_iff.mp h
  cases hparts
  simp only [apply_eq_ok_iff] at hreading
  obtain ⟨_, endpoints, ⟨_, _, ⟨_, _, ⟨_, path, hdone, hpath, rfl⟩, -, rfl⟩, -, rfl⟩, hendpoints,
    rfl⟩ := hreading
  cases hdone
  rw [absentAsNone, defaulted_eq_ok_iff rfl, optional_text_ofText?] at hpath
  rw [defaulted_eq_ok_iff rfl] at hendpoints
  exact ⟨(Except.ok.inj hpath).symm, checkItems_eq_ok_iff.mp hendpoints⟩

/-- A tenancy is read of its values. -/
lemma read_tenancy {part : Option Document} {values : Named} (htenants : tenancy part = .ok tenants)
    (h : dictOf anything (Document.record (tenants.map fun entry => (entry.1, .text entry.2))) =
      .ok values) :
    ∀ entry ∈ values, entry.1 ∈ tenancyKeys ∧
      ∃ value, entry.2 = .text value ∧ IsTrimmed value ∧ lowered value = value := by
  intro entry hentry
  obtain ⟨key, hkey, hname⟩ := (takesOver_dictOf h).exists_of_mem hentry
  rw [List.map_map, List.mem_map] at hkey
  obtain ⟨tenant, hmem, heq⟩ := hkey
  obtain ⟨rfl, hvalue⟩ := Prod.mk.inj heq
  obtain ⟨hknown, htrimmed, hlower⟩ := tenancy_eq_ok htenants tenant hmem
  exact ⟨Except.ok.inj hname ▸ hknown, tenant.2, hvalue.symm, htrimmed, hlower⟩

/-- **What is read of the parts is in normal form.** -/
lemma isCanonical_of_read (distinct : (settings.defaultOptions.map (·.1)).Nodup)
    (hentity : IsTrimmed entity) (declared : itemsOr (Document.lookup "fields" entries) ≠ [])
    (hmodule : moduleOf tree settings source entries = .ok modulePath)
    (herrors : errors entity (Document.lookup "errors" entries) = .ok found)
    (htenants : tenancy (Document.lookup "tenancy" entries) = .ok tenants)
    (h : Blueprint.ofEntries
      (partsOf settings source entries entity modulePath shown tenants) found = .ok b) :
    IsCanonical settings entries b := by
  obtain ⟨parts, hparts, -, hreading⟩ := strictRecord_eq_ok_iff.mp h
  cases hparts
  simp only [Blueprint.reading, apply_eq_ok_iff] at hreading
  obtain ⟨_, tenancy, ⟨_, metadata, ⟨_, errors, ⟨_, docs, ⟨_, api, ⟨_, options, ⟨_, relations,
    ⟨_, fields, ⟨_, architecture, ⟨_, table, ⟨_, _, ⟨_, module, ⟨_, path, hdone, -, rfl⟩,
    hpath, rfl⟩, hname, rfl⟩, htable, rfl⟩, harchitecture, rfl⟩, hfields, rfl⟩, hrelations, rfl⟩,
    hoptions, rfl⟩, hapi, rfl⟩, hdocs, rfl⟩, hfound, rfl⟩, hmetadata, rfl⟩, htenancy, rfl⟩ :=
    hreading
  cases hdone
  cases hfound
  rw [absentAsNone, defaulted_eq_ok_iff rfl, optional_text_ofText?] at hpath
  rw [required_eq_ok_iff rfl] at hname htable harchitecture
  rw [defaulted_eq_ok_iff rfl] at hfields hrelations hoptions hapi hdocs hmetadata htenancy
  obtain rfl := Except.ok.inj hpath
  obtain rfl := Except.ok.inj hname
  obtain ⟨hbase, hendpoints⟩ := read_surface hapi
  have hfields := checkItems_eq_ok_iff.mp hfields
  have hall := errors_eq_ok herrors
  refine ⟨hentity, Except.ok.inj htable ▸ trimmed_trimmed _,
    Except.ok.inj harchitecture ▸ trimmed_trimmed _, ?_, hfields,
    checkItems_eq_ok_iff.mp hrelations, hendpoints, hall, ?_, ?_, ?_,
    overlays_mergeOptions distinct hoptions, takesOver_dictOf hdocs, takesOver_dictOf hmetadata,
    read_tenancy htenants htenancy⟩
  · rintro (rfl : fields = [])
    exact declared (List.forall₂_nil_right_iff.mp hfields)
  · intro e he
    obtain ⟨entry, -, hentry⟩ := exists_of_forall₂ hall.flip he
    exact isUsable_of_errorEntry hentry
  · rintro m (rfl : modulePath = some m)
    exact isModule_of_moduleOf hmodule
  · intro p hp
    exact isTrimmed_basePath (hbase ▸ hp)

/-- A blueprint that a document is shaped to is in normal form. -/
theorem isCanonical_of_normalize (distinct : (settings.defaultOptions.map (·.1)).Nodup)
    (h : normalize tree settings raw source = .ok b) :
    ∃ entries, raw = .mapping entries ∧ IsCanonical settings entries b := by
  rw [normalize] at h
  obtain ⟨⟨parts, found⟩, hassemble, h⟩ := bind_eq_ok_iff.mp h
  obtain ⟨entries, entity, modulePath, shown, tenants, rfl, hentity, hdeclared, hmodule, herrors,
    htenants, rfl⟩ := exists_of_assemble hassemble
  simp only at h
  split at h
  · next b' hread =>
    cases h
    exact ⟨entries, rfl, isCanonical_of_read distinct (isTrimmed_of_trimmed? hentity) hdeclared
      hmodule herrors htenants hread⟩
  · cases h

/-- The names of a blueprint are those of the document, trimmed. A table that is not named is
named after the entity, and an architecture that is not named is the default. -/
lemma names_of_normalize (h : normalize tree settings (.mapping entries) source = .ok b) :
    trimmed? (Document.lookup "entity" entries) = some b.entity ∧
    b.table = trimmed ((filled? (Document.lookup "table" entries)).getD (tableName b.entity)) ∧
    b.architecture = trimmed
      ((filled? (Document.lookup "architecture" entries)).getD settings.defaultArchitecture) := by
  rw [normalize] at h
  obtain ⟨⟨parts, found⟩, hassemble, h⟩ := bind_eq_ok_iff.mp h
  obtain ⟨_, entity, modulePath, shown, tenants, hraw, hentity, -, -, -, -, rfl⟩ :=
    exists_of_assemble hassemble
  cases hraw
  simp only at h
  split at h
  · next b' hread =>
    cases h
    obtain ⟨parts, hparts, -, hreading⟩ := strictRecord_eq_ok_iff.mp hread
    cases hparts
    simp only [Blueprint.reading, apply_eq_ok_iff] at hreading
    obtain ⟨_, _, ⟨_, _, ⟨_, _, ⟨_, _, ⟨_, _, ⟨_, _, ⟨_, _, ⟨_, _, ⟨_, architecture, ⟨_, table,
      ⟨_, name, ⟨_, _, ⟨_, _, hdone, -, rfl⟩, -, rfl⟩, hname, rfl⟩, htable, rfl⟩, harchitecture,
      rfl⟩, -, rfl⟩, -, rfl⟩, -, rfl⟩, -, rfl⟩, -, rfl⟩, -, rfl⟩, -, rfl⟩, -, rfl⟩ := hreading
    cases hdone
    rw [required_eq_ok_iff rfl] at hname htable harchitecture
    obtain rfl := Except.ok.inj hname
    exact ⟨hentity, (Except.ok.inj htable).symm, (Except.ok.inj harchitecture).symm⟩
  · cases h

end Normalize

/-- **The normal form of a blueprint.** Shaping a document comes to an end unless the way to
its place or to the root of all blueprints runs in circles: the document is refused, or a
blueprint in normal form comes out. -/
theorem normalize_canonical (tree : Files.FileTree) (settings : Settings) (raw : Document)
    (source : String) (distinct : (settings.defaultOptions.map (·.1)).Nodup)
    (place : tree.resolve (.ofText source) ≠ .error .circular)
    (root : ∀ top, settings.root = some top → tree.resolve top ≠ .error .circular) :
    (∃ cause, normalize tree settings raw source = .error (.refused cause)) ∨
      ∃ b entries, normalize tree settings raw source = .ok b ∧ raw = .mapping entries ∧
        Normalize.IsCanonical settings entries b := by
  cases h : normalize tree settings raw source with
  | ok b =>
    obtain ⟨entries, hraw, hcanonical⟩ := Normalize.isCanonical_of_normalize distinct h
    exact .inr ⟨b, entries, rfl, hraw, hcanonical⟩
  | error failure =>
    cases failure with
    | refused cause => exact .inl ⟨cause, rfl⟩
    | broken breakdown =>
      obtain ⟨-, fault, hdetect⟩ := normalize_breaksOnly breakdown h
      obtain ⟨top, htop, hcircular⟩ := detect_eq_error hdetect
      exact absurd hcircular (not_or.mpr ⟨place, root top htop⟩)

/-- The document of an employee. -/
def employeeDocument : Document :=
  .mapping [(.text "entity", .text " Employee "),
    (.text "fields", .list [.mapping [(.text "name", .text "id"), (.text "type", .text "uuid")]]),
    (.text "errors", .mapping [(.text "missing", .text "Not there.")])]

/-- The normal form of an employee, whose document stands outside of all roots. -/
theorem normalize_canonical_employee :
    (Settings.standard.defaultOptions.map (·.1)).Nodup ∧
    (⟨[], [], [], 0⟩ : Files.FileTree).resolve (.ofText "employee.yaml") ≠ .error .circular ∧
    (∀ top, Settings.standard.root = some top →
      (⟨[], [], [], 0⟩ : Files.FileTree).resolve top ≠ .error .circular) ∧
    (normalize ⟨[], [], [], 0⟩ .standard employeeDocument "employee.yaml").isOk = true ∧
    ((∃ cause, normalize ⟨[], [], [], 0⟩ .standard employeeDocument "employee.yaml" =
        .error (.refused cause)) ∨
      ∃ b entries, normalize ⟨[], [], [], 0⟩ .standard employeeDocument "employee.yaml" = .ok b ∧
        employeeDocument = .mapping entries ∧
        Normalize.IsCanonical .standard entries b) := by
  have distinct : (Settings.standard.defaultOptions.map (·.1)).Nodup := by decide +kernel
  have place : (⟨[], [], [], 0⟩ : Files.FileTree).resolve (.ofText "employee.yaml") ≠
      .error .circular := by
    decide +kernel
  have root : ∀ top, Settings.standard.root = some top →
      (⟨[], [], [], 0⟩ : Files.FileTree).resolve top ≠ .error .circular := by
    intro top htop
    cases htop
  exact ⟨distinct, place, root, by decide +kernel,
    normalize_canonical ⟨[], [], [], 0⟩ .standard employeeDocument "employee.yaml" distinct place
      root⟩

/-- The options of a document that has two keys for one of them: a text, and the byte string
that encodes it. -/
def encodedOptions : List (Document × Document) :=
  [(.text "timestamps", .bool true), (.bytes (Utf8.encode "timestamps"), .bool false)]

/-- The document of an employee whose options are encoded. -/
def encodedDocument : Document :=
  .mapping [(.text "entity", .text "Employee"),
    (.text "fields", .list [.mapping [(.text "name", .text "id"), (.text "type", .text "uuid")]]),
    (.text "options", .mapping encodedOptions)]

/-- Shaping an employee among nodes of which one is a link to itself, under a given root. -/
def normalizeNearLoop (root : Option Path) (raw : Document) :
    Except (Failure BlueprintFault) Blueprint :=
  normalize ⟨[], [(["loop"], .link "loop")], [], 0⟩
    ⟨root, standardArchitecture, standardOptions⟩ raw "employee.yaml"

/-- The value under the key that is a text does not count when another key encodes it, and
nothing comes out when the root of all blueprints is a link to itself. -/
theorem normalize_limits :
    (∃ b, normalizeNearLoop none encodedDocument = .ok b ∧
      (.text "timestamps", .bool true) ∈ encodedOptions ∧
      b.options.lookup "timestamps" = some (.bool false)) ∧
    normalizeNearLoop (some (.ofText "loop")) employeeDocument =
      .error (.broken .circularPath) := by
  constructor
  · have hvalue : ((normalizeNearLoop none encodedDocument).toOption.bind fun b =>
        b.options.lookup "timestamps") = some (.bool false) := by
      rfl
    obtain ⟨b, hb, hoption⟩ := Option.bind_eq_some_iff.mp hvalue
    exact ⟨b, toOption_eq_some_iff.mp hb, List.mem_cons_self, hoption⟩
  · have hbroken : (normalizeNearLoop (some (.ofText "loop")) employeeDocument).map (fun _ => ()) =
        .error (.broken .circularPath) := by
      decide +kernel
    exact map_eq_error_iff.mp hbroken

end Scaffold
