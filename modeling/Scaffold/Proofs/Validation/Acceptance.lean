import Mathlib.Data.List.Nodup
import Scaffold.Proofs.Validation.Structure
import Scaffold.Validation.Stages

/-!
Which blueprints are accepted.

The second stage looks at how the parts fit together, and only its errors count. Both
stages together find no error exactly in the blueprints whose parts are well formed and
fit together.

* `Blueprint.TenancyFits`, `Endpoint.Fits`, `Blueprint.Coherent`: how the parts have to
  fit together.
* `checkCoherence_isValid_iff`: the second stage finds no error exactly then.
* `Blueprint.WellFormed`: the conditions of both stages.
* `validate_isValid_iff`: validation accepts exactly the well-formed blueprints.
-/

namespace Scaffold

open Shape

/-! ### Findings -/

lemma uniqueAfter_sublist (seen : List (String × String × String)) (fs : List Finding) :
    (uniqueAfter seen fs).Sublist fs := by
  induction fs generalizing seen with
  | nil => exact List.Sublist.refl _
  | cons f fs ih =>
    rw [uniqueAfter]
    split_ifs
    · exact (ih seen).cons f
    · exact (ih (f.identity :: seen)).cons_cons f

lemma unique_eq_nil_iff {fs : List Finding} : unique fs = [] ↔ fs = [] := by
  rw [unique]
  cases fs with
  | nil => simp [uniqueAfter]
  | cons f fs => simp [uniqueAfter]

/-- Repeats make no difference to validity. -/
lemma Findings.isValid_deduplicated (r : Findings) : r.deduplicated.isValid = r.isValid := by
  rw [Bool.eq_iff_iff, isValid, isValid, List.isEmpty_iff, List.isEmpty_iff, deduplicated,
    unique_eq_nil_iff]

lemma Findings.isValid_merge (r s : Findings) : (r.merge s).isValid = (r.isValid && s.isValid) := by
  cases h : r.errors <;> simp [isValid, merge, h]

/-! ### Tenancy -/

/-- The mode that a tenancy declares, or the one that the place of the blueprint suggests
when nothing is declared. -/
def Blueprint.mode (b : Blueprint) : Document :=
  match b.tenancy.lookup "mode" with
  | some mode => if counts mode then mode else .text (tenancyMode b)
  | none => .text (tenancyMode b)

/-- How the entries of a tenancy fit together. -/
structure Blueprint.TenancyFits (b : Blueprint) : Prop where
  /-- Whoever sets anything else declares a mode too. -/
  mode : (∃ key ∈ ["storage", "connection", "routing_scope", "seed_scope"], ∃ value,
      b.tenancy.lookup key = some value ∧ counts value) →
    ∃ mode, b.tenancy.lookup "mode" = some mode ∧ mode ≠ .null
  /-- Every scope is one of three and does not contradict the mode. -/
  scopes : ∀ key ∈ ["storage", "routing_scope", "seed_scope"], ∀ value,
    b.tenancy.lookup key = some value → value ≠ .null →
      ∃ scope ∈ ["central", "tenant", "both"], value = .text scope ∧
        ¬ (b.mode = .text "central" ∧ scope = "tenant") ∧
        ¬ (b.mode = .text "tenant" ∧ scope = "central")

lemma tenancyEntry_eq_some_iff {b : Blueprint} {key : String} {value : Document} :
    tenancyEntry b key = some value ↔ b.tenancy.lookup key = some value ∧ value ≠ .null := by
  rw [tenancyEntry]
  split
  · next h => simp [h, eq_comm]
  · next h =>
    constructor
    · exact fun hvalue => ⟨hvalue, fun hnull => h (hnull ▸ hvalue)⟩
    · exact fun hvalue => hvalue.1

lemma any_counts_iff {b : Blueprint} {key : String} :
    (tenancyEntry b key).any counts ↔ ∃ value, b.tenancy.lookup key = some value ∧ counts value := by
  rw [Option.any_eq_true]
  refine exists_congr fun value => ?_
  rw [tenancyEntry_eq_some_iff, and_assoc]
  refine and_congr_right fun _ => and_iff_right_of_imp ?_
  rintro hcounts rfl
  cases hcounts

/-- The mode against which scopes are held. -/
lemma mode_eq (b : Blueprint) :
    (match tenancyEntry b "mode" with
      | some mode => if counts mode then mode else .text (tenancyMode b)
      | none => .text (tenancyMode b)) = b.mode := by
  rw [Blueprint.mode, tenancyEntry]
  cases b.tenancy.lookup "mode" with
  | none => rfl
  | some mode => cases mode <;> rfl

lemma asText?_eq_some_iff {d : Document} {s : String} : d.asText? = some s ↔ d = .text s := by
  cases d <;> simp [Document.asText?]

lemma contradicts_iff {d : Document} {scope : String} :
    d.asText?.any (contradicts · scope) ↔
      (d = .text "central" ∧ scope = "tenant") ∨ (d = .text "tenant" ∧ scope = "central") := by
  rw [Option.any_eq_true]
  simp only [asText?_eq_some_iff, contradicts, Bool.or_eq_true, Bool.and_eq_true, beq_iff_eq]
  constructor
  · rintro ⟨mode, rfl, ⟨rfl, rfl⟩ | ⟨rfl, rfl⟩⟩
    · exact .inl ⟨rfl, rfl⟩
    · exact .inr ⟨rfl, rfl⟩
  · rintro (⟨rfl, rfl⟩ | ⟨rfl, rfl⟩)
    · exact ⟨_, rfl, .inl ⟨rfl, rfl⟩⟩
    · exact ⟨_, rfl, .inr ⟨rfl, rfl⟩⟩

/-- A scope has no error when it is one of three and does not contradict the mode. -/
lemma scopeError_eq_none_iff {mode : Document} {key : String} {value : Document} :
    scopeError mode key value = none ↔
      ∃ scope ∈ ["central", "tenant", "both"], value = .text scope ∧
        ¬ (mode = .text "central" ∧ scope = "tenant") ∧
        ¬ (mode = .text "tenant" ∧ scope = "central") := by
  rw [scopeError]
  cases htext : value.asText? with
  | none =>
    refine iff_of_false (by simp) ?_
    rintro ⟨scope, -, rfl, -⟩
    cases htext
  | some scope =>
    rw [asText?_eq_some_iff] at htext
    subst htext
    simp only
    split_ifs with hunknown hcontradicts
    · refine iff_of_false (by simp) ?_
      rintro ⟨scope', hscope, heq, -⟩
      rw [Document.text.injEq] at heq
      simp [scopes, heq, hscope] at hunknown
    · refine iff_of_false (by simp) ?_
      rintro ⟨scope', -, heq, h1, h2⟩
      rw [Document.text.injEq] at heq
      rw [contradicts_iff, heq] at hcontradicts
      exact hcontradicts.elim h1 h2
    · refine iff_of_true rfl ⟨scope, by simpa [scopes, or_iff_not_imp_left] using hunknown, rfl, ?_⟩
      rw [contradicts_iff, not_or] at hcontradicts
      exact hcontradicts

/-- The tenancy has no error exactly when its entries fit together. -/
lemma tenancyFindings_isValid_iff {b : Blueprint} :
    (tenancyFindings b).isValid ↔ b.TenancyFits := by
  have hmissing : ((tenancyEntry b "mode").isNone && overrideKeys.any fun key =>
      (tenancyEntry b key).any counts) = false ↔
      ((∃ key ∈ overrideKeys, ∃ value, b.tenancy.lookup key = some value ∧ counts value) →
        ∃ mode, b.tenancy.lookup "mode" = some mode ∧ mode ≠ .null) := by
    rw [Bool.and_eq_false_iff, Option.isNone_eq_false_iff, Option.isSome_iff_exists,
      ← Bool.not_eq_true (List.any _ _), List.any_eq_true]
    simp only [tenancyEntry_eq_some_iff, any_counts_iff]
    exact or_comm.trans imp_iff_not_or.symm
  have hscopes : (scopeKeys.filterMap fun key => (tenancyEntry b key).bind (scopeError b.mode key)) =
      [] ↔ ∀ key ∈ scopeKeys, ∀ value, b.tenancy.lookup key = some value → value ≠ .null →
        ∃ scope ∈ ["central", "tenant", "both"], value = .text scope ∧
          ¬ (b.mode = .text "central" ∧ scope = "tenant") ∧
          ¬ (b.mode = .text "tenant" ∧ scope = "central") := by
    rw [List.filterMap_eq_nil_iff]
    refine forall₂_congr fun key _ => ?_
    rw [Option.bind_eq_none_iff]
    refine forall_congr' fun value => ?_
    rw [tenancyEntry_eq_some_iff, scopeError_eq_none_iff, and_imp]
  have herrors : (tenancyFindings b).errors = (if (tenancyEntry b "mode").isNone &&
      overrideKeys.any fun key => (tenancyEntry b key).any counts then
        [⟨"tenancy.mode.missing", "Tenancy requires \"mode\" when other tenancy options are set.",
          some "tenancy.mode"⟩]
      else []) ++ scopeKeys.filterMap fun key =>
        (tenancyEntry b key).bind (scopeError b.mode key) := by
    rw [← mode_eq]
    rfl
  rw [Findings.isValid, List.isEmpty_iff, herrors, List.append_eq_nil_iff, hscopes]
  constructor
  · rintro ⟨h1, h2⟩
    refine ⟨hmissing.mp ?_, h2⟩
    split_ifs at h1 with h
    simpa using h
  · rintro ⟨h1, h2⟩
    refine ⟨?_, h2⟩
    rw [if_neg]
    exact ne_true_of_eq_false (hmissing.mpr h1)

/-! ### Fields and relations -/

/-- No field is reported when the names are distinct and none came before. -/
lemma repeatedFields_eq_nil_iff {seen : List String} {i : Nat} {fs : List Field} :
    repeatedFields seen i fs = [] ↔
      (fs.map (·.name)).Nodup ∧ ∀ f ∈ fs, f.name ∉ seen := by
  induction fs generalizing seen i with
  | nil => simp [repeatedFields]
  | cons f fs ih =>
    rw [repeatedFields, List.append_eq_nil_iff, ih, List.map_cons, List.nodup_cons]
    have hfirst : (if seen.contains f.name then [(⟨"fields.duplicate",
        "Duplicate field: " ++ f.name, some (itemPath "fields" i ".name")⟩ : Finding)] else []) =
        [] ↔ f.name ∉ seen := by
      split_ifs with h <;> simpa using h
    rw [hfirst, List.forall_mem_cons]
    simp only [List.mem_cons, not_or, List.mem_map, not_exists, not_and]
    constructor
    · rintro ⟨h1, h2, h3⟩
      exact ⟨⟨fun g hg => (h3 g hg).1, h2⟩, h1, fun g hg => (h3 g hg).2⟩
    · rintro ⟨⟨h1, h2⟩, h3, h4⟩
      exact ⟨h3, h2, fun g hg => ⟨h1 g hg, h4 g hg⟩⟩

lemma lostRelations_eq_nil_iff {names : List String} {i : Nat} {rs : List Relation} :
    lostRelations names i rs = [] ↔ ∀ r ∈ rs, r.field ∈ names := by
  induction rs generalizing i with
  | nil => simp [lostRelations]
  | cons r rs ih =>
    rw [lostRelations, List.append_eq_nil_iff, ih, List.forall_mem_cons]
    refine and_congr_left fun _ => ?_
    split_ifs with h <;> simpa using h

/-! ### Endpoints -/

/-- What the flavour of an endpoint asks for, among declared names. -/
structure Endpoint.Fits (names : List String) (e : Endpoint) : Prop where
  /-- A change of one field names a declared field. -/
  patch : e.kind = "patch" → ∃ field ∈ names, e.field = some field ∧ field ≠ ""
  /-- A search names a field. -/
  search : e.kind = "search" → e.fields ≠ []
  /-- Statistics are grouped by something. -/
  stats : e.kind = "stats" → ∃ group, e.by_ = some group ∧ group ≠ ""

lemma present?_eq_some_iff {s : Option String} {t : String} :
    present? s = some t ↔ s = some t ∧ t ≠ "" := by
  rw [present?, Option.filter_eq_some_iff]
  simp

/-- An endpoint has no error exactly when it has what its flavour asks for. -/
lemma endpointRules_isValid_iff {names relationFields : List String} {place : String}
    {e : Endpoint} :
    (endpointRules names relationFields place e).isValid ↔ e.Fits names := by
  have hfits : e.Fits names ↔ (e.kind = "patch" → ∃ field ∈ names, present? e.field = some field) ∧
      (e.kind = "search" → e.fields ≠ []) ∧
      (e.kind = "stats" → ∃ group, present? e.by_ = some group) := by
    simp only [present?_eq_some_iff]
    exact ⟨fun ⟨h1, h2, h3⟩ => ⟨h1, h2, h3⟩, fun ⟨h1, h2, h3⟩ => ⟨h1, h2, h3⟩⟩
  rw [hfits, endpointRules]
  by_cases hpatch : e.kind = "patch"
  · rw [if_pos (beq_iff_eq.mpr hpatch)]
    cases hfield : present? e.field with
    | none => simp [hpatch, Findings.isValid]
    | some field =>
      by_cases hmem : field ∈ names <;> simp [hpatch, hmem, Findings.isValid, Findings.none]
  rw [if_neg (by simpa using hpatch)]
  by_cases hsearch : e.kind = "search"
  · rw [if_pos (beq_iff_eq.mpr hsearch)]
    by_cases hfields : e.fields = [] <;> simp [hsearch, hfields, Findings.isValid]
  rw [if_neg (by simpa using hsearch)]
  by_cases hstats : e.kind = "stats"
  · rw [if_pos (beq_iff_eq.mpr hstats)]
    cases hgroup : present? e.by_ with
    | none => simp [hstats, Findings.isValid]
    | some group =>
      by_cases hmem : group ∈ names ∨ group ∈ relationFields
      · simp [hstats, hmem, Findings.isValid, Findings.none]
      · simp [hstats, hmem, Findings.isValid]
  · simp [hpatch, hsearch, hstats, Findings.isValid, Findings.none]

/-- No endpoint is reported when the signatures are distinct, none came before, and every
endpoint has what its flavour asks for. -/
lemma endpointsFrom_isValid_iff {names relationFields seen : List String} {i : Nat}
    {es : List Endpoint} :
    (endpointsFrom names relationFields seen i es).isValid ↔
      (es.map Endpoint.signature).Nodup ∧ (∀ e ∈ es, e.signature ∉ seen) ∧
        ∀ e ∈ es, e.Fits names := by
  induction es generalizing seen i with
  | nil => simp [endpointsFrom, Findings.isValid, Findings.none]
  | cons e es ih =>
    rw [endpointsFrom]
    simp only [Findings.isValid_merge, Bool.and_eq_true, ih, endpointRules_isValid_iff]
    have hfirst : (⟨if seen.contains e.signature then [⟨"endpoints.duplicate",
        "Duplicate endpoint for \"" ++ e.signature ++ "\".",
        some (itemPath "api.endpoints" i "")⟩] else [], []⟩ : Findings).isValid ↔
        e.signature ∉ seen := by
      rw [Findings.isValid, List.isEmpty_iff]
      split_ifs with h <;> simpa using h
    rw [hfirst, List.map_cons, List.nodup_cons, List.forall_mem_cons, List.forall_mem_cons]
    simp only [List.mem_cons, not_or, List.mem_map, not_exists, not_and]
    constructor
    · rintro ⟨⟨h1, h2⟩, h3, h4, h5⟩
      exact ⟨⟨fun g hg => (h4 g hg).1, h3⟩, ⟨h1, fun g hg => (h4 g hg).2⟩, h2, h5⟩
    · rintro ⟨⟨h1, h2⟩, ⟨h3, h4⟩, h5, h6⟩
      exact ⟨⟨h3, h5⟩, h2, fun g hg => ⟨h1 g hg, h4 g hg⟩, h6⟩

/-! ### The second stage -/

/-- A versioned entity has no error when it has a version. -/
lemma optionFindings_isValid_iff {b : Blueprint} :
    (optionFindings b).isValid ↔
      (b.options.lookup "versioned" = some (.bool true) → "version" ∈ b.fieldNames) := by
  rw [optionFindings]
  split
  · next h =>
    by_cases hmem : "version" ∈ b.fieldNames <;> simp [h, hmem, Findings.isValid]
  · next h => exact iff_of_true rfl fun hversioned => absurd hversioned h

/-- The documentation has warnings only. -/
lemma exampleFindings_isValid (b : Blueprint) : (exampleFindings b).isValid := by
  rw [exampleFindings]
  split <;> rfl

/-- How the parts of a blueprint fit together. -/
structure Blueprint.Coherent (b : Blueprint) : Prop where
  /-- The entries of the tenancy fit together. -/
  tenancy : b.TenancyFits
  /-- No field is declared twice. -/
  fields : (b.fields.map (·.name)).Nodup
  /-- The field of every relation is declared. -/
  relations : ∀ r ∈ b.relations, ∃ f ∈ b.fields, f.name = r.field
  /-- No two endpoints have one signature. -/
  signatures : (b.api.endpoints.map Endpoint.signature).Nodup
  /-- Every endpoint has what its flavour asks for. -/
  endpoints : ∀ e ∈ b.api.endpoints, e.Fits (b.fields.map (·.name))
  /-- A versioned entity has a version. -/
  version : b.options.lookup "versioned" = some (.bool true) → ∃ f ∈ b.fields, f.name = "version"

/-- The second stage finds no error exactly when the parts fit together. -/
lemma checkCoherence_isValid_iff {b : Blueprint} : (checkCoherence b).isValid ↔ b.Coherent := by
  rw [checkCoherence, Findings.isValid_deduplicated]
  simp only [List.foldl_cons, List.foldl_nil, Findings.isValid_merge, Bool.and_eq_true,
    tenancyFindings_isValid_iff, optionFindings_isValid_iff, exampleFindings_isValid]
  have hnone : Findings.none.isValid = true := rfl
  have hfields : (fieldFindings b).isValid ↔ (b.fields.map (·.name)).Nodup := by
    rw [fieldFindings, Findings.isValid, List.isEmpty_iff, repeatedFields_eq_nil_iff]
    simp
  have hrelations : (relationFindings b).isValid ↔
      ∀ r ∈ b.relations, ∃ f ∈ b.fields, f.name = r.field := by
    rw [relationFindings, Findings.isValid, List.isEmpty_iff, lostRelations_eq_nil_iff]
    simp [Blueprint.fieldNames]
  have htable : (tableFindings b).isValid = true := rfl
  have hendpoints : (endpointFindings b).isValid ↔
      (b.api.endpoints.map Endpoint.signature).Nodup ∧
        ∀ e ∈ b.api.endpoints, e.Fits (b.fields.map (·.name)) := by
    rw [endpointFindings, endpointsFrom_isValid_iff]
    simp [Blueprint.fieldNames]
  have hversion : "version" ∈ b.fieldNames ↔ ∃ f ∈ b.fields, f.name = "version" := by
    simp [Blueprint.fieldNames]
  rw [hfields, hrelations, hendpoints, hversion]
  constructor
  · rintro ⟨⟨⟨⟨⟨⟨⟨-, h1⟩, h2⟩, h3⟩, -⟩, h4, h5⟩, h6⟩, -⟩
    exact ⟨h1, h2, h3, h4, h5, h6⟩
  · rintro ⟨h1, h2, h3, h4, h5, h6⟩
    exact ⟨⟨⟨⟨⟨⟨⟨hnone, h1⟩, h2⟩, h3⟩, htable⟩, h4, h5⟩, h6⟩, trivial⟩

/-! ### Both stages -/

/-- What is asked of a blueprint: its parts are well formed and fit together. -/
def Blueprint.WellFormed (known : List String) (b : Blueprint) : Prop :=
  b.WellStructured known ∧ b.Coherent

/-- The first stage comes to its end on a blueprint with a dictionary layout. -/
lemma checkStructure_isValid_iff {known : List String} (ne : known ≠ []) {b : Blueprint}
    {plain : Json} (layout : b.toPlain = .ok plain) :
    ∃ found, checkStructure known b = .ok found ∧ (found.isValid ↔ b.WellStructured known) := by
  obtain ⟨vs, hvs, hnil⟩ := structureViolations_eq_nil_iff ne layout
  refine ⟨_, by rw [checkStructure, layout, hvs]; rfl, ?_⟩
  rw [Findings.isValid_deduplicated, Findings.isValid, List.isEmpty_iff, List.map_eq_nil_iff, hnil]

/-- The second stage runs when the first one finds no error, and both have to find
none. -/
lemma validate_of_checkStructure {known : List String} {b : Blueprint} {found : Findings}
    (h : checkStructure known b = .ok found) :
    validate known b = .ok (if found.isValid then found.merge (checkCoherence b) else found) := by
  rw [validate, standardStages, validateBy]
  simp only [structureStage, coherenceStage, h, validateBy]
  by_cases hvalid : found.isValid = true
  · by_cases hcoherent : (checkCoherence b).isValid = true
    · simp [bind, Except.bind, pure, Except.pure, hvalid, hcoherent, Findings.merge, Findings.none]
    · simp [bind, Except.bind, pure, Except.pure, hvalid, hcoherent]
  · simp [bind, Except.bind, pure, Except.pure, hvalid]

/-- A blueprint in which no error is found has gone through the first stage without one. -/
lemma checkStructure_of_isValid {known : List String} {b : Blueprint} {found : Findings}
    (h : validate known b = .ok found) (valid : found.isValid = true) :
    ∃ checked, checkStructure known b = .ok checked ∧ checked.isValid = true := by
  obtain ⟨checked, hcheck, -⟩ := bind_eq_ok_iff.mp h
  have hcheck : checkStructure known b = .ok checked := hcheck
  rw [validate_of_checkStructure hcheck, Except.ok.injEq] at h
  refine ⟨checked, hcheck, ?_⟩
  by_contra hinvalid
  rw [if_neg hinvalid] at h
  exact hinvalid (h ▸ valid)

/-- A blueprint in which no error is found has an architecture that is known. -/
lemma architecture_of_isValid {known : List String} (ne : known ≠ []) {b : Blueprint}
    {found : Findings} (h : validate known b = .ok found) (valid : found.isValid = true) :
    b.architecture ∈ known := by
  obtain ⟨checked, hcheck, hvalid⟩ := checkStructure_of_isValid h valid
  obtain ⟨plain, hplain, -⟩ := bind_eq_ok_iff.mp hcheck
  obtain ⟨checked', hchecked, hstructure⟩ := checkStructure_isValid_iff ne hplain
  obtain rfl := Except.ok.inj (hcheck.symm.trans hchecked)
  exact (hstructure.mp hvalid).architecture

/-- Its entity is a studly name, whether or not architectures are known. -/
lemma isStudly_of_isValid {known : List String} {b : Blueprint} {found : Findings}
    (h : validate known b = .ok found) (valid : found.isValid = true) : IsStudly b.entity := by
  obtain ⟨checked, hcheck, hvalid⟩ := checkStructure_of_isValid h valid
  simp only [checkStructure, bind_eq_ok_iff, pure, Except.pure, Except.ok.injEq] at hcheck
  obtain ⟨-, -, vs, hvs, rfl⟩ := hcheck
  rw [Findings.isValid_deduplicated, Findings.isValid, List.isEmpty_iff, List.map_eq_nil_iff] at hvalid
  subst hvalid
  simp only [structureViolations, bind_eq_ok_iff, pure, Except.pure, Except.ok.injEq,
    List.append_eq_nil_iff, Spelling.violations_eq_nil_iff, Spelling.accepts_studly_iff] at hvs
  obtain ⟨-, -, -, -, -, -, ⟨⟨⟨⟨⟨⟨⟨⟨hentity, -⟩, -⟩, -⟩, -⟩, -⟩, -⟩, -⟩, -⟩⟩ := hvs
  exact hentity

lemma exists_of_accepted {known : List String} {b : Blueprint}
    (h : (validate known b).toOption.any Findings.isValid = true) :
    ∃ found, validate known b = .ok found ∧ found.isValid = true := by
  obtain ⟨found, hfound, hvalid⟩ := (Option.any_eq_true _ _).mp h
  exact ⟨found, toOption_eq_some_iff.mp hfound, hvalid⟩

/-- **Acceptance**: the validation of a blueprint that has a dictionary layout comes to its
end, and it finds no error exactly when the blueprint is well formed. -/
theorem validate_isValid_iff (known : List String) (ne : known ≠ []) (b : Blueprint)
    (layout : ∃ plain, b.toPlain = .ok plain) :
    ∃ found, validate known b = .ok found ∧ (found.isValid ↔ b.WellFormed known) := by
  obtain ⟨plain, hplain⟩ := layout
  obtain ⟨found, hfound, hstructure⟩ := checkStructure_isValid_iff ne hplain
  refine ⟨_, validate_of_checkStructure hfound, ?_⟩
  rw [Blueprint.WellFormed, ← hstructure, ← checkCoherence_isValid_iff]
  by_cases hvalid : found.isValid = true
  · simp [hvalid, Findings.isValid_merge]
  · simp [hvalid]

/-- An employee with a salary, a department and three endpoints. -/
def employee : Blueprint where
  path := "blueprints/hr/employee.yaml"
  modulePath := some "hr"
  entity := "Employee"
  table := "employees"
  architecture := "hexagonal"
  fields := [⟨"id", "uuid", none, .null, .null, .null, .bool false⟩,
    ⟨"salary", "Decimal", none, .null, .int 10, .int 2, .null⟩,
    ⟨"department_id", "uuid", none, .null, .null, .null, .null⟩]
  relations := [⟨"belongsTo", "Department", "department_id", none⟩]
  options := [("timestamps", .bool true), ("versioned", .bool false)]
  api := ⟨some "/employees", [], [],
    [⟨"patch", none, some "salary", [], none, some "PATCH", none⟩,
      ⟨"search", none, none, ["id", "salary"], none, none, none⟩,
      ⟨"stats", none, none, [], some "department_id", some "GET", none⟩]⟩
  docs := []
  errors := [⟨"missing", "missing", "Missing", "MissingException", "domain.missing", "Missing.", 404,
    "DomainException", none⟩]
  metadata := []
  tenancy := [("mode", .text "tenant"), ("storage", .text "tenant"), ("routing_scope", .text "both")]

example : (validate ["hexagonal", "layered"] employee).toOption.any Findings.isValid := by
  decide +kernel

example : (validate ["layered"] employee).toOption.any Findings.isValid = false := by
  decide +kernel

/-- The acceptance of an employee. -/
theorem validate_isValid_iff_employee :
    ["hexagonal", "layered"] ≠ [] ∧ (∃ plain, employee.toPlain = .ok plain) ∧
    ∃ found, validate ["hexagonal", "layered"] employee = .ok found ∧
      (found.isValid ↔ employee.WellFormed ["hexagonal", "layered"]) := by
  have layout : ∃ plain, employee.toPlain = .ok plain := ⟨_, rfl⟩
  exact ⟨by decide, layout, validate_isValid_iff ["hexagonal", "layered"] (by decide) employee layout⟩

end Scaffold
