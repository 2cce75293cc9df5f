import Scaffold.Proofs.Outcome
import Scaffold.Validation.Structure

/-!
What the parts of a blueprint have to be.

The rules of the first stage are stated here as conditions on the parts, without the
violations that report them; free values are judged in their plain form. No violation
is found exactly when the conditions hold.

* `IsStudly`, `IsSnake`, `IsIdentifier`: the forms of names.
* `Field.WellFormed`, `Relation.WellFormed`, `Endpoint.WellFormed`,
  `ErrorDefinition.WellFormed`: the conditions on one part.
* `Blueprint.WellStructured`: the conditions on all parts.
* `structureViolations_eq_nil_iff`: a blueprint with a dictionary layout has no
  violations exactly when it is well structured.
-/

namespace Scaffold

open Shape

/-! ### Names -/

/-- A capital, then letters and digits. -/
def IsStudly (s : String) : Prop :=
  ∃ c cs, s.toList = c :: cs ∧ c.isUpper ∧ ∀ d ∈ cs, d.isAlphanum

/-- A small letter, then small letters, digits and underscores. -/
def IsSnake (s : String) : Prop :=
  ∃ c cs, s.toList = c :: cs ∧ c.isLower ∧ ∀ d ∈ cs, d.isLower ∨ d.isDigit ∨ d = '_'

/-- A letter, then letters, digits and underscores. -/
def IsIdentifier (s : String) : Prop :=
  ∃ c cs, s.toList = c :: cs ∧ c.isAlpha ∧ ∀ d ∈ cs, d.isAlphanum ∨ d = '_'

namespace Spelling

/-- A spelling asks something of the first character and something of the others. -/
lemma accepts_iff {spelling : Spelling} {s : String} :
    spelling.accepts s ↔
      ∃ c cs, s.toList = c :: cs ∧ spelling.first c ∧ ∀ d ∈ cs, spelling.later d := by
  rw [accepts]
  cases s.toList with
  | nil => simp [matchesChars]
  | cons c cs => simp [matchesChars]

lemma violations_eq_nil_iff {spelling : Spelling} {key s : String} :
    spelling.violations key s = [] ↔ spelling.accepts s := by
  rw [violations]
  split_ifs with h <;> simp [h]

lemma accepts_studly_iff {s : String} : studly.accepts s ↔ IsStudly s :=
  accepts_iff

lemma accepts_snake_iff {s : String} : snake.accepts s ↔ IsSnake s := by
  simp [accepts_iff, snake, IsSnake, or_assoc]

lemma accepts_identifier_iff {s : String} : identifier.accepts s ↔ IsIdentifier s := by
  simp [accepts_iff, identifier, IsIdentifier]

end Spelling

/-! ### Free values -/

lemma integerViolations_eq_nil_iff {key : String} {j : Json} :
    integerViolations key j = [] ↔ j = .null ∨ ∃ n, j = .int n := by
  cases j <;> simp [integerViolations]

lemma optionalBoolViolations_eq_nil_iff {key : String} {j : Json} :
    optionalBoolViolations key j = [] ↔ j = .null ∨ ∃ t, j = .bool t := by
  cases j <;> simp [optionalBoolViolations]

lemma boolViolations_eq_nil_iff {key : String} {j : Json} :
    boolViolations key j = [] ↔ ∃ t, j = .bool t := by
  cases j <;> simp [boolViolations]

lemma textViolations_eq_nil_iff {key : String} {j : Json} :
    textViolations key j = [] ↔ ∃ s, j = .string s := by
  cases j <;> simp [textViolations]

/-- The rule for decimal fields holds of two integers in their ranges. -/
lemma decimalRule_eq_none_iff {precision scale : Json} :
    decimalRule precision scale = none ↔
      ∃ p s, precision = .int p ∧ scale = .int s ∧ 1 ≤ p ∧ p ≤ 65 ∧ 0 ≤ s ∧ s ≤ p := by
  cases precision with
  | int p =>
    by_cases hp : 1 ≤ p ∧ p ≤ 65
    · cases scale with
      | int s => simp [decimalRule, hp]
      | _ => simp [decimalRule, hp]
    · have hout : decimalRule (.int p) scale ≠ none := by
        simp only [decimalRule, Bool.and_eq_true, decide_eq_true_eq, if_neg hp]
        exact Option.some_ne_none _
      refine iff_of_false hout ?_
      rintro ⟨p', s, hp', -, h1, h65, -⟩
      rw [Json.int.injEq] at hp'
      exact hp ⟨hp' ▸ h1, hp' ▸ h65⟩
  | _ => simp [decimalRule]

/-! ### Fields -/

/-- The conditions on a field. -/
structure Field.WellFormed (f : Field) : Prop where
  /-- The name is in snake case. -/
  name : IsSnake f.name
  /-- The type is an identifier. -/
  kind : IsIdentifier f.kind
  /-- The precision is an integer, or there is none. -/
  precision : f.precision.toPlain = .ok .null ∨ ∃ n, f.precision.toPlain = .ok (.int n)
  /-- The scale is an integer, or there is none. -/
  scale : f.scale.toPlain = .ok .null ∨ ∃ n, f.scale.toPlain = .ok (.int n)
  /-- It is said with a truth value, or not at all, whether the value may be absent. -/
  nullable : f.nullable.toPlain = .ok .null ∨ ∃ t, f.nullable.toPlain = .ok (.bool t)
  /-- Decimal numbers have a precision and a scale in their ranges. -/
  decimal : f.kind.map Char.toLower = "decimal" →
    ∃ p s, f.precision.toPlain = .ok (.int p) ∧ f.scale.toPlain = .ok (.int s) ∧
      1 ≤ p ∧ p ≤ 65 ∧ 0 ≤ s ∧ s ≤ p

/-- The free values of a field with a layout have a plain form. -/
lemma Field.plain_of_toPlain {f : Field} {plain : Json} (h : f.toPlain = .ok plain) :
    ∃ p s n, f.precision.toPlain = .ok p ∧ f.scale.toPlain = .ok s ∧
      f.nullable.toPlain = .ok n := by
  simp only [Field.toPlain, bind_eq_ok_iff] at h
  obtain ⟨-, -, p, hp, s, hs, n, hn, -⟩ := h
  exact ⟨p, s, n, hp, hs, hn⟩

/-- The rule for decimal fields is looked at only when nothing else is wrong; no
violation is found exactly when the conditions hold. -/
lemma fieldViolations_eq_nil_iff {f : Field} {plain : Json} (layout : f.toPlain = .ok plain) :
    ∃ vs, fieldViolations f = .ok vs ∧ (vs = [] ↔ f.WellFormed) := by
  obtain ⟨p, s, n, hp, hs, hn⟩ := Field.plain_of_toPlain layout
  have hwell : f.WellFormed ↔ (IsSnake f.name ∧ IsIdentifier f.kind ∧
      (p = .null ∨ ∃ m, p = .int m) ∧ (s = .null ∨ ∃ m, s = .int m) ∧
      (n = .null ∨ ∃ t, n = .bool t)) ∧
      (isDecimal f.kind = true → decimalRule p s = none) := by
    rw [decimalRule_eq_none_iff, isDecimal, beq_iff_eq]
    constructor
    · rintro ⟨h1, h2, h3, h4, h5, h6⟩
      simp only [hp, hs, hn, Except.ok.injEq] at h3 h4 h5 h6
      exact ⟨⟨h1, h2, h3, h4, h5⟩, h6⟩
    · rintro ⟨⟨h1, h2, h3, h4, h5⟩, h6⟩
      refine ⟨h1, h2, ?_, ?_, ?_, ?_⟩ <;> simpa only [hp, hs, hn, Except.ok.injEq]
  have hsingle : (Spelling.snake.violations "name" f.name
      ++ Spelling.identifier.violations "type" f.kind
      ++ integerViolations "precision" p ++ integerViolations "scale" s
      ++ optionalBoolViolations "nullable" n = []) ↔
      (IsSnake f.name ∧ IsIdentifier f.kind ∧ (p = .null ∨ ∃ m, p = .int m) ∧
        (s = .null ∨ ∃ m, s = .int m) ∧ (n = .null ∨ ∃ t, n = .bool t)) := by
    simp only [List.append_eq_nil_iff, Spelling.violations_eq_nil_iff,
      Spelling.accepts_snake_iff, Spelling.accepts_identifier_iff, integerViolations_eq_nil_iff,
      optionalBoolViolations_eq_nil_iff, and_assoc]
  have heq : fieldViolations f = (if !(Spelling.snake.violations "name" f.name
      ++ Spelling.identifier.violations "type" f.kind
      ++ integerViolations "precision" p ++ integerViolations "scale" s
      ++ optionalBoolViolations "nullable" n).isEmpty then .ok (Spelling.snake.violations "name" f.name
      ++ Spelling.identifier.violations "type" f.kind
      ++ integerViolations "precision" p ++ integerViolations "scale" s
      ++ optionalBoolViolations "nullable" n)
    else if !isDecimal f.kind then .ok []
    else .ok ((decimalRule p s).elim [] fun rule => [⟨[], .broken rule⟩])) := by
    simp only [fieldViolations, hp, hs, hn, bind, Except.bind]
    cases decimalRule p s <;> rfl
  rw [heq, hwell, ← hsingle]
  generalize Spelling.snake.violations "name" f.name
      ++ Spelling.identifier.violations "type" f.kind
      ++ integerViolations "precision" p ++ integerViolations "scale" s
      ++ optionalBoolViolations "nullable" n = single
  by_cases hnil : single = []
  · by_cases hdecimal : isDecimal f.kind = true
    · cases hrule : decimalRule p s <;> simp [hnil, hdecimal]
    · simp [hnil, hdecimal]
  · simp [hnil]

/-! ### Relations, endpoints and errors -/

/-- The conditions on a relation. -/
structure Relation.WellFormed (r : Relation) : Prop where
  /-- The type is one of four. -/
  kind : r.kind = "belongsTo" ∨ r.kind = "hasOne" ∨ r.kind = "hasMany" ∨ r.kind = "belongsToMany"
  /-- The other entity is in studly case. -/
  target : IsStudly r.target
  /-- The field is in snake case. -/
  field : IsSnake r.field

lemma relationViolations_eq_nil_iff {r : Relation} :
    relationViolations r = [] ↔ r.WellFormed := by
  have hkind : (if relationKinds.contains r.kind then []
      else [(⟨[.key "type"], .notWord relationKinds⟩ : Violation)]) = [] ↔
      r.kind = "belongsTo" ∨ r.kind = "hasOne" ∨ r.kind = "hasMany" ∨
        r.kind = "belongsToMany" := by
    split_ifs with h <;> simpa [relationKinds] using h
  rw [relationViolations, List.append_eq_nil_iff, List.append_eq_nil_iff, hkind,
    Spelling.violations_eq_nil_iff, Spelling.violations_eq_nil_iff, Spelling.accepts_studly_iff,
    Spelling.accepts_snake_iff]
  exact ⟨fun ⟨⟨h1, h2⟩, h3⟩ => ⟨h1, h2, h3⟩, fun ⟨h1, h2, h3⟩ => ⟨⟨h1, h2⟩, h3⟩⟩

/-- The conditions on an endpoint. -/
structure Endpoint.WellFormed (e : Endpoint) : Prop where
  /-- The flavour is in snake case. -/
  kind : IsSnake e.kind
  /-- The request method is a known one, or there is none. -/
  method : e.method = none ∨ ∃ m ∈ ["GET", "POST", "PUT", "PATCH", "DELETE"], e.method = some m

lemma endpointViolations_eq_nil_iff {e : Endpoint} :
    endpointViolations e = [] ↔ e.WellFormed := by
  have hmethod : (if e.method.all requestMethods.contains then []
      else [(⟨[.key "method"], .notWord requestMethods⟩ : Violation)]) = [] ↔
      e.method = none ∨ ∃ m ∈ ["GET", "POST", "PUT", "PATCH", "DELETE"], e.method = some m := by
    cases e.method with
    | none => simp
    | some m => split_ifs with h <;> simpa [requestMethods] using h
  rw [endpointViolations, List.append_eq_nil_iff, hmethod, Spelling.violations_eq_nil_iff,
    Spelling.accepts_snake_iff]
  exact ⟨fun ⟨h1, h2⟩ => ⟨h1, h2⟩, fun ⟨h1, h2⟩ => ⟨h1, h2⟩⟩

/-- The conditions on an error. -/
structure ErrorDefinition.WellFormed (e : ErrorDefinition) : Prop where
  /-- There is a name. -/
  name : e.name ≠ ""
  /-- There is a code. -/
  code : e.code ≠ ""
  /-- The status lies in its range. -/
  status : 100 ≤ e.status ∧ e.status ≤ 599

lemma emptyViolations_eq_nil_iff {key s : String} : emptyViolations key s = [] ↔ s ≠ "" := by
  rw [emptyViolations]
  split_ifs with h <;> simpa using h

lemma statusViolations_eq_nil_iff {status : Int} :
    statusViolations status = [] ↔ 100 ≤ status ∧ status ≤ 599 := by
  rw [statusViolations]
  split_ifs with h1 h2
  · exact iff_of_false (by simp) (by omega)
  · exact iff_of_false (by simp) (by omega)
  · exact iff_of_true rfl (by omega)

lemma errorViolations_eq_nil_iff {e : ErrorDefinition} :
    errorViolations e = [] ↔ e.WellFormed := by
  rw [errorViolations, List.append_eq_nil_iff, List.append_eq_nil_iff,
    emptyViolations_eq_nil_iff, emptyViolations_eq_nil_iff, statusViolations_eq_nil_iff]
  exact ⟨fun ⟨⟨h1, h2⟩, h3⟩ => ⟨h1, h2, h3⟩, fun ⟨h1, h2, h3⟩ => ⟨⟨h1, h2⟩, h3⟩⟩

/-! ### Lists of parts -/

/-- Nothing is wrong with the items of a list when nothing is wrong with any of them. -/
lemma itemViolations_eq_nil_iff {α : Type} {check : α → List Violation} {i : Nat}
    {items : List α} : itemViolations check i items = [] ↔ ∀ item ∈ items, check item = [] := by
  induction items generalizing i with
  | nil => simp [itemViolations]
  | cons item items ih => simp [itemViolations, ih]

/-- Checks of all items of a list, of which none finds anything exactly when all items
meet a condition. -/
lemma exists_mapM_of_forall {α : Type} (check : α → Except PlainError (List Violation))
    (condition : α → Prop) {items : List α}
    (h : ∀ item ∈ items, ∃ vs, check item = .ok vs ∧ (vs = [] ↔ condition item)) :
    ∃ found, items.mapM check = .ok found ∧
      ((∀ vs ∈ found, vs = []) ↔ ∀ item ∈ items, condition item) := by
  induction items with
  | nil => exact ⟨[], rfl, by simp⟩
  | cons item items ih =>
    obtain ⟨vs, hvs, hcondition⟩ := h item (by simp)
    obtain ⟨found, hfound, hall⟩ := ih fun item hitem => h item (by simp [hitem])
    refine ⟨vs :: found, ?_, by simp [hcondition, hall]⟩
    rw [List.mapM_cons, hvs, hfound]
    rfl

/-! ### The whole blueprint -/

/-- The conditions on the parts of a blueprint, for the known architectures. -/
structure Blueprint.WellStructured (known : List String) (b : Blueprint) : Prop where
  /-- The entity is in studly case. -/
  entity : IsStudly b.entity
  /-- The table is in snake case. -/
  table : IsSnake b.table
  /-- The architecture is known. -/
  architecture : b.architecture ∈ known
  /-- There is a field. -/
  fielded : b.fields ≠ []
  /-- All fields are well formed. -/
  fields : ∀ f ∈ b.fields, f.WellFormed
  /-- All relations are well formed. -/
  relations : ∀ r ∈ b.relations, r.WellFormed
  /-- All endpoints are well formed. -/
  endpoints : ∀ e ∈ b.api.endpoints, e.WellFormed
  /-- The path in front of all endpoints starts with a slash, if there is one. -/
  basePath : ∀ path, b.api.basePath = some path → path.startsWith "/"
  /-- Four options are truth values where they are given. -/
  options : ∀ key ∈ ["timestamps", "softDeletes", "audited", "versioned"], ∀ value,
    b.options.lookup key = some value → ∃ t, value.toPlain = .ok (.bool t)
  /-- All errors are well formed. -/
  errors : ∀ e ∈ b.errors, e.WellFormed
  /-- All values of the tenancy are texts. -/
  tenancy : ∀ entry ∈ b.tenancy, ∃ s, entry.2.toPlain = .ok (.string s)

lemma plain_of_toPlainRecord {entries : Named} {plain : Json}
    (h : Document.toPlainRecord entries = .ok plain) {entry : String × Document}
    (hentry : entry ∈ entries) : ∃ j, entry.2.toPlain = .ok j := by
  rw [Document.toPlainRecord, map_eq_ok_iff] at h
  obtain ⟨found, hfound, -⟩ := h
  obtain ⟨_, -, hplain⟩ := exists_of_mapM_eq_ok hfound hentry
  obtain ⟨j, hj, -⟩ := map_eq_ok_iff.mp hplain
  exact ⟨j, hj⟩

/-- The options are truth values exactly when no violation is found in them. -/
lemma optionViolations_eq_nil_iff {options : Named} {plain : Json}
    (layout : Document.toPlainRecord options = .ok plain) :
    ∃ vs, optionViolations options = .ok vs ∧ (vs = [] ↔
      ∀ key ∈ ["timestamps", "softDeletes", "audited", "versioned"], ∀ value,
        options.lookup key = some value → ∃ t, value.toPlain = .ok (.bool t)) := by
  obtain ⟨found, hfound, hall⟩ := @exists_mapM_of_forall _
    (fun key => (options.lookup key).elim (.ok []) fun value =>
      value.toPlain.map (boolViolations key))
    (fun key => ∀ value, options.lookup key = some value →
      ∃ t, value.toPlain = .ok (.bool t)) truthOptions (fun key _ => by
        cases hlookup : options.lookup key with
        | none => exact ⟨[], rfl, by simp⟩
        | some value =>
          obtain ⟨j, hj⟩ := plain_of_toPlainRecord layout (mem_of_lookup hlookup)
          simp only at hj
          exact ⟨boolViolations key j, by simp [hj, Except.map], by
            simp [boolViolations_eq_nil_iff, hj]⟩)
  refine ⟨found.flatten, bind_eq_ok_iff.mpr ⟨found, ?_, rfl⟩,
    by rw [List.flatten_eq_nil_iff]; exact hall⟩
  refine (congrArg (truthOptions.mapM ·) (funext fun key => ?_)).trans hfound
  cases options.lookup key <;> rfl

/-- The values of a tenancy are texts exactly when no violation is found in it. -/
lemma tenancyViolations_eq_nil_iff {tenancy : Named} {plain : Json}
    (layout : Document.toPlainRecord tenancy = .ok plain) :
    ∃ vs, tenancyViolations tenancy = .ok vs ∧ (vs = [] ↔
      ∀ entry ∈ tenancy, ∃ s, entry.2.toPlain = .ok (.string s)) := by
  obtain ⟨found, hfound, hall⟩ := exists_mapM_of_forall
    (fun entry => entry.2.toPlain.map (textViolations entry.1))
    (fun entry => ∃ s, entry.2.toPlain = .ok (.string s)) (fun entry (hentry : entry ∈ tenancy) => by
      obtain ⟨j, hj⟩ := plain_of_toPlainRecord layout hentry
      exact ⟨textViolations entry.1 j, by simp [hj, Except.map], by
        simp [textViolations_eq_nil_iff, hj]⟩)
  exact ⟨found.flatten, bind_eq_ok_iff.mpr ⟨found, hfound, rfl⟩,
    by rw [List.flatten_eq_nil_iff]; exact hall⟩

lemma architectureViolations_eq_nil_iff {known : List String} (ne : known ≠ [])
    {architecture : String} :
    architectureViolations known architecture = [] ↔ architecture ∈ known := by
  rw [architectureViolations]
  split_ifs with h <;> simpa [ne] using h

lemma surfaceViolations_eq_nil_iff {s : Surface} :
    surfaceViolations s = [] ↔ (∀ path, s.basePath = some path → path.startsWith "/") ∧
      ∀ e ∈ s.endpoints, e.WellFormed := by
  have hbase : (if s.basePath.all (·.startsWith "/") then []
      else [(⟨[.key "base_path"], .broken "base path must start with '/'"⟩ : Violation)]) = [] ↔
      ∀ path, s.basePath = some path → path.startsWith "/" := by
    split_ifs with h <;> cases hpath : s.basePath <;> simp_all
  rw [surfaceViolations, List.append_eq_nil_iff, hbase, List.map_eq_nil_iff,
    itemViolations_eq_nil_iff]
  simp only [endpointViolations_eq_nil_iff]

/-- The parts of a blueprint with a dictionary layout are looked at to the end. When there
are known architectures, nothing is found exactly when the blueprint is well structured. -/
lemma exists_structureViolations {known : List String} {b : Blueprint} {plain : Json}
    (layout : b.toPlain = .ok plain) :
    ∃ vs, structureViolations known b = .ok vs ∧
      (known ≠ [] → (vs = [] ↔ b.WellStructured known)) := by
  simp only [Blueprint.toPlain, Blueprint.toPlainWith, bind_eq_ok_iff] at layout
  obtain ⟨fieldLayouts, hfieldLayouts, _, hoptionLayout, -, -, -, -, _, htenancyLayout, -⟩ := layout
  obtain ⟨fieldsFound, hfieldsFound, hfields⟩ := exists_mapM_of_forall fieldViolations
    Field.WellFormed fun f (hf : f ∈ b.fields) => by
      obtain ⟨_, -, hlayout⟩ := exists_of_mapM_eq_ok hfieldLayouts hf
      exact fieldViolations_eq_nil_iff hlayout
  obtain ⟨optionsFound, hoptionsFound, hoptions⟩ := optionViolations_eq_nil_iff hoptionLayout
  obtain ⟨tenancyFound, htenancyFound, htenancy⟩ := tenancyViolations_eq_nil_iff htenancyLayout
  have hfielded : (if b.fields.isEmpty then [(⟨[.key "fields"], .emptyList⟩ : Violation)]
      else (itemViolations id 0 fieldsFound).map (·.within (.key "fields"))) = [] ↔
      b.fields ≠ [] ∧ ∀ f ∈ b.fields, f.WellFormed := by
    rw [← hfields]
    split_ifs with h
    · rw [List.isEmpty_iff] at h
      simp [h]
    · rw [List.map_eq_nil_iff, itemViolations_eq_nil_iff]
      simpa using fun _ => h
  refine ⟨_, by rw [structureViolations, hfieldsFound, hoptionsFound, htenancyFound]; rfl,
    fun ne => ?_⟩
  simp only [List.append_eq_nil_iff, Spelling.violations_eq_nil_iff, Spelling.accepts_studly_iff,
    Spelling.accepts_snake_iff, architectureViolations_eq_nil_iff ne, hfielded,
    List.map_eq_nil_iff, itemViolations_eq_nil_iff, relationViolations_eq_nil_iff, hoptions,
    surfaceViolations_eq_nil_iff, errorViolations_eq_nil_iff, htenancy]
  constructor
  · rintro ⟨⟨⟨⟨⟨⟨⟨⟨h1, h2⟩, h3⟩, h4, h5⟩, h6⟩, h7⟩, h8, h9⟩, h10⟩, h11⟩
    exact ⟨h1, h2, h3, h4, h5, h6, h9, h8, h7, h10, h11⟩
  · rintro ⟨h1, h2, h3, h4, h5, h6, h9, h8, h7, h10, h11⟩
    exact ⟨⟨⟨⟨⟨⟨⟨⟨h1, h2⟩, h3⟩, h4, h5⟩, h6⟩, h7⟩, h8, h9⟩, h10⟩, h11⟩

lemma structureViolations_eq_nil_iff {known : List String} (ne : known ≠ []) {b : Blueprint}
    {plain : Json} (layout : b.toPlain = .ok plain) :
    ∃ vs, structureViolations known b = .ok vs ∧ (vs = [] ↔ b.WellStructured known) := by
  obtain ⟨vs, hvs, hnil⟩ := exists_structureViolations layout
  exact ⟨vs, hvs, hnil ne⟩

end Scaffold
