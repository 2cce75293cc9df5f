import Scaffold.Proofs.Blueprint.Relocating
import Scaffold.Proofs.Files.Avoiding
import Scaffold.Proofs.Text.Segments
import Scaffold.Proofs.Validation.Exactness

/-!
Validation of one document at the same location below two roots.

Of all rules only those about the tenancy look at the path of a blueprint, and they look for the
first name on it that is a mode. The names of the root come first, unless the module names a
mode. So the findings of the same document at the same location below two roots are the same
exactly if the two modes are, or no rule asks for the mode.

* `namesMode`, `mode_of_extended`: the mode among names.
* `Blueprint.IndifferentTo`, `tenancyFindings_eq_iff`: when the findings about the tenancy are
  the same.
* `checkCoherence_eq_iff`, `validate_eq_iff`: when all findings are.
* `validate_relocated` (**one document below two roots**).
* `validate_moved`: a document of which another root makes a warning.
-/

namespace Scaffold

open Files Text

/-! ### Modes -/

/-- Whether a character separates the names that may be modes. -/
def separatesModes (c : Char) : Bool :=
  c == '/' || c == '\\'

/-- The first mode among names. -/
def namesMode (names : List String) : Option String :=
  modeAmong (pieces separatesModes (Path.joinNames names).toList)

/-- The mode that the module of a blueprint suggests. -/
def Blueprint.moduleMode (b : Blueprint) : Option String :=
  modeAmong (pieces (· == '/') (b.modulePath.getD "").toList)

lemma modeAmong_append (segments more : List (List Char)) :
    modeAmong (segments ++ more) = (modeAmong segments).or (modeAmong more) := by
  rw [modeAmong, List.map_append, List.find?_append, modeAmong, modeAmong]

/-- Neither an empty segment nor a dot is a mode. -/
lemma modeAmong_nothing : modeAmong [[]] = none ∧ modeAmong [['.']] = none := by
  decide +kernel

lemma modeAmong_cons_nil (segments : List (List Char)) :
    modeAmong ([] :: segments) = modeAmong segments := by
  have hsplit := modeAmong_append [[]] segments
  rwa [modeAmong_nothing.1, Option.none_or] at hsplit

/-- The first mode among names is among the first of them, or else among the others. -/
lemma namesMode_append (names more : List String) :
    namesMode (names ++ more) = (namesMode names).or (namesMode more) := by
  have hnil : namesMode [] = none := modeAmong_nothing.1
  by_cases hnames : names = []
  · rw [hnames, List.nil_append, hnil, Option.none_or]
  by_cases hmore : more = []
  · rw [hmore, List.append_nil, hnil, Option.or_none]
  · rw [namesMode, namesMode, namesMode, Path.joinNames_append hnames hmore, toList_append_slash,
      pieces_append_separator (by decide), modeAmong_append]

example : namesMode (["srv", "Tenant"] ++ ["hr", "central"]) = some "tenant" := by decide +kernel

/-- What stands before the first name of a path is no mode. -/
lemma modeAmong_toText {path : Path} (written : path.IsWritten) :
    modeAmong (pieces separatesModes path.toText.toList) = namesMode path.names := by
  obtain ⟨anchor, names⟩ := path
  have hslash : ∀ cs, modeAmong (pieces separatesModes ('/' :: cs)) =
      modeAmong (pieces separatesModes cs) := by
    intro cs
    have hcut : pieces separatesModes ('/' :: cs) = [] :: pieces separatesModes cs := by
      rw [pieces, if_pos (by decide)]
    rw [hcut, modeAmong_cons_nil]
  rw [Path.toText]
  split_ifs with hempty
  · rw [Bool.and_eq_true, List.isEmpty_iff] at hempty
    obtain ⟨-, rfl⟩ := hempty
    exact modeAmong_nothing.2.trans modeAmong_nothing.1.symm
  · have hanchor := written.anchor
    have hone : ("/" : String).toList = ['/'] := by decide
    have htwo : ("//" : String).toList = ['/', '/'] := by decide
    simp only at hanchor ⊢
    rw [String.toList_append, namesMode]
    rcases hanchor with rfl | rfl | rfl
    · rfl
    · rw [hone, List.singleton_append, hslash]
    · rw [htwo, List.cons_append, List.singleton_append, hslash, hslash]

/-- **The mode that a place suggests** is that of the module, or else the first one among the
names of the root, or else the first one among those of the location. -/
lemma mode_of_extended {root : Path} {location : List String} {b : Blueprint}
    (written : (root.extended location).IsWritten)
    (hpath : b.path = (root.extended location).toText) :
    tenancyMode b =
      (b.moduleMode.or ((namesMode root.names).or (namesMode location))).getD "central" := by
  have hmode := modeAmong_toText written
  rw [Path.extended, namesMode_append, ← Path.extended, ← hpath] at hmode
  rw [tenancyMode, Blueprint.moduleMode, ← hmode]
  rfl

/-! ### Findings about the tenancy -/

/-- Two modes make no difference to the tenancy of a blueprint: they are the same, or no mode is
declared that they could be held against, and neither of them contradicts a scope. -/
def Blueprint.IndifferentTo (b : Blueprint) (mode mode' : String) : Prop :=
  mode = mode' ∨ tenancyEntry b "mode" = none ∧
    ∀ key ∈ scopeKeys, ∀ scope, tenancyEntry b key = some (.text scope) →
      contradicts mode scope = false ∧ contradicts mode' scope = false

/-- Only a mode and its opposite contradict each other. -/
lemma scope_of_contradicts {mode scope : String} (h : contradicts mode scope = true) :
    scope ∈ scopes ∧ mode = if scope = "tenant" then "central" else "tenant" := by
  simp only [contradicts, Bool.or_eq_true, Bool.and_eq_true, beq_iff_eq] at h
  rcases h with ⟨rfl, rfl⟩ | ⟨rfl, rfl⟩
  · decide
  · decide

/-- Two modes make no difference to a scope when neither contradicts it. -/
lemma scopeError_eq_iff {mode mode' : String} (ne : mode ≠ mode') {key : String}
    {value : Document} :
    scopeError (.text mode) key value = scopeError (.text mode') key value ↔
      ∀ scope, value = .text scope →
        contradicts mode scope = false ∧ contradicts mode' scope = false := by
  cases htext : value.asText? with
  | none =>
    refine iff_of_true (by simp only [scopeError, htext]) fun scope heq => ?_
    rw [heq] at htext
    cases htext
  | some scope =>
    obtain rfl := asText?_eq_some_iff.mp htext
    have hscope : (∀ scope', Document.text scope = .text scope' →
        contradicts mode scope' = false ∧ contradicts mode' scope' = false) ↔
        contradicts mode scope = false ∧ contradicts mode' scope = false := by
      simp
    rw [hscope]
    by_cases hknown : scope ∈ scopes
    · have hnone : ∀ mode, scopeError (.text mode) key (.text scope) = none ↔
          contradicts mode scope = false := by
        intro mode
        cases hmode : contradicts mode scope <;>
          simp [scopeError, Document.asText?, hknown, hmode]
      cases hmode : contradicts mode scope with
      | false =>
        rw [(hnone mode).mpr hmode, eq_comm, hnone]
        simp
      | true =>
        refine iff_of_false (fun heq => ?_) (by simp)
        cases hmode' : contradicts mode' scope with
        | false =>
          rw [(hnone mode').mpr hmode', hnone, hmode] at heq
          cases heq
        | true =>
          exact ne ((scope_of_contradicts hmode).2.trans (scope_of_contradicts hmode').2.symm)
    · have hfree : ∀ mode, contradicts mode scope = false := by
        intro mode
        rw [Bool.eq_false_iff]
        exact fun h => hknown (scope_of_contradicts h).1
      simp [scopeError, Document.asText?, hknown, hfree]

/-- The errors of several scopes are told apart by their codes. -/
lemma filterMap_scopeError_eq_iff {b : Blueprint} {mode mode' : Document} {keys : List String}
    (distinct : keys.Nodup) :
    keys.filterMap (fun key => (tenancyEntry b key).bind (scopeError mode key)) =
        keys.filterMap (fun key => (tenancyEntry b key).bind (scopeError mode' key)) ↔
      ∀ key ∈ keys, (tenancyEntry b key).bind (scopeError mode key) =
        (tenancyEntry b key).bind (scopeError mode' key) := by
  induction keys with
  | nil => simp
  | cons key keys ih =>
    rw [List.nodup_cons] at distinct
    -- an error of this key is not among those of the others
    have hother : ∀ (mode mode' : Document) {f : Finding},
        (tenancyEntry b key).bind (scopeError mode key) = some f →
        f ∉ keys.filterMap fun key => (tenancyEntry b key).bind (scopeError mode' key) := by
      intro mode mode' f hf hmem
      obtain ⟨other, hmem, hother⟩ := List.mem_filterMap.mp hmem
      obtain ⟨_, -, herror⟩ := Option.bind_eq_some_iff.mp hf
      obtain ⟨_, -, herror'⟩ := Option.bind_eq_some_iff.mp hother
      have hcode := (code_of_scopeError herror).symm.trans (code_of_scopeError herror')
      rw [String.append_left_inj, String.append_right_inj] at hcode
      exact distinct.1 (hcode ▸ hmem)
    rw [List.filterMap_cons, List.filterMap_cons, List.forall_mem_cons, ← ih distinct.2]
    cases hfirst : (tenancyEntry b key).bind (scopeError mode key) with
    | none =>
      cases hfirst' : (tenancyEntry b key).bind (scopeError mode' key) with
      | none => simp
      | some f =>
        refine iff_of_false (fun heq => hother mode' mode hfirst' ?_) (by simp)
        simp only at heq
        rw [heq]
        exact List.mem_cons_self
    | some f =>
      cases hfirst' : (tenancyEntry b key).bind (scopeError mode' key) with
      | none =>
        refine iff_of_false (fun heq => hother mode mode' hfirst ?_) (by simp)
        simp only at heq
        rw [← heq]
        exact List.mem_cons_self
      | some g => simp

variable {b : Blueprint} {source : String}

/-- **The findings about the tenancy** of a blueprint under another path are the same exactly if
the modes that the paths suggest make no difference to it. -/
lemma tenancyFindings_eq_iff :
    tenancyFindings b = tenancyFindings { b with path := source } ↔
      b.IndifferentTo (tenancyMode b) (tenancyMode { b with path := source }) := by
  have hentry : ∀ key, tenancyEntry { b with path := source } key = tenancyEntry b key :=
    fun key => rfl
  generalize hmode : tenancyMode { b with path := source } = mode'
  by_cases heq : tenancyMode b = mode'
  · refine iff_of_true ?_ (.inl heq)
    simp only [tenancyFindings, hmode, hentry, heq]
  cases hdeclared : tenancyEntry b "mode" with
  | some mode =>
    refine iff_of_false (fun hfindings => ?_) ?_
    · -- the mode that is declared is held against each of the two
      have hwarnings := congrArg Findings.warnings hfindings
      simp only [tenancyFindings, hmode, hentry, hdeclared, beq_iff_eq] at hwarnings
      split_ifs at hwarnings with hfirst hsecond
      · exact heq (Option.some.inj (hfirst.symm.trans hsecond))
      · rw [List.singleton_inj, Finding.mk.injEq, String.append_left_inj,
          String.append_right_inj] at hwarnings
        exact heq hwarnings.2.1
    · rintro (hsame | ⟨hnone, -⟩)
      · exact heq hsame
      · rw [hdeclared] at hnone
        cases hnone
  | none =>
    have herrors : tenancyFindings b = tenancyFindings { b with path := source } ↔
        scopeKeys.filterMap (fun key =>
            (tenancyEntry b key).bind (scopeError (.text (tenancyMode b)) key)) =
          scopeKeys.filterMap (fun key =>
            (tenancyEntry b key).bind (scopeError (.text mode') key)) := by
      simp only [tenancyFindings, hmode, hentry, hdeclared, Findings.mk.injEq, and_true,
        List.append_right_inj]
    rw [herrors, filterMap_scopeError_eq_iff (by decide), Blueprint.IndifferentTo,
      or_iff_right heq, and_iff_right hdeclared]
    refine forall₂_congr fun key _ => ?_
    cases hvalue : tenancyEntry b key with
    | none => simp
    | some value => simpa using scopeError_eq_iff heq

/-! ### All findings -/

/-- A list without later repeats keeps no finding with a code that is not there. -/
lemma filter_uniqueAfter {code : String} {fs : List Finding} (other : ∀ f ∈ fs, f.code ≠ code)
    (seen : List (String × String × String)) :
    (uniqueAfter seen fs).filter (·.code = code) = [] := by
  rw [List.filter_eq_nil_iff]
  intro f hf
  simpa using other f ((uniqueAfter_sublist seen fs).subset hf)

/-- The warning about the tenancy is the only one with its code, and it is kept. -/
lemma filter_checkCoherence_warnings (b : Blueprint) :
    (checkCoherence b).warnings.filter (·.code = "tenancy.mode.mismatch") =
      (tenancyFindings b).warnings := by
  have hother : ∀ w ∈ (tableFindings b).warnings ++
      ((endpointFindings b).warnings ++ (exampleFindings b).warnings),
      w.code ≠ "tenancy.mode.mismatch" := by
    intro w hw hcode
    have hplain := (isPlainWarning_rest b w hw).1
    rw [hcode] at hplain
    exact absurd hplain (by decide)
  have hwarnings : (checkCoherence b).warnings = unique (gathered b).warnings := rfl
  rw [hwarnings, gathered_warnings, unique]
  have hcases : (tenancyFindings b).warnings = [] ∨ ∃ w, (tenancyFindings b).warnings = [w] ∧
      w.code = "tenancy.mode.mismatch" := by
    rw [tenancyFindings]
    cases tenancyEntry b "mode" with
    | none => exact .inl rfl
    | some mode =>
      dsimp only
      split_ifs
      · exact .inl rfl
      · exact .inr ⟨_, rfl, rfl⟩
  rcases hcases with hnone | ⟨w, hw, hcode⟩
  · rw [hnone, List.nil_append, filter_uniqueAfter hother]
  · rw [hw, List.singleton_append, uniqueAfter, if_neg (by simp),
      List.filter_cons_of_pos (by simpa using hcode), filter_uniqueAfter hother]

/-- The second stage finds the same under another path exactly if it finds the same about the
tenancy. -/
lemma checkCoherence_eq_iff :
    checkCoherence b = checkCoherence { b with path := source } ↔
      tenancyFindings b = tenancyFindings { b with path := source } := by
  constructor
  · intro h
    have hwarnings : (tenancyFindings b).warnings =
        (tenancyFindings { b with path := source }).warnings := by
      rw [← filter_checkCoherence_warnings, h, filter_checkCoherence_warnings]
    have herrors := congrArg Findings.errors h
    rw [checkCoherence_errors, checkCoherence_errors, gathered_errors, gathered_errors] at herrors
    have herrors : (tenancyFindings b).errors =
        (tenancyFindings { b with path := source }).errors := List.append_cancel_right herrors
    exact congrArg₂ Findings.mk herrors hwarnings
  · intro h
    have hgathered : gathered b = gathered { b with path := source } := by
      rw [gathered, gathered, h]
      rfl
    exact congrArg Findings.deduplicated hgathered

lemma Findings.merge_right_inj {found r s : Findings} : found.merge r = found.merge s ↔ r = s := by
  obtain ⟨errors, warnings⟩ := r
  obtain ⟨errors', warnings'⟩ := s
  simp [merge]

/-- The first stage does not look at the path. -/
lemma checkStructure_relocated (known : List String) :
    checkStructure known { b with path := source } = checkStructure known b := by
  rw [checkStructure, checkStructure]
  simp only [Blueprint.toPlain, Blueprint.toPlainWith]
  have hstructure : structureViolations known { b with path := source } =
      structureViolations known b := rfl
  rw [hstructure]
  cases b.fields.mapM Field.toPlain with
  | error fault => rfl
  | ok fields =>
    cases Document.toPlainRecord b.options with
    | error fault => rfl
    | ok options =>
      cases Document.toPlainRecord b.docs with
      | error fault => rfl
      | ok docs =>
        cases Document.toPlainRecord b.metadata with
        | error fault => rfl
        | ok metadata => cases Document.toPlainRecord b.tenancy <;> rfl

/-- **Under another path** validation finds the same exactly if the first stage ends it, or the
modes that the paths suggest make no difference. -/
lemma validate_eq_iff (known : List String) :
    validate known b = validate known { b with path := source } ↔
      ((∃ found, checkStructure known b = .ok found ∧ found.isValid = true) →
        b.IndifferentTo (tenancyMode b) (tenancyMode { b with path := source })) := by
  rw [← tenancyFindings_eq_iff, ← checkCoherence_eq_iff]
  cases hcheck : checkStructure known b with
  | error fault =>
    have hfault : ∀ {b}, checkStructure known b = .error fault → validate known b = .error fault :=
      fun h => bind_eq_error_iff.mpr (.inl h)
    refine iff_of_true ?_ (by rintro ⟨found, hfound, -⟩; cases hfound)
    rw [hfault hcheck, hfault ((checkStructure_relocated known).trans hcheck)]
  | ok found =>
    rw [validate_of_checkStructure hcheck,
      validate_of_checkStructure ((checkStructure_relocated known).trans hcheck)]
    by_cases hvalid : found.isValid = true
    · rw [if_pos hvalid, if_pos hvalid, Except.ok.injEq, Findings.merge_right_inj]
      simp [hvalid]
    · rw [if_neg hvalid, if_neg hvalid]
      simp [hvalid]

/-! ### Two roots -/

variable {tree tree' : FileTree} {root root' : Path} {location : List String}

lemma isWritten_extended (checkout : Checkout tree root)
    (names : ∀ name ∈ location, Path.IsName name) : (root.extended location).IsWritten := by
  rw [← ofText_extended checkout names]
  exact Path.ofText_isWritten _

/-- **One document below two roots.** A document at a location comes to a blueprint below one
root exactly if it does below the other, and the blueprints differ in their paths alone. The mode
that the place suggests is that of the module, or else the first one among the names of the root,
or else the first one among those of the location. Validation finds the same exactly if its first
stage ends it or the two modes make no difference, and so always where the module names a mode or
the names of the two roots suggest the same. -/
theorem validate_relocated (known : List String) (settings : Settings) (raw : Document)
    (checkout : Checkout tree root) (checkout' : Checkout tree' root')
    (names : ∀ name ∈ location, Path.IsName name) (inside : staysInside 0 location = true) :
    ((∃ b, normalize tree (settings.rootedAt root) raw (root.extended location).toText = .ok b) ↔
      ∃ b', normalize tree' (settings.rootedAt root') raw (root'.extended location).toText =
        .ok b') ∧
    ∀ b b', normalize tree (settings.rootedAt root) raw (root.extended location).toText = .ok b →
      normalize tree' (settings.rootedAt root') raw (root'.extended location).toText = .ok b' →
      b' = { b with path := (root'.extended location).toText } ∧
      tenancyMode b =
        (b.moduleMode.or ((namesMode root.names).or (namesMode location))).getD "central" ∧
      tenancyMode b' =
        (b.moduleMode.or ((namesMode root'.names).or (namesMode location))).getD "central" ∧
      (validate known b = validate known b' ↔
        ((∃ found, checkStructure known b = .ok found ∧ found.isValid = true) →
          b.IndifferentTo (tenancyMode b) (tenancyMode b'))) ∧
      (b.moduleMode ≠ none ∨ namesMode root.names = namesMode root'.names →
        validate known b = validate known b') := by
  constructor
  · constructor
    · rintro ⟨b, hb⟩
      exact ⟨_, (normalize_relocated checkout checkout' names inside hb).2⟩
    · rintro ⟨b', hb'⟩
      exact ⟨_, (normalize_relocated checkout' checkout names inside hb').2⟩
  · intro b b' hb hb'
    obtain ⟨hpath, hmoved⟩ := normalize_relocated checkout checkout' names inside hb
    obtain rfl := Except.ok.inj (hb'.symm.trans hmoved)
    have hmode := mode_of_extended (isWritten_extended checkout names) hpath
    have hmode' : tenancyMode { b with path := (root'.extended location).toText } =
        (b.moduleMode.or ((namesMode root'.names).or (namesMode location))).getD "central" :=
      mode_of_extended (b := { b with path := (root'.extended location).toText })
        (isWritten_extended checkout' names) rfl
    refine ⟨rfl, hmode, hmode', validate_eq_iff known, fun same => ?_⟩
    refine (validate_eq_iff known).mpr fun _ => .inl ?_
    rw [hmode, hmode']
    rcases same with hmodule | hroots
    · obtain ⟨mode, hmode⟩ := Option.ne_none_iff_exists'.mp hmodule
      rw [hmode, Option.some_or, Option.some_or]
    · rw [hroots]

/-- The document of an employee who belongs to the central part of a system. -/
def centralDocument : Document :=
  .mapping [(.text "entity", .text "Employee"),
    (.text "fields", .list [.mapping [(.text "name", .text "id"), (.text "type", .text "uuid")]]),
    (.text "tenancy", .mapping [(.text "mode", .text "central")])]

/-- What is found about a document at a location below a root, in a tree without nodes. -/
def foundBelow (root : String) (location : List String) (raw : Document) : Option Findings :=
  (normalize ⟨[], [], [], 0⟩ (Settings.standard.rootedAt (.ofText root)) raw
    ((Path.ofText root).extended location).toText).toOption.bind fun b =>
      (validate ["hexagonal"] b).toOption

lemma checkout_empty {root : String} (zero : (Path.ofText root).holdsZero = false) :
    Checkout ⟨[], [], [], 0⟩ (.ofText root) :=
  ⟨FileTree.noLinks_of_nodes (by simp), Path.ofText_isWritten root, zero⟩

/-- The module of an employee names a mode, so no root matters. -/
theorem validate_relocated_module :
    Checkout ⟨[], [], [], 0⟩ (.ofText "/srv/tenant/../blueprints") ∧
    Checkout ⟨[], [], [], 0⟩ (.ofText "/home/central/blueprints") ∧
    (∀ name ∈ ["hr", "..", "shared", "employee.yaml"], Path.IsName name) ∧
    staysInside 0 ["hr", "..", "shared", "employee.yaml"] = true ∧
    ∃ b b', normalize ⟨[], [], [], 0⟩
        (Settings.standard.rootedAt (.ofText "/srv/tenant/../blueprints")) centralDocument
        ((Path.ofText "/srv/tenant/../blueprints").extended
          ["hr", "..", "shared", "employee.yaml"]).toText = .ok b ∧
      normalize ⟨[], [], [], 0⟩
        (Settings.standard.rootedAt (.ofText "/home/central/blueprints")) centralDocument
        ((Path.ofText "/home/central/blueprints").extended
          ["hr", "..", "shared", "employee.yaml"]).toText = .ok b' ∧
      b.moduleMode = some "shared" ∧ validate ["hexagonal"] b = validate ["hexagonal"] b' := by
  have checkout : Checkout ⟨[], [], [], 0⟩ (.ofText "/srv/tenant/../blueprints") :=
    checkout_empty (by decide +kernel)
  have checkout' : Checkout ⟨[], [], [], 0⟩ (.ofText "/home/central/blueprints") :=
    checkout_empty (by decide +kernel)
  have names : ∀ name ∈ ["hr", "..", "shared", "employee.yaml"], Path.IsName name := by
    simp only [Path.IsName]
    decide +kernel
  have inside : staysInside 0 ["hr", "..", "shared", "employee.yaml"] = true := by decide +kernel
  obtain ⟨hiff, hsame⟩ := validate_relocated ["hexagonal"] .standard centralDocument checkout
    checkout' names inside
  have hmode : ((normalize ⟨[], [], [], 0⟩
      (Settings.standard.rootedAt (.ofText "/srv/tenant/../blueprints")) centralDocument
      ((Path.ofText "/srv/tenant/../blueprints").extended
        ["hr", "..", "shared", "employee.yaml"]).toText).toOption.bind Blueprint.moduleMode) =
      some "shared" := by
    decide +kernel
  obtain ⟨b, hb, hmode⟩ := Option.bind_eq_some_iff.mp hmode
  have hb := toOption_eq_some_iff.mp hb
  obtain ⟨b', hb'⟩ := hiff.mp ⟨b, hb⟩
  refine ⟨checkout, checkout', names, inside, b, b', hb, hb', hmode, ?_⟩
  exact (hsame b b' hb hb').2.2.2.2 (.inl (by rw [hmode]; simp))

/-- The mode of a document that declares one is held against the names of the root, so another
root may make a warning. -/
theorem validate_moved :
    foundBelow "/srv/central/blueprints" ["hr", "employee.yaml"] centralDocument = some ⟨[], []⟩ ∧
    foundBelow "/srv/tenant/blueprints" ["hr", "employee.yaml"] centralDocument =
      some ⟨[], [⟨"tenancy.mode.mismatch",
        "Tenancy mode \"central\" does not match the folder convention \"tenant\".",
        some "tenancy.mode"⟩]⟩ := by
  constructor <;> decide +kernel

end Scaffold
