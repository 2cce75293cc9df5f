import Scaffold.Blueprint.Source
import Scaffold.Proofs.Files.Faults
import Scaffold.Proofs.Files.Resolving
import Scaffold.Proofs.Yaml.Unfolding

/-!
Batches of blueprints.

Every path of a batch has its outcome, whatever the files before it hold. What ends a batch
is a file whose reading breaks down, and there are few reasons for this: a name that is too
long, a YAML text that has the form of YAML and no value, and a root inside a circle of
links. Each of them is met by the file alone, so the batch adds none.

* `BreaksOnly`: the breakdowns that a computation may end with.
* `normalize_breaksOnly`: shaping a document breaks down in circles of links only.
* `BlueprintReader.Breaks`: the reasons why reading a blueprint breaks down;
  `read_eq_broken_iff` says that there are no others.
* `readAll_isolates` (**a batch of blueprints**): a batch has outcomes unless reading one of
  its files breaks down, and then one for each path, which is that of the path alone.
* `readAll_eq_error_iff`: otherwise it ends with the breakdown of the first such file.
* `readAll_breaks`: a date that no calendar has ends a batch.
-/

namespace Scaffold

open Files

/-! ### Breakdowns of a computation -/

/-- The breakdowns that a computation ends with satisfy a condition. -/
def BreaksOnly {ε α : Type} (reason : Breakdown → Prop) (x : Except (Failure ε) α) : Prop :=
  ∀ breakdown, x = .error (.broken breakdown) → reason breakdown

namespace BreaksOnly

variable {ε ε' α β : Type} {reason : Breakdown → Prop} {x : Except (Failure ε) α}
  {f : α → Except (Failure ε) β}

lemma bind (hx : BreaksOnly reason x) (hf : ∀ a, BreaksOnly reason (f a)) :
    BreaksOnly reason (x >>= f) := by
  intro breakdown h
  rcases bind_eq_error_iff.mp h with hx' | ⟨a, -, ha⟩
  · exact hx breakdown hx'
  · exact hf a breakdown ha

lemma pure (a : α) : BreaksOnly reason (.ok a : Except (Failure ε) α) := by
  intro breakdown h
  cases h

lemma refused (cause : ε) : BreaksOnly reason (.error (.refused cause) : Except (Failure ε) α) := by
  intro breakdown h
  cases h

lemma refused_bind (cause : ε) (f : α → Except (Failure ε) β) :
    BreaksOnly reason ((.error (.refused cause) : Except (Failure ε) α) >>= f) :=
  refused cause

lemma foreseen (y : Except ε' α) (cause : ε' → ε) :
    BreaksOnly reason (y.mapError fun e => Failure.refused (cause e)) := by
  intro breakdown h
  cases y <;> cases h

lemma lift (y : Except ε α) : BreaksOnly reason (y.mapError Failure.refused) :=
  foreseen y id

end BreaksOnly

/-- A YAML text is refused for its form, or else reading it breaks down. -/
lemma Failure.ofYaml_eq_broken_iff {ε : Type} {malformed : String → ε} {fault : YamlFault}
    {breakdown : Breakdown} :
    ofYaml malformed fault = .broken breakdown ↔ breakdown = .yaml fault ∧ ¬ fault.IsForm := by
  cases fault <;> simp [ofYaml, YamlFault.IsForm, eq_comm]

/-! ### Shaping a document -/

section Normalizing

variable {tree : FileTree} {settings : Settings} {source : String}

/-- The directory of a source cannot be told for a circle of links. -/
def Circular (tree : FileTree) (settings : Settings) (source : String) (breakdown : Breakdown) :
    Prop :=
  breakdown = .circularPath ∧
    ∃ fault, ModulePath.detect tree settings.root (.ofText source) = .error fault

lemma moduleOf_breaksOnly {entries : List (Document × Document)} :
    BreaksOnly (Circular tree settings source)
      (Normalize.moduleOf tree settings source entries) := by
  rw [Normalize.moduleOf]
  split
  case h_1 => exact .foreseen _ _
  case h_4 => exact .refused _
  -- the module is told from the directory, whether it is null or not given
  all_goals
    split
    · next fault hfault =>
      intro breakdown h
      exact ⟨by simpa [eq_comm] using h, fault, hfault⟩
    · exact .pure _
    · exact .foreseen _ _

/-- Shaping a document breaks down in circles of links only. -/
lemma normalize_breaksOnly {document : Document} :
    BreaksOnly (Circular tree settings source) (normalize tree settings document source) := by
  rw [normalize]
  refine .bind ?_ fun read => ?_
  · rw [Normalize.assemble]
    split
    · split
      · refine .bind (.lift _) fun fields => ?_
        -- without fields, and with options of another kind, the document is refused
        split
        all_goals
          by_cases hfields : fields.isEmpty = true
          · simp only [hfields, if_true]
            exact .refused_bind _ _
          · simp only [hfields, if_false, Bool.false_eq_true]
            refine .bind ?_ fun _ => .bind moduleOf_breaksOnly fun _ => .bind (.lift _) fun _ =>
              .bind (.lift _) fun _ => .bind (.lift _) fun _ => .bind (.lift _) fun _ =>
              .bind (.lift _) fun _ => .pure _
            first | exact .pure _ | exact .refused _
      · exact .refused _
    · exact .refused _
  · simp only
    split
    · exact .pure _
    · exact .refused _

/-- The directory of a path cannot be told for a circle on the way to it or to the root. -/
lemma detect_eq_error {root : Option Path} {path : Path} {fault : ResolveFault}
    (h : ModulePath.detect tree root path = .error fault) :
    ∃ top, root = some top ∧
      (tree.resolve path = .error .circular ∨ tree.resolve top = .error .circular) := by
  cases root with
  | none => cases h
  | some top =>
    refine ⟨top, rfl, ?_⟩
    rw [ModulePath.detect] at h
    split at h
    · next hpath => exact .inl hpath
    · cases h
    · next _ htop => exact .inr htop
    · cases h
    · split at h
      · cases h
      · split at h <;> cases h

end Normalizing

/-! ### Reading a file -/

namespace BlueprintReader

variable {reader : BlueprintReader} {tree : FileTree} {path : String} {paths : List String}
  {full : Path} {breakdown : Breakdown}

/-- The path where a file is looked for. -/
def candidate (reader : BlueprintReader) (path : Path) : Path :=
  match reader.root? with
  | some root => root.join path
  | none => path

/-- Looking for a file breaks down at a name that is too long, and nowhere else: a path
that leads to a file has a place. -/
lemma find_eq_broken_iff {path : Path} :
    reader.find tree path = .error (.broken breakdown) ↔
      breakdown = .file .nameTooLong ∧
        tree.stat (reader.candidate path) = .error .nameTooLong := by
  rw [find]
  change (((tree.isFile (reader.candidate path)).mapError _ >>= _) = _) ↔ _
  cases hfile : tree.isFile (reader.candidate path) with
  | error fault =>
    obtain ⟨rfl, hstat⟩ := FileTree.holds_eq_error_iff.mp hfile
    simp [Except.mapError, bind, Except.bind, hstat, eq_comm]
  | ok present =>
    have hstat : tree.stat (reader.candidate path) ≠ .error .nameTooLong := by
      intro hstat
      rw [FileTree.isFile, FileTree.holds, hstat] at hfile
      cases hfile
    cases present with
    | false =>
      constructor
      · intro h
        cases h
      · exact fun h => absurd h.2 hstat
    | true =>
      obtain ⟨found, hfound⟩ : ∃ found, tree.locate true (reader.candidate path) = .ok found := by
        cases hfound : tree.locate true (reader.candidate path) with
        | ok found => exact ⟨found, rfl⟩
        | error fault =>
          simp [FileTree.isFile, FileTree.holds, FileTree.stat, hfound, bind, Except.bind] at hfile
          split at hfile <;> simp_all
      have hplace := FileTree.resolve_of_locate hfound
      change (((tree.resolve (reader.candidate path)).mapError _ >>= _) = _) ↔ _
      rw [hplace]
      simp [Except.mapError, bind, Except.bind, hstat, pure, Except.pure]

/-- Why reading a blueprint breaks down. -/
inductive Breaks (reader : BlueprintReader) (tree : FileTree) (path : String) :
    Breakdown → Prop
  /-- A name on the way to the file is too long. -/
  | name (long : tree.stat (reader.candidate (.ofText path)) = .error .nameTooLong) :
    Breaks reader tree path (.file .nameTooLong)
  /-- The text is refused for another reason than its form before it has nodes. -/
  | nodes {full : Path} {text : String} {fault : YamlFault}
    (found : reader.find tree (.ofText path) = .ok full)
    (read : tree.readText full = .ok text)
    (faulty : Yaml.Graph.ofTokens (Yaml.tokensOf text) = .error fault)
    (form : ¬ fault.IsForm) :
    Breaks reader tree path (.yaml fault)
  /-- The text has nodes and no document: a scalar has the tag of a truth value, a number or
  a moment and denotes none, or a mapping that is used as a scalar stands for a part of
  itself. -/
  | value {full : Path} {text : String} {g : Yaml.Graph} {node : Nat} {fault : YamlFault}
    (found : reader.find tree (.ofText path) = .ok full)
    (read : tree.readText full = .ok text)
    (composed : Yaml.Graph.ofTokens (Yaml.tokensOf text) = .ok (some g))
    (faulty : g.toDocument = .error fault)
    (form : ¬ fault.IsForm)
    (scalar : g.scalarAt node = .error fault)
    (kind : (g.tag node).IsPartial ∨ fault = .tooDeep) :
    Breaks reader tree path (.yaml fault)
  /-- The way to the file or to the root of the settings runs in circles, and the module has
  to be told from them. -/
  | circle {full top : Path} {text : String} {entries : List (Document × Document)}
    (found : reader.find tree (.ofText path) = .ok full)
    (read : tree.readText full = .ok text)
    (parsed : Yaml.read text = .ok (.mapping entries))
    (root : reader.settings.root = some top)
    (circular : tree.resolve (.ofText full.toText) = .error .circular ∨
      tree.resolve top = .error .circular)
    (broken : normalize tree reader.settings (.mapping entries) full.toText =
      .error (.broken .circularPath)) :
    Breaks reader tree path .circularPath

/-- A text without document has no nodes, or they have none. -/
lemma yaml_eq_error_iff {text : String} {fault : YamlFault} :
    Yaml.read text = .error fault ↔
      Yaml.Graph.ofTokens (Yaml.tokensOf text) = .error fault ∨
        ∃ g, Yaml.Graph.ofTokens (Yaml.tokensOf text) = .ok (some g) ∧
          g.toDocument = .error fault := by
  rw [Yaml.read, bind_eq_error_iff]
  refine or_congr_right ⟨?_, ?_⟩
  · rintro ⟨_ | g, hnodes, h⟩
    · cases h
    · exact ⟨g, hnodes, h⟩
  · rintro ⟨g, hnodes, h⟩
    exact ⟨some g, hnodes, h⟩

/-- The text of a file without document breaks the reading down, unless it is refused for
its form. -/
lemma read_of_yaml {text : String} {fault : YamlFault}
    (found : reader.find tree (.ofText path) = .ok full)
    (content : tree.readText full = .ok text) (faulty : Yaml.read text = .error fault)
    (form : ¬ fault.IsForm) : reader.read tree path = .error (.broken (.yaml fault)) := by
  simp [read, found, content, faulty, Except.mapError, bind, Except.bind,
    Failure.ofYaml_eq_broken_iff.mpr ⟨rfl, form⟩]

/-- **Reading a blueprint breaks down** for one of the reasons, and for no other. -/
theorem read_eq_broken_iff :
    reader.read tree path = .error (.broken breakdown) ↔ reader.Breaks tree path breakdown := by
  constructor
  · intro h
    rw [read] at h
    rcases bind_eq_error_iff.mp h with hfind | ⟨full, hfind, h⟩
    · obtain ⟨rfl, hlong⟩ := find_eq_broken_iff.mp hfind
      exact .name hlong
    rcases bind_eq_error_iff.mp h with htext | ⟨text, htext, h⟩
    · obtain ⟨cause, -, hcause⟩ := mapError_eq_error_iff.mp htext
      cases hcause
    have htext := mapError_eq_ok_iff.mp htext
    rcases bind_eq_error_iff.mp h with hyaml | ⟨document, hdocument, h⟩
    · obtain ⟨fault, hfault, hbroken⟩ := mapError_eq_error_iff.mp hyaml
      obtain ⟨rfl, hform⟩ := Failure.ofYaml_eq_broken_iff.mp hbroken
      rcases yaml_eq_error_iff.mp hfault with hnodes | ⟨g, hnodes, hvalue⟩
      · exact .nodes hfind htext hnodes hform
      · obtain ⟨node, hscalar⟩ :=
          (Yaml.exists_scalarAt_of_toDocument hvalue).resolve_left hform
        have hkind := (Yaml.scalarAt_cases hscalar).resolve_left hform
        exact .value hfind htext hnodes hvalue hform hscalar hkind
    · have hdocument := mapError_eq_ok_iff.mp hdocument
      split at h
      · obtain ⟨rfl, fault, hdetect⟩ := normalize_breaksOnly _ h
        obtain ⟨top, hroot, hcircular⟩ := detect_eq_error hdetect
        exact .circle hfind htext hdocument hroot hcircular h
      · cases h
  · intro h
    cases h with
    | name long =>
      rw [read, find_eq_broken_iff.mpr ⟨rfl, long⟩]
      rfl
    | nodes found content faulty form =>
      exact read_of_yaml found content (yaml_eq_error_iff.mpr (.inl faulty)) form
    | value found content composed faulty form _ _ =>
      exact read_of_yaml found content (yaml_eq_error_iff.mpr (.inr ⟨_, composed, faulty⟩)) form
    | circle found content parsed _ _ broken =>
      simp [read, found, content, parsed, broken, Except.mapError, bind, Except.bind]

/-! ### Reading a batch -/

/-- The first file of a batch and the others. -/
lemma readAll_cons :
    reader.readAll tree (path :: paths) =
      match reader.read tree path with
      | .error (.broken breakdown) => .error breakdown
      | .error (.refused fault) =>
        (reader.readAll tree paths).map fun outcomes => (path, .error fault) :: outcomes
      | .ok b => (reader.readAll tree paths).map fun outcomes => (path, .ok b) :: outcomes := by
  rw [readAll]
  cases reader.read tree path with
  | ok b => rfl
  | error failure => cases failure <;> rfl

/-- An outcome of a batch is what reading the path alone gives. -/
def IsOutcomeOf (reader : BlueprintReader) (tree : FileTree) (path : String)
    (outcome : String × Except BlueprintFault Blueprint) : Prop :=
  outcome.1 = path ∧ reader.read tree path = outcome.2.mapError .refused

lemma readAll_eq_ok_iff {outcomes : List (String × Except BlueprintFault Blueprint)} :
    reader.readAll tree paths = .ok outcomes ↔
      List.Forall₂ (reader.IsOutcomeOf tree) paths outcomes := by
  induction paths generalizing outcomes with
  | nil => simp [readAll, eq_comm]
  | cons path paths ih =>
    rw [readAll_cons]
    constructor
    · intro h
      split at h
      · cases h
      · next fault hfault =>
        obtain ⟨rest, hrest, rfl⟩ := map_eq_ok_iff.mp h
        exact .cons ⟨rfl, hfault⟩ (ih.mp hrest)
      · next b hb =>
        obtain ⟨rest, hrest, rfl⟩ := map_eq_ok_iff.mp h
        exact .cons ⟨rfl, hb⟩ (ih.mp hrest)
    · intro h
      obtain ⟨⟨shown, result⟩, rest, ⟨rfl, hread⟩, hrest, rfl⟩ := List.forall₂_cons_left_iff.mp h
      rw [ih.mpr hrest]
      cases result with
      | ok b =>
        have hread : reader.read tree shown = .ok b := hread
        rw [hread]
        rfl
      | error fault =>
        have hread : reader.read tree shown = .error (.refused fault) := hread
        rw [hread]
        rfl

/-- When reading the first file does not break down, the first that does is behind it. -/
lemma exists_later_iff
    (calm : ∀ breakdown, reader.read tree path ≠ .error (.broken breakdown)) :
    (∃ before first after, paths = before ++ first :: after ∧
        (∀ other ∈ before, ∀ b, ¬ reader.Breaks tree other b) ∧
        reader.Breaks tree first breakdown) ↔
      ∃ before first after, path :: paths = before ++ first :: after ∧
        (∀ other ∈ before, ∀ b, ¬ reader.Breaks tree other b) ∧
        reader.Breaks tree first breakdown := by
  have hcalm : ∀ b, ¬ reader.Breaks tree path b := fun b hb =>
    calm b (read_eq_broken_iff.mpr hb)
  constructor
  · rintro ⟨before, first, after, rfl, hbefore, hfirst⟩
    refine ⟨path :: before, first, after, rfl, fun other hother => ?_, hfirst⟩
    rcases List.mem_cons.mp hother with rfl | hother
    · exact hcalm
    · exact hbefore other hother
  · rintro ⟨before, first, after, hpaths, hbefore, hfirst⟩
    cases before with
    | nil =>
      obtain ⟨rfl, rfl⟩ := List.cons.inj hpaths
      exact absurd hfirst (hcalm _)
    | cons other before =>
      obtain ⟨rfl, rfl⟩ := List.cons.inj hpaths
      exact ⟨before, first, after, rfl, fun other hother => hbefore other (by simp [hother]),
        hfirst⟩

/-- **The breakdown of a batch** is that of the first file whose reading breaks down. -/
theorem readAll_eq_error_iff :
    reader.readAll tree paths = .error breakdown ↔
      ∃ before path after, paths = before ++ path :: after ∧
        (∀ other ∈ before, ∀ b, ¬ reader.Breaks tree other b) ∧
        reader.Breaks tree path breakdown := by
  induction paths with
  | nil => simp [readAll]
  | cons path paths ih =>
    rw [readAll_cons]
    split
    · next found hread =>
      have hbreaks := read_eq_broken_iff.mp hread
      constructor
      · intro h
        obtain rfl : found = breakdown := Except.error.inj h
        exact ⟨[], path, paths, rfl, by simp, hbreaks⟩
      · rintro ⟨before, first, after, hpaths, hbefore, hfirst⟩
        cases before with
        | nil =>
          obtain ⟨rfl, rfl⟩ := List.cons.inj hpaths
          have := read_eq_broken_iff.mpr hfirst
          simp_all
        | cons other before =>
          obtain ⟨rfl, -⟩ := List.cons.inj hpaths
          exact absurd hbreaks (hbefore path (by simp) found)
    · next fault hread =>
      rw [map_eq_error_iff, ih]
      exact exists_later_iff (by rw [hread]; simp)
    · next b hread =>
      rw [map_eq_error_iff, ih]
      exact exists_later_iff (by rw [hread]; simp)

/-- **A batch of blueprints.** A batch has outcomes unless reading one of its files breaks
down; the outcomes are one for each path, in order, and each is what reading the path alone
gives. -/
theorem readAll_isolates (reader : BlueprintReader) (tree : FileTree) (paths : List String) :
    ((∃ outcomes, reader.readAll tree paths = .ok outcomes) ↔
      ∀ path ∈ paths, ∀ breakdown, ¬ reader.Breaks tree path breakdown) ∧
    ∀ outcomes, reader.readAll tree paths = .ok outcomes ↔
      List.Forall₂ (reader.IsOutcomeOf tree) paths outcomes := by
  refine ⟨⟨?_, fun calm => ?_⟩, fun outcomes => readAll_eq_ok_iff⟩
  · rintro ⟨outcomes, h⟩ path hpath breakdown hbreaks
    obtain ⟨outcome, -, -, hread⟩ := exists_of_forall₂ (readAll_eq_ok_iff.mp h) hpath
    rw [read_eq_broken_iff.mpr hbreaks] at hread
    cases outcome with
    | mk shown result => cases result <;> cases hread
  · cases h : reader.readAll tree paths with
    | ok outcomes => exact ⟨outcomes, rfl⟩
    | error breakdown =>
      obtain ⟨before, path, after, rfl, -, hbreaks⟩ := readAll_eq_error_iff.mp h
      exact absurd hbreaks (calm path (by simp) breakdown)

/-- A file with a date that no calendar has ends a batch, and the file in front of it has no
outcome, although one that does not have the form of YAML is no obstacle. -/
theorem readAll_breaks :
    ∃ (reader : BlueprintReader) (tree : FileTree),
      tree.readText (.ofText "form.yaml") = .ok "docs: [" ∧
      tree.readText (.ofText "date.yaml") = .ok "docs: 2026-02-30" ∧
      (reader.readAll tree ["form.yaml"]).isOk = true ∧
      reader.readAll tree ["form.yaml", "date.yaml"] = .error (.yaml .unreadable) := by
  let tree : FileTree := ⟨[], [(["form.yaml"], .file (Utf8.encode "docs: [")),
    (["date.yaml"], .file (Utf8.encode "docs: 2026-02-30"))], [], 0⟩
  have hbroken : ((⟨.standard, none⟩ : BlueprintReader).readAll tree
      ["form.yaml", "date.yaml"]).map (fun _ => ()) = .error (.yaml .unreadable) := by
    decide +kernel
  exact ⟨⟨.standard, none⟩, tree, by decide +kernel, by decide +kernel, by decide +kernel,
    map_eq_error_iff.mp hbroken⟩

end BlueprintReader

end Scaffold
