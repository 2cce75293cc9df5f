import Scaffold.Configuration.Loading
import Scaffold.Proofs.Blueprint.Isolation
import Scaffold.Proofs.Commands.Equipment

/-!
Loading the configuration.

A configuration that is loaded can be worked with: its default architecture is there, every
architecture has layers, and its paths are absolute. Otherwise there is a fault, and most
faults are foreseen. Those that are not have few reasons: a name that is too long, bytes
that are no text, a text that has its form and no value, and a user without a home.

* `Configuration.IsUsable`: a configuration with which one can work.
* `Configuration.isUsable_of_load`: what is loaded is one.
* `Configuration.Breaks`: the reasons why loading breaks down; `load_eq_broken_iff` says that
  there are no others.
* `Configuration.load_outcome` (**loading**): a usable configuration or a foreseen fault,
  unless there is a reason.
* `Configuration.load_breaks`: bytes that are no text are one.
-/

namespace Scaffold

open Files Shape Checked

variable {tree : FileTree} {environment : Variables} {homes : Homes} {base : Path}
  {path : Option Path} {breakdown : Breakdown}

/-! ### Paths seen from a base -/

lemma Files.Path.isAbsolute_join {p : Path} (h : base.isAbsolute = true) :
    (base.join p).isAbsolute = true := by
  rw [Path.join]
  split_ifs with hp
  · exact hp
  · exact h

lemma anchored_isAbsolute {p found : Path} (h : base.isAbsolute = true)
    (hfound : anchored homes base p = .ok found) : found.isAbsolute = true := by
  rw [anchored] at hfound
  split at hfound
  · cases hfound
    exact Path.isAbsolute_join h
  · cases hfound

/-- A path has no place below the base exactly if its user has no home. -/
lemma anchored_eq_error_iff {p : Path} {failure : Failure ConfigurationFault} :
    anchored homes base p = .error failure ↔
      failure = .broken .noHome ∧ p.expandHome? homes = none := by
  rw [anchored]
  split
  · next hexpanded => simp [hexpanded]
  · next hnone => simp [hnone, eq_comm]

namespace Configuration

variable {c : Configuration} {d : Document}

/-! ### What is loaded -/

/-- A configuration with which one can work. -/
structure IsUsable (c : Configuration) : Prop where
  /-- The default architecture is configured. -/
  default : c.defaultArchitecture ∈ c.architectures.map (·.1)
  /-- Every architecture has a layer. -/
  layers : ∀ entry ∈ c.architectures, entry.2.layers ≠ []
  /-- The directory of blueprints does not depend on where one is. -/
  blueprints : c.locations.blueprints.isAbsolute = true
  /-- Nor does the output root. -/
  output : c.locations.output.isAbsolute = true
  /-- Nor does the directory of all runs. -/
  history : c.history.path.isAbsolute = true

/-- Layers that are read are at least one. -/
lemma layers_ne_nil {l : LayerSettings} (h : LayerSettings.decode d = .ok l) : l.layers ≠ [] := by
  obtain ⟨entries, -, -, hreading⟩ := strictRecord_eq_ok_iff.mp h
  simp only [apply_eq_ok_iff] at hreading
  obtain ⟨_, metadata, ⟨_, layers, hdone, hlayers, rfl⟩, -, rfl⟩ := hreading
  cases hdone
  obtain ⟨written, -, hwritten⟩ : ∃ written, Document.lookup "layers" entries = some written ∧
      LayerSettings.decodeLayers written = .ok layers := by
    rw [required] at hlayers
    split at hlayers
    · next written hlookup => exact ⟨written, hlookup, within_eq_ok_iff.mp hlayers⟩
    · cases hlayers
  obtain ⟨read, -, hread⟩ := bind_eq_ok_iff.mp hwritten
  cases read with
  | nil => cases hread
  | cons first rest =>
    cases hread
    simp

/-- Every architecture that is read has a layer. -/
lemma layers_ne_nil_of_decode (h : decode d = .ok c) :
    ∀ entry ∈ c.architectures, entry.2.layers ≠ [] := by
  obtain ⟨entries, -, -, hreading⟩ := strictRecord_eq_ok_iff.mp h
  simp only [apply_eq_ok_iff] at hreading
  obtain ⟨_, options, ⟨_, generators, ⟨_, architectures, ⟨_, _, ⟨_, _, ⟨_, _, hdone, -, rfl⟩, -,
    rfl⟩, -, rfl⟩, harchitectures, rfl⟩, -, rfl⟩, -, rfl⟩ := hreading
  cases hdone
  rcases defaulted_eq_ok harchitectures with rfl | ⟨written, hwritten⟩
  · simp [standardArchitectures]
  · intro entry hentry
    obtain ⟨value, hvalue⟩ := exists_of_dictOf hwritten entry hentry
    exact layers_ne_nil hvalue

/-- **A configuration that is loaded can be worked with.** -/
lemma isUsable_of_load (absolute : base.isAbsolute = true)
    (h : load tree environment homes base path = .ok c) : c.IsUsable := by
  have hdefault := default_mem_of_load h
  obtain ⟨bare, d, hdecode, -, hresolved⟩ := exists_of_load h
  simp only [resolved, bind_eq_ok_iff] at hresolved
  obtain ⟨blueprints, hblueprints, output, houtput, history, hhistory, hc⟩ := hresolved
  cases hc
  have hlayers := layers_ne_nil_of_decode hdecode
  exact {
    default := hdefault
    layers := hlayers
    blueprints := anchored_isAbsolute absolute hblueprints
    output := anchored_isAbsolute absolute houtput
    history := anchored_isAbsolute absolute hhistory }

/-! ### Why loading breaks down -/

/-- The path of the configuration file. -/
def fileAt (base : Path) (path : Option Path) : Path :=
  path.getD (base.child configurationFileName)

/-- The entries of a configuration before its shape is looked at. -/
def overridden (tree : FileTree) (environment : Variables) (base : Path) (path : Option Path) :
    Except (Failure ConfigurationFault) (List (Document × Document)) := do
  (override environment (← entriesAt tree base path)).mapError .refused

/-- Why loading breaks down. -/
inductive Breaks (tree : FileTree) (environment : Variables) (homes : Homes) (base : Path)
    (path : Option Path) : Breakdown → Prop
  /-- A name on the way to the file is too long. -/
  | name (long : tree.stat (fileAt base path) = .error .nameTooLong) :
    Breaks tree environment homes base path (.file .nameTooLong)
  /-- The bytes of the file are no text. -/
  | bytes {content : Bytes} (read : tree.read (fileAt base path) = .ok content)
    (undecodable : Utf8.decode? content = none) :
    Breaks tree environment homes base path .undecodable
  /-- The file holds JSON, and lists and objects are nested too deeply. -/
  | depth {text : String} (read : tree.readText (fileAt base path) = .ok text)
    (suffix : Text.lowered (fileAt base path).suffix = ".json")
    (deep : Json.parse text = .error .tooDeep) :
    Breaks tree environment homes base path .deepJson
  /-- The file holds JSON, and an integer has too many digits. -/
  | digits {text : String} (read : tree.readText (fileAt base path) = .ok text)
    (suffix : Text.lowered (fileAt base path).suffix = ".json")
    (huge : Json.parse text = .error .hugeInteger) :
    Breaks tree environment homes base path .hugeInteger
  /-- The file holds YAML that is refused for another reason than its form: a scalar has a
  tag and no value, or values are nested too deeply. -/
  | value {text : String} {fault : YamlFault}
    (read : tree.readText (fileAt base path) = .ok text)
    (suffix : Text.lowered (fileAt base path).suffix ≠ ".json")
    (faulty : Yaml.read text = .error fault) (form : ¬ fault.IsForm) :
    Breaks tree environment homes base path (.yaml fault)
  /-- A path of the configuration starts in the home of a user who has none. -/
  | home {entries : List (Document × Document)} {bare : Configuration}
    (found : overridden tree environment base path = .ok entries)
    (shaped : ofEntries entries = .ok bare)
    (homeless : ∃ p ∈ [bare.locations.blueprints, bare.locations.output, bare.history.path],
      p.expandHome? homes = none) :
    Breaks tree environment homes base path .noHome

/-- A file that is there has no text for a breakdown exactly if its bytes are none. -/
lemma readConfiguration_eq_broken_iff {file : Path} (present : tree.exists file = .ok true) :
    readConfiguration tree file = .error (.broken breakdown) ↔
      breakdown = .undecodable ∧
        ∃ content, tree.read file = .ok content ∧ Utf8.decode? content = none := by
  -- the path of a file that is there does not hold the character zero
  have hzero : tree.read file ≠ .error .zeroCharacter := by
    obtain ⟨place, node, hplace, -⟩ := FileTree.holds_eq_true_iff.mp present
    intro hread
    have hlocate : tree.locate true file = .error .zeroCharacter :=
      FileTree.locate_eq_zero_iff.mpr (FileTree.read_eq_zero_iff.mp hread)
    rw [hplace] at hlocate
    cases hlocate
  rw [readConfiguration, mapError_eq_error_iff, FileTree.readText]
  cases hread : tree.read file with
  | error fault =>
    have hfault : fault ≠ .zeroCharacter := fun h => hzero (h ▸ hread)
    constructor
    · rintro ⟨cause, hcause, hbroken⟩
      cases hcause
      cases fault <;> simp_all
    · rintro ⟨-, content, hcontent, -⟩
      cases hcontent
  | ok content =>
    cases hdecode : Utf8.decode? content with
    | none =>
      simp [Except.mapError, bind, Except.bind, hdecode, throw, throwThe, MonadExceptOf.throw,
        eq_comm]
    | some text => simp [Except.mapError, bind, Except.bind, hdecode, pure, Except.pure]

/-- The text of a file has no document for a breakdown. -/
lemma parseConfiguration_eq_broken_iff {file : Path} {text : String} :
    parseConfiguration file text = .error (.broken breakdown) ↔
      Text.lowered file.suffix = ".json" ∧
        (breakdown = .deepJson ∧ Json.parse text = .error .tooDeep ∨
          breakdown = .hugeInteger ∧ Json.parse text = .error .hugeInteger) ∨
      Text.lowered file.suffix ≠ ".json" ∧
        ∃ fault, Yaml.read text = .error fault ∧ breakdown = .yaml fault ∧ ¬ fault.IsForm := by
  rw [parseConfiguration]
  by_cases hsuffix : Text.lowered file.suffix = ".json"
  · rw [if_pos (beq_iff_eq.mpr hsuffix), map_eq_error_iff, mapError_eq_error_iff]
    cases hparse : Json.parse text with
    | ok j => simp [hsuffix]
    | error fault => cases fault <;> simp [Failure.ofJson, hsuffix, eq_comm]
  · rw [if_neg (by simpa using hsuffix), mapError_eq_error_iff]
    simp [Failure.ofYaml_eq_broken_iff, hsuffix]

/-- The entries of a file that is there are missing for a breakdown. -/
lemma decodeFile_eq_broken_iff {file : Path} :
    decodeFile tree file = .error (.broken breakdown) ↔
      readConfiguration tree file = .error (.broken breakdown) ∨
        ∃ text, tree.readText file = .ok text ∧
          parseConfiguration file text = .error (.broken breakdown) := by
  rw [decodeFile, bind_eq_error_iff]
  refine or_congr_right (exists_congr fun text => ?_)
  rw [readConfiguration, mapError_eq_ok_iff, bind_eq_error_iff]
  refine and_congr_right fun _ => ⟨fun h => ?_, .inl⟩
  rcases h with h | ⟨document, -, h⟩
  · exact h
  · cases document <;> cases h

/-- The entries are missing for a breakdown when looking for the file breaks down, or reading
one that is there. -/
lemma entriesAt_eq_broken_iff :
    entriesAt tree base path = .error (.broken breakdown) ↔
      breakdown = .file .nameTooLong ∧ tree.stat (fileAt base path) = .error .nameTooLong ∨
        tree.exists (fileAt base path) = .ok true ∧
          decodeFile tree (fileAt base path) = .error (.broken breakdown) := by
  unfold entriesAt
  rw [bind_eq_error_iff, mapError_eq_error_iff]
  refine or_congr ?_ ?_
  · simp only [FileTree.exists, FileTree.holds_eq_error_iff, fileAt]
    constructor
    · rintro ⟨_, ⟨rfl, hlong⟩, hbroken⟩
      cases hbroken
      exact ⟨rfl, hlong⟩
    · rintro ⟨rfl, hlong⟩
      exact ⟨_, ⟨rfl, hlong⟩, rfl⟩
  · simp only [mapError_eq_ok_iff, fileAt]
    constructor
    · rintro ⟨present, hpresent, h⟩
      cases present with
      | true => exact ⟨hpresent, h⟩
      | false => cases path <;> cases h
    · rintro ⟨hpresent, h⟩
      exact ⟨true, hpresent, h⟩

/-- A file that can be read is there. -/
lemma exists_of_read {file : Path} {content : Bytes} (h : tree.read file = .ok content) :
    tree.exists file = .ok true := by
  obtain ⟨place, hplace⟩ := FileTree.read_eq_ok_iff.mp h
  exact FileTree.holds_eq_true_iff.mpr ⟨place, _, hplace, rfl⟩

/-- The paths of a configuration cannot be seen from a base exactly if one of them starts in
a home that is not there. -/
lemma resolved_eq_error_iff {failure : Failure ConfigurationFault} :
    c.resolved homes base = .error failure ↔
      failure = .broken .noHome ∧
        ∃ p ∈ [c.locations.blueprints, c.locations.output, c.history.path],
          p.expandHome? homes = none := by
  have hanchored : ∀ p : Path, (∃ found, anchored homes base p = .ok found) ↔
      p.expandHome? homes ≠ none := by
    intro p
    rw [anchored]
    split
    · next hexpanded => simp [hexpanded]
    · next hnone => simp [hnone]
  simp only [resolved, bind_eq_error_iff, anchored_eq_error_iff, List.mem_cons, List.not_mem_nil,
    or_false, exists_eq_or_imp, exists_eq_left]
  constructor
  · rintro (⟨rfl, h⟩ | ⟨_, -, ⟨rfl, h⟩ | ⟨_, -, ⟨rfl, h⟩ | ⟨_, -, h⟩⟩⟩)
    · exact ⟨rfl, .inl h⟩
    · exact ⟨rfl, .inr (.inl h)⟩
    · exact ⟨rfl, .inr (.inr h)⟩
    · cases h
  · rintro ⟨rfl, h⟩
    by_cases hblueprints : c.locations.blueprints.expandHome? homes = none
    · exact .inl ⟨rfl, hblueprints⟩
    obtain ⟨blueprints, hblueprints'⟩ := (hanchored _).mpr hblueprints
    refine .inr ⟨blueprints, hblueprints', ?_⟩
    by_cases houtput : c.locations.output.expandHome? homes = none
    · exact .inl ⟨rfl, houtput⟩
    obtain ⟨output, houtput'⟩ := (hanchored _).mpr houtput
    refine .inr ⟨output, houtput', .inl ⟨rfl, ?_⟩⟩
    exact (h.resolve_left hblueprints).resolve_left houtput

/-- Loading breaks down when reading a file that is there does. -/
lemma load_of_decodeFile (present : tree.exists (fileAt base path) = .ok true)
    (h : decodeFile tree (fileAt base path) = .error (.broken breakdown)) :
    load tree environment homes base path = .error (.broken breakdown) :=
  bind_eq_error_iff.mpr (.inl (entriesAt_eq_broken_iff.mpr (.inr ⟨present, h⟩)))

lemma load_of_parse {text : String} (read : tree.readText (fileAt base path) = .ok text)
    (h : parseConfiguration (fileAt base path) text = .error (.broken breakdown)) :
    load tree environment homes base path = .error (.broken breakdown) := by
  obtain ⟨content, hcontent, -⟩ := bind_eq_ok_iff.mp read
  exact load_of_decodeFile (exists_of_read (mapError_eq_ok_iff.mp hcontent))
    (decodeFile_eq_broken_iff.mpr (.inr ⟨text, read, h⟩))

/-- **Loading breaks down** for one of the reasons, and for no other. -/
theorem load_eq_broken_iff :
    load tree environment homes base path = .error (.broken breakdown) ↔
      Breaks tree environment homes base path breakdown := by
  constructor
  · intro h
    rcases bind_eq_error_iff.mp h with hentries | ⟨written, hwritten, h⟩
    · -- the file is not found, has no text, or its text has no document
      rcases entriesAt_eq_broken_iff.mp hentries with ⟨rfl, hlong⟩ | ⟨hpresent, hdecode⟩
      · exact .name hlong
      rcases decodeFile_eq_broken_iff.mp hdecode with hread | ⟨text, htext, hparse⟩
      · obtain ⟨rfl, content, hcontent, hnone⟩ := (readConfiguration_eq_broken_iff hpresent).mp hread
        exact .bytes hcontent hnone
      · rcases parseConfiguration_eq_broken_iff.mp hparse with ⟨hsuffix, hjson⟩ | ⟨hsuffix, hyaml⟩
        · rcases hjson with ⟨rfl, hdeep⟩ | ⟨rfl, hhuge⟩
          · exact .depth htext hsuffix hdeep
          · exact .digits htext hsuffix hhuge
        · obtain ⟨fault, hfault, rfl, hform⟩ := hyaml
          exact .value htext hsuffix hfault hform
    · rcases bind_eq_error_iff.mp h with hoverride | ⟨entries, hentries, h⟩
      · obtain ⟨cause, -, hcause⟩ := mapError_eq_error_iff.mp hoverride
        cases hcause
      rcases bind_eq_error_iff.mp h with hshape | ⟨bare, hbare, hresolved⟩
      · obtain ⟨cause, -, hcause⟩ := mapError_eq_error_iff.mp hshape
        cases hcause
      obtain ⟨hcause, hhomeless⟩ := resolved_eq_error_iff.mp hresolved
      cases hcause
      exact .home (bind_eq_ok_iff.mpr ⟨written, hwritten, hentries⟩) (mapError_eq_ok_iff.mp hbare)
        hhomeless
  · intro h
    cases h with
    | name long =>
      exact bind_eq_error_iff.mpr (.inl (entriesAt_eq_broken_iff.mpr (.inl ⟨rfl, long⟩)))
    | bytes read undecodable =>
      have present := exists_of_read read
      refine load_of_decodeFile present (decodeFile_eq_broken_iff.mpr (.inl ?_))
      exact (readConfiguration_eq_broken_iff present).mpr ⟨rfl, _, read, undecodable⟩
    | depth read suffix deep =>
      exact load_of_parse read (parseConfiguration_eq_broken_iff.mpr
        (.inl ⟨suffix, .inl ⟨rfl, deep⟩⟩))
    | digits read suffix huge =>
      exact load_of_parse read (parseConfiguration_eq_broken_iff.mpr
        (.inl ⟨suffix, .inr ⟨rfl, huge⟩⟩))
    | value read suffix faulty form =>
      exact load_of_parse read (parseConfiguration_eq_broken_iff.mpr
        (.inr ⟨suffix, _, faulty, rfl, form⟩))
    | home found shaped homeless =>
      obtain ⟨written, hwritten, hentries⟩ := bind_eq_ok_iff.mp found
      refine bind_eq_error_iff.mpr (.inr ⟨written, hwritten, ?_⟩)
      refine bind_eq_error_iff.mpr (.inr ⟨_, hentries, ?_⟩)
      refine bind_eq_error_iff.mpr (.inr ⟨_, mapError_eq_ok_iff.mpr shaped, ?_⟩)
      exact resolved_eq_error_iff.mpr ⟨rfl, homeless⟩

/-- **Loading.** There is a configuration with which one can work or a fault that is
foreseen, unless there is a reason for a breakdown. What is loaded is such a configuration in
any case, and loading breaks down for the reasons only. -/
theorem load_outcome (tree : FileTree) (environment : Variables) (homes : Homes) (base : Path)
    (path : Option Path) (absolute : base.isAbsolute = true) :
    (((∃ c, load tree environment homes base path = .ok c ∧ c.IsUsable) ∨
        ∃ cause, load tree environment homes base path = .error (.refused cause)) ↔
      ∀ breakdown, ¬ Breaks tree environment homes base path breakdown) ∧
    (∀ c, load tree environment homes base path = .ok c → c.IsUsable) ∧
    ∀ breakdown, load tree environment homes base path = .error (.broken breakdown) ↔
      Breaks tree environment homes base path breakdown := by
  have husable : ∀ c, load tree environment homes base path = .ok c → c.IsUsable :=
    fun c => isUsable_of_load absolute
  refine ⟨⟨?_, fun calm => ?_⟩, husable, fun breakdown => load_eq_broken_iff⟩
  · intro h breakdown breaks
    have hbroken := load_eq_broken_iff.mpr breaks
    rcases h with ⟨c, hc, -⟩ | ⟨cause, hcause⟩
    · exact absurd (hc.symm.trans hbroken) (by simp)
    · exact absurd (hcause.symm.trans hbroken) (by simp)
  · cases h : load tree environment homes base path with
    | ok c => exact .inl ⟨c, rfl, husable c h⟩
    | error failure =>
      cases failure with
      | refused cause => exact .inr ⟨cause, rfl⟩
      | broken breakdown => exact absurd (load_eq_broken_iff.mp h) (calm breakdown)

/-- Loading without a file. -/
theorem load_outcome_absent :
    (Path.ofText "/work").isAbsolute = true ∧
    (load ⟨[], [], [], 0⟩ [] ⟨"/home/me", []⟩ (.ofText "/work") none).isOk = true ∧
    ∀ c, load ⟨[], [], [], 0⟩ [] ⟨"/home/me", []⟩ (.ofText "/work") none = .ok c → c.IsUsable := by
  have absolute : (Path.ofText "/work").isAbsolute = true := by decide +kernel
  exact ⟨absolute, by decide +kernel,
    (load_outcome ⟨[], [], [], 0⟩ [] ⟨"/home/me", []⟩ (.ofText "/work") none absolute).2.1⟩

/-- A configuration file that is no text breaks the loading down. -/
theorem load_breaks :
    ∃ tree : FileTree, tree.read ((Path.ofText "/work").child "blueprintx.yaml") = .ok [0xff] ∧
      load tree [] ⟨"/home/me", []⟩ (.ofText "/work") none = .error (.broken .undecodable) := by
  let tree : FileTree := ⟨[], [(["work"], .directory), (["work", "blueprintx.yaml"], .file [0xff])],
    [], 0⟩
  have hread : tree.read (fileAt (.ofText "/work") none) = .ok [0xff] := by decide +kernel
  exact ⟨tree, hread, load_eq_broken_iff.mpr (.bytes hread (by decide +kernel))⟩

end Configuration

end Scaffold
