import Scaffold.Commands.Workbench
import Scaffold.Generation.Pipeline
import Scaffold.Proofs.Files.PathText
import Scaffold.Proofs.Generation.Reports
import Scaffold.Proofs.History.ManifestText

/-!
What a workbench comes with.

A configuration that has been loaded has paths that can be read again and a default
architecture with layers. All generators are the one that is built in, so the files of a
blueprint are its snapshot.

* `IsWritten.expandHome?`, `Configuration.output_isWritten`: the output root.
* `Configuration.default_mem_of_load`, `Configuration.available_ne_nil`: the default
  architecture is there.
* `Generator.eq_snapshot_of_loadAll`, `path_of_isGenerated`: all generated files are
  snapshots.
-/

namespace Scaffold

open Files Shape

variable {tree : FileTree} {environment : Variables} {homes : Homes} {base : Path}
  {file : Option Path} {c : Configuration}

/-! ### Paths -/

lemma Files.Path.IsWritten.expandHome? {path expanded : Path} (h : path.IsWritten)
    (expand : path.expandHome? homes = some expanded) : expanded.IsWritten := by
  rw [Path.expandHome?] at expand
  split at expand
  · next first rest _ hnames =>
    have hrest : ∀ name ∈ rest, Path.IsName name := fun name hname =>
      h.names name (by simp [hnames, hname])
    split_ifs at expand
    · split at expand
      · cases expand
      · next home _ =>
        split_ifs at expand
        · cases expand
          exact ⟨.inr (.inl rfl), hrest⟩
        · cases expand
          have hhome := Path.ofText_isWritten home
          refine ⟨hhome.anchor, fun name hname => ?_⟩
          exact (List.mem_append.mp hname).elim (hhome.names name) (hrest name)
    · cases expand
      exact h
  · cases expand
    exact h

lemma anchored_isWritten {path found : Path} (hbase : base.IsWritten) (h : path.IsWritten)
    (hanchored : anchored homes base path = .ok found) : found.IsWritten := by
  rw [anchored] at hanchored
  split at hanchored
  · next expanded hexpand =>
    cases hanchored
    exact hbase.join (h.expandHome? hexpand)
  · cases hanchored

/-! ### Records -/

lemma strictRecord_eq_ok_iff {α : Type} {name : String} {known : List String} {reading : Reading α}
    {d : Document} {a : α} : strictRecord name known reading d = .ok a ↔
      ∃ entries, d = .mapping entries ∧ unknownMembers known entries = [] ∧
        reading entries = .ok a := by
  cases d with
  | mapping entries => cases h : unknownMembers known entries <;> simp [strictRecord, h]
  | _ => simp [strictRecord, Checked.refuse]

/-- A member is its own value, or what stands for an absent one. -/
lemma defaulted_eq_ok {α : Type} {name : String} {decode : Decoder α} {absent a : α}
    {entries : List (Document × Document)} (h : defaulted name decode absent entries = .ok a) :
    a = absent ∨ ∃ d, decode d = .ok a := by
  rw [defaulted] at h
  split at h
  · exact .inr ⟨_, within_eq_ok_iff.mp h⟩
  · exact .inl (Except.ok.inj h).symm

/-! ### Configurations -/

lemma Locations.output_isWritten {d : Document} {l : Locations} (h : decode d = .ok l) :
    l.output.IsWritten := by
  obtain ⟨entries, -, -, hreading⟩ := strictRecord_eq_ok_iff.mp h
  simp only [apply_eq_ok_iff] at hreading
  obtain ⟨_, _, ⟨_, _, hdone, -, rfl⟩, -, rfl⟩ := hreading
  cases hdone
  exact Path.ofText_isWritten _

namespace Configuration

/-- A configuration that has been loaded stands in a document, and its paths are seen from
the base. -/
lemma exists_of_load (h : load tree environment homes base file = .ok c) :
    ∃ bare d, decode d = .ok bare ∧
      (bare.architectures.lookup bare.defaultArchitecture).isSome = true ∧
      bare.resolved homes base = .ok c := by
  simp only [load, bind_eq_ok_iff] at h
  obtain ⟨_, -, entries, -, bare, hbare, hresolved⟩ := h
  have hfound := mapError_eq_ok_iff.mp hbare
  simp only [Configuration.ofEntries, bind_eq_ok_iff] at hfound
  obtain ⟨found, hfound, hknown⟩ := hfound
  split_ifs at hknown with hdefault
  cases hknown
  exact ⟨bare, _, mapError_eq_ok_iff.mp hfound, hdefault, hresolved⟩

/-- The output root can be read again. -/
lemma output_isWritten (hbase : base.IsWritten)
    (h : load tree environment homes base file = .ok c) : c.locations.output.IsWritten := by
  obtain ⟨bare, d, hdecode, -, hresolved⟩ := exists_of_load h
  simp only [resolved, bind_eq_ok_iff] at hresolved
  obtain ⟨blueprints, -, output, houtput, history, -, hc⟩ := hresolved
  cases hc
  refine anchored_isWritten hbase ?_ houtput
  obtain ⟨entries, -, -, hreading⟩ := strictRecord_eq_ok_iff.mp hdecode
  simp only [apply_eq_ok_iff] at hreading
  obtain ⟨_, _, ⟨_, _, ⟨_, _, ⟨_, _, ⟨_, _, ⟨_, locations, hdone, hlocations, rfl⟩, -, rfl⟩, -,
    rfl⟩, -, rfl⟩, -, rfl⟩, -, rfl⟩ := hreading
  cases hdone
  rcases defaulted_eq_ok hlocations with rfl | ⟨d, hd⟩
  · exact Path.ofText_isWritten _
  · exact Locations.output_isWritten hd

/-- The default architecture of a configuration that has been loaded is there. -/
lemma default_mem_of_load (h : load tree environment homes base file = .ok c) :
    c.defaultArchitecture ∈ c.architectures.map (·.1) := by
  obtain ⟨bare, d, -, hknown, hresolved⟩ := exists_of_load h
  simp only [resolved, bind_eq_ok_iff] at hresolved
  obtain ⟨_, -, _, -, _, -, hc⟩ := hresolved
  cases hc
  obtain ⟨l, hl⟩ := Option.isSome_iff_exists.mp hknown
  exact List.mem_map_of_mem (mem_of_lookup hl)

lemma available_drivers (c : Configuration) : c.drivers.available = c.architectures.map (·.1) := by
  simp [drivers, Architectures.available]

/-- There is an architecture. -/
lemma available_ne_nil (h : load tree environment homes base file = .ok c) :
    c.drivers.available ≠ [] := by
  rw [available_drivers]
  exact List.ne_nil_of_mem (default_mem_of_load h)

end Configuration

/-! ### Generators -/

/-- There is no other generator than the one that is built in. -/
lemma Generator.eq_snapshot_of_loadAll {names : List (String × String)} {gs : List Generator}
    (h : loadAll names = .ok gs) : ∀ g ∈ gs, g = snapshot := by
  have hload : ∀ name g, load name = .ok g → g = snapshot := by
    intro name g hname
    simp only [load] at hname
    split_ifs at hname
    split at hname
    · cases hname
    · cases hname
    · next generator hlookup =>
      cases hname
      rw [builtIn] at hlookup
      simp only [List.lookup_cons] at hlookup
      split at hlookup
      · simpa using hlookup.symm
      · split at hlookup
        · simp at hlookup
        · split at hlookup <;> simp at hlookup
  induction names generalizing gs with
  | nil =>
    cases h
    simp
  | cons entry names ih =>
    obtain ⟨layer, name⟩ := entry
    rw [loadAll, bind_eq_ok_iff] at h
    obtain ⟨g, hg, h⟩ := h
    split_ifs at h
    obtain ⟨rest, hrest, h⟩ := bind_eq_ok_iff.mp h
    cases h
    intro other hother
    rcases List.mem_cons.mp hother with rfl | hother
    · exact hload name other hg
    · exact ih hrest other hother

lemma Generators.mem_of_mem_ofList {gs : List Generator} {entry : String × Generator}
    (h : entry ∈ ofList gs) : entry.2 ∈ gs := by
  have hfold : ∀ (gs : List Generator) (registry : Generators), entry ∈ gs.foldl register registry →
      entry.2 ∈ gs ∨ entry ∈ registry := by
    intro gs
    induction gs with
    | nil => exact fun _ h => .inr h
    | cons g gs ih =>
      intro registry h
      rcases ih _ h with h | h
      · exact .inl (List.mem_cons_of_mem _ h)
      · exact (mem_putEntry h).imp (fun h => by simp [h]) id
  exact (hfold gs [] h).resolve_right (by simp)

/-- **All generated files are snapshots.** -/
lemma Pipeline.path_of_isGenerated {gs : List Generator} (all : ∀ g ∈ gs, g = Generator.snapshot)
    {b : Blueprint} {file : GeneratedFile} (h : IsGenerated (.ofList gs) b file) :
    file.path = snapshotPath b := by
  obtain ⟨layer, g, a, options, generated, hserving, hgenerate, hfile⟩ := h
  obtain ⟨before, after, heq, -⟩ := List.lookup_eq_some_iff.mp hserving
  have hentry : (Text.lowered layer, g) ∈ Generators.ofList gs := by simp [heq]
  rw [all g (Generators.mem_of_mem_ofList hentry), Generator.snapshot] at hgenerate
  obtain ⟨contents, -, h⟩ := bind_eq_ok_iff.mp hgenerate
  cases h
  simpa using congrArg GeneratedFile.path (List.mem_singleton.mp hfile)

end Scaffold
