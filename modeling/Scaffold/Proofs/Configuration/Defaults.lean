import Scaffold.Proofs.Blueprint.Normalizing
import Scaffold.Proofs.Validation.Places

/-!
The architecture of a blueprint that names none.

Loading a configuration looks the default architecture up as it is written; shaping a
blueprint trims it first. So a blueprint that names no architecture gets one with which it can
be worked exactly if the trimmed name is configured, which loading promises for a name without
blanks at its ends only.

* `Configuration.Serves`: an architecture is accepted and found.
* `Configuration.serves_default` (**the default architecture**): when it serves.
* `Configuration.padded_default`: a configuration whose default does not.
-/

namespace Scaffold

open Files Shape Text Checked

namespace Configuration

variable {tree tree' : FileTree} {environment : Variables} {homes : Homes} {base : Path}
  {file : Option Path} {c : Configuration} {entries : List (Document × Document)}
  {source : String} {b : Blueprint}

/-- A blueprint has an architecture with which it can be worked. -/
structure Serves (c : Configuration) (b : Blueprint) : Prop where
  /-- Nothing is wrong with the name. -/
  accepted : architectureViolations c.drivers.available b.architecture = []
  /-- No finding about the structure of the blueprint is about it. -/
  unfaulted : ∀ found, checkStructure c.drivers.available b = .ok found →
    ∀ f ∈ found.errors, f.path ≠ some "architecture"
  /-- There are layers of that name. -/
  resolved : ∃ a, c.drivers.resolve b.architecture = .ok a ∧ a.name = b.architecture

/-- An architecture is registered under the name that it has. -/
lemma lookup_drivers (c : Configuration) (name : String) :
    c.drivers.lookup name =
      (c.architectures.lookup name).map fun l => ⟨name, l.layers, l.metadata⟩ := by
  rw [drivers]
  induction c.architectures with
  | nil => rfl
  | cons entry rest ih =>
    rw [List.map_cons, List.lookup_cons, List.lookup_cons, ih]
    by_cases heq : name = entry.1
    · simp [heq]
    · simp [beq_eq_false_iff_ne.mpr heq]

lemma resolve_of_mem {name : String} (h : name ∈ c.architectures.map (·.1)) :
    ∃ a, c.drivers.resolve name = .ok a ∧ a.name = name := by
  obtain ⟨entry, hentry, hname⟩ := List.mem_map.mp h
  obtain ⟨l, hl⟩ : ∃ l, c.architectures.lookup name = some l := by
    rw [← Option.isSome_iff_exists, List.lookup_isSome_iff]
    exact ⟨entry, hentry, beq_iff_eq.mpr hname.symm⟩
  exact ⟨_, by rw [Architectures.resolve, lookup_drivers, hl]; rfl, rfl⟩

/-- The architecture of a blueprint serves exactly if it is configured. -/
lemma serves_iff (ne : c.drivers.available ≠ []) :
    c.Serves b ↔ b.architecture ∈ c.architectures.map (·.1) := by
  have haccepted : architectureViolations c.drivers.available b.architecture = [] ↔
      b.architecture ∈ c.architectures.map (·.1) := by
    rw [architectureViolations_eq_nil_iff ne, available_drivers]
  constructor
  · intro h
    exact haccepted.mp h.accepted
  · intro h
    exact {
      accepted := haccepted.mpr h
      unfaulted := fun found hfound =>
        path_of_checkStructure hfound (by simp [nameRules]) (haccepted.mpr h)
      resolved := resolve_of_mem h }

/-- **The default architecture** of a configuration that has been loaded: a blueprint that names
no architecture gets the trimmed default, and it serves exactly if the configuration has layers
under the trimmed name. A default without blanks at its ends serves always. -/
theorem serves_default (loaded : load tree environment homes base file = .ok c)
    (unnamed : Normalize.filled? (Document.lookup "architecture" entries) = none)
    (normal : normalize tree' c.settings (.mapping entries) source = .ok b) :
    b.architecture = trimmed c.defaultArchitecture ∧
    (c.Serves b ↔ trimmed c.defaultArchitecture ∈ c.architectures.map (·.1)) ∧
    (trimmed c.defaultArchitecture = c.defaultArchitecture → c.Serves b) := by
  have hname : b.architecture = trimmed c.defaultArchitecture := by
    obtain ⟨-, -, h⟩ := Normalize.names_of_normalize normal
    rw [unnamed] at h
    exact h
  have hserves : c.Serves b ↔ trimmed c.defaultArchitecture ∈ c.architectures.map (·.1) := by
    rw [serves_iff (available_ne_nil loaded), hname]
  refine ⟨hname, hserves, fun htrimmed => hserves.mpr ?_⟩
  rw [htrimmed]
  exact default_mem_of_load loaded

/-- The default architecture serves an employee where nothing is configured. -/
theorem serves_default_standard :
    ∃ c entries b, load ⟨[], [], [], 0⟩ [] ⟨"/home/me", []⟩ (.ofText "/work") none = .ok c ∧
      employeeDocument = .mapping entries ∧
      Normalize.filled? (Document.lookup "architecture" entries) = none ∧
      normalize ⟨[], [], [], 0⟩ c.settings (.mapping entries) "employee.yaml" = .ok b ∧
      b.architecture = trimmed c.defaultArchitecture ∧
      trimmed c.defaultArchitecture = c.defaultArchitecture ∧ c.Serves b := by
  have hrun : ((load ⟨[], [], [], 0⟩ [] ⟨"/home/me", []⟩ (.ofText "/work") none).toOption.bind
      fun c => (normalize ⟨[], [], [], 0⟩ c.settings employeeDocument "employee.yaml").toOption.map
        fun _ => c.defaultArchitecture) = some "hexagonal" := by
    decide +kernel
  obtain ⟨c, hc, hrun⟩ := Option.bind_eq_some_iff.mp hrun
  obtain ⟨b, hb, hdefault⟩ := Option.map_eq_some_iff.mp hrun
  have loaded := toOption_eq_some_iff.mp hc
  have normal := toOption_eq_some_iff.mp hb
  have htrimmed : trimmed c.defaultArchitecture = c.defaultArchitecture := by
    rw [hdefault]
    decide +kernel
  obtain ⟨hname, -, hserves⟩ := serves_default loaded rfl normal
  exact ⟨c, _, b, loaded, rfl, rfl, normal, hname, htrimmed, hserves htrimmed⟩

/-- A configuration file in which the name of the only architecture has blanks at its ends. -/
def paddedConfiguration : String :=
  "\x7b\"default_architecture\": \" hex \", \"architectures\": "
    ++ "\x7b\" hex \": \x7b\"layers\": [\"snapshot\"]\x7d\x7d\x7d"

/-- A directory with that file. -/
def paddedTree : FileTree :=
  ⟨[], [(["work"], .directory),
    (["work", "blueprintx.json"], .file (Utf8.encode paddedConfiguration))], [], 0⟩

/-- A default architecture with blanks at its ends is configured as it is written, so the
configuration is loaded; a blueprint that names none gets the trimmed name, for which there are
no layers. -/
theorem padded_default :
    ∃ c entries b, load paddedTree [] ⟨"/home/me", []⟩ (.ofText "/work")
        (some (.ofText "/work/blueprintx.json")) = .ok c ∧
      employeeDocument = .mapping entries ∧
      Normalize.filled? (Document.lookup "architecture" entries) = none ∧
      normalize paddedTree c.settings (.mapping entries) "/work/blueprints/employee.yaml" = .ok b ∧
      c.defaultArchitecture ∈ c.architectures.map (·.1) ∧ ¬ c.Serves b ∧
      architectureViolations c.drivers.available b.architecture ≠ [] ∧
      c.drivers.resolve b.architecture = .error ⟨"hex", [" hex "]⟩ := by
  have hrun : ((load paddedTree [] ⟨"/home/me", []⟩ (.ofText "/work")
      (some (.ofText "/work/blueprintx.json"))).toOption.bind fun c =>
        (normalize paddedTree c.settings employeeDocument
          "/work/blueprints/employee.yaml").toOption.map fun b =>
        (c.architectures.map (·.1), b.architecture)) = some ([" hex "], "hex") := by
    decide +kernel
  obtain ⟨c, hc, hrun⟩ := Option.bind_eq_some_iff.mp hrun
  obtain ⟨b, hb, hnames⟩ := Option.map_eq_some_iff.mp hrun
  have loaded := toOption_eq_some_iff.mp hc
  obtain ⟨hconfigured, harchitecture⟩ := Prod.mk.inj hnames
  have hmissing : b.architecture ∉ c.architectures.map (·.1) := by
    rw [hconfigured, harchitecture]
    decide +kernel
  have hne := available_ne_nil loaded
  have hlookup : c.drivers.lookup b.architecture = none := by
    rw [List.lookup_eq_none_iff]
    intro entry hentry
    have hmem : entry.1 ∈ c.architectures.map (·.1) := by
      rw [← available_drivers]
      exact List.mem_map_of_mem hentry
    refine bne_iff_ne.mpr fun heq => hmissing ?_
    rw [heq]
    exact hmem
  refine ⟨c, _, b, loaded, rfl, rfl, toOption_eq_some_iff.mp hb, default_mem_of_load loaded,
    fun h => hmissing ((serves_iff hne).mp h), fun h => hmissing ?_, ?_⟩
  · rw [← available_drivers]
    exact (architectureViolations_eq_nil_iff hne).mp h
  · rw [Architectures.resolve, hlookup, available_drivers, hconfigured, harchitecture]

end Configuration

end Scaffold
