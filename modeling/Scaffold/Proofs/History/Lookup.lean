import Scaffold.Proofs.History.Holdings

/-!
Listing runs and looking them up.

A run is listed under the name in its manifest and looked up by the name of its
directory. What is looked up is therefore always listed, and a listed run is found under
the name of its directory; under the name in its manifest it is found when the two agree,
blanks around it apart.

* `exists_root_of_child`: the directory in which a path ends.
* `run?_eq_some_iff`: what is looked up.
* `mem_runs_iff`: what is listed.
* `runs_lookup`: how listing and looking up agree.
-/

namespace Scaffold

open Files FileTree Text

variable {tree : FileTree} {root path : Path} {goal : Place} {name s : String} {node : Node}
  {store : HistoryStore} {run : Run} {runs : List Run}

/-- A name under which something is found belongs to something in the directory before
it. -/
lemma exists_root_of_child (h : tree.locate true (inside root name) = .ok ⟨goal, some node⟩)
    (dot : name ≠ ".") (up : name ≠ "..") :
    ∃ place, tree.locate true root = .ok ⟨place, some .directory⟩ ∧
      tree.node? (place ++ [name]) ≠ none := by
  obtain ⟨hzero, hleads⟩ := locate_eq_ok_iff.mp h
  obtain ⟨fewer, place, hroot, hname⟩ := hleads.split (by simp : [name] ≠ []) rfl
  have hrootZero : root.holdsZero = false := by
    rw [Path.holdsZero, inside, List.any_append, Bool.or_eq_false_iff] at hzero
    exact hzero.1
  refine ⟨place, locate_eq_ok_iff.mpr ⟨hrootZero, hroot⟩, ?_⟩
  generalize hfound : (⟨goal, some node⟩ : Found) = found at hname
  cases hname with
  | stay => exact absurd rfl dot
  | up => exact absurd rfl up
  | last =>
    rw [Found.mk.injEq] at hfound
    rw [← hfound.2]
    exact Option.some_ne_none node
  | enter _ _ more => exact absurd rfl more
  | jump _ _ link => simp [link]

/-- A run is read from a directory that is there. -/
lemma runAt?_eq_some_iff :
    runAt? tree path = .ok (some run) ↔
      tree.isDirectory path = .ok true ∧ loadRun? tree path = .ok (some run) := by
  simp only [runAt?, bind_eq_ok_iff, mapError_eq_ok_iff]
  constructor
  · rintro ⟨present, hdir, h⟩
    split at h
    · next hpresent => exact ⟨hpresent ▸ hdir, h⟩
    · cases h
  · rintro ⟨hdir, h⟩
    exact ⟨true, hdir, h⟩

lemma path_of_runAt? (h : runAt? tree path = .ok (some run)) : run.path = path :=
  path_of_loadRun? (runAt?_eq_some_iff.mp h).2

/-- A name of a run can stand between slashes and leads nowhere else. -/
lemma isName_of_isName (h : HistoryStore.isName name = true) :
    Path.IsName name ∧ name ≠ ".." := by
  simp only [HistoryStore.isName, Bool.and_eq_true, bne_iff_ne, Bool.not_eq_true',
    List.any_eq_false] at h
  refine ⟨⟨h.1.1.1, h.1.1.2, fun hslash => ?_⟩, h.1.2⟩
  simpa using h.2 '/' hslash

/-- **A run is looked up** in the directory of its name, blanks around it left out. -/
lemma run?_eq_some_iff (h : store.root? = some root) :
    store.run? tree s = .ok (some run) ↔
      HistoryStore.isName (trimmed s) = true ∧
        runAt? tree (inside root (trimmed s)) = .ok (some run) := by
  rw [HistoryStore.run?]
  by_cases hname : HistoryStore.isName (trimmed s) = true
  · have hchild : root.child (trimmed s) = inside root (trimmed s) :=
      Path.child_name (isName_of_isName hname).1 root
    rw [h]
    simp only [hname, Bool.not_true, Bool.false_eq_true, if_false, true_and, hchild]
    rfl
  · simp [hname, pure, Except.pure]

/-- **The runs that are listed** are those in the directories of the root. -/
lemma mem_runs_iff (sound : tree.Sound) (h : store.root? = some root)
    (listed : store.runs tree = .ok runs) :
    run ∈ runs ↔ ∃ place name, tree.locate true root = .ok ⟨place, some .directory⟩ ∧
      tree.node? (place ++ [name]) ≠ none ∧
      runAt? tree (inside root name) = .ok (some run) := by
  rcases (runs_eq_ok_iff h).mp listed with ⟨hdir, rfl⟩ | ⟨hdir, hall, rfl⟩
  · refine iff_of_false (by simp) ?_
    rintro ⟨place, name, hroot, -, -⟩
    rw [isDirectory_of_locate hroot] at hdir
    cases hdir
  · obtain ⟨place, hroot⟩ := isDirectory_eq_true_iff.mp hdir
    obtain ⟨names, hchildren, -, hnames⟩ := exists_children sound place
    have hentries := entriesOf_eq hroot hchildren
    have hperm : (Run.newestFirst tree ((tree.entriesOf root).filterMap (runOf? tree))).Perm
        ((tree.entriesOf root).filterMap (runOf? tree)) := sortBy_perm _
    rw [hperm.mem_iff, List.mem_filterMap, hentries]
    constructor
    · rintro ⟨path, hpath, hrun⟩
      obtain ⟨name, hname, rfl⟩ := List.mem_map.mp hpath
      refine ⟨place, name, hroot, (hnames name).mp hname, ?_⟩
      obtain ⟨found, hfound⟩ := hall (inside root name) (hentries ▸ hpath)
      rw [runOf?, hfound] at hrun
      rw [hfound]
      exact congrArg _ hrun
    · rintro ⟨place', name, hroot', hname, hrun⟩
      rw [hroot, Except.ok.injEq, Found.mk.injEq] at hroot'
      obtain ⟨rfl, -⟩ := hroot'
      refine ⟨_, List.mem_map_of_mem ((hnames name).mpr hname), ?_⟩
      rw [runOf?, hrun]
      rfl

/-- **Listing and looking up agree**: what is looked up is listed, and a listed run is what is
looked up for exactly the texts that are the name of its directory, blanks around them left
out, as long as this name holds no backslash. -/
theorem runs_lookup (sound : tree.Sound) (listed : store.runs tree = .ok runs) :
    (∀ s run, store.run? tree s = .ok (some run) → run ∈ runs) ∧
    ∀ run ∈ runs, ∀ s, store.run? tree s = .ok (some run) ↔
      trimmed s = run.path.name ∧ HistoryStore.isName run.path.name = true := by
  cases hroot : store.root? with
  | none =>
    have hnone : ∀ s run, store.run? tree s ≠ .ok (some run) := by
      intro s run h
      rw [HistoryStore.run?, hroot] at h
      split at h <;> cases h
    rw [HistoryStore.runs, hroot, Except.ok.injEq] at listed
    subst listed
    exact ⟨fun s run h => absurd h (hnone s run), by simp⟩
  | some root =>
    constructor
    · intro s run h
      obtain ⟨hname, hat⟩ := (run?_eq_some_iff hroot).mp h
      obtain ⟨hslash, hup⟩ := isName_of_isName hname
      obtain ⟨goal, hgoal⟩ := isDirectory_eq_true_iff.mp (runAt?_eq_some_iff.mp hat).1
      obtain ⟨place, hplace, hnode⟩ := exists_root_of_child hgoal hslash.2.1 hup
      exact (mem_runs_iff sound hroot listed).mpr ⟨place, trimmed s, hplace, hnode, hat⟩
    · intro run hrun s
      obtain ⟨place, name, -, -, hat⟩ := (mem_runs_iff sound hroot listed).mp hrun
      have hpath := path_of_runAt? hat
      rw [run?_eq_some_iff hroot, hpath, name_inside]
      constructor
      · rintro ⟨hname, hat'⟩
        rw [path_of_runAt? hat'] at hpath
        obtain rfl : trimmed s = name := by rw [← name_inside root (trimmed s), hpath, name_inside]
        exact ⟨rfl, hname⟩
      · rintro ⟨rfl, hname⟩
        exact ⟨hname, hat⟩

/-- A store with one run, whose manifest has a name of its own. -/
def oneRun (directory id : String) : FileTree :=
  ⟨[], [(["h"], .directory), (["h", directory], .directory),
    (["h", directory, "manifest.json"],
      .file (Utf8.encode ("\x7b\"id\":\"" ++ id ++ "\"\x7d")))], [], 0⟩

/-- The run of the store, listed under the name in its manifest. -/
lemma exists_runs_oneRun : ∃ run, (HistoryStore.mk "/h" true).runs (oneRun "a" "b") = .ok [run] ∧
    run.id = "b" ∧ run.path = ⟨"/", ["h", "a"]⟩ := by
  have hview : ((HistoryStore.mk "/h" true).runs (oneRun "a" "b")).toOption.map
      (·.map fun run => (run.id, run.path)) = some [("b", ⟨"/", ["h", "a"]⟩)] := by
    decide +kernel
  obtain ⟨runs, hruns, hmap⟩ := Option.map_eq_some_iff.mp hview
  obtain ⟨run, rfl, heq⟩ := List.map_eq_singleton_iff.mp hmap
  exact ⟨run, toOption_eq_some_iff.mp hruns, (Prod.mk.inj heq).1, (Prod.mk.inj heq).2⟩

theorem runs_lookup_oneRun :
    (oneRun "a" "b").Sound ∧ ∃ run, (HistoryStore.mk "/h" true).runs (oneRun "a" "b") = .ok [run] ∧
      (HistoryStore.mk "/h" true).run? (oneRun "a" "b") " a" = .ok (some run) := by
  have sound : (oneRun "a" "b").Sound := by decide +kernel
  obtain ⟨run, hruns, -, hpath⟩ := exists_runs_oneRun
  refine ⟨sound, run, hruns, ((runs_lookup sound hruns).2 run (by simp) " a").mpr ?_⟩
  rw [hpath]
  decide +kernel

/-- A run in a directory that has another name is listed under its own name, under which
nothing is looked up. -/
theorem runs_lookup_renamed :
    (oneRun "a" "b").Sound ∧ ∃ run, (HistoryStore.mk "/h" true).runs (oneRun "a" "b") = .ok [run] ∧
      run.id = "b" ∧ (HistoryStore.mk "/h" true).run? (oneRun "a" "b") run.id = .ok none := by
  obtain ⟨run, hruns, hid, -⟩ := exists_runs_oneRun
  refine ⟨by decide +kernel, run, hruns, hid, ?_⟩
  rw [hid]
  rfl

end Scaffold
