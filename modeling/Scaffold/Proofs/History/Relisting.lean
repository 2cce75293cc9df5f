import Scaffold.Proofs.Files.Faults
import Scaffold.Proofs.History.Lookup
import Scaffold.Proofs.History.NewestFirst
import Scaffold.Proofs.History.Touching

/-!
A store that is left alone lists the same runs.

What a store lists depends on what is inside its root: the directories of the runs, in their
order, their manifests and their times. Whoever leaves this as it is, and neither makes the
root appear nor lets a listing come further than before, changes no list, no selection and no
plan.

* `isDirectory_eq_false`: a path beyond something that is no directory denotes none.
* `HistoryStore.IsSettled`: a root that stays where it is, or is not there and does not appear.
* `HistoryStore.AnswersAlike`: the same lists, the same selections and the same plans.
* `LeftAlone`: trees with the same things inside a directory.
* `LeftAlone.runs_eq`, `LeftAlone.newestFirst`: what follows for a root that is there;
  `runs_of_missing`: for one that is not.
* `LeftAlone.answersAlike_of_isSettled`: what follows for a store.
-/

namespace Scaffold

open Files FileTree Text

variable {tree after : FileTree} {root path : Path} {top place : Place} {name temporary : String}
  {store : HistoryStore} {run : Run} {runs : List Run}

/-! ### What is no directory -/

namespace Files.FileTree

variable {follow : Bool} {names more : List String}
  {jump : Place → List String → Except Fault Found}

/-- A walk that fails at a name that is too long has come to a directory before it. -/
lemma directory_of_walkBy (noLinks : tree.NoLinks) (short : ∀ name ∈ names, tooLong name = false)
    (h : tree.walkBy follow jump place (names ++ more) = .error .nameTooLong) :
    tree.node? (along place names) = some .directory := by
  have hfirst : ∀ {place names}, tree.walkBy follow jump place names = .error .nameTooLong →
      tree.node? place = some .directory := by
    intro place names h
    cases names with
    | nil => cases h
    | cons name names =>
      rw [walkBy] at h
      split at h <;> first | assumption | cases h
  induction names generalizing place with
  | nil => exact hfirst h
  | cons name names ih =>
    have hrest : ∀ name ∈ names, tooLong name = false := fun other hother =>
      short other (List.mem_cons_of_mem _ hother)
    have hdir := hfirst h
    rw [List.cons_append, walkBy, hdir] at h
    simp only [short name List.mem_cons_self, Bool.false_eq_true, if_false] at h
    by_cases hdot : name = "."
    · rw [if_pos hdot] at h
      rw [hdot, along_dot]
      exact ih hrest h
    by_cases hup : name = ".."
    · rw [if_neg hdot, if_pos hup] at h
      rw [hup, along_up]
      exact ih hrest h
    rw [if_neg hdot, if_neg hup] at h
    rw [along_plain hdot hup]
    cases hnode : tree.node? (place ++ [name]) with
    | none =>
      simp only [hnode] at h
      split at h <;> cases h
    | some node =>
      cases node with
      | link target => exact absurd hnode (noLinks _ _)
      | file contents | directory =>
        simp only [hnode] at h
        split at h
        · cases h
        · exact ih hrest h

/-- **Beyond something that is no directory** a path denotes none. -/
lemma isDirectory_eq_false (noLinks : tree.NoLinks)
    (short : ∀ name ∈ path.names, tooLong name = false)
    (away : tree.node? (tree.goal path) ≠ some .directory) (more : List String) :
    tree.isDirectory ⟨path.anchor, path.names ++ more⟩ = .ok false := by
  cases hdir : tree.isDirectory ⟨path.anchor, path.names ++ more⟩ with
  | ok present =>
    cases present with
    | false => rfl
    | true =>
      obtain ⟨place, hlocate⟩ := isDirectory_eq_true_iff.mp hdir
      obtain ⟨-, hleads⟩ := locate_eq_ok_iff.mp hlocate
      refine absurd ?_ away
      by_cases hmore : more = []
      · have hplace : place = tree.goal path := by
          rw [hmore, List.append_nil] at hlocate
          exact place_of_locate noLinks hlocate
        exact hplace ▸ node?_of_locate hlocate
      · obtain ⟨fewer, directory, hfirst, -⟩ := hleads.split hmore rfl
        have hplace : directory = tree.goal path := place_of_leads noLinks hfirst
        exact hplace ▸ hfirst.node_eq.symm
  | error fault =>
    obtain ⟨-, hstat⟩ := holds_eq_error_iff.mp hdir
    have hlocate := (stat_eq_error_iff_of_ne (by simp)).mp hstat
    rw [locate] at hlocate
    split at hlocate
    · cases hlocate
    · obtain ⟨jump, hwalk, -⟩ := @walk_eq_walkBy tree true linkLimit
      rw [hwalk] at hlocate
      exact absurd (directory_of_walkBy noLinks short hlocate) away

end Files.FileTree

/-- The root of a store is there; or what it would be is no directory, and it has no name that
is too long. -/
def HistoryStore.IsSettled (store : HistoryStore) (tree : FileTree) : Prop :=
  ∀ root ∈ store.root?, tree.isDirectory root = .ok true ∨
    (∀ name ∈ root.names, tooLong name = false) ∧ tree.node? (tree.goal root) ≠ some .directory

/-! ### Single runs -/

/-- A run is looked up by reading the directory of its name. -/
lemma run?_eq (enabled : store.root? = some root) (tree : FileTree) (s : String) :
    store.run? tree s =
      if HistoryStore.isName (trimmed s) then runAt? tree (inside root (trimmed s))
      else .ok none := by
  rw [HistoryStore.run?]
  by_cases hname : HistoryStore.isName (trimmed s) = true
  · simp only [hname, enabled, Bool.not_true, Bool.false_eq_true, if_false, if_true]
    rw [Path.child_name (isName_of_isName hname).1]
    rfl
  · simp only [hname, Bool.not_false, if_true, Bool.false_eq_true, if_false]
    rfl

/-- The runs in a root that is there. -/
lemma runs_of_isDirectory (enabled : store.root? = some root)
    (present : tree.isDirectory root = .ok true) :
    store.runs tree =
      (HistoryStore.runsAmong tree (tree.entriesOf root)).map (Run.newestFirst tree) := by
  rw [HistoryStore.runs, enabled]
  simp only [present, bind, Except.bind, Except.mapError, if_true]
  cases HistoryStore.runsAmong tree (tree.entriesOf root) <;> rfl

/-- Runs in directories of the root. -/
def AreInside (root : Path) (runs : List Run) : Prop :=
  ∀ run ∈ runs, ∃ name, name ≠ "." ∧ name ≠ ".." ∧ run.path = inside root name

/-! ### Answers of a store -/

/-- A store gives the same answers in two trees. -/
structure HistoryStore.AnswersAlike (store : HistoryStore) (tree after : FileTree) : Prop where
  /-- The same runs are listed. -/
  listed : store.runs after = store.runs tree
  /-- The same are looked up. -/
  found : ∀ s, store.run? after s = store.run? tree s
  /-- Those that are listed are put in the same order. -/
  order : ∀ all, store.runs tree = .ok all → ∀ runs, runs ⊆ all →
    Run.newestFirst after runs = Run.newestFirst tree runs

namespace HistoryStore.AnswersAlike

/-- The same runs are selected. -/
lemma select_eq (h : store.AnswersAlike tree after) (name execution : Option String)
    (latestOnly : Bool) :
    store.select after name execution latestOnly = store.select tree name execution latestOnly := by
  rw [HistoryStore.select, HistoryStore.select, h.listed]
  cases filledText name with
  | none => rfl
  | some name => simp only [h.found]

/-- The same plan is made for what is selected. -/
lemma planUndo_eq (h : store.AnswersAlike tree after) {name execution : Option String}
    {latestOnly : Bool} (selected : store.select tree name execution latestOnly = .ok runs) :
    planUndo after runs = planUndo tree runs := by
  -- runs that are selected by a name need not be listed, but there is one at most
  have hsingle : runs.length ≤ 1 → Run.newestFirst after runs = Run.newestFirst tree runs := by
    intro hshort
    rcases runs with - | ⟨run, - | ⟨other, runs⟩⟩
    · rfl
    · rfl
    · simp at hshort
  have horder : Run.newestFirst after runs = Run.newestFirst tree runs := by
    cases hlisted : store.runs tree with
    | ok all =>
      rcases subset_of_select hlisted selected with ⟨run, rfl⟩ | hsub
      · exact hsingle (by simp)
      · exact h.order all hlisted runs hsub.subset
    | error breakdown =>
      rw [HistoryStore.select] at selected
      split at selected
      · obtain ⟨found, -, rfl⟩ := map_eq_ok_iff.mp selected
        exact hsingle (by cases found <;> simp)
      · simp only [hlisted, bind, Except.bind] at selected
        cases selected
  rw [planUndo, planUndo, horder]

/-- A store that is empty in both trees. -/
lemma of_empty (listed : store.runs tree = .ok []) (listed' : store.runs after = .ok [])
    (found : ∀ s, store.run? tree s = .ok none) (found' : ∀ s, store.run? after s = .ok none) :
    store.AnswersAlike tree after := by
  refine ⟨listed'.trans listed.symm, fun s => (found' s).trans (found s).symm, ?_⟩
  intro all hall runs hsub
  obtain rfl : all = [] := Except.ok.inj (hall.symm.trans listed)
  rw [List.subset_nil.mp hsub]
  rfl

/-- A store that is not kept. -/
lemma of_disabled (disabled : store.root? = none) (tree after : FileTree) :
    store.AnswersAlike tree after := by
  have hruns : ∀ tree, store.runs tree = .ok [] := fun tree => by
    rw [HistoryStore.runs, disabled]
  have hrun : ∀ tree s, store.run? tree s = .ok none := fun tree s => by
    rw [HistoryStore.run?, disabled]
    split <;> rfl
  exact of_empty (hruns tree) (hruns after) (hrun tree) (hrun after)

end HistoryStore.AnswersAlike

/-! ### What is inside the root -/

/-- Two trees have the same things inside a directory. -/
structure LeftAlone (top : Place) (temporary : String) (tree after : FileTree) : Prop where
  /-- The first has no links. -/
  noLinks : tree.NoLinks
  /-- Every name in it is one that a directory can hold. -/
  named : tree.Named
  /-- Everything in it lies in a directory. -/
  sound : tree.Sound
  /-- The name of temporary files is not in the first. -/
  before : ∀ p, tree.node? p ≠ none → temporary ∉ p
  /-- Nor in the second. -/
  later : ∀ p, after.node? p ≠ none → temporary ∉ p
  /-- Directories are kept. -/
  keeps : Keeps tree after
  /-- The nodes in the directory are the same. -/
  node : ∀ p, top <+: p → after.node? p = tree.node? p
  /-- What is inside the directory has the same times and stands in the same order. -/
  sameOn : SameOn (inner top temporary) tree after

namespace LeftAlone

section Located

variable (h : LeftAlone top temporary tree after)
  (located : tree.locate true root = .ok ⟨top, some .directory⟩)

include h located

lemma located_after : after.locate true root = .ok ⟨top, some .directory⟩ := by
  have hlocate := h.keeps.locate located
  rwa [h.keeps.directory top (node?_of_locate located)] at hlocate

/-- A path into the directory finds the same in both trees. -/
lemma locate {names : List String} (some_ : names ≠ []) (plain : ".." ∉ names) (follow : Bool) :
    after.locate follow ⟨root.anchor, root.names ++ names⟩ =
      tree.locate follow ⟨root.anchor, root.names ++ names⟩ := by
  obtain ⟨fewer, hfewer⟩ := (locate_eq_ok_iff.mp located).2.walk_append rfl
  obtain ⟨fewer', hfewer'⟩ :=
    (locate_eq_ok_iff.mp (h.located_after located)).2.walk_append rfl
  have hstart : ∀ tree : FileTree, tree.start ⟨root.anchor, root.names ++ names⟩ =
      tree.start root := fun _ => rfl
  obtain ⟨jump, hjump, -⟩ := @walk_eq_walkBy tree follow fewer
  obtain ⟨jump', hjump', -⟩ := @walk_eq_walkBy after follow fewer'
  rw [FileTree.locate, FileTree.locate, hstart, hstart, hfewer follow names some_,
    hfewer' follow names some_, hjump, hjump', walkBy_congr h.node h.noLinks (List.prefix_refl top)
      fun hup => absurd hup plain]

/-- The run in a directory is the same. -/
lemma runAt? (ne : name ≠ "..") :
    Scaffold.runAt? after (inside root name) = Scaffold.runAt? tree (inside root name) := by
  have hplace := h.locate located (List.cons_ne_nil name []) (by simpa using ne.symm) true
  have hmanifest := h.locate located (List.cons_ne_nil name [Manifest.fileName])
    (by simpa using ⟨ne.symm, by decide⟩) true
  have hchild : (inside root name).child Manifest.fileName =
      ⟨root.anchor, root.names ++ [name, Manifest.fileName]⟩ := by
    rw [Path.child_name fileName_isName, inside, List.append_assoc]
    rfl
  have hdir : after.isDirectory (inside root name) = tree.isDirectory (inside root name) := by
    rw [isDirectory, isDirectory, holds, holds, stat, stat, inside, hplace]
  have hload : loadRun? after (inside root name) = loadRun? tree (inside root name) := by
    rw [loadRun?, loadRun?, hchild, FileTree.read, FileTree.read, stat, stat, hmanifest]
  rw [Scaffold.runAt?, Scaffold.runAt?, hdir, hload]

/-- Its directory has the same time. -/
lemma time? (dot : name ≠ ".") (up : name ≠ "..") (hpath : run.path = inside root name) :
    Run.time? after run = Run.time? tree run := by
  have hplace := h.locate located (List.cons_ne_nil name []) (by simpa using up.symm) true
  rw [Run.time?, Run.time?, hpath, inside, hplace]
  split
  · next place node hfound =>
    have htop : top = tree.goal root := place_of_locate h.noLinks located
    have hgoal : place = top ++ [name] := by
      have hplace : place = tree.goal ⟨root.anchor, root.names ++ [name]⟩ :=
        place_of_locate h.noLinks hfound
      rw [hplace, goal, along_append, along_plain dot up, along_nil, htop]
      rfl
    have hnode := node?_of_locate hfound
    rw [h.sameOn.times]
    rw [inner_eq_true_iff, hgoal]
    refine ⟨List.prefix_append _ _, by simp, ?_⟩
    rw [← hgoal]
    exact h.before place (by simp [hnode])
  · rfl

/-- The directories in the root are the same, in the same order. -/
lemma children : after.children top = tree.children top := by
  have hinner : ∀ t : FileTree, (∀ p, t.node? p ≠ none → temporary ∉ p) → t.children top =
      ((t.nodes.filter fun entry => inner top temporary entry.1).map (·.1)).filter fun p =>
        !p.isEmpty && p.dropLast = top := by
    intro t unheard
    have hmap : (t.nodes.filter fun entry => inner top temporary entry.1).map (·.1) =
        (t.nodes.map (·.1)).filter (inner top temporary) := by
      rw [List.filter_map]
      rfl
    rw [FileTree.children, hmap, List.filter_filter]
    refine List.filter_congr fun p hp => ?_
    by_cases hchild : (!p.isEmpty && decide (p.dropLast = top)) = true
    · simp only [Bool.and_eq_true, Bool.not_eq_true', List.isEmpty_eq_false_iff,
        decide_eq_true_eq] at hchild
      obtain ⟨hne, rfl⟩ := hchild
      have hin : inner p.dropLast temporary p = true := by
        refine inner_eq_true_iff.mpr ⟨List.dropLast_prefix p, fun heq => ?_, ?_⟩
        · have hlength := congrArg List.length heq
          rw [List.length_dropLast] at hlength
          have hpos := List.length_pos_of_ne_nil hne
          omega
        · exact unheard p ((mem_nodes_iff hne).mp hp)
      simp [hin]
    · simp [hchild]
  rw [hinner after h.later, hinner tree h.before, h.sameOn.nodes]

/-- Runs in the root are put in the same order. -/
lemma newestFirst (inside : AreInside root runs) :
    Run.newestFirst after runs = Run.newestFirst tree runs := by
  have htime : ∀ run ∈ runs, Run.time? after run = Run.time? tree run := by
    intro run hrun
    obtain ⟨name, dot, up, hpath⟩ := inside run hrun
    exact h.time? located dot up hpath
  refine sortBy_congr fun a ha b hb => ?_
  rw [Run.compare, Run.compare, htime a ha, htime b hb]

lemma runsAmong {names : List String} (plain : ".." ∉ names) :
    HistoryStore.runsAmong after (names.map (inside root)) =
      HistoryStore.runsAmong tree (names.map (inside root)) := by
  induction names with
  | nil => rfl
  | cons name names ih =>
    rw [List.mem_cons, not_or] at plain
    rw [List.map_cons, runsAmong_cons, runsAmong_cons, h.runAt? located (Ne.symm plain.1),
      ih plain.2]

/-- The names in the root. -/
lemma exists_names : ∃ names : List String, tree.entriesOf root = names.map (inside root) ∧
    after.entriesOf root = names.map (inside root) ∧ "." ∉ names ∧ ".." ∉ names := by
  obtain ⟨names, hchildren, -, hmem⟩ := exists_children h.sound top
  have hentry : ∀ name ∈ names, IsEntry name := fun name hname =>
    h.named.node _ ((hmem name).mp hname) name (by simp)
  exact ⟨names, entriesOf_eq located hchildren,
    entriesOf_eq (h.located_after located) ((h.children located).trans hchildren),
    fun hdot => (hentry _ hdot).ne_dot rfl, fun hup => (hentry _ hup).ne_up rfl⟩

variable (enabled : store.root? = some root)

include enabled

/-- The runs that are listed lie in the root. -/
lemma areInside (listed : store.runs tree = .ok runs) : AreInside root runs := by
  intro run hrun
  obtain ⟨names, hentries, -, hdot, hup⟩ := h.exists_names located
  rcases (runs_eq_ok_iff enabled).mp listed with ⟨-, rfl⟩ | ⟨-, hall, rfl⟩
  · cases hrun
  · rw [Run.newestFirst, (sortBy_perm _).mem_iff, List.mem_filterMap] at hrun
    obtain ⟨path, hpath, hrun⟩ := hrun
    obtain ⟨found, hfound⟩ := hall path hpath
    rw [hentries] at hpath
    obtain ⟨name, hname, rfl⟩ := List.mem_map.mp hpath
    rw [runOf?, hfound] at hrun
    exact ⟨name, fun heq => hdot (heq ▸ hname), fun heq => hup (heq ▸ hname),
      path_of_runAt? (hfound.trans (congrArg _ hrun))⟩

/-- **The list of runs** is the same. -/
lemma runs_eq : store.runs after = store.runs tree := by
  obtain ⟨names, hentries, hentries', -, hup⟩ := h.exists_names located
  have hfound : HistoryStore.runsAmong after (after.entriesOf root) =
      HistoryStore.runsAmong tree (tree.entriesOf root) := by
    rw [hentries, hentries', h.runsAmong located hup]
  have hruns := runs_of_isDirectory enabled (isDirectory_of_locate located)
  rw [runs_of_isDirectory enabled (isDirectory_of_locate (h.located_after located)), hfound, hruns]
  cases hamong : HistoryStore.runsAmong tree (tree.entriesOf root) with
  | error breakdown => simp only [Except.map]
  | ok found =>
    rw [hamong, Except.map] at hruns
    have hinside : AreInside root found := fun run hrun =>
      h.areInside located enabled hruns run ((sortBy_perm found).mem_iff.mpr hrun)
    simp only [Except.map, h.newestFirst located hinside]

/-- So is what is looked up. -/
lemma run?_eq (s : String) : store.run? after s = store.run? tree s := by
  rw [Scaffold.run?_eq enabled, Scaffold.run?_eq enabled]
  by_cases hname : HistoryStore.isName (trimmed s) = true
  · rw [if_pos hname, if_pos hname, h.runAt? located (isName_of_isName hname).2]
  · rw [if_neg hname, if_neg hname]

/-- A store whose root is there gives the same answers. -/
lemma answersAlike : store.AnswersAlike tree after :=
  ⟨h.runs_eq located enabled, h.run?_eq located enabled, fun _ listed _ hsub =>
    h.newestFirst located fun run hrun => h.areInside located enabled listed run (hsub hrun)⟩

end Located

end LeftAlone

/-! ### A root that is not there -/

section Missing

variable (enabled : store.root? = some root) (noLinks : tree.NoLinks)
  (short : ∀ name ∈ root.names, tooLong name = false)
  (away : tree.node? (tree.goal root) ≠ some .directory)

include enabled noLinks short away

lemma runs_of_missing : store.runs tree = .ok [] := by
  have hdir := isDirectory_eq_false noLinks short away []
  rw [List.append_nil] at hdir
  exact (runs_eq_ok_iff enabled).mpr (.inl ⟨hdir, rfl⟩)

lemma run?_of_missing (s : String) : store.run? tree s = .ok none := by
  rw [run?_eq enabled, ite_eq_right_iff]
  intro _
  rw [runAt?, inside, isDirectory_eq_false noLinks short away]
  rfl

end Missing

/-! ### Stores in general -/

/-- **A store that is left alone** gives the same answers, when its root is settled. -/
theorem LeftAlone.answersAlike_of_isSettled (settled : store.IsSettled tree)
    (alone : ∀ root ∈ store.root?, LeftAlone (tree.goal root) temporary tree after) :
    store.AnswersAlike tree after := by
  cases enabled : store.root? with
  | none => exact .of_disabled enabled tree after
  | some root =>
    have h := alone root enabled
    rcases settled root enabled with hdir | ⟨short, away⟩
    · obtain ⟨place, located⟩ := isDirectory_eq_true_iff.mp hdir
      obtain rfl : place = tree.goal root := place_of_locate h.noLinks located
      exact h.answersAlike located enabled
    · have away' : after.node? (after.goal root) ≠ some .directory := by
        rwa [goal_congr h.keeps.workplace, h.node _ (List.prefix_refl _)]
      have noLinks' := h.keeps.noLinks h.noLinks
      exact .of_empty (runs_of_missing enabled h.noLinks short away)
        (runs_of_missing enabled noLinks' short away')
        (run?_of_missing enabled h.noLinks short away)
        (run?_of_missing enabled noLinks' short away')

end Scaffold
