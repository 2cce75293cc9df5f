import Mathlib.Data.List.Perm.Basic
import Scaffold.History.Rollback
import Scaffold.Proofs.Files.Growth
import Scaffold.Proofs.Outcome

/-!
Which runs a store lists.

Listing a store goes through the directories in its root one after another. When it
comes to its end, the runs found are those that the directories hold, each read on
its own, in the order of the directories.

* `runAt?`: the run that is read from a path; `runOf?`: the run found there.
* `runsAmong_eq_ok_iff`: listing is reading every path on its own.
* `runs_eq_ok_iff`: what the list of a store is.
* `Alike.loadRun?`, `Alike.runAt?`: only the nodes of a tree decide what is read.
-/

namespace Scaffold

open Files FileTree

variable {tree tree' : FileTree} {path : Path} {paths : List Path} {runs : List Run}
  {store : HistoryStore}

/-! ### One path -/

/-- The run that is read from a path, if the path denotes a directory. -/
def runAt? (tree : FileTree) (path : Path) : Except Breakdown (Option Run) := do
  if ← (tree.isDirectory path).mapError .file then loadRun? tree path else return none

/-- The run found at a path. -/
def runOf? (tree : FileTree) (path : Path) : Option Run :=
  (runAt? tree path).toOption.join

lemma Files.FileTree.Alike.loadRun? (h : Alike tree tree') (path : Path) :
    loadRun? tree' path = loadRun? tree path := by
  rw [Scaffold.loadRun?, Scaffold.loadRun?, h.read]

lemma Files.FileTree.Alike.runAt? (h : Alike tree tree') (path : Path) :
    runAt? tree' path = runAt? tree path := by
  rw [Scaffold.runAt?, Scaffold.runAt?, h.isDirectory, h.loadRun?]

/-- A run is found in the directory from which it was read. -/
lemma path_of_loadRun? {run : Run} (h : loadRun? tree path = .ok (some run)) : run.path = path := by
  rw [loadRun?] at h
  split at h
  · cases h
  · split at h
    · cases h
    · next text _ =>
      cases hfound : manifestOf? path.name text with
      | error breakdown => simp [hfound, Except.map] at h
      | ok found =>
        cases found with
        | none => simp [hfound, Except.map] at h
        | some manifest =>
          simp only [hfound, Except.map, Option.map_some, Except.ok.injEq, Option.some.injEq] at h
          rw [← h]

/-! ### All paths -/

/-- Listing begins with the first path. -/
lemma runsAmong_cons (tree : FileTree) (path : Path) (paths : List Path) :
    HistoryStore.runsAmong tree (path :: paths) =
      (runAt? tree path).bind fun found =>
        (HistoryStore.runsAmong tree paths).map fun runs => found.toList ++ runs := by
  rw [HistoryStore.runsAmong, runAt?]
  cases hdir : tree.isDirectory path with
  | error fault => rfl
  | ok present =>
    cases present with
    | false =>
      cases hrest : HistoryStore.runsAmong tree paths <;> rfl
    | true =>
      cases hload : loadRun? tree path with
      | error breakdown => rfl
      | ok found =>
        cases found <;> cases hrest : HistoryStore.runsAmong tree paths <;> rfl

/-- **Listing** is reading every path on its own. -/
lemma runsAmong_eq_ok_iff :
    HistoryStore.runsAmong tree paths = .ok runs ↔
      (∀ path ∈ paths, ∃ found, runAt? tree path = .ok found) ∧
        runs = paths.filterMap (runOf? tree) := by
  induction paths generalizing runs with
  | nil => simp [HistoryStore.runsAmong, eq_comm]
  | cons path paths ih =>
    rw [runsAmong_cons]
    cases hat : runAt? tree path with
    | error breakdown =>
      refine iff_of_false (by simp [Except.bind]) fun h => ?_
      obtain ⟨found, hfound⟩ := h.1 path (by simp)
      rw [hat] at hfound
      cases hfound
    | ok found =>
      have hof : runOf? tree path = found := by
        rw [runOf?, hat]
        rfl
      have hrest : (∃ rest, HistoryStore.runsAmong tree paths = .ok rest ∧
          runs = found.toList ++ rest) ↔
          (∀ path ∈ paths, ∃ found, runAt? tree path = .ok found) ∧
            runs = found.toList ++ paths.filterMap (runOf? tree) := by
        constructor
        · rintro ⟨rest, hrest, rfl⟩
          exact ⟨(ih.mp hrest).1, by rw [(ih.mp hrest).2]⟩
        · rintro ⟨hall, rfl⟩
          exact ⟨_, ih.mpr ⟨hall, rfl⟩, rfl⟩
      have hcons : (path :: paths).filterMap (runOf? tree) =
          found.toList ++ paths.filterMap (runOf? tree) := by
        cases found <;> simp [hof]
      rw [hcons, List.forall_mem_cons, hat]
      cases hlist : HistoryStore.runsAmong tree paths with
      | error breakdown =>
        rw [hlist] at hrest
        simpa [Except.bind, Except.map] using hrest
      | ok rest =>
        rw [hlist] at hrest
        simpa [Except.bind, Except.map, eq_comm] using hrest

/-- The runs of a store: none without a root directory, and otherwise those found in
the root directory. -/
lemma runs_eq_ok_iff {root : Path} (h : store.root? = some root) :
    store.runs tree = .ok runs ↔
      (tree.isDirectory root = .ok false ∧ runs = []) ∨
        tree.isDirectory root = .ok true ∧
          (∀ path ∈ tree.entriesOf root, ∃ found, runAt? tree path = .ok found) ∧
          runs = Run.newestFirst tree ((tree.entriesOf root).filterMap (runOf? tree)) := by
  rw [HistoryStore.runs, h]
  simp only [bind_eq_ok_iff, mapError_eq_ok_iff]
  constructor
  · rintro ⟨present, hdir, hrest⟩
    cases present with
    | false =>
      simp only [Bool.false_eq_true, if_false, pure, Except.pure, Except.ok.injEq] at hrest
      exact .inl ⟨hdir, hrest.symm⟩
    | true =>
      simp only [if_true, bind_eq_ok_iff, pure, Except.pure, Except.ok.injEq] at hrest
      obtain ⟨found, hfound, rfl⟩ := hrest
      obtain ⟨hall, rfl⟩ := runsAmong_eq_ok_iff.mp hfound
      exact .inr ⟨hdir, hall, rfl⟩
  · rintro (⟨hdir, rfl⟩ | ⟨hdir, hall, rfl⟩)
    · exact ⟨false, hdir, rfl⟩
    · refine ⟨true, hdir, ?_⟩
      simp only [if_true, bind_eq_ok_iff]
      exact ⟨_, runsAmong_eq_ok_iff.mpr ⟨hall, rfl⟩, rfl⟩

end Scaffold
