import Scaffold.Commands.Retrospection
import Scaffold.Proofs.Commands.Working
import Scaffold.Proofs.History.Relisting

/-!
A rollback touches only what it names.

Whatever becomes of its actions, a rollback writes and deletes the files that they name, makes
the directories that are missing on the way to a file it restores, and leaves no temporary
file. So the runs of a store are as they were, and the same plan can be made again, when no
action leads into the root of the store. Two kinds of paths need care: a root that is written
through a missing directory and out of it again is found once this directory is made, and a
path that goes through a missing directory inside the root changes the time of a run there.

* `Work.KeepsTree`: commands that leave the file tree as it is;
  `Retrospection.keepsTree_rollback`: a preview is one.
* `undoAll_touchesOnly`: what a rollback leaves behind.
* `undoAll_reachesRuns`: the paths that need care.
-/

namespace Scaffold

open Files FileTree

/-! ### Previews -/

namespace Work

variable {α β : Type} {x : Work α} {f : α → Work β}

/-- A piece of a command leaves the file tree as it is. -/
def KeepsTree (x : Work α) : Prop :=
  ∀ t, (outcome x t).2.tree = t.tree

namespace KeepsTree

lemma pure (a : α) : KeepsTree (Pure.pure a : Work α) := fun _ => rfl

lemma stop (e : Stop) : KeepsTree (throw e : Work α) := fun _ => rfl

/-- Nothing comes behind a stop. -/
lemma stop_bind (e : Stop) (f : α → Work β) : KeepsTree (throw e >>= f) := fun _ => rfl

lemma emit (emission : Emission) : KeepsTree (Work.emit emission) := fun _ => rfl

lemma get : KeepsTree (MonadState.get : Work Terminal) := fun _ => rfl

lemma bind (hx : KeepsTree x) (hf : ∀ a, KeepsTree (f a)) : KeepsTree (x >>= f) := by
  intro t
  have htree := hx t
  rw [outcome_bind]
  cases houtcome : outcome x t with
  | mk result left =>
    rw [houtcome] at htree
    cases result with
    | ok a => exact (hf a left).trans htree
    | error e => exact htree

lemma orBreak (result : Except Breakdown α) : KeepsTree (Work.orBreak result) := by
  cases result with
  | ok a => exact pure a
  | error cause => exact stop _

lemma ofTree (look : FileTree → Except Breakdown α) : KeepsTree (Work.ofTree look) :=
  bind get fun _ => orBreak _

end KeepsTree

end Work

/-- **A preview** of a rollback changes nothing. -/
lemma Retrospection.keepsTree_rollback (given : Circumstances) (bench : Workbench)
    (name execution : Option String) (latestOnly force : Bool) :
    Work.KeepsTree (rollback given bench name execution latestOnly true force) := by
  rw [rollback]
  simp only [if_true]
  split
  · exact .bind (.emit _) fun _ => .stop_bind _ _
  refine .bind (.ofTree _) fun runs => ?_
  cases runs with
  | nil =>
    refine .bind (.emit _) fun _ => .bind (.ofTree _) fun available => ?_
    split
    · exact .bind (.emit _) fun _ => .stop _
    · exact .stop _
  | cons first others =>
    refine .bind .get fun terminal => ?_
    split
    · exact .emit _
    · exact .bind (.emit _) fun _ => .bind (.emit _) fun _ => .emit _

/-! ### Rollbacks -/

section

variable {tree : FileTree} {token : String} {top : Place} {actions : List UndoAction}

/-- A directory that every action spares is left alone by a rollback. -/
lemma undoAll_leftAlone (sound : tree.Sound) (named : tree.Named) (noLinks : tree.NoLinks)
    (apart : IsApart token actions tree) (spares : ∀ action ∈ actions, action.Spares tree top) :
    LeftAlone top (temporaryName "restore" token) tree (undoAll token actions tree).2 := by
  have hleft := undoAll_midRollback sound noLinks apart
  exact ⟨noLinks, named, sound, fun _ => apart.tree.notMem, fun _ => hleft.unheard.notMem,
    hleft.touched.keeps, fun _ => hleft.touched.node?_eq noLinks spares,
    undoAll_sameOn sound noLinks apart spares⟩

/-- **A rollback touches only what it names.** In a tree without links it changes no file that
no action names, makes no directory but those that are missing on the way to a file it
restores, and leaves no temporary file. The root of a store that the actions spare is as it
was; when it is settled, the same runs are listed, and the same plan is made for the same
selection. A preview changes nothing. -/
theorem undoAll_touchesOnly (sound : tree.Sound) (named : tree.Named) (noLinks : tree.NoLinks)
    (apart : IsApart token actions tree) :
    Touched actions tree (undoAll token actions tree).2 ∧
    (∀ p, temporaryName "restore" token ∈ p → (undoAll token actions tree).2.node? p = none) ∧
    (∀ store : HistoryStore,
      (∀ root ∈ store.root?, ∀ action ∈ actions, action.Spares tree (tree.goal root)) →
      (∀ root ∈ store.root?, ∀ p, tree.goal root <+: p →
        (undoAll token actions tree).2.node? p = tree.node? p) ∧
      (store.IsSettled tree →
        store.runs (undoAll token actions tree).2 = store.runs tree ∧
        ∀ name execution latestOnly,
          store.select (undoAll token actions tree).2 name execution latestOnly =
            store.select tree name execution latestOnly ∧
          ∀ runs, store.select tree name execution latestOnly = .ok runs →
            planUndo (undoAll token actions tree).2 runs = planUndo tree runs)) ∧
    ∀ given bench name execution latestOnly force terminal,
      (Work.outcome (Retrospection.rollback given bench name execution latestOnly true force)
        terminal).2.tree = terminal.tree := by
  have hleft := undoAll_midRollback sound noLinks apart
  refine ⟨hleft.touched, fun p hmem => ?_, fun store spares => ?_, ?_⟩
  · by_contra hnode
    exact hleft.unheard.notMem hnode hmem
  · have halone : ∀ root ∈ store.root?, LeftAlone (tree.goal root)
        (temporaryName "restore" token) tree (undoAll token actions tree).2 :=
      fun root hroot => undoAll_leftAlone sound named noLinks apart (spares root hroot)
    refine ⟨fun root hroot => (halone root hroot).node, fun settled => ?_⟩
    have halike := LeftAlone.answersAlike_of_isSettled settled halone
    exact ⟨halike.listed, fun name execution latestOnly =>
      ⟨halike.select_eq name execution latestOnly, fun _ => halike.planUndo_eq⟩⟩
  · exact Retrospection.keepsTree_rollback

end

/-- A tree with a store of two runs, of which the first keeps the old bytes of a file. -/
def keptRuns : FileTree :=
  ⟨["w"],
    [(["w"], .directory), (["w", "hist"], .directory), (["w", "hist", "a"], .directory),
      (["w", "hist", "a", "manifest.json"], .file (Utf8.encode "\x7b\"id\":\"a\"\x7d")),
      (["w", "hist", "a", "001_x.txt"], .file [65]), (["w", "hist", "b"], .directory),
      (["w", "hist", "b", "manifest.json"], .file (Utf8.encode "\x7b\"id\":\"b\"\x7d")),
      (["w", "y.txt"], .file [66])],
    [(["w", "hist", "a"], 2), (["w", "hist", "b"], 1)], 3⟩

/-- A file gets the bytes that the first run keeps. -/
def restoring (fullPath : String) : UndoAction :=
  ⟨.restore, "a", .ofText "/w/hist/a", "a", some "x.txt", some fullPath, some "001_x.txt"⟩

/-- The runs that a store lists, by name. -/
def listed (location : String) (tree : FileTree) : Except Breakdown (List String) :=
  ((HistoryStore.mk location true).runs tree).map (·.map (·.id))

/-- A file that was overwritten, and one that was written. -/
def twoChanges : List UndoAction :=
  [restoring "/w/out/x.txt",
    ⟨.delete, "a", .ofText "/w/hist/a", "a", some "y.txt", some "/w/y.txt", none⟩]

/-- None of the two lies in the store. -/
lemma spares_twoChanges : ∀ action ∈ twoChanges, action.Spares keptRuns ["w", "hist"] := by
  simp only [twoChanges, List.forall_mem_cons, List.not_mem_nil, false_imp_iff, implies_true,
    and_true]
  refine ⟨⟨?_, ?_⟩, ?_, ?_⟩
  · rintro p ⟨text, hfull, -, rfl⟩
    cases hfull
    decide +kernel
  · rintro p ⟨-, text, hfull, -, count, hcount, rfl⟩
    cases hfull
    decide +revert +kernel
  · rintro p ⟨text, hfull, -, rfl⟩
    cases hfull
    decide +kernel
  · rintro p ⟨hkind, -⟩
    cases hkind

/-- A rollback of the two changes leaves the store and the list of its runs as they were. -/
theorem undoAll_touchesOnly_keptRuns :
    keptRuns.Sound ∧ keptRuns.Named ∧ keptRuns.NoLinks ∧ IsApart "t" twoChanges keptRuns ∧
    (HistoryStore.mk "/w/hist" true).IsSettled keptRuns ∧
    (∀ root ∈ (HistoryStore.mk "/w/hist" true).root?, ∀ action ∈ twoChanges,
      action.Spares keptRuns (keptRuns.goal root)) ∧
    (undoAll "t" twoChanges keptRuns).2.contents? ["w", "out", "x.txt"] = some [65] ∧
    (undoAll "t" twoChanges keptRuns).2.contents? ["w", "y.txt"] = none ∧
    (HistoryStore.mk "/w/hist" true).runs (undoAll "t" twoChanges keptRuns).2 =
      (HistoryStore.mk "/w/hist" true).runs keptRuns ∧
    listed "/w/hist" keptRuns = .ok ["a", "b"] := by
  have sound : keptRuns.Sound := by decide +kernel
  have named : keptRuns.Named := named_of_nodes (by decide +kernel) (by decide +kernel)
  have noLinks : keptRuns.NoLinks := noLinks_of_nodes (by simp [keptRuns])
  have apart : IsApart "t" twoChanges keptRuns :=
    ⟨⟨by decide +kernel, by decide +kernel, unmentioned_of_nodes (by decide +kernel)⟩,
      by decide +kernel⟩
  have hroot : (HistoryStore.mk "/w/hist" true).root? = some ⟨"/", ["w", "hist"]⟩ := by
    decide +kernel
  have settled : (HistoryStore.mk "/w/hist" true).IsSettled keptRuns := by
    rintro root hmem
    obtain rfl := Option.some.inj (hroot.symm.trans hmem)
    exact .inl (by decide +kernel)
  have spares : ∀ root ∈ (HistoryStore.mk "/w/hist" true).root?, ∀ action ∈ twoChanges,
      action.Spares keptRuns (keptRuns.goal root) := by
    rintro root hmem
    obtain rfl := Option.some.inj (hroot.symm.trans hmem)
    exact spares_twoChanges
  obtain ⟨-, -, hstore, -⟩ := undoAll_touchesOnly sound named noLinks apart
  obtain ⟨hruns, -⟩ := (hstore _ spares).2 settled
  exact ⟨sound, named, noLinks, apart, settled, spares, by decide +kernel, by decide +kernel,
    hruns, by decide +kernel⟩

/-- The paths that need care: although none of the files lies in the root of the store, a root
appears when a directory on its way is made, and a run changes its place in the list when
something is made in its directory. -/
theorem undoAll_reachesRuns :
    keptRuns.Sound ∧ keptRuns.Named ∧ keptRuns.NoLinks ∧
    keptRuns.goal (.ofText "hist") = ["w", "hist"] ∧
    keptRuns.goal (.ofText "missing/../hist") = ["w", "hist"] ∧
    (keptRuns.goal (.ofText "/w/missing/x.txt") = ["w", "missing", "x.txt"] ∧
      listed "missing/../hist" keptRuns = .ok [] ∧
      listed "missing/../hist" (undoAll "t" [restoring "/w/missing/x.txt"] keptRuns).2 =
        .ok ["a", "b"]) ∧
    keptRuns.goal (.ofText "/w/hist/b/new/../../../x.txt") = ["w", "x.txt"] ∧
    listed "hist" keptRuns = .ok ["a", "b"] ∧
    listed "hist" (undoAll "t" [restoring "/w/hist/b/new/../../../x.txt"] keptRuns).2 =
      .ok ["b", "a"] := by
  refine ⟨by decide +kernel, named_of_nodes (by decide +kernel) (by decide +kernel),
    noLinks_of_nodes (by simp [keptRuns]), by decide +kernel, by decide +kernel,
    ⟨by decide +kernel, ?_, ?_⟩, by decide +kernel, ?_, ?_⟩ <;> decide +kernel

end Scaffold
