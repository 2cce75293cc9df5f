import Scaffold.Proofs.Files.Elsewhere
import Scaffold.Proofs.History.BestEffort

/-!
What a rollback touches.

In a tree without links every path has its goal, and the paths of a rollback are the only
places at which anything happens: a file is deleted at the goal of a path, or it gets its old
bytes there, and on the way to a file that is restored missing directories are made. Whatever
becomes of the actions, nothing else changes. A directory that none of them enters keeps even
the times and the order of what is in it, although the temporary file of a restoration stands
beside the file for a moment.

* `UndoAction.Names`, `UndoAction.Passes`: the places of an action.
* `Touched`: how the tree after some actions differs from the tree before them;
  `undo_touched`: so it does after one action.
* `MidRollback`, `undoAll_midRollback`: what holds during a rollback and after it.
* `UndoAction.Spares`: actions that do not enter a directory; `inner`: what is inside it.
* `undo_sameOn`, `undoAll_sameOn`: it stays as it is.
-/

namespace Scaffold

open Files FileTree

variable {tree tree' tree'' : FileTree} {token text : String} {top : Place} {path : Path}
  {contents : Bytes} {action : UndoAction} {actions more : List UndoAction}

/-! ### The places of an action -/

/-- An action names a place: the goal of its whole path, if it has one. -/
def UndoAction.Names (action : UndoAction) (tree : FileTree) (p : Place) : Prop :=
  ∃ text ∈ action.fullPath, text ≠ "" ∧ tree.goal (.ofText text) = p

/-- An action passes a place: the goal of a path above that of a file to be restored. -/
def UndoAction.Passes (action : UndoAction) (tree : FileTree) (p : Place) : Prop :=
  action.kind = .restore ∧ ∃ text ∈ action.fullPath, text ≠ "" ∧
    ∃ count < (Path.ofText text).names.length, tree.goal ((Path.ofText text).upTo count) = p

lemma UndoAction.names_congr (workplace : tree'.workplace = tree.workplace) (p : Place) :
    action.Names tree' p ↔ action.Names tree p := by
  simp only [Names, goal_congr workplace]

lemma UndoAction.passes_congr (workplace : tree'.workplace = tree.workplace) (p : Place) :
    action.Passes tree' p ↔ action.Passes tree p := by
  simp only [Passes, goal_congr workplace]

/-- Directories are kept and links are none, files that no action names have their contents,
and new directories are passed by an action. -/
structure Touched (actions : List UndoAction) (tree after : FileTree) : Prop where
  /-- The directories are all there, and no link is new. -/
  keeps : Keeps tree after
  /-- Files are there, with their contents, or not, as they were. -/
  files : ∀ p, (∀ action ∈ actions, ¬ action.Names tree p) →
    after.contents? p = tree.contents? p
  /-- A directory was there, or an action passes its place. -/
  directories : ∀ p, after.node? p = some .directory →
    tree.node? p = some .directory ∨ ∃ action ∈ actions, action.Passes tree p

namespace Touched

lemma refl (actions : List UndoAction) (tree : FileTree) : Touched actions tree tree :=
  ⟨.refl tree, fun _ _ => rfl, fun _ => .inl⟩

lemma mono (h : Touched actions tree tree') (sub : ∀ action ∈ actions, action ∈ more) :
    Touched more tree tree' := by
  refine ⟨h.keeps, fun p hp => h.files p fun action hmem => hp action (sub action hmem),
    fun p hp => (h.directories p hp).imp_right ?_⟩
  rintro ⟨action, hmem, hpasses⟩
  exact ⟨action, sub action hmem, hpasses⟩

/-- The places of actions are the same in both trees. -/
lemma trans (h : Touched actions tree tree') (h' : Touched actions tree' tree'') :
    Touched actions tree tree'' := by
  have hworkplace := h.keeps.workplace
  refine ⟨h.keeps.trans h'.keeps, fun p hp => ?_, fun p hp => ?_⟩
  · rw [h'.files p fun action hmem hnames =>
      hp action hmem ((action.names_congr hworkplace p).mp hnames)]
    exact h.files p hp
  · rcases h'.directories p hp with hdir | ⟨action, hmem, hpasses⟩
    · exact h.directories p hdir
    · exact .inr ⟨action, hmem, (action.passes_congr hworkplace p).mp hpasses⟩

lemma noLinks (h : Touched actions tree tree') (noLinks : tree.NoLinks) : tree'.NoLinks :=
  h.keeps.noLinks noLinks

end Touched

/-! ### A single action -/

section Step

variable (sound : tree.Sound) (noLinks : tree.NoLinks)

include sound noLinks

/-- Directories that are made for a file to be restored are passed. -/
lemma touched_makeDirectories (restores : action.kind = .restore)
    (full : action.fullPath = some text) (filled : text ≠ "") :
    Touched [action] tree (tree.makeDirectories (Path.ofText text).parent).2 := by
  have hmade := makeDirectories_made (Path.ofText text).parent tree
  have hgrown := hmade.grown
  refine ⟨hgrown.keeps, fun p _ => hgrown.contents p, fun p hp => ?_⟩
  rcases hgrown.node p with hsame | ⟨hnone, -⟩
  · exact .inl (hsame ▸ hp)
  · obtain ⟨count, hcount, hlocate⟩ := hmade.new p hnone hp
    rw [Path.upTo_parent hcount] at hlocate
    have hgoal : p = tree.goal ((Path.ofText text).upTo count) :=
      (place_of_locate (hgrown.keeps.noLinks noLinks) hlocate).trans (goal_congr hgrown.workplace _)
    refine .inr ⟨action, by simp, restores, text, full, filled, count, ?_, hgoal.symm⟩
    rw [Path.parent, List.length_dropLast] at hcount
    by_contra hall
    -- without names the path is the place at which it starts, which is there
    have hempty : (Path.ofText text).names = [] := List.eq_nil_of_length_eq_zero (by omega)
    have hstart : p = tree.start ((Path.ofText text).upTo count) := by
      rw [hgoal, goal, Path.upTo, hempty, List.take_nil, along_nil]
    rw [hstart, sound.start] at hnone
    cases hnone

/-- A file that gets its contents all at once is named. -/
lemma touched_atomicWrite (unheard : tree.IsUnheard "restore" token)
    (full : action.fullPath = some text) (filled : text ≠ "")
    (avoids : Avoids [temporaryName "restore" token] (Path.ofText text).names)
    (contents : Bytes) :
    Touched [action] tree (tree.atomicWrite (.ofText text) contents "restore" token).2 := by
  obtain ⟨fault, -, hsame, -⟩ | ⟨-, -, goal, hlocate, hfile, hput⟩ :=
    atomicWrite_cases sound unheard avoids contents
  · exact ⟨⟨hsame.alike.workplace, fun p hp => (hsame.alike.node p).trans hp,
        fun p target => by rw [hsame.alike.node]⟩,
      fun p _ => by rw [contents?, contents?, hsame.alike.node],
      fun p hp => .inl (hsame.alike.node p ▸ hp)⟩
  · have hgoal : tree.goal (.ofText text) = goal := (place_of_locate noLinks hlocate).symm
    have hothers : ∀ p, p ≠ goal →
        (tree.atomicWrite (.ofText text) contents "restore" token).2.node? p = tree.node? p :=
      fun p hp => by rw [hput.node, if_neg hp]
    refine ⟨⟨hput.workplace, fun p hp => ?_, fun p target => ?_⟩, fun p hp => ?_, fun p hp => ?_⟩
    · rw [hothers p, hp]
      rintro rfl
      exact hfile hp
    · refine iff_of_false (fun hlink => ?_) (noLinks p target)
      rw [hput.node] at hlink
      split at hlink
      · cases hlink
      · exact noLinks p target hlink
    · rw [contents?, contents?, hothers p]
      rintro rfl
      exact hp action (by simp) ⟨text, full, filled, hgoal⟩
    · rw [hput.node] at hp
      split at hp
      · cases hp
      · exact .inl hp

/-- **One action** touches the file it names and makes the directories it passes. -/
lemma undo_touched (unheard : tree.IsUnheard "restore" token)
    (avoids : ∀ text, action.fullPath = some text →
      Avoids [temporaryName "restore" token] (Path.ofText text).names) :
    Touched [action] tree (undo action token tree).2 := by
  obtain hsame | ⟨text, p, hfull, hfilled, hlocate, hroot, hfile, -, hleft⟩ |
    ⟨text, contents, hfull, hfilled, hkind, -, hleft⟩ := undo_cases action token tree
  · rw [hsame]
    exact .refl [action] tree
  · rw [hleft]
    have hvacant : tree.Vacant p := vacant_of_noLinks noLinks hfile
    refine ⟨.remove hvacant, fun q hq => ?_, fun q hdir => .inl ?_⟩
    · rw [contents?_remove hroot, if_neg]
      rintro rfl
      exact hq action (by simp) ⟨text, hfull, hfilled, (place_of_locate noLinks hlocate).symm⟩
    · rw [node?_remove hroot] at hdir
      split at hdir
      · cases hdir
      · exact hdir
  · rw [hleft]
    have hdirs := touched_makeDirectories sound noLinks hkind hfull hfilled
    obtain ⟨hsound, hunheard⟩ := makeDirectories_parent_ready sound unheard (avoids text hfull)
    rw [putBack]
    cases hmade : tree.makeDirectories (Path.ofText text).parent with
    | mk fault grown =>
      rw [hmade] at hdirs hsound hunheard
      cases fault with
      | some fault => exact hdirs
      | none =>
        simp only
        exact hdirs.trans (touched_atomicWrite hsound (hdirs.noLinks noLinks) hunheard hfull
          hfilled (avoids text hfull) contents)

end Step

/-! ### Actions one after another -/

/-- A rollback goes on behind its first action, unless it ends there. -/
lemma undoAll_cons_left (token : String) (action : UndoAction) (actions : List UndoAction)
    (tree : FileTree) :
    (undoAll token (action :: actions) tree).2 = (undo action token tree).2 ∨
      (undoAll token (action :: actions) tree).2 =
        (undoAll token actions (undo action token tree).2).2 := by
  rw [undoAll]
  cases undo action token tree with
  | mk result next =>
    cases result with
    | error fault => exact .inl rfl
    | ok outcome => exact .inr rfl

/-- What every action keeps is kept by a rollback. -/
lemma undoAll_induction {motive : FileTree → Prop} (h : motive tree)
    (step : ∀ action ∈ actions, ∀ tree, motive tree → motive (undo action token tree).2) :
    motive (undoAll token actions tree).2 := by
  induction actions generalizing tree with
  | nil => exact h
  | cons action actions ih =>
    have hnext := step action (by simp) tree h
    rcases undoAll_cons_left token action actions tree with hend | hgoes
    · rwa [hend]
    · rw [hgoes]
      exact ih hnext fun other hother => step other (by simp [hother])

/-- The tree during a rollback: everything still lies in a directory, and the name for
temporary files is nowhere. -/
structure MidRollback (token : String) (actions : List UndoAction) (start tree : FileTree) :
    Prop where
  /-- Everything lies in a directory. -/
  sound : tree.Sound
  /-- The name for temporary files is not in the tree. -/
  unheard : tree.IsUnheard "restore" token
  /-- Only what the actions are about has been touched. -/
  touched : Touched actions start tree

lemma MidRollback.step (h : MidRollback token actions tree tree') (noLinks : tree.NoLinks)
    (apart : IsApart token actions tree) (hmem : action ∈ actions) :
    MidRollback token actions tree (undo action token tree').2 := by
  obtain ⟨hsound, hunheard, -⟩ := undo_left h.sound h.unheard (apart.paths action hmem)
  refine ⟨hsound, hunheard, h.touched.trans ?_⟩
  exact (undo_touched h.sound (h.touched.noLinks noLinks) h.unheard
    (apart.paths action hmem)).mono (by simpa using hmem)

/-- **A rollback** touches the files it names and makes the directories it passes. -/
lemma undoAll_midRollback (sound : tree.Sound) (noLinks : tree.NoLinks)
    (apart : IsApart token actions tree) :
    MidRollback token actions tree (undoAll token actions tree).2 :=
  undoAll_induction ⟨sound, apart.tree, .refl actions tree⟩ fun _ hmem _ h =>
    h.step noLinks apart hmem

/-! ### A directory that no action enters -/

/-- An action spares a directory: it names nothing in it, and what it passes in it is there. -/
structure UndoAction.Spares (action : UndoAction) (tree : FileTree) (top : Place) : Prop where
  /-- The file does not lie in the directory. -/
  names : ∀ p, action.Names tree p → ¬ top <+: p
  /-- Directories in it that are passed are there. -/
  passes : ∀ p, action.Passes tree p → top <+: p → tree.node? p = some .directory

/-- What is inside a directory, temporary files apart. -/
def inner (top : Place) (temporary : String) (p : Place) : Bool :=
  top.isPrefixOf p && p != top && !p.contains temporary

lemma inner_eq_true_iff {temporary : String} {p : Place} :
    inner top temporary p = true ↔ top <+: p ∧ p ≠ top ∧ temporary ∉ p := by
  simp [inner, and_assoc]

/-- What does not lie in a directory is no place inside it. -/
lemma isOut_inner {temporary : String} {p : Place} (h : ¬ top <+: p) :
    IsOut (inner top temporary) p := by
  constructor <;> rw [← Bool.not_eq_true, inner_eq_true_iff]
  · exact fun hp => h hp.1
  · exact fun hp => h (hp.1.trans (List.dropLast_prefix p))

/-- A temporary file beside a file that does not lie in a directory. -/
lemma clear_temporaryPath {label : String} (entry : IsEntry (temporaryName label token))
    (h : ¬ top <+: tree.goal path) :
    Clear (inner top (temporaryName label token)) tree (temporaryPath path label token) := by
  have hgoal : tree.goal (temporaryPath path label token) =
      along (tree.start path) path.names.dropLast ++ [temporaryName label token] := by
    rw [goal, temporaryPath_eq, along_append, along_plain entry.ne_dot entry.ne_up, along_nil]
    rfl
  rw [Clear, hgoal]
  constructor <;> rw [← Bool.not_eq_true, inner_eq_true_iff]
  · simp
  · rw [List.dropLast_concat]
    exact fun hp => h (prefix_along_of_dropLast hp.1 hp.2.1)

/-- **One action** that spares a directory leaves what is inside it as it is. -/
lemma undo_sameOn (noLinks : tree.NoLinks)
    (entry : IsEntry (temporaryName "restore" token)) (spares : action.Spares tree top) :
    SameOn (inner top (temporaryName "restore" token)) tree (undo action token tree).2 := by
  obtain hsame | ⟨text, p, hfull, hfilled, hlocate, -, -, -, hleft⟩ |
    ⟨text, contents, hfull, hfilled, hkind, -, hleft⟩ := undo_cases action token tree
  · rw [hsame]
    exact .refl _ tree
  · rw [hleft]
    have hgoal : tree.goal (.ofText text) = p := (place_of_locate noLinks hlocate).symm
    exact sameOn_remove (isOut_inner (spares.names p ⟨text, hfull, hfilled, hgoal⟩)) tree
  · rw [hleft]
    have hgoal : ¬ top <+: tree.goal (.ofText text) := spares.names _ ⟨text, hfull, hfilled, rfl⟩
    have hdirs : SameOn (inner top (temporaryName "restore" token)) tree
        (tree.makeDirectories (Path.ofText text).parent).2 := by
      refine sameOn_makeDirectories noLinks fun count hcount => ?_
      rw [Path.upTo_parent hcount]
      by_cases hinside : top <+: tree.goal ((Path.ofText text).upTo count)
      · refine .inl ?_
        by_cases hproper : count < (Path.ofText text).names.length
        · exact spares.passes _ ⟨hkind, text, hfull, hfilled, count, hproper, rfl⟩ hinside
        · have hall : (Path.ofText text).upTo count = .ofText text := by
            rw [Path.upTo, List.take_of_length_le (Nat.not_lt.mp hproper)]
          exact absurd (hall ▸ hinside) hgoal
      · exact .inr (isOut_inner hinside)
    rw [putBack]
    cases hmade : tree.makeDirectories (Path.ofText text).parent with
    | mk fault grown =>
      rw [hmade] at hdirs
      cases fault with
      | some fault => exact hdirs
      | none =>
        have hgoal' : ¬ top <+: grown.goal (.ofText text) := by
          rwa [goal_congr hdirs.workplace]
        exact hdirs.trans (sameOn_atomicWrite (hdirs.noLinks noLinks) (isOut_inner hgoal')
          (clear_temporaryPath entry hgoal') contents)

/-- An action still spares a directory when actions have been carried out. -/
lemma UndoAction.Spares.keeps (h : action.Spares tree top) (keeps : Keeps tree tree') :
    action.Spares tree' top :=
  ⟨fun p hnames => h.names p ((action.names_congr keeps.workplace p).mp hnames),
    fun p hpasses hinside => keeps.directory p
      (h.passes p ((action.passes_congr keeps.workplace p).mp hpasses) hinside)⟩

/-- **A rollback** that spares a directory leaves what is inside it as it is. -/
lemma undoAll_sameOn (sound : tree.Sound) (noLinks : tree.NoLinks)
    (apart : IsApart token actions tree) (spares : ∀ action ∈ actions, action.Spares tree top) :
    SameOn (inner top (temporaryName "restore" token)) tree (undoAll token actions tree).2 := by
  have hall : MidRollback token actions tree (undoAll token actions tree).2 ∧
      SameOn (inner top (temporaryName "restore" token)) tree
        (undoAll token actions tree).2 := by
    refine undoAll_induction (motive := fun left => MidRollback token actions tree left ∧
      SameOn (inner top (temporaryName "restore" token)) tree left)
      ⟨⟨sound, apart.tree, .refl actions tree⟩, .refl _ tree⟩ ?_
    rintro action hmem left ⟨hunderway, hsame⟩
    refine ⟨hunderway.step noLinks apart hmem, hsame.trans ?_⟩
    exact undo_sameOn (hunderway.touched.noLinks noLinks) apart.tree.entry
      ((spares action hmem).keeps hunderway.touched.keeps)
  exact hall.2

/-- A rollback that spares a directory changes no node in it. -/
lemma Touched.node?_eq (h : Touched actions tree tree') (noLinks : tree.NoLinks)
    (spares : ∀ action ∈ actions, action.Spares tree top) {p : Place} (inside : top <+: p) :
    tree'.node? p = tree.node? p := by
  refine node?_eq_of_contents noLinks (h.noLinks noLinks) ⟨fun hnew => ?_, h.keeps.directory p⟩
    (h.files p fun action hmem hnames => (spares action hmem).names p hnames inside)
  rcases h.directories p hnew with hold | ⟨action, hmem, hpasses⟩
  · exact hold
  · exact (spares action hmem).passes p hpasses inside

end Scaffold
