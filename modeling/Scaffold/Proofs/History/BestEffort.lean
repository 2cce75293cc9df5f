import Scaffold.Proofs.Files.Faults
import Scaffold.Proofs.History.Undoing

/-!
Rolling back as far as possible.

An action that cannot be carried out ends in an outcome that says so, and the next one is
tried. What is left of it are directories at most: the file that is being restored is
filled under another name, and this file is taken away again.

Not every action ends in an outcome, though. A file to be deleted is looked at first, and
that is refused when a name on its way is too long; and a path with the character zero is
refused wherever it is opened. Then the work ends, with the actions that are left.

* `atomicWrite_cases`: a file gets its contents, or nothing has changed.
* `UndoAction.Breaks`: why an action ends in no outcome; `undo_eq_error_iff`: there are no
  other reasons.
* `undo_kept`: an action that failed or was skipped has changed no contents.
* `undoAll_bestEffort`: every action has its outcome, unless one of them breaks.
-/

namespace Scaffold.Files.FileTree

variable {tree tree' : FileTree} {follow : Bool} {found : Found} {final : Path}
  {label token : String} {contents : Bytes}

/-! ### Temporary files -/

/-- A name for temporary files that is nowhere in a tree. -/
structure IsUnheard (label token : String) (tree : FileTree) : Prop where
  /-- It is the name of a node. -/
  entry : IsEntry (temporaryName label token)
  /-- It can stand in a path. -/
  zero : (temporaryName label token).toList.contains '\x00' = false
  /-- It is nowhere. -/
  unmentioned : Unmentioned [temporaryName label token] tree

lemma IsUnheard.notMem (h : tree.IsUnheard label token) {p : Place} (hnode : tree.node? p ≠ none) :
    temporaryName label token ∉ p := by
  obtain ⟨node, hnode⟩ := Option.ne_none_iff_exists'.mp hnode
  exact fun hmem => h.unmentioned.places p node hnode _ hmem (by simp)

lemma IsUnheard.unused (h : tree.IsUnheard label token) (p : Place) :
    tree.node? (p ++ [temporaryName label token]) = none := by
  by_contra hnode
  exact h.notMem hnode (by simp)

/-- The path of a temporary file that is located aims at an empty place. -/
lemma IsUnheard.aim (h : tree.IsUnheard label token)
    (located : tree.locate follow (temporaryPath final label token) = .ok found) :
    ∃ directory, tree.Aim (temporaryPath final label token) directory (temporaryName label token) ∧
      found = ⟨directory ++ [temporaryName label token], none⟩ := by
  obtain ⟨directory, haim⟩ := exists_aim_temporary located
  have hmissing := h.unused directory
  have hlocate : tree.locate follow (temporaryPath final label token) =
      .ok ⟨directory ++ [temporaryName label token], none⟩ := by
    cases follow with
    | false => rw [haim.locate_false, hmissing]
    | true => rw [haim.locate_true (by simp [hmissing]), hmissing]
  exact ⟨directory, haim, Except.ok.inj (located.symm.trans hlocate)⟩

/-- Without a place for the temporary file nothing is done. -/
lemma atomicWrite_of_noPlace (unheard : tree.IsUnheard label token) {fault : Fault}
    (h : tree.locate true (temporaryPath final label token) = .error fault) (contents : Bytes) :
    tree.atomicWrite final contents label token = (some fault, tree) := by
  have hwrite : tree.write (temporaryPath final label token) [] = .error fault := by
    rw [FileTree.write, h]
    rfl
  have hdrop : tree.dropTemporary (temporaryPath final label token) = tree := by
    rw [dropTemporary, FileTree.delete]
    cases hunfollowed : tree.locate false (temporaryPath final label token) with
    | error _ => rfl
    | ok found =>
      obtain ⟨directory, -, rfl⟩ := unheard.aim hunfollowed
      rfl
  rw [FileTree.atomicWrite, atomicSteps, List.cons_append]
  simp only [FileTree.performAll, perform, hwrite, settle, hdrop]

/-- A tree with the same nodes as another one that is sound. -/
structure Same (tree tree' : FileTree) : Prop where
  /-- The nodes and the place from which relative paths start. -/
  alike : Alike tree tree'
  /-- Everything still lies in a directory. -/
  sound : tree'.Sound

/-- A tree from which the temporary file has been taken away is as it was. -/
lemma Put.same {filled : FileTree} {p : Place} (put : Put p contents tree filled)
    (missing : tree.node? p = none) : Same tree (filled.remove p) := by
  refine ⟨⟨?_, put.node?_remove missing⟩, ?_⟩
  · rw [workplace_remove, put.workplace]
  · exact put.sound.remove (ne_nil_of_node?_eq_none missing) (by simp [put.file])

/-- A file gets its contents when there is a place for the temporary file, or the tree is as
it was and the final path is at fault. -/
lemma atomicWrite_of_place (sound : tree.Sound) (unheard : tree.IsUnheard label token)
    (avoids : Avoids [temporaryName label token] final.names) (contents : Bytes)
    (located : tree.locate true (temporaryPath final label token) = .ok found) :
    (∃ fault after, tree.atomicWrite final contents label token = (some fault, after) ∧
      Same tree after ∧ (tree.locate false final = .error fault ∨
        fault = .isDirectory ∧ final.holdsZero = false)) ∨
    ∃ goal after, tree.atomicWrite final contents label token = (none, after) ∧
      tree.locate false final = .ok ⟨goal, tree.node? goal⟩ ∧ tree.node? goal ≠ some .directory ∧
      Put goal contents tree after := by
  obtain ⟨directory, haim, -⟩ := unheard.aim located
  have hmissing := unheard.unused directory
  obtain ⟨filled, hsteps, hfilled⟩ := performAll_filled sound haim hmissing final contents
  have hagree : Agree [temporaryName label token] tree filled :=
    ⟨hfilled.workplace, fun p hp => by
      rw [hfilled.node, if_neg fun heq => hp (temporaryName label token) (by simp [heq]) (by simp)]⟩
  have hsource := (haim.keeps (hfilled.keeps (.inl hmissing))).locate_false
  have hgoal := hagree.locate unheard.unmentioned sound avoids false
  rw [hfilled.file] at hsource
  -- after a renaming that fails the temporary file is taken away
  have hfail : ∀ fault, filled.rename (temporaryPath final label token) final = .error fault →
      ∃ after, tree.atomicWrite final contents label token = (some fault, after) ∧
        Same tree after := by
    intro fault hrename
    have hdelete : filled.delete (temporaryPath final label token) =
        .ok (filled.remove (directory ++ [temporaryName label token])) := by
      rw [FileTree.delete, hsource]
      rfl
    refine ⟨filled.remove (directory ++ [temporaryName label token]), ?_, hfilled.same hmissing⟩
    rw [FileTree.atomicWrite]
    simp only [hsteps, hrename, settle, dropTemporary, hdelete]
  cases hlocate : tree.locate false final with
  | error fault =>
    have hrename : filled.rename (temporaryPath final label token) final = .error fault := by
      rw [FileTree.rename, hsource, hgoal, hlocate]
      rfl
    obtain ⟨after, hafter, hsame⟩ := hfail fault hrename
    exact .inl ⟨fault, after, hafter, hsame, .inl rfl⟩
  | ok found =>
    obtain ⟨goal, node⟩ := found
    obtain rfl := node?_of_locate hlocate
    have hrename := rename_filled hsource (hgoal.trans hlocate)
    split_ifs at hrename with hdir
    · obtain ⟨after, hafter, hsame⟩ := hfail _ hrename
      exact .inl ⟨_, after, hafter, hsame, .inr ⟨rfl, (locate_eq_ok_iff.mp hlocate).1⟩⟩
    · have hroot : goal ≠ [] := by
        rintro rfl
        exact hdir rfl
      have hparent : tree.node? goal.dropLast = some .directory := by
        cases hold : tree.node? goal with
        | none => exact (sound.parent (hold ▸ hlocate)).2.1
        | some old => exact sound.closed _ old hold
      refine .inr ⟨goal, _, ?_, rfl, hdir, hfilled.renamed hmissing hroot hparent hdir⟩
      rw [FileTree.atomicWrite]
      simp only [hsteps, hrename, settle]

/-- **All or nothing**: a file gets its contents, or the tree is as it was. -/
lemma atomicWrite_cases (sound : tree.Sound) (unheard : tree.IsUnheard label token)
    (avoids : Avoids [temporaryName label token] final.names) (contents : Bytes) :
    (∃ fault, (tree.atomicWrite final contents label token).1 = some fault ∧
      Same tree (tree.atomicWrite final contents label token).2 ∧
      (fault = .zeroCharacter → final.holdsZero = true) ∧
      (∀ directory, tree.locate true final.parent = .ok ⟨directory, some .directory⟩ →
        final.holdsZero = true → fault = .zeroCharacter)) ∨
    (tree.atomicWrite final contents label token).1 = none ∧ final.holdsZero = false ∧
      ∃ goal, tree.locate false final = .ok ⟨goal, tree.node? goal⟩ ∧
        tree.node? goal ≠ some .directory ∧
        Put goal contents tree (tree.atomicWrite final contents label token).2 := by
  have hholds : (temporaryPath final label token).holdsZero = true → final.holdsZero = true := by
    rw [temporaryPath_eq, Path.holdsZero, List.any_append, List.any_cons, List.any_nil,
      unheard.zero, Bool.or_false, Bool.or_false, List.any_eq_true]
    rintro ⟨name, hname, hzero⟩
    exact List.any_eq_true.mpr ⟨name, List.dropLast_subset _ hname, hzero⟩
  cases hfound : tree.locate true (temporaryPath final label token) with
  | error fault =>
    rw [atomicWrite_of_noPlace unheard hfound]
    refine .inl ⟨fault, rfl, ⟨⟨rfl, fun _ => rfl⟩, sound⟩, ?_, fun directory hparent _ => ?_⟩
    · rintro rfl
      exact hholds (locate_eq_zero_iff.mp hfound)
    · have hchild := locate_child hparent unheard.entry unheard.zero (by simp [unheard.unused]) true
      cases hchild.symm.trans hfound
  | ok found =>
    obtain ⟨fault, after, hafter, hsame, hlocate | ⟨rfl, hzero⟩⟩ |
      ⟨goal, after, hafter, hlocate, hfile, hput⟩ :=
        atomicWrite_of_place sound unheard avoids contents hfound
    · rw [hafter]
      refine .inl ⟨fault, rfl, hsame, ?_, fun _ _ hzero => ?_⟩
      · rintro rfl
        exact locate_eq_zero_iff.mp hlocate
      · rw [locate_eq_zero_iff.mpr hzero] at hlocate
        exact (Except.error.inj hlocate).symm
    · rw [hafter]
      exact .inl ⟨_, rfl, hsame, fun h => absurd h (by simp), fun _ _ hholds =>
        absurd hholds (by simp [hzero])⟩
    · rw [hafter]
      exact .inr ⟨rfl, (locate_eq_ok_iff.mp hlocate).1, goal, hlocate, hfile, hput⟩

/-- What is deleted is a file or a link. -/
lemma delete_ok {path : Path} (h : tree.delete path = .ok tree') :
    ∃ p, tree.locate false path = .ok ⟨p, tree.node? p⟩ ∧ p ≠ [] ∧
      tree.node? p ≠ some .directory ∧ tree' = tree.remove p := by
  rw [FileTree.delete] at h
  obtain ⟨⟨p, node⟩, hfound, h⟩ := bind_eq_ok_iff.mp h
  obtain rfl := node?_of_locate hfound
  refine ⟨p, hfound, ?_⟩
  cases hnode : tree.node? p with
  | none => simp [hnode] at h
  | some node =>
    have hroot : node ≠ .directory → p ≠ [] := by
      rintro hne rfl
      exact hne (Option.some.inj hnode).symm
    cases node with
    | directory => simp [hnode] at h
    | file contents =>
      simp only [hnode, Except.ok.injEq] at h
      exact ⟨hroot (by simp), by simp, h.symm⟩
    | link target =>
      simp only [hnode, Except.ok.injEq] at h
      exact ⟨hroot (by simp), by simp, h.symm⟩

/-- A tree with the same nodes mentions no other names. -/
lemma Same.unheard (same : Same tree tree') (unheard : tree.IsUnheard label token) :
    tree'.IsUnheard label token :=
  ⟨unheard.entry, unheard.zero,
    fun p node hnode => unheard.unmentioned.places p node (same.alike.node p ▸ hnode),
    fun p target hnode => unheard.unmentioned.targets p target (same.alike.node p ▸ hnode)⟩

/-- A file at a place without a name does not bring this name. -/
lemma Put.unheard {goal : Place} (put : Put goal contents tree tree')
    (unheard : tree.IsUnheard label token) (avoids : Avoids [temporaryName label token] goal) :
    tree'.IsUnheard label token := by
  refine ⟨unheard.entry, unheard.zero, fun p node hnode => ?_, fun p target hnode => ?_⟩
  · rw [put.node] at hnode
    split at hnode
    · next hp => exact hp ▸ avoids
    · exact unheard.unmentioned.places p node hnode
  · rw [put.node] at hnode
    split at hnode
    · cases hnode
    · exact unheard.unmentioned.targets p target hnode

/-- A removal does not bring a name. -/
lemma IsUnheard.remove (unheard : tree.IsUnheard label token) {p : Place} (ne : p ≠ []) :
    (tree.remove p).IsUnheard label token := by
  refine ⟨unheard.entry, unheard.zero, fun q node hnode => ?_, fun q target hnode => ?_⟩
  · rw [node?_remove ne] at hnode
    split at hnode
    · cases hnode
    · exact unheard.unmentioned.places q node hnode
  · rw [node?_remove ne] at hnode
    split at hnode
    · cases hnode
    · exact unheard.unmentioned.targets q target hnode

end Scaffold.Files.FileTree

namespace Scaffold

open Files FileTree

variable {tree : FileTree} {token text backup : String} {path : Path} {contents : Bytes}
  {action : UndoAction} {actions : List UndoAction} {outcome : UndoOutcome} {fault : Fault}

/-! ### Old bytes, whatever the path -/

section PutBack

variable (sound : tree.Sound) (unheard : tree.IsUnheard "restore" token)
  (avoids : Avoids [temporaryName "restore" token] path.names) (contents : Bytes)

include sound unheard avoids

/-- The tree in which the directory of a path has been made. -/
lemma makeDirectories_parent_ready :
    (tree.makeDirectories path.parent).2.Sound ∧
      (tree.makeDirectories path.parent).2.IsUnheard "restore" token := by
  have hmade := makeDirectories_made path.parent tree
  refine ⟨hmade.sound sound, unheard.entry, unheard.zero,
    hmade.unmentioned unheard.unmentioned sound fun name hname => ?_⟩
  exact avoids name (List.dropLast_subset _ hname)

/-- **A restoration that fails** has changed no contents; it leaves directories at
most. -/
lemma putBack_left :
    (putBack path contents token tree).2.Sound ∧
      (putBack path contents token tree).2.IsUnheard "restore" token ∧
      (∀ p target, (putBack path contents token tree).2.node? p = some (.link target) →
        tree.node? p = some (.link target)) ∧
      ((putBack path contents token tree).1 ≠ none →
        ∀ p, (putBack path contents token tree).2.contents? p = tree.contents? p) := by
  have hgrown := makeDirectories_grown path.parent tree
  obtain ⟨hsound, hunheard⟩ := makeDirectories_parent_ready sound unheard avoids
  rw [putBack]
  cases hmade : tree.makeDirectories path.parent with
  | mk fault grown =>
    rw [hmade] at hgrown hsound hunheard
    cases fault with
    | some fault =>
      exact ⟨hsound, hunheard, fun p target => (hgrown.keeps.link p target).mp,
        fun _ => hgrown.contents⟩
    | none =>
      simp only
      obtain ⟨fault, -, hsame, -⟩ | ⟨hnone, -, goal, hgoal, -, hput⟩ :=
        atomicWrite_cases hsound hunheard avoids contents
      · refine ⟨hsame.sound, hsame.unheard hunheard, fun p target hlink => ?_, fun _ p => ?_⟩
        · rw [hsame.alike.node] at hlink
          exact (hgrown.keeps.link p target).mp hlink
        · rw [← hgrown.contents p, contents?, contents?, hsame.alike.node]
      · refine ⟨hput.sound, hput.unheard hunheard ?_, fun p target hlink => ?_,
          fun h => absurd hnone h⟩
        · exact (locate_eq_ok_iff.mp hgoal).2.avoids hunheard.unmentioned.targets
            (hunheard.unmentioned.start hsound path) avoids
        · rw [hput.node] at hlink
          split at hlink
          · cases hlink
          · exact (hgrown.keeps.link p target).mp hlink

/-- When a restoration is refused for the character zero. -/
lemma putBack_eq_zero_iff :
    (putBack path contents token tree).1 = some .zeroCharacter ↔
      path.holdsZero = true ∧
        (path.parent.holdsZero = true ∨ (tree.makeDirectories path.parent).1 = none) := by
  have hparent : path.parent.holdsZero = true → path.holdsZero = true := by
    rw [Path.holdsZero, Path.holdsZero, List.any_eq_true, List.any_eq_true]
    rintro ⟨name, hname, hzero⟩
    exact ⟨name, List.dropLast_subset _ hname, hzero⟩
  obtain ⟨hsound, hunheard⟩ := makeDirectories_parent_ready sound unheard avoids
  have hzero : (tree.makeDirectories path.parent).1 = some .zeroCharacter ↔
      path.parent.holdsZero = true := makeDirectories_eq_zero_iff
  have hreached : (tree.makeDirectories path.parent).1 = none → _ := makeDirectories_reached
  rw [putBack]
  cases hmade : tree.makeDirectories path.parent with
  | mk fault grown =>
    rw [hmade] at hsound hunheard hzero hreached
    cases fault with
    | some fault =>
      simp only at hzero ⊢
      rw [hzero]
      simpa using hparent
    | none =>
      simp only [or_true, and_true]
      obtain ⟨directory, hdirectory⟩ := hreached rfl
      obtain ⟨fault, hfault, -, hmp, hmpr⟩ | ⟨hnone, hholds, -⟩ :=
        atomicWrite_cases hsound hunheard avoids contents
      · rw [hfault, Option.some.injEq]
        exact ⟨hmp, hmpr directory hdirectory⟩
      · simp [hnone, hholds]

end PutBack

/-! ### Single actions -/

/-- Why an action ends in no outcome. -/
inductive UndoAction.Breaks (action : UndoAction) (tree : FileTree) : Fault → Prop
  /-- The file to be deleted cannot be looked at. -/
  | name {text : String} (kind : action.kind = .delete) (path : action.fullPath = some text)
    (filled : text ≠ "") (long : tree.stat (.ofText text) = .error .nameTooLong) :
    Breaks action tree .nameTooLong
  /-- The path of the old bytes holds the character zero. -/
  | source {text backup : String} (kind : action.kind = .restore)
    (path : action.fullPath = some text) (filled : text ≠ "")
    (kept : action.backup = some backup) (named : backup ≠ "")
    (zero : (action.runPath.child backup).holdsZero = true) : Breaks action tree .zeroCharacter
  /-- The path of the file holds the character zero, and nothing else is wrong before this
  is noticed. -/
  | target {text backup : String} {contents : Bytes} (kind : action.kind = .restore)
    (path : action.fullPath = some text) (filled : text ≠ "")
    (kept : action.backup = some backup) (named : backup ≠ "")
    (read : tree.read (action.runPath.child backup) = .ok contents)
    (zero : (Path.ofText text).holdsZero = true)
    (reached : (Path.ofText text).parent.holdsZero = true ∨
      (tree.makeDirectories (Path.ofText text).parent).1 = none) :
    Breaks action tree .zeroCharacter

lemma filter_filled_iff {option : Option String} :
    option.filter (fun s => !s.isEmpty) = some text ↔ option = some text ∧ text ≠ "" := by
  rw [Option.filter_eq_some_iff]
  simp

/-- A deletion breaks when its path cannot be looked at. -/
lemma undoWriting_eq_error_iff :
    (undoWriting action path tree).1 = .error fault ↔
      fault = .nameTooLong ∧ tree.stat path = .error .nameTooLong := by
  rw [← holds_eq_error_iff, ← FileTree.isFile, undoWriting]
  cases hfile : tree.isFile path with
  | error other => simp
  | ok present =>
    cases present with
    | false => simp
    | true => cases hdelete : tree.delete path <;> simp

/-- **What an action does**: nothing, or it deletes a file, or it tries to put old bytes
back; the outcome says that it has been done. -/
lemma undo_cases (action : UndoAction) (token : String) (tree : FileTree) :
    (undo action token tree).2 = tree ∨
    (∃ text p, action.fullPath = some text ∧ text ≠ "" ∧
      tree.locate false (.ofText text) = .ok ⟨p, tree.node? p⟩ ∧ p ≠ [] ∧
      tree.node? p ≠ some .directory ∧
      (∃ detail, (undo action token tree).1 = .ok ⟨action, .deleted, detail⟩) ∧
      (undo action token tree).2 = tree.remove p) ∨
    ∃ text contents, action.fullPath = some text ∧ text ≠ "" ∧ action.kind = .restore ∧
      ((putBack (.ofText text) contents token tree).1 = none →
        ∃ detail, (undo action token tree).1 = .ok ⟨action, .restored, detail⟩) ∧
      (undo action token tree).2 = (putBack (.ofText text) contents token tree).2 := by
  rw [undo]
  split
  · exact .inl rfl
  · next text hpath =>
    obtain ⟨hfull, hfilled⟩ := filter_filled_iff.mp hpath
    cases action.kind with
    | delete =>
      simp only [undoWriting]
      cases tree.isFile (.ofText text) with
      | error fault => exact .inl rfl
      | ok present =>
        cases present with
        | false => exact .inl rfl
        | true =>
          cases hdelete : tree.delete (.ofText text) with
          | error fault => exact .inl rfl
          | ok changed =>
            obtain ⟨p, hlocate, hroot, hfile, rfl⟩ := delete_ok hdelete
            exact .inr (.inl ⟨text, p, hfull, hfilled, hlocate, hroot, hfile, ⟨_, rfl⟩, rfl⟩)
    | restore =>
      simp only [undoOverwriting]
      cases action.backup.filter fun s => !s.isEmpty with
      | none => exact .inl rfl
      | some backup =>
        simp only
        cases tree.read (action.runPath.child backup) with
        | error fault => cases fault <;> exact .inl rfl
        | ok contents =>
          refine .inr (.inr ⟨text, contents, hfull, hfilled, trivial, ?_⟩)
          simp only
          cases putBack (.ofText text) contents token tree with
          | mk fault after =>
            cases fault with
            | none => exact ⟨fun _ => ⟨_, rfl⟩, rfl⟩
            | some fault => cases fault <;> exact ⟨fun h => absurd h (by simp), rfl⟩

/-- The outcome of an action is one of this action. -/
lemma action_of_undo (h : (undo action token tree).1 = .ok outcome) : outcome.action = action := by
  rw [undo] at h
  split at h
  · exact Except.ok.inj h ▸ rfl
  · cases hkind : action.kind with
    | delete =>
      simp only [hkind, undoWriting] at h
      split at h
      · cases h
      · exact Except.ok.inj h ▸ rfl
      · split at h <;> exact Except.ok.inj h ▸ rfl
    | restore =>
      simp only [hkind, undoOverwriting] at h
      split at h
      · exact Except.ok.inj h ▸ rfl
      · split at h
        · cases h
        · exact Except.ok.inj h ▸ rfl
        · exact Except.ok.inj h ▸ rfl
        · split at h
          · cases h
          · exact Except.ok.inj h ▸ rfl
          · exact Except.ok.inj h ▸ rfl

section Undo

variable (sound : tree.Sound) (unheard : tree.IsUnheard "restore" token)

include sound unheard

/-- A restoration breaks when one of its two paths holds the character zero. -/
lemma undoOverwriting_eq_error_iff
    (avoids : Avoids [temporaryName "restore" token] path.names) :
    (undoOverwriting action path token tree).1 = .error fault ↔
      fault = .zeroCharacter ∧ ∃ backup, action.backup = some backup ∧ backup ≠ "" ∧
        ((action.runPath.child backup).holdsZero = true ∨
          (∃ contents, tree.read (action.runPath.child backup) = .ok contents) ∧
            path.holdsZero = true ∧
            (path.parent.holdsZero = true ∨ (tree.makeDirectories path.parent).1 = none)) := by
  rw [undoOverwriting]
  cases hbackup : action.backup.filter fun s => !s.isEmpty with
  | none =>
    have hnone : ∀ backup, action.backup = some backup → ¬ backup ≠ "" := by
      intro backup hkept hne
      rw [filter_filled_iff.mpr ⟨hkept, hne⟩] at hbackup
      cases hbackup
    simp only [reduceCtorEq, false_iff]
    rintro ⟨-, backup, hkept, hne, -⟩
    exact hnone backup hkept hne
  | some backup =>
    obtain ⟨hkept, hne⟩ := filter_filled_iff.mp hbackup
    have hzero : tree.read (action.runPath.child backup) = .error .zeroCharacter ↔ _ :=
      read_eq_zero_iff
    have hput := fun contents => putBack_eq_zero_iff sound unheard avoids contents
    have hothers : (∃ backup, action.backup = some backup ∧ backup ≠ "" ∧
        ((action.runPath.child backup).holdsZero = true ∨
          (∃ contents, tree.read (action.runPath.child backup) = .ok contents) ∧
            path.holdsZero = true ∧
            (path.parent.holdsZero = true ∨ (tree.makeDirectories path.parent).1 = none))) ↔
        (tree.read (action.runPath.child backup) = .error .zeroCharacter ∨
          ∃ contents, tree.read (action.runPath.child backup) = .ok contents ∧
            (putBack path contents token tree).1 = some .zeroCharacter) := by
      simp only [hput, hzero, hkept, Option.some.injEq, exists_eq_left', hne, not_false_eq_true,
        ne_eq, true_and, exists_and_right]
    rw [hothers]
    simp only
    cases hread : tree.read (action.runPath.child backup) with
    | error other => cases other <;> simp [eq_comm]
    | ok contents =>
      simp only [reduceCtorEq, Except.ok.injEq, exists_eq_left', false_or]
      cases hmade : putBack path contents token tree with
      | mk left after =>
        cases left with
        | none => simp
        | some other => cases other <;> simp [eq_comm]

/-- **Why an action ends in no outcome**: there are no other reasons. -/
lemma undo_eq_error_iff (avoids : ∀ text, action.fullPath = some text →
      Avoids [temporaryName "restore" token] (Path.ofText text).names) :
    (undo action token tree).1 = .error fault ↔ action.Breaks tree fault := by
  rw [undo]
  cases hpath : action.fullPath.filter fun s => !s.isEmpty with
  | none =>
    have hnone : ∀ text, action.fullPath = some text → ¬ text ≠ "" := by
      intro text hfull hne
      rw [filter_filled_iff.mpr ⟨hfull, hne⟩] at hpath
      cases hpath
    simp only [reduceCtorEq, false_iff]
    rintro (⟨_, hfull, hne, _⟩ | ⟨_, hfull, hne, _⟩ | ⟨_, hfull, hne, _⟩)
    all_goals exact hnone _ hfull hne
  | some text =>
    obtain ⟨hfull, hne⟩ := filter_filled_iff.mp hpath
    cases hkind : action.kind with
    | delete =>
      simp only [undoWriting_eq_error_iff]
      constructor
      · rintro ⟨rfl, hlong⟩
        exact .name hkind hfull hne hlong
      · rintro (⟨_, hother, _, hlong⟩ | ⟨kind, _⟩ | ⟨kind, _⟩)
        · obtain rfl := Option.some.inj (hfull.symm.trans hother)
          exact ⟨rfl, hlong⟩
        · cases hkind.symm.trans kind
        · cases hkind.symm.trans kind
    | restore =>
      simp only [undoOverwriting_eq_error_iff sound unheard (avoids text hfull)]
      constructor
      · rintro ⟨rfl, backup, hkept, hnamed, hzero | ⟨⟨contents, hread⟩, hzero, hreached⟩⟩
        · exact .source hkind hfull hne hkept hnamed hzero
        · exact .target hkind hfull hne hkept hnamed hread hzero hreached
      · rintro (⟨kind, _⟩ | ⟨_, hother, _, hkept, hnamed, hzero⟩ |
          ⟨_, hother, _, hkept, hnamed, hread, hzero, hreached⟩)
        · cases hkind.symm.trans kind
        · exact ⟨rfl, _, hkept, hnamed, .inl hzero⟩
        · obtain rfl := Option.some.inj (hfull.symm.trans hother)
          exact ⟨rfl, _, hkept, hnamed, .inr ⟨⟨_, hread⟩, hzero, hreached⟩⟩

/-- After an action everything lies in a directory, the name for temporary files is still
nowhere, and no link is new. -/
lemma undo_left (avoids : ∀ text, action.fullPath = some text →
      Avoids [temporaryName "restore" token] (Path.ofText text).names) :
    (undo action token tree).2.Sound ∧ (undo action token tree).2.IsUnheard "restore" token ∧
      ∀ p target, (undo action token tree).2.node? p = some (.link target) →
        tree.node? p = some (.link target) := by
  obtain hsame | ⟨-, p, -, -, -, hroot, hfile, -, hleft⟩ |
    ⟨text, contents, hfull, -, -, -, hleft⟩ := undo_cases action token tree
  · rw [hsame]
    exact ⟨sound, unheard, fun _ _ => id⟩
  · rw [hleft]
    refine ⟨sound.remove hroot hfile, unheard.remove hroot, fun q target hlink => ?_⟩
    rw [node?_remove hroot] at hlink
    split at hlink
    · cases hlink
    · exact hlink
  · rw [hleft]
    obtain ⟨hsound, hunheard, hlinks, -⟩ :=
      putBack_left sound unheard (avoids text hfull) contents
    exact ⟨hsound, hunheard, hlinks⟩

/-- **An action that failed or was skipped** has changed no contents. -/
lemma undo_kept (avoids : ∀ text, action.fullPath = some text →
      Avoids [temporaryName "restore" token] (Path.ofText text).names)
    (h : (undo action token tree).1 = .ok outcome)
    (idle : outcome.status = .error ∨ outcome.status = .skipped) (p : Place) :
    (undo action token tree).2.contents? p = tree.contents? p := by
  obtain hsame | ⟨_, _, -, -, -, -, -, ⟨detail, hdeleted⟩, -⟩ |
    ⟨text, contents, hfull, -, -, hrestored, hleft⟩ := undo_cases action token tree
  · rw [hsame]
  · rw [h, Except.ok.injEq] at hdeleted
    simp [hdeleted] at idle
  · rw [hleft]
    refine (putBack_left sound unheard (avoids text hfull) contents).2.2.2 (fun hnone => ?_) p
    obtain ⟨detail, hdetail⟩ := hrestored hnone
    rw [h, Except.ok.injEq] at hdetail
    simp [hdetail] at idle

end Undo

/-! ### Actions one after another -/

/-- The tree that actions leave, whatever becomes of them. -/
def leftBy (token : String) (actions : List UndoAction) (tree : FileTree) : FileTree :=
  actions.foldl (fun left action => (undo action token left).2) tree

/-- A name for temporary files that is neither in a tree nor in the paths of actions. -/
structure IsApart (token : String) (actions : List UndoAction) (tree : FileTree) : Prop where
  /-- It is not in the tree. -/
  tree : tree.IsUnheard "restore" token
  /-- It is not in a path. -/
  paths : ∀ action ∈ actions, ∀ text ∈ action.fullPath,
    Avoids [temporaryName "restore" token] (Path.ofText text).names

/-- After one of the actions the name is still neither in the tree nor in the paths. -/
lemma IsApart.step (h : IsApart token (action :: actions) tree) (sound : tree.Sound) :
    (undo action token tree).2.Sound ∧ IsApart token actions (undo action token tree).2 := by
  obtain ⟨hsound, hunheard, -⟩ := undo_left sound h.tree (h.paths action (by simp))
  exact ⟨hsound, hunheard, fun other hother => h.paths other (by simp [hother])⟩

/-- A rollback ends at an action that ends in no outcome, or goes on behind it. -/
lemma undoAll_cons_eq_ok {outcomes : List UndoOutcome} :
    (undoAll token (action :: actions) tree).1 = .ok outcomes ↔
      ∃ outcome others, (undo action token tree).1 = .ok outcome ∧
        (undoAll token actions (undo action token tree).2).1 = .ok others ∧
        outcomes = outcome :: others := by
  rw [undoAll]
  cases hundo : undo action token tree with
  | mk result next =>
    cases result with
    | error fault => simp
    | ok outcome =>
      rw [map_eq_ok_iff]
      simp only [Except.ok.injEq]
      constructor
      · rintro ⟨others, hothers, rfl⟩
        exact ⟨outcome, others, rfl, hothers, rfl⟩
      · rintro ⟨_, others, rfl, hothers, rfl⟩
        exact ⟨others, hothers, rfl⟩

/-- A rollback that comes to its end leaves what the actions leave one after another. -/
lemma undoAll_left {outcomes : List UndoOutcome}
    (h : (undoAll token actions tree).1 = .ok outcomes) :
    (undoAll token actions tree).2 = leftBy token actions tree := by
  induction actions generalizing tree outcomes with
  | nil => rfl
  | cons action actions ih =>
    obtain ⟨outcome, others, hundo, hothers, -⟩ := undoAll_cons_eq_ok.mp h
    rw [undoAll]
    cases hnext : undo action token tree with
    | mk result next =>
      rw [hnext] at hundo hothers
      simp only at hundo
      rw [hundo, leftBy, List.foldl_cons, hnext]
      exact ih hothers

/-- **The end of a rollback**: it is reached exactly if no action breaks when its turn
comes. -/
lemma undoAll_isOk_iff (sound : tree.Sound) (apart : IsApart token actions tree) :
    (∃ outcomes, (undoAll token actions tree).1 = .ok outcomes) ↔
      ∀ before action after, actions = before ++ action :: after →
        ∀ fault, ¬ action.Breaks (leftBy token before tree) fault := by
  induction actions generalizing tree with
  | nil => simp [undoAll]
  | cons action actions ih =>
    obtain ⟨hsound, hstep⟩ := apart.step sound
    have hbreaks : ∀ fault, (undo action token tree).1 = .error fault ↔ action.Breaks tree fault :=
      fun _ => undo_eq_error_iff sound apart.tree (apart.paths action (by simp))
    constructor
    · rintro ⟨outcomes, h⟩ before other after hcut fault hother
      obtain ⟨outcome, others, hundo, hothers, -⟩ := undoAll_cons_eq_ok.mp h
      cases before with
      | nil =>
        obtain ⟨rfl, -⟩ := List.cons.inj hcut
        cases hundo.symm.trans ((hbreaks fault).mpr hother)
      | cons first before =>
        obtain ⟨rfl, rfl⟩ := List.cons.inj hcut
        exact (ih hsound hstep).mp ⟨others, hothers⟩ before other after rfl fault hother
    · intro h
      obtain ⟨others, hothers⟩ := (ih hsound hstep).mpr fun before other after hcut fault hother =>
        h (action :: before) other after (by rw [hcut, List.cons_append]) fault hother
      cases hundo : (undo action token tree).1 with
      | error fault => exact absurd ((hbreaks fault).mp hundo) (h [] action actions rfl fault)
      | ok outcome => exact ⟨_, undoAll_cons_eq_ok.mpr ⟨outcome, others, hundo, hothers, rfl⟩⟩

/-- **The outcomes of a rollback**: one for each action, in their order, each of them what
the action came to in the tree that those before it had left. -/
lemma outcomes_of_undoAll {outcomes : List UndoOutcome}
    (h : (undoAll token actions tree).1 = .ok outcomes) :
    outcomes.map (·.action) = actions ∧
      ∀ before action after, actions = before ++ action :: after →
        ∃ outcome, outcomes[before.length]? = some outcome ∧
          undo action token (leftBy token before tree) =
            (.ok outcome, leftBy token (before ++ [action]) tree) := by
  induction actions generalizing tree outcomes with
  | nil =>
    obtain rfl : outcomes = [] := (Except.ok.inj h).symm
    simp
  | cons action actions ih =>
    obtain ⟨outcome, others, hundo, hothers, rfl⟩ := undoAll_cons_eq_ok.mp h
    obtain ⟨hactions, hturns⟩ := ih hothers
    refine ⟨by rw [List.map_cons, hactions, action_of_undo hundo], ?_⟩
    intro before other after hcut
    cases before with
    | nil =>
      obtain ⟨rfl, -⟩ := List.cons.inj hcut
      exact ⟨outcome, rfl, Prod.ext hundo rfl⟩
    | cons first before =>
      obtain ⟨rfl, hrest⟩ := List.cons.inj hcut
      obtain ⟨outcome', houtcome, hturn⟩ := hturns before other after hrest
      exact ⟨outcome', by simpa using houtcome, hturn⟩

/-- The tree in which an action has its turn. -/
lemma IsApart.turn {before after : List UndoAction} (sound : tree.Sound)
    (apart : IsApart token (before ++ action :: after) tree) :
    (leftBy token before tree).Sound ∧
      IsApart token (action :: after) (leftBy token before tree) := by
  induction before generalizing tree with
  | nil => exact ⟨sound, apart⟩
  | cons first before ih =>
    obtain ⟨hsound, hstep⟩ := apart.step sound
    exact ih hsound hstep

/-- **Rolling back goes as far as possible.** It comes to its end exactly if no action
breaks when its turn comes: looks at a path with a name that is too long, or opens a path
with the character zero. Then there is one outcome for each action, in the same order;
every action has been applied to what those before it have left, whatever became of them;
and one that failed or was skipped has changed the contents of no file. -/
theorem undoAll_bestEffort (sound : tree.Sound) (apart : IsApart token actions tree) :
    ((∃ outcomes, (undoAll token actions tree).1 = .ok outcomes) ↔
      ∀ before action after, actions = before ++ action :: after →
        ∀ fault, ¬ action.Breaks (leftBy token before tree) fault) ∧
    ∀ outcomes, (undoAll token actions tree).1 = .ok outcomes →
      outcomes.map (·.action) = actions ∧
      (undoAll token actions tree).2 = leftBy token actions tree ∧
      ∀ before action after, actions = before ++ action :: after →
        ∃ outcome, outcomes[before.length]? = some outcome ∧
          undo action token (leftBy token before tree) =
            (.ok outcome, leftBy token (before ++ [action]) tree) ∧
          (outcome.status = .error ∨ outcome.status = .skipped →
            ∀ p, (leftBy token (before ++ [action]) tree).contents? p =
              (leftBy token before tree).contents? p) := by
  refine ⟨undoAll_isOk_iff sound apart, fun outcomes h => ?_⟩
  obtain ⟨hactions, hturns⟩ := outcomes_of_undoAll h
  refine ⟨hactions, undoAll_left h, fun before action after hcut => ?_⟩
  obtain ⟨outcome, houtcome, hturn⟩ := hturns before action after hcut
  refine ⟨outcome, houtcome, hturn, fun idle p => ?_⟩
  obtain ⟨hsound, hapart⟩ := (hcut ▸ apart).turn sound
  have hkept := undo_kept hsound hapart.tree (hapart.paths action (by simp))
    (congrArg Prod.fst hturn) idle p
  rwa [hturn] at hkept

/-- Three actions: the first cannot be carried out, the second finds nothing to do. -/
def threeActions : List UndoAction :=
  [⟨.restore, "r", .ofText "/h/r", "r", some "a.txt", some "/out/a.txt", some "001_a.txt"⟩,
   ⟨.delete, "r", .ofText "/h/r", "r", some "b.txt", some "/out/b.txt", none⟩,
   ⟨.delete, "r", .ofText "/h/r", "r", some "c.txt", some "/out/c.txt", none⟩]

/-- The files that the first and the last of the actions are about. -/
def twoOutputs : FileTree :=
  ⟨[], [(["out"], .directory), (["out", "a.txt"], .file [65]), (["out", "c.txt"], .file [67])],
    [], 0⟩

/-- The last action is carried out although the first one fails. -/
theorem undoAll_bestEffort_threeActions :
    twoOutputs.Sound ∧ IsApart "t" threeActions twoOutputs ∧
    ∃ outcomes, (undoAll "t" threeActions twoOutputs).1 = .ok outcomes ∧
      outcomes.map (·.status) = [.error, .skipped, .deleted] ∧
      outcomes.map (·.action) = threeActions ∧
      (leftBy "t" threeActions twoOutputs).contents? ["out", "a.txt"] = some [65] ∧
      (leftBy "t" threeActions twoOutputs).contents? ["out", "c.txt"] = none := by
  have sound : twoOutputs.Sound := by decide +kernel
  have apart : IsApart "t" threeActions twoOutputs :=
    ⟨⟨by decide +kernel, by decide +kernel, unmentioned_of_nodes (by decide +kernel)⟩,
      by decide +kernel⟩
  have hdone : (undoAll "t" threeActions twoOutputs).1.toOption.map (·.map (·.status)) =
      some [.error, .skipped, .deleted] := by decide +kernel
  cases hall : (undoAll "t" threeActions twoOutputs).1 with
  | error fault =>
    rw [hall] at hdone
    cases hdone
  | ok outcomes =>
    rw [hall] at hdone
    obtain ⟨hactions, -⟩ := (undoAll_bestEffort sound apart).2 outcomes hall
    exact ⟨sound, apart, outcomes, rfl, Option.some.inj hdone, hactions, by decide +kernel,
      by decide +kernel⟩

/-- The character zero in the name of old bytes keeps the next action from being tried. -/
theorem undoAll_breaks :
    ∃ first second, first.Breaks twoOutputs .zeroCharacter ∧
      (undoAll "t" [first, second] twoOutputs).1 = .error .zeroCharacter ∧
      (undoAll "t" [first, second] twoOutputs).2.contents? ["out", "c.txt"] = some [67] ∧
      (undoAll "t" [second] twoOutputs).2.contents? ["out", "c.txt"] = none :=
  ⟨⟨.restore, "r", .ofText "/h/r", "r", some "a.txt", some "/out/a.txt", some "\x00"⟩,
    ⟨.delete, "r", .ofText "/h/r", "r", some "c.txt", some "/out/c.txt", none⟩,
    .source rfl rfl (by decide) rfl (by decide) (by decide +kernel), by decide +kernel,
    by decide +kernel, by decide +kernel⟩

/-! ### Plans without odd names -/

/-- An action whose paths have no odd names: none holds the character zero, and none that
a walk can come to is too long. -/
structure UndoAction.IsOrdinary (action : UndoAction) (tree : FileTree) : Prop where
  /-- The names in the path of the file and in the links of the tree are short enough. -/
  short : ∀ text ∈ action.fullPath, ∀ name, tree.Mentioned (Path.ofText text).names name →
    tooLong name = false
  /-- The path of the file does not hold the character zero. -/
  file : ∀ text ∈ action.fullPath, (Path.ofText text).holdsZero = false
  /-- The path of the old bytes does not hold it either. -/
  backup : ∀ backup ∈ action.backup, (action.runPath.child backup).holdsZero = false

/-- An action without odd names ends in an outcome. -/
lemma UndoAction.IsOrdinary.not_breaks (h : action.IsOrdinary tree) :
    ¬ action.Breaks tree fault := by
  rintro (⟨-, hfull, -, hlong⟩ | ⟨-, -, -, hkept, -, hzero⟩ | ⟨-, hfull, -, -, -, -, hzero, -⟩)
  · obtain ⟨name, hname, hlong⟩ :=
      exists_tooLong_of_locate ((stat_eq_error_iff_of_ne (by simp)).mp hlong)
    rw [h.short _ hfull name hname] at hlong
    cases hlong
  · rw [h.backup _ hkept] at hzero
    cases hzero
  · rw [h.file _ hfull] at hzero
    cases hzero

/-- **A plan without odd names is always carried out to its end.** -/
theorem undoAll_isOk_of_ordinary (sound : tree.Sound) (apart : IsApart token actions tree)
    (ordinary : ∀ action ∈ actions, action.IsOrdinary tree) :
    ∃ outcomes, (undoAll token actions tree).1 = .ok outcomes := by
  induction actions generalizing tree with
  | nil => exact ⟨[], rfl⟩
  | cons action actions ih =>
    obtain ⟨hsound, hstep⟩ := apart.step sound
    obtain ⟨-, -, hlinks⟩ := undo_left sound apart.tree (apart.paths action (by simp))
    -- a rollback makes no links, so no name comes into its reach
    obtain ⟨others, hothers⟩ := ih hsound hstep fun other hother => by
      obtain ⟨short, file, backup⟩ := ordinary other (by simp [hother])
      refine ⟨fun text htext name hname => short text htext name ?_, file, backup⟩
      exact hname.imp id fun ⟨p, target, hlink, hmem⟩ => ⟨p, target, hlinks p target hlink, hmem⟩
    cases hundo : (undo action token tree).1 with
    | error fault =>
      exact absurd ((undo_eq_error_iff sound apart.tree (apart.paths action (by simp))).mp hundo)
        (ordinary action (by simp)).not_breaks
    | ok outcome => exact ⟨_, undoAll_cons_eq_ok.mpr ⟨outcome, others, hundo, hothers, rfl⟩⟩

end Scaffold
