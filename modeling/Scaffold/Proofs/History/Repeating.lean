import Scaffold.Proofs.Files.Lasting
import Scaffold.Proofs.History.Holdings
import Scaffold.Proofs.History.Touching

/-!
Rolling back twice.

When a rollback of recorded runs has come to its end without an error, every file has what the
last action for it gave it, and the directories of all files that were restored are there. The
same actions once more take a file through the same contents again, some of them in vain where
a directory has taken the place of a file, and leave everything as it was. Only a path with a
name that is too long is in the way: at first it may end at a missing directory, and this
directory may be there the second time.

* `UndoAction.AimsAt`: the place that an action changes, once the directory is there;
  `undo_aims`, `undoAll_aims`: contents change nowhere else.
* `UndoAction.Done`, `allDone_undoAll`: what the actions of a rollback have done at its end.
* `Resumes`: a tree during the second rollback; `Resumes.step`, `undoAll_resumes`: it differs
  less and less from the one at the end of the first.
* `Run.IsRecordedIn`: runs that have been recorded; `exists_isRecordedIn_of_record`: so is
  what a recording leaves.
* `undoAll_again`: a second rollback changes nothing; `undoAll_again_breaks` shows one that is
  broken off.
-/

namespace Scaffold.Files.FileTree

variable {tree tree' : FileTree} {path : Path} {directory directory' top : Place}
  {name name' : String} {contents : Bytes}

/-! ### Aims and later trees -/

/-- A path aims at one place only. -/
lemma Aim.unique (h : tree.Aim path directory name) (h' : tree.Aim path directory' name') :
    directory = directory' ∧ name = name' := by
  have hparent := h.parent.symm.trans h'.parent
  have hnames := h.names.symm.trans h'.names
  simp only [Except.ok.injEq, Found.mk.injEq, and_true] at hparent
  exact ⟨hparent, by simpa using hnames⟩

/-- A plain path that aims at something in a later tree does so as soon as the directory is
there. -/
lemma Aim.earlier (h : tree'.Aim path directory name) (keeps : Keeps tree tree')
    (sound : tree.Sound) (noLinks : tree.NoLinks) (plain : IsPlain path)
    (there : tree.node? directory = some .directory) : tree.Aim path directory name := by
  refine ⟨?_, h.names, h.entry, h.zero⟩
  have hplain : ∀ n ∈ path.parent.names, n ≠ "." ∧ n ≠ ".." :=
    fun n hn => plain n (List.dropLast_subset _ hn)
  obtain ⟨hzero, hleads⟩ := locate_eq_ok_iff.mp h.parent
  obtain ⟨hfound, hfits, -⟩ := (leads_iff_of_noLinks (keeps.noLinks noLinks) hplain).mp hleads
  rw [keeps.start, Found.mk.injEq] at hfound
  obtain ⟨rfl, -⟩ := hfound
  refine locate_eq_ok_iff.mpr ⟨hzero, (leads_iff_of_noLinks noLinks hplain).mpr
    ⟨by rw [there], hfits, fun k hk => ?_⟩⟩
  -- the places on the way lie above the directory
  rw [← List.take_append_drop k path.parent.names, ← List.append_assoc] at there
  exact sound.above there (by simpa using hk)

/-- A file inside a directory whose files keep their contents can still be read. -/
lemma read_kept (noLinks : tree.NoLinks) (keeps : Keeps tree tree')
    (same : ∀ p, top <+: p → tree'.contents? p = tree.contents? p)
    (inside : top <+: tree.goal path) (h : tree.read path = .ok contents) :
    tree'.read path = .ok contents := by
  obtain ⟨p, hlocate⟩ := read_eq_ok_iff.mp h
  have hgoal : p = tree.goal path := place_of_locate noLinks hlocate
  have hfile : tree'.node? p = some (.file contents) := by
    rw [← contents?_eq_some_iff, same p (hgoal ▸ inside), contents?_eq_some_iff]
    exact node?_of_locate hlocate
  have hlater := keeps.locate hlocate
  rw [hfile] at hlater
  exact read_eq_ok_iff.mpr ⟨p, hlater⟩

end Scaffold.Files.FileTree

namespace Scaffold

open Files FileTree

variable {tree tree' after planned : FileTree} {token token' text : String} {root : Path}
  {p top directory : Place} {name : String} {contents : Bytes} {action : UndoAction}
  {actions rest : List UndoAction} {outcome : UndoOutcome} {outcomes : List UndoOutcome}
  {fault : Fault} {run : Run} {runs : List Run}

/-! ### Aims of actions -/

/-- An action aims at a place: its whole path does. -/
def UndoAction.AimsAt (action : UndoAction) (tree : FileTree) (p : Place) : Prop :=
  ∃ text ∈ action.fullPath, ∃ directory name,
    tree.Aim (.ofText text) directory name ∧ p = directory ++ [name]

lemma UndoAction.AimsAt.keeps (h : action.AimsAt tree p) (keeps : Keeps tree tree') :
    action.AimsAt tree' p := by
  obtain ⟨text, hfull, directory, name, haim, rfl⟩ := h
  exact ⟨text, hfull, directory, name, haim.keeps keeps, rfl⟩

/-- The place at which a path aims is its only one. -/
lemma UndoAction.AimsAt.eq (h : action.AimsAt tree p) (full : action.fullPath = some text)
    (aim : tree.Aim (.ofText text) directory name) : p = directory ++ [name] := by
  obtain ⟨other, hother, directory', name', haim, rfl⟩ := h
  obtain rfl := Option.some.inj (full.symm.trans hother)
  obtain ⟨rfl, rfl⟩ := aim.unique haim
  rfl

/-- What an action aims at it names. -/
lemma UndoAction.AimsAt.names (h : action.AimsAt tree p) (noLinks : tree.NoLinks) :
    action.Names tree p := by
  obtain ⟨text, hfull, directory, name, haim, rfl⟩ := h
  have hfilled := (filter_filled_iff.mp (filter_eq_of_aim haim)).2
  exact ⟨text, hfull, hfilled, (place_of_locate noLinks (haim.locate_true (noLinks _))).symm⟩

/-- No action aims at a place. -/
def Unaimed (actions : List UndoAction) (tree : FileTree) (p : Place) : Prop :=
  ∀ action ∈ actions, ¬ action.AimsAt tree p

/-! ### Single actions -/

/-- A restoration that is no error has read the old bytes and put them back. -/
lemma exists_putBack_of_undo (restores : action.kind = .restore)
    (done : (undo action token tree).1 = .ok outcome) (clean : outcome.status ≠ .error) :
    ∃ text backup contents, action.fullPath = some text ∧ text ≠ "" ∧
      action.backup = some backup ∧ backup ≠ "" ∧
      tree.read (action.runPath.child backup) = .ok contents ∧
      (putBack (.ofText text) contents token tree).1 = none ∧
      (undo action token tree).2 = (putBack (.ofText text) contents token tree).2 := by
  rw [undo] at done ⊢
  split at done
  · exact absurd rfl (Except.ok.inj done ▸ clean)
  · next text hpath =>
    obtain ⟨hfull, hfilled⟩ := filter_filled_iff.mp hpath
    simp only [restores, undoOverwriting] at done ⊢
    split at done
    · exact absurd rfl (Except.ok.inj done ▸ clean)
    · next backup hbackup =>
      obtain ⟨hkept, hnamed⟩ := filter_filled_iff.mp hbackup
      split at done
      · cases done
      · exact absurd rfl (Except.ok.inj done ▸ clean)
      · exact absurd rfl (Except.ok.inj done ▸ clean)
      · next contents hread =>
        refine ⟨text, backup, contents, hfull, hfilled, hkept, hnamed, hread, ?_⟩
        split at done
        · cases done
        · exact absurd rfl (Except.ok.inj done ▸ clean)
        · next hdone => simp [hdone]

section Step

variable (sound : tree.Sound) (noLinks : tree.NoLinks) (unheard : tree.IsUnheard "restore" token)
  (avoids : ∀ text, action.fullPath = some text →
    Avoids [temporaryName "restore" token] (Path.ofText text).names)

include sound noLinks unheard avoids

/-- Old bytes have been put where the path aims after that. -/
lemma putBack_aim (full : action.fullPath = some text) (filled : text ≠ "")
    (put : (putBack (.ofText text) contents token tree).1 = none) :
    ∃ directory name,
      (putBack (.ofText text) contents token tree).2.Aim (.ofText text) directory name ∧
      (putBack (.ofText text) contents token tree).2.node? (directory ++ [name]) =
        some (.file contents) ∧
      ∀ p, p ≠ directory ++ [name] →
        (putBack (.ofText text) contents token tree).2.contents? p = tree.contents? p := by
  have hgrown := makeDirectories_grown (Path.ofText text).parent tree
  obtain ⟨hsound, hunheard⟩ := makeDirectories_parent_ready sound unheard (avoids text full)
  rw [putBack] at put ⊢
  cases hmade : tree.makeDirectories (Path.ofText text).parent with
  | mk fault grown =>
    rw [hmade] at hgrown hsound hunheard put
    cases fault with
    | some fault => cases put
    | none =>
      simp only at put ⊢
      have hlinks := hgrown.keeps.noLinks noLinks
      have htouched := touched_atomicWrite hsound hlinks hunheard full filled (avoids text full)
        contents
      obtain ⟨fault, hfault, -⟩ | ⟨-, -, goal, hlocate, -, hput⟩ :=
        atomicWrite_cases hsound hunheard (avoids text full) contents
      · rw [put] at hfault
        cases hfault
      · have hlater := htouched.keeps.locate hlocate
        have hfile : (grown.atomicWrite (.ofText text) contents "restore" token).2.node? goal =
            some (.file contents) := by rw [hput.node, if_pos rfl]
        rw [locate_follow_of_noLinks (htouched.noLinks hlinks), hfile] at hlater
        obtain ⟨directory, name, haim, -, hgoal⟩ := exists_aim hput.sound hlater
        obtain rfl := hgoal (htouched.noLinks hlinks _)
        refine ⟨directory, name, haim, hfile, fun p hp => ?_⟩
        rw [contents?, hput.node, if_neg hp]
        exact hgrown.contents p

/-- **One action** changes contents only where it aims. -/
lemma undo_aims (p : Place) :
    (undo action token tree).2.contents? p = tree.contents? p ∨
      action.AimsAt (undo action token tree).2 p := by
  have hkeeps := (undo_touched sound noLinks unheard avoids).keeps
  obtain hsame | ⟨text, q, hfull, -, hlocate, hroot, hfile, -, hleft⟩ |
    ⟨text, contents, hfull, hfilled, -, -, hleft⟩ := undo_cases action token tree
  · exact .inl (by rw [hsame])
  · by_cases hp : p = q
    · obtain hnone | ⟨contents, hcontents⟩ := vacant_of_noLinks noLinks hfile
      · rw [hleft, contents?_remove hroot, if_pos hp, hp, contents?, hnone]
        exact .inl rfl
      · rw [locate_follow_of_noLinks noLinks, hcontents] at hlocate
        obtain ⟨directory, name, haim, -, hgoal⟩ := exists_aim sound hlocate
        exact .inr ⟨text, hfull, directory, name, haim.keeps hkeeps,
          hp.trans (hgoal (noLinks _))⟩
    · rw [hleft, contents?_remove hroot, if_neg hp]
      exact .inl rfl
  · rw [hleft]
    cases hput : (putBack (.ofText text) contents token tree).1 with
    | some fault =>
      have hkept := (putBack_left sound unheard (avoids text hfull) contents).2.2.2
      exact .inl (hkept (by simp [hput]) p)
    | none =>
      obtain ⟨directory, name, haim, -, hothers⟩ :=
        putBack_aim sound noLinks unheard avoids hfull hfilled hput
      by_cases hp : p = directory ++ [name]
      · exact .inr ⟨text, hfull, directory, name, haim, hp⟩
      · exact .inl (hothers p hp)

/-- A file that was written is gone after its deletion, also when the path did not lead
there yet. -/
lemma undo_deleted (deletes : action.kind = .delete)
    (plain : ∀ text ∈ action.fullPath, IsPlain (.ofText text)) (keeps : Keeps tree tree')
    (aims : action.AimsAt tree' p) : (undo action token tree).2.contents? p = none := by
  have hkeeps := (undo_touched sound noLinks unheard avoids).keeps
  obtain ⟨text, hfull, directory, name, haim, rfl⟩ := aims
  cases hnode : tree.node? (directory ++ [name]) with
  | none =>
    obtain hsame | ⟨-, q, -, -, -, hroot, -, -, hleft⟩ | ⟨-, -, -, -, hkind, -⟩ :=
      undo_cases action token tree
    · rw [hsame, contents?, hnode]
    · rw [hleft, contents?_remove hroot]
      split
      · rfl
      · rw [contents?, hnode]
    · cases deletes.symm.trans hkind
  | some node =>
    cases node with
    | link target => exact absurd hnode (noLinks _ target)
    | directory => rw [contents?, hkeeps.directory _ hnode]
    | file contents =>
      have hdir := sound.closed _ _ hnode
      rw [List.dropLast_concat] at hdir
      have haim' := haim.earlier keeps sound noLinks (plain text hfull) hdir
      obtain ⟨-, -, -, hgone⟩ := @undo_delete tree directory name token action text hfull
        deletes haim' (by simp [hnode]) (noLinks _)
      exact hgone

/-- A restoration that is no error has put the old bytes where its path aims. -/
lemma undo_restored (restores : action.kind = .restore)
    (done : (undo action token tree).1 = .ok outcome) (clean : outcome.status ≠ .error) :
    ∃ text backup contents directory name, action.fullPath = some text ∧
      action.backup = some backup ∧ backup ≠ "" ∧
      tree.read (action.runPath.child backup) = .ok contents ∧
      (undo action token tree).2.Aim (.ofText text) directory name ∧
      (undo action token tree).2.contents? (directory ++ [name]) = some contents := by
  obtain ⟨text, backup, contents, hfull, hfilled, hkept, hnamed, hread, hnone, hleft⟩ :=
    exists_putBack_of_undo restores done clean
  obtain ⟨directory, name, haim, hfile, -⟩ :=
    putBack_aim sound noLinks unheard avoids hfull hfilled hnone
  rw [hleft]
  exact ⟨text, backup, contents, directory, name, hfull, hkept, hnamed, hread, haim,
    contents?_eq_some_iff.mpr hfile⟩

omit noLinks in
/-- Where the directory of its file is there an action makes none. -/
lemma undo_directories (ready : action.kind = .restore → ∀ text ∈ action.fullPath,
      ∃ directory, tree.locate true (Path.ofText text).parent = .ok ⟨directory, some .directory⟩)
    (h : (undo action token tree).2.node? p = some .directory) :
    tree.node? p = some .directory := by
  obtain hsame | ⟨-, q, -, -, -, hroot, -, -, hleft⟩ |
    ⟨text, contents, hfull, -, hkind, -, hleft⟩ := undo_cases action token tree
  · rwa [hsame] at h
  · rw [hleft, node?_remove hroot] at h
    split at h
    · cases h
    · exact h
  · obtain ⟨directory, hparent⟩ := ready hkind text hfull
    rw [hleft, putBack, makeDirectories_of_present hparent] at h
    simp only at h
    obtain ⟨-, -, hsame, -⟩ | ⟨-, -, goal, -, -, hput⟩ :=
      atomicWrite_cases sound unheard (avoids text hfull) contents
    · rwa [hsame.alike.node] at h
    · rw [hput.node] at h
      split at h
      · cases h
      · exact h

end Step

/-! ### What a rollback has done -/

/-- An action that can be repeated: its path does not lead upwards, and the old bytes lie in a
directory which it does not enter. -/
structure UndoAction.StaysOut (action : UndoAction) (tree : FileTree) (top : Place) : Prop where
  /-- The path of the file does not lead upwards. -/
  plain : ∀ text ∈ action.fullPath, ".." ∉ (Path.ofText text).names
  /-- The file does not lie in the directory. -/
  file : ∀ p, action.Names tree p → ¬ top <+: p
  /-- The old bytes lie in it. -/
  backup : ∀ backup ∈ action.backup, top <+: tree.goal (action.runPath.child backup)

namespace UndoAction.StaysOut

lemma keeps (h : action.StaysOut tree top) (keeps : Keeps tree tree') :
    action.StaysOut tree' top :=
  ⟨h.plain, fun p hnames => h.file p ((action.names_congr keeps.workplace p).mp hnames),
    fun backup hbackup => (goal_congr keeps.workplace _).symm ▸ h.backup backup hbackup⟩

lemma isPlain (h : action.StaysOut tree top) (full : text ∈ action.fullPath) :
    IsPlain (.ofText text) := fun _ hname =>
  ⟨((Path.ofText_isWritten text).names _ hname).2.1, fun hup => h.plain text full (hup ▸ hname)⟩

lemma not_aimsAt (h : action.StaysOut tree top) (noLinks : tree.NoLinks) (inside : top <+: p) :
    ¬ action.AimsAt tree p :=
  fun haims => h.file p (haims.names noLinks) inside

end UndoAction.StaysOut

/-- **A rollback** changes contents only where its actions aim. -/
lemma undoAll_aims (sound : tree.Sound) (noLinks : tree.NoLinks)
    (apart : IsApart token actions tree)
    (unaimed : Unaimed actions (undoAll token actions tree).2 p) :
    (undoAll token actions tree).2.contents? p = tree.contents? p := by
  have hall : MidRollback token actions tree (undoAll token actions tree).2 ∧
      ((undoAll token actions tree).2.contents? p = tree.contents? p ∨
        ∃ action ∈ actions, action.AimsAt (undoAll token actions tree).2 p) := by
    refine undoAll_induction (motive := fun left => MidRollback token actions tree left ∧
      (left.contents? p = tree.contents? p ∨ ∃ action ∈ actions, action.AimsAt left p))
      ⟨⟨sound, apart.tree, .refl actions tree⟩, .inl rfl⟩ ?_
    rintro action hmem left ⟨hmid, hleft⟩
    have hlinks := hmid.touched.noLinks noLinks
    have hkeeps := (undo_touched hmid.sound hlinks hmid.unheard (apart.paths action hmem)).keeps
    refine ⟨hmid.step noLinks apart hmem, ?_⟩
    rcases hleft with hsame | ⟨other, hother, haims⟩
    · rcases undo_aims hmid.sound hlinks hmid.unheard (apart.paths action hmem) p with
        hstep | haims
      · exact .inl (hstep.trans hsame)
      · exact .inr ⟨action, hmem, haims⟩
    · exact .inr ⟨other, hother, haims.keeps hkeeps⟩
  obtain ⟨-, hsame | ⟨action, hmem, haims⟩⟩ := hall
  · exact hsame
  · exact absurd haims (unaimed action hmem)

/-- What an action without an error has done, as far as the actions behind it let it be. -/
structure UndoAction.Done (action : UndoAction) (rest : List UndoAction) (after : FileTree) :
    Prop where
  /-- The file that was written is gone. -/
  deleted : action.kind = .delete → ∀ p, action.AimsAt after p → Unaimed rest after p →
    after.contents? p = none
  /-- The file that was overwritten has the bytes that are kept for it. -/
  restored : action.kind = .restore → ∃ text backup contents directory name,
    action.fullPath = some text ∧ action.backup = some backup ∧ backup ≠ "" ∧
    after.read (action.runPath.child backup) = .ok contents ∧
    after.Aim (.ofText text) directory name ∧
    (Unaimed rest after (directory ++ [name]) →
      after.contents? (directory ++ [name]) = some contents)

/-- Every action of a list has done its part. -/
def AllDone (after : FileTree) : List UndoAction → Prop
  | [] => True
  | action :: rest => action.Done rest after ∧ AllDone after rest

/-- A rollback whose first action ends in an outcome goes on behind it. -/
lemma undoAll_cons_of_ok (h : (undo action token tree).1 = .ok outcome) :
    (undoAll token (action :: rest) tree).2 =
      (undoAll token rest (undo action token tree).2).2 := by
  rw [undoAll]
  cases hundo : undo action token tree with
  | mk result next =>
    rw [hundo] at h
    simp only at h
    rw [h]

/-- **After a rollback without errors** every action has done its part. -/
lemma allDone_undoAll (sound : tree.Sound) (noLinks : tree.NoLinks)
    (apart : IsApart token actions tree) (out : ∀ action ∈ actions, action.StaysOut tree top)
    (done : (undoAll token actions tree).1 = .ok outcomes)
    (clean : ∀ outcome ∈ outcomes, outcome.status ≠ .error) :
    AllDone (undoAll token actions tree).2 actions := by
  induction actions generalizing tree outcomes with
  | nil => trivial
  | cons action rest ih =>
    obtain ⟨outcome, others, hundo, hothers, rfl⟩ := undoAll_cons_eq_ok.mp done
    have hpaths := apart.paths action (by simp)
    have htouched := undo_touched sound noLinks apart.tree hpaths
    have hlinks := htouched.noLinks noLinks
    obtain ⟨hsound, hapart⟩ := apart.step sound
    have hwhole := undoAll_midRollback sound noLinks apart
    have hrest := (undoAll_midRollback hsound hlinks hapart).touched.keeps
    have hsame := fun p => undoAll_aims (p := p) hsound hlinks hapart
    rw [undoAll_cons_of_ok hundo] at hwhole ⊢
    refine ⟨⟨fun hkind p haims hunaimed => ?_, fun hkind => ?_⟩,
      ih hsound hlinks hapart (fun other hother => (out other (by simp [hother])).keeps
        htouched.keeps) hothers fun other hother => clean other (by simp [hother])⟩
    · rw [hsame p hunaimed]
      exact undo_deleted sound noLinks apart.tree hpaths hkind
        (fun text hfull => (out action (by simp)).isPlain hfull) hwhole.touched.keeps haims
    · obtain ⟨text, backup, contents, directory, name, hfull, hkept, hnamed, hread, haim, hfile⟩ :=
        undo_restored sound noLinks apart.tree hpaths hkind hundo (clean outcome (by simp))
      refine ⟨text, backup, contents, directory, name, hfull, hkept, hnamed, ?_, haim.keeps hrest,
        fun hunaimed => (hsame _ hunaimed).trans hfile⟩
      exact read_kept noLinks hwhole.touched.keeps (fun p hinside => hwhole.touched.files p
        fun other hother hnames => (out other hother).file p hnames hinside)
        ((out action (by simp)).backup backup hkept) hread

/-! ### The second rollback -/

/-- A tree during a second rollback: it differs from what the first one left at most where the
actions that are still to come aim. -/
structure Resumes (after : FileTree) (token : String) (rest : List UndoAction) (tree : FileTree) :
    Prop where
  /-- Everything lies in a directory. -/
  sound : tree.Sound
  /-- The name for temporary files is not in the tree. -/
  unheard : tree.IsUnheard "restore" token
  /-- The directories are still there. -/
  keeps : Keeps after tree
  /-- No directory is new. -/
  back : Keeps tree after
  /-- Other files have the contents that the first rollback left. -/
  contents : ∀ p, Unaimed rest after p → tree.contents? p = after.contents? p

namespace Resumes

variable (h : Resumes after token (action :: rest) tree) (noLinks : after.NoLinks)
  (paths : ∀ text, action.fullPath = some text →
    Avoids [temporaryName "restore" token] (Path.ofText text).names)
  (out : ∀ other ∈ action :: rest, other.StaysOut after top) (done : action.Done rest after)

include h noLinks paths

include done in
/-- An action of the second rollback makes no directory. -/
lemma keeps_of_undo : Keeps (undo action token tree).2 after := by
  have hlinks := h.keeps.noLinks noLinks
  have hkeeps := (undo_touched h.sound hlinks h.unheard paths).keeps
  have hready : action.kind = .restore → ∀ text ∈ action.fullPath, ∃ directory,
      tree.locate true (Path.ofText text).parent = .ok ⟨directory, some .directory⟩ := by
    intro hkind text hfull
    obtain ⟨other, _, _, directory, _, hother, -, -, -, haim, -⟩ := done.restored hkind
    obtain rfl := Option.some.inj (hother.symm.trans hfull)
    exact ⟨directory, (haim.keeps h.keeps).parent⟩
  exact ⟨(hkeeps.workplace.trans h.keeps.workplace).symm,
    fun p hdir => h.back.directory p (undo_directories h.sound h.unheard paths hready hdir),
    fun p target => iff_of_false (noLinks p target) (hkeeps.noLinks hlinks p target)⟩

include out done

/-- A file at which none of the later actions aims has its last contents again. -/
lemma contents_of_undo (aims : action.AimsAt after p) (unaimed : Unaimed rest after p) :
    (undo action token tree).2.contents? p = after.contents? p := by
  cases hkind : action.kind with
  | delete =>
    rw [done.deleted hkind p aims unaimed]
    exact undo_deleted h.sound (h.keeps.noLinks noLinks) h.unheard paths hkind
      (fun text hfull => (out action (by simp)).isPlain hfull) h.back aims
  | restore =>
    obtain ⟨text, backup, contents, directory, name, hfull, hkept, hnamed, hread, haim, hfile⟩ :=
      done.restored hkind
    obtain rfl := aims.eq hfull haim
    have hcontents := hfile unaimed
    -- the file, its directory and the old bytes are where they were at the end
    have hthere : tree.node? (directory ++ [name]) ≠ some .directory := by
      intro hdir
      rw [contents?, h.back.directory _ hdir] at hcontents
      cases hcontents
    have hread' : tree.read (action.runPath.child backup) = .ok contents := by
      refine read_kept noLinks h.keeps (fun q hinside => h.contents q fun other hother => ?_)
        ((out action (by simp)).backup backup hkept) hread
      exact (out other hother).not_aimsAt noLinks hinside
    have hname : name ≠ temporaryName "restore" token := by
      rintro rfl
      have hmem : temporaryName "restore" token ∈ (Path.ofText text).names := by
        rw [haim.names]
        simp
      exact paths text hfull _ hmem (by simp)
    obtain ⟨-, -, -, hagain⟩ := undo_restore h.sound hfull hkind hkept hnamed hread'
      (haim.keeps h.keeps) hthere ⟨h.unheard.entry, h.unheard.zero, h.unheard.unused⟩ hname
    rw [hagain, hcontents]

/-- **One action** of the second rollback. -/
lemma step : Resumes after token rest (undo action token tree).2 := by
  have hlinks := h.keeps.noLinks noLinks
  have hback := h.keeps_of_undo noLinks paths done
  obtain ⟨hsound, hunheard, -⟩ := undo_left h.sound h.unheard paths
  refine ⟨hsound, hunheard, h.keeps.trans (undo_touched h.sound hlinks h.unheard paths).keeps,
    hback, fun p hunaimed => ?_⟩
  by_cases haims : action.AimsAt after p
  · exact h.contents_of_undo noLinks paths out done haims hunaimed
  · rw [(undo_aims h.sound hlinks h.unheard paths p).resolve_right fun hlater =>
      haims (hlater.keeps hback)]
    exact h.contents p (List.forall_mem_cons.mpr ⟨haims, hunaimed⟩)

end Resumes

/-- After its last action the second rollback has changed nothing. -/
lemma Resumes.node?_eq (h : Resumes after token [] tree) (noLinks : after.NoLinks) (p : Place) :
    tree.node? p = after.node? p :=
  node?_eq_of_contents noLinks (h.keeps.noLinks noLinks) ⟨h.back.directory p, h.keeps.directory p⟩
    (h.contents p (by simp [Unaimed]))

/-- An action that has done its part breaks only for a name that is too long, and then in every
tree that has the directories. -/
lemma UndoAction.Done.breaks (done : action.Done rest after) (keeps : Keeps tree tree')
    (noLinks : tree.NoLinks) (h : action.Breaks tree fault) :
    fault = .nameTooLong ∧ action.Breaks tree' .nameTooLong := by
  cases h with
  | name kind path filled long =>
    refine ⟨rfl, .name kind path filled ((stat_eq_error_iff_of_ne (by simp)).mpr ?_)⟩
    exact locate_lasts keeps noLinks (by simp) (by simp)
      ((stat_eq_error_iff_of_ne (by simp)).mp long)
  | source kind path filled kept named zero =>
    -- the old bytes have been read
    obtain ⟨_, _, _, _, _, -, hkept, -, hread, -⟩ := done.restored kind
    obtain rfl := Option.some.inj (kept.symm.trans hkept)
    rw [read_eq_zero_iff.mpr zero] at hread
    cases hread
  | target kind path filled kept named read zero reached =>
    -- the file has been written
    obtain ⟨_, _, _, _, _, hfull, -, -, -, haim, -⟩ := done.restored kind
    obtain rfl := Option.some.inj (path.symm.trans hfull)
    rw [(locate_eq_ok_iff.mp haim.locate_false).1] at zero
    cases zero

/-- **The second rollback** changes nothing, unless it is broken off. -/
lemma undoAll_resumes (noLinks : after.NoLinks) (h : Resumes after token actions tree)
    (paths : ∀ action ∈ actions, ∀ text ∈ action.fullPath,
      Avoids [temporaryName "restore" token] (Path.ofText text).names)
    (out : ∀ action ∈ actions, action.StaysOut after top) (done : AllDone after actions) :
    ((∃ outcomes, (undoAll token actions tree).1 = .ok outcomes) ↔
      ∀ action ∈ actions, ¬ action.Breaks after .nameTooLong) ∧
    ∀ outcomes, (undoAll token actions tree).1 = .ok outcomes →
      Resumes after token [] (undoAll token actions tree).2 := by
  induction actions generalizing tree with
  | nil => exact ⟨by simp [undoAll], fun _ _ => h⟩
  | cons action rest ih =>
    obtain ⟨hdone, hrest⟩ := done
    have hpath := paths action (by simp)
    have hends : ∀ fault, (undo action token tree).1 = .error fault ↔ action.Breaks tree fault :=
      fun _ => undo_eq_error_iff h.sound h.unheard hpath
    obtain ⟨hgoes, hsame⟩ := ih (h.step noLinks hpath out hdone)
      (fun other hother => paths other (by simp [hother]))
      (fun other hother => out other (by simp [hother])) hrest
    refine ⟨⟨?_, fun hnone => ?_⟩, fun outcomes hall => ?_⟩
    · rintro ⟨outcomes, hall⟩
      obtain ⟨outcome, others, hundo, hothers, -⟩ := undoAll_cons_eq_ok.mp hall
      refine List.forall_mem_cons.mpr ⟨fun hbreaks => ?_, hgoes.mp ⟨others, hothers⟩⟩
      cases hundo.symm.trans ((hends _).mpr (hdone.breaks h.keeps noLinks hbreaks).2)
    · obtain ⟨hfirst, hothers⟩ := List.forall_mem_cons.mp hnone
      obtain ⟨others, hothers⟩ := hgoes.mpr hothers
      cases hundo : (undo action token tree).1 with
      | error fault =>
        have hbreaks := hdone.breaks h.back (h.keeps.noLinks noLinks) ((hends fault).mp hundo)
        exact absurd hbreaks.2 hfirst
      | ok outcome => exact ⟨_, undoAll_cons_eq_ok.mpr ⟨outcome, others, hundo, hothers, rfl⟩⟩
    · obtain ⟨outcome, others, hundo, hothers, -⟩ := undoAll_cons_eq_ok.mp hall
      rw [undoAll_cons_of_ok hundo]
      exact hsame others hothers

/-! ### Recorded runs -/

/-- A run that has been recorded in a store: its directory lies in the root, and its changes
are those of journaled entries. -/
structure Run.IsRecordedIn (root : Path) (run : Run) : Prop where
  /-- The directory has the name of the run. -/
  path : run.path = inside root run.id
  /-- The name stands between slashes as it is. -/
  named : Path.IsName run.id
  /-- The name does not lead upwards. -/
  up : run.id ≠ ".."
  /-- The changes are recorded. -/
  entries : ∃ entries, run.manifest.entries = recordsFrom 0 entries

/-- **A recording** that succeeds leaves a recorded run. -/
lemma exists_isRecordedIn_of_record {journal journal' : Journal}
    {s : Surroundings} {context : List (Document × Document)} {b : Blueprint} {relative id : String}
    {output : Output} (enabled : journal.store.root? = some root) (sound : tree.Sound)
    (unique : '/' ∉ s.unique.toList)
    (h : journal.record s context b relative output tree = (.ok id, journal', after)) :
    ∃ r : KeptRun, r.id = id ∧ r.entries = output.journaled ∧ (r.run root).IsRecordedIn root := by
  obtain ⟨r, -, -, hid, hname, hentries, -⟩ := exists_kept_of_record enabled sound unique h
  have hup : r.id ≠ ".." := hname ▸ runName_ne_up s b
  exact ⟨r, hid.symm, hentries, rfl, r.isName, hup, r.entries, r.lists⟩

/-- A name in a directory in the root. -/
lemma goal_child_inside (root : Path) {id file : String} (named : Path.IsName id) (up : id ≠ "..")
    (named' : Path.IsName file) (up' : file ≠ "..") (tree : FileTree) :
    tree.goal ((inside root id).child file) = tree.goal root ++ [id] ++ [file] := by
  rw [Path.child_name named', goal, inside, along_append, along_plain named'.2.1 up', along_append,
    along_plain named.2.1 up, along_nil, along_nil]
  rfl

/-- The old bytes of a recorded run lie in the root. -/
lemma Run.IsRecordedIn.backup (recorded : run.IsRecordedIn root) (h : action ∈ undoOf run)
    (tree : FileTree) {backup : String} (kept : action.backup = some backup) :
    tree.goal root <+: tree.goal (action.runPath.child backup) := by
  obtain ⟨record, hrecord, haction⟩ := List.mem_filterMap.mp h
  obtain ⟨entries, hentries⟩ := recorded.entries
  rw [List.mem_reverse, hentries] at hrecord
  obtain ⟨i, hi⟩ := List.getElem?_of_mem hrecord
  rw [getElem?_recordsFrom] at hi
  obtain ⟨entry, -, rfl⟩ := Option.map_eq_some_iff.mp hi
  obtain ⟨kind, -, rfl⟩ := Option.map_eq_some_iff.mp haction
  obtain ⟨-, rfl⟩ := backup_recordOf.mp kept
  have hgoal := goal_child_inside root recorded.named recorded.up
    (backupName_isName (some entry.path) _) (backupName_ne_up (some entry.path) (0 + i : Nat)) tree
  rw [← recorded.path] at hgoal
  rw [hgoal, List.append_assoc]
  exact List.prefix_append _ _

/-- **A second rollback changes nothing**: when recorded runs have been rolled back without an
error, and no file is named by a path with `..` or lies in the root of the store, then the
same actions once more leave every file and directory as it is. They come to their end exactly
if none of them breaks; and this happens only when a file is to be deleted, and a name on the way
to it is too long. -/
theorem undoAll_again (planned : FileTree) (runs : List Run) (sound : tree.Sound)
    (noLinks : tree.NoLinks) (recorded : ∀ run ∈ runs, run.IsRecordedIn root)
    (out : ∀ action ∈ planUndo planned runs, ∀ text ∈ action.fullPath,
      ".." ∉ (Path.ofText text).names ∧ ¬ tree.goal root <+: tree.goal (.ofText text))
    (apart : IsApart token (planUndo planned runs) tree)
    (done : undoAll token (planUndo planned runs) tree = (.ok outcomes, after))
    (clean : ∀ outcome ∈ outcomes, outcome.status ≠ .error)
    (apart' : IsApart token' (planUndo planned runs) after) :
    ((∃ others, (undoAll token' (planUndo planned runs) after).1 = .ok others) ↔
      ∀ action ∈ planUndo planned runs, ¬ action.Breaks after .nameTooLong) ∧
    ∀ others, (undoAll token' (planUndo planned runs) after).1 = .ok others →
      ∀ p, (undoAll token' (planUndo planned runs) after).2.node? p = after.node? p := by
  have hout : ∀ action ∈ planUndo planned runs, action.StaysOut tree (tree.goal root) := by
    intro action hmem
    obtain ⟨run, hrun, haction⟩ := List.mem_flatMap.mp hmem
    refine ⟨fun text hfull => (out action hmem text hfull).1, ?_, fun backup hkept =>
      (recorded run ((sortBy_perm _).mem_iff.mp hrun)).backup haction tree hkept⟩
    rintro p ⟨text, hfull, -, rfl⟩
    exact (out action hmem text hfull).2
  have hmid := undoAll_midRollback sound noLinks apart
  have hall := allDone_undoAll sound noLinks apart hout (congrArg Prod.fst done) clean
  rw [done] at hmid hall
  have hlinks := hmid.touched.noLinks noLinks
  have hstart : Resumes after token' (planUndo planned runs) after :=
    ⟨hmid.sound, apart'.tree, .refl after, .refl after, fun _ _ => rfl⟩
  obtain ⟨hends, hsame⟩ := undoAll_resumes hlinks hstart apart'.paths
    (fun action hmem => (hout action hmem).keeps hmid.touched.keeps) hall
  exact ⟨hends, fun others hothers => (hsame others hothers).node?_eq hlinks⟩

/-- The path of a file in the output directory. -/
def outputPath (names : List String) : Path :=
  ⟨"/", "w" :: "out" :: names⟩

/-- The entry of a file in the output directory, and the contents it had before. -/
def outputOf (names : List String) (previous : Option Bytes) : OutputEntry :=
  { OutputEntry.bare (if previous.isSome then .overwritten else .written) (Path.joinNames names)
      (outputPath names).toText with previousContents := previous }

/-- A run that has been recorded with some entries. -/
def runWith (entries : List OutputEntry) : Run :=
  ⟨"r", .ofText "/w/hist/r", ⟨"r", none, none, none, .unknown, [], [], [], recordsFrom 0 entries⟩⟩

/-- A tree with a store, an output directory and some files. -/
def storeWith (files : List (Place × Bytes)) : FileTree :=
  ⟨["w"], [(["w"], .directory), (["w", "hist"], .directory), (["w", "hist", "r"], .directory),
    (["w", "out"], .directory)] ++ files.map fun file => (file.1, .file file.2), [], 0⟩

lemma isRecordedIn_runWith (entries : List OutputEntry) :
    (runWith entries).IsRecordedIn (.ofText "/w/hist") := by
  have hpath : Path.ofText "/w/hist/r" = inside (.ofText "/w/hist") "r" := by decide +kernel
  have hname : "r" ≠ "" ∧ "r" ≠ "." ∧ '/' ∉ "r".toList ∧ "r" ≠ ".." := by decide
  exact ⟨hpath, ⟨hname.1, hname.2.1, hname.2.2.1⟩, hname.2.2.2, entries, rfl⟩

/-- A file whose path is later that of a directory. -/
def entangled : List OutputEntry :=
  [outputOf ["a", "b.txt"] (some [66]), outputOf ["a"] none, outputOf ["a"] (some [65])]

/-- The tree after the changes, with the old bytes. -/
def entangledTree : FileTree :=
  storeWith [(["w", "hist", "r", "001-b-txt.bak"], [66]), (["w", "hist", "r", "003-a.bak"], [65]),
    (["w", "out", "a"], [67])]

/-- The actions that undo the changes. -/
def entangledPlan : List UndoAction :=
  planUndo entangledTree [runWith entangled]

/-- What the first rollback leaves. -/
def entangledEnd : FileTree :=
  (undoAll "t" entangledPlan entangledTree).2

/-- The second rollback cannot restore the file again, nor delete it, where the first one has
made a directory. -/
theorem undoAll_again_entangled :
    entangledTree.Sound ∧ entangledTree.NoLinks ∧
    (∀ run ∈ [runWith entangled], run.IsRecordedIn (.ofText "/w/hist")) ∧
    (∀ action ∈ entangledPlan, ∀ text ∈ action.fullPath, ".." ∉ (Path.ofText text).names ∧
      ¬ entangledTree.goal (.ofText "/w/hist") <+: entangledTree.goal (.ofText text)) ∧
    IsApart "t" entangledPlan entangledTree ∧ IsApart "u" entangledPlan entangledEnd ∧
    (∃ outcomes, undoAll "t" entangledPlan entangledTree = (.ok outcomes, entangledEnd) ∧
      outcomes.map (·.status) = [.restored, .deleted, .restored]) ∧
    ∃ others, (undoAll "u" entangledPlan entangledEnd).1 = .ok others ∧
      others.map (·.status) = [.error, .skipped, .restored] ∧
      ∀ p, (undoAll "u" entangledPlan entangledEnd).2.node? p = entangledEnd.node? p := by
  have sound : entangledTree.Sound := by decide +kernel
  have noLinks : entangledTree.NoLinks := noLinks_of_nodes (by simp [entangledTree, storeWith])
  have recorded : ∀ run ∈ [runWith entangled], run.IsRecordedIn (.ofText "/w/hist") :=
    List.forall_mem_singleton.mpr (isRecordedIn_runWith entangled)
  have out : ∀ action ∈ entangledPlan, ∀ text ∈ action.fullPath, ".." ∉ (Path.ofText text).names ∧
      ¬ entangledTree.goal (.ofText "/w/hist") <+: entangledTree.goal (.ofText text) := by
    decide +kernel
  have apart : IsApart "t" entangledPlan entangledTree :=
    ⟨⟨by decide +kernel, by decide +kernel, unmentioned_of_nodes (by decide +kernel)⟩,
      by decide +kernel⟩
  have apart' : IsApart "u" entangledPlan entangledEnd :=
    ⟨⟨by decide +kernel, by decide +kernel, unmentioned_of_nodes (by decide +kernel)⟩,
      by decide +kernel⟩
  have hfirst : (undoAll "t" entangledPlan entangledTree).1.toOption.map (·.map (·.status)) =
      some [.restored, .deleted, .restored] := by decide +kernel
  have hsecond : (undoAll "u" entangledPlan entangledEnd).1.toOption.map (·.map (·.status)) =
      some [.error, .skipped, .restored] := by decide +kernel
  obtain ⟨outcomes, houtcomes, hstatus⟩ := Option.map_eq_some_iff.mp hfirst
  obtain ⟨others, hothers, hstatus'⟩ := Option.map_eq_some_iff.mp hsecond
  rw [toOption_eq_some_iff] at houtcomes hothers
  have done : undoAll "t" entangledPlan entangledTree = (.ok outcomes, entangledEnd) :=
    Prod.ext houtcomes (by rw [entangledEnd])
  have clean : ∀ outcome ∈ outcomes, outcome.status ≠ .error := by
    intro outcome hmem
    have hmem' : outcome.status ∈ outcomes.map (·.status) := List.mem_map_of_mem hmem
    rw [hstatus] at hmem'
    rintro heq
    simp [heq] at hmem'
  exact ⟨sound, noLinks, recorded, out, apart, apart', ⟨outcomes, done, hstatus⟩, others, hothers,
    hstatus', (undoAll_again entangledTree [runWith entangled] sound noLinks recorded out apart done
      clean apart').2 others hothers⟩

/-- A file that is made, replaced and made again, and beside it one with another name. -/
def brokenOff (name : String) : List OutputEntry :=
  [outputOf ["a", "b.txt"] (some [66]), outputOf ["a", name] none, outputOf ["a", "b.txt"] none]

/-- The old bytes, without the directory of the files. -/
def brokenTree : FileTree :=
  storeWith [(["w", "hist", "r", "001-b-txt.bak"], [66])]

/-- The undoing of a change in the run. -/
def undoing (kind : UndoKind) (names : List String) (backup : Option String) : UndoAction :=
  ⟨kind, "r", .ofText "/w/hist/r", "r", some (Path.joinNames names), some (outputPath names).toText,
    backup⟩

/-- The actions that undo the changes. -/
def brokenPlan (name : String) : List UndoAction :=
  [undoing .delete ["a", "b.txt"] none, undoing .delete ["a", name] none,
    undoing .restore ["a", "b.txt"] (some (backupName (some "a/b.txt") 0))]

lemma planUndo_brokenOff (name : String) :
    planUndo brokenTree [runWith (brokenOff name)] = brokenPlan name := by
  rfl

/-- There is a name that is too long. -/
lemma exists_tooLong : ∃ name, Path.IsName name ∧ name.toList.contains '\x00' = false ∧
    tooLong name = true := by
  have hsize : ∀ count, (String.ofList (List.replicate count 'x')).utf8ByteSize = count := by
    intro count
    have hone : ['x'].utf8Encode.size = 1 := by decide +kernel
    rw [← String.size_toByteArray, String.toByteArray_ofList]
    induction count with
    | zero => rfl
    | succ count ih =>
      rw [List.replicate_succ, List.utf8Encode_cons, ByteArray.size_append, ih, hone, Nat.add_comm]
  obtain ⟨count, hcount⟩ : ∃ count, nameLimit < count := ⟨_, Nat.lt_succ_self nameLimit⟩
  obtain ⟨name, hname⟩ : ∃ name, name = String.ofList (List.replicate count 'x') := ⟨_, rfl⟩
  have hlong : tooLong name = true := by
    rw [tooLong, hname, hsize]
    exact decide_eq_true hcount
  have hchars : ∀ c ∈ name.toList, c = 'x' := by
    rw [hname, String.toList_ofList]
    exact fun c => List.eq_of_mem_replicate
  refine ⟨name, ⟨?_, ?_, fun hslash => absurd (hchars _ hslash) (by decide)⟩, ?_, hlong⟩
  · rintro rfl
    exact absurd hlong (by decide)
  · rintro rfl
    exact absurd hlong (by decide)
  · rw [← Bool.not_eq_true, List.contains_iff_mem]
    exact fun hzero => absurd (hchars _ hzero) (by decide)

/-- The directory of the files, or nothing in its place. -/
lemma locate_outputPath {tree : FileTree} {node : Option Node} (noLinks : tree.NoLinks)
    (above : ∀ k < 3, tree.node? (["w", "out", "a"].take k) = some .directory)
    (h : tree.node? ["w", "out", "a"] = node) :
    tree.locate true (outputPath ["a"]) = .ok ⟨["w", "out", "a"], node⟩ := by
  subst h
  exact locate_eq_ok_iff.mpr ⟨by decide +kernel, (leads_iff_of_noLinks noLinks (by decide)).mpr
    ⟨rfl, by decide, above⟩⟩

/-- An action that comes to an outcome, and what it leaves. -/
lemma exists_outcome (action : UndoAction) (token : String) (tree : FileTree) {left : FileTree}
    {status : UndoStatus} (h : left = (undo action token tree).2)
    (h' : (undo action token tree).1.toOption.map (·.status) = some status) :
    ∃ outcome, undo action token tree = (.ok outcome, left) ∧ outcome.status = status := by
  obtain ⟨outcome, houtcome, hstatus⟩ := Option.map_eq_some_iff.mp h'
  exact ⟨outcome, Prod.ext (toOption_eq_some_iff.mp houtcome) h.symm, hstatus⟩

lemma isName_first : Path.IsName "b.txt" :=
  ⟨by decide, by decide, by decide⟩

section Broken

variable (isName : Path.IsName name) (long : tooLong name = true)

include isName

/-- The paths of the files are read back from their texts. -/
lemma ofText_outputPath :
    Path.ofText (outputPath ["a", name]).toText = outputPath ["a", name] := by
  refine Path.ofText_toText ⟨.inr (.inl rfl), fun other hother => ?_⟩
  simp only [outputPath, List.mem_cons, List.not_mem_nil, or_false] at hother
  obtain rfl | rfl | rfl | rfl := hother
  · exact ⟨by decide, by decide, by decide⟩
  · exact ⟨by decide, by decide, by decide⟩
  · exact ⟨by decide, by decide, by decide⟩
  · exact isName

/-- What holds of both paths holds of those of all actions. -/
lemma forall_path_brokenPlan {motive : Path → Prop} (first : motive (outputPath ["a", "b.txt"]))
    (second : motive (outputPath ["a", name])) :
    ∀ action ∈ brokenPlan name, ∀ text ∈ action.fullPath, motive (.ofText text) := by
  have hfirst := ofText_outputPath isName_first
  simp only [brokenPlan, undoing, List.forall_mem_cons, Option.mem_some_iff, forall_eq',
    List.not_mem_nil, false_imp_iff, implies_true, and_true, hfirst, ofText_outputPath isName]
  exact ⟨first, second, first⟩

/-- The path of the second action is looked at, and no file is found. -/
lemma undo_missing (token : String) (tree : FileTree) {present : Except Fault Bool}
    (h : tree.isFile (outputPath ["a", name]) = present) (ne : present ≠ .ok true) :
    ∃ outcome : UndoOutcome, outcome.status = .skipped ∧
      undo (undoing .delete ["a", name] none) token tree =
        (present.map fun _ => outcome, tree) := by
  have hpath := ofText_outputPath isName
  have hfilled : (some (outputPath ["a", name]).toText).filter (fun s => !s.isEmpty) =
      some (outputPath ["a", name]).toText := by
    refine filter_filled_iff.mpr ⟨rfl, fun hempty => ?_⟩
    have hanchor : (Path.ofText "").anchor = "/" := by rw [← hempty, hpath]; rfl
    exact absurd hanchor (by decide)
  rw [undo, undoing]
  simp only [hfilled, undoWriting, hpath, h]
  cases present with
  | error fault => exact ⟨⟨undoing .delete [] none, .skipped, ""⟩, rfl, rfl⟩
  | ok found =>
    cases found with
    | true => exact absurd rfl ne
    | false => exact ⟨_, rfl, rfl⟩

include long

/-- A name for temporary files that is nowhere in a tree is in no path of the plan. -/
lemma isApart_brokenPlan {tree : FileTree} {token : String}
    (unheard : tree.IsUnheard "restore" token)
    (first : Avoids [temporaryName "restore" token] (outputPath ["a", "b.txt"]).names) :
    IsApart token (brokenPlan name) tree := by
  refine ⟨unheard, forall_path_brokenPlan isName (motive := fun path => Avoids [_] path.names)
    first fun other hother => ?_⟩
  simp only [outputPath, List.mem_cons, List.not_mem_nil, or_false] at hother
  obtain rfl | rfl | rfl | rfl := hother
  · exact first _ (by simp [outputPath])
  · exact first _ (by simp [outputPath])
  · exact first _ (by simp [outputPath])
  · rw [List.mem_singleton]
    rintro rfl
    rw [unheard.entry.short] at long
    cases long

end Broken

/-- What the first rollback leaves. -/
def brokenEnd : FileTree :=
  (undo (undoing .restore ["a", "b.txt"] (some (backupName (some "a/b.txt") 0))) "t" brokenTree).2

/-- What the first action of the second rollback leaves. -/
def brokenAgain : FileTree :=
  (undo (undoing .delete ["a", "b.txt"] none) "u" brokenEnd).2

/-- The second rollback deletes the file that the first one has restored, and is broken off at
a name that is too long. -/
theorem undoAll_again_breaks :
    ∃ name, tooLong name = true ∧ brokenTree.Sound ∧ brokenTree.NoLinks ∧
    (∀ run ∈ [runWith (brokenOff name)], run.IsRecordedIn (.ofText "/w/hist")) ∧
    planUndo brokenTree [runWith (brokenOff name)] = brokenPlan name ∧
    (∀ action ∈ brokenPlan name, ∀ text ∈ action.fullPath, ".." ∉ (Path.ofText text).names ∧
      ¬ brokenTree.goal (.ofText "/w/hist") <+: brokenTree.goal (.ofText text)) ∧
    IsApart "t" (brokenPlan name) brokenTree ∧ IsApart "u" (brokenPlan name) brokenEnd ∧
    (∃ outcomes, undoAll "t" (brokenPlan name) brokenTree = (.ok outcomes, brokenEnd) ∧
      outcomes.map (·.status) = [.skipped, .skipped, .restored]) ∧
    brokenEnd.contents? ["w", "out", "a", "b.txt"] = some [66] ∧
    undoAll "u" (brokenPlan name) brokenEnd = (.error .nameTooLong, brokenAgain) ∧
    brokenAgain.contents? ["w", "out", "a", "b.txt"] = none := by
  obtain ⟨name, isName, zero, long⟩ := exists_tooLong
  have sound : brokenTree.Sound := by decide +kernel
  have noLinks : brokenTree.NoLinks := noLinks_of_nodes (by simp [brokenTree, storeWith])
  have apart : IsApart "t" (brokenPlan name) brokenTree := isApart_brokenPlan isName long
    ⟨by decide +kernel, by decide +kernel, unmentioned_of_nodes (by decide +kernel)⟩
    (by decide +kernel)
  have apart' : IsApart "u" (brokenPlan name) brokenEnd := isApart_brokenPlan isName long
    ⟨by decide +kernel, by decide +kernel, unmentioned_of_nodes (by decide +kernel)⟩
    (by decide +kernel)
  -- at first the directory of the files is missing
  have hmissing : brokenTree.locate true (outputPath ["a"]) = .ok ⟨["w", "out", "a"], none⟩ :=
    locate_outputPath noLinks (by decide +kernel) (by decide +kernel)
  obtain ⟨first, hfirst, hundo⟩ := undo_missing isName_first "t" brokenTree
    (isFile_of_missing hmissing noLinks (by decide)) (by simp)
  obtain ⟨second, hsecond, hundo'⟩ := undo_missing isName "t" brokenTree
    (isFile_of_missing hmissing noLinks zero) (by simp)
  obtain ⟨last, hlast, hrestored⟩ := exists_outcome (undoing .restore ["a", "b.txt"]
    (some (backupName (some "a/b.txt") 0))) "t" brokenTree brokenEnd.eq_1
    (show _ = some .restored by decide +kernel)
  -- then it is there
  have hends : brokenEnd.NoLinks := (undo_touched sound noLinks apart.tree
    (apart.paths _ (by simp [brokenPlan]))).noLinks noLinks
  have hlinks : brokenAgain.NoLinks := (undo_touched (by decide +kernel) hends apart'.tree
    (apart'.paths _ (by simp [brokenPlan]))).noLinks hends
  have hthere : brokenAgain.locate true (outputPath ["a"]) =
      .ok ⟨["w", "out", "a"], some .directory⟩ :=
    locate_outputPath hlinks (by decide +kernel) (by decide +kernel)
  obtain ⟨again, hagain, -⟩ := exists_outcome (undoing .delete ["a", "b.txt"] none) "u" brokenEnd
    brokenAgain.eq_1 (show _ = some .deleted by decide +kernel)
  obtain ⟨_, -, hbreaks⟩ := undo_missing isName "u" brokenAgain
    (isFile_of_tooLong hthere hlinks zero long) (by simp)
  refine ⟨name, long, sound, noLinks, List.forall_mem_singleton.mpr (isRecordedIn_runWith _),
    planUndo_brokenOff name, ?_, apart, apart', ⟨[first, second, last], ?_, ?_⟩, ?_, ?_, ?_⟩
  · have hdots : name ≠ "." ∧ name ≠ ".." := by
      constructor <;> rintro rfl <;> exact absurd long (by decide)
    refine forall_path_brokenPlan isName (motive := fun path => ".." ∉ path.names ∧
      ¬ brokenTree.goal (.ofText "/w/hist") <+: brokenTree.goal path) (by decide +kernel) ⟨?_, ?_⟩
    · simpa [outputPath] using hdots.2.symm
    · have hgoal : brokenTree.goal (outputPath ["a", name]) = ["w", "out", "a", name] := by
        simp [goal, outputPath, start, Path.isAbsolute, along, hdots]
      have hroot : brokenTree.goal (.ofText "/w/hist") = ["w", "hist"] := by decide +kernel
      simp [hgoal, hroot]
  · simp only [brokenPlan, undoAll, hundo, hundo', hlast, Except.map]
  · simp [hfirst, hsecond, hrestored]
  · decide +kernel
  · simp only [brokenPlan, undoAll, hagain, hbreaks, Except.map]
  · decide +kernel

end Scaffold
