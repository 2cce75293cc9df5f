import Scaffold.Generation.Writer
import Scaffold.Proofs.Files.Contents
import Scaffold.Proofs.Files.PathText

/-!
What the writing of a generated file does to files that were there.

The question whether a file exists is asked before the directories on its path are
made. A path such as `missing/../existing.txt` leads nowhere at first and to a file
once they have been made. That is the only case in which a file loses its bytes
without notice.

* `Uncovers`: the case.
* `Faithful`: what an entry has to say about the files before and after.
* `not_uncovers`: a path without `..` is never such a case.
* `write_faithful_iff`: an entry is faithful except in this case; `write_unfaithful`
  shows the case.
-/

namespace Scaffold.Writer

open Files FileTree

variable {tree grown after : FileTree} {mode : Mode} {file : GeneratedFile} {target : Path}
  {entry : OutputEntry} {contents : Bytes}

/-! ### Faithful entries -/

/-- A path leads to a file only after the directories on it have been made. -/
def Uncovers (tree : FileTree) (target : Path) : Prop :=
  tree.isFile target = .ok false ∧ (tree.makeDirectories target.parent).1 = none ∧
    (tree.makeDirectories target.parent).2.isFile target = .ok true

instance : Decidable (Uncovers tree target) :=
  inferInstanceAs (Decidable (_ ∧ _ ∧ _))

/-- An entry says what became of the files of a tree. -/
structure Faithful (mode : Mode) (file : GeneratedFile) (target : Path) (tree : FileTree)
    (entry : OutputEntry) (after : FileTree) : Prop where
  /-- The bytes of a file change only when this is allowed, and the entry keeps them. -/
  kept : ∀ p before, tree.contents? p = some before → after.contents? p ≠ some before →
    (mode.force || file.overwrite) = true ∧ entry.status = .overwritten ∧
      entry.previousContents = some before ∧ entry.previousSize = some (before.length : Int) ∧
      entry.previousChecksum = some (Sha256.checksum before)
  /-- A file counts as written only where there was none. -/
  fresh : entry.status = .written → ∃ place,
    after.locate true target = .ok ⟨place, some (.file file.contents)⟩ ∧ tree.node? place = none
  /-- Files that are skipped, or that could not be written, leave all bytes alone. -/
  idle : entry.status = .skipped ∨ entry.status = .error → ∀ p, after.contents? p = tree.contents? p
  /-- What was written is in the file, and the entry describes it. -/
  stored : entry.status = .written ∨ entry.status = .overwritten →
    after.read (.ofText entry.fullPath) = .ok file.contents ∧
      entry.size = some (file.contents.length : Int) ∧
      entry.checksum = some (Sha256.checksum file.contents)

/-- An entry is faithful when the bytes of all files are as they were and nothing is
said to be written. -/
lemma faithful_of_idle (same : ∀ p, after.contents? p = tree.contents? p)
    (status : entry.status = .skipped ∨ entry.status = .error) :
    Faithful mode file target tree entry after where
  kept p before h hne := absurd ((same p).trans h) hne
  fresh h := by rcases status with hs | hs <;> simp [hs] at h
  idle _ := same
  stored h := by rcases status with hs | hs <;> simp [hs] at h

/-! ### The case -/

/-- Without `..` on the path no file comes to light. -/
lemma not_uncovers (sound : tree.Sound) (written : target.IsWritten)
    (plain : ".." ∉ target.names) : ¬ Uncovers tree target := by
  rintro ⟨hbefore, hmade, hafter⟩
  obtain ⟨goal, found, hgoal⟩ := isFile_eq_true_iff.mp hafter
  have hnames : ∀ name ∈ target.names, name ≠ "." ∧ name ≠ ".." := fun name hname =>
    ⟨(written.names name hname).2.1, fun heq => plain (heq ▸ hname)⟩
  rcases List.eq_nil_or_concat target.names with hnil | ⟨above, name, hconcat⟩
  · -- the path of no names leads to a directory
    have hsound := (makeDirectories_made target.parent tree).sound sound
    have hleads := (locate_eq_ok_iff.mp hgoal).2
    rw [hnil] at hleads
    have hnode := hleads.unique .here
    rw [hsound.start, Found.mk.injEq] at hnode
    cases hnode.2
  · rw [List.concat_eq_append] at hconcat
    have hparent : target.parent.names = above := by rw [Path.parent, hconcat]; simp
    have hplain : IsPlain target.parent := fun other hother =>
      hnames other (by rw [hconcat]; simp [← hparent, hother])
    have hgrown := makeDirectories_grown target.parent tree
    rcases makeDirectories_new sound hplain hmade with ⟨hsame, -⟩ | ⟨directory, hdir, hnone⟩
    · rw [hsame, hbefore] at hafter
      cases hafter
    · generalize (tree.makeDirectories target.parent).2 = grown at *
      have hbelow : tree.node? (directory ++ [name]) = none :=
        sound.below (by simp [hnone]) (by simp)
      have htarget : target = ⟨target.parent.anchor, target.parent.names ++ [name]⟩ := by
        rw [hparent, ← hconcat]
        rfl
      have hname := hnames name (by rw [hconcat]; simp)
      rw [htarget] at hgoal
      have heq := place_of_child hdir hgoal hname.1 hname.2 (hgrown.not_link hbelow)
      rw [heq] at hgoal
      have hfile := hgrown.of_file (node?_of_locate hgoal)
      rw [hbelow] at hfile
      cases hfile

/-! ### The writing of one file -/

/-- Where no file was found an entry for a new file is faithful unless a file came to
light. -/
lemma written_faithful_iff (hbefore : tree.isFile target = .ok false)
    (hmade : tree.makeDirectories target.parent = (none, grown))
    (hwrite : grown.write target file.contents = .ok after) (hstatus : entry.status = .written)
    (hread : after.read (.ofText entry.fullPath) = .ok file.contents)
    (hsize : entry.size = some (file.contents.length : Int))
    (hsum : entry.checksum = some (Sha256.checksum file.contents)) :
    Faithful mode file target tree entry after ↔ ¬ Uncovers tree target := by
  have hgrown : Grown tree grown := by
    have := makeDirectories_grown target.parent tree
    rwa [hmade] at this
  obtain ⟨place, hplace, vacant, rfl⟩ := write_eq_ok_iff.mp hwrite
  have hlocate := locate_set_file hplace vacant file.contents
  constructor
  · rintro faithful ⟨-, -, hafter⟩
    obtain ⟨goal, found, hgoal⟩ := isFile_eq_true_iff.mp hafter
    rw [hmade, hplace, Except.ok.injEq, Found.mk.injEq] at hgoal
    obtain ⟨other, hother, hnone⟩ := faithful.fresh hstatus
    rw [hlocate, Except.ok.injEq, Found.mk.injEq] at hother
    rw [← hother.1, hgrown.of_file hgoal.2] at hnone
    cases hnone
  · intro hnot
    have hnone : grown.node? place = none := by
      refine vacant.resolve_right fun ⟨found, hfound⟩ => hnot ⟨hbefore, by rw [hmade], ?_⟩
      rw [hmade]
      exact isFile_eq_true_iff.mpr ⟨place, found, hfound ▸ hplace⟩
    refine ⟨fun p before hp hne => absurd ?_ hne, fun _ => ⟨place, hlocate, hgrown.of_none hnone⟩,
      fun h => by simp [hstatus] at h, fun _ => ⟨hread, hsize, hsum⟩⟩
    rw [contents?_set vacant.ne_nil]
    split
    · next heq =>
      rw [contents?_eq_some_iff, heq, hgrown.of_none hnone] at hp
      cases hp
    · rw [hgrown.contents, hp]

/-- Where a file was found the entry for its replacement is faithful. -/
lemma overwritten_faithful {before : Bytes} (hbefore : tree.read target = .ok before)
    (allowed : (mode.force || file.overwrite) = true)
    (hmade : tree.makeDirectories target.parent = (none, grown))
    (hwrite : grown.write target file.contents = .ok after)
    (hstatus : entry.status = .overwritten)
    (hread : after.read (.ofText entry.fullPath) = .ok file.contents)
    (hsize : entry.size = some (file.contents.length : Int))
    (hsum : entry.checksum = some (Sha256.checksum file.contents))
    (hkept : entry.previousContents = some before)
    (hkeptSize : entry.previousSize = some (before.length : Int))
    (hkeptSum : entry.previousChecksum = some (Sha256.checksum before)) :
    Faithful mode file target tree entry after := by
  have hgrown : Grown tree grown := by
    have := makeDirectories_grown target.parent tree
    rwa [hmade] at this
  obtain ⟨place, hplace, vacant, rfl⟩ := write_eq_ok_iff.mp hwrite
  obtain ⟨goal, hgoal⟩ := read_eq_ok_iff.mp hbefore
  have hsame := hgrown.keeps.locate hgoal
  rw [hplace, Except.ok.injEq, Found.mk.injEq] at hsame
  have hfile : tree.contents? place = some before := by
    rw [contents?_eq_some_iff, hsame.1]
    exact node?_of_locate hgoal
  refine ⟨fun p other hp hne => ?_, fun h => by simp [hstatus] at h,
    fun h => by simp [hstatus] at h, fun _ => ⟨hread, hsize, hsum⟩⟩
  rw [contents?_set vacant.ne_nil] at hne
  split at hne
  · next heq =>
    rw [heq, hfile, Option.some.injEq] at hp
    subst hp
    exact ⟨allowed, hstatus, hkept, hkeptSize, hkeptSum⟩
  · rw [hgrown.contents, hp] at hne
    exact absurd rfl hne

/-- A path at which a file is found uncovers none. -/
lemma not_uncovers_of_existing {previous : Except Fault (Option Bytes)}
    (h : existing target tree = previous) (some : previous ≠ .ok none) :
    ¬ Uncovers tree target := by
  rintro ⟨hbefore, -, -⟩
  rw [existing, hbefore] at h
  exact some h.symm

lemma isFile_of_existing_none (h : existing target tree = .ok none) :
    tree.isFile target = .ok false := by
  rw [existing] at h
  cases hfile : tree.isFile target with
  | error fault => simp [hfile, bind, Except.bind] at h
  | ok present =>
    cases present with
    | false => rfl
    | true =>
      cases hread : tree.read target <;> simp [hfile, hread, bind, Except.bind, pure, Except.pure] at h

lemma read_of_existing {before : Bytes} (h : existing target tree = .ok (some before)) :
    tree.read target = .ok before := by
  rw [existing] at h
  cases hfile : tree.isFile target with
  | error fault => simp [hfile, bind, Except.bind] at h
  | ok present =>
    cases present with
    | false => simp [hfile, bind, Except.bind, pure, Except.pure] at h
    | true =>
      cases hread : tree.read target with
      | error fault => simp [hfile, hread, bind, Except.bind] at h
      | ok found => simpa [hfile, hread, bind, Except.bind, pure, Except.pure] using h

/-- A path that uncovers a file lets its directories be made and the file be
written. -/
lemma Uncovers.write (h : Uncovers tree target) (contents : Bytes) :
    ∃ grown after, tree.makeDirectories target.parent = (none, grown) ∧
      grown.write target contents = .ok after := by
  obtain ⟨-, hmade, hafter⟩ := h
  obtain ⟨goal, found, hgoal⟩ := isFile_eq_true_iff.mp hafter
  refine ⟨_, _, Prod.ext hmade rfl, write_eq_ok_iff.mpr ⟨goal, ?_, ?_, rfl⟩⟩
  · rw [node?_of_locate hgoal, hgoal]
  · exact .inr ⟨found, node?_of_locate hgoal⟩

/-- The entry of a file that has been written. -/
def placed (target : Path) (contents : Bytes) (relative : String) : Option Bytes → OutputEntry
  | none => (OutputEntry.bare .written relative target.toText).withContents contents
  | some before =>
    ((OutputEntry.bare .overwritten relative target.toText).withContents contents).withPrevious before

/-- Contents are placed, or there is an error and only directories are new. -/
lemma place_cases (target : Path) (contents : Bytes) (previous : Option Bytes) (relative : String)
    (tree : FileTree) :
    ((place target contents previous relative tree).1.status = .error ∧
      Grown tree (place target contents previous relative tree).2 ∧
      ∀ grown after, tree.makeDirectories target.parent = (none, grown) →
        grown.write target contents ≠ .ok after) ∨
    ∃ grown after, tree.makeDirectories target.parent = (none, grown) ∧
      grown.write target contents = .ok after ∧
      place target contents previous relative tree =
        (placed target contents relative previous, after) := by
  rw [place]
  have hgrown := makeDirectories_grown target.parent tree
  cases hmade : tree.makeDirectories target.parent with
  | mk fault grown =>
    rw [hmade] at hgrown
    cases fault with
    | some fault => exact .inl ⟨rfl, hgrown, fun _ _ h => by cases h⟩
    | none =>
      cases hwrite : grown.write target contents with
      | error fault =>
        simp only [hwrite]
        refine .inl ⟨rfl, hgrown, fun _ after h h' => ?_⟩
        cases h
        rw [hwrite] at h'
        cases h'
      | ok after =>
        refine .inr ⟨grown, after, rfl, hwrite, ?_⟩
        simp only [hwrite]
        cases previous <;> rfl

/-- The entry of a target in a tree is faithful unless a file comes to light. -/
lemma writeAt_faithful_iff (live : mode.dryRun = false) (written : target.IsWritten)
    (relative : String) (tree : FileTree) :
    Faithful mode file target tree (writeAt target relative mode file tree).1
      (writeAt target relative mode file tree).2 ↔ ¬ Uncovers tree target := by
  rw [writeAt]
  simp only [live, Bool.false_eq_true, if_false]
  cases hexisting : existing target tree with
  | error fault =>
    exact iff_of_true (faithful_of_idle (fun _ => rfl) (.inr rfl))
      (not_uncovers_of_existing hexisting (by simp))
  | ok previous =>
    simp only
    split_ifs with hsame hkeep
    · subst hsame
      exact iff_of_true (faithful_of_idle (fun _ => rfl) (.inl rfl))
        (not_uncovers_of_existing hexisting (by simp))
    · refine iff_of_true (faithful_of_idle (fun _ => rfl) (.inl rfl))
        (not_uncovers_of_existing hexisting ?_)
      rintro heq
      cases heq
      simp at hkeep
    · obtain ⟨hstatus, hgrown, hfails⟩ | ⟨grown, after, hmade, hwrite, hplaced⟩ :=
        place_cases target file.contents previous relative tree
      · refine iff_of_true (faithful_of_idle hgrown.contents (.inr hstatus)) fun huncovers => ?_
        obtain ⟨grown, after, hmade, hwrite⟩ := huncovers.write file.contents
        exact hfails grown after hmade hwrite
      · have hread : after.read (.ofText target.toText) = .ok file.contents := by
          rw [Path.ofText_toText written]
          exact read_of_write hwrite
        rw [hplaced]
        cases previous with
        | none =>
          exact written_faithful_iff (isFile_of_existing_none hexisting) hmade hwrite rfl hread
            rfl rfl
        | some before =>
          have allowed : (mode.force || file.overwrite) = true := by
            cases hallowed : mode.force || file.overwrite with
            | true => rfl
            | false => simp [hallowed] at hkeep
          exact iff_of_true (overwritten_faithful (read_of_existing hexisting) allowed hmade
            hwrite rfl hread rfl rfl rfl rfl rfl) (not_uncovers_of_existing hexisting (by simp))

/-- A target below the root is written. -/
lemma write_of_below {root : Path}
    (below : isBelow root (root.child (relativeText file.path)) tree = .ok true) :
    write root mode file tree =
      (.ok
        (writeAt (root.child (relativeText file.path)) (relativeText file.path) mode file tree).1,
        (writeAt (root.child (relativeText file.path)) (relativeText file.path) mode file
          tree).2) := by
  unfold Writer.write
  simp only [below]

/-- **Faithful writing.** A file whose target lies below the root gets an entry, and the
entry says what became of all files unless the path leads to a file only after its
directories have been made; a path without `..` does not. -/
theorem write_faithful_iff (base : String) (mode : Mode) (file : GeneratedFile) (tree : FileTree)
    (live : mode.dryRun = false)
    (below : isBelow (.ofText base) ((Path.ofText base).child (relativeText file.path)) tree =
      .ok true) :
    ∃ entry after, write (.ofText base) mode file tree = (.ok entry, after) ∧
      (Faithful mode file ((Path.ofText base).child (relativeText file.path)) tree entry after ↔
        ¬ Uncovers tree ((Path.ofText base).child (relativeText file.path))) ∧
      (tree.Sound → ".." ∉ ((Path.ofText base).child (relativeText file.path)).names →
        ¬ Uncovers tree ((Path.ofText base).child (relativeText file.path))) := by
  have written := (Path.ofText_isWritten base).child (relativeText file.path)
  exact ⟨_, _, write_of_below below, writeAt_faithful_iff live written _ tree,
    fun sound plain => not_uncovers sound written plain⟩

/-- A tree with one file in a directory. -/
def oneFile : FileTree :=
  ⟨[], [(["out"], .directory), (["out", "existing.txt"], .file [111, 108, 100])], [], 0⟩

/-- A replacement that is allowed keeps the old bytes in its entry. -/
theorem write_faithful_replacement :
    isBelow (.ofText "/out") ((Path.ofText "/out").child (relativeText "existing.txt")) oneFile =
      .ok true ∧
    ∃ entry after, write (.ofText "/out") ⟨false, true⟩ ⟨"existing.txt", [110], false⟩ oneFile =
        (.ok entry, after) ∧
      (Faithful ⟨false, true⟩ ⟨"existing.txt", [110], false⟩
          ((Path.ofText "/out").child (relativeText "existing.txt")) oneFile entry after ↔
        ¬ Uncovers oneFile ((Path.ofText "/out").child (relativeText "existing.txt"))) ∧
      (oneFile.Sound → ".." ∉ ((Path.ofText "/out").child (relativeText "existing.txt")).names →
        ¬ Uncovers oneFile ((Path.ofText "/out").child (relativeText "existing.txt"))) :=
  ⟨by decide +kernel, write_faithful_iff "/out" ⟨false, true⟩ ⟨"existing.txt", [110], false⟩ oneFile
    rfl (by decide +kernel)⟩

/-- A path that comes back from a missing directory replaces a file that may not be
replaced. -/
theorem write_unfaithful :
    ∃ entry after, write (.ofText "/out") ⟨false, false⟩ ⟨"missing/../existing.txt", [110], false⟩
        oneFile = (.ok entry, after) ∧
      ¬ Faithful ⟨false, false⟩ ⟨"missing/../existing.txt", [110], false⟩
        ((Path.ofText "/out").child (relativeText "missing/../existing.txt")) oneFile entry after := by
  have written := (Path.ofText_isWritten "/out").child (relativeText "missing/../existing.txt")
  refine ⟨_, _, write_of_below (by decide +kernel), ?_⟩
  rw [writeAt_faithful_iff rfl written, not_not]
  decide +kernel

end Scaffold.Writer
