import Scaffold.Proofs.Files.Steps
import Scaffold.Proofs.History.Names

/-!
Recording a run, wholly or not at all.

The directory of a run is new, and every step of the recording but the first stays
inside it. When a step fails the directory goes with everything in it; when none fails
it holds the manifest and the kept files.

* `Passed`: nothing has changed but that directories on a path have been made.
* `performAll_backupSteps`: what the keeping of replaced bytes does.
* `Recorded`: what a recorded run has changed.
* `record_all_or_nothing`: a run is recorded, or nothing has changed but the directories
  on the path of the root.
-/

namespace Scaffold

open Files FileTree

variable {tree tree' after : FileTree} {root directory : Path} {place : Place} {token : String}

/-! ### Kept bytes -/

/-- The bytes that a journaled entry has replaced, if they are kept. -/
def keptBytes? (entry : OutputEntry) : Option Bytes :=
  if entry.status = .overwritten then entry.previousContents else none

/-- The steps for the first entry come first. -/
lemma backupSteps_cons (directory : Path) (token : String) (index : Nat) (entry : OutputEntry)
    (entries : List OutputEntry) :
    backupSteps directory token index (entry :: entries) =
      (match keptBytes? entry with
        | some contents =>
          atomicSteps (directory.child (backupName (some entry.path) index))
            (temporaryPath (directory.child (backupName (some entry.path) index)) "backup" token)
            [contents]
        | none => []) ++ backupSteps directory token (index + 1) entries := by
  rw [backupSteps, keptBytes?]
  split
  · next contents hstatus hcontents => simp [hstatus, hcontents]
  · next h =>
    by_cases hstatus : entry.status = .overwritten
    · cases hcontents : entry.previousContents with
      | none => simp [hstatus]
      | some contents => exact absurd hcontents (h contents hstatus)
    · simp [hstatus]

/-- A name under which some entry from an index on keeps bytes. -/
def KeepsUnder (index : Nat) (entries : List OutputEntry) (name : String) (contents : Bytes) :
    Prop :=
  ∃ (i : Nat) (entry : OutputEntry), entries[i]? = some entry ∧ keptBytes? entry = some contents ∧
    name = backupName (some entry.path) (index + i)

lemma keepsUnder_cons {index : Nat} {entry : OutputEntry} {entries : List OutputEntry}
    {name : String} {contents : Bytes} :
    KeepsUnder index (entry :: entries) name contents ↔
      (keptBytes? entry = some contents ∧ name = backupName (some entry.path) index) ∨
        KeepsUnder (index + 1) entries name contents := by
  constructor
  · rintro ⟨i, other, hother, hkept, hname⟩
    cases i with
    | zero =>
      simp only [List.getElem?_cons_zero, Option.some.injEq] at hother
      subst hother
      exact .inl ⟨hkept, hname⟩
    | succ i =>
      refine .inr ⟨i, other, hother, hkept, ?_⟩
      rw [hname]
      congr 1
      omega
  · rintro (⟨hkept, hname⟩ | ⟨i, other, hother, hkept, hname⟩)
    · exact ⟨0, entry, rfl, hkept, hname⟩
    · refine ⟨i + 1, other, hother, hkept, ?_⟩
      rw [hname]
      congr 1
      omega

/-- Kept bytes have other names than manifests and temporary files. -/
lemma KeepsUnder.ne_manifest {index : Nat} {entries : List OutputEntry} {name : String}
    {contents : Bytes} (h : KeepsUnder index entries name contents) : name ≠ Manifest.fileName := by
  obtain ⟨i, entry, -, -, rfl⟩ := h
  exact backupName_ne_manifest (some entry.path) (index + i)

lemma KeepsUnder.ne_temporary {index : Nat} {entries : List OutputEntry} {name : String}
    {contents : Bytes} (h : KeepsUnder index entries name contents) (label token : String) :
    name ≠ temporaryName label token := by
  obtain ⟨i, entry, -, -, rfl⟩ := h
  exact backupName_ne_temporary (some entry.path) (index + i) label token

/-- A kept file lies directly in the directory of its run. -/
lemma into_backup (located : tree.locate true directory = .ok ⟨place, some .directory⟩)
    (path : Option String) (index : Nat) :
    tree.Into (directory.child (backupName path index)) place (backupName path index) := by
  rw [Path.child_name (backupName_isName path index)]
  refine ⟨by simpa using located, by simp, (backupName_isName path index).2.1,
    backupName_ne_up path index⟩

/-- The temporary file of a file lies beside it. -/
lemma into_temporary {final : Path} (located : tree.locate true final.parent =
    .ok ⟨place, some .directory⟩) (label token : String) :
    tree.Into (temporaryPath final label token) place (temporaryName label token) := by
  rw [temporaryPath_eq]
  refine ⟨?_, by simp, temporaryName_ne_dot label token, temporaryName_ne_up label token⟩
  rw [Path.parent_append]
  exact located

/-- What the keeping of replaced bytes from an index on does. -/
structure Kept (place : Place) (token : String) (index : Nat) (entries : List OutputEntry)
    (tree tree' : FileTree) : Prop where
  /-- The bytes are kept under their names. -/
  files : ∀ name contents, KeepsUnder index entries name contents →
    tree'.node? (place ++ [name]) = some (.file contents)
  /-- Nothing else has changed. -/
  others : ∀ p, (∀ name contents, KeepsUnder index entries name contents → p ≠ place ++ [name]) →
    p ≠ place ++ [temporaryName "backup" token] → tree'.node? p = tree.node? p
  /-- There is no new temporary file. -/
  temporary : tree.node? (place ++ [temporaryName "backup" token]) = none →
    tree'.node? (place ++ [temporaryName "backup" token]) = none

/-- An entry that keeps nothing is passed over. -/
lemma Kept.pass {tree' : FileTree} {index : Nat} {entry : OutputEntry} {entries : List OutputEntry}
    {token : String} (h : Kept place token (index + 1) entries tree tree')
    (nothing : keptBytes? entry = none) : Kept place token index (entry :: entries) tree tree' where
  files name contents hunder := by
    rcases keepsUnder_cons.mp hunder with ⟨hfirst, -⟩ | hunder
    · rw [nothing] at hfirst
      cases hfirst
    · exact h.files name contents hunder
  others p hp := h.others p fun name contents hunder =>
    hp name contents (keepsUnder_cons.mpr (.inr hunder))
  temporary := h.temporary

/-- The file of an entry is written, and those of the others do not touch it. -/
lemma Kept.cons {done tree' : FileTree} {index : Nat} {entry : OutputEntry}
    {entries : List OutputEntry} {token : String} {contents : Bytes}
    (kept : keptBytes? entry = some contents)
    (first : Rewritten (place ++ [backupName (some entry.path) index])
      (place ++ [temporaryName "backup" token]) contents tree done)
    (rest : Kept place token (index + 1) entries done tree') :
    Kept place token index (entry :: entries) tree tree' where
  files name bytes h := by
    rcases keepsUnder_cons.mp h with ⟨hfirst, rfl⟩ | h
    · rw [kept, Option.some.injEq] at hfirst
      subst hfirst
      rw [rest.others, first.file]
      · rintro name' contents' ⟨i, other, -, -, rfl⟩ heq
        have := backupName_inj (List.cons.inj (List.append_cancel_left heq)).1
        omega
      · intro heq
        exact backupName_ne_temporary _ _ _ _ (List.cons.inj (List.append_cancel_left heq)).1
    · exact rest.files name bytes h
  others p hp htemp := by
    rw [rest.others p (fun name bytes h => hp name bytes (keepsUnder_cons.mpr (.inr h))) htemp]
    refine first.within.outside p ?_
    rintro (rfl | rfl)
    · exact hp _ contents (keepsUnder_cons.mpr (.inl ⟨kept, rfl⟩)) rfl
    · exact htemp rfl
  temporary _ := rest.temporary first.gone

/-- Keeping replaced bytes stays inside the directory of the run, and when it comes to
its end all of them are kept. -/
lemma performAll_backupSteps (located : tree.locate true directory = .ok ⟨place, some .directory⟩)
    (unlinked : tree.Unlinked place) (token : String) (index : Nat)
    (entries : List OutputEntry) :
    Within (fun p => ∃ name, p = place ++ [name]) tree
      (tree.performAll (backupSteps directory token index entries)).2 ∧
    ((tree.performAll (backupSteps directory token index entries)).1 = none →
      Kept place token index entries tree
        (tree.performAll (backupSteps directory token index entries)).2) := by
  induction entries generalizing tree index with
  | nil =>
    refine ⟨.refl _ _, fun _ => ⟨fun name contents h => ?_, fun _ _ _ => rfl, id⟩⟩
    obtain ⟨i, entry, hentry, -⟩ := h
    simp at hentry
  | cons entry entries ih =>
    rw [backupSteps_cons]
    cases hkept : keptBytes? entry with
    | none =>
      obtain ⟨hwithin, hrest⟩ := ih located unlinked (index + 1)
      exact ⟨hwithin, fun hnone => (hrest hnone).pass hkept⟩
    | some contents =>
      simp only
      have hinto := into_backup located (some entry.path) index
      have hblock := performAll_atomicSteps hinto (into_temporary hinto.parent "backup" token)
        unlinked (backupName_ne_temporary _ _ _ _) [contents]
      rw [performAll_append]
      generalize tree.performAll (atomicSteps _ _ [contents]) = done at hblock ⊢
      obtain ⟨fault, done⟩ := done
      rcases hblock with ⟨hnone, hrewritten⟩ | ⟨fault', hfault, hwithin⟩
      · simp only at hnone hrewritten
        subst hnone
        have hblockWithin : Within (fun p => ∃ name, p = place ++ [name]) tree done :=
          hrewritten.within.mono fun p hp => by
            rcases hp with rfl | rfl
            · exact ⟨_, rfl⟩
            · exact ⟨_, rfl⟩
        have hlocated := hblockWithin.keeps.locate_directory located
        obtain ⟨hwithin, hrest⟩ := ih hlocated (unlinked.keeps hblockWithin.keeps) (index + 1)
        simp only [if_true]
        rw [List.flatten_singleton] at hrewritten
        exact ⟨hblockWithin.trans hwithin, fun hnone => .cons hkept hrewritten (hrest hnone)⟩
      · simp only at hfault hwithin
        subst hfault
        simp only [reduceCtorEq, if_false, false_implies, and_true]
        exact hwithin.mono fun p hp => ⟨_, hp⟩

/-! ### The records of the entries -/

/-- The record of an entry says what the entry says. -/
structure Describes (record : ChangeRecord) (entry : OutputEntry) : Prop where
  /-- The status, as a word. -/
  status : record.status = entry.status.word
  /-- The file and what was written. -/
  written : record.layer = entry.layer ∧ record.path = some entry.path ∧
    record.fullPath = some entry.fullPath ∧ record.size = entry.size ∧
    record.checksum = entry.checksum
  /-- What was replaced. -/
  replaced : entry.status = .overwritten →
    record.previousSize = entry.previousSize ∧ record.previousChecksum = entry.previousChecksum
  /-- Nothing was replaced by a new file. -/
  fresh : entry.status ≠ .overwritten →
    record.previousSize = none ∧ record.previousChecksum = none
  /-- There is a name for replaced bytes that are kept. -/
  backup : record.backup.isSome = (keptBytes? entry).isSome

lemma describes_recordOf (index : Nat) (entry : OutputEntry) :
    Describes (recordOf index entry) entry := by
  refine ⟨rfl, ⟨rfl, rfl, rfl, rfl, rfl⟩, fun h => ?_, fun h => ?_, ?_⟩
  · simp [recordOf, h]
  · simp [recordOf, h]
  · rw [recordOf, keptBytes?]
    by_cases h : entry.status = .overwritten
    · cases hcontents : entry.previousContents <;> simp [h]
    · simp [h]

lemma backup_recordOf {index : Nat} {entry : OutputEntry} {name : String} :
    (recordOf index entry).backup = some name ↔
      (keptBytes? entry).isSome = true ∧ name = backupName (some entry.path) index := by
  rw [recordOf, keptBytes?]
  by_cases h : entry.status = .overwritten
  · cases hcontents : entry.previousContents <;> simp [h, eq_comm]
  · simp [h]

/-- The records stand in the order of the entries. -/
lemma getElem?_recordsFrom (index : Nat) (entries : List OutputEntry) (i : Nat) :
    (recordsFrom index entries)[i]? = entries[i]?.map (recordOf (index + i)) := by
  induction entries generalizing index i with
  | nil => simp [recordsFrom]
  | cons entry entries ih =>
    rw [recordsFrom]
    cases i with
    | zero => simp
    | succ i =>
      rw [List.getElem?_cons_succ, List.getElem?_cons_succ, ih]
      congr 2
      omega

lemma length_recordsFrom (index : Nat) (entries : List OutputEntry) :
    (recordsFrom index entries).length = entries.length := by
  induction entries generalizing index with
  | nil => rfl
  | cons entry entries ih => rw [recordsFrom, List.length_cons, List.length_cons, ih]

/-- Names of kept files belong to indices from the first one on. -/
lemma exists_of_mem_backups {index : Nat} {entries : List OutputEntry} {name : String}
    (h : name ∈ (recordsFrom index entries).filterMap (·.backup)) :
    ∃ i ≥ index, ∃ path : String, name = backupName (some path) i := by
  obtain ⟨record, hrecord, hname⟩ := List.mem_filterMap.mp h
  obtain ⟨i, hi⟩ := List.getElem?_of_mem hrecord
  rw [getElem?_recordsFrom] at hi
  obtain ⟨entry, -, rfl⟩ := Option.map_eq_some_iff.mp hi
  exact ⟨index + i, by omega, entry.path, (backup_recordOf.mp hname).2⟩

/-- No two kept files have one name. -/
lemma nodup_backups (index : Nat) (entries : List OutputEntry) :
    ((recordsFrom index entries).filterMap (·.backup)).Nodup := by
  induction entries generalizing index with
  | nil => exact .nil
  | cons entry entries ih =>
    rw [recordsFrom, List.filterMap_cons]
    cases hbackup : (recordOf index entry).backup with
    | none => exact ih _
    | some name =>
      refine List.nodup_cons.mpr ⟨fun hmem => ?_, ih _⟩
      obtain ⟨i, hi, path, hname⟩ := exists_of_mem_backups hmem
      rw [(backup_recordOf.mp hbackup).2] at hname
      have := backupName_inj hname
      omega

/-! ### The whole recording -/

/-- Nothing has changed but that missing directories on the path of a root have been
made. -/
def Passed (root : Path) (tree after : FileTree) : Prop :=
  ∀ p, after.node? p = tree.node? p ∨ tree.node? p = none ∧ after.node? p = some .directory ∧
    ∃ k ≤ root.names.length, after.locate true (root.upTo k) = .ok ⟨p, some .directory⟩

lemma passed_makeDirectories (root : Path) (tree : FileTree) :
    Passed root tree (tree.makeDirectories root).2 := by
  have made := makeDirectories_made root tree
  intro p
  rcases made.grown.node p with hsame | ⟨hnone, hdir⟩
  · exact .inl hsame
  · exact .inr ⟨hnone, hdir, made.new p hnone hdir⟩

lemma Passed.alike (h : Passed root tree tree') (same : Alike tree' after) :
    Passed root tree after := by
  intro p
  rw [same.node]
  refine (h p).imp_right fun ⟨hnone, hdir, k, hk, hlocate⟩ => ⟨hnone, hdir, k, hk, ?_⟩
  rw [same.locate]
  exact hlocate

/-- No run of a name is in the root, once this has been made. -/
def IsNewRun (root : Path) (id : String) (tree : FileTree) : Prop :=
  ∀ found, (tree.makeDirectories root).2.locate false (root.child id) = .ok found →
    found.node = none

instance (root : Path) (id : String) (tree : FileTree) : Decidable (IsNewRun root id tree) :=
  match h : (tree.makeDirectories root).2.locate false (root.child id) with
  | .error fault => .isTrue fun found hfound => by rw [h] at hfound; cases hfound
  | .ok found => decidable_of_iff (found.node = none)
      ⟨fun hnone found' hfound => by rw [h] at hfound; cases hfound; exact hnone,
        fun fresh => fresh found h⟩

/-- What a recorded run has changed: the directory of the run with all that it holds is
new, and missing directories on the path of the root have been made. -/
structure Recorded (root : Path) (id : String) (entries : List OutputEntry)
    (manifest : Manifest) (bytes : Bytes) (place : Place) (tree after : FileTree) : Prop where
  /-- The root is there. -/
  located : after.locate true root = .ok ⟨place, some .directory⟩
  /-- There was no directory of this name. -/
  fresh : tree.node? (place ++ [id]) = none
  /-- There is one now. -/
  directory : after.node? (place ++ [id]) = some .directory
  /-- It holds the manifest and the kept bytes, and nothing else. -/
  holds : ∀ rest node, rest ≠ [] → (after.node? (place ++ [id] ++ rest) = some node ↔
    (rest = [Manifest.fileName] ∧ node = .file bytes) ∨
    ∃ (i : Nat) (entry : OutputEntry) (record : ChangeRecord) (name : String) (kept : Bytes),
      entries[i]? = some entry ∧ manifest.entries[i]? = some record ∧
      record.backup = some name ∧ keptBytes? entry = some kept ∧ rest = [name] ∧
      node = .file kept)
  /-- The manifest lists the entries in their order. -/
  listed : manifest.entries.length = entries.length ∧ ∀ (i : Nat) (entry : OutputEntry),
    entries[i]? = some entry →
      ∃ record, manifest.entries[i]? = some record ∧ Describes record entry
  /-- No two kept files have one name. -/
  names : (manifest.entries.filterMap (·.backup)).Nodup
  /-- Nothing else has changed but directories on the path of the root. -/
  others : ∀ p, ¬ (place ++ [id]) <+: p → after.node? p = tree.node? p ∨
    tree.node? p = none ∧ after.node? p = some .directory ∧
      ∃ k ≤ root.names.length, after.locate true (root.upTo k) = .ok ⟨p, some .directory⟩
  /-- Nothing else has changed in the root when its path is written without `..`. -/
  below : ".." ∉ root.names → ∀ p, place <+: p → p ≠ place → ¬ (place ++ [id]) <+: p →
    after.node? p = tree.node? p

section Run

variable {id : String} {inner : List Step} {grown : FileTree}

/-- A new directory in the root: where it lies, and what is there. -/
structure Started (grown : FileTree) (root : Path) (id : String) (place : Place)
    (started : FileTree) : Prop where
  /-- The root is located. -/
  top : grown.locate true root = .ok ⟨place, some .directory⟩
  /-- Nothing was there. -/
  fresh : grown.node? (place ++ [id]) = none
  /-- There is a directory now, and nothing else has changed. -/
  set : started = grown.set (place ++ [id]) .directory
  /-- The directory is located, whether or not links are followed. -/
  located : ∀ follow, started.locate follow (root.child id) = .ok ⟨place ++ [id], some .directory⟩
  /-- No link lies in it. -/
  unlinked : started.Unlinked (place ++ [id])
  /-- Everything lies in a directory. -/
  sound : started.Sound

lemma started_of_makeDirectory (grownSound : grown.Sound) (isName : Path.IsName id)
    (up : id ≠ "..") (located : grown.locate true root = .ok ⟨place, some .directory⟩)
    (made : grown.makeDirectory (root.child id) = .ok tree') :
    Started grown root id place tree' := by
  obtain ⟨goal, hgoal, rfl⟩ := makeDirectory_ok made
  have hgoal' := hgoal
  rw [Path.child_name isName] at hgoal'
  have hplace := place_of_child_unfollowed located hgoal' isName.2.1 up
  subst hplace
  obtain ⟨hne, hparent, hnone⟩ := grownSound.parent hgoal
  refine ⟨located, hnone, rfl, fun follow => ?_, fun name target => ?_,
    grownSound.set hne _ hparent (by simp [hnone])⟩
  · cases follow with
    | true => exact locate_set_directory hgoal
    | false =>
      have := (grown_set_directory hnone).keeps.locate hgoal
      rwa [node?_set_self hne] at this
  · rw [node?_set_of_ne (by simp), grownSound.below (by simp [hnone]) (by simp)]
    simp

/-- After the removal of the new directory everything is as it was before it. -/
lemma Started.alike_removeTree {started left : FileTree} (grownSound : grown.Sound)
    (h : Started grown root id place started)
    (within : Within (fun p => ∃ name, p = place ++ [id] ++ [name]) started left) :
    Alike grown (left.removeTree (root.child id)) := by
  have hlocated := within.keeps.locate_directory (h.located false)
  refine ⟨?_, fun p => ?_⟩
  · rw [workplace_removeTree, within.keeps.workplace, h.set, workplace_set]
  · rw [removeTree_node? hlocated (by simp)]
    split
    · next hp =>
      obtain ⟨rest, rfl⟩ := hp
      cases rest with
      | nil => rw [List.append_nil, h.fresh]
      | cons name rest => rw [grownSound.below (by simp [h.fresh]) (by simp)]
    · next hp =>
      rw [within.outside p, h.set, node?_set_of_ne]
      · rintro rfl
        exact hp (List.prefix_refl _)
      · rintro ⟨name, rfl⟩
        exact hp (List.prefix_append _ _)

/-- What becomes of steps that make the root and a new directory in it and then stay in
this directory: they fail and the directory can be removed without a trace, or they
succeed. -/
lemma performAll_in_root (sound : tree.Sound) (isName : Path.IsName id) (up : id ≠ "..")
    (fresh : IsNewRun root id tree)
    (stays : ∀ started place,
      Started (tree.makeDirectories root).2 root id place started →
      Within (fun p => ∃ name, p = place ++ [id] ++ [name]) started (started.performAll inner).2) :
    Alike (tree.makeDirectories root).2
      ((tree.performAll
        (.ensureDirectory root :: .makeDirectory (root.child id) :: inner)).2.removeTree
          (root.child id)) ∧
    ((tree.performAll (.ensureDirectory root :: .makeDirectory (root.child id) :: inner)).1 = none →
      ∃ place started, Started (tree.makeDirectories root).2 root id place started ∧
        tree.performAll (.ensureDirectory root :: .makeDirectory (root.child id) :: inner) =
          started.performAll inner) := by
  have hmade := makeDirectories_made root tree
  have hunseen : ∀ place, (tree.makeDirectories root).2.locate false (root.child id) ≠
      .ok ⟨place, some .directory⟩ := fun place h => by cases fresh _ h
  have hreached := @makeDirectories_reached tree root
  rw [performAll, perform]
  generalize tree.makeDirectories root = made at *
  obtain ⟨fault, grown⟩ := made
  simp only at hmade hunseen hreached stays ⊢
  have hunchanged : Alike grown (grown.removeTree (root.child id)) := by
    rw [removeTree_of_not hunseen]
    exact ⟨rfl, fun _ => rfl⟩
  cases fault with
  | some fault => exact ⟨hunchanged, fun h => by cases h⟩
  | none =>
    obtain ⟨place, hplace⟩ := hreached rfl
    simp only [performAll, perform]
    obtain ⟨started, hmkdir, hsettle⟩ | ⟨fault, hsettle⟩ :=
      settle_cases grown (grown.makeDirectory (root.child id))
    · rw [hsettle]
      have hstarted := started_of_makeDirectory (hmade.sound sound) isName up hplace hmkdir
      exact ⟨hstarted.alike_removeTree (hmade.sound sound) (stays started place hstarted),
        fun _ => ⟨place, started, hstarted, rfl⟩⟩
    · rw [hsettle]
      exact ⟨hunchanged, fun h => by cases h⟩

end Run

section Record

variable {journal : Journal} {s : Surroundings} {context : List (Document × Document)}
  {b : Blueprint} {relative : String} {output : Output} {entries : List OutputEntry}
  {bytes : Bytes}

/-- Filling the directory of a run: the replaced bytes are kept and the manifest is
written, all inside the directory. -/
lemma performAll_filling (located : tree.locate true directory = .ok ⟨place, some .directory⟩)
    (unlinked : tree.Unlinked place) (token : String) (entries : List OutputEntry)
    (bytes : Bytes) :
    Within (fun p => ∃ name, p = place ++ [name]) tree
      (tree.performAll (backupSteps directory token 0 entries ++
        atomicSteps (directory.child Manifest.fileName)
          (temporaryPath (directory.child Manifest.fileName) "manifest" token) [bytes])).2 ∧
    ((tree.performAll (backupSteps directory token 0 entries ++
        atomicSteps (directory.child Manifest.fileName)
          (temporaryPath (directory.child Manifest.fileName) "manifest" token) [bytes])).1 = none →
      ∃ kept, Kept place token 0 entries tree kept ∧
        Rewritten (place ++ [Manifest.fileName]) (place ++ [temporaryName "manifest" token]) bytes
          kept (tree.performAll (backupSteps directory token 0 entries ++
            atomicSteps (directory.child Manifest.fileName)
              (temporaryPath (directory.child Manifest.fileName) "manifest" token) [bytes])).2) := by
  obtain ⟨hwithin, hkept⟩ := performAll_backupSteps located unlinked token 0 entries
  rw [performAll_append]
  generalize tree.performAll (backupSteps directory token 0 entries) = done at hwithin hkept ⊢
  obtain ⟨fault, kept⟩ := done
  cases fault with
  | some fault => exact ⟨by simpa using hwithin, fun h => by simp at h⟩
  | none =>
    simp only [if_true]
    have hlocated := hwithin.keeps.locate_directory located
    have hinto : kept.Into (directory.child Manifest.fileName) place Manifest.fileName := by
      rw [Path.child_name fileName_isName]
      exact ⟨by simpa using hlocated, by simp, fileName_isName.2.1, by decide⟩
    rcases performAll_atomicSteps hinto (into_temporary hinto.parent "manifest" token)
      (unlinked.keeps hwithin.keeps) (fileName_ne_temporary _ _) [bytes] with
      ⟨-, hrewritten⟩ | ⟨fault, hfault, hmanifest⟩
    · refine ⟨hwithin.trans (hrewritten.within.mono fun p hp => ?_), fun _ =>
        ⟨kept, hkept rfl, by simpa using hrewritten⟩⟩
      rcases hp with rfl | rfl
      · exact ⟨_, rfl⟩
      · exact ⟨_, rfl⟩
    · refine ⟨hwithin.trans (hmanifest.mono fun p hp => ⟨_, hp⟩), fun h => ?_⟩
      rw [hfault] at h
      cases h

/-- What a filled directory holds. -/
lemma filled_iff {kept : FileTree} (empty : ∀ rest, rest ≠ [] → tree.node? (place ++ rest) = none)
    (hkept : Kept place token 0 entries tree kept)
    (hmanifest : Rewritten (place ++ [Manifest.fileName])
      (place ++ [temporaryName "manifest" token]) bytes kept after)
    {rest : Place} (ne : rest ≠ []) (node : Node) :
    after.node? (place ++ rest) = some node ↔
      (rest = [Manifest.fileName] ∧ node = .file bytes) ∨
      ∃ name contents, KeepsUnder 0 entries name contents ∧ rest = [name] ∧
        node = .file contents := by
  by_cases hfile : rest = [Manifest.fileName]
  · subst hfile
    rw [hmanifest.file, Option.some.injEq]
    constructor
    · rintro rfl
      exact .inl ⟨rfl, rfl⟩
    · rintro (⟨-, rfl⟩ | ⟨name, contents, hunder, hname, -⟩)
      · rfl
      · exact absurd (List.cons.inj hname).1.symm hunder.ne_manifest
  by_cases hkeeps : ∃ name contents, KeepsUnder 0 entries name contents ∧ rest = [name]
  · obtain ⟨name, contents, hunder, rfl⟩ := hkeeps
    have hnode : after.node? (place ++ [name]) = some (.file contents) := by
      rw [hmanifest.within.outside, hkept.files name contents hunder]
      rintro (heq | heq)
      · exact hunder.ne_manifest (List.cons.inj (List.append_cancel_left heq)).1
      · exact hunder.ne_temporary _ _ (List.cons.inj (List.append_cancel_left heq)).1
    rw [hnode, Option.some.injEq]
    constructor
    · rintro rfl
      exact .inr ⟨name, contents, hunder, rfl, rfl⟩
    · rintro (⟨h, -⟩ | ⟨name', contents', hunder', h, rfl⟩)
      · exact absurd h hfile
      · rw [(List.cons.inj h).1.symm] at hunder'
        have := (hkept.files _ _ hunder).symm.trans (hkept.files _ _ hunder')
        rwa [Option.some.injEq] at this
  · have hnone : after.node? (place ++ rest) = none := by
      by_cases htemporary : place ++ rest = place ++ [temporaryName "manifest" token]
      · rw [htemporary, hmanifest.gone]
      · rw [hmanifest.within.outside]
        · by_cases hbackup : place ++ rest = place ++ [temporaryName "backup" token]
          · rw [hbackup]
            exact hkept.temporary (empty _ (by simp))
          · rw [hkept.others _ _ hbackup, empty rest ne]
            intro name contents hunder heq
            exact hkeeps ⟨name, contents, hunder, List.append_cancel_left heq⟩
        · rintro (heq | heq)
          · exact hfile (List.append_cancel_left heq)
          · exact htemporary heq
    rw [hnone]
    refine iff_of_false (by simp) ?_
    rintro (⟨h, -⟩ | ⟨name, contents, hunder, h, -⟩)
    · exact hfile h
    · exact hkeeps ⟨name, contents, hunder, h⟩

/-- A filled directory records the run. -/
lemma recorded_of_filled {id : String} {started kept : FileTree} {manifest : Manifest}
    (sound : tree.Sound) (written : root.IsWritten)
    (h : Started (tree.makeDirectories root).2 root id place started)
    (hkept : Kept (place ++ [id]) token 0 entries started kept)
    (hmanifest : Rewritten (place ++ [id] ++ [Manifest.fileName])
      (place ++ [id] ++ [temporaryName "manifest" token]) bytes kept after)
    (within : Within (fun p => ∃ name, p = place ++ [id] ++ [name]) started after)
    (hentries : manifest.entries = recordsFrom 0 entries) :
    Recorded root id entries manifest bytes place tree after := by
  have hmade := makeDirectories_made root tree
  have hnew := passed_makeDirectories root tree
  generalize (tree.makeDirectories root).2 = grown at *
  have hset : Grown grown started := by
    rw [h.set]
    exact grown_set_directory h.fresh
  have hkeeps : Keeps grown after := hset.keeps.trans within.keeps
  have hsame : ∀ p, ¬ (place ++ [id]) <+: p → after.node? p = grown.node? p := by
    intro p hp
    rw [within.outside p, h.set, node?_set_of_ne]
    · rintro rfl
      exact hp (List.prefix_refl _)
    · rintro ⟨name, rfl⟩
      exact hp (List.prefix_append _ _)
  refine ⟨hkeeps.locate_directory h.top, hmade.grown.of_none h.fresh, ?_,
    fun rest node ne => ?_, ⟨?_, ?_⟩, ?_, fun p hp => ?_, fun plain p hle hne hp => ?_⟩
  · exact within.keeps.directory _ (node?_of_locate (h.located true))
  · have hempty : ∀ rest, rest ≠ [] → started.node? (place ++ [id] ++ rest) = none := by
      intro rest ne
      rw [h.set, node?_set_of_ne (by simpa using ne)]
      exact (hmade.sound sound).below (by simp [h.fresh]) ne
    rw [filled_iff hempty hkept hmanifest ne]
    refine or_congr_right ⟨?_, ?_⟩
    · rintro ⟨name, contents, ⟨i, entry, hentry, hbytes, hname⟩, hrest, hnode⟩
      refine ⟨i, entry, recordOf i entry, name, contents, hentry, ?_, ?_, hbytes, hrest, hnode⟩
      · simp [hentries, getElem?_recordsFrom, hentry]
      · rw [backup_recordOf, hbytes]
        exact ⟨rfl, by simpa using hname⟩
    · rintro ⟨i, entry, record, name, contents, hentry, hrecord, hbackup, hbytes, hrest, hnode⟩
      simp only [hentries, getElem?_recordsFrom, hentry, Option.map_some,
        Option.some.injEq] at hrecord
      subst hrecord
      exact ⟨name, contents, ⟨i, entry, hentry, hbytes, (backup_recordOf.mp hbackup).2⟩, hrest,
        hnode⟩
  · rw [hentries, length_recordsFrom]
  · intro i entry hentry
    refine ⟨recordOf (0 + i) entry, ?_, describes_recordOf _ _⟩
    rw [hentries, getElem?_recordsFrom, hentry]
    rfl
  · rw [hentries]
    exact nodup_backups 0 entries
  · rw [hsame p hp]
    refine (hnew p).imp_right fun ⟨hnone, hdir, k, hk, hlocate⟩ => ⟨hnone, hdir, k, hk, ?_⟩
    have := hkeeps.locate hlocate
    rwa [hkeeps.directory _ hdir] at this
  · rw [hsame p hp]
    rcases hnew p with hold | ⟨hnone, -, k, -, hlocate⟩
    · exact hold
    · have hplain : IsPlain root := fun name hname =>
        ⟨(written.names name hname).2.1, fun heq => plain (heq ▸ hname)⟩
      have := hmade.grown.prefix_of_new sound hplain hnone hlocate h.top
      exact absurd (hle.eq_of_length_le this.length_le).symm hne

/-- The root of a store is a path that can be read. -/
lemma root?_isWritten {store : HistoryStore} (h : store.root? = some root) : root.IsWritten := by
  rw [HistoryStore.root?] at h
  split at h
  · rw [Option.some.injEq] at h
    exact h ▸ Path.ofText_isWritten _
  · cases h

/-- The recording of a journal with a root for entries. -/
lemma record_eq (kept : journal.store.root? = some root) (changed : output.journaled ≠ []) :
    journal.record s context b relative output tree =
      (((recordingOf root s (Journal.nextSequence journal.last s.clock) context b relative
          output.journaled).run tree).1,
        { journal with last := Journal.nextSequence journal.last s.clock },
        ((recordingOf root s (Journal.nextSequence journal.last s.clock) context b relative
          output.journaled).run tree).2) := by
  rw [Journal.record, kept]
  cases hentries : output.journaled with
  | nil => exact absurd hentries changed
  | cons entry entries => rfl

lemma run_of_fault {recording : Recording} {fault : Fault} {left : FileTree}
    (h : tree.performAll recording.steps = (some fault, left)) :
    recording.run tree = (.error (.files fault), left.removeTree recording.directory) := by
  rw [Recording.run, h]

lemma run_of_refused {recording : Recording} {refusal : RecordFault} {left : FileTree}
    (h : tree.performAll recording.steps = (none, left))
    (refused : recording.refusal = some refusal) :
    recording.run tree = (.error refusal, left.removeTree recording.directory) := by
  rw [Recording.run, h, refused]

lemma run_of_done {recording : Recording} {left : FileTree}
    (h : tree.performAll recording.steps = (none, left)) (carried : recording.refusal = none) :
    recording.run tree = (.ok recording.id, left) := by
  rw [Recording.run, h, carried]

/-- A recording fills the new directory of its run, or there is a fault and no trace of
it is left. -/
lemma run_cases {recording : Recording} {id : String} {inner : List Step} (sound : tree.Sound)
    (isName : Path.IsName id) (up : id ≠ "..") (fresh : IsNewRun root id tree)
    (steps : recording.steps = .ensureDirectory root :: .makeDirectory (root.child id) :: inner)
    (directory : recording.directory = root.child id)
    (stays : ∀ started place,
      Started (tree.makeDirectories root).2 root id place started →
      Within (fun p => ∃ name, p = place ++ [id] ++ [name]) started (started.performAll inner).2) :
    (∃ place started, Started (tree.makeDirectories root).2 root id place started ∧
      recording.refusal = none ∧ (started.performAll inner).1 = none ∧
      recording.run tree = (.ok recording.id, (started.performAll inner).2)) ∨
    ∃ fault, (recording.run tree).1 = .error fault ∧ Passed root tree (recording.run tree).2 := by
  obtain ⟨halike, hdone⟩ := performAll_in_root sound isName up fresh stays
  have hpassed := (passed_makeDirectories root tree).alike halike
  rw [← steps] at hpassed hdone
  rw [← directory] at hpassed
  cases hresult : tree.performAll recording.steps with
  | mk fault left =>
    rw [hresult] at hpassed hdone
    cases fault with
    | some fault =>
      rw [run_of_fault hresult]
      exact .inr ⟨_, rfl, hpassed⟩
    | none =>
      cases hrefusal : recording.refusal with
      | some refusal =>
        rw [run_of_refused hresult hrefusal]
        exact .inr ⟨_, rfl, hpassed⟩
      | none =>
        obtain ⟨place, started, hstarted, heq⟩ := hdone rfl
        rw [run_of_done hresult hrefusal]
        exact .inl ⟨place, started, hstarted, rfl, by rw [← heq], by rw [← heq]⟩

/-- **All or nothing**: a run is recorded, or nothing has changed but that directories on
the path of the root have been made. -/
theorem record_all_or_nothing (journal : Journal) (s : Surroundings)
    (context : List (Document × Document)) (b : Blueprint) (relative : String) (output : Output)
    (tree : FileTree) (kept : journal.store.root? = some root) (some : output.journaled ≠ [])
    (sound : tree.Sound) (unique : '/' ∉ s.unique.toList)
    (fresh : IsNewRun root (runName s b) tree) :
    (∃ known bytes place, RunContext.ofEntries context = .ok known ∧
      (manifestFor s (Journal.nextSequence journal.last s.clock) known b relative
        output.journaled).fileBytes = .ok bytes ∧
      (journal.record s context b relative output tree).1 = .ok (runName s b) ∧
      Recorded root (runName s b) output.journaled
        (manifestFor s (Journal.nextSequence journal.last s.clock) known b relative
          output.journaled) bytes place tree
        (journal.record s context b relative output tree).2.2) ∨
    ∃ fault, (journal.record s context b relative output tree).1 = .error fault ∧
      Passed root tree (journal.record s context b relative output tree).2.2 := by
  rw [record_eq kept some]
  have isName := runName_isName unique b
  have up := runName_ne_up s b
  -- without a manifest the steps end with the kept bytes, and the recording is given up
  have hrefused : ∀ (recording : Recording) (refusal : RecordFault),
      recording.refusal = .some refusal →
      recording.steps = .ensureDirectory root :: .makeDirectory (root.child (runName s b)) ::
        backupSteps (root.child (runName s b)) s.token 0 output.journaled →
      recording.directory = root.child (runName s b) →
      ∃ fault, (recording.run tree).1 = .error fault ∧
        Passed root tree (recording.run tree).2 := by
    intro recording refusal hrefusal hsteps hdirectory
    rcases run_cases sound isName up fresh hsteps hdirectory fun started place h =>
      (performAll_backupSteps (h.located true) h.unlinked s.token 0 output.journaled).1 with
      ⟨place, started, -, hnone, -⟩ | hfault
    · rw [hrefusal] at hnone
      cases hnone
    · exact hfault
  cases hcontext : RunContext.ofEntries context with
  | error fault =>
    refine .inr (hrefused _ (.context fault) ?_ ?_ ?_) <;> simp [recordingOf, hcontext]
  | ok known =>
    cases hbytes : (manifestFor s (Journal.nextSequence journal.last s.clock) known b relative
        output.journaled).fileBytes with
    | error fault =>
      refine .inr (hrefused _ fault ?_ ?_ ?_) <;> simp [recordingOf, hcontext, hbytes]
    | ok bytes =>
      have hfill := fun started place (h : Started (tree.makeDirectories root).2 root
        (runName s b) place started) =>
        performAll_filling (h.located true) h.unlinked s.token output.journaled bytes
      have hsteps : (recordingOf root s (Journal.nextSequence journal.last s.clock) context b
          relative output.journaled).steps =
          .ensureDirectory root :: .makeDirectory (root.child (runName s b)) ::
            (backupSteps (root.child (runName s b)) s.token 0 output.journaled ++
              atomicSteps ((root.child (runName s b)).child Manifest.fileName)
                (temporaryPath ((root.child (runName s b)).child Manifest.fileName) "manifest"
                  s.token) [bytes]) := by
        simp [recordingOf, hcontext, hbytes]
      have hid : (recordingOf root s (Journal.nextSequence journal.last s.clock) context b
          relative output.journaled).id = runName s b := by
        simp [recordingOf, hcontext, hbytes]
      have hdirectory : (recordingOf root s (Journal.nextSequence journal.last s.clock) context b
          relative output.journaled).directory = root.child (runName s b) := by
        simp [recordingOf, hcontext, hbytes]
      rcases run_cases sound isName up fresh hsteps hdirectory
        fun started place h => (hfill started place h).1 with
        ⟨place, started, hstarted, -, hnone, hrun⟩ | hfault
      · obtain ⟨filled, hkept, hmanifest⟩ := (hfill started place hstarted).2 hnone
        rw [hrun, hid]
        exact .inl ⟨known, bytes, place, rfl, hbytes, rfl,
          recorded_of_filled sound (root?_isWritten kept) hstarted hkept hmanifest
            (hfill started place hstarted).1 rfl⟩
      · exact .inr hfault

end Record

/-- A blueprint that has a module and an entity. -/
def smallBlueprint : Blueprint where
  path := ""
  modulePath := some "hr"
  entity := "Employee"
  table := "employees"
  architecture := "hexagonal"
  fields := []
  relations := []
  options := []
  api := .empty
  docs := []
  errors := []
  metadata := []
  tenancy := []

/-- What a recording takes from outside on some day. -/
def someDay : Surroundings where
  started := ⟨⟨2024, 5, 6⟩, 7, 8, 9, 0, some 0⟩
  recorded := ⟨⟨2024, 5, 6⟩, 7, 8, 9, 1, some 0⟩
  clock := .ofDecimal false 1715000000 0
  unique := "1"
  token := "1"

/-- The replacement of one file. -/
def oneReplacement : Output where
  entries := [{ OutputEntry.bare .overwritten "a.txt" "/out/a.txt" with
    previousContents := some [111] }]
  warnings := []

/-- A journal in a directory that is not there yet. -/
def journalAt (location : String) : Journal :=
  .fresh ⟨location, true⟩

/-- The recording of a replacement in a root that is not there yet. -/
theorem record_all_or_nothing_replacement :
    (journalAt "/h").store.root? = some (.ofText "/h") ∧ oneReplacement.journaled ≠ [] ∧
    (empty []).Sound ∧ '/' ∉ someDay.unique.toList ∧
    IsNewRun (.ofText "/h") (runName someDay smallBlueprint) (empty []) ∧
    ((∃ known bytes place, RunContext.ofEntries [] = .ok known ∧
      (manifestFor someDay (Journal.nextSequence (journalAt "/h").last someDay.clock) known
        smallBlueprint "e.yaml" oneReplacement.journaled).fileBytes = .ok bytes ∧
      ((journalAt "/h").record someDay [] smallBlueprint "e.yaml" oneReplacement (empty [])).1 =
        .ok (runName someDay smallBlueprint) ∧
      Recorded (.ofText "/h") (runName someDay smallBlueprint) oneReplacement.journaled
        (manifestFor someDay (Journal.nextSequence (journalAt "/h").last someDay.clock) known
          smallBlueprint "e.yaml" oneReplacement.journaled) bytes place (empty [])
        ((journalAt "/h").record someDay [] smallBlueprint "e.yaml" oneReplacement (empty [])).2.2) ∨
    ∃ fault, ((journalAt "/h").record someDay [] smallBlueprint "e.yaml" oneReplacement
        (empty [])).1 = .error fault ∧
      Passed (.ofText "/h") (empty [])
        ((journalAt "/h").record someDay [] smallBlueprint "e.yaml" oneReplacement (empty [])).2.2) := by
  refine ⟨by decide +kernel, by decide +kernel, by decide +kernel, by decide +kernel,
    by decide +kernel, ?_⟩
  exact record_all_or_nothing (journalAt "/h") someDay [] smallBlueprint "e.yaml" oneReplacement
    (empty []) (by decide +kernel) (by decide +kernel) (by decide +kernel) (by decide +kernel)
    (by decide +kernel)

/-- A root whose path comes back from a missing directory gets this directory beside
the directory of the run. -/
theorem record_passes_below_root :
    (journalAt "/h/x/..").store.root? = some (.ofText "/h/x/..") ∧ (empty []).Sound ∧
    IsNewRun (.ofText "/h/x/..") (runName someDay smallBlueprint) (empty []) ∧
    let after := ((journalAt "/h/x/..").record someDay [] smallBlueprint "e.yaml" oneReplacement
      (empty [])).2.2
    ((journalAt "/h/x/..").record someDay [] smallBlueprint "e.yaml" oneReplacement
      (empty [])).1.toOption = some (runName someDay smallBlueprint) ∧
    ((after.locate true (.ofText "/h/x/..")).toOption.map (·.place) = some ["h"]) ∧
    ¬ (["h", runName someDay smallBlueprint] <+: ["h", "x"]) ∧
    (empty []).node? ["h", "x"] = none ∧ after.node? ["h", "x"] = some .directory := by
  decide +kernel

end Scaffold
