import Scaffold.Proofs.Files.Lasting
import Scaffold.Proofs.Generation.Confinement

/-!
Writing the same files again.

A file that has been through the writing is settled: its path leads to a file that holds the
contents or may not be replaced, or to a directory, or something else is in its way. None of
this is undone by the files that are written after it, as long as their paths lead elsewhere,
although their directories and files may get into each other's way. Over a settled file
nothing is written and nothing is made.

* `Settled`: a file that needs no more writing.
* `Rewritten`: how the tree after some writing differs from the tree before.
* `settled_write`, `settled_writeAll`: files are settled once they have been written.
* `write_of_settled`, `writeAll_of_settled`: then nothing is written.
* `writeAll_again`: files that are written a second time leave the tree as it is.
-/

namespace Scaffold.Writer

open Files FileTree

variable {tree next after : FileTree} {root target path : Path} {mode : Mode}
  {file : GeneratedFile} {files : List GeneratedFile} {contents : Bytes} {p : Place}

/-! ### Resolution without links -/

lemma resolve_congr (noLinks : tree.NoLinks) (noLinks' : next.NoLinks)
    (workplace : next.workplace = tree.workplace) (path : Path) :
    next.resolve path = tree.resolve path := by
  cases hzero : path.holdsZero with
  | true => rw [resolve, resolve, if_pos hzero, if_pos hzero]
  | false =>
    rw [resolve_of_noLinks noLinks hzero, resolve_of_noLinks noLinks' hzero, goal_congr workplace]

lemma isBelow_congr (noLinks : tree.NoLinks) (noLinks' : next.NoLinks)
    (workplace : next.workplace = tree.workplace) (root target : Path) :
    isBelow root target next = isBelow root target tree := by
  rw [isBelow, isBelow, resolve_congr noLinks noLinks' workplace,
    resolve_congr noLinks noLinks' workplace]

/-! ### What writing changes -/

/-- Directories and files are kept, and only files at certain places have other contents. -/
structure Rewritten (places : Place → Prop) (tree next : FileTree) : Prop where
  /-- The directories are all there, and no link is new. -/
  keeps : Keeps tree next
  /-- The files are all there. -/
  files : KeepsFiles tree next
  /-- Files elsewhere have their contents. -/
  others : ∀ p, ¬ places p → next.contents? p = tree.contents? p

namespace Rewritten

variable {places places' : Place → Prop}

lemma refl (places : Place → Prop) (tree : FileTree) : Rewritten places tree tree :=
  ⟨.refl tree, .refl tree, fun _ _ => rfl⟩

lemma trans (h : Rewritten places tree next) (h' : Rewritten places' next after) :
    Rewritten (fun p => places p ∨ places' p) tree after where
  keeps := h.keeps.trans h'.keeps
  files := h.files.trans h'.files
  others p hp := by
    rw [not_or] at hp
    rw [h'.others p hp.2, h.others p hp.1]

lemma mono (h : Rewritten places tree next) (sub : ∀ p, places p → places' p) :
    Rewritten places' tree next :=
  ⟨h.keeps, h.files, fun p hp => h.others p fun hplace => hp (sub p hplace)⟩

lemma of_grown (grown : Grown tree next) : Rewritten places tree next :=
  ⟨grown.keeps, grown.keepsFiles, fun p _ => grown.contents p⟩

end Rewritten

/-- One file is rewritten at the place to which its path is resolved. -/
lemma rewritten_write (root : Path) (mode : Mode) (file : GeneratedFile) (tree : FileTree) :
    Rewritten (fun p => tree.resolve (targetOf root file) = .ok p) tree
      (write root mode file tree).2 := by
  obtain hsame | ⟨goal, top, previous, hgoal, -, -, hplace⟩ := write_cases root mode file tree
  · rw [hsame]
    exact .refl _ tree
  · rw [hplace]
    have hgrown := makeDirectories_grown (targetOf root file).parent tree
    obtain ⟨hstatus, -⟩ | ⟨grown, after, hdirs, hwrite, hplaced⟩ :=
      place_cases (targetOf root file) file.contents previous (relativeText file.path) tree
    · rw [place_of_error hstatus]
      exact .of_grown hgrown
    · rw [hplaced]
      rw [hdirs] at hgrown
      obtain ⟨q, hq, vacant, rfl⟩ := write_eq_ok_iff.mp hwrite
      obtain rfl : q = goal := place_of_resolve hgrown.keeps hgoal hq
      refine ⟨hgrown.keeps.trans (.set_file vacant _),
        hgrown.keepsFiles.trans (keepsFiles_set vacant.ne_nil _ grown), fun p hp => ?_⟩
      rw [contents?_set vacant.ne_nil, if_neg, hgrown.contents]
      rintro rfl
      exact hp hgoal

/-- Several files are rewritten at the places to which their paths are resolved. -/
lemma rewritten_writeAll (root : Path) (mode : Mode) (files : List GeneratedFile)
    (noLinks : tree.NoLinks) :
    Rewritten (fun p => ∃ file ∈ files, tree.resolve (targetOf root file) = .ok p) tree
      (writeAll root mode files tree).2 := by
  induction files generalizing tree with
  | nil => exact .refl _ tree
  | cons file files ih =>
    have hfirst := rewritten_write root mode file tree
    rw [writeAll_cons]
    cases hwrite : write root mode file tree with
    | mk outcome next =>
      rw [hwrite] at hfirst
      cases outcome with
      | error fault => exact hfirst.mono fun p hp => ⟨file, by simp, hp⟩
      | ok entry =>
        have hlinks := hfirst.keeps.noLinks noLinks
        refine (hfirst.trans (ih hlinks)).mono fun p hp => ?_
        rcases hp with hp | ⟨other, hother, hp⟩
        · exact ⟨file, by simp, hp⟩
        · rw [resolve_congr noLinks hlinks hfirst.keeps.workplace] at hp
          exact ⟨other, by simp [hother], hp⟩

/-! ### Settled files -/

/-- A file needs no more writing at its target: something is there, or in the way, and it is
no file with other contents that may be replaced. -/
structure Settled (mode : Mode) (file : GeneratedFile) (target : Path) (tree : FileTree) :
    Prop where
  /-- There is a file or a directory, or the path is stopped by something that is there. -/
  decided : tree.Blocked target ∨ ∃ p, tree.locate true target = .ok ⟨p, some .directory⟩
  /-- A file has the contents, or may not be replaced. -/
  kept : ∀ p contents, tree.locate true target = .ok ⟨p, some (.file contents)⟩ →
    contents = file.contents ∨ (mode.force || file.overwrite) = false

/-- A file stays settled when files elsewhere are written. -/
lemma Settled.later {places : Place → Prop} (h : Settled mode file target tree)
    (rewritten : Rewritten places tree next) (noLinks : tree.NoLinks)
    (apart : ∀ p, tree.resolve target = .ok p → ¬ places p) : Settled mode file target next where
  decided := by
    rcases h.decided with hblocked | ⟨p, hp⟩
    · exact .inl (hblocked.later rewritten.keeps noLinks rewritten.files)
    · have hdir := rewritten.keeps.locate hp
      rw [rewritten.keeps.directory p (node?_of_locate hp)] at hdir
      exact .inr ⟨p, hdir⟩
  kept p contents hp := by
    have hresolve := resolve_of_later rewritten.keeps hp
    have hcontents := rewritten.others p (apart p hresolve)
    rcases h.decided with (⟨fault, hfault, hne⟩ | ⟨q, before, hq⟩) | ⟨q, hq⟩
    · rw [locate_lasts rewritten.keeps noLinks (fun _ => rewritten.files) hne hfault] at hp
      cases hp
    · -- the same file, with the same contents
      obtain rfl : p = q := by
        rw [rewritten.keeps.locate hq, Except.ok.injEq, Found.mk.injEq] at hp
        exact hp.1.symm
      rw [contents?_eq_some_iff.mpr (node?_of_locate hp),
        contents?_eq_some_iff.mpr (node?_of_locate hq), Option.some.injEq] at hcontents
      rw [hcontents]
      exact h.kept p before hq
    · rw [rewritten.keeps.locate hq, rewritten.keeps.directory q (node?_of_locate hq),
        Except.ok.injEq, Found.mk.injEq] at hp
      cases hp.2

lemma settled_of_error {fault : Fault} (h : tree.locate true target = .error fault)
    (ne : fault ≠ .notFound) : Settled mode file target tree :=
  ⟨.inl (.inl ⟨fault, h, ne⟩), fun p contents hp => by rw [h] at hp; cases hp⟩

lemma settled_of_directory (h : tree.locate true target = .ok ⟨p, some .directory⟩) :
    Settled mode file target tree :=
  ⟨.inr ⟨p, h⟩, fun p contents hp => by rw [h] at hp; cases hp⟩

lemma settled_of_file (h : tree.locate true target = .ok ⟨p, some (.file contents)⟩)
    (kept : contents = file.contents ∨ (mode.force || file.overwrite) = false) :
    Settled mode file target tree := by
  refine ⟨.inl (.inr ⟨p, contents, h⟩), fun q other hq => ?_⟩
  rw [h, Except.ok.injEq, Found.mk.injEq, Option.some.injEq, Node.file.injEq] at hq
  exact hq.2 ▸ kept

/-- What stands at a target in a tree without links. -/
lemma existing_cases (noLinks : tree.NoLinks) (target : Path) :
    (∃ p contents, tree.locate true target = .ok ⟨p, some (.file contents)⟩ ∧
      existing target tree = .ok (some contents)) ∨
    (∃ fault, tree.locate true target = .error .nameTooLong ∧
      existing target tree = .error fault) ∨
    (∀ p contents, tree.locate true target ≠ .ok ⟨p, some (.file contents)⟩) ∧
      existing target tree = .ok none := by
  rw [existing, isFile, holds, FileTree.read, stat]
  cases hlocate : tree.locate true target with
  | error fault =>
    by_cases hlong : fault = .nameTooLong
    · subst hlong
      exact .inr (.inl ⟨_, rfl, rfl⟩)
    · refine .inr (.inr ⟨by simp, ?_⟩)
      cases fault <;> first | rfl | exact absurd rfl hlong
  | ok found =>
    obtain ⟨p, node⟩ := found
    cases node with
    | none => exact .inr (.inr ⟨by simp, rfl⟩)
    | some node =>
      cases node with
      | file contents => exact .inl ⟨p, contents, rfl, rfl⟩
      | directory => exact .inr (.inr ⟨by simp, rfl⟩)
      | link link => exact absurd (node?_of_locate hlocate) (noLinks p link)

section Step

variable (sound : tree.Sound) (noLinks : tree.NoLinks)

include sound noLinks

/-- Where directories have been made for a target it is not stopped by a missing name. -/
lemma settled_of_unwritten (target : Path) (mode : Mode) (file : GeneratedFile)
    (fails : ∀ grown after, tree.makeDirectories target.parent = (none, grown) →
      grown.write target file.contents ≠ .ok after) :
    Settled mode file target (tree.makeDirectories target.parent).2 := by
  have hmade := makeDirectories_made target.parent tree
  have hlinks := hmade.grown.keeps.noLinks noLinks
  rcases target.eq_concat_parent with hnil | ⟨name, hconcat⟩
  · exact settled_of_directory (locate_of_nil (hmade.sound sound) hnil)
  · cases hfault : (tree.makeDirectories target.parent).1 with
    | some fault =>
      obtain ⟨fault, hlocate, hne⟩ :=
        (makeDirectories_blocked sound noLinks (by simp [hfault])).child hlinks name
      rw [← hconcat] at hlocate
      exact settled_of_error hlocate hne
    | none =>
      obtain ⟨directory, hdirectory⟩ := makeDirectories_reached hfault
      have hthere := not_missing_in_directory hdirectory hlinks name
      rw [← hconcat] at hthere
      have hunwritten := fun after => fails _ after (Prod.ext hfault rfl)
      cases hlocate : (tree.makeDirectories target.parent).2.locate true target with
      | error fault =>
        exact settled_of_error hlocate fun hmissing => hthere (by rw [hlocate, hmissing])
      | ok found =>
        obtain ⟨p, node⟩ := found
        obtain rfl := node?_of_locate hlocate
        by_cases hdir : (tree.makeDirectories target.parent).2.node? p = some .directory
        · rw [hdir] at hlocate
          exact settled_of_directory hlocate
        · refine absurd (write_eq_ok_iff.mpr ⟨p, hlocate, ?_, rfl⟩) (hunwritten _)
          exact vacant_of_noLinks hlinks hdir

/-- A target is settled once its contents have been placed. -/
lemma settled_place (target : Path) (mode : Mode) (file : GeneratedFile) (previous : Option Bytes)
    (relative : String) :
    Settled mode file target (place target file.contents previous relative tree).2 := by
  obtain ⟨hstatus, -, hfails⟩ | ⟨grown, after, hdirs, hwrite, hplaced⟩ :=
    place_cases target file.contents previous relative tree
  · rw [place_of_error hstatus]
    exact settled_of_unwritten sound noLinks target mode file hfails
  · obtain ⟨p, hp, vacant, rfl⟩ := write_eq_ok_iff.mp hwrite
    rw [hplaced]
    exact settled_of_file (locate_set_file hp vacant _) (.inl rfl)

/-- A target is settled once it has been written to. -/
lemma settled_writeAt (live : mode.dryRun = false) (target : Path) (relative : String)
    (file : GeneratedFile) :
    Settled mode file target (writeAt target relative mode file tree).2 := by
  rw [writeAt]
  simp only [live, Bool.false_eq_true, if_false]
  obtain ⟨p, contents, hlocate, hexisting⟩ | ⟨fault, hlocate, hexisting⟩ | ⟨-, hexisting⟩ :=
    existing_cases noLinks target
  · simp only [hexisting]
    split_ifs with hsame hkeep
    · exact settled_of_file hlocate (.inl (Option.some.inj hsame))
    · exact settled_of_file hlocate (.inr (by simpa using hkeep))
    · exact settled_place sound noLinks target mode file _ relative
  · simp only [hexisting]
    exact settled_of_error hlocate (by simp)
  · simp only [hexisting, reduceCtorEq, if_false, Option.isSome_none, Bool.false_and,
      Bool.false_eq_true]
    exact settled_place sound noLinks target mode file _ relative

/-- Nothing is made on the way to a settled file. -/
lemma makeDirectories_of_settled (zero : target.holdsZero = false)
    (settled : Settled mode file target tree) : (tree.makeDirectories target.parent).2 = tree := by
  have hthere : tree.locate true target ≠ .error .notFound := by
    rcases settled.decided with (⟨fault, hlocate, hne⟩ | ⟨p, contents, hlocate⟩) | ⟨p, hlocate⟩
    · rw [hlocate]
      exact fun heq => hne (Except.error.inj heq)
    · rw [hlocate]
      simp
    · rw [hlocate]
      simp
  rcases target.eq_concat_parent with hnil | ⟨name, hconcat⟩
  · have hparent : target.parent.names = [] := by rw [Path.parent, hnil, List.dropLast_nil]
    rw [makeDirectories_of_present (locate_of_nil sound hparent)]
  · rw [hconcat] at hthere
    have hzero : name.toList.contains '\x00' = false := by
      rw [hconcat, Path.holdsZero] at zero
      simp at zero
      simp [zero]
    rcases blocked_or_directory_of_child noLinks hzero hthere with hblocked | ⟨p, hp⟩
    · exact makeDirectories_of_blocked hblocked noLinks
    · rw [makeDirectories_of_present hp]

/-- **Nothing is written** to a settled file. -/
lemma writeAt_of_settled (zero : target.holdsZero = false)
    (settled : mode.dryRun = false → Settled mode file target tree) (relative : String) :
    (writeAt target relative mode file tree).2 = tree ∧
      (writeAt target relative mode file tree).1.isJournaled = false := by
  rw [writeAt]
  cases hdry : mode.dryRun with
  | true =>
    simp only [if_true, true_and]
    rfl
  | false =>
    have settled := settled hdry
    simp only [Bool.false_eq_true, if_false]
    obtain ⟨p, contents, hlocate, hexisting⟩ | ⟨fault, -, hexisting⟩ | ⟨hnofile, hexisting⟩ :=
      existing_cases noLinks target
    · have hkept := settled.kept p contents hlocate
      simp only [hexisting]
      split_ifs with hsame hkeep
      · exact ⟨rfl, rfl⟩
      · exact ⟨rfl, rfl⟩
      · rcases hkept with rfl | hkept
        · exact absurd rfl hsame
        · exact absurd (by simp [hkept]) hkeep
    · simp only [hexisting, true_and]
      rfl
    · simp only [hexisting, reduceCtorEq, if_false, Option.isSome_none, Bool.false_and,
        Bool.false_eq_true]
      have hdirs := makeDirectories_of_settled sound noLinks zero settled
      obtain ⟨hstatus, -⟩ | ⟨grown, after, hmade, hwrite, -⟩ :=
        place_cases target file.contents none relative tree
      · exact ⟨(place_of_error hstatus).trans hdirs, by rw [OutputEntry.isJournaled, hstatus]; rfl⟩
      · -- the contents would be written at a vacant place, but the target leads to a directory
        rw [hmade] at hdirs
        obtain rfl : grown = tree := hdirs
        obtain ⟨p, hp, vacant, -⟩ := write_eq_ok_iff.mp hwrite
        exfalso
        rcases settled.decided with (⟨fault, hlocate, -⟩ | ⟨q, contents, hlocate⟩) | ⟨q, hlocate⟩
        · rw [hlocate] at hp
          cases hp
        · exact hnofile q contents hlocate
        · rw [hlocate, Except.ok.injEq, Found.mk.injEq] at hp
          exact vacant.not_directory hp.2.symm

end Step

/-! ### Files one after another -/

/-- A file is settled unless it is not to be written at all. -/
def SettledBelow (root : Path) (mode : Mode) (file : GeneratedFile) (tree : FileTree) : Prop :=
  mode.dryRun = false → isBelow root (targetOf root file) tree = .ok true →
    Settled mode file (targetOf root file) tree

/-- Files are settled up to the first that ends the writing. -/
def SettledAll (root : Path) (mode : Mode) : List GeneratedFile → FileTree → Prop
  | [], _ => True
  | file :: files, tree =>
    SettledBelow root mode file tree ∧
      ((∃ below, isBelow root (targetOf root file) tree = .ok below) →
        SettledAll root mode files tree)

/-- The paths of two files are not resolved to one place. -/
def Apart (root : Path) (tree : FileTree) (f g : GeneratedFile) : Prop :=
  ∀ p, tree.resolve (targetOf root f) = .ok p → tree.resolve (targetOf root g) ≠ .ok p

lemma holdsZero_of_isBelow {below : Bool} (h : isBelow root target tree = .ok below) :
    target.holdsZero = false := by
  rw [isBelow] at h
  obtain ⟨goal, hgoal, -⟩ := bind_eq_ok_iff.mp h
  rw [resolve] at hgoal
  split_ifs at hgoal with hzero
  simpa using hzero

/-- The writing of a file fails as its path is looked at. -/
lemma write_of_isBelow_error {fault : ResolveFault}
    (h : isBelow root (targetOf root file) tree = .error fault) :
    write root mode file tree = (.error fault, tree) := by
  have htarget : root.child (relativeText file.path) = targetOf root file := rfl
  unfold write
  simp only [htarget, h]

lemma exists_write_of_isBelow {below : Bool}
    (h : isBelow root (targetOf root file) tree = .ok below) :
    ∃ entry, (write root mode file tree).1 = .ok entry := by
  have htarget : root.child (relativeText file.path) = targetOf root file := rfl
  unfold write
  simp only [htarget, h]
  cases below <;> exact ⟨_, rfl⟩

/-- **One file** is settled once it has been written. -/
lemma settled_write (sound : tree.Sound) (noLinks : tree.NoLinks) (root : Path) (mode : Mode)
    (file : GeneratedFile) : SettledBelow root mode file (write root mode file tree).2 := by
  intro live below
  have hkeeps := (rewritten_write root mode file tree).keeps
  rw [isBelow_congr noLinks (hkeeps.noLinks noLinks) hkeeps.workplace] at below
  rw [write_of_below below]
  exact settled_writeAt sound noLinks live _ _ file

/-- **Nothing is written** when a file is settled. -/
lemma write_of_settled (sound : tree.Sound) (noLinks : tree.NoLinks)
    (settled : SettledBelow root mode file tree) {below : Bool}
    (h : isBelow root (targetOf root file) tree = .ok below) :
    ∃ entry, write root mode file tree = (.ok entry, tree) ∧ entry.isJournaled = false := by
  have htarget : root.child (relativeText file.path) = targetOf root file := rfl
  cases below with
  | false =>
    unfold write
    simp only [htarget, h]
    exact ⟨_, rfl, rfl⟩
  | true =>
    obtain ⟨hsame, hentry⟩ := writeAt_of_settled sound noLinks (holdsZero_of_isBelow h)
      (fun live => settled live h) (relativeText file.path)
    exact ⟨_, by rw [write_of_below h, htarget, hsame], hentry⟩

/-- **Several files** are settled once they have been written. -/
lemma settled_writeAll (sound : tree.Sound) (noLinks : tree.NoLinks) (root : Path) (mode : Mode)
    (files : List GeneratedFile) (distinct : files.Pairwise (Apart root tree)) :
    SettledAll root mode files (writeAll root mode files tree).2 := by
  induction files generalizing tree with
  | nil => trivial
  | cons file files ih =>
    rw [List.pairwise_cons] at distinct
    rw [writeAll_cons]
    cases hbelow : isBelow root (targetOf root file) tree with
    | error fault =>
      rw [write_of_isBelow_error hbelow]
      exact ⟨fun _ below => by simp [hbelow] at below, fun ⟨_, below⟩ => by simp [hbelow] at below⟩
    | ok below =>
      obtain ⟨entry, hentry⟩ := @exists_write_of_isBelow tree root mode file below hbelow
      have hfirst := settled_write sound noLinks root mode file
      have hkeeps := (rewritten_write root mode file tree).keeps
      have hsound := (write_confined root mode file sound).2.1
      cases hwrite : write root mode file tree with
      | mk outcome next =>
        rw [hwrite] at hentry hfirst hkeeps hsound
        obtain rfl : outcome = .ok entry := hentry
        have hlinks := hkeeps.noLinks noLinks
        have hresolve := resolve_congr noLinks hlinks hkeeps.workplace
        have hrewritten := rewritten_writeAll root mode files hlinks
        refine ⟨fun live below => ?_, fun _ => ih hsound hlinks (distinct.2.imp fun hapart p => ?_)⟩
        · rw [isBelow_congr hlinks (hrewritten.keeps.noLinks hlinks) hrewritten.keeps.workplace]
            at below
          refine (hfirst live below).later hrewritten hlinks fun p hp => ?_
          rintro ⟨other, hother, hp'⟩
          rw [hresolve] at hp hp'
          exact distinct.1 other hother p hp hp'
        · rw [hresolve, hresolve]
          exact hapart p

/-- Nothing is written when all files are settled. -/
lemma writeAll_of_settled (sound : tree.Sound) (noLinks : tree.NoLinks)
    (settled : SettledAll root mode files tree) :
    ∃ again, writeAll root mode files tree = (again, tree) ∧
      ∀ entries, again = .ok entries → ∀ entry ∈ entries, entry.isJournaled = false := by
  induction files with
  | nil => exact ⟨.ok [], rfl, fun entries h => by cases h; simp⟩
  | cons file files ih =>
    rw [writeAll_cons]
    cases hbelow : isBelow root (targetOf root file) tree with
    | error fault =>
      rw [write_of_isBelow_error hbelow]
      exact ⟨.error fault, rfl, fun entries h => by cases h⟩
    | ok below =>
      obtain ⟨entry, hwrite, hentry⟩ := write_of_settled sound noLinks settled.1 hbelow
      obtain ⟨again, hagain, hentries⟩ := ih (settled.2 ⟨below, hbelow⟩)
      rw [hwrite]
      refine ⟨again.map (entry :: ·), by simp only [hagain], fun entries h => ?_⟩
      obtain ⟨rest, hrest, rfl⟩ := map_eq_ok_iff.mp h
      exact List.forall_mem_cons.mpr ⟨hentry, hentries rest hrest⟩

/-- Whether the writing ends with a fault does not depend on what is there. -/
lemma writeAll_error_congr (noLinks : tree.NoLinks) (noLinks' : next.NoLinks)
    (workplace : next.workplace = tree.workplace) (root : Path) (mode : Mode)
    (files : List GeneratedFile) (fault : ResolveFault) :
    (writeAll root mode files next).1 = .error fault ↔
      (writeAll root mode files tree).1 = .error fault := by
  induction files generalizing tree next with
  | nil => exact Iff.rfl
  | cons file files ih =>
    have hbelow' := isBelow_congr noLinks noLinks' workplace root (targetOf root file)
    rw [writeAll_cons, writeAll_cons]
    cases hbelow : isBelow root (targetOf root file) tree with
    | error fault =>
      rw [write_of_isBelow_error hbelow, write_of_isBelow_error (hbelow'.trans hbelow)]
    | ok below =>
      obtain ⟨entry, hentry⟩ := @exists_write_of_isBelow tree root mode file below hbelow
      obtain ⟨entry', hentry'⟩ :=
        @exists_write_of_isBelow next root mode file below (hbelow'.trans hbelow)
      have hkeeps := (rewritten_write root mode file tree).keeps
      have hkeeps' := (rewritten_write root mode file next).keeps
      rw [← Prod.eta (write root mode file tree), ← Prod.eta (write root mode file next), hentry,
        hentry']
      simp only [map_eq_error_iff]
      exact ih (hkeeps.noLinks noLinks) (hkeeps'.noLinks noLinks')
        (by rw [hkeeps'.workplace, hkeeps.workplace, workplace])

/-- **Regenerating changes nothing.** Files that are written a second time, in whatever mode,
leave the tree as the first writing left it, times included: no file is written or replaced,
and no directory made. The second writing ends with a fault just when the first one did. -/
theorem writeAll_again (root : Path) (mode : Mode) (files : List GeneratedFile)
    (sound : tree.Sound) (noLinks : tree.NoLinks)
    (distinct : files.Pairwise fun f g => ∀ p, tree.resolve (targetOf root f) = .ok p →
      tree.resolve (targetOf root g) ≠ .ok p) :
    ∃ again, writeAll root mode files (writeAll root mode files tree).2 =
        (again, (writeAll root mode files tree).2) ∧
      (∀ fault, again = .error fault ↔ (writeAll root mode files tree).1 = .error fault) ∧
      ∀ entries, again = .ok entries → ∀ entry ∈ entries, entry.isJournaled = false := by
  have hkeeps := (rewritten_writeAll root mode files noLinks).keeps
  have hlinks := hkeeps.noLinks noLinks
  have hsound := (writeAll_waypoints root mode files sound).2.1
  obtain ⟨again, hagain, hentries⟩ :=
    writeAll_of_settled hsound hlinks (settled_writeAll sound noLinks root mode files distinct)
  refine ⟨again, hagain, fun fault => ?_, hentries⟩
  rw [← writeAll_error_congr noLinks hlinks hkeeps.workplace root mode files fault, hagain]

/-- An output directory with one file. -/
def oneKept : FileTree :=
  ⟨[], [(["out"], .directory), (["out", "kept.txt"], .file [1])], [], 0⟩

/-- Files that get into each other's way: a file in a directory and one at its place, a path
that comes back from a missing directory and one through the file it leads to, and a file that
may not be replaced. -/
def entangled : List GeneratedFile :=
  [⟨"a/b.txt", [65], false⟩, ⟨"a", [66], false⟩, ⟨"m/../x.txt", [67], false⟩,
    ⟨"x.txt/y", [68], false⟩, ⟨"kept.txt", [69], false⟩]

example : (writeAll (.ofText "/out") ⟨false, false⟩ entangled oneKept).1.toOption.map
    (·.map OutputEntry.status) = some [.written, .error, .written, .error, .skipped] := by
  decide +kernel

/-- Entangled files a second time. -/
theorem writeAll_again_entangled :
    oneKept.Sound ∧ oneKept.NoLinks ∧
    (entangled.Pairwise fun f g => ∀ p, oneKept.resolve (targetOf (.ofText "/out") f) = .ok p →
      oneKept.resolve (targetOf (.ofText "/out") g) ≠ .ok p) ∧
    ∃ again, writeAll (.ofText "/out") ⟨false, false⟩ entangled
        (writeAll (.ofText "/out") ⟨false, false⟩ entangled oneKept).2 =
          (again, (writeAll (.ofText "/out") ⟨false, false⟩ entangled oneKept).2) ∧
      (∀ fault, again = .error fault ↔
        (writeAll (.ofText "/out") ⟨false, false⟩ entangled oneKept).1 = .error fault) ∧
      ∀ entries, again = .ok entries → ∀ entry ∈ entries, entry.isJournaled = false := by
  have sound : oneKept.Sound := by decide +kernel
  have noLinks : oneKept.NoLinks := noLinks_of_nodes (by simp [oneKept])
  have nodup : (entangled.map fun f => oneKept.resolve (targetOf (.ofText "/out") f)).Nodup := by
    decide +kernel
  have distinct : entangled.Pairwise fun f g => ∀ p,
      oneKept.resolve (targetOf (.ofText "/out") f) = .ok p →
        oneKept.resolve (targetOf (.ofText "/out") g) ≠ .ok p :=
    (List.pairwise_map.mp nodup).imp fun hne p hf hg => hne (hf.trans hg.symm)
  exact ⟨sound, noLinks, distinct,
    writeAll_again (.ofText "/out") ⟨false, false⟩ entangled sound noLinks distinct⟩

end Scaffold.Writer
