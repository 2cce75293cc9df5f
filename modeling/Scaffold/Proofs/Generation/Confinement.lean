import Scaffold.Proofs.Files.Resolving
import Scaffold.Proofs.Generation.Batches

/-!
Generated files stay below the output root.

Before a file is written its path is resolved, and only a path that is resolved to a place
below the resolved root is written to. The contents then land at exactly this place: making
directories brings no links, so the path is still resolved to it. The directories made on
the way are another matter. A path may enter a missing directory outside the root, leave it
again by `..` and come back; it is resolved to a place below the root, and still the
directory is made.

* `IsWaypoint`: a new directory outside the root and how it comes about.
* `place_confined`, `write_confined`: one file.
* `writeAll_confined`: nothing outside the root changes but for waypoints; a waypoint that
  its path does not leave by `..` is a missing directory above the root.
* `writeAll_strays`: a path that does leaves a directory behind.
-/

namespace Scaffold.Writer

open Files FileTree

variable {tree next after : FileTree} {root target : Path} {mode : Mode} {file : GeneratedFile}
  {files : List GeneratedFile} {top goal p : Place} {contents : Bytes}

/-- The path at which a file is written. -/
def targetOf (root : Path) (file : GeneratedFile) : Path :=
  root.child (relativeText file.path)

lemma after?_isSome_iff {names more : List String} :
    (Path.after? names more).isSome = true ↔ names <+: more := by
  induction names generalizing more with
  | nil => simp [Path.after?]
  | cons name names ih =>
    cases more with
    | nil => simp [Path.after?]
    | cons other more =>
      rw [Path.after?, List.cons_prefix_cons]
      by_cases h : name = other
      · simp [h, ih]
      · simp [h]

lemma isBelow_eq_true_iff :
    isBelow root target tree = .ok true ↔
      ∃ goal top, tree.resolve target = .ok goal ∧ tree.resolve root = .ok top ∧ top <+: goal := by
  rw [isBelow]
  cases htarget : tree.resolve target with
  | error fault => simp [bind, Except.bind]
  | ok goal =>
    cases hroot : tree.resolve root with
    | error fault => simp [bind, Except.bind]
    | ok top => simp [bind, Except.bind, pure, Except.pure, after?_isSome_iff]

/-! ### Resolution in a changed tree -/

/-- A path that is located in a changed tree is resolved to this place in the tree before. -/
lemma resolve_of_later {found : Found} (keeps : Keeps tree after)
    (located : after.locate true target = .ok found) : tree.resolve target = .ok found.place := by
  obtain ⟨hzero, hleads⟩ := locate_eq_ok_iff.mp located
  have hafter : after.resolveFrom (after.nodes.length + 1) [] (tree.start target) target.names =
      .ok found.place := by
    rw [← keeps.start]
    exact hleads.resolveFrom_eq List.nodup_nil (by simp) (by simp) (by simp)
  rw [keeps.resolveFrom_eq (Nat.le_succ _) (Nat.le_succ _)] at hafter
  rw [resolve, hafter, if_neg (by simp [hzero])]

/-- A path that is located in a changed tree is at the place to which it was resolved. -/
lemma place_of_resolve {found : Found} (keeps : Keeps tree after)
    (resolved : tree.resolve target = .ok goal) (located : after.locate true target = .ok found) :
    found.place = goal :=
  Except.ok.inj ((resolve_of_later keeps located).symm.trans resolved)

/-- A path that can be resolved in a changed tree is resolved to the same place. -/
lemma resolve_unique (keeps : Keeps tree after) {other : Place}
    (resolved : tree.resolve target = .ok goal) (resolved' : after.resolve target = .ok other) :
    other = goal := by
  rw [resolve] at resolved resolved'
  split_ifs at resolved with hzero
  rw [if_neg hzero, keeps.start, keeps.resolveFrom_eq (Nat.le_succ _) (Nat.le_succ _)] at resolved'
  cases hfrom : tree.resolveFrom (tree.nodes.length + 1) [] (tree.start target) target.names with
  | ok found =>
    rw [hfrom] at resolved resolved'
    exact (Except.ok.inj resolved').symm.trans (Except.ok.inj resolved)
  | error left =>
    rw [hfrom] at resolved resolved'
    simp only at resolved resolved'
    split at resolved
    · cases resolved
    · split at resolved'
      · cases resolved'
      · exact (Except.ok.inj resolved').symm.trans (Except.ok.inj resolved)

/-- **A new directory on a path** lies above the place to which the path is resolved, unless
the path leaves it by `..`. -/
lemma prefix_of_new {count : Nat} (sound : tree.Sound) (keeps : Keeps tree after)
    (resolved : tree.resolve target = .ok goal) (new : tree.node? p = none)
    (located : after.locate true (target.upTo count) = .ok ⟨p, some .directory⟩)
    (plain : ".." ∉ target.names.drop count) : p <+: goal := by
  obtain ⟨-, hleads⟩ := locate_eq_ok_iff.mp located
  have hfirst : tree.resolveFrom (tree.nodes.length + 1) [] (tree.start target)
      (target.names.take count) = .ok p := by
    rw [← keeps.resolveFrom_eq (Nat.le_succ _) (Nat.le_succ _), ← keeps.start]
    exact hleads.resolveFrom_eq List.nodup_nil (by simp) (by simp) (by simp)
  -- nothing is below the place, so the other names lead down
  have hclear : ∀ q, p <+: q → ∀ link, tree.node? q ≠ some (.link link) := by
    rintro q ⟨rest, rfl⟩ link
    by_cases hrest : rest = []
    · simp [hrest, new]
    · rw [sound.below (by simp [new]) hrest]
      simp
  rw [resolveFrom_eq_resolveBy] at hfirst
  obtain ⟨other, hother, hbelow⟩ : ∃ other, tree.resolveBy (tree.inside (tree.nodes.length + 1) [])
      p (target.names.drop count) = .ok other ∧ p <+: other := resolveBy_prefix plain hclear
  have hall : tree.resolveFrom (tree.nodes.length + 1) [] (tree.start target) target.names =
      .ok other := by
    rw [resolveFrom_eq_resolveBy, ← List.take_append_drop count target.names, resolveBy_append,
      hfirst]
    exact hother
  rw [resolve, hall] at resolved
  split_ifs at resolved with hzero
  rwa [← Except.ok.inj resolved]

/-! ### One file -/

/-- A directory that has been made at an empty place on the way of a path into a directory
at `top`. It lies above this directory, unless the path leaves it again by `..`. -/
structure IsWaypoint (tree after : FileTree) (top : Place) (target : Path) (p : Place) : Prop where
  /-- Nothing was there. -/
  new : tree.node? p = none
  /-- A directory is there. -/
  made : after.node? p = some .directory
  /-- The directory is on the way. -/
  passed : ∃ count, after.locate true (target.upTo count) = .ok ⟨p, some .directory⟩ ∧
    (".." ∉ target.names.drop count → p <+: top)

/-- Contents that are placed at a path below a directory leave everything outside as it is,
but for the directories made on the way. -/
lemma place_confined (sound : tree.Sound) (resolved : tree.resolve target = .ok goal)
    (below : top <+: goal) (contents : Bytes) (previous : Option Bytes) (relative : String) :
    Keeps tree (place target contents previous relative tree).2 ∧
      (place target contents previous relative tree).2.Sound ∧
      ∀ p, ¬ top <+: p →
        (place target contents previous relative tree).2.node? p = tree.node? p ∨
          IsWaypoint tree (place target contents previous relative tree).2 top target p := by
  have hmade := makeDirectories_made target.parent tree
  -- the directories, in any tree that keeps them
  have hways : ∀ after, Keeps (tree.makeDirectories target.parent).2 after →
      (∀ p, ¬ top <+: p → after.node? p = (tree.makeDirectories target.parent).2.node? p) →
      ∀ p, ¬ top <+: p → after.node? p = tree.node? p ∨ IsWaypoint tree after top target p := by
    intro after hkeeps hsame p hp
    rcases hmade.grown.node p with hold | ⟨hnone, hdir⟩
    · exact .inl ((hsame p hp).trans hold)
    · obtain ⟨count, hcount, hlocate⟩ := hmade.new p hnone hdir
      rw [Path.upTo_parent hcount] at hlocate
      have hlocate' := hkeeps.locate hlocate
      rw [hkeeps.directory _ hdir] at hlocate'
      refine .inr ⟨hnone, hkeeps.directory _ hdir, count, hlocate', fun plain => ?_⟩
      have hprefix := prefix_of_new sound hmade.grown.keeps resolved hnone hlocate plain
      rcases List.prefix_or_prefix_of_prefix hprefix below with habove | hinside
      · exact habove
      · exact absurd hinside hp
  obtain ⟨hstatus, -⟩ | ⟨grown, after, hdirs, hwrite, hplaced⟩ :=
    place_cases target contents previous relative tree
  · rw [place_of_error hstatus]
    exact ⟨hmade.grown.keeps, hmade.sound sound, hways _ (.refl _) fun _ _ => rfl⟩
  · rw [hplaced]
    rw [hdirs] at hmade hways
    obtain ⟨q, hq, vacant, rfl⟩ := write_eq_ok_iff.mp hwrite
    obtain rfl : q = goal := place_of_resolve hmade.grown.keeps resolved hq
    have hset := Keeps.set_file vacant contents
    refine ⟨hmade.grown.keeps.trans hset, sound_of_write (hmade.sound sound) hwrite,
      hways _ hset fun p hp => ?_⟩
    have hne : p ≠ q := by
      rintro rfl
      exact hp below
    exact node?_set_of_ne hne _ _

/-- A file is not written, or its contents are placed at a path below the root. -/
lemma write_cases (root : Path) (mode : Mode) (file : GeneratedFile) (tree : FileTree) :
    (write root mode file tree).2 = tree ∨
      ∃ goal top previous, tree.resolve (targetOf root file) = .ok goal ∧
        tree.resolve root = .ok top ∧ top <+: goal ∧
        (write root mode file tree).2 = (place (targetOf root file) file.contents previous
          (relativeText file.path) tree).2 := by
  have htarget : root.child (relativeText file.path) = targetOf root file := rfl
  unfold write
  simp only [htarget]
  cases hbelow : isBelow root (targetOf root file) tree with
  | error fault => exact .inl rfl
  | ok below =>
    cases below with
    | false => exact .inl rfl
    | true =>
      obtain ⟨goal, top, hgoal, htop, hprefix⟩ := isBelow_eq_true_iff.mp hbelow
      simp only [writeAt]
      split_ifs with hdry
      · exact .inl rfl
      · cases existing (targetOf root file) tree with
        | error fault => exact .inl rfl
        | ok previous =>
          simp only
          split_ifs with hsame hkeep
          · exact .inl rfl
          · exact .inl rfl
          · exact .inr ⟨goal, top, previous, hgoal, htop, hprefix, rfl⟩

/-- **One file** leaves everything outside the root as it is, but for the directories made on
its way. -/
lemma write_confined (root : Path) (mode : Mode) (file : GeneratedFile) (sound : tree.Sound) :
    Keeps tree (write root mode file tree).2 ∧ (write root mode file tree).2.Sound ∧
      ∀ top, tree.resolve root = .ok top → ∀ p, ¬ top <+: p →
        (write root mode file tree).2.node? p = tree.node? p ∨
          IsWaypoint tree (write root mode file tree).2 top (targetOf root file) p := by
  obtain hsame | ⟨goal, top, previous, hgoal, htop, hprefix, hplace⟩ :=
    write_cases root mode file tree
  · rw [hsame]
    exact ⟨.refl tree, sound, fun _ _ _ _ => .inl rfl⟩
  · rw [hplace]
    obtain ⟨hkeeps, hsound, hconfined⟩ :=
      place_confined sound hgoal hprefix file.contents previous (relativeText file.path)
    refine ⟨hkeeps, hsound, fun other hother => ?_⟩
    obtain rfl := Except.ok.inj (htop.symm.trans hother)
    exact hconfined

/-- Nothing is written below a root that cannot be resolved. -/
lemma write_of_error {fault : ResolveFault} (h : tree.resolve root = .error fault) :
    ∃ fault, write root mode file tree = (.error fault, tree) := by
  have hbelow : ∃ fault, isBelow root (targetOf root file) tree = .error fault := by
    rw [isBelow]
    cases tree.resolve (targetOf root file) with
    | error fault => exact ⟨fault, rfl⟩
    | ok goal => exact ⟨fault, by rw [h]; rfl⟩
  obtain ⟨fault, hfault⟩ := hbelow
  have htarget : root.child (relativeText file.path) = targetOf root file := rfl
  refine ⟨fault, ?_⟩
  unfold write
  simp only [htarget, hfault]

/-! ### Several files -/

/-- A directory on the way is on the way in every later tree. -/
lemma IsWaypoint.later (h : IsWaypoint tree next top target p) (keeps : Keeps next after) :
    IsWaypoint tree after top target p := by
  obtain ⟨count, hlocate, hprefix⟩ := h.passed
  have hdir := keeps.directory _ h.made
  have hlocate' := keeps.locate hlocate
  rw [hdir] at hlocate'
  exact ⟨h.new, hdir, count, hlocate', hprefix⟩

/-- Several files, one after another. -/
lemma writeAll_waypoints (root : Path) (mode : Mode) (files : List GeneratedFile)
    (sound : tree.Sound) :
    Keeps tree (writeAll root mode files tree).2 ∧ (writeAll root mode files tree).2.Sound ∧
      ∀ top, tree.resolve root = .ok top → ∀ p, ¬ top <+: p →
        (writeAll root mode files tree).2.node? p = tree.node? p ∨
          ∃ file ∈ files, IsWaypoint tree (writeAll root mode files tree).2 top
            (targetOf root file) p := by
  induction files generalizing tree with
  | nil => exact ⟨.refl tree, sound, fun _ _ _ _ => .inl rfl⟩
  | cons file files ih =>
    obtain ⟨hkeeps, hsound, hfirst⟩ := write_confined root mode file sound
    rw [writeAll_cons]
    cases hwrite : write root mode file tree with
    | mk outcome next =>
      rw [hwrite] at hkeeps hsound hfirst
      cases outcome with
      | error fault =>
        exact ⟨hkeeps, hsound, fun top htop p hp =>
          (hfirst top htop p hp).imp id fun h => ⟨file, by simp, h⟩⟩
      | ok entry =>
        obtain ⟨hkeeps', hsound', hrest⟩ := ih hsound
        refine ⟨hkeeps.trans hkeeps', hsound', fun top htop p hp => ?_⟩
        simp only at hkeeps hfirst ⊢
        have hlater : (writeAll root mode files next).2.node? p = next.node? p ∨
            ∃ other ∈ files, IsWaypoint next (writeAll root mode files next).2 top
              (targetOf root other) p := by
          cases hroot : next.resolve root with
          | ok other =>
            obtain rfl := resolve_unique hkeeps htop hroot
            exact hrest other hroot p hp
          | error fault =>
            -- the root cannot be resolved any more, and nothing is written
            refine .inl ?_
            cases files with
            | nil => rfl
            | cons other files =>
              obtain ⟨fault, hfault⟩ := @write_of_error next root mode other fault hroot
              rw [writeAll_cons, hfault]
        rcases hfirst top htop p hp with hsame | hway
        · rcases hlater with hsame' | ⟨other, hother, hway⟩
          · exact .inl (hsame'.trans hsame)
          · exact .inr ⟨other, by simp [hother], hsame ▸ hway.new, hway.made, hway.passed⟩
        · exact .inr ⟨file, by simp, hway.later hkeeps'⟩

/-- **Generated output is confined**, but for directories. When the root cannot be resolved
nothing changes. Otherwise every place outside the resolved root is as it was, unless it was
empty and is now a directory on the way of one of the files: one of the missing directories
above the root, or one that the path of the file leaves again by `..`. If no path holds `..`,
there are no others than the missing directories above the root. -/
theorem writeAll_confined (root : Path) (mode : Mode) (files : List GeneratedFile)
    (sound : tree.Sound) :
    (∀ fault, tree.resolve root = .error fault → (writeAll root mode files tree).2 = tree) ∧
    ∀ top, tree.resolve root = .ok top → ∀ p, ¬ top <+: p →
      ((writeAll root mode files tree).2.node? p = tree.node? p ∨
        ∃ file ∈ files, IsWaypoint tree (writeAll root mode files tree).2 top
          (targetOf root file) p) ∧
      ((∀ file ∈ files, ".." ∉ (targetOf root file).names) →
        (writeAll root mode files tree).2.node? p = tree.node? p ∨
          tree.node? p = none ∧ (writeAll root mode files tree).2.node? p = some .directory ∧
            p <+: top) := by
  refine ⟨fun fault hroot => ?_, fun top htop p hp => ?_⟩
  · cases files with
    | nil => rfl
    | cons file files =>
      obtain ⟨fault, hfault⟩ := @write_of_error tree root mode file fault hroot
      rw [writeAll_cons, hfault]
  · have hways := (writeAll_waypoints root mode files sound).2.2 top htop p hp
    refine ⟨hways, fun plain => hways.imp id ?_⟩
    rintro ⟨file, hfile, hway⟩
    obtain ⟨count, -, hprefix⟩ := hway.passed
    exact ⟨hway.new, hway.made, hprefix fun hup => plain file hfile (List.mem_of_mem_drop hup)⟩

/-- A file below an output root that is missing, in a directory that is missing too. -/
theorem writeAll_confined_missingRoot :
    (empty []).Sound ∧ (empty []).resolve (.ofText "/a/out") = .ok ["a", "out"] ∧
    ∃ after, (writeAll (.ofText "/a/out") ⟨false, false⟩ [⟨"x.txt", [88], false⟩] (empty [])).2 =
        after ∧
      after.contents? ["a", "out", "x.txt"] = some [88] ∧
      ∀ p, ¬ ["a", "out"] <+: p → after.node? p = (empty []).node? p ∨
        (empty []).node? p = none ∧ after.node? p = some .directory ∧ p <+: ["a", "out"] := by
  have sound : (empty []).Sound := by decide +kernel
  have resolved : (empty []).resolve (.ofText "/a/out") = .ok ["a", "out"] := by decide +kernel
  refine ⟨sound, resolved, _, rfl, by decide +kernel, fun p hp => ?_⟩
  exact ((writeAll_confined (.ofText "/a/out") ⟨false, false⟩ [⟨"x.txt", [88], false⟩] sound).2 _
    resolved p hp).2 (by decide +kernel)

/-- A path that leaves a missing directory outside the root again leaves the directory
behind. -/
theorem writeAll_strays :
    ∃ after, (writeAll (.ofText "/out") ⟨false, false⟩ [⟨"../evil/../out/x.txt", [88], false⟩]
        (empty [])).2 = after ∧
      (empty []).resolve (.ofText "/out") = .ok ["out"] ∧ (empty []).node? ["evil"] = none ∧
      after.node? ["evil"] = some .directory ∧ ¬ ["out"] <+: ["evil"] ∧ ¬ ["evil"] <+: ["out"] :=
  ⟨_, rfl, by decide +kernel, by decide +kernel, by decide +kernel, by decide, by decide⟩

end Scaffold.Writer
