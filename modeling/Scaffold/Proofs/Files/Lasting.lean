import Scaffold.Proofs.Files.Faults
import Scaffold.Proofs.Files.Linkless

/-!
What stops a path, and how long.

Without links a walk ends early at a name that is missing, at a file, or at a name that is
too long. A missing name may be made. The others last: a path that is stopped by them is
stopped in every later tree that still has the directories and files, and nothing is made
for it.

* `walkBy_lasts`: a walk that is not stopped by a missing name is stopped in later trees.
* `isFile_of_missing`, `isFile_of_tooLong`: a name behind a missing directory, and one that is
  too long.
* `Blocked`: a path that is stopped so, or leads to a file.
* `Blocked.child`, `blocked_or_directory_of_child`, `not_missing_in_directory`: a path and
  the path of its directory.
* `makeDirectories_of_blocked`: nothing is made for a blocked path.
* `makeDirectories_blocked`: where directories cannot be made the path is blocked.
-/

namespace Scaffold.Files

/-- The beginning of a path has one name more than the one before it, if there is one. -/
lemma Path.upTo_succ (path : Path) (count : Nat) :
    path.upTo (count + 1) = path.upTo count ∨
      ∃ name, path.upTo (count + 1) =
        ⟨(path.upTo count).anchor, (path.upTo count).names ++ [name]⟩ := by
  by_cases hlen : count < path.names.length
  · refine .inr ⟨path.names[count], ?_⟩
    rw [upTo, upTo, List.take_add_one, List.getElem?_eq_getElem hlen]
    rfl
  · rw [upTo, upTo, List.take_of_length_le (by omega), List.take_of_length_le (by omega)]
    exact .inl rfl

/-- A path with names is a name in the directory above it. -/
lemma Path.eq_concat_parent (path : Path) :
    path.names = [] ∨ ∃ name, path = ⟨path.parent.anchor, path.parent.names ++ [name]⟩ := by
  rcases List.eq_nil_or_concat path.names with hnil | ⟨front, name, hconcat⟩
  · exact .inl hnil
  · refine .inr ⟨name, ?_⟩
    rw [parent, hconcat, List.concat_eq_append, List.dropLast_concat, ← List.concat_eq_append,
      ← hconcat]

namespace FileTree

variable {tree tree' : FileTree} {follow follow' : Bool} {links : Nat} {place : Place}
  {names more : List String} {path : Path} {name : String} {fault : Fault}
  {jump jump' : Place → List String → Except Fault Found}

/-- Whatever is a file stays a file. -/
def KeepsFiles (tree tree' : FileTree) : Prop :=
  ∀ p contents, tree.node? p = some (.file contents) →
    ∃ later, tree'.node? p = some (.file later)

lemma KeepsFiles.refl (tree : FileTree) : KeepsFiles tree tree :=
  fun _ contents h => ⟨contents, h⟩

lemma KeepsFiles.trans {tree'' : FileTree} (h : KeepsFiles tree tree')
    (h' : KeepsFiles tree' tree'') : KeepsFiles tree tree'' := by
  intro p contents hfile
  obtain ⟨later, hlater⟩ := h p contents hfile
  exact h' p later hlater

lemma Grown.keepsFiles (h : Grown tree tree') : KeepsFiles tree tree' :=
  fun _ contents hfile => ⟨contents, h.of_some hfile⟩

lemma keepsFiles_set {p : Place} (ne : p ≠ []) (contents : Bytes) (tree : FileTree) :
    KeepsFiles tree (tree.set p (.file contents)) := by
  intro q before hfile
  rw [node?_set ne]
  split
  · exact ⟨contents, rfl⟩
  · exact ⟨before, hfile⟩

/-! ### Walks without links -/

/-- Without links it makes no difference whether the last one is followed. -/
lemma locate_follow_of_noLinks (noLinks : tree.NoLinks) (follow : Bool) (path : Path) :
    tree.locate follow path = tree.locate true path := by
  obtain ⟨jump, hwalk, -⟩ := @walk_eq_walkBy tree follow linkLimit
  obtain ⟨jump', hwalk', -⟩ := @walk_eq_walkBy tree true linkLimit
  rw [locate, locate, hwalk, hwalk']
  rw [walkBy_congr (fun _ _ => rfl) noLinks List.nil_prefix fun _ => rfl]

/-- Without links a walk can be cut behind some of its names. -/
lemma walkBy_append (noLinks : tree.NoLinks) (ne : more ≠ []) :
    tree.walkBy follow jump place (names ++ more) =
      (tree.walkBy follow jump place names).bind fun found =>
        tree.walkBy follow jump found.place more := by
  induction names generalizing place with
  | nil => rfl
  | cons name names ih =>
    rw [List.cons_append, walkBy, walkBy]
    cases hnode : tree.node? place with
    | none => rfl
    | some node =>
      cases node with
      | file contents => rfl
      | link target => rfl
      | directory =>
        by_cases hdot : name = "."
        · simpa only [if_pos hdot] using ih
        by_cases hup : name = ".."
        · simpa only [if_neg hdot, if_pos hup] using ih
        by_cases hlong : tooLong name = true
        · simp only [if_neg hdot, if_neg hup, if_pos hlong]
          rfl
        have hmore : (names ++ more).isEmpty = false := by simp [ne]
        simp only [if_neg hdot, if_neg hup, if_neg hlong, hmore, Bool.false_eq_true, if_false]
        cases hnext : tree.node? (place ++ [name]) with
        | none =>
          -- the names behind would have to start from nothing
          cases names with
          | nil =>
            cases more with
            | nil => exact absurd rfl ne
            | cons other more =>
              have hnowhere : tree.walkBy follow jump (place ++ [name]) (other :: more) =
                  .error .notFound := by
                rw [walkBy, hnext]
              exact hnowhere.symm
          | cons other names => rfl
        | some node =>
          cases node with
          | link target => exact absurd hnext (noLinks _ target)
          | file contents => cases names with
            | nil => rfl
            | cons other names => exact ih
          | directory => cases names with
            | nil => rfl
            | cons other names => exact ih

/-- A walk that is stopped by no missing name is stopped in every tree that keeps what is
there. -/
lemma walkBy_lasts (keeps : Keeps tree tree') (noLinks : tree.NoLinks)
    (files : fault = .notDirectory → KeepsFiles tree tree') (ne : fault ≠ .notFound)
    (h : tree.walkBy follow jump place names = .error fault) :
    tree'.walkBy follow' jump' place names = .error fault := by
  induction names generalizing place with
  | nil => cases h
  | cons name names ih =>
    rw [walkBy] at h ⊢
    cases hnode : tree.node? place with
    | none =>
      rw [hnode] at h
      exact absurd (Except.error.inj h).symm ne
    | some node =>
      rw [hnode] at h
      cases node with
      | link target => exact absurd hnode (noLinks place target)
      | file contents =>
        obtain ⟨later, hlater⟩ := files (Except.error.inj h).symm place contents hnode
        rw [hlater]
        exact h
      | directory =>
        rw [keeps.directory place hnode]
        by_cases hdot : name = "."
        · simp only [if_pos hdot] at h ⊢
          exact ih h
        by_cases hup : name = ".."
        · simp only [if_neg hdot, if_pos hup] at h ⊢
          exact ih h
        by_cases hlong : tooLong name = true
        · simp only [if_neg hdot, if_neg hup, if_pos hlong] at h ⊢
          exact h
        simp only [if_neg hdot, if_neg hup, if_neg hlong] at h ⊢
        cases hnext : tree.node? (place ++ [name]) with
        | none =>
          rw [hnext] at h
          simp only at h
          split at h
          · cases h
          · exact absurd (Except.error.inj h).symm ne
        | some next =>
          have hrest : names ≠ [] ∧
              tree.walkBy follow jump (place ++ [name]) names = .error fault := by
            have hlink := noLinks (place ++ [name])
            rw [hnext] at h hlink
            cases names <;> cases next <;> simp_all
          have hlater := ih hrest.2
          cases names with
          | nil => exact absurd rfl hrest.1
          | cons other names =>
            cases hnext' : tree'.node? (place ++ [name]) with
            | none =>
              -- a walk from nothing would be stopped by a missing name
              rw [walkBy, hnext'] at hlater
              exact absurd (Except.error.inj hlater).symm ne
            | some next' =>
              cases next' with
              | link target => exact absurd ((keeps.link _ _).mp hnext') (noLinks _ target)
              | file contents => exact hlater
              | directory => exact hlater

/-- A path that is stopped by no missing name is stopped in every tree that keeps what is
there. -/
lemma locate_lasts (keeps : Keeps tree tree') (noLinks : tree.NoLinks)
    (files : fault = .notDirectory → KeepsFiles tree tree') (ne : fault ≠ .notFound)
    (h : tree.locate follow path = .error fault) : tree'.locate follow path = .error fault := by
  obtain ⟨jump, hwalk, -⟩ := @walk_eq_walkBy tree follow linkLimit
  obtain ⟨jump', hwalk', -⟩ := @walk_eq_walkBy tree' follow linkLimit
  rw [locate] at h ⊢
  split_ifs at h ⊢ with hzero
  · exact h
  · rw [hwalk] at h
    rw [hwalk', keeps.start]
    exact walkBy_lasts keeps noLinks files ne h

/-- Without links the way to a path goes through its directory. -/
lemma locate_concat (noLinks : tree.NoLinks) (zero : name.toList.contains '\x00' = false) :
    ∃ jump, tree.locate true ⟨path.anchor, path.names ++ [name]⟩ =
      (tree.locate true path).bind fun found => tree.walkBy true jump found.place [name] := by
  obtain ⟨jump, hwalk, -⟩ := @walk_eq_walkBy tree true linkLimit
  refine ⟨jump, ?_⟩
  have hstart : tree.start ⟨path.anchor, path.names ++ [name]⟩ = tree.start path := rfl
  have hzero : Path.holdsZero ⟨path.anchor, path.names ++ [name]⟩ = path.holdsZero := by
    simp only [Path.holdsZero, List.any_append, List.any_cons, List.any_nil, zero, Bool.or_false]
  rw [locate, locate, hzero, hstart, hwalk, walkBy_append noLinks (by simp)]
  split <;> rfl

/-- No file is found in a directory that is missing. -/
lemma isFile_of_missing {p : Place} (h : tree.locate true path = .ok ⟨p, none⟩)
    (noLinks : tree.NoLinks) (zero : name.toList.contains '\x00' = false) :
    tree.isFile ⟨path.anchor, path.names ++ [name]⟩ = .ok false := by
  obtain ⟨jump, hconcat⟩ := @locate_concat tree path name noLinks zero
  have hlocate : tree.locate true ⟨path.anchor, path.names ++ [name]⟩ = .error .notFound := by
    rw [hconcat, h, Except.bind, walkBy, node?_of_locate h]
  rw [FileTree.isFile, holds, stat, hlocate]
  rfl

/-- A directory does not look for a name that is too long. -/
lemma isFile_of_tooLong {p : Place} (h : tree.locate true path = .ok ⟨p, some .directory⟩)
    (noLinks : tree.NoLinks) (zero : name.toList.contains '\x00' = false)
    (long : tooLong name = true) :
    tree.isFile ⟨path.anchor, path.names ++ [name]⟩ = .error .nameTooLong := by
  have hdots : name ≠ "." ∧ name ≠ ".." := by
    constructor <;> rintro rfl <;> exact absurd long (by decide)
  obtain ⟨jump, hconcat⟩ := @locate_concat tree path name noLinks zero
  have hlocate : tree.locate true ⟨path.anchor, path.names ++ [name]⟩ = .error .nameTooLong := by
    rw [hconcat, h, Except.bind, walkBy, node?_of_locate h]
    simp only [if_neg hdots.1, if_neg hdots.2, if_pos long]
  rw [FileTree.isFile, holds, stat, hlocate]
  rfl

/-- A path without names leads to the directory at which it starts. -/
lemma locate_of_nil (sound : tree.Sound) (nil : path.names = []) :
    tree.locate true path = .ok ⟨tree.start path, some .directory⟩ := by
  refine locate_eq_ok_iff.mpr ⟨by simp [Path.holdsZero, nil], ?_⟩
  rw [nil, ← sound.start path]
  exact .here

/-! ### Blocked paths -/

/-- A path that is stopped by something that is there, or leads to a file. -/
def Blocked (tree : FileTree) (path : Path) : Prop :=
  (∃ fault, tree.locate true path = .error fault ∧ fault ≠ .notFound) ∨
    ∃ p contents, tree.locate true path = .ok ⟨p, some (.file contents)⟩

/-- A path stays blocked. -/
lemma Blocked.later (h : tree.Blocked path) (keeps : Keeps tree tree') (noLinks : tree.NoLinks)
    (files : KeepsFiles tree tree') : tree'.Blocked path := by
  obtain ⟨fault, hfault, hne⟩ | ⟨p, contents, hp⟩ := h
  · exact .inl ⟨fault, locate_lasts keeps noLinks (fun _ => files) hne hfault, hne⟩
  · obtain ⟨later, hlater⟩ := files p contents (node?_of_locate hp)
    have := keeps.locate hp
    rw [hlater] at this
    exact .inr ⟨p, later, this⟩

lemma holdsZero_concat (zero : name.toList.contains '\x00' = true) :
    Path.holdsZero ⟨path.anchor, path.names ++ [name]⟩ = true := by
  simp only [Path.holdsZero, List.any_append, List.any_cons, zero, Bool.true_or, Bool.or_true]

/-- Nothing is found behind a blocked path, and not because a name is missing. -/
lemma Blocked.child (h : tree.Blocked path) (noLinks : tree.NoLinks) (name : String) :
    ∃ fault, tree.locate true ⟨path.anchor, path.names ++ [name]⟩ = .error fault ∧
      fault ≠ .notFound := by
  by_cases hzero : name.toList.contains '\x00' = true
  · exact ⟨.zeroCharacter, locate_eq_zero_iff.mpr (holdsZero_concat hzero), by simp⟩
  obtain ⟨jump, hconcat⟩ := @locate_concat tree path name noLinks (by simpa using hzero)
  rw [hconcat]
  obtain ⟨fault, hfault, hne⟩ | ⟨p, contents, hp⟩ := h
  · exact ⟨fault, by rw [hfault]; rfl, hne⟩
  · refine ⟨.notDirectory, ?_, by simp⟩
    rw [hp, Except.bind, walkBy, node?_of_locate hp]

/-- Where a path is not stopped by a missing name, the path of its directory is blocked or
leads to a directory. -/
lemma blocked_or_directory_of_child (noLinks : tree.NoLinks)
    (zero : name.toList.contains '\x00' = false)
    (h : tree.locate true ⟨path.anchor, path.names ++ [name]⟩ ≠ .error .notFound) :
    tree.Blocked path ∨ ∃ p, tree.locate true path = .ok ⟨p, some .directory⟩ := by
  obtain ⟨jump, hconcat⟩ := @locate_concat tree path name noLinks zero
  rw [hconcat] at h
  cases hlocate : tree.locate true path with
  | error fault =>
    refine .inl (.inl ⟨fault, hlocate, fun hmissing => h ?_⟩)
    rw [hlocate, hmissing]
    rfl
  | ok found =>
    obtain ⟨p, node⟩ := found
    have hnode := node?_of_locate hlocate
    cases node with
    | none =>
      refine absurd ?_ h
      rw [hlocate, Except.bind, walkBy, hnode]
    | some node =>
      cases node with
      | file contents => exact .inl (.inr ⟨p, contents, hlocate⟩)
      | directory => exact .inr ⟨p, rfl⟩
      | link target => exact absurd hnode (noLinks p target)

/-- A name in a directory is not missing on the way. -/
lemma not_missing_in_directory {p : Place} (h : tree.locate true path = .ok ⟨p, some .directory⟩)
    (noLinks : tree.NoLinks) (name : String) :
    tree.locate true ⟨path.anchor, path.names ++ [name]⟩ ≠ .error .notFound := by
  by_cases hzero : name.toList.contains '\x00' = true
  · rw [locate_eq_zero_iff.mpr (holdsZero_concat hzero)]
    simp
  obtain ⟨jump, hconcat⟩ := @locate_concat tree path name noLinks (by simpa using hzero)
  have hdir := node?_of_locate h
  rw [hconcat, h, Except.bind, walkBy, hdir]
  by_cases hdot : name = "."
  · simp [hdot, walkBy]
  by_cases hup : name = ".."
  · simp [hup, walkBy]
  by_cases hlong : tooLong name = true
  · simp [hdot, hup, hlong]
  simp only [if_neg hdot, if_neg hup, if_neg hlong]
  cases hnext : tree.node? (p ++ [name]) with
  | none => simp
  | some node =>
    cases node with
    | link target => exact absurd hnext (noLinks _ target)
    | file contents => simp
    | directory => simp

/-! ### Making directories -/

lemma orPresent_of_error {result : Except Fault FileTree} (h : result = .error fault) :
    (orPresent path tree result).2 = tree := by
  obtain ⟨changed, hok, -⟩ | ⟨_, -, -, -, hout⟩ | ⟨_, _, -, hout⟩ :=
    orPresent_cases path tree result
  · rw [h] at hok
    cases hok
  · rw [hout]
  · rw [hout]

lemma makeDirectory_eq_missing_iff (noLinks : tree.NoLinks) :
    tree.makeDirectory path = .error .notFound ↔ tree.locate true path = .error .notFound := by
  rw [FileTree.makeDirectory, locate_follow_of_noLinks noLinks]
  cases tree.locate true path with
  | error fault => simp [bind, Except.bind]
  | ok found =>
    obtain ⟨p, node⟩ := found
    cases node <;> simp [bind, Except.bind]

/-- At a blocked path no directory is made, and not because a name is missing. -/
lemma Blocked.makeDirectory (h : tree.Blocked path) (noLinks : tree.NoLinks) :
    ∃ fault, tree.makeDirectory path = .error fault ∧ fault ≠ .notFound := by
  rw [FileTree.makeDirectory, locate_follow_of_noLinks noLinks]
  obtain ⟨fault, hfault, hne⟩ | ⟨p, contents, hp⟩ := h
  · exact ⟨fault, by rw [hfault]; rfl, hne⟩
  · exact ⟨.alreadyExists, by rw [hp]; rfl, by simp⟩

/-- **Nothing is made** for a blocked path. -/
lemma makeDirectories_of_blocked (h : tree.Blocked path) (noLinks : tree.NoLinks) :
    (tree.makeDirectories path).2 = tree := by
  obtain ⟨fault, hmake, hne⟩ := h.makeDirectory noLinks
  rw [makeDirectories]
  cases hcount : path.names.length with
  | zero =>
    have hpath : path = ⟨path.anchor, []⟩ := by
      rw [← List.length_eq_zero_iff.mp hcount]
    rw [makeDirectoriesUpTo, ← hpath]
    exact orPresent_of_error hmake
  | succ count =>
    have hpath : path.upTo (count + 1) = path := by rw [← hcount, upTo_length]
    rw [makeDirectoriesUpTo_of_ne (by rw [hpath, hmake]; simpa using hne), hpath]
    exact orPresent_of_error hmake

/-- A directory that cannot be made, although no name is missing on its way, has a blocked
path. -/
lemma blocked_of_orPresent (noLinks : tree.NoLinks)
    (made : tree.makeDirectory path ≠ .error .notFound)
    (failed : (orPresent path tree (tree.makeDirectory path)).1 ≠ none) : tree.Blocked path := by
  cases hlocate : tree.locate true path with
  | error fault =>
    rw [Ne, makeDirectory_eq_missing_iff noLinks, hlocate, Except.error.injEq] at made
    exact .inl ⟨fault, hlocate, made⟩
  | ok found =>
    obtain ⟨p, node⟩ := found
    cases node with
    | none =>
      refine absurd ?_ failed
      rw [FileTree.makeDirectory, locate_follow_of_noLinks noLinks, hlocate]
      rfl
    | some node =>
      cases node with
      | file contents => exact .inr ⟨p, contents, hlocate⟩
      | directory => exact absurd (congrArg Prod.fst (orPresent_of_present hlocate).2) failed
      | link target => exact absurd (node?_of_locate hlocate) (noLinks p target)

/-- **Where directories cannot be made** the path is blocked. -/
lemma makeDirectoriesUpTo_blocked (sound : tree.Sound) (noLinks : tree.NoLinks) (count : Nat)
    (failed : (makeDirectoriesUpTo path count tree).1 ≠ none) :
    (makeDirectoriesUpTo path count tree).2.Blocked (path.upTo count) := by
  induction count with
  | zero =>
    have hstart := locate_of_nil sound (show (path.upTo 0).names = [] from rfl)
    exact absurd (congrArg Prod.fst (orPresent_of_present hstart).2) failed
  | succ count ih =>
    by_cases hnot : tree.makeDirectory (path.upTo (count + 1)) = .error .notFound
    · rw [makeDirectoriesUpTo_of_notFound hnot] at failed ⊢
      have hmade := makeDirectoriesUpTo_made path count tree
      have hlinks := hmade.grown.keeps.noLinks noLinks
      split at failed
      · next habove =>
        rw [if_pos habove]
        have hnot' : (makeDirectoriesUpTo path count tree).2.makeDirectory (path.upTo (count + 1)) ≠
            .error .notFound := by
          rw [Ne, makeDirectory_eq_missing_iff hlinks]
          obtain ⟨p, hp⟩ := hmade.reached habove
          obtain hsame | ⟨name, hnext⟩ := Path.upTo_succ path count
          · rw [hsame, hp]
            simp
          · rw [hnext]
            exact not_missing_in_directory hp hlinks name
        have hblocked := blocked_of_orPresent hlinks hnot' failed
        obtain ⟨fault, hmake, -⟩ := hblocked.makeDirectory hlinks
        rw [orPresent_of_error hmake]
        exact hblocked
      · next habove =>
        rw [if_neg habove]
        obtain hsame | ⟨name, hnext⟩ := Path.upTo_succ path count
        · rw [hsame]
          exact ih habove
        · rw [hnext]
          exact .inl ((ih habove).child hlinks name)
    · rw [makeDirectoriesUpTo_of_ne hnot] at failed ⊢
      have hblocked := blocked_of_orPresent noLinks hnot failed
      obtain ⟨fault, hmake, -⟩ := hblocked.makeDirectory noLinks
      rw [orPresent_of_error hmake]
      exact hblocked

lemma makeDirectories_blocked (sound : tree.Sound) (noLinks : tree.NoLinks)
    (failed : (tree.makeDirectories path).1 ≠ none) :
    (tree.makeDirectories path).2.Blocked path := by
  simpa only [makeDirectories, upTo_length] using
    makeDirectoriesUpTo_blocked sound noLinks path.names.length failed

end FileTree

end Scaffold.Files
