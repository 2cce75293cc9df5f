import Scaffold.Proofs.Files.Avoiding

/-!
Why a path has no place.

A walk ends early for one of few reasons, and only two of them can be read off the names:
a name that no directory can hold, and the character zero. The first is met on the way, so
it depends on the tree whether it is; the second is looked for before the first step.

* `Mentioned`: the names that a walk can come to; `Ends`: why it ends early.
* `walk_ends`: there are no other reasons.
* `locate_eq_zero_iff`, `makeDirectories_eq_zero_iff`: a path is refused for the character
  zero exactly if it holds one.
* `exists_tooLong_of_locate`: a path is refused for the length of a name that is in the
  path or in the target of a link.
-/

namespace Scaffold.Files.FileTree

variable {tree : FileTree} {follow : Bool} {links : Nat} {place : Place}
  {names left : List String} {path : Path} {fault : Fault}

/-! ### Reasons -/

/-- A name of a path or of the target of a link. -/
def Mentioned (tree : FileTree) (names : List String) (name : String) : Prop :=
  name ∈ names ∨ ∃ p target, tree.node? p = some (.link target) ∧ name ∈ targetNames target

/-- Why a walk along some names ends early. -/
inductive Ends (tree : FileTree) (names : List String) : Fault → Prop
  /-- A name on the way denotes nothing. -/
  | missing : Ends tree names .notFound
  /-- A name on the way denotes a file. -/
  | noDirectory : Ends tree names .notDirectory
  /-- There are too many links. -/
  | circle : Ends tree names .tooManyLinks
  /-- A name on the way is too long. -/
  | name {name : String} (mentioned : tree.Mentioned names name) (long : tooLong name = true) :
    Ends tree names .nameTooLong

/-- The part of a walk up to the next link, for any continuation behind it. -/
lemma walkBy_ends {jump : Place → List String → Except Fault Found}
    (hjump : ∀ place left fault, (∀ name ∈ left, tree.Mentioned names name) →
      jump place left = .error fault → tree.Ends names fault)
    (hleft : ∀ name ∈ left, tree.Mentioned names name)
    (h : tree.walkBy follow jump place left = .error fault) : tree.Ends names fault := by
  induction left generalizing place with
  | nil => cases h
  | cons name left ih =>
    have hrest : ∀ n ∈ left, tree.Mentioned names n := fun n hn => hleft n (by simp [hn])
    rw [walkBy] at h
    split at h
    · exact Except.error.inj h ▸ .missing
    · exact Except.error.inj h ▸ .noDirectory
    · exact Except.error.inj h ▸ .noDirectory
    by_cases hdot : name = "."
    · rw [if_pos hdot] at h
      exact ih hrest h
    by_cases hup : name = ".."
    · rw [if_neg hdot, if_pos hup] at h
      exact ih hrest h
    by_cases hlong : tooLong name = true
    · rw [if_neg hdot, if_neg hup, if_pos hlong] at h
      exact Except.error.inj h ▸ .name (hleft name (by simp)) hlong
    rw [if_neg hdot, if_neg hup, if_neg hlong] at h
    simp only at h
    split at h
    · next target htarget =>
      split at h
      · cases h
      · -- the names of the target come before those that are left
        refine hjump _ _ _ (fun n hn => ?_) h
        rcases List.mem_append.mp hn with hn | hn
        · exact .inr ⟨_, target, htarget, hn⟩
        · exact hrest n hn
    · split at h
      · cases h
      · exact ih hrest h
    · split at h
      · cases h
      · exact Except.error.inj h ▸ .missing

/-- **A walk ends early** for one of the reasons. -/
lemma walk_ends (hleft : ∀ name ∈ left, tree.Mentioned names name)
    (h : tree.walk follow links place left = .error fault) : tree.Ends names fault := by
  induction links generalizing place left fault with
  | zero =>
    rw [walk] at h
    exact walkBy_ends (fun _ _ _ _ hjump => Except.error.inj hjump ▸ .circle) hleft h
  | succ links ih =>
    rw [walk] at h
    exact walkBy_ends (fun _ _ _ hmore hjump => ih hmore hjump) hleft h

/-- A path is refused for the character zero, or for a reason on its way. -/
lemma locate_ends (h : tree.locate follow path = .error fault) :
    fault = .zeroCharacter ∧ path.holdsZero = true ∨
      path.holdsZero = false ∧ tree.Ends path.names fault := by
  rw [locate] at h
  split_ifs at h with hzero
  · exact .inl ⟨(Except.error.inj h).symm, hzero⟩
  · exact .inr ⟨by simpa using hzero, walk_ends (fun name hname => .inl hname) h⟩

lemma locate_eq_zero_iff :
    tree.locate follow path = .error .zeroCharacter ↔ path.holdsZero = true := by
  constructor
  · intro h
    rcases locate_ends h with ⟨-, hzero⟩ | ⟨-, hends⟩
    · exact hzero
    · cases hends
  · intro h
    rw [locate, if_pos h]

/-- A path is refused for the length of a name that is in the path or in the target of a
link. -/
lemma exists_tooLong_of_locate (h : tree.locate follow path = .error .nameTooLong) :
    ∃ name, tree.Mentioned path.names name ∧ tooLong name = true := by
  rcases locate_ends h with ⟨hfault, -⟩ | ⟨-, hends⟩
  · cases hfault
  · cases hends with
    | name mentioned long => exact ⟨_, mentioned, long⟩

lemma stat_eq_error_iff_of_ne (ne : fault ≠ .notFound) :
    tree.stat path = .error fault ↔ tree.locate true path = .error fault := by
  rw [stat]
  cases hfound : tree.locate true path with
  | error other => simp [bind, Except.bind]
  | ok found =>
    obtain ⟨place, node⟩ := found
    cases node with
    | none => simpa [bind, Except.bind] using ne.symm
    | some node => simp [bind, Except.bind]

/-- Looking at a path is refused only for the length of a name. -/
lemma holds_eq_error_iff {condition : Node → Bool} :
    tree.holds condition path = .error fault ↔
      fault = .nameTooLong ∧ tree.stat path = .error .nameTooLong := by
  rw [holds]
  split
  · next hstat => simp [hstat]
  · next hstat => simp [hstat, eq_comm]
  · next other hne hstat =>
    constructor
    · intro h
      cases h
    · rintro ⟨-, h⟩
      exact absurd h (by rw [hstat]; simpa using hne)

/-- Reading is refused for the character zero exactly if the path holds one. -/
lemma read_eq_zero_iff : tree.read path = .error .zeroCharacter ↔ path.holdsZero = true := by
  rw [← @locate_eq_zero_iff tree true, ← stat_eq_error_iff_of_ne (by simp), read]
  cases hstat : tree.stat path with
  | error fault => simp [bind, Except.bind]
  | ok node => cases node <;> simp [bind, Except.bind]

/-! ### Making directories -/

lemma holdsZero_upTo {count : Nat} (h : (path.upTo count).holdsZero = true) :
    path.holdsZero = true := by
  rw [Path.holdsZero, List.any_eq_true] at h ⊢
  obtain ⟨name, hname, hzero⟩ := h
  exact ⟨name, List.take_subset _ _ hname, hzero⟩

lemma makeDirectory_eq_zero_iff :
    tree.makeDirectory path = .error .zeroCharacter ↔ path.holdsZero = true := by
  rw [← @locate_eq_zero_iff tree false, makeDirectory]
  cases hfound : tree.locate false path with
  | error other => simp [bind, Except.bind]
  | ok found =>
    obtain ⟨place, node⟩ := found
    cases node <;> simp [bind, Except.bind]

lemma orPresent_eq_zero_iff :
    (orPresent path tree (tree.makeDirectory path)).1 = some .zeroCharacter ↔
      path.holdsZero = true := by
  rw [← @makeDirectory_eq_zero_iff tree]
  constructor
  · intro h
    cases hmake : tree.makeDirectory path with
    | ok changed => simp [hmake, orPresent] at h
    | error fault =>
      rw [hmake] at h
      by_cases hfault : fault = .notFound
      · simp [hfault, orPresent] at h
      · cases hdir : tree.isDirectory path with
        | error other =>
          -- a directory cannot be looked at for another reason
          have hother := (holds_eq_error_iff.mp hdir).1
          rw [hother] at hdir
          cases fault <;> simp_all [orPresent]
        | ok present => cases present <;> cases fault <;> simp_all [orPresent]
  · intro h
    have hzero : tree.locate true path = .error .zeroCharacter :=
      locate_eq_zero_iff.mpr (makeDirectory_eq_zero_iff.mp h)
    have hdir : tree.isDirectory path = .ok false := by
      rw [isDirectory, holds, (stat_eq_error_iff_of_ne (by simp)).mpr hzero]
    rw [h, orPresent, hdir]
    simp

/-- Directories cannot be made for the character zero exactly if the path holds one. -/
lemma makeDirectories_eq_zero_iff :
    (tree.makeDirectories path).1 = some .zeroCharacter ↔ path.holdsZero = true := by
  have hupTo : ∀ count, (makeDirectoriesUpTo path count tree).1 = some .zeroCharacter →
      path.holdsZero = true := by
    intro count
    induction count with
    | zero =>
      intro h
      have := orPresent_eq_zero_iff.mp h
      simp [Path.holdsZero] at this
    | succ count ih =>
      intro h
      by_cases hnot : tree.makeDirectory (path.upTo (count + 1)) = .error .notFound
      · rw [makeDirectoriesUpTo_of_notFound hnot] at h
        split at h
        · exact holdsZero_upTo (orPresent_eq_zero_iff.mp h)
        · exact ih h
      · rw [makeDirectoriesUpTo_of_ne hnot] at h
        exact holdsZero_upTo (orPresent_eq_zero_iff.mp h)
  refine ⟨hupTo _, fun hzero => ?_⟩
  rw [makeDirectories]
  cases hcount : path.names.length with
  | zero => simp [Path.holdsZero, List.length_eq_zero_iff.mp hcount] at hzero
  | succ count =>
    have hpath : path.upTo (count + 1) = path := by rw [← hcount, upTo_length]
    have hmake : tree.makeDirectory path = .error .zeroCharacter :=
      makeDirectory_eq_zero_iff.mpr hzero
    rw [makeDirectoriesUpTo_of_ne (by rw [hpath, hmake]; simp), hpath]
    exact orPresent_eq_zero_iff.mpr hzero

end Scaffold.Files.FileTree
