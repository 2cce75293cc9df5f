import Scaffold.Proofs.Files.Ways

/-!
Ways that avoid some names, and ways through new directories.

A path that does not mention some names, in a tree whose links do not mention them
either, never comes to a place with such a name. So it leads to the same in all trees that
agree on the other places. And a path through a directory that is new leads further down
or to nothing, because nothing but directories of the same path can be there.

* `Avoids`: none of some names is in a list; `Unmentioned`: nor anywhere in a tree.
* `Agree`: two trees agree on the places without these names; `Agree.locate`: they have
  the same ways without these names.
* `Leads.walk_append`: the walk beyond a way to a directory, faults included.
* `Made.isDirectory`: the directory of a path is there and empty after it has been made,
  or the path still leads to no directory.
-/

namespace Scaffold.Files

/-- The names in the target of a link. -/
def Node.mentions : Node → List String
  | .link target => targetNames target
  | _ => []

namespace FileTree

variable {tree tree' : FileTree} {follow : Bool} {links : Nat} {place p : Place}
  {names ids : List String} {found : Found} {path : Path}

/-! ### Names that are avoided -/

/-- None of some names is in a list of names. -/
def Avoids (ids names : List String) : Prop :=
  ∀ name ∈ names, name ∉ ids

instance (ids names : List String) : Decidable (Avoids ids names) :=
  inferInstanceAs (Decidable (∀ name ∈ names, name ∉ ids))

lemma avoids_append {more : List String} :
    Avoids ids (names ++ more) ↔ Avoids ids names ∧ Avoids ids more :=
  List.forall_mem_append

lemma Avoids.dropLast (h : Avoids ids names) : Avoids ids names.dropLast :=
  fun name hname => h name (List.dropLast_subset _ hname)

lemma Avoids.take (h : Avoids ids names) (count : Nat) : Avoids ids (names.take count) :=
  fun name hname => h name (List.take_subset _ _ hname)

lemma avoids_nil : Avoids ids [] :=
  fun _ hname => absurd hname (by simp)

/-- None of some names is anywhere in a tree. -/
structure Unmentioned (ids : List String) (tree : FileTree) : Prop where
  /-- Nothing lies at a place with such a name. -/
  places : ∀ p node, tree.node? p = some node → Avoids ids p
  /-- No link has such a name in its target. -/
  targets : ∀ p target, tree.node? p = some (.link target) → Avoids ids (targetNames target)

/-- The list of nodes shows that some names are nowhere. -/
lemma unmentioned_of_nodes
    (h : ∀ entry ∈ tree.nodes, Avoids ids entry.1 ∧ Avoids ids entry.2.mentions) :
    Unmentioned ids tree := by
  refine ⟨fun p node hnode => ?_, fun p target hnode => ?_⟩
  · rcases mem_nodes_of_node? hnode with ⟨rfl, -⟩ | hlisted
    · exact avoids_nil
    · exact (h _ hlisted).1
  · rcases mem_nodes_of_node? hnode with ⟨-, hdir⟩ | hlisted
    · cases hdir
    · exact (h _ hlisted).2

/-- The list of nodes shows that none is a link. -/
lemma noLinks_of_nodes (h : ∀ entry ∈ tree.nodes, ∀ target, entry.2 ≠ .link target) :
    tree.NoLinks := by
  intro p target hlink
  rcases mem_nodes_of_node? hlink with ⟨-, hdir⟩ | hlisted
  · cases hdir
  · exact h _ hlisted target rfl

/-- A way without some names ends at a place without them. -/
lemma Leads.avoids (h : Leads tree follow links place names found)
    (targets : ∀ p target, tree.node? p = some (.link target) → Avoids ids (targetNames target))
    (hplace : Avoids ids place) (hnames : Avoids ids names) :
    Avoids ids found.place := by
  induction h with
  | here => exact hplace
  | stay _ _ ih => exact ih hplace fun name hname => hnames name (by simp [hname])
  | up _ _ ih => exact ih hplace.dropLast fun name hname => hnames name (by simp [hname])
  | last => exact avoids_append.mpr ⟨hplace, hnames⟩
  | enter _ _ _ _ _ ih =>
    exact ih (avoids_append.mpr ⟨hplace, fun name hname => hnames name (by simp_all)⟩)
      fun name hname => hnames name (by simp [hname])
  | jump _ _ link _ _ ih =>
    refine ih ?_ (avoids_append.mpr ⟨targets _ _ link,
      fun name hname => hnames name (by simp [hname])⟩)
    split
    · exact avoids_nil
    · exact hplace

/-- A path starts at a place without names that are nowhere in the tree. -/
lemma Unmentioned.start (h : Unmentioned ids tree) (sound : tree.Sound) (path : Path) :
    Avoids ids (tree.start path) := by
  rw [FileTree.start]
  split
  · exact avoids_nil
  · exact h.places _ _ sound.workplace

/-- New directories of a path without some names bring none of them. -/
lemma Made.unmentioned {count : Nat} {fault : Option Fault}
    (made : Made tree path count fault tree') (h : Unmentioned ids tree) (sound : tree.Sound)
    (hnames : Avoids ids path.names) : Unmentioned ids tree' := by
  have htargets : ∀ p target, tree'.node? p = some (.link target) →
      Avoids ids (targetNames target) :=
    fun p target hlink => h.targets p target ((made.grown.keeps.link p target).mp hlink)
  refine ⟨fun p node hnode => ?_, htargets⟩
  rcases made.grown.node p with hsame | ⟨hnone, hdir⟩
  · exact h.places p node (hsame ▸ hnode)
  · obtain ⟨k, -, hlocate⟩ := made.new p hnone hdir
    have hstart : Avoids ids (tree'.start (path.upTo k)) := by
      rw [made.grown.keeps.start]
      exact h.start sound _
    exact (locate_eq_ok_iff.mp hlocate).2.avoids htargets hstart (hnames.take k)

/-! ### Trees that agree on the other places -/

/-- Two trees agree on the places without some names. -/
structure Agree (ids : List String) (tree tree' : FileTree) : Prop where
  /-- Relative paths start at the same place. -/
  workplace : tree'.workplace = tree.workplace
  /-- Every place without the names holds the same. -/
  node : ∀ p, Avoids ids p → tree'.node? p = tree.node? p

lemma Agree.refl (ids : List String) (tree : FileTree) : Agree ids tree tree :=
  ⟨rfl, fun _ _ => rfl⟩

lemma Agree.trans {tree'' : FileTree} (h : Agree ids tree tree') (h' : Agree ids tree' tree'') :
    Agree ids tree tree'' :=
  ⟨h'.workplace.trans h.workplace, fun p hp => (h'.node p hp).trans (h.node p hp)⟩

lemma Agree.walkBy (h : Agree ids tree tree') (unmentioned : Unmentioned ids tree)
    {jump jump' : Place → List String → Except Fault Found}
    (hjump : ∀ place names, Avoids ids place → Avoids ids names →
      jump' place names = jump place names)
    (hplace : Avoids ids place) (hnames : Avoids ids names) :
    tree'.walkBy follow jump' place names = tree.walkBy follow jump place names := by
  induction names generalizing place with
  | nil => rw [FileTree.walkBy, FileTree.walkBy, h.node place hplace]
  | cons name names ih =>
    have hrest : Avoids ids names := fun n hn => hnames n (by simp [hn])
    have hnext : Avoids ids (place ++ [name]) :=
      avoids_append.mpr ⟨hplace, fun n hn => hnames n (by simp_all)⟩
    rw [FileTree.walkBy, FileTree.walkBy]
    simp only [h.node _ hplace, h.node _ hnext, ih hplace hrest, ih hplace.dropLast hrest,
      ih hnext hrest]
    cases hnode : tree.node? (place ++ [name]) with
    | none => rfl
    | some node =>
      cases node with
      | file contents => rfl
      | directory => rfl
      | link target =>
        have htarget : Avoids ids (targetNames target ++ names) :=
          avoids_append.mpr ⟨unmentioned.targets _ _ hnode, hrest⟩
        have hstart : Avoids ids (if target.startsWith "/" then [] else place) := by
          split
          · exact avoids_nil
          · exact hplace
        simp only [hjump _ _ hstart htarget]

/-- A path without some names leads to the same in two trees that agree on the places
without them, also to the same fault. -/
lemma Agree.locate (h : Agree ids tree tree') (unmentioned : Unmentioned ids tree)
    (sound : tree.Sound) (hnames : Avoids ids path.names) (follow : Bool) :
    tree'.locate follow path = tree.locate follow path := by
  have hwalk : ∀ links place names, Avoids ids place → Avoids ids names →
      tree'.walk follow links place names = tree.walk follow links place names := by
    intro links
    induction links with
    | zero => exact fun place names => h.walkBy unmentioned fun _ _ _ _ => rfl
    | succ links ih => exact fun place names => h.walkBy unmentioned ih
  have hstart : tree'.start path = tree.start path := by rw [start, start, h.workplace]
  rw [FileTree.locate, FileTree.locate, hstart, hwalk _ _ _ (unmentioned.start sound path) hnames]

section Same

variable (h : Agree ids tree tree') (unmentioned : Unmentioned ids tree) (sound : tree.Sound)
  (hnames : Avoids ids path.names)

include h unmentioned sound hnames

lemma Agree.stat : tree'.stat path = tree.stat path := by
  rw [FileTree.stat, FileTree.stat, h.locate unmentioned sound hnames]

lemma Agree.isDirectory : tree'.isDirectory path = tree.isDirectory path := by
  rw [FileTree.isDirectory, FileTree.isDirectory, holds, holds,
    h.stat unmentioned sound hnames]

lemma Agree.read : tree'.read path = tree.read path := by
  rw [FileTree.read, FileTree.read, h.stat unmentioned sound hnames]

end Same

/-! ### The directories on a path -/

/-- The way into a directory passes through it. -/
lemma exists_locate_of_child {name : String}
    (h : tree.locate follow ⟨path.anchor, path.names ++ [name]⟩ = .ok found) :
    ∃ directory, tree.locate true path = .ok ⟨directory, some .directory⟩ := by
  obtain ⟨hzero, hleads⟩ := locate_eq_ok_iff.mp h
  obtain ⟨_, directory, hfirst, -⟩ := hleads.split (List.cons_ne_nil name []) rfl
  refine ⟨directory, locate_eq_ok_iff.mpr ⟨?_, hfirst⟩⟩
  simp only [Path.holdsZero, List.any_append, Bool.or_eq_false_iff] at hzero
  exact hzero.1

/-- What lies in a directory has a name that a directory can hold and a path can have. -/
lemma isEntry_of_child {directory : Place} {name : String}
    (h : tree.locate true path = .ok ⟨directory, some .directory⟩)
    (h' : tree.locate follow ⟨path.anchor, path.names ++ [name]⟩ = .ok found) (dot : name ≠ ".")
    (up : name ≠ "..") : IsEntry name ∧ name.toList.contains '\x00' = false := by
  obtain ⟨-, hleads⟩ := locate_eq_ok_iff.mp h
  obtain ⟨hzero, hleads'⟩ := locate_eq_ok_iff.mp h'
  obtain ⟨fewer, hfewer⟩ := hleads.append rfl
  refine ⟨?_, ?_⟩
  · cases (hfewer follow [name] _ (by simp)).mp hleads' with
    | stay => exact absurd rfl dot
    | up => exact absurd rfl up
    | last _ entry => exact entry
    | enter _ entry => exact entry
    | jump _ entry => exact entry
  · simp only [Path.holdsZero, List.any_append, Bool.or_eq_false_iff] at hzero
    simpa using hzero.2

/-- No directory on the path of a directory can be made. -/
lemma makeDirectory_upTo_of_present
    (h : tree.locate true path = .ok ⟨place, some .directory⟩) (count : Nat) :
    tree.makeDirectory (path.upTo count) = .error .alreadyExists := by
  obtain ⟨hzero, hleads⟩ := locate_eq_ok_iff.mp h
  obtain ⟨above, habove⟩ : ∃ above,
      tree.locate true (path.upTo count) = .ok ⟨above, some .directory⟩ := by
    by_cases hrest : path.names.drop count = []
    · have hnames := List.take_append_drop count path.names
      rw [hrest, List.append_nil] at hnames
      exact ⟨place, by rw [Path.upTo, hnames, h]⟩
    · obtain ⟨_, above, hfirst, -⟩ := hleads.split hrest (List.take_append_drop count _).symm
      refine ⟨above, locate_eq_ok_iff.mpr ⟨?_, hfirst⟩⟩
      rw [Path.holdsZero, ← List.take_append_drop count path.names, List.any_append,
        Bool.or_eq_false_iff] at hzero
      exact hzero.1
  exact (orPresent_of_present habove).1

/-! ### The walk beyond a directory -/

/-- The walk beyond a way to a directory is the walk from the directory, whether or not
it comes to an end. -/
lemma Leads.walk_append (h : Leads tree true links place names found)
    (dir : found.node = some .directory) :
    ∃ fewer, ∀ follow more, more ≠ [] →
      tree.walk follow links place (names ++ more) = tree.walk follow fewer found.place more := by
  induction h with
  | @here links place => exact ⟨links, fun _ _ _ => rfl⟩
  | @stay links place names found hdir _ ih =>
    obtain ⟨fewer, hfewer⟩ := ih dir
    refine ⟨fewer, fun follow more hmore => ?_⟩
    rw [← hfewer follow more hmore]
    obtain ⟨jump, hwalk, -⟩ := @walk_eq_walkBy tree follow links
    rw [hwalk, List.cons_append, walkBy]
    simp [hdir]
  | @up links place names found hdir _ ih =>
    obtain ⟨fewer, hfewer⟩ := ih dir
    refine ⟨fewer, fun follow more hmore => ?_⟩
    rw [← hfewer follow more hmore]
    obtain ⟨jump, hwalk, -⟩ := @walk_eq_walkBy tree follow links
    rw [hwalk, List.cons_append, walkBy]
    simp [hdir]
  | @last links place name hdir entry stop =>
    refine ⟨links, fun follow more hmore => ?_⟩
    obtain ⟨jump, hwalk, -⟩ := @walk_eq_walkBy tree follow links
    simp only at dir
    rw [hwalk, List.cons_append, List.nil_append, walkBy]
    simp [hdir, dir, entry.ne_dot, entry.ne_up, entry.short, hmore]
  | @enter links place name names found hdir entry hnames plain rest ih =>
    obtain ⟨fewer, hfewer⟩ := ih dir
    refine ⟨fewer, fun follow more hmore => ?_⟩
    rw [← hfewer follow more hmore]
    obtain ⟨jump, hwalk, -⟩ := @walk_eq_walkBy tree follow links
    rw [hwalk, List.cons_append, walkBy]
    simp [hdir, rest.dir hnames, entry.ne_dot, entry.ne_up, entry.short, hnames]
  | @jump links place name names target found hdir entry link followed _ ih =>
    obtain ⟨fewer, hfewer⟩ := ih dir
    refine ⟨fewer, fun follow more hmore => ?_⟩
    rw [← hfewer follow more hmore]
    obtain ⟨jump, hwalk, hjump⟩ := @walk_eq_walkBy tree follow (links + 1)
    rw [hwalk, List.cons_append, walkBy]
    simp [hdir, link, entry.ne_dot, entry.ne_up, entry.short, hmore, hjump links rfl]

/-- From a new directory names lead to a directory that is new, or to nothing. -/
lemma walk_of_new (grown : Grown tree tree') (sound : tree.Sound) (fits : Fits names)
    (new : tree.node? place = none) (dir : tree'.node? place = some .directory) :
    (∃ goal, tree.node? goal = none ∧
        tree'.walk follow links place names = .ok ⟨goal, some .directory⟩) ∨
      (∃ goal, tree'.walk follow links place names = .ok ⟨goal, none⟩) ∨
      tree'.walk follow links place names = .error .notFound := by
  obtain ⟨jump, hwalk, -⟩ := @walk_eq_walkBy tree' follow links
  rw [hwalk]
  induction names generalizing place with
  | nil => exact .inl ⟨place, new, by rw [walkBy, dir]⟩
  | cons name names ih =>
    have entry : IsEntry name := fits name (by simp)
    have hbelow : tree.node? (place ++ [name]) = none := sound.below (by simp [new]) (by simp)
    rw [walkBy]
    simp only [dir, entry.ne_dot, entry.ne_up, entry.short, if_false, Bool.false_eq_true]
    rcases grown.node (place ++ [name]) with hnode | ⟨-, hnode⟩
    · rw [hnode, hbelow]
      by_cases hnil : names = []
      · exact .inr (.inl ⟨_, by simp [hnil]; rfl⟩)
      · exact .inr (.inr (by simp [hnil]))
    · rw [hnode]
      by_cases hnil : names = []
      · exact .inl ⟨_, hbelow, by simp [hnil]⟩
      · simpa [hnil] using ih (fun n hn => fits n (by simp [hn])) hbelow hnode

/-- A path that leads to no directory leads to an empty one after directories on it have
been made, or it still leads to none. -/
lemma Made.isDirectory {count : Nat} {fault : Option Fault}
    (made : Made tree path count fault tree')
    (sound : tree.Sound) (fits : Fits path.names) (missing : tree.isDirectory path = .ok false) :
    tree'.isDirectory path = .ok false ∨
      ∃ place, tree'.locate true path = .ok ⟨place, some .directory⟩ ∧
        ∀ name, tree'.node? (place ++ [name]) = none := by
  have plain : IsPlain path := fun name hname => ⟨(fits name hname).ne_dot, (fits name hname).ne_up⟩
  by_cases hnew : ∃ p, tree.node? p = none ∧ tree'.node? p = some .directory
  · obtain ⟨p, hnone, hdir⟩ := hnew
    obtain ⟨k, -, hlocate⟩ := made.new p hnone hdir
    -- a new directory in which the path ends is empty
    have hempty : ∀ goal, tree.node? goal = none →
        tree'.locate true path = .ok ⟨goal, some .directory⟩ →
        ∀ name, tree'.node? (goal ++ [name]) = none := by
      intro goal hgoal hlast name
      have hbelow : tree.node? (goal ++ [name]) = none := sound.below (by simp [hgoal]) (by simp)
      rcases made.grown.node (goal ++ [name]) with h | ⟨-, hchild⟩
      · rw [h, hbelow]
      · obtain ⟨j, -, hchild⟩ := made.new _ hbelow hchild
        have := (made.grown.prefix_of_new sound plain hbelow hchild hlast).length_le
        rw [List.length_append, List.length_singleton] at this
        omega
    have hnames : path.names = (path.upTo k).names ++ path.names.drop k :=
      (List.take_append_drop k path.names).symm
    by_cases hrest : path.names.drop k = []
    · rw [hrest, List.append_nil] at hnames
      have hlast : tree'.locate true path = .ok ⟨p, some .directory⟩ := by
        rw [← hlocate, Path.upTo, show path.names.take k = path.names from hnames.symm]
      exact .inr ⟨p, hlast, hempty p hnone hlast⟩
    · by_cases hholds : path.holdsZero = true
      · refine .inl ?_
        rw [FileTree.isDirectory, holds, stat, locate, if_pos hholds]
        rfl
      · obtain ⟨-, hleads⟩ := locate_eq_ok_iff.mp hlocate
        obtain ⟨fewer, hfewer⟩ := hleads.walk_append rfl
        have hwalk : tree'.locate true path = tree'.walk true fewer p (path.names.drop k) := by
          rw [locate, if_neg hholds, ← hfewer true _ hrest, ← hnames]
          rfl
        rcases @walk_of_new tree tree' true fewer p _ made.grown sound
          (fun name hname => fits name (List.mem_of_mem_drop hname)) hnone hdir with
          ⟨goal, hgoal, hlast⟩ | ⟨goal, hlast⟩ | hlast
        · exact .inr ⟨goal, hwalk.trans hlast, hempty goal hgoal (hwalk.trans hlast)⟩
        · exact .inl (isDirectory_of_locate (hwalk.trans hlast))
        · refine .inl ?_
          rw [FileTree.isDirectory, holds, stat, hwalk, hlast]
          rfl
  · have hsame : Alike tree tree' := ⟨made.grown.workplace, fun p => by
      rcases made.grown.node p with h | ⟨hnone, hdir⟩
      · exact h
      · exact absurd ⟨p, hnone, hdir⟩ hnew⟩
    exact .inl (by rw [hsame.isDirectory, missing])

end FileTree

end Scaffold.Files
