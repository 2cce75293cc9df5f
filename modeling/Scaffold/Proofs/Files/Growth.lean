import Mathlib.Data.List.Induction
import Mathlib.Data.List.Nodup
import Scaffold.Proofs.Files.Walking

/-!
Trees that hang together, and the making of directories.

In a tree that hangs together everything lies in a directory. Making the missing
directories of a path keeps it so: places that were empty become directories and
nothing else happens, whether or not the work comes to its end.

* `Sound`: every place is listed once, and everything lies in a directory.
* `node?_set`, `node?_remove`: what a change does to every place.
* `Sound.set`, `Sound.remove`: changes that keep a tree sound.
* `Grown`: some empty places have become directories.
* `Made`, `makeDirectories_made`: what the making of directories does.
* `makeDirectories_of_present`: nothing when the directory is there.
* `makeDirectories_new`: a path without `..` that led to no directory before leads
  to a new one; `Grown.prefix_of_new`: the new directories lie above the last.
-/

namespace Scaffold.Files

/-- The beginning of a path. -/
def Path.upTo (path : Path) (count : Nat) : Path :=
  ⟨path.anchor, path.names.take count⟩

/-- The beginnings of the parent of a path are beginnings of the path. -/
lemma Path.upTo_parent {path : Path} {count : Nat} (h : count ≤ path.parent.names.length) :
    path.parent.upTo count = path.upTo count := by
  rw [parent, List.length_dropLast] at h
  rw [upTo, upTo, parent, List.dropLast_eq_take, List.take_take, Nat.min_eq_left h]

namespace FileTree

variable {tree tree' : FileTree} {follow : Bool} {links : Nat} {place : Place}
  {names : List String} {found : Found} {path : Path}

/-! ### Places and nodes -/

lemma find?_eq_none_iff {α : Type} {key : Place} {entries : List (Place × α)} :
    find? key entries = none ↔ key ∉ entries.map (·.1) := by
  induction entries with
  | nil => simp [find?]
  | cons entry entries ih =>
    rw [find?]
    split
    · next h => simp [h]
    · next h => simp [ih, Ne.symm h]

lemma mem_of_find?_eq_some {α : Type} {key : Place} {value : α} {entries : List (Place × α)}
    (h : find? key entries = some value) : (key, value) ∈ entries := by
  induction entries with
  | nil => cases h
  | cons entry entries ih =>
    rw [find?] at h
    split at h
    · next hkey =>
      rw [← hkey, ← Option.some.inj h]
      exact List.mem_cons_self
    · exact List.mem_cons_of_mem _ (ih h)

/-- What is there is the outermost directory or listed. -/
lemma mem_nodes_of_node? {p : Place} {node : Node} (h : tree.node? p = some node) :
    p = [] ∧ node = .directory ∨ (p, node) ∈ tree.nodes := by
  rw [node?] at h
  split at h
  · next hroot => exact .inl ⟨hroot, (Option.some.inj h).symm⟩
  · exact .inr (mem_of_find?_eq_some h)

lemma map_fst_update {α : Type} (key : Place) (value : α) (entries : List (Place × α)) :
    (update key value entries).map (·.1) =
      if key ∈ entries.map (·.1) then entries.map (·.1) else entries.map (·.1) ++ [key] := by
  induction entries with
  | nil => simp [update]
  | cons entry entries ih =>
    rw [update]
    split
    · next h => simp [h]
    · next h =>
      rw [List.map_cons, ih]
      by_cases hmem : key ∈ entries.map (·.1)
      · simp [hmem]
      · simp [hmem, Ne.symm h]

/-- The root is a directory. -/
@[simp] lemma node?_nil (tree : FileTree) : tree.node? [] = some .directory := rfl

lemma ne_nil_of_node?_eq_none {p : Place} (h : tree.node? p = none) : p ≠ [] := by
  rintro rfl
  cases h

/-- A change of one place changes what is there. -/
lemma node?_set {p : Place} (h : p ≠ []) (node : Node) (tree : FileTree) (q : Place) :
    (tree.set p node).node? q = if q = p then some node else tree.node? q := by
  split
  · next hq => rw [hq, node?_set_self h]
  · next hq => rw [node?_set_of_ne hq]

/-- A removal empties one place. -/
lemma node?_remove {p : Place} (h : p ≠ []) (tree : FileTree) (q : Place) :
    (tree.remove p).node? q = if q = p then none else tree.node? q := by
  split
  · next hq => rw [hq, node?_remove_self h]
  · next hq => rw [node?_remove_of_ne hq]

@[simp] lemma workplace_set (tree : FileTree) (p : Place) (node : Node) :
    (tree.set p node).workplace = tree.workplace := by
  simp only [set]
  split <;> rfl

@[simp] lemma workplace_remove (tree : FileTree) (p : Place) :
    (tree.remove p).workplace = tree.workplace := rfl

lemma nodes_set (tree : FileTree) (p : Place) (node : Node) :
    (tree.set p node).nodes = update p node tree.nodes := by
  simp only [set]
  split <;> rfl

lemma nodes_remove (tree : FileTree) (p : Place) :
    (tree.remove p).nodes = discard p tree.nodes := rfl

/-- What is listed is what is there. -/
lemma mem_nodes_iff {p : Place} (ne : p ≠ []) :
    p ∈ tree.nodes.map (·.1) ↔ tree.node? p ≠ none := by
  rw [node?, if_neg ne, Ne, find?_eq_none_iff, not_not]

/-- What is listed below a place is what is there. -/
lemma mem_below_iff {p q : Place} : q ∈ tree.below p ↔ p <+: q ∧ q ≠ p ∧ tree.node? q ≠ none := by
  have hnil : p <+: q → q ≠ p → q ≠ [] := by
    rintro hstarts hne rfl
    exact hne (List.prefix_nil.mp hstarts).symm
  rw [FileTree.below, List.mem_filter, Bool.and_eq_true, List.isPrefixOf_iff_prefix,
    decide_eq_true_eq]
  constructor
  · rintro ⟨hmem, hstarts, hne⟩
    exact ⟨hstarts, hne, (mem_nodes_iff (hnil hstarts hne)).mp hmem⟩
  · rintro ⟨hstarts, hne, hnode⟩
    exact ⟨(mem_nodes_iff (hnil hstarts hne)).mpr hnode, hstarts, hne⟩

lemma below_eq_nil_iff {p : Place} :
    tree.below p = [] ↔ ∀ q, p <+: q → q ≠ p → tree.node? q = none := by
  rw [List.eq_nil_iff_forall_not_mem]
  refine forall_congr' fun q => ?_
  rw [mem_below_iff]
  tauto

/-! ### Sound trees -/

/-- A tree that hangs together. -/
structure Sound (tree : FileTree) : Prop where
  /-- Every place is listed once. -/
  distinct : (tree.nodes.map (·.1)).Nodup
  /-- Whatever is there lies in a directory. -/
  closed : ∀ p node, tree.node? p = some node → tree.node? p.dropLast = some .directory
  /-- Relative paths start in a directory. -/
  workplace : tree.node? tree.workplace = some .directory

/-- The places above a node are directories. -/
lemma Sound.above (sound : tree.Sound) {p q : Place} {node : Node}
    (h : tree.node? (p ++ q) = some node) (hq : q ≠ []) : tree.node? p = some .directory := by
  induction q using List.reverseRecOn generalizing node with
  | nil => exact absurd rfl hq
  | append_singleton q name ih =>
    have hparent := sound.closed _ _ h
    rw [← List.append_assoc, List.dropLast_concat] at hparent
    cases q with
    | nil => simpa using hparent
    | cons a q => exact ih hparent (by simp)

/-- Nothing lies below what is no directory. -/
lemma Sound.below (sound : tree.Sound) {p : Place} (h : tree.node? p ≠ some .directory)
    {q : Place} (hq : q ≠ []) : tree.node? (p ++ q) = none := by
  by_contra hne
  obtain ⟨node, hnode⟩ := Option.ne_none_iff_exists'.mp hne
  exact h (sound.above hnode hq)

/-- A path starts in a directory. -/
lemma Sound.start (sound : tree.Sound) (path : Path) :
    tree.node? (tree.start path) = some .directory := by
  rw [FileTree.start]
  split
  · rfl
  · exact sound.workplace

/-- Whether a tree hangs together can be read off the list of its nodes. -/
lemma sound_iff : tree.Sound ↔ (tree.nodes.map (·.1)).Nodup ∧
    (∀ entry ∈ tree.nodes, tree.node? entry.1.dropLast = some .directory) ∧
    tree.node? tree.workplace = some .directory := by
  constructor
  · intro sound
    refine ⟨sound.distinct, fun entry hentry => ?_, sound.workplace⟩
    by_cases hroot : entry.1 = []
    · rw [hroot]
      rfl
    · have hnode := (mem_nodes_iff hroot).mp (List.mem_map_of_mem hentry)
      obtain ⟨node, hnode⟩ := Option.ne_none_iff_exists'.mp hnode
      exact sound.closed _ node hnode
  · rintro ⟨distinct, closed, workplace⟩
    refine ⟨distinct, fun p node hnode => ?_, workplace⟩
    by_cases hroot : p = []
    · rw [hroot]
      rfl
    · have hmem : p ∈ tree.nodes.map (·.1) := (mem_nodes_iff hroot).mpr (by simp [hnode])
      obtain ⟨entry, hentry, rfl⟩ := List.mem_map.mp hmem
      exact closed entry hentry

instance (tree : FileTree) : Decidable tree.Sound :=
  decidable_of_iff _ sound_iff.symm

/-- A change of one place keeps every place listed once. -/
lemma Sound.distinct_set (sound : tree.Sound) (p : Place) (node : Node) :
    ((tree.set p node).nodes.map (·.1)).Nodup := by
  rw [nodes_set, map_fst_update]
  split
  · exact sound.distinct
  · next h => exact List.Nodup.append sound.distinct (List.nodup_singleton p) (by simpa using h)

/-- Whatever is put at a place in a directory that was no directory itself lies in a
directory, and so does everything else. -/
lemma Sound.set (sound : tree.Sound) {p : Place} (hp : p ≠ []) (node : Node)
    (parent : tree.node? p.dropLast = some .directory) (old : tree.node? p ≠ some .directory) :
    (tree.set p node).Sound where
  distinct := sound.distinct_set p node
  closed q other h := by
    have hdrop : ∀ r : Place, r.dropLast = p → tree.node? r ≠ none → r = p := by
      intro r hr hne
      obtain ⟨n, hn⟩ := Option.ne_none_iff_exists'.mp hne
      exact absurd (hr ▸ sound.closed r n hn) old
    have hne : p.dropLast ≠ p := fun heq => by
      have hlen := congrArg List.length heq
      rw [List.length_dropLast] at hlen
      have := List.length_pos_iff.mpr hp
      omega
    rw [node?_set hp] at h ⊢
    by_cases hq : q = p
    · rw [hq, if_neg hne]
      exact parent
    · rw [if_neg hq] at h
      have hqp : q.dropLast ≠ p := fun heq => hq (hdrop q heq (by simp [h]))
      rw [if_neg hqp]
      exact sound.closed q other h
  workplace := by
    rw [workplace_set, node?_set hp]
    split
    · next h => exact absurd (h ▸ sound.workplace) old
    · exact sound.workplace

/-- What is no directory can go without leaving anything behind. -/
lemma Sound.remove (sound : tree.Sound) {p : Place} (hp : p ≠ [])
    (old : tree.node? p ≠ some .directory) : (tree.remove p).Sound where
  distinct := by
    rw [nodes_remove, discard]
    exact (List.filter_sublist.map _).nodup sound.distinct
  closed q other h := by
    rw [node?_remove hp] at h ⊢
    split at h
    · cases h
    · have hdir := sound.closed q other h
      have hne : q.dropLast ≠ p := fun heq => old (by rw [← heq, hdir])
      rw [if_neg hne]
      exact hdir
  workplace := by
    have hne : tree.workplace ≠ p := fun heq => old (by rw [← heq, sound.workplace])
    rw [workplace_remove, node?_remove hp, if_neg hne]
    exact sound.workplace

/-- What has nothing in it can go, unless it is the working directory. -/
lemma Sound.remove_leaf (sound : tree.Sound) {p : Place} (hp : p ≠ [])
    (leaf : ∀ q, p <+: q → q ≠ p → tree.node? q = none) (home : tree.workplace ≠ p) :
    (tree.remove p).Sound where
  distinct := by
    rw [nodes_remove, discard]
    exact (List.filter_sublist.map _).nodup sound.distinct
  closed q other h := by
    rw [node?_remove hp] at h ⊢
    split at h
    · cases h
    · next hq =>
      have hne : q.dropLast ≠ p := by
        rintro rfl
        rw [leaf q (List.dropLast_prefix q) hq] at h
        cases h
      rw [if_neg hne]
      exact sound.closed q other h
  workplace := by
    rw [workplace_remove, node?_remove hp, if_neg home]
    exact sound.workplace

/-- What a way finds missing would lie in a directory. -/
lemma Leads.parent (h : Leads tree follow links place names found) (sound : tree.Sound)
    (dir : tree.node? place = some .directory) (missing : found.node = none) :
    found.place ≠ [] ∧ tree.node? found.place.dropLast = some .directory := by
  induction h with
  | here => rw [dir] at missing; cases missing
  | stay _ _ ih => exact ih dir missing
  | up hdir _ ih => exact ih (sound.closed _ _ hdir) missing
  | last hdir => simpa using hdir
  | enter _ _ more _ rest ih => exact ih (rest.dir more) missing
  | jump hdir _ _ _ rest ih =>
    refine ih ?_ missing
    split
    · rfl
    · exact hdir

/-- A path that leads to nothing leads into a directory. -/
lemma Sound.parent (sound : tree.Sound) (h : tree.locate follow path = .ok ⟨place, none⟩) :
    place ≠ [] ∧ tree.node? place.dropLast = some .directory ∧ tree.node? place = none := by
  obtain ⟨_, hleads⟩ := locate_eq_ok_iff.mp h
  obtain ⟨hne, hdir⟩ := hleads.parent sound (sound.start path) rfl
  exact ⟨hne, hdir, hleads.node_eq.symm⟩

/-! ### Growth -/

/-- Some empty places have become directories. -/
structure Grown (tree tree' : FileTree) : Prop where
  /-- Relative paths start at the same place. -/
  workplace : tree'.workplace = tree.workplace
  /-- Every place is as it was, or an empty place has become a directory. -/
  node : ∀ p, tree'.node? p = tree.node? p ∨
    tree.node? p = none ∧ tree'.node? p = some .directory

lemma Grown.refl (tree : FileTree) : Grown tree tree :=
  ⟨rfl, fun _ => .inl rfl⟩

lemma Grown.trans {tree'' : FileTree} (h : Grown tree tree') (h' : Grown tree' tree'') :
    Grown tree tree'' where
  workplace := h'.workplace.trans h.workplace
  node p := by
    rcases h.node p with h1 | ⟨h1, h2⟩ <;> rcases h'.node p with h3 | ⟨h3, h4⟩
    · exact .inl (h3.trans h1)
    · exact .inr ⟨h1 ▸ h3, h4⟩
    · exact .inr ⟨h1, h3.trans h2⟩
    · rw [h2] at h3; cases h3

/-- What was there before growth is there after it. -/
lemma Grown.of_some (h : Grown tree tree') {p : Place} {node : Node}
    (hnode : tree.node? p = some node) : tree'.node? p = some node := by
  rcases h.node p with h1 | ⟨h1, _⟩
  · exact h1.trans hnode
  · rw [hnode] at h1; cases h1

/-- What is empty after growth was empty before it. -/
lemma Grown.of_none (h : Grown tree tree') {p : Place} (hnode : tree'.node? p = none) :
    tree.node? p = none := by
  rcases h.node p with h1 | ⟨h1, _⟩
  · exact h1.symm.trans hnode
  · exact h1

/-- What is no directory after growth was the same before it. -/
lemma Grown.of_file (h : Grown tree tree') {p : Place} {contents : Bytes}
    (hnode : tree'.node? p = some (.file contents)) : tree.node? p = some (.file contents) := by
  rcases h.node p with h1 | ⟨_, h2⟩
  · exact h1.symm.trans hnode
  · rw [hnode] at h2; cases h2

/-- No new place is a link. -/
lemma Grown.not_link (h : Grown tree tree') {p : Place} (hnode : tree.node? p = none)
    (target : String) : tree'.node? p ≠ some (.link target) := by
  rcases h.node p with h1 | ⟨_, h2⟩
  · rw [h1, hnode]
    simp
  · rw [h2]
    simp

lemma Grown.keeps (h : Grown tree tree') : Keeps tree tree' where
  workplace := h.workplace
  directory p hp := h.of_some hp
  link p target := by
    refine ⟨fun hp => ?_, fun hp => h.of_some hp⟩
    rcases h.node p with h1 | ⟨_, h2⟩
    · exact h1.symm.trans hp
    · rw [hp] at h2; cases h2

/-- Growth changes no contents. -/
lemma Grown.contents (h : Grown tree tree') (p : Place) : tree'.contents? p = tree.contents? p := by
  rw [contents?, contents?]
  rcases h.node p with h1 | ⟨h1, h2⟩
  · rw [h1]
  · rw [h1, h2]

lemma grown_set_directory {p : Place} (h : tree.node? p = none) :
    Grown tree (tree.set p .directory) where
  workplace := workplace_set _ _ _
  node q := by
    rw [node?_set (ne_nil_of_node?_eq_none h)]
    split
    · next hq => exact .inr ⟨hq ▸ h, rfl⟩
    · exact .inl rfl

/-! ### Questions about a path -/

lemma stat_eq_ok_iff {node : Node} :
    tree.stat path = .ok node ↔ ∃ place, tree.locate true path = .ok ⟨place, some node⟩ := by
  rw [stat]
  cases h : tree.locate true path with
  | error fault => simp [bind, Except.bind]
  | ok found =>
    obtain ⟨place, node'⟩ := found
    cases node' with
    | none => simp [bind, Except.bind]
    | some node' => simp [bind, Except.bind]

lemma holds_eq_true_iff {condition : Node → Bool} :
    tree.holds condition path = .ok true ↔
      ∃ place node, tree.locate true path = .ok ⟨place, some node⟩ ∧ condition node = true := by
  rw [holds]
  constructor
  · intro h
    split at h
    · next node hnode =>
      obtain ⟨place, hplace⟩ := stat_eq_ok_iff.mp hnode
      exact ⟨place, node, hplace, by simpa using h⟩
    · cases h
    · cases h
  · rintro ⟨place, node, hplace, hcondition⟩
    rw [stat_eq_ok_iff.mpr ⟨place, hplace⟩]
    simp [hcondition]

/-- A path denotes a directory when it is located at one. -/
lemma isDirectory_eq_true_iff :
    tree.isDirectory path = .ok true ↔
      ∃ place, tree.locate true path = .ok ⟨place, some .directory⟩ := by
  rw [isDirectory, holds_eq_true_iff]
  simp

/-- A path that is located denotes a directory or none. -/
lemma isDirectory_of_locate {node : Option Node} (h : tree.locate true path = .ok ⟨place, node⟩) :
    tree.isDirectory path = .ok (node == some .directory) := by
  rw [isDirectory, holds, stat, h]
  cases node with
  | none => rfl
  | some node => cases node <;> rfl

/-- A path denotes a file when it is located at one. -/
lemma isFile_eq_true_iff :
    tree.isFile path = .ok true ↔
      ∃ place contents, tree.locate true path = .ok ⟨place, some (.file contents)⟩ := by
  rw [isFile, holds_eq_true_iff]
  constructor
  · rintro ⟨place, node, hplace, hnode⟩
    cases node with
    | file contents => exact ⟨place, contents, hplace⟩
    | directory => cases hnode
    | link target => cases hnode
  · rintro ⟨place, contents, hplace⟩
    exact ⟨place, _, hplace, rfl⟩

/-! ### Making directories -/

/-- A new directory is made at an empty place. -/
lemma makeDirectory_ok (h : tree.makeDirectory path = .ok tree') :
    ∃ place, tree.locate false path = .ok ⟨place, none⟩ ∧ tree' = tree.set place .directory := by
  rw [makeDirectory] at h
  cases hfound : tree.locate false path with
  | error fault => simp [hfound, bind, Except.bind] at h
  | ok found =>
    obtain ⟨place, node⟩ := found
    cases node with
    | some node => simp [hfound, bind, Except.bind] at h
    | none =>
      simp only [hfound, bind, Except.bind, Except.ok.injEq] at h
      exact ⟨place, rfl, h.symm⟩

/-- A new directory is located by its path. -/
lemma locate_set_directory (h : tree.locate false path = .ok ⟨place, none⟩) :
    (tree.set place .directory).locate true path = .ok ⟨place, some .directory⟩ := by
  obtain ⟨hzero, hleads⟩ := locate_eq_ok_iff.mp h
  have hmissing : tree.node? place = none := hleads.node_eq.symm
  have hlocate : tree.locate true path = .ok ⟨place, none⟩ :=
    locate_eq_ok_iff.mpr ⟨hzero, hleads.followed (by simp)⟩
  have := (grown_set_directory hmissing).keeps.locate hlocate
  rwa [node?_set_self (ne_nil_of_node?_eq_none hmissing)] at this

/-- The outcome of making a directory that may be there: it has been made, or it was
there, or there is a fault. -/
lemma orPresent_cases (path : Path) (tree : FileTree) (result : Except Fault FileTree) :
    (∃ changed, result = .ok changed ∧ orPresent path tree result = (none, changed)) ∨
    (∃ fault, result = .error fault ∧ fault ≠ .notFound ∧ tree.isDirectory path = .ok true ∧
      orPresent path tree result = (none, tree)) ∨
    (∃ fault fault', result = .error fault' ∧
      orPresent path tree result = (some fault, tree)) := by
  cases result with
  | ok changed => exact .inl ⟨changed, rfl, rfl⟩
  | error fault =>
    by_cases hfault : fault = .notFound
    · exact .inr (.inr ⟨.notFound, fault, rfl, by rw [hfault]; rfl⟩)
    · cases hdir : tree.isDirectory path with
      | error other =>
        refine .inr (.inr ⟨other, fault, rfl, ?_⟩)
        cases fault <;> simp_all [orPresent]
      | ok present =>
        cases present with
        | true =>
          refine .inr (.inl ⟨fault, rfl, hfault, rfl, ?_⟩)
          cases fault <;> simp_all [orPresent]
        | false =>
          refine .inr (.inr ⟨fault, fault, rfl, ?_⟩)
          cases fault <;> simp_all [orPresent]

/-- What the making of the directories on a path up to some name does to a tree. -/
structure Made (tree : FileTree) (path : Path) (count : Nat) (fault : Option Fault)
    (tree' : FileTree) : Prop where
  /-- Nothing happens but that empty places become directories. -/
  grown : Grown tree tree'
  /-- Everything still lies in a directory. -/
  sound : tree.Sound → tree'.Sound
  /-- Without a fault the directory is there. -/
  reached : fault = none →
    ∃ place, tree'.locate true (path.upTo count) = .ok ⟨place, some .directory⟩
  /-- The new directories lie on the path. -/
  new : ∀ p, tree.node? p = none → tree'.node? p = some .directory →
    ∃ k ≤ count, tree'.locate true (path.upTo k) = .ok ⟨p, some .directory⟩

/-- The last directory of a path is made in a tree in which those before it have
been. -/
lemma Made.orPresent {grown : FileTree} {fault : Option Fault} {count here : Nat}
    (made : Made tree path count fault grown) (hle : count ≤ here) :
    Made tree path here
      (orPresent (path.upTo here) grown (grown.makeDirectory (path.upTo here))).1
      (orPresent (path.upTo here) grown (grown.makeDirectory (path.upTo here))).2 := by
  have hnew : ∀ p, tree.node? p = none → grown.node? p = some .directory →
      ∃ k ≤ here, grown.locate true (path.upTo k) = .ok ⟨p, some .directory⟩ := by
    intro p hnone hdir
    obtain ⟨k, hk, hlocate⟩ := made.new p hnone hdir
    exact ⟨k, by omega, hlocate⟩
  obtain ⟨changed, hmake, hout⟩ | ⟨fault', hmake, -, hdir, hout⟩ | ⟨fault', fault'', hmake, hout⟩ :=
    orPresent_cases (path.upTo here) grown (grown.makeDirectory (path.upTo here))
  · rw [hout]
    obtain ⟨place, hplace, rfl⟩ := makeDirectory_ok hmake
    have hmissing : grown.node? place = none := (locate_eq_ok_iff.mp hplace).2.node_eq.symm
    have hset := grown_set_directory hmissing
    refine ⟨made.grown.trans hset, fun sound => ?_, fun _ => ⟨place, locate_set_directory hplace⟩,
      fun p hnone hp => ?_⟩
    · obtain ⟨hne, hparent, _⟩ := (made.sound sound).parent hplace
      exact (made.sound sound).set hne _ hparent (by simp [hmissing])
    · by_cases hpp : p = place
      · rw [hpp]
        exact ⟨here, Nat.le_refl here, locate_set_directory hplace⟩
      · rw [node?_set_of_ne hpp] at hp
        obtain ⟨k, hk, hlocate⟩ := hnew p hnone hp
        refine ⟨k, hk, ?_⟩
        have := hset.keeps.locate hlocate
        rwa [hset.of_some hp] at this
  · rw [hout]
    exact ⟨made.grown, made.sound, fun _ => isDirectory_eq_true_iff.mp hdir, hnew⟩
  · rw [hout]
    exact ⟨made.grown, made.sound, fun h => absurd h (by simp), hnew⟩

/-- Before anything has been made. -/
lemma made_zero (tree : FileTree) (path : Path) :
    Made tree path 0 (some .notFound) tree :=
  ⟨.refl tree, id, fun h => absurd h (by simp), fun p hnone hp => by rw [hnone] at hp; cases hp⟩

/-- When a name on the way is missing, the directories before the last are made
first. -/
lemma makeDirectoriesUpTo_of_notFound {count : Nat}
    (h : tree.makeDirectory (path.upTo (count + 1)) = .error .notFound) :
    makeDirectoriesUpTo path (count + 1) tree =
      if (makeDirectoriesUpTo path count tree).1 = none then
        orPresent (path.upTo (count + 1)) (makeDirectoriesUpTo path count tree).2
          ((makeDirectoriesUpTo path count tree).2.makeDirectory (path.upTo (count + 1)))
      else makeDirectoriesUpTo path count tree := by
  rw [Path.upTo] at h ⊢
  rw [makeDirectoriesUpTo]
  simp only [h]
  cases hmade : makeDirectoriesUpTo path count tree with
  | mk fault grown => cases fault <;> simp

/-- Otherwise the directory is made at once, if it can be made. -/
lemma makeDirectoriesUpTo_of_ne {count : Nat}
    (h : tree.makeDirectory (path.upTo (count + 1)) ≠ .error .notFound) :
    makeDirectoriesUpTo path (count + 1) tree =
      orPresent (path.upTo (count + 1)) tree (tree.makeDirectory (path.upTo (count + 1))) := by
  rw [Path.upTo] at h ⊢
  rw [makeDirectoriesUpTo]
  split
  · next hnot => exact absurd hnot h
  · rfl

/-- Every step of the making of directories keeps to the path. -/
lemma makeDirectoriesUpTo_made (path : Path) (count : Nat) (tree : FileTree) :
    Made tree path count (makeDirectoriesUpTo path count tree).1
      (makeDirectoriesUpTo path count tree).2 := by
  induction count with
  | zero =>
    have := (made_zero tree path).orPresent (Nat.le_refl 0)
    simpa only [makeDirectoriesUpTo, Path.upTo, List.take_zero] using this
  | succ count ih =>
    by_cases hnot : tree.makeDirectory (path.upTo (count + 1)) = .error .notFound
    · rw [makeDirectoriesUpTo_of_notFound hnot]
      split
      · exact ih.orPresent (by omega)
      · next hfault =>
        refine ⟨ih.grown, ih.sound, fun h => absurd h hfault, fun p hnone hp => ?_⟩
        obtain ⟨k, hk, hlocate⟩ := ih.new p hnone hp
        exact ⟨k, by omega, hlocate⟩
    · rw [makeDirectoriesUpTo_of_ne hnot]
      exact (made_zero tree path).orPresent (by omega)

/-- A path is its own beginning. -/
@[simp] lemma upTo_length (path : Path) : path.upTo path.names.length = path := by
  rw [Path.upTo, List.take_length]

/-- What the making of directories does to a tree. -/
lemma makeDirectories_made (path : Path) (tree : FileTree) :
    Made tree path path.names.length (tree.makeDirectories path).1 (tree.makeDirectories path).2 :=
  makeDirectoriesUpTo_made path path.names.length tree

/-- Making directories lets the tree grow. -/
lemma makeDirectories_grown (path : Path) (tree : FileTree) :
    Grown tree (tree.makeDirectories path).2 :=
  (makeDirectories_made path tree).grown

/-- Without a fault the directory is there. -/
lemma makeDirectories_reached (h : (tree.makeDirectories path).1 = none) :
    ∃ place, (tree.makeDirectories path).2.locate true path = .ok ⟨place, some .directory⟩ := by
  simpa using (makeDirectories_made path tree).reached h

/-- Where the directory is there nothing is made. -/
lemma orPresent_of_present (h : tree.locate true path = .ok ⟨place, some .directory⟩) :
    tree.makeDirectory path = .error .alreadyExists ∧
      orPresent path tree (tree.makeDirectory path) = (none, tree) := by
  obtain ⟨hzero, hleads⟩ := locate_eq_ok_iff.mp h
  obtain ⟨found', hleads', hsome⟩ := hleads.exists_unfollowed rfl
  have hmake : tree.makeDirectory path = .error .alreadyExists := by
    rw [makeDirectory, locate_eq_ok_iff.mpr ⟨hzero, hleads'⟩]
    obtain ⟨node, hnode⟩ := Option.isSome_iff_exists.mp hsome
    simp [bind, Except.bind, hnode]
  refine ⟨hmake, ?_⟩
  rw [hmake, orPresent]
  · rw [isDirectory_eq_true_iff.mpr ⟨place, h⟩]
  · exact fun hne => by cases hne

/-- Nothing is made when the directory is there. -/
lemma makeDirectories_of_present (h : tree.locate true path = .ok ⟨place, some .directory⟩) :
    tree.makeDirectories path = (none, tree) := by
  rw [makeDirectories]
  cases hcount : path.names.length with
  | zero =>
    have hpath : path = ⟨path.anchor, []⟩ := by
      rw [← List.length_eq_zero_iff.mp hcount]
    rw [makeDirectoriesUpTo, ← hpath]
    exact (orPresent_of_present h).2
  | succ count =>
    have hpath : path.upTo (count + 1) = path := by rw [← hcount, upTo_length]
    obtain ⟨hmake, hout⟩ := orPresent_of_present h
    rw [makeDirectoriesUpTo_of_ne (by rw [hpath, hmake]; simp), hpath]
    exact hout

/-! ### New directories -/

/-- Every name of the path denotes a node of its own. -/
def IsPlain (path : Path) : Prop :=
  ∀ name ∈ path.names, name ≠ "." ∧ name ≠ ".."

/-- A directory that is made at once is new, or it was there. -/
lemma orPresent_new (h : (orPresent path tree (tree.makeDirectory path)).1 = none) :
    ((orPresent path tree (tree.makeDirectory path)).2 = tree ∧
      ∃ place, tree.locate true path = .ok ⟨place, some .directory⟩) ∨
    ∃ place, (orPresent path tree (tree.makeDirectory path)).2.locate true path =
      .ok ⟨place, some .directory⟩ ∧ tree.node? place = none := by
  obtain ⟨changed, hmake, hout⟩ | ⟨fault, -, -, hdir, hout⟩ | ⟨fault, _, -, hout⟩ :=
    orPresent_cases path tree (tree.makeDirectory path)
  · obtain ⟨place, hplace, rfl⟩ := makeDirectory_ok hmake
    rw [hout]
    exact .inr ⟨place, locate_set_directory hplace, (locate_eq_ok_iff.mp hplace).2.node_eq.symm⟩
  · rw [hout]
    exact .inl ⟨rfl, isDirectory_eq_true_iff.mp hdir⟩
  · rw [hout] at h
    cases h

/-- A directory on a path without dots that is found in a new directory is new itself. -/
lemma new_of_parent_new {grown : FileTree} {count : Nat} {above : Place} (sound : tree.Sound)
    (plain : IsPlain path) (more : Grown tree grown)
    (parent : grown.locate true (path.upTo count) = .ok ⟨above, some .directory⟩)
    (new : tree.node? above = none)
    (located : grown.locate true (path.upTo (count + 1)) = .ok ⟨place, some .directory⟩) :
    tree.node? place = none := by
  by_cases hlen : count < path.names.length
  · have hname := plain path.names[count] (List.getElem_mem hlen)
    have hbelow : tree.node? (above ++ [path.names[count]]) = none :=
      sound.below (by simp [new]) (by simp)
    have hpath : path.upTo (count + 1) =
        ⟨(path.upTo count).anchor, (path.upTo count).names ++ [path.names[count]]⟩ := by
      simp only [Path.upTo, List.take_add_one, List.getElem?_eq_getElem hlen, Option.toList_some]
    rw [hpath] at located
    rw [place_of_child parent located hname.1 hname.2 (more.not_link hbelow)]
    exact hbelow
  · -- the path has come to its end
    have hsame : path.upTo (count + 1) = path.upTo count := by
      rw [Path.upTo, Path.upTo, List.take_of_length_le (by omega),
        List.take_of_length_le (by omega)]
    rw [hsame, parent, Except.ok.injEq, Found.mk.injEq] at located
    exact located.1 ▸ new

/-- The end of the work on a path without dots: the directory was there, or it is
new. -/
lemma makeDirectoriesUpTo_new (sound : tree.Sound) (plain : IsPlain path) (count : Nat)
    (h : (makeDirectoriesUpTo path count tree).1 = none) :
    ((makeDirectoriesUpTo path count tree).2 = tree ∧
      ∃ place, tree.locate true (path.upTo count) = .ok ⟨place, some .directory⟩) ∨
    ∃ place, (makeDirectoriesUpTo path count tree).2.locate true (path.upTo count) =
      .ok ⟨place, some .directory⟩ ∧ tree.node? place = none := by
  induction count with
  | zero =>
    simp only [makeDirectoriesUpTo, Path.upTo, List.take_zero] at h ⊢
    exact orPresent_new h
  | succ count ih =>
    by_cases hnot : tree.makeDirectory (path.upTo (count + 1)) = .error .notFound
    · rw [makeDirectoriesUpTo_of_notFound hnot] at h ⊢
      split at h
      · next hcount =>
        rw [if_pos hcount]
        have hgrown := (makeDirectoriesUpTo_made path count tree).grown
        rcases ih hcount with ⟨heq, _⟩ | ⟨above, habove, hmissing⟩
        · rw [heq, hnot] at h
          cases h
        · generalize (makeDirectoriesUpTo path count tree).2 = grown at *
          rcases orPresent_new h with ⟨heq, place, hplace⟩ | ⟨place, hplace, hnew⟩
          · rw [heq]
            exact .inr ⟨place, hplace,
              new_of_parent_new sound plain hgrown habove hmissing hplace⟩
          · exact .inr ⟨place, hplace, hgrown.of_none hnew⟩
      · next hcount => exact absurd h hcount
    · rw [makeDirectoriesUpTo_of_ne hnot] at h ⊢
      exact orPresent_new h

/-- After the making of the directories of a path without dots the last one was there
before and nothing has changed, or it is new. -/
lemma makeDirectories_new (sound : tree.Sound) (plain : IsPlain path)
    (h : (tree.makeDirectories path).1 = none) :
    ((tree.makeDirectories path).2 = tree ∧
      ∃ place, tree.locate true path = .ok ⟨place, some .directory⟩) ∨
    ∃ place, (tree.makeDirectories path).2.locate true path = .ok ⟨place, some .directory⟩ ∧
      tree.node? place = none := by
  simpa only [makeDirectories, upTo_length] using makeDirectoriesUpTo_new sound plain _ h

/-- From a new directory a path without dots leads further down. -/
lemma Leads.prefix_of_new (h : Leads tree' follow links place names found)
    (grown : Grown tree tree') (sound : tree.Sound) (new : tree.node? place = none)
    (plain : ∀ name ∈ names, name ≠ "." ∧ name ≠ "..") : place <+: found.place := by
  induction h with
  | here => exact List.prefix_refl _
  | stay => exact absurd rfl (plain "." (by simp)).1
  | up => exact absurd rfl (plain ".." (by simp)).2
  | last => exact List.prefix_append _ _
  | @enter _ place name names found _ _ _ _ _ ih =>
    have hbelow : tree.node? (place ++ [name]) = none := sound.below (by simp [new]) (by simp)
    exact (List.prefix_append _ _).trans (ih hbelow fun n hn => plain n (by simp [hn]))
  | @jump _ place name _ _ _ _ _ link =>
    have hbelow : tree.node? (place ++ [name]) = none := sound.below (by simp [new]) (by simp)
    exact absurd link (grown.not_link hbelow _)

/-- The new directories of a path without dots lie above the last one. -/
lemma Grown.prefix_of_new {p : Place} {count : Nat} (grown : Grown tree tree')
    (sound : tree.Sound) (plain : IsPlain path) (new : tree.node? p = none)
    (located : tree'.locate true (path.upTo count) = .ok ⟨p, some .directory⟩)
    (last : tree'.locate true path = .ok ⟨place, some .directory⟩) : p <+: place := by
  obtain ⟨-, hleads⟩ := locate_eq_ok_iff.mp located
  obtain ⟨-, hlast⟩ := locate_eq_ok_iff.mp last
  obtain ⟨fewer, hfewer⟩ := hleads.append rfl
  have hnames : path.names = (path.upTo count).names ++ path.names.drop count :=
    (List.take_append_drop count path.names).symm
  by_cases hnil : path.names.drop count = []
  · rw [hnil, List.append_nil] at hnames
    rw [hnames] at hlast
    have := hleads.unique hlast
    rw [Found.mk.injEq] at this
    exact this.1 ▸ List.prefix_refl _
  · rw [hnames] at hlast
    exact ((hfewer true _ _ hnil).mp hlast).prefix_of_new grown sound new fun name hname =>
      plain name (List.mem_of_mem_drop hname)

end FileTree

end Scaffold.Files
