import Scaffold.Proofs.Files.Faults
import Scaffold.Proofs.Files.Linkless
import Scaffold.Proofs.Files.PathText

/-!
What lies below a directory.

A path below a root is the root with more names behind it. In a tree without links these names
alone say where it leads, so that the paths listed below a directory are those of all its nodes,
each of them once.

* `Path.extended`: a path below another one.
* `FileTree.Ordinary`: trees whose nodes can be told by their paths.
* `locate_extended_iff`, `locate_extended`: where such a path leads; `node?_of_isFile`,
  `exists_isFile`: whether a file is found there.
* `mem_allEntriesOf_iff`, `nodup_allEntriesOf`: the paths below a directory.
* `comesBefore_total`, `comesBefore_trans`: the order of paths; `pairwise_sort`: paths in their
  order.
-/

namespace Scaffold.Files

/-! ### The order of paths -/

namespace Path

lemma namesLE_cons_iff {a b : String} {as bs : List String} :
    namesLE (a :: as) (b :: bs) = true ↔ a < b ∨ a = b ∧ namesLE as bs = true := by
  rw [namesLE]
  by_cases h : a = b
  · subst h
    simp only [beq_self_eq_true, if_true, String.lt_irrefl, true_and, false_or]
  · simp [h]

lemma namesLE_total (as bs : List String) : namesLE as bs = true ∨ namesLE bs as = true := by
  induction as generalizing bs with
  | nil => exact .inl rfl
  | cons a as ih =>
    cases bs with
    | nil => exact .inr rfl
    | cons b bs =>
      rw [namesLE_cons_iff, namesLE_cons_iff]
      by_cases hab : a < b
      · exact .inl (.inl hab)
      by_cases hba : b < a
      · exact .inr (.inl hba)
      · have heq : a = b := String.le_antisymm hba hab
        exact (ih bs).imp (fun h => .inr ⟨heq, h⟩) fun h => .inr ⟨heq.symm, h⟩

lemma namesLE_trans {as bs cs : List String} (h : namesLE as bs = true)
    (h' : namesLE bs cs = true) : namesLE as cs = true := by
  induction as generalizing bs cs with
  | nil => rfl
  | cons a as ih =>
    cases bs with
    | nil => cases h
    | cons b bs =>
      cases cs with
      | nil => cases h'
      | cons c cs =>
        rw [namesLE_cons_iff] at h h' ⊢
        rcases h with hab | ⟨rfl, has⟩
        · rcases h' with hbc | ⟨rfl, -⟩
          · exact .inl (String.lt_trans hab hbc)
          · exact .inl hab
        · exact h'.imp_right fun ⟨hac, hbs⟩ => ⟨hac, ih has hbs⟩

lemma comesBefore_total (p q : Path) : (p.comesBefore q || q.comesBefore p) = true := by
  rw [Bool.or_eq_true]
  exact namesLE_total _ _

lemma comesBefore_trans (p q r : Path) (h : p.comesBefore q = true)
    (h' : q.comesBefore r = true) : p.comesBefore r = true :=
  namesLE_trans h h'

/-- Sorted paths stand in their order. -/
lemma pairwise_sort (paths : List Path) :
    (sort paths).Pairwise fun p q => p.comesBefore q = true :=
  List.pairwise_mergeSort comesBefore_trans comesBefore_total paths

lemma sort_perm (paths : List Path) : (sort paths).Perm paths :=
  List.mergeSort_perm paths comesBefore

/-! ### Paths below a root -/

/-- A location below a path. -/
def extended (root : Path) (location : List String) : Path :=
  ⟨root.anchor, root.names ++ location⟩

instance (name : String) : Decidable (IsName name) :=
  inferInstanceAs (Decidable (name ≠ "" ∧ name ≠ "." ∧ '/' ∉ name.toList))

lemma extended_inj {root : Path} {names names' : List String} :
    root.extended names = root.extended names' ↔ names = names' := by
  simp [extended]

end Path

namespace FileTree

variable {tree : FileTree} {root path : Path} {place : Place} {names : List String} {found : Found}

/-- A tree that hangs together and has no links, in which every name is one that a directory can
hold and a path can name. -/
structure Ordinary (tree : FileTree) : Prop where
  /-- The tree hangs together. -/
  sound : tree.Sound
  /-- There are no links. -/
  noLinks : tree.NoLinks
  /-- A directory can hold every name. -/
  fits : ∀ p, tree.node? p ≠ none → Fits p
  /-- A path can name it. -/
  names : ∀ p, tree.node? p ≠ none → ∀ name ∈ p, Path.IsName name

/-- The list of nodes shows that every name is one that a directory can hold. -/
lemma ordinary_of_nodes (sound : tree.Sound) (noLinks : tree.NoLinks)
    (nodes : ∀ entry ∈ tree.nodes, ∀ name ∈ entry.1, IsEntry name ∧ Path.IsName name) :
    tree.Ordinary := by
  have hnames : ∀ p, tree.node? p ≠ none → ∀ name ∈ p, IsEntry name ∧ Path.IsName name := by
    intro p hp
    obtain ⟨node, hnode⟩ := Option.ne_none_iff_exists'.mp hp
    rcases mem_nodes_of_node? hnode with ⟨rfl, -⟩ | hlisted
    · simp
    · exact nodes _ hlisted
  exact ⟨sound, noLinks, fun p hp name hname => (hnames p hp name hname).1,
    fun p hp name hname => (hnames p hp name hname).2⟩

/-- The names of what is there are no dots. -/
lemma Ordinary.plain (ordinary : tree.Ordinary) (h : tree.node? (place ++ names) ≠ none)
    {name : String} (hname : name ∈ names) : Path.IsName name ∧ name ≠ ".." :=
  ⟨ordinary.names _ h name (List.mem_append_right place hname),
    (ordinary.fits _ h name (List.mem_append_right place hname)).ne_up⟩

section Located

variable (ordinary : tree.Ordinary) (located : tree.locate true root = .ok ⟨place, some .directory⟩)

include ordinary located

/-- A path below a directory leads where its names say. -/
lemma locate_extended_iff (ne : names ≠ [])
    (plain : ∀ name ∈ names, Path.IsName name ∧ name ≠ "..") :
    tree.locate true (root.extended names) = .ok found ↔
      (root.extended names).holdsZero = false ∧
        found = ⟨place ++ names, tree.node? (place ++ names)⟩ ∧ Fits names ∧
        ∀ k < names.length, tree.node? (place ++ names.take k) = some .directory := by
  obtain ⟨-, hleads⟩ := locate_eq_ok_iff.mp located
  obtain ⟨fewer, hfewer⟩ := hleads.append rfl
  have hdots : ∀ name ∈ names, name ≠ "." ∧ name ≠ ".." :=
    fun name hname => ⟨(plain name hname).1.2.1, (plain name hname).2⟩
  have hstart : tree.start (root.extended names) = tree.start root := rfl
  rw [locate_eq_ok_iff, hstart, ← leads_iff_of_noLinks ordinary.noLinks hdots,
    ← hfewer true names found ne]
  rfl

/-- What is there is found by its path, unless the character zero occurs in it. -/
lemma locate_extended (ne : names ≠ []) (there : tree.node? (place ++ names) ≠ none)
    (zero : (root.extended names).holdsZero = false) :
    tree.locate true (root.extended names) =
      .ok ⟨place ++ names, tree.node? (place ++ names)⟩ := by
  have hplain : ∀ name ∈ names, Path.IsName name ∧ name ≠ ".." :=
    fun name hname => ordinary.plain there hname
  refine (locate_extended_iff ordinary located ne hplain).mpr ⟨zero, rfl, fun name hname => ?_,
    fun k hk => ?_⟩
  · exact ordinary.fits _ there name (List.mem_append_right place hname)
  · obtain ⟨node, hnode⟩ := Option.ne_none_iff_exists'.mp there
    rw [← List.take_append_drop k names, ← List.append_assoc] at hnode
    exact ordinary.sound.above hnode (by simpa using hk)

/-- A path below a directory at which a file is found denotes a node of the tree. -/
lemma node?_of_isFile (ne : names ≠ []) (plain : ∀ name ∈ names, Path.IsName name ∧ name ≠ "..")
    (h : tree.isFile (root.extended names) = .ok true) : tree.node? (place ++ names) ≠ none := by
  obtain ⟨p, contents, hlocate⟩ := isFile_eq_true_iff.mp h
  obtain ⟨-, hfound, -⟩ := (locate_extended_iff ordinary located ne plain).mp hlocate
  have hnode : some (Node.file contents) = tree.node? (place ++ names) := congrArg Found.node hfound
  rw [← hnode]
  simp

/-- Whether what is there is a file can be told from its path. -/
lemma exists_isFile (ne : names ≠ []) (there : tree.node? (place ++ names) ≠ none) :
    ∃ answer, tree.isFile (root.extended names) = .ok answer := by
  cases hanswer : tree.isFile (root.extended names) with
  | ok answer => exact ⟨answer, rfl⟩
  | error fault =>
    obtain ⟨-, hstat⟩ := holds_eq_error_iff.mp hanswer
    rw [stat_eq_error_iff_of_ne (by simp)] at hstat
    cases hzero : (root.extended names).holdsZero with
    | true =>
      rw [locate_eq_zero_iff.mpr hzero] at hstat
      cases hstat
    | false =>
      rw [locate_extended ordinary located ne there hzero] at hstat
      cases hstat

omit ordinary in
/-- The paths below a directory are those of the nodes in it. -/
lemma mem_allEntriesOf_iff :
    path ∈ tree.allEntriesOf root ↔
      ∃ names, names ≠ [] ∧ tree.node? (place ++ names) ≠ none ∧ path = root.extended names := by
  rw [allEntriesOf, located]
  simp only [List.mem_map, mem_below_iff]
  constructor
  · rintro ⟨q, ⟨⟨names, rfl⟩, hne, hnode⟩, rfl⟩
    exact ⟨names, by simpa using hne, hnode, by simp [Path.extended]⟩
  · rintro ⟨names, hne, hnode, rfl⟩
    exact ⟨place ++ names, ⟨List.prefix_append _ _, by simpa using hne, hnode⟩,
      by simp [Path.extended]⟩

/-- Every path below a directory is listed once. -/
lemma nodup_allEntriesOf : (tree.allEntriesOf root).Nodup := by
  rw [allEntriesOf, located]
  refine List.Nodup.map_on ?_ (ordinary.sound.distinct.filter _)
  intro p hp q hq heq
  obtain ⟨⟨names, rfl⟩, -⟩ := mem_below_iff.mp hp
  obtain ⟨⟨names', rfl⟩, -⟩ := mem_below_iff.mp hq
  simpa using heq

end Located

end FileTree

end Scaffold.Files
