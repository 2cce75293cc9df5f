import Scaffold.Proofs.Files.Growth

/-!
Reading and writing files.

A place that holds a file or nothing can get contents. Giving it contents, or
emptying it, keeps every directory and every link, so every path leads where it led.

* `Vacant`: places that hold a file or nothing.
* `read_eq_ok_iff`, `write_eq_ok_iff`: what reading and writing do.
* `Keeps.set_file`, `Keeps.remove`: changes of one place that keep all ways.
* `contents?_set`, `contents?_remove`: what they do to the contents of all places.
-/

namespace Scaffold.Files

namespace FileTree

variable {tree tree' : FileTree} {follow : Bool} {place p : Place} {path : Path}
  {contents : Bytes}

/-! ### Places for contents -/

/-- A place that holds a file or nothing. -/
def Vacant (tree : FileTree) (p : Place) : Prop :=
  tree.node? p = none ∨ ∃ contents, tree.node? p = some (.file contents)

lemma Vacant.ne_nil (h : tree.Vacant p) : p ≠ [] := by
  rintro rfl
  simp [Vacant] at h

lemma Vacant.not_directory (h : tree.Vacant p) : tree.node? p ≠ some .directory := by
  rcases h with h | ⟨contents, h⟩ <;> simp [h]

lemma Vacant.not_link (h : tree.Vacant p) (target : String) :
    tree.node? p ≠ some (.link target) := by
  rcases h with h | ⟨contents, h⟩ <;> simp [h]

/-- A file that is put somewhere leaves everything vacant that was. -/
lemma Vacant.set {q : Place} (h : tree.Vacant q) (ne : p ≠ []) (contents : Bytes) :
    (tree.set p (.file contents)).Vacant q := by
  rw [Vacant, node?_set ne]
  split
  · exact .inr ⟨contents, rfl⟩
  · exact h

lemma Vacant.remove {q : Place} (h : tree.Vacant q) (ne : p ≠ []) : (tree.remove p).Vacant q := by
  rw [Vacant, node?_remove ne]
  split
  · exact .inl rfl
  · exact h

/-- A file at a vacant place keeps all directories and links. -/
lemma Keeps.set_file (vacant : tree.Vacant p) (contents : Bytes) :
    Keeps tree (tree.set p (.file contents)) where
  workplace := workplace_set _ _ _
  directory q hq := by
    have hne : q ≠ p := fun heq => vacant.not_directory (heq ▸ hq)
    rw [node?_set_of_ne hne, hq]
  link q target := by
    rw [node?_set vacant.ne_nil]
    split
    · next hq =>
      rw [hq]
      simpa using vacant.not_link target
    · exact Iff.rfl

/-- Emptying a vacant place keeps all directories and links. -/
lemma Keeps.remove (vacant : tree.Vacant p) : Keeps tree (tree.remove p) where
  workplace := workplace_remove _ _
  directory q hq := by
    have hne : q ≠ p := fun heq => vacant.not_directory (heq ▸ hq)
    rw [node?_remove_of_ne hne, hq]
  link q target := by
    rw [node?_remove vacant.ne_nil]
    split
    · next hq =>
      rw [hq]
      simpa using vacant.not_link target
    · exact Iff.rfl

/-! ### Contents -/

lemma contents?_eq_some_iff :
    tree.contents? p = some contents ↔ tree.node? p = some (.file contents) := by
  rw [contents?]
  cases hnode : tree.node? p with
  | none => simp
  | some node => cases node <;> simp

/-- A file that is put somewhere changes the contents there. -/
lemma contents?_set (hp : p ≠ []) (contents : Bytes) (q : Place) :
    (tree.set p (.file contents)).contents? q = if q = p then some contents else tree.contents? q := by
  rw [contents?, contents?, node?_set hp]
  by_cases hq : q = p <;> simp [hq]

/-- A removal takes the contents away. -/
lemma contents?_remove (hp : p ≠ []) (q : Place) :
    (tree.remove p).contents? q = if q = p then none else tree.contents? q := by
  rw [contents?, contents?, node?_remove hp]
  by_cases hq : q = p <;> simp [hq]

/-! ### Reading and writing -/

/-- The contents read are those of the file at which the path is located. -/
lemma read_eq_ok_iff :
    tree.read path = .ok contents ↔
      ∃ place, tree.locate true path = .ok ⟨place, some (.file contents)⟩ := by
  rw [read, ← stat_eq_ok_iff]
  cases hstat : tree.stat path with
  | error fault => simp [bind, Except.bind]
  | ok node => cases node <;> simp [bind, Except.bind]

/-- What is located has the node that the tree holds there. -/
lemma node?_of_locate {node : Option Node} (h : tree.locate follow path = .ok ⟨place, node⟩) :
    tree.node? place = node :=
  (locate_eq_ok_iff.mp h).2.node_eq.symm

/-- A directory is located where it was. -/
lemma Keeps.locate_directory (keeps : Keeps tree tree')
    (h : tree.locate follow path = .ok ⟨place, some .directory⟩) :
    tree'.locate follow path = .ok ⟨place, some .directory⟩ := by
  have hlocate := keeps.locate h
  rwa [keeps.directory _ (node?_of_locate h)] at hlocate

/-- Contents are written to the vacant place at which the path is located. -/
lemma write_eq_ok_iff :
    tree.write path contents = .ok tree' ↔
      ∃ place, tree.locate true path = .ok ⟨place, tree.node? place⟩ ∧ tree.Vacant place ∧
        tree' = tree.set place (.file contents) := by
  rw [write]
  cases hfound : tree.locate true path with
  | error fault => simp [bind, Except.bind]
  | ok found =>
    obtain ⟨place, node⟩ := found
    have hnode := node?_of_locate hfound
    subst hnode
    cases hnode : tree.node? place with
    | none =>
      simp only [bind, Except.bind, Except.ok.injEq, Found.mk.injEq]
      constructor
      · rintro rfl
        exact ⟨place, ⟨rfl, hnode.symm⟩, .inl hnode, rfl⟩
      · rintro ⟨place', ⟨rfl, -⟩, -, rfl⟩
        rfl
    | some node =>
      cases node with
      | file before =>
        simp only [bind, Except.bind, Except.ok.injEq, Found.mk.injEq]
        constructor
        · rintro rfl
          exact ⟨place, ⟨rfl, hnode.symm⟩, .inr ⟨before, hnode⟩, rfl⟩
        · rintro ⟨place', ⟨rfl, -⟩, -, rfl⟩
          rfl
      | directory =>
        simp only [bind, Except.bind, reduceCtorEq, Except.ok.injEq, Found.mk.injEq, false_iff]
        rintro ⟨place', ⟨rfl, -⟩, vacant, -⟩
        exact vacant.not_directory hnode
      | link target =>
        simp only [bind, Except.bind, reduceCtorEq, Except.ok.injEq, Found.mk.injEq, false_iff]
        rintro ⟨place', ⟨rfl, -⟩, vacant, -⟩
        exact vacant.not_link target hnode

/-- A file that has been written is located where it was put. -/
lemma locate_set_file (h : tree.locate follow path = .ok ⟨place, tree.node? place⟩)
    (vacant : tree.Vacant place) (contents : Bytes) :
    (tree.set place (.file contents)).locate follow path = .ok ⟨place, some (.file contents)⟩ := by
  have := (Keeps.set_file vacant contents).locate h
  rwa [node?_set_self vacant.ne_nil] at this

/-- What has been written is read back. -/
lemma read_of_write (h : tree.write path contents = .ok tree') : tree'.read path = .ok contents := by
  obtain ⟨place, hplace, vacant, rfl⟩ := write_eq_ok_iff.mp h
  exact read_eq_ok_iff.mpr ⟨place, locate_set_file hplace vacant contents⟩

end FileTree

end Scaffold.Files
