import Scaffold.Proofs.Files.Linkless
import Scaffold.Proofs.Outcome

/-!
Changes elsewhere in the tree.

A node that is put at a place or taken away from it changes the times of this place and of
the directory around it, and the list of nodes at this place. So a region of a tree stays as
it is, with the times and the order of its nodes, while nothing happens at its places or
directly inside them.

* `SameOn`: a region of a tree stays as it is.
* `Clear`: a path with which the region has nothing to do.
* `sameOn_write`, `sameOn_append`, `sameOn_delete`, `sameOn_rename`, `sameOn_makeDirectories`:
  operations on clear paths.
* `sameOn_performAll`, `sameOn_atomicWrite`: steps one after another.
-/

namespace Scaffold.Files.FileTree

variable {region : Place → Bool} {tree tree' tree'' : FileTree} {p : Place} {path : Path}
  {contents : Bytes}

/-- A region of a tree stays as it is, and the tree stays free of links. -/
structure SameOn (region : Place → Bool) (tree tree' : FileTree) : Prop where
  /-- Relative paths start at the same place. -/
  workplace : tree'.workplace = tree.workplace
  /-- No link is new. -/
  noLinks : tree.NoLinks → tree'.NoLinks
  /-- The nodes of the region are the same, in the same order. -/
  nodes : tree'.nodes.filter (fun entry => region entry.1) =
    tree.nodes.filter fun entry => region entry.1
  /-- Their times are the same. -/
  times : ∀ p, region p = true → tree'.time p = tree.time p

lemma SameOn.refl (region : Place → Bool) (tree : FileTree) : SameOn region tree tree :=
  ⟨rfl, id, rfl, fun _ _ => rfl⟩

lemma SameOn.trans (h : SameOn region tree tree') (h' : SameOn region tree' tree'') :
    SameOn region tree tree'' :=
  ⟨h'.workplace.trans h.workplace, h'.noLinks ∘ h.noLinks, h'.nodes.trans h.nodes,
    fun p hp => (h'.times p hp).trans (h.times p hp)⟩

/-! ### Single places -/

lemma filter_update {α : Type} (out : region p = false) (value : α) (entries : List (Place × α)) :
    (update p value entries).filter (fun entry => region entry.1) =
      entries.filter fun entry => region entry.1 := by
  induction entries with
  | nil => simp [update, out]
  | cons entry entries ih =>
    rw [update]
    split
    · next h => simp [h, out]
    · rw [List.filter_cons, List.filter_cons, ih]

lemma filter_discard {α : Type} (out : region p = false) (entries : List (Place × α)) :
    (discard p entries).filter (fun entry => region entry.1) =
      entries.filter fun entry => region entry.1 := by
  rw [discard, List.filter_filter]
  refine List.filter_congr fun entry _ => ?_
  by_cases h : entry.1 = p <;> simp [h, out]

lemma ne_of_region {q : Place} (out : region p = false) (hq : region q = true) : q ≠ p := by
  rintro rfl
  exact absurd hq (ne_true_of_eq_false out)

/-- The time of a place outside does not matter. -/
lemma sameOn_touch (out : region p = false) (tree : FileTree) : SameOn region tree (tree.touch p) :=
  ⟨rfl, id, rfl, fun q hq => by
    rw [time, time, touch, find?_update_of_ne (ne_of_region out hq)]⟩

/-- A place is outside a region, and so is the directory around it. -/
def IsOut (region : Place → Bool) (p : Place) : Prop :=
  region p = false ∧ region p.dropLast = false

/-- A node is put at a place outside. -/
lemma sameOn_set (out : IsOut region p) {node : Node} (plain : ∀ target, node ≠ .link target)
    (tree : FileTree) : SameOn region tree (tree.set p node) := by
  have hplain : tree.NoLinks → NoLinks { tree with nodes := update p node tree.nodes } := by
    intro noLinks q target
    by_cases hroot : q = []
    · simp [node?, hroot]
    by_cases hq : q = p
    · subst hq
      simpa [node?, hroot, find?_update_self] using plain target
    · simpa [node?, find?_update_of_ne hq] using noLinks q target
  have hnode : SameOn region tree { tree with nodes := update p node tree.nodes } :=
    ⟨rfl, hplain, filter_update out.1 node tree.nodes, fun _ _ => rfl⟩
  rw [set]
  split_ifs
  · exact (hnode.trans (sameOn_touch out.1 _)).trans (sameOn_touch out.2 _)
  · exact hnode.trans (sameOn_touch out.1 _)

/-- A node is taken away from a place outside. -/
lemma sameOn_remove (out : IsOut region p) (tree : FileTree) :
    SameOn region tree (tree.remove p) := by
  have hnode : SameOn region tree
      { tree with nodes := discard p tree.nodes, times := discard p tree.times } := by
    refine ⟨rfl, fun noLinks q target => ?_, filter_discard out.1 tree.nodes, fun q hq => ?_⟩
    · by_cases hq : q = p
      · by_cases hroot : q = [] <;> simp [node?, hroot, hq, find?_discard_self]
      · simpa [node?, find?_discard_of_ne hq] using noLinks q target
    · rw [time, time, find?_discard_of_ne (ne_of_region out.1 hq)]
  exact hnode.trans (sameOn_touch out.2 _)

/-! ### Operations -/

/-- The goal of a path is outside a region. -/
def Clear (region : Place → Bool) (tree : FileTree) (path : Path) : Prop :=
  IsOut region (tree.goal path)

lemma SameOn.clear (h : SameOn region tree tree') (clear : Clear region tree path) :
    Clear region tree' path := by
  rwa [Clear, goal_congr h.workplace]

section Operations

variable (noLinks : tree.NoLinks) (clear : Clear region tree path)

include noLinks clear

lemma sameOn_write (h : tree.write path contents = .ok tree') : SameOn region tree tree' := by
  obtain ⟨place, hplace, -, rfl⟩ := write_eq_ok_iff.mp h
  rw [Clear, ← place_of_locate noLinks hplace] at clear
  exact sameOn_set clear (by simp) tree

lemma sameOn_append (h : tree.append path contents = .ok tree') : SameOn region tree tree' := by
  rw [FileTree.append] at h
  obtain ⟨found, hfound, h⟩ := bind_eq_ok_iff.mp h
  rw [Clear, ← place_of_locate noLinks hfound] at clear
  split at h
  · cases h
    exact sameOn_set clear (by simp) tree
  · cases h
  · cases h
  · cases h

lemma sameOn_delete (h : tree.delete path = .ok tree') : SameOn region tree tree' := by
  rw [FileTree.delete] at h
  obtain ⟨found, hfound, h⟩ := bind_eq_ok_iff.mp h
  rw [Clear, ← place_of_locate noLinks hfound] at clear
  split at h
  · cases h
  · cases h
    exact sameOn_remove clear tree
  · cases h

lemma sameOn_rename {source : Path} (clear' : Clear region tree source)
    (h : tree.rename source path = .ok tree') : SameOn region tree tree' := by
  rw [FileTree.rename] at h
  obtain ⟨found, hfound, h⟩ := bind_eq_ok_iff.mp h
  obtain ⟨goal, hgoal, h⟩ := bind_eq_ok_iff.mp h
  rw [Clear, ← place_of_locate noLinks hfound] at clear'
  rw [Clear, ← place_of_locate noLinks hgoal] at clear
  split at h
  · cases h
  · cases h
  · next node hnode _ =>
    cases h
    refine (sameOn_remove clear' tree).trans (sameOn_set clear (fun target htarget => ?_) _)
    rw [htarget] at hnode
    exact noLinks _ target ((locate_eq_ok_iff.mp hfound).2.node_eq ▸ hnode)

lemma sameOn_makeDirectory (h : tree.makeDirectory path = .ok tree') :
    SameOn region tree tree' := by
  obtain ⟨place, hplace, rfl⟩ := makeDirectory_ok h
  rw [Clear, ← place_of_locate noLinks hplace] at clear
  exact sameOn_set clear (by simp) tree

lemma sameOn_dropTemporary : SameOn region tree (tree.dropTemporary path) := by
  rw [dropTemporary]
  split
  · next h => exact sameOn_delete noLinks clear h
  · exact .refl region tree

end Operations

/-- The directories of a path are made when those in the region are there already. -/
lemma sameOn_makeDirectories (noLinks : tree.NoLinks)
    (way : ∀ count ≤ path.names.length,
      tree.node? (tree.goal (path.upTo count)) = some .directory ∨
        Clear region tree (path.upTo count)) :
    SameOn region tree (tree.makeDirectories path).2 := by
  have hall : SameOn region tree (tree.makeDirectories path).2 ∧
      ∀ p, tree.node? p = some .directory →
        (tree.makeDirectories path).2.node? p = some .directory := by
    refine makeDirectories_induction (motive := fun grown => SameOn region tree grown ∧
      ∀ p, tree.node? p = some .directory → grown.node? p = some .directory) path ?_
      ⟨.refl region tree, fun _ => id⟩
    rintro grown count place hcount ⟨hsame, hkept⟩ hplace
    have hgoal : place = tree.goal (path.upTo count) :=
      (place_of_locate (hsame.noLinks noLinks) hplace).trans (goal_congr hsame.workplace _)
    have hnone := node?_of_locate hplace
    rcases way count hcount with hdir | hclear
    · rw [hgoal, hkept _ hdir] at hnone
      cases hnone
    · refine ⟨hsame.trans (sameOn_set (hgoal ▸ hclear) (by simp) grown), fun p hp => ?_⟩
      rw [node?_set_of_ne]
      · exact hkept p hp
      · rintro rfl
        rw [hkept _ hp] at hnone
        cases hnone
  exact hall.1

/-! ### Steps -/

/-- The paths of a step that is no more than one operation. -/
def StepClear (region : Place → Bool) (tree : FileTree) : Step → Prop
  | .ensureDirectory path => ∀ count, Clear region tree (path.upTo count)
  | .makeDirectory path => Clear region tree path
  | .create path => Clear region tree path
  | .append path _ => Clear region tree path
  | .sync _ => True
  | .replace source target => Clear region tree source ∧ Clear region tree target

lemma SameOn.stepClear (h : SameOn region tree tree') {step : Step}
    (clear : StepClear region tree step) : StepClear region tree' step := by
  cases step with
  | ensureDirectory path => exact fun count => h.clear (clear count)
  | makeDirectory path | create path | append path => exact h.clear clear
  | sync path => trivial
  | replace source target => exact ⟨h.clear clear.1, h.clear clear.2⟩

lemma sameOn_settle {result : Except Fault FileTree}
    (h : ∀ changed, result = .ok changed → SameOn region tree changed) :
    SameOn region tree (tree.settle result).2 := by
  cases result with
  | ok changed => exact h changed rfl
  | error fault => exact .refl region tree

/-- **A step** on clear paths. -/
lemma sameOn_perform (noLinks : tree.NoLinks) {step : Step} (clear : StepClear region tree step) :
    SameOn region tree (tree.perform step).2 := by
  cases step with
  | ensureDirectory path => exact sameOn_makeDirectories noLinks fun count _ => .inr (clear count)
  | makeDirectory path => exact sameOn_settle fun _ => sameOn_makeDirectory noLinks clear
  | create path => exact sameOn_settle fun _ => sameOn_write noLinks clear
  | append path contents => exact sameOn_settle fun _ => sameOn_append noLinks clear
  | sync path => exact .refl region tree
  | replace source target => exact sameOn_settle fun _ => sameOn_rename noLinks clear.2 clear.1

/-- **Steps one after another**, up to the first that fails. -/
lemma sameOn_performAll (noLinks : tree.NoLinks) {steps : List Step}
    (clear : ∀ step ∈ steps, StepClear region tree step) :
    SameOn region tree (tree.performAll steps).2 := by
  induction steps generalizing tree with
  | nil => exact .refl region tree
  | cons step steps ih =>
    have hfirst := sameOn_perform noLinks (clear step (by simp))
    rw [performAll]
    cases hperform : tree.perform step with
    | mk fault next =>
      rw [hperform] at hfirst
      cases fault with
      | some fault => exact hfirst
      | none =>
        exact hfirst.trans (ih (hfirst.noLinks noLinks) fun other hother =>
          hfirst.stepClear (clear other (by simp [hother])))

/-- A file gets its contents all at once, or it does not. -/
lemma sameOn_atomicWrite {final : Path} {label token : String} (noLinks : tree.NoLinks)
    (clear : Clear region tree final)
    (temporary : Clear region tree (temporaryPath final label token)) (contents : Bytes) :
    SameOn region tree (tree.atomicWrite final contents label token).2 := by
  have hsteps : ∀ step ∈ atomicSteps final (temporaryPath final label token) [contents],
      StepClear region tree step := by
    simp only [atomicSteps, List.map_cons, List.map_nil, List.cons_append, List.nil_append,
      List.forall_mem_cons]
    exact ⟨temporary, temporary, trivial, ⟨temporary, clear⟩, trivial, by simp⟩
  have hall := sameOn_performAll noLinks hsteps
  rw [atomicWrite]
  cases hperform : tree.performAll (atomicSteps final (temporaryPath final label token) [contents])
    with
  | mk fault left =>
    rw [hperform] at hall
    cases fault with
    | none => exact hall
    | some fault =>
      exact hall.trans (sameOn_dropTemporary (hall.noLinks noLinks) (hall.clear temporary))

end Scaffold.Files.FileTree
