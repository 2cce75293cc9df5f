import Scaffold.Proofs.Files.Contents
import Scaffold.Proofs.Files.Resolving

/-!
Paths in trees without links.

Without links the names of a path alone say where it leads. So a path is resolved to the
same place in all such trees, and whatever is found on its way is at this place.

* `along`, `FileTree.goal`: where names and paths lead.
* `resolve_of_noLinks`: a path is resolved to its goal.
* `place_of_locate`: what is found is at the goal, whether or not links are followed.
* `walkBy_congr`: trees that agree on a directory and everything inside it are walked alike.
-/

namespace Scaffold.Files

/-- The place to which names lead from another one when there are no links. -/
def along (place : Place) (names : List String) : Place :=
  names.foldl (fun place name =>
    if name = "." then place else if name = ".." then place.dropLast else place ++ [name]) place

@[simp] lemma along_nil (place : Place) : along place [] = place := rfl

@[simp] lemma along_dot (place : Place) (names : List String) :
    along place ("." :: names) = along place names := rfl

@[simp] lemma along_up (place : Place) (names : List String) :
    along place (".." :: names) = along place.dropLast names := rfl

lemma along_plain {name : String} (dot : name ≠ ".") (up : name ≠ "..") (place : Place)
    (names : List String) : along place (name :: names) = along (place ++ [name]) names := by
  simp [along, dot, up]

lemma along_append (place : Place) (names more : List String) :
    along place (names ++ more) = along (along place names) more :=
  List.foldl_append

/-- Names that are not dots lead to the place that they name. -/
lemma along_names {names : List String} (plain : ∀ name ∈ names, name ≠ "." ∧ name ≠ "..")
    (place : Place) : along place names = place ++ names := by
  induction names generalizing place with
  | nil => rw [along_nil, List.append_nil]
  | cons name names ih =>
    obtain ⟨hdot, hup⟩ := plain name (by simp)
    rw [along_plain hdot hup, ih fun other hother => plain other (by simp [hother])]
    simp

/-- The last name leads out of a directory or into it, or nowhere. -/
lemma prefix_along {top place : Place} {name : String} (h : top <+: place) (ne : place ≠ top) :
    top <+: along place [name] := by
  by_cases hdot : name = "."
  · rwa [hdot, along_dot, along_nil]
  by_cases hup : name = ".."
  · obtain ⟨rest, rfl⟩ := h
    have hrest : rest ≠ [] := by
      rintro rfl
      exact ne (List.append_nil top)
    rw [hup, along_up, along_nil, List.dropLast_append_of_ne_nil hrest]
    exact List.prefix_append _ _
  · rw [along_plain hdot hup, along_nil]
    exact h.trans (List.prefix_append _ _)

/-- Names that lead strictly below a directory stay in it with one name more. -/
lemma prefix_along_of_dropLast {top place : Place} {names : List String}
    (h : top <+: along place names.dropLast) (ne : along place names.dropLast ≠ top) :
    top <+: along place names := by
  rcases List.eq_nil_or_concat names with rfl | ⟨front, name, rfl⟩
  · exact h
  · rw [List.concat_eq_append, List.dropLast_concat] at h ne
    rw [List.concat_eq_append, along_append]
    exact prefix_along h ne

namespace FileTree

variable {tree tree' : FileTree} {follow : Bool} {links : Nat} {place top : Place}
  {names : List String} {found : Found} {path : Path}
  {inner : Place → Place → List String → Except (List String) Place}

/-- The place of a path by its names alone. -/
def goal (tree : FileTree) (path : Path) : Place :=
  along (tree.start path) path.names

lemma goal_congr (workplace : tree'.workplace = tree.workplace) (path : Path) :
    tree'.goal path = tree.goal path := by
  rw [goal, goal, start, start, workplace]

lemma vacant_of_noLinks {p : Place} (noLinks : tree.NoLinks)
    (file : tree.node? p ≠ some .directory) : tree.Vacant p := by
  cases hnode : tree.node? p with
  | none => exact .inl hnode
  | some node =>
    cases node with
    | file contents => exact .inr ⟨contents, hnode⟩
    | directory => exact absurd hnode file
    | link target => exact absurd hnode (noLinks p target)

/-- Without links a node is known from its contents and whether it is a directory. -/
lemma node?_eq_of_contents {p : Place} (noLinks : tree.NoLinks) (noLinks' : tree'.NoLinks)
    (directory : tree'.node? p = some .directory ↔ tree.node? p = some .directory)
    (contents : tree'.contents? p = tree.contents? p) : tree'.node? p = tree.node? p := by
  by_cases hdir : tree.node? p = some .directory
  · rw [hdir, directory.mpr hdir]
  · rcases vacant_of_noLinks noLinks hdir with hnone | ⟨bytes, hfile⟩
    · rcases vacant_of_noLinks noLinks' (hdir ∘ directory.mp) with hnone' | ⟨bytes', hfile'⟩
      · rw [hnone, hnone']
      · simp [contents?, hnone, hfile'] at contents
    · rw [contents?_eq_some_iff.mpr hfile, contents?_eq_some_iff] at contents
      rw [hfile, contents]

/-! ### Resolution -/

lemma resolveBy_of_noLinks (noLinks : tree.NoLinks) :
    tree.resolveBy inner place names = .ok (along place names) := by
  induction names generalizing place with
  | nil => rfl
  | cons name names ih =>
    by_cases hdot : name = "."
    · rw [hdot, resolveBy_dot, ih, along_dot]
    by_cases hup : name = ".."
    · rw [hup, resolveBy_up, ih, along_up]
    · rw [resolveBy_plain hdot hup (noLinks _), ih, along_plain hdot hup]

/-- **Resolution without links** goes by the names alone. -/
lemma resolve_of_noLinks (noLinks : tree.NoLinks) (zero : path.holdsZero = false) :
    tree.resolve path = .ok (tree.goal path) := by
  rw [resolve, resolveFrom_eq_resolveBy, resolveBy_of_noLinks noLinks, zero]
  rfl

/-! ### Walks -/

lemma place_of_leads (noLinks : tree.NoLinks) (h : Leads tree follow links place names found) :
    found.place = along place names := by
  induction h with
  | here => rfl
  | stay _ _ ih => exact ih
  | up _ _ ih => exact ih
  | last _ entry => rw [along_plain entry.ne_dot entry.ne_up, along_nil]
  | enter _ entry _ _ _ ih => rw [along_plain entry.ne_dot entry.ne_up, ih]
  | jump _ _ link => exact absurd link (noLinks _ _)

/-- What is found is at the goal of its path. -/
lemma place_of_locate (noLinks : tree.NoLinks) (h : tree.locate follow path = .ok found) :
    found.place = tree.goal path :=
  place_of_leads noLinks (locate_eq_ok_iff.mp h).2

/-- What a step finds at a name does not depend on links. -/
lemma walkBy_congr {follow' : Bool} {jump jump' : Place → List String → Except Fault Found}
    (same : ∀ p, top <+: p → tree'.node? p = tree.node? p) (noLinks : tree.NoLinks)
    (inside : top <+: place) (stays : ".." ∈ names → top = []) :
    tree'.walkBy follow' jump' place names = tree.walkBy follow jump place names := by
  induction names generalizing place with
  | nil => rw [walkBy, walkBy, same place inside]
  | cons name names ih =>
    have hrest : ".." ∈ names → top = [] := fun hmem => stays (List.mem_cons_of_mem _ hmem)
    have hnext : top <+: place ++ [name] := inside.trans (List.prefix_append _ _)
    have hinside := ih hnext hrest
    rw [walkBy, walkBy, same place inside, ih inside hrest]
    by_cases hup : name = ".."
    · have houtside : tree'.walkBy follow' jump' place.dropLast names =
          tree.walkBy follow jump place.dropLast names :=
        ih (stays (hup ▸ List.mem_cons_self) ▸ List.nil_prefix) hrest
      simp only [if_pos hup, houtside]
    · simp only [if_neg hup, same _ hnext, hinside]
      cases hnode : tree.node? (place ++ [name]) with
      | none => rfl
      | some node =>
        cases node with
        | file | directory => rfl
        | link target => exact absurd hnode (noLinks _ _)

end FileTree

end Scaffold.Files
