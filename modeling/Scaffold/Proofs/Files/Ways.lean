import Scaffold.Proofs.Files.Contents

/-!
The parts of a way, and changes that no way to a directory notices.

A way to a directory passes through directories and through links that lead to
directories. So it stays the same when something else is changed: when a file comes or
goes, and also when a link that leads to no directory is replaced or removed.

* `Leads.split`: a way is cut behind any of its names; `Leads.same`: its end does not
  depend on how many links are allowed.
* `Named`: every name in a tree is one that a directory can hold; `Named.performAll`:
  the steps of a recording keep it so.
* `makeDirectories_induction`: what every new directory keeps is kept by all of them.
* `SameWays`: two trees with the same ways to directories; `sameWays_of_changed`: a
  place that is no directory has changed.
-/

namespace Scaffold.Files

namespace FileTree

variable {tree tree' tree'' : FileTree} {follow : Bool} {links : Nat} {place p : Place}
  {names : List String} {found : Found} {path : Path}

/-! ### Cutting a way -/

/-- More links may be allowed than there are. -/
lemma Leads.mono (h : Leads tree follow links place names found) {more : Nat}
    (le : links ≤ more) : Leads tree follow more place names found := by
  induction h generalizing more with
  | here => exact .here
  | stay dir _ ih => exact .stay dir (ih le)
  | up dir _ ih => exact .up dir (ih le)
  | last dir entry stop => exact .last dir entry stop
  | enter dir entry ne plain _ ih => exact .enter dir entry ne plain (ih le)
  | jump dir entry link followed _ ih =>
    obtain ⟨fewer, rfl⟩ : ∃ fewer, more = fewer + 1 := ⟨more - 1, by omega⟩
    exact .jump dir entry link followed (ih (by omega))

/-- The end of a way does not depend on how many links are allowed. -/
lemma Leads.same {links' : Nat} {found' : Found} (h : Leads tree follow links place names found)
    (h' : Leads tree follow links' place names found') : found = found' :=
  (h.mono (Nat.le_max_left links links')).unique (h'.mono (Nat.le_max_right links links'))

/-- A way is cut behind some of its names: these lead to a directory, and the others go
on from there. -/
lemma Leads.split {full more : List String} (h : Leads tree follow links place full found)
    (ne : more ≠ []) (cut : full = names ++ more) :
    ∃ fewer directory, Leads tree true links place names ⟨directory, some .directory⟩ ∧
      Leads tree follow fewer directory more found := by
  -- where nothing is cut off, the way starts in the directory
  have hstart : ∀ {links : Nat} {place : Place} {full : List String} {found : Found},
      tree.node? place = some .directory → Leads tree follow links place full found →
      full = [] ++ more → ∃ fewer directory,
        Leads tree true links place [] ⟨directory, some .directory⟩ ∧
          Leads tree follow fewer directory more found := by
    rintro links place full found dir h rfl
    exact ⟨links, place, dir ▸ .here, h⟩
  induction h generalizing names with
  | here => simp [ne] at cut
  | stay dir rest ih =>
    cases names with
    | nil => exact hstart dir (.stay dir rest) cut
    | cons name names =>
      obtain ⟨rfl, rfl⟩ := List.cons.inj cut
      obtain ⟨fewer, directory, hfirst, hrest⟩ := ih rfl
      exact ⟨fewer, directory, .stay dir hfirst, hrest⟩
  | up dir rest ih =>
    cases names with
    | nil => exact hstart dir (.up dir rest) cut
    | cons name names =>
      obtain ⟨rfl, rfl⟩ := List.cons.inj cut
      obtain ⟨fewer, directory, hfirst, hrest⟩ := ih rfl
      exact ⟨fewer, directory, .up dir hfirst, hrest⟩
  | last dir entry stop =>
    cases names with
    | nil => exact hstart dir (.last dir entry stop) cut
    | cons name names =>
      rw [List.cons_append, List.cons.injEq, eq_comm (a := []), List.append_eq_nil_iff] at cut
      exact absurd cut.2.2 ne
  | @enter links place other left found dir entry hleft plain rest ih =>
    cases names with
    | nil => exact hstart dir (.enter dir entry hleft plain rest) cut
    | cons name names =>
      rw [List.cons_append, List.cons.injEq] at cut
      obtain ⟨rfl, rfl⟩ := cut
      by_cases hnil : names = []
      · subst hnil
        have hdir := rest.dir hleft
        exact ⟨links, place ++ [other], hdir ▸ .last dir entry fun _ => plain, rest⟩
      · obtain ⟨fewer, directory, hfirst, hrest⟩ := ih rfl
        exact ⟨fewer, directory, .enter dir entry hnil plain hfirst, hrest⟩
  | @jump links place other left target found dir entry link followed rest ih =>
    cases names with
    | nil => exact hstart dir (.jump dir entry link followed rest) cut
    | cons name names =>
      rw [List.cons_append, List.cons.injEq] at cut
      obtain ⟨rfl, rfl⟩ := cut
      obtain ⟨fewer, directory, hfirst, hrest⟩ := ih (List.append_assoc _ _ _).symm
      exact ⟨fewer, directory, .jump dir entry link (fun _ => rfl) hfirst, hrest⟩

/-- What a single name denotes when its link is not followed. -/
lemma locate_child_unfollowed {directory : Place} {name : String}
    (h : tree.locate true path = .ok ⟨directory, some .directory⟩) (entry : IsEntry name)
    (zero : name.toList.contains '\x00' = false) :
    tree.locate false ⟨path.anchor, path.names ++ [name]⟩ =
      .ok ⟨directory ++ [name], tree.node? (directory ++ [name])⟩ := by
  obtain ⟨hzero, hleads⟩ := locate_eq_ok_iff.mp h
  obtain ⟨fewer, hfewer⟩ := hleads.append rfl
  refine locate_eq_ok_iff.mpr ⟨?_, ?_⟩
  · simp only [Path.holdsZero, List.any_append, Bool.or_eq_false_iff] at hzero ⊢
    exact ⟨hzero, by simpa using zero⟩
  · exact (hfewer false [name] _ (by simp)).mpr (.last hleads.node_eq.symm entry (by simp))

/-! ### Names in a tree -/

/-- Every name in a tree is one that a directory can hold. -/
structure Named (tree : FileTree) : Prop where
  /-- The names on the way to a node. -/
  node : ∀ p, tree.node? p ≠ none → Fits p
  /-- The names of the working directory. -/
  workplace : Fits tree.workplace

/-- A way ends at a place whose names a directory can hold. -/
lemma Leads.fits (h : Leads tree follow links place names found) (start : Fits place) :
    Fits found.place := by
  induction h with
  | here => exact start
  | stay _ _ ih => exact ih start
  | up _ _ ih => exact ih fun name hname => start name (List.dropLast_subset _ hname)
  | last _ entry =>
    intro name hname
    rcases List.mem_append.mp hname with h | h
    · exact start name h
    · rw [List.mem_singleton.mp h]
      exact entry
  | enter _ entry _ _ _ ih =>
    refine ih fun name hname => ?_
    rcases List.mem_append.mp hname with h | h
    · exact start name h
    · rw [List.mem_singleton.mp h]
      exact entry
  | jump _ _ _ _ _ ih =>
    refine ih ?_
    split
    · simp [Fits]
    · exact start

/-- The tree that holds nothing has only names that a directory can hold. -/
lemma named_empty : (empty []).Named := by
  refine ⟨fun p hp => ?_, by simp [empty, Fits]⟩
  by_cases hnil : p = []
  · simp [hnil, Fits]
  · rw [node?, if_neg hnil] at hp
    exact absurd rfl hp

/-- The list of nodes shows that a directory can hold every name. -/
lemma named_of_nodes (nodes : ∀ entry ∈ tree.nodes, Fits entry.1)
    (workplace : Fits tree.workplace) : tree.Named := by
  refine ⟨fun p hp => ?_, workplace⟩
  obtain ⟨node, hnode⟩ := Option.ne_none_iff_exists'.mp hp
  rcases mem_nodes_of_node? hnode with ⟨rfl, -⟩ | hlisted
  · simp [Fits]
  · exact nodes _ hlisted

lemma Named.locate (named : tree.Named) (h : tree.locate follow path = .ok found) :
    Fits found.place := by
  refine (locate_eq_ok_iff.mp h).2.fits ?_
  rw [FileTree.start]
  split
  · simp [Fits]
  · exact named.workplace

lemma Named.set (named : tree.Named) (fits : Fits p) (node : Node) : (tree.set p node).Named where
  node q hq := by
    by_cases heq : q = p
    · exact heq ▸ fits
    · rw [node?_set_of_ne heq] at hq
      exact named.node q hq
  workplace := by
    rw [workplace_set]
    exact named.workplace

lemma Named.remove (named : tree.Named) (p : Place) : (tree.remove p).Named where
  node q hq := by
    by_cases heq : q = p
    · by_cases hnil : p = []
      · simp [heq, hnil, Fits]
      · rw [heq, node?_remove_self hnil] at hq
        exact absurd rfl hq
    · rw [node?_remove_of_ne heq] at hq
      exact named.node q hq
  workplace := named.workplace

/-- What every new directory keeps is kept by the making of all directories of a path. -/
lemma makeDirectories_induction {motive : FileTree → Prop} (path : Path)
    (new : ∀ tree count place, count ≤ path.names.length → motive tree →
      tree.locate false (path.upTo count) = .ok ⟨place, none⟩ → motive (tree.set place .directory))
    (h : motive tree) : motive (tree.makeDirectories path).2 := by
  have hpresent : ∀ (tree : FileTree) (count : Nat), count ≤ path.names.length → motive tree →
      motive (orPresent (path.upTo count) tree (tree.makeDirectory (path.upTo count))).2 := by
    intro tree count hcount h
    obtain ⟨changed, hmake, hout⟩ | ⟨_, -, -, -, hout⟩ | ⟨_, _, -, hout⟩ :=
      orPresent_cases (path.upTo count) tree (tree.makeDirectory (path.upTo count))
    · obtain ⟨place, hplace, rfl⟩ := makeDirectory_ok hmake
      rw [hout]
      exact new tree count place hcount h hplace
    · rw [hout]
      exact h
    · rw [hout]
      exact h
  rw [makeDirectories]
  generalize hall : path.names.length = all
  have hle : ∀ count, count ≤ all → motive (makeDirectoriesUpTo path count tree).2 := by
    intro count
    induction count with
    | zero => exact fun _ => hpresent tree 0 (Nat.zero_le _) h
    | succ count ih =>
      intro hcount
      have hgrown := ih (Nat.le_of_succ_le hcount)
      by_cases hnot : tree.makeDirectory (path.upTo (count + 1)) = .error .notFound
      · rw [makeDirectoriesUpTo_of_notFound hnot]
        split
        · exact hpresent _ _ (hall ▸ hcount) hgrown
        · exact hgrown
      · rw [makeDirectoriesUpTo_of_ne hnot]
        exact hpresent tree _ (hall ▸ hcount) h
  exact hle all (Nat.le_refl all)

lemma Named.makeDirectories (named : tree.Named) (path : Path) :
    (tree.makeDirectories path).2.Named :=
  makeDirectories_induction path
    (fun _ _ _ _ named hplace => named.set (named.locate hplace) _) named

lemma Named.settle (named : tree.Named) {result : Except Fault FileTree}
    (h : ∀ changed, result = .ok changed → changed.Named) : (tree.settle result).2.Named := by
  cases result with
  | ok changed => exact h changed rfl
  | error fault => exact named

lemma Named.write (named : tree.Named) {contents : Bytes}
    (h : tree.write path contents = .ok tree') : tree'.Named := by
  obtain ⟨place, hplace, -, rfl⟩ := write_eq_ok_iff.mp h
  exact named.set (named.locate hplace) _

/-- Every step keeps the names such as a directory can hold. -/
lemma Named.perform (named : tree.Named) (step : Step) : (tree.perform step).2.Named := by
  cases step with
  | ensureDirectory path => exact named.makeDirectories path
  | makeDirectory path =>
    refine named.settle fun changed h => ?_
    obtain ⟨place, hplace, rfl⟩ := makeDirectory_ok h
    exact named.set (named.locate hplace) _
  | create path => exact named.settle fun changed h => named.write h
  | append path contents =>
    refine named.settle fun changed h => ?_
    rw [FileTree.append] at h
    cases hfound : tree.locate true path with
    | error fault => simp [hfound, bind, Except.bind] at h
    | ok found =>
      obtain ⟨place, node⟩ := found
      match node, hfound with
      | some (.file before), hfound =>
        simp only [hfound, bind, Except.bind, Except.ok.injEq] at h
        exact h ▸ named.set (named.locate hfound) _
      | some .directory, hfound => simp [hfound, bind, Except.bind] at h
      | some (.link target), hfound => simp [hfound, bind, Except.bind] at h
      | none, hfound => simp [hfound, bind, Except.bind] at h
  | sync path => exact named
  | replace source target =>
    refine named.settle fun changed h => ?_
    rw [FileTree.rename] at h
    cases hfound : tree.locate false source with
    | error fault => simp [hfound, bind, Except.bind] at h
    | ok found =>
      cases hgoal : tree.locate false target with
      | error fault => simp [hfound, hgoal, bind, Except.bind] at h
      | ok goal =>
        simp only [hfound, hgoal, bind, Except.bind] at h
        split at h
        · cases h
        · cases h
        · rw [Except.ok.injEq] at h
          exact h ▸ (named.remove _).set (named.locate hgoal) _

lemma Named.performAll (named : tree.Named) (steps : List Step) :
    (tree.performAll steps).2.Named := by
  induction steps generalizing tree with
  | nil => exact named
  | cons step steps ih =>
    rw [FileTree.performAll]
    have hstep := named.perform step
    cases hperform : tree.perform step with
    | mk fault next =>
      rw [hperform] at hstep
      cases fault with
      | none => exact ih hstep
      | some fault => exact hstep

/-! ### The same ways to directories -/

/-- Two trees in which the same ways lead to directories. -/
structure SameWays (tree tree' : FileTree) : Prop where
  /-- Relative paths start at the same place. -/
  workplace : tree'.workplace = tree.workplace
  /-- The directories are the same. -/
  directory : ∀ p, tree'.node? p = some .directory ↔ tree.node? p = some .directory
  /-- The ways to them are the same. -/
  leads : ∀ links place names directory,
    Leads tree' true links place names ⟨directory, some .directory⟩ ↔
      Leads tree true links place names ⟨directory, some .directory⟩

lemma SameWays.refl (tree : FileTree) : SameWays tree tree :=
  ⟨rfl, fun _ => Iff.rfl, fun _ _ _ _ => Iff.rfl⟩

lemma SameWays.trans (h : SameWays tree tree') (h' : SameWays tree' tree'') :
    SameWays tree tree'' :=
  ⟨h'.workplace.trans h.workplace, fun p => (h'.directory p).trans (h.directory p),
    fun links place names directory =>
      (h'.leads links place names directory).trans (h.leads links place names directory)⟩

lemma SameWays.symm (h : SameWays tree tree') : SameWays tree' tree :=
  ⟨h.workplace.symm, fun p => (h.directory p).symm,
    fun links place names directory => (h.leads links place names directory).symm⟩

/-- A path is located at a directory in both trees. -/
lemma SameWays.locate (h : SameWays tree tree') {directory : Place}
    (located : tree.locate true path = .ok ⟨directory, some .directory⟩) :
    tree'.locate true path = .ok ⟨directory, some .directory⟩ := by
  obtain ⟨hzero, hleads⟩ := locate_eq_ok_iff.mp located
  refine locate_eq_ok_iff.mpr ⟨hzero, (h.leads _ _ _ _).mpr ?_⟩
  rwa [FileTree.start, h.workplace]

/-- The link at a place leads to no directory. -/
def LeadsNowhere (tree : FileTree) (p : Place) : Prop :=
  ∀ target, tree.node? p = some (.link target) → ∀ links directory,
    ¬ Leads tree true links (if target.startsWith "/" then [] else p.dropLast)
      (targetNames target) ⟨directory, some .directory⟩

/-- A way to a directory does not notice the change of a place that is no directory and
leads to none. -/
lemma Leads.changed (h : Leads tree true links place names found)
    (dir : found.node = some .directory) (others : ∀ q, q ≠ p → tree'.node? q = tree.node? q)
    (old : tree.node? p ≠ some .directory) (nowhere : tree.LeadsNowhere p) :
    Leads tree' true links place names found := by
  have hsame : ∀ q, tree.node? q = some .directory → tree'.node? q = some .directory := by
    intro q hq
    rw [others q (by rintro rfl; exact old hq), hq]
  induction h with
  | here =>
    simp only at dir
    rw [dir, ← hsame _ dir]
    exact .here
  | stay hdir _ ih => exact .stay (hsame _ hdir) (ih dir)
  | up hdir _ ih => exact .up (hsame _ hdir) (ih dir)
  | last hdir entry stop =>
    simp only at dir
    have hnode := hsame _ dir
    rw [dir, ← hnode]
    exact .last (hsame _ hdir) entry fun _ target htarget => by rw [hnode] at htarget; cases htarget
  | enter hdir entry ne plain rest ih =>
    have hnode := hsame _ (rest.dir ne)
    exact .enter (hsame _ hdir) entry ne
      (fun target htarget => by rw [hnode] at htarget; cases htarget) (ih dir)
  | @jump links place name left target found hdir entry link followed rest ih =>
    have hne : place ++ [name] ≠ p := by
      rintro rfl
      -- the target itself leads to a directory
      obtain ⟨directory, hleads⟩ : ∃ directory, Leads tree true links
          (if target.startsWith "/" then [] else place) (targetNames target)
            ⟨directory, some .directory⟩ := by
        by_cases hnil : left = []
        · subst hnil
          rw [List.append_nil] at rest
          exact ⟨found.place, dir ▸ rest⟩
        · obtain ⟨_, directory, hfirst, -⟩ := rest.split hnil rfl
          exact ⟨directory, hfirst⟩
      refine nowhere target link links directory ?_
      rwa [List.dropLast_concat]
    refine .jump (hsame _ hdir) entry ?_ followed (ih dir)
    rw [others _ hne, link]

/-- A place that is no directory and leads to none has become another such place. -/
lemma sameWays_of_changed (workplace : tree'.workplace = tree.workplace)
    (others : ∀ q, q ≠ p → tree'.node? q = tree.node? q) (old : tree.node? p ≠ some .directory)
    (nowhere : tree.LeadsNowhere p) (new : tree'.Vacant p) : SameWays tree tree' where
  workplace := workplace
  directory q := by
    by_cases hq : q = p
    · subst hq
      exact iff_of_false new.not_directory old
    · rw [others q hq]
  leads links place names directory :=
    ⟨fun h => h.changed rfl (fun q hq => (others q hq).symm) new.not_directory
      fun target htarget => absurd htarget (new.not_link target),
      fun h => h.changed rfl others old nowhere⟩

end FileTree

end Scaffold.Files
