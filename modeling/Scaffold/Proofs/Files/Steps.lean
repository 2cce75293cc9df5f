import Scaffold.Proofs.Files.Contents
import Scaffold.Proofs.Outcome

/-!
Changes inside one directory.

A file that gets its contents all at once is filled under a temporary name and
renamed. Whether or not this succeeds, nothing changes but what the directory of the
file holds; when it fails nothing changes but the temporary file.

* `Into`: a path into a directory that is located.
* `Within`: nothing changes but files in a range of places.
* `Rewritten`: one file has its new contents and the temporary file is gone.
* `performAll_atomicSteps`: what the steps of an atomic write do.
* `removeTree_node?`: what the removal of a directory leaves.
-/

namespace Scaffold.Files

namespace FileTree

variable {tree tree' tree'' : FileTree} {follow : Bool} {place directory goal p : Place}
  {path source target : Path} {range : Place → Prop} {name : String} {contents : Bytes}
  {node : Option Node}

/-! ### Paths into a directory -/

/-- A path whose last name stands behind the path of a directory that is located. -/
structure Into (tree : FileTree) (path : Path) (directory : Place) (name : String) : Prop where
  /-- The directory is located. -/
  parent : tree.locate true path.parent = .ok ⟨directory, some .directory⟩
  /-- The last name. -/
  names : path.names = path.parent.names ++ [name]
  /-- The last name is no single dot. -/
  ne_dot : name ≠ "."
  /-- The last name does not lead upwards. -/
  ne_up : name ≠ ".."

/-- No link lies directly in a directory. -/
def Unlinked (tree : FileTree) (directory : Place) : Prop :=
  ∀ name target, tree.node? (directory ++ [name]) ≠ some (.link target)

lemma Unlinked.keeps (h : tree.Unlinked directory) (keeps : Keeps tree tree') :
    tree'.Unlinked directory :=
  fun name target hlink => h name target ((keeps.link _ _).mp hlink)

lemma Into.keeps (h : tree.Into path directory name) (keeps : Keeps tree tree') :
    tree'.Into path directory name :=
  ⟨keeps.locate_directory h.parent, h.names, h.ne_dot, h.ne_up⟩

/-- A path into a directory denotes what lies there under its last name. -/
lemma Into.found (h : tree.Into path directory name) (unlinked : tree.Unlinked directory)
    (found : tree.locate follow path = .ok ⟨goal, node⟩) :
    goal = directory ++ [name] ∧ node = tree.node? (directory ++ [name]) := by
  have hpath : path = ⟨path.parent.anchor, path.parent.names ++ [name]⟩ := by
    rw [← h.names]
    rfl
  have hgoal : goal = directory ++ [name] := by
    rw [hpath] at found
    exact place_of_child h.parent found h.ne_dot h.ne_up (unlinked name)
  exact ⟨hgoal, by rw [← hgoal, node?_of_locate found]⟩

lemma Into.dir (h : tree.Into path directory name) : tree.node? directory = some .directory :=
  node?_of_locate h.parent

/-! ### Changes in a range of places -/

/-- Nothing has changed but files in a range of places. -/
structure Within (range : Place → Prop) (tree tree' : FileTree) : Prop where
  /-- All directories and links are as they were. -/
  keeps : Keeps tree tree'
  /-- What does not lie in the range is as it was. -/
  outside : ∀ p, ¬ range p → tree'.node? p = tree.node? p
  /-- Everything still lies in a directory. -/
  sound : tree.Sound → tree'.Sound

lemma Within.refl (range : Place → Prop) (tree : FileTree) : Within range tree tree :=
  ⟨.refl tree, fun _ _ => rfl, id⟩

lemma Within.trans (h : Within range tree tree') (h' : Within range tree' tree'') :
    Within range tree tree'' :=
  ⟨h.keeps.trans h'.keeps, fun p hp => (h'.outside p hp).trans (h.outside p hp),
    fun sound => h'.sound (h.sound sound)⟩

lemma Within.mono {wider : Place → Prop} (h : Within range tree tree')
    (le : ∀ p, range p → wider p) : Within wider tree tree' :=
  ⟨h.keeps, fun p hp => h.outside p fun hr => hp (le p hr), h.sound⟩

/-- A file is put into a directory. -/
lemma Within.set (vacant : tree.Vacant p) (dir : tree.node? p.dropLast = some .directory)
    (contents : Bytes) (hp : range p) : Within range tree (tree.set p (.file contents)) where
  keeps := .set_file vacant contents
  outside q hq := node?_set_of_ne (by rintro rfl; exact hq hp) _ _
  sound h := h.set vacant.ne_nil _ dir vacant.not_directory

/-- A file is taken away. -/
lemma Within.remove (vacant : tree.Vacant p) (hp : range p) :
    Within range tree (tree.remove p) where
  keeps := .remove vacant
  outside q hq := node?_remove_of_ne (by rintro rfl; exact hq hp) _
  sound h := h.remove vacant.ne_nil vacant.not_directory

/-! ### Single steps -/

/-- A change that happens wholly or not at all. -/
lemma settle_cases (tree : FileTree) (result : Except Fault FileTree) :
    (∃ changed, result = .ok changed ∧ tree.settle result = (none, changed)) ∨
      ∃ fault, tree.settle result = (some fault, tree) := by
  cases result with
  | ok changed => exact .inl ⟨changed, rfl, rfl⟩
  | error fault => exact .inr ⟨fault, rfl⟩

/-- Writing to a path into a directory. -/
lemma Into.write (h : tree.Into path directory name) (unlinked : tree.Unlinked directory)
    (written : tree.write path contents = .ok tree') :
    tree.Vacant (directory ++ [name]) ∧ tree' = tree.set (directory ++ [name]) (.file contents) := by
  obtain ⟨goal, hgoal, vacant, rfl⟩ := write_eq_ok_iff.mp written
  rw [(h.found unlinked hgoal).1] at vacant ⊢
  exact ⟨vacant, rfl⟩

/-- Appending to a path into a directory. -/
lemma Into.append (h : tree.Into path directory name) (unlinked : tree.Unlinked directory)
    (appended : tree.append path contents = .ok tree') :
    ∃ before, tree.node? (directory ++ [name]) = some (.file before) ∧
      tree' = tree.set (directory ++ [name]) (.file (before ++ contents)) := by
  rw [FileTree.append] at appended
  cases hfound : tree.locate true path with
  | error fault => simp [hfound, bind, Except.bind] at appended
  | ok found =>
    obtain ⟨goal, node⟩ := found
    obtain ⟨rfl, rfl⟩ := h.found unlinked hfound
    cases hnode : tree.node? (directory ++ [name]) with
    | none => simp [hfound, hnode, bind, Except.bind] at appended
    | some node =>
      cases node with
      | file before =>
        simp only [hfound, hnode, bind, Except.bind, Except.ok.injEq] at appended
        exact ⟨before, rfl, appended.symm⟩
      | directory => simp [hfound, hnode, bind, Except.bind] at appended
      | link target => simp [hfound, hnode, bind, Except.bind] at appended

/-- Renaming within a directory. -/
lemma Into.rename {other : String} (h : tree.Into source directory name)
    (h' : tree.Into target directory other) (unlinked : tree.Unlinked directory)
    (renamed : tree.rename source target = .ok tree') :
    ∃ node, tree.node? (directory ++ [name]) = some node ∧
      tree.node? (directory ++ [other]) ≠ some .directory ∧
      tree' = (tree.remove (directory ++ [name])).set (directory ++ [other]) node := by
  rw [FileTree.rename] at renamed
  obtain ⟨⟨place, node⟩, hfound, renamed⟩ := bind_eq_ok_iff.mp renamed
  obtain ⟨⟨goal, old⟩, hgoal, renamed⟩ := bind_eq_ok_iff.mp renamed
  obtain ⟨rfl, rfl⟩ := h.found unlinked hfound
  obtain ⟨rfl, rfl⟩ := h'.found unlinked hgoal
  cases hnode : tree.node? (directory ++ [name]) with
  | none => simp [hnode] at renamed
  | some node =>
    by_cases hold : tree.node? (directory ++ [other]) = some .directory
    · simp [hnode, hold] at renamed
    · refine ⟨node, rfl, hold, ?_⟩
      simp only [hnode, Except.ok.injEq] at renamed
      exact renamed.symm

/-! ### Steps one after another -/

/-- Steps go on where others have ended, unless these have failed. -/
lemma performAll_append (tree : FileTree) (steps more : List Step) :
    tree.performAll (steps ++ more) =
      if (tree.performAll steps).1 = none then (tree.performAll steps).2.performAll more
      else tree.performAll steps := by
  induction steps generalizing tree with
  | nil => simp [performAll]
  | cons step steps ih =>
    rw [List.cons_append, performAll, performAll]
    cases hstep : tree.perform step with
    | mk fault next =>
      cases fault with
      | none => exact ih next
      | some fault => simp

/-- Chunks are put at the end of a temporary file, up to the first that fails. -/
lemma performAll_append_chunks (h : tree.Into path directory name)
    (unlinked : tree.Unlinked directory) {before : Bytes}
    (file : tree.node? (directory ++ [name]) = some (.file before)) (chunks : List Bytes) :
    Within (· = directory ++ [name]) tree (tree.performAll (chunks.map (.append path ·))).2 ∧
      ((tree.performAll (chunks.map (.append path ·))).1 = none →
        (tree.performAll (chunks.map (.append path ·))).2.node? (directory ++ [name]) =
          some (.file (before ++ chunks.flatten))) := by
  induction chunks generalizing tree before with
  | nil => exact ⟨.refl _ _, fun _ => by simpa [performAll] using file⟩
  | cons chunk chunks ih =>
    rw [List.map_cons, performAll, perform]
    obtain ⟨changed, happend, hsettle⟩ | ⟨fault, hsettle⟩ :=
      settle_cases tree (tree.append path chunk)
    · rw [hsettle]
      obtain ⟨before', hbefore, rfl⟩ := h.append unlinked happend
      rw [file, Option.some.injEq, Node.file.injEq] at hbefore
      subst hbefore
      have hset : Within (· = directory ++ [name]) tree
          (tree.set (directory ++ [name]) (.file (before ++ chunk))) :=
        .set (.inr ⟨_, file⟩) (by simpa using h.dir) _ rfl
      obtain ⟨hwithin, hfile⟩ := ih (h.keeps hset.keeps) (unlinked.keeps hset.keeps)
        (node?_set_self (by simp) _ _)
      refine ⟨hset.trans hwithin, fun hnone => ?_⟩
      rw [hfile hnone, List.flatten_cons, List.append_assoc]
    · rw [hsettle]
      exact ⟨.refl _ _, fun hnone => by cases hnone⟩

/-- One file has new contents and another one is gone. -/
structure Rewritten (final temporary : Place) (contents : Bytes) (tree tree' : FileTree) :
    Prop where
  /-- Nothing else has changed. -/
  within : Within (fun p => p = final ∨ p = temporary) tree tree'
  /-- The new contents. -/
  file : tree'.node? final = some (.file contents)
  /-- The other file is gone. -/
  gone : tree'.node? temporary = none

/-- In a directory without links there is a file or nothing where there is no directory. -/
lemma vacant_of_not_directory (unlinked : tree.Unlinked directory)
    (h : tree.node? (directory ++ [name]) ≠ some .directory) :
    tree.Vacant (directory ++ [name]) := by
  cases hthere : tree.node? (directory ++ [name]) with
  | none => exact .inl hthere
  | some there =>
    cases there with
    | file contents => exact .inr ⟨contents, hthere⟩
    | directory => exact absurd hthere h
    | link target => exact absurd hthere (unlinked name target)

/-- **A temporary file gets its final name**, and its contents with it. -/
lemma rewritten_of_rename {final temporary : Path} {other : String}
    (hfinal : tree.Into final directory name) (htemporary : tree.Into temporary directory other)
    (unlinked : tree.Unlinked directory) (hne : name ≠ other)
    (file : tree.node? (directory ++ [other]) = some (.file contents))
    (renamed : tree.rename temporary final = .ok tree') :
    Rewritten (directory ++ [name]) (directory ++ [other]) contents tree tree' := by
  obtain ⟨node, hnode, hold, rfl⟩ := htemporary.rename hfinal unlinked renamed
  rw [hnode, Option.some.injEq] at file
  subst file
  have hplaces : directory ++ [name] ≠ directory ++ [other] := by simpa using hne
  have hremove : Within (· = directory ++ [other]) tree (tree.remove (directory ++ [other])) :=
    .remove (.inr ⟨_, hnode⟩) rfl
  have hvacant : (tree.remove (directory ++ [other])).Vacant (directory ++ [name]) :=
    (vacant_of_not_directory unlinked hold).remove (by simp)
  have hput : Within (· = directory ++ [name]) (tree.remove (directory ++ [other]))
      ((tree.remove (directory ++ [other])).set (directory ++ [name]) (.file contents)) :=
    .set hvacant (by simpa using hremove.keeps.directory _ hfinal.dir) _ rfl
  refine ⟨(hremove.mono fun p hp => .inr hp).trans (hput.mono fun p hp => .inl hp), ?_, ?_⟩
  · rw [node?_set_self (by simp)]
  · rw [node?_set_of_ne hplaces.symm, node?_remove_self (by simp)]

/-- **All at once**: the steps of an atomic write give a file its contents and leave no
temporary file, or they fail and nothing has changed but the temporary file. -/
lemma performAll_atomicSteps {final temporary : Path} {other : String}
    (hfinal : tree.Into final directory name) (htemporary : tree.Into temporary directory other)
    (unlinked : tree.Unlinked directory) (hne : name ≠ other) (chunks : List Bytes) :
    ((tree.performAll (atomicSteps final temporary chunks)).1 = none ∧
      Rewritten (directory ++ [name]) (directory ++ [other]) chunks.flatten tree
        (tree.performAll (atomicSteps final temporary chunks)).2) ∨
    ∃ fault, (tree.performAll (atomicSteps final temporary chunks)).1 = some fault ∧
      Within (· = directory ++ [other]) tree
        (tree.performAll (atomicSteps final temporary chunks)).2 := by
  rw [atomicSteps, List.cons_append, performAll, perform]
  obtain ⟨created, hcreate, hsettle⟩ | ⟨fault, hsettle⟩ :=
    settle_cases tree (tree.write temporary [])
  swap
  · rw [hsettle]
    exact .inr ⟨fault, rfl, .refl _ _⟩
  rw [hsettle]
  obtain ⟨vacant, rfl⟩ := htemporary.write unlinked hcreate
  have hset : Within (· = directory ++ [other]) tree
      (tree.set (directory ++ [other]) (.file [])) :=
    .set vacant (by simpa using htemporary.dir) _ rfl
  obtain ⟨hfilled, hfile⟩ := performAll_append_chunks (htemporary.keeps hset.keeps)
    (unlinked.keeps hset.keeps) (node?_set_self (by simp) _ _) chunks
  have hbefore := hset.trans hfilled
  simp only
  rw [performAll_append]
  generalize (tree.set (directory ++ [other]) (.file [])).performAll
    (chunks.map (.append temporary ·)) = filled at *
  obtain ⟨fault, left⟩ := filled
  cases fault with
  | some fault => exact .inr ⟨fault, by simp, by simpa using hbefore⟩
  | none =>
    simp only [if_true, performAll, perform]
    obtain ⟨changed, hrename, hsettle⟩ | ⟨fault, hsettle⟩ :=
      settle_cases left (left.rename temporary final)
    · rw [hsettle]
      obtain ⟨hwithin, hcontents, hgone⟩ := rewritten_of_rename (hfinal.keeps hbefore.keeps)
        (htemporary.keeps hbefore.keeps) (unlinked.keeps hbefore.keeps) hne (hfile rfl) hrename
      rw [List.nil_append] at hcontents
      exact .inl ⟨rfl, (hbefore.mono fun p hp => .inr hp).trans hwithin, hcontents, hgone⟩
    · rw [hsettle]
      exact .inr ⟨fault, rfl, hbefore⟩

/-! ### Removing a directory -/

/-- Removing places one after another empties them and nothing else. -/
lemma node?_foldl_remove {places : List Place} (ne : [] ∉ places) (tree : FileTree) (p : Place) :
    (places.foldl (fun rest q => rest.remove q) tree).node? p =
      if p ∈ places then none else tree.node? p := by
  induction places generalizing tree with
  | nil => simp
  | cons q places ih =>
    rw [List.mem_cons, not_or] at ne
    rw [List.foldl_cons, ih ne.2, node?_remove (Ne.symm ne.1)]
    by_cases hq : p = q
    · simp [hq]
    · by_cases hmem : p ∈ places <;> simp [hq, hmem]

lemma workplace_foldl_remove (places : List Place) (tree : FileTree) :
    (places.foldl (fun rest q => rest.remove q) tree).workplace = tree.workplace := by
  induction places generalizing tree with
  | nil => rfl
  | cons q places ih => rw [List.foldl_cons, ih, workplace_remove]

/-- A directory is removed with everything in it, and nothing else is. -/
lemma removeTree_node? (h : tree.locate false path = .ok ⟨directory, some .directory⟩)
    (ne : directory ≠ []) (p : Place) :
    (tree.removeTree path).node? p = if directory <+: p then none else tree.node? p := by
  have hmem : p ∈ tree.below directory ++ [directory] ↔
      directory <+: p ∧ (p ≠ directory → tree.node? p ≠ none) := by
    rw [List.mem_append, mem_below_iff, List.mem_singleton]
    by_cases heq : p = directory
    · simp [heq]
    · simp [heq]
  have hroot : [] ∉ tree.below directory ++ [directory] := by
    rw [List.mem_append, mem_below_iff, List.mem_singleton, List.prefix_nil]
    rintro (⟨hnil, -⟩ | hnil)
    · exact ne hnil
    · exact ne hnil.symm
  rw [removeTree, h]
  simp only
  rw [node?_foldl_remove hroot]
  simp only [hmem]
  by_cases hp : directory <+: p
  · by_cases hnode : tree.node? p = none
    · simp [hp, hnode]
    · simp [hp, hnode]
  · simp [hp]

/-- A path to anything else than a directory leaves the tree as it is. -/
lemma removeTree_of_not (h : ∀ place, tree.locate false path ≠ .ok ⟨place, some .directory⟩) :
    tree.removeTree path = tree := by
  rw [removeTree]
  split
  · next place hfound => exact absurd hfound (h place)
  · rfl

lemma workplace_removeTree (path : Path) (tree : FileTree) :
    (tree.removeTree path).workplace = tree.workplace := by
  rw [removeTree]
  split
  · exact workplace_foldl_remove _ _
  · rfl

end FileTree

end Scaffold.Files
