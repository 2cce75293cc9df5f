import Scaffold.Proofs.Files.Avoiding
import Scaffold.Proofs.Generation.Batches

/-!
Undoing changes.

The undoing of a change touches one place: the one that the last name of its path has in
the directory to which the other names lead. What is there may be a link, and it may have
been replaced or removed by the undoing of other changes. But it never was a directory or
a link that leads to one, so all ways to directories stay as they are.

* `Aim`: a path and the place that its undoing touches; `Loose`: places whose change no
  way to a directory notices; `exists_aim`: the paths of files have such places.
* `Changed`: one place has changed; `Put`: there is a file now; `Rewound`: several places have
  changed, one after another.
* `performAll_filled`, `Put.renamed`: a temporary file is filled, and gets its final name;
  `atomicWrite_put`: both.
* `putBack_changed`: a file gets its old bytes; `undo_changed`: what an action touches.
* `undo_delete`, `undo_restore`: what an action does when there are no links.
* `undoAll_frame`: a place that no action aims at stays as it is.
-/

namespace Scaffold.Files.FileTree

variable {tree tree' start : FileTree} {path : Path} {directory goal p : Place} {name : String}
  {contents : Bytes}

/-! ### Aims -/

/-- A path whose last name stands for a node in a directory that is located. -/
structure Aim (tree : FileTree) (path : Path) (directory : Place) (name : String) : Prop where
  /-- The directory is located. -/
  parent : tree.locate true path.parent = .ok ⟨directory, some .directory⟩
  /-- The last name. -/
  names : path.names = path.parent.names ++ [name]
  /-- The last name denotes a node of its own. -/
  entry : IsEntry name
  /-- The last name can stand in a path. -/
  zero : name.toList.contains '\x00' = false

lemma Aim.eq (h : tree.Aim path directory name) :
    path = ⟨path.parent.anchor, path.parent.names ++ [name]⟩ := by
  rw [← h.names]
  rfl

/-- A path denotes what it aims at when its last link is not followed. -/
lemma Aim.locate_false (h : tree.Aim path directory name) :
    tree.locate false path = .ok ⟨directory ++ [name], tree.node? (directory ++ [name])⟩ := by
  rw [h.eq]
  exact locate_child_unfollowed h.parent h.entry h.zero

/-- A path denotes what it aims at when this is no link. -/
lemma Aim.locate_true (h : tree.Aim path directory name)
    (plain : ∀ target, tree.node? (directory ++ [name]) ≠ some (.link target)) :
    tree.locate true path = .ok ⟨directory ++ [name], tree.node? (directory ++ [name])⟩ := by
  rw [h.eq]
  exact locate_child h.parent h.entry h.zero plain true

lemma Aim.keeps (h : tree.Aim path directory name) (keeps : Keeps tree tree') :
    tree'.Aim path directory name :=
  ⟨keeps.locate_directory h.parent, h.names, h.entry, h.zero⟩

lemma Aim.sameWays (h : tree.Aim path directory name) (same : SameWays tree tree') :
    tree'.Aim path directory name :=
  ⟨same.locate h.parent, h.names, h.entry, h.zero⟩

/-- The names of the place at which a path aims are such as a directory can hold. -/
lemma Aim.fits (h : tree.Aim path directory name) (named : tree.Named) :
    Fits (directory ++ [name]) := by
  intro n hn
  rcases List.mem_append.mp hn with hn | hn
  · exact named.locate h.parent n hn
  · exact List.mem_singleton.mp hn ▸ h.entry

/-- Something that is no directory, and no link that leads to one. -/
structure Loose (tree : FileTree) (p : Place) : Prop where
  /-- Something is there. -/
  there : tree.node? p ≠ none
  /-- It is no directory. -/
  not_directory : tree.node? p ≠ some .directory
  /-- It leads to no directory. -/
  nowhere : tree.LeadsNowhere p

/-- **The paths of files** aim at places whose change no way to a directory notices. When
there is no link, it is the place of the file. -/
lemma exists_aim (sound : tree.Sound)
    (h : tree.locate true path = .ok ⟨goal, some (.file contents)⟩) :
    ∃ directory name, tree.Aim path directory name ∧ tree.Loose (directory ++ [name]) ∧
      ((∀ target, tree.node? (directory ++ [name]) ≠ some (.link target)) →
        goal = directory ++ [name]) := by
  obtain ⟨hzero, hleads⟩ := locate_eq_ok_iff.mp h
  rcases List.eq_nil_or_concat path.names with hnil | ⟨above, name, hnames⟩
  · -- without names the path leads to the directory in which it starts
    rw [hnil] at hleads
    have hfound := hleads.unique .here
    rw [sound.start, Found.mk.injEq] at hfound
    cases hfound.2
  · rw [List.concat_eq_append] at hnames
    have habove : path.parent.names = above := by rw [Path.parent, hnames]; simp
    obtain ⟨fewer, directory, hfirst, hlast⟩ := hleads.split (by simp) hnames
    have hholds : path.parent.holdsZero = false ∧ name.toList.contains '\x00' = false := by
      rw [Path.holdsZero, hnames, List.any_append, Bool.or_eq_false_iff] at hzero
      refine ⟨?_, by simpa using hzero.2⟩
      rw [Path.holdsZero, habove]
      exact hzero.1
    have hparent : tree.locate true path.parent = .ok ⟨directory, some .directory⟩ :=
      locate_eq_ok_iff.mpr ⟨hholds.1, by rw [habove]; exact hfirst⟩
    have haim : ∀ entry : IsEntry name, tree.Aim path directory name := fun entry =>
      ⟨hparent, by rw [habove, hnames], entry, hholds.2⟩
    have hdir : tree.node? directory = some .directory := node?_of_locate hparent
    -- a place at which there is a file or a link to one
    generalize hfound : (⟨goal, some (.file contents)⟩ : Found) = found at hlast
    generalize hlist : [name] = names at hlast
    cases hlast with
    | here => cases hlist
    | stay _ rest =>
      obtain ⟨-, rfl⟩ := List.cons.inj hlist
      have := hfound.trans (rest.unique .here)
      rw [hdir, Found.mk.injEq] at this
      cases this.2
    | up _ rest =>
      obtain ⟨-, rfl⟩ := List.cons.inj hlist
      have := hfound.trans (rest.unique .here)
      rw [sound.closed _ _ hdir, Found.mk.injEq] at this
      cases this.2
    | last _ entry stop =>
      obtain ⟨rfl, -⟩ := List.cons.inj hlist
      obtain ⟨rfl, hfile⟩ := (Found.mk.injEq _ _ _ _).mp hfound
      exact ⟨directory, name, haim entry, ⟨by simp [← hfile], by simp [← hfile],
        fun target htarget => absurd htarget (stop rfl target)⟩, fun _ => rfl⟩
    | enter _ _ more =>
      obtain ⟨-, rfl⟩ := List.cons.inj hlist
      exact absurd rfl more
    | @jump links _ _ _ target _ _ entry link _ rest =>
      obtain ⟨rfl, rfl⟩ := List.cons.inj hlist
      rw [List.append_nil] at rest
      refine ⟨directory, name, haim entry, ⟨by simp [link], by simp [link], ?_⟩, fun plain =>
        absurd link (plain target)⟩
      intro other hother links' last hleads'
      rw [link, Option.some.injEq, Node.link.injEq] at hother
      subst hother
      rw [List.dropLast_concat] at hleads'
      have := rest.same hleads'
      rw [← hfound, Found.mk.injEq] at this
      cases this.2

/-! ### Changes of one place -/

/-- One place holds another file or nothing, and nothing else has changed. -/
structure Changed (p : Place) (tree tree' : FileTree) : Prop where
  /-- Relative paths start at the same place. -/
  workplace : tree'.workplace = tree.workplace
  /-- Nothing else has changed. -/
  others : ∀ q, q ≠ p → tree'.node? q = tree.node? q
  /-- The place holds a file or nothing. -/
  vacant : tree'.Vacant p
  /-- Everything still lies in a directory. -/
  sound : tree'.Sound
  /-- Every name is one that a directory can hold. -/
  named : tree.Named → tree'.Named

lemma Changed.contents_eq (h : Changed p tree tree') {q : Place} (hq : q ≠ p) :
    tree'.contents? q = tree.contents? q := by
  rw [contents?, contents?, h.others q hq]

/-- A node that is no directory is removed. -/
lemma changed_remove (sound : tree.Sound) (ne : p ≠ []) (dir : tree.node? p ≠ some .directory) :
    Changed p tree (tree.remove p) where
  workplace := workplace_remove _ _
  others _ hq := node?_remove_of_ne hq _
  vacant := .inl (node?_remove_self ne _)
  sound := sound.remove ne dir
  named named := named.remove p

/-- A file that is put at one place, in an otherwise unchanged tree. -/
structure Put (goal : Place) (contents : Bytes) (tree tree' : FileTree) : Prop where
  /-- Relative paths start at the same place. -/
  workplace : tree'.workplace = tree.workplace
  /-- The file, and all other places. -/
  node : ∀ p, tree'.node? p = if p = goal then some (.file contents) else tree.node? p
  /-- Everything still lies in a directory. -/
  sound : tree'.Sound

lemma Put.changed (put : Put goal contents tree tree') (fits : tree.Named → Fits goal) :
    Changed goal tree tree' where
  workplace := put.workplace
  others q hq := by rw [put.node, if_neg hq]
  vacant := .inr ⟨contents, by rw [put.node, if_pos rfl]⟩
  sound := put.sound
  named named := by
    refine ⟨fun q hq => ?_, put.workplace ▸ named.workplace⟩
    by_cases hgoal : q = goal
    · exact hgoal ▸ fits named
    · rw [put.node, if_neg hgoal] at hq
      exact named.node q hq

/-- A file that is there has been put there. -/
lemma put_self (sound : tree.Sound) (file : tree.node? p = some (.file contents)) :
    Put p contents tree tree := by
  refine ⟨rfl, fun q => ?_, sound⟩
  split
  · next hq => rw [hq, file]
  · rfl

/-- A file is put at a vacant place in a directory. -/
lemma put_set (sound : tree.Sound) (vacant : tree.Vacant p)
    (parent : tree.node? p.dropLast = some .directory) (contents : Bytes) :
    Put p contents tree (tree.set p (.file contents)) :=
  ⟨workplace_set _ _ _, node?_set vacant.ne_nil _ _,
    sound.set vacant.ne_nil _ parent vacant.not_directory⟩

/-- One file after another at the same place. -/
lemma Put.trans {tree'' : FileTree} {before : Bytes} (h : Put p before tree tree')
    (h' : Put p contents tree' tree'') : Put p contents tree tree'' := by
  refine ⟨h'.workplace.trans h.workplace, fun q => ?_, h'.sound⟩
  rw [h'.node, h.node]
  split <;> rfl

lemma Put.file (h : Put p contents tree tree') : tree'.node? p = some (.file contents) := by
  rw [h.node, if_pos rfl]

/-- A file at a vacant place keeps all ways. -/
lemma Put.keeps (h : Put p contents tree tree') (vacant : tree.Vacant p) : Keeps tree tree' where
  workplace := h.workplace
  directory q hq := by
    rw [h.node, if_neg (by rintro rfl; exact vacant.not_directory hq), hq]
  link q target := by
    rw [h.node]
    split
    · next hq =>
      rw [hq]
      simpa using vacant.not_link target
    · exact Iff.rfl

/-! ### Temporary files -/

variable {filled : FileTree} {temporary final : Path} {label token : String}

/-- The path of a temporary file aims into the directory of the final path. -/
lemma aim_temporary (parent : tree.locate true final.parent = .ok ⟨directory, some .directory⟩)
    (entry : IsEntry (temporaryName label token))
    (zero : (temporaryName label token).toList.contains '\x00' = false) :
    tree.Aim (temporaryPath final label token) directory (temporaryName label token) := by
  rw [temporaryPath_eq]
  refine ⟨?_, by simp, entry, zero⟩
  rw [Path.parent_append]
  exact parent

/-- A temporary path that leads somewhere aims into a directory. -/
lemma exists_aim_temporary {follow : Bool} {found : Found}
    (located : tree.locate follow (temporaryPath final label token) = .ok found) :
    ∃ directory, tree.Aim (temporaryPath final label token) directory
      (temporaryName label token) := by
  obtain ⟨directory, hparent⟩ :
      ∃ directory, tree.locate true final.parent = .ok ⟨directory, some .directory⟩ :=
    exists_locate_of_child located
  obtain ⟨hentry, hzero⟩ := isEntry_of_child hparent located (temporaryName_ne_dot label token)
    (temporaryName_ne_up label token)
  exact ⟨directory, aim_temporary hparent hentry hzero⟩

/-- **A temporary file is filled**, whatever its final path is; only the last step can
fail. -/
lemma performAll_filled (sound : tree.Sound) (aim : tree.Aim temporary directory name)
    (missing : tree.node? (directory ++ [name]) = none) (final : Path) (contents : Bytes) :
    ∃ filled, tree.performAll (atomicSteps final temporary [contents]) =
        filled.settle (filled.rename temporary final) ∧
      Put (directory ++ [name]) contents tree filled := by
  obtain ⟨p, hp⟩ : ∃ p, p = directory ++ [name] := ⟨_, rfl⟩
  rw [← hp] at missing ⊢
  have hparent : tree.node? p.dropLast = some .directory := by
    rw [hp, List.dropLast_concat, node?_of_locate aim.parent]
  -- an empty file, and then a filled one
  obtain ⟨opened, hopened⟩ : ∃ t, t = tree.set p (.file []) := ⟨_, rfl⟩
  obtain ⟨filled, hfilled⟩ : ∃ t, t = opened.set p (.file contents) := ⟨_, rfl⟩
  have hempty : Put p [] tree opened := hopened ▸ put_set sound (.inl missing) hparent []
  have hkeeps := hempty.keeps (.inl missing)
  have hfull : Put p contents opened filled := hfilled ▸
    put_set hempty.sound (.inr ⟨_, hempty.file⟩) (hkeeps.directory _ hparent) contents
  have hcreate : tree.write temporary [] = .ok opened := by
    refine write_eq_ok_iff.mpr ⟨p, ?_, .inl missing, hopened⟩
    rw [hp]
    exact aim.locate_true (by rw [← hp, missing]; simp)
  have happend : opened.append temporary contents = .ok filled := by
    have hlocate := (aim.keeps hkeeps).locate_true (by rw [← hp, hempty.file]; simp)
    rw [← hp, hempty.file] at hlocate
    simp [FileTree.append, hlocate, bind, Except.bind, hfilled]
  refine ⟨filled, ?_, hempty.trans hfull⟩
  rw [atomicSteps, List.map_singleton, List.cons_append, List.singleton_append]
  simp only [FileTree.performAll, perform, hcreate, settle, happend]
  cases filled.rename temporary final <;> rfl

/-- A temporary file gets the name of its final path, unless this is that of a directory. -/
lemma rename_filled {node : Option Node}
    (source : filled.locate false temporary = .ok ⟨p, some (.file contents)⟩)
    (target : filled.locate false final = .ok ⟨goal, node⟩) :
    filled.rename temporary final = if node = some .directory then .error .isDirectory
      else .ok ((filled.remove p).set goal (.file contents)) := by
  rw [FileTree.rename, source, target]
  split_ifs with hdir
  · simp [bind, Except.bind, hdir]
  · simp only [bind, Except.bind]

/-- When the temporary file is taken away everything is as it was. -/
lemma Put.node?_remove (put : Put p contents tree filled) (missing : tree.node? p = none)
    (q : Place) : (filled.remove p).node? q = tree.node? q := by
  rw [FileTree.node?_remove (ne_nil_of_node?_eq_none missing), put.node]
  split
  · next heq => rw [heq, missing]
  · rfl

/-- **A temporary file that is renamed** is put at its final place. -/
lemma Put.renamed (put : Put p contents tree filled) (missing : tree.node? p = none)
    (ne : goal ≠ []) (parent : tree.node? goal.dropLast = some .directory)
    (there : tree.node? goal ≠ some .directory) :
    Put goal contents tree ((filled.remove p).set goal (.file contents)) := by
  have hremoved := put.node?_remove missing
  have hsound : (filled.remove p).Sound :=
    put.sound.remove (ne_nil_of_node?_eq_none missing) (by simp [put.file])
  refine ⟨?_, fun q => ?_, ?_⟩
  · rw [workplace_set, workplace_remove, put.workplace]
  · rw [node?_set ne, hremoved]
  · exact hsound.set ne _ (by rw [hremoved, parent]) (by rw [hremoved]; exact there)

/-- **A file is written at once** where a path aims, whatever is there, when the name of the
temporary file is new. -/
lemma atomicWrite_put (sound : tree.Sound) (aim : tree.Aim final directory name)
    (there : tree.node? (directory ++ [name]) ≠ some .directory)
    (entry : IsEntry (temporaryName label token))
    (zero : (temporaryName label token).toList.contains '\x00' = false)
    (missing : tree.node? (directory ++ [temporaryName label token]) = none)
    (ne : name ≠ temporaryName label token) (contents : Bytes) :
    ∃ after, tree.atomicWrite final contents label token = (none, after) ∧
      Put (directory ++ [name]) contents tree after := by
  have hgoal : directory ++ [name] ≠ directory ++ [temporaryName label token] := by simpa using ne
  have haim := aim_temporary aim.parent entry zero
  obtain ⟨filled, hsteps, hfilled⟩ := performAll_filled sound haim missing final contents
  have hkeeps := hfilled.keeps (.inl missing)
  have hput := hfilled.renamed missing (by simp)
    (by rw [List.dropLast_concat]; exact node?_of_locate aim.parent) there
  -- the temporary file gets the name of the path
  have hrename := rename_filled (hfilled.file ▸ (haim.keeps hkeeps).locate_false)
    (aim.keeps hkeeps).locate_false
  rw [hfilled.node, if_neg hgoal, if_neg there] at hrename
  refine ⟨_, ?_, hput⟩
  simp only [atomicWrite, hsteps, hrename, settle]

/-- A tree in which places of another one have changed, one after another, that no way to
a directory notices. -/
structure Rewound (start tree : FileTree) : Prop where
  /-- The ways to directories are the same. -/
  ways : SameWays start tree
  /-- No link is new. -/
  links : ∀ q target, tree.node? q = some (.link target) → start.node? q = some (.link target)
  /-- No place is new. -/
  old : ∀ q, tree.node? q ≠ none → start.node? q ≠ none
  /-- Everything lies in a directory. -/
  sound : tree.Sound
  /-- Every name is one that a directory can hold. -/
  named : tree.Named

lemma Rewound.refl (sound : tree.Sound) (named : tree.Named) : Rewound tree tree :=
  ⟨.refl tree, fun _ _ => id, fun _ => id, sound, named⟩

lemma Rewound.not_directory (h : Rewound start tree) (loose : start.Loose p) :
    tree.node? p ≠ some .directory :=
  fun hdir => loose.not_directory ((h.ways.directory p).mp hdir)

/-- One more place has changed. -/
lemma Rewound.changed (h : Rewound start tree) (loose : start.Loose p)
    (changed : Changed p tree tree') : Rewound start tree' := by
  have hnowhere : tree.LeadsNowhere p := fun target htarget links directory hleads =>
    loose.nowhere target (h.links p target htarget) links directory
      ((h.ways.leads _ _ _ _).mp hleads)
  refine ⟨h.ways.trans (sameWays_of_changed changed.workplace changed.others (h.not_directory loose)
    hnowhere changed.vacant), fun q target hq => ?_, fun q hq => ?_, changed.sound,
    changed.named h.named⟩
  · have hne : q ≠ p := by
      rintro rfl
      exact changed.vacant.not_link target hq
    exact h.links q target (changed.others q hne ▸ hq)
  · by_cases hp : q = p
    · exact hp ▸ loose.there
    · exact h.old q (changed.others q hp ▸ hq)

end Scaffold.Files.FileTree

namespace Scaffold

open Files FileTree

variable {tree start : FileTree} {path : Path} {directory : Place} {name token : String}
  {contents : Bytes} {action : UndoAction}

/-! ### Old bytes -/

/-- A name for the temporary files of a rollback that no node of a tree has. -/
structure IsFreshToken (token : String) (tree : FileTree) : Prop where
  /-- It is the name of a node. -/
  entry : IsEntry (temporaryName "restore" token)
  /-- It can stand in a path. -/
  zero : (temporaryName "restore" token).toList.contains '\x00' = false
  /-- No node has it. -/
  unused : ∀ p, tree.node? (p ++ [temporaryName "restore" token]) = none

lemma isFreshToken_iff : IsFreshToken token tree ↔
    IsEntry (temporaryName "restore" token) ∧
    (temporaryName "restore" token).toList.contains '\x00' = false ∧
    ∀ entry ∈ tree.nodes, entry.1.getLast? ≠ some (temporaryName "restore" token) := by
  have hunused : (∀ p, tree.node? (p ++ [temporaryName "restore" token]) = none) ↔
      ∀ entry ∈ tree.nodes, entry.1.getLast? ≠ some (temporaryName "restore" token) := by
    constructor
    · intro h entry hentry hlast
      obtain ⟨p, hp⟩ := List.getLast?_eq_some_iff.mp hlast
      have hmem : entry.1 ∈ tree.nodes.map (·.1) := List.mem_map_of_mem hentry
      rw [hp] at hmem
      exact (mem_nodes_iff (by simp)).mp hmem (h p)
    · intro h p
      by_contra hnode
      have hmem := (mem_nodes_iff (by simp)).mpr hnode
      obtain ⟨entry, hentry, heq⟩ := List.mem_map.mp hmem
      exact h entry hentry (by simp [heq])
  exact ⟨fun h => ⟨h.entry, h.zero, hunused.mp h.unused⟩,
    fun ⟨hentry, hzero, h⟩ => ⟨hentry, hzero, hunused.mpr h⟩⟩

instance (token : String) (tree : FileTree) : Decidable (IsFreshToken token tree) :=
  decidable_of_iff _ isFreshToken_iff.symm

lemma IsFreshToken.rewound (fresh : IsFreshToken token start) (h : Rewound start tree) :
    IsFreshToken token tree := by
  refine ⟨fresh.entry, fresh.zero, fun p => ?_⟩
  by_contra hnode
  exact h.old _ hnode (fresh.unused p)

/-- **Old bytes** are put where the path aims, whatever is there, and nothing else has
changed after that. -/
lemma putBack_changed (contents : Bytes) (sound : tree.Sound) (aim : tree.Aim path directory name)
    (there : tree.node? (directory ++ [name]) ≠ some .directory)
    (fresh : IsFreshToken token tree) (ne : name ≠ temporaryName "restore" token) :
    ∃ after, putBack path contents token tree = (none, after) ∧
      Changed (directory ++ [name]) tree after ∧
      after.node? (directory ++ [name]) = some (.file contents) := by
  obtain ⟨after, hwrite, hput⟩ := atomicWrite_put sound aim there fresh.entry fresh.zero
    (fresh.unused directory) ne contents
  refine ⟨after, ?_, hput.changed aim.fits, hput.file⟩
  rw [putBack, makeDirectories_of_present aim.parent]
  exact hwrite

/-! ### Actions -/

/-- **What an action touches**: the place at which its path aims. -/
lemma undo_changed (sound : tree.Sound) {text : String} (hpath : action.fullPath = some text)
    (aim : tree.Aim (.ofText text) directory name)
    (there : tree.node? (directory ++ [name]) ≠ some .directory)
    (fresh : IsFreshToken token tree) (ne : name ≠ temporaryName "restore" token) :
    (undo action token tree).2 = tree ∨
      Changed (directory ++ [name]) tree (undo action token tree).2 := by
  rw [undo]
  split
  · exact .inl rfl
  · next path hfilled =>
    obtain rfl : text = path := by
      rw [hpath, Option.filter_eq_some_iff, Option.some.injEq] at hfilled
      exact hfilled.1
    cases action.kind with
    | delete =>
      simp only [undoWriting]
      split
      · exact .inl rfl
      · exact .inl rfl
      · split
        · exact .inl rfl
        · next changed hdelete =>
          rw [FileTree.delete, aim.locate_false] at hdelete
          simp only [bind, Except.bind] at hdelete
          split at hdelete
          · cases hdelete
          · rw [Except.ok.injEq] at hdelete
            exact .inr (hdelete ▸ changed_remove sound (by simp) there)
          · cases hdelete
    | restore =>
      simp only [undoOverwriting]
      split
      · exact .inl rfl
      · split
        · exact .inl rfl
        · exact .inl rfl
        · exact .inl rfl
        · next contents _ =>
          obtain ⟨after, hput, hchanged, -⟩ := putBack_changed contents sound aim there
            fresh ne
          rw [hput]
          exact .inr hchanged

section Plain

variable {text : String}

/-- The path of an action that aims at something is not empty. -/
lemma filter_eq_of_aim (aim : tree.Aim (.ofText text) directory name) :
    (some text).filter (fun s => !s.isEmpty) = some text := by
  rw [Option.filter_some, if_pos]
  have hne : text ≠ "" := by
    rintro rfl
    have := aim.names
    simp [Path.ofText, Path.namesOf, Text.pieces] at this
  simpa using hne

/-- A file that was written is deleted, or it is gone already. -/
lemma undo_delete (hpath : action.fullPath = some text) (hkind : action.kind = .delete)
    (aim : tree.Aim (.ofText text) directory name)
    (there : tree.node? (directory ++ [name]) ≠ some .directory)
    (plain : ∀ target, tree.node? (directory ++ [name]) ≠ some (.link target)) :
    ∃ outcome, (undo action token tree).1 = .ok outcome ∧ outcome.status ≠ .error ∧
      (undo action token tree).2.contents? (directory ++ [name]) = none := by
  have hlocate := aim.locate_true plain
  rw [undo, hpath, filter_eq_of_aim aim]
  simp only [hkind, undoWriting]
  cases hnode : tree.node? (directory ++ [name]) with
  | none =>
    have hfile : tree.isFile (.ofText text) = .ok false := by
      rw [FileTree.isFile, holds, stat, hlocate, hnode]
      rfl
    rw [hfile]
    exact ⟨_, rfl, by simp, by simp [FileTree.contents?, hnode]⟩
  | some node =>
    cases node with
    | directory => exact absurd hnode there
    | link target => exact absurd hnode (plain target)
    | file contents =>
      have hfile : tree.isFile (.ofText text) = .ok true :=
        isFile_eq_true_iff.mpr ⟨_, contents, hnode ▸ hlocate⟩
      have hdelete : tree.delete (.ofText text) = .ok (tree.remove (directory ++ [name])) := by
        rw [FileTree.delete, aim.locate_false, hnode]
        rfl
      rw [hfile]
      simp only [hdelete]
      refine ⟨_, rfl, by simp, ?_⟩
      rw [contents?_remove (by simp), if_pos rfl]

/-- A file that was overwritten gets the bytes that are kept. -/
lemma undo_restore (sound : tree.Sound) (hpath : action.fullPath = some text)
    (hkind : action.kind = .restore) {backup : String} (hbackup : action.backup = some backup)
    (filled : backup ≠ "") (hread : tree.read (action.runPath.child backup) = .ok contents)
    (aim : tree.Aim (.ofText text) directory name)
    (there : tree.node? (directory ++ [name]) ≠ some .directory)
    (fresh : IsFreshToken token tree) (ne : name ≠ temporaryName "restore" token) :
    ∃ outcome, (undo action token tree).1 = .ok outcome ∧ outcome.status ≠ .error ∧
      (undo action token tree).2.contents? (directory ++ [name]) = some contents := by
  obtain ⟨after, hput, -, hnode⟩ := putBack_changed contents sound aim there fresh ne
  have hfilter : (some backup).filter (fun s => !s.isEmpty) = some backup := by
    rw [Option.filter_some, if_pos (by simpa using filled)]
  rw [undo, hpath, filter_eq_of_aim aim]
  simp only [hkind, undoOverwriting, hbackup, hfilter, hread, hput]
  exact ⟨_, rfl, by simp, contents?_eq_some_iff.mpr hnode⟩

end Plain

/-! ### Actions one after another -/

/-- **A place that no action aims at** stays as it is, whether or not the work comes to
its end. -/
lemma undoAll_frame {actions : List UndoAction} {p : Place} (h : Rewound start tree)
    (sound : start.Sound) (fresh : IsFreshToken token start)
    (file : ∃ bytes, start.node? p = some (.file bytes))
    (aims : ∀ action ∈ actions, ∃ text goal bytes, action.fullPath = some text ∧
      start.locate true (.ofText text) = .ok ⟨goal, some (.file bytes)⟩ ∧ goal ≠ p) :
    (undoAll token actions tree).2.node? p = tree.node? p := by
  induction actions generalizing tree with
  | nil => rfl
  | cons action actions ih =>
    obtain ⟨text, goal, bytes, hpath, hlocate, hne⟩ := aims action (by simp)
    obtain ⟨directory, name, haim, hloose, hgoal⟩ := exists_aim sound hlocate
    have hp : p ≠ directory ++ [name] := by
      rintro rfl
      obtain ⟨old, hold⟩ := file
      exact hne (hgoal (by simp [hold]))
    have hname : name ≠ temporaryName "restore" token := by
      rintro rfl
      exact hloose.there (fresh.unused directory)
    have hstep : Rewound start (undo action token tree).2 ∧
        (undo action token tree).2.node? p = tree.node? p := by
      rcases undo_changed h.sound hpath (haim.sameWays h.ways) (h.not_directory hloose)
        (fresh.rewound h) hname with heq | hchanged
      · rw [heq]
        exact ⟨h, rfl⟩
      · exact ⟨h.changed hloose hchanged, hchanged.others p hp⟩
    rw [undoAll]
    cases hundo : undo action token tree with
    | mk outcome next =>
      rw [hundo] at hstep
      cases outcome with
      | error fault => exact hstep.2
      | ok outcome =>
        exact (ih hstep.1 fun other hother => aims other (by simp [hother])).trans hstep.2

/-! ### The runs of an execution -/

/-- **Selection by execution**: the runs of an execution that the store keeps, when what lies
beside them belongs to no run of it. -/
lemma exists_select {store : HistoryStore} {root : Path} {place : Place} {kept : List KeptRun}
    {execution : String} (latestOnly : Bool) (enabled : store.root? = some root)
    (filled : filledText (some execution) = some execution) (sound : tree.Sound)
    (named : tree.Named) (holds : Holds place (·.executionId ≠ some execution) kept tree)
    (there : tree.locate true root = .ok ⟨place, some .directory⟩ ∨
      kept = [] ∧ tree.isDirectory root = .ok false) :
    ∃ runs, store.select tree none (some execution) latestOnly = .ok runs ∧
      runs.Perm ((kept.filter (·.manifest.executionId == some execution)).map (·.run root)) := by
  obtain ⟨all, hall, hperm⟩ : ∃ all, store.runs tree = .ok all ∧
      (all.filter (·.manifest.executionId == some execution)).Perm
        ((kept.filter (·.manifest.executionId == some execution)).map (·.run root)) := by
    rcases there with hlocate | ⟨rfl, hdir⟩
    · obtain ⟨all, others, hall, hperm, hothers⟩ := holds.exists_runs sound named hlocate enabled
      refine ⟨all, hall, (hperm.filter _).trans ?_⟩
      have hnone : others.filter (·.manifest.executionId == some execution) = [] := by
        rw [List.filter_eq_nil_iff]
        intro run hrun
        simpa using hothers run hrun
      rw [List.filter_append, hnone, List.append_nil, List.filter_map]
      exact .refl _
    · exact ⟨[], (runs_eq_ok_iff enabled).mpr (.inl ⟨hdir, rfl⟩), .refl _⟩
  refine ⟨_, ?_, hperm⟩
  have hnone : filledText none = none := rfl
  rw [HistoryStore.select, hnone]
  simp only [hall, filled, bind, Except.bind]
  cases all <;> rfl

/-! ### Runs that are undone -/

/-- Actions come to their end, and none of them is an error. -/
def Undoes (token : String) (actions : List UndoAction) (tree after : FileTree) : Prop :=
  ∃ outcomes, undoAll token actions tree = (.ok outcomes, after) ∧
    ∀ outcome ∈ outcomes, outcome.status ≠ .error

lemma undoes_nil (token : String) (tree : FileTree) : Undoes token [] tree tree :=
  ⟨[], rfl, by simp⟩

lemma undoes_singleton {outcome : UndoOutcome}
    (h : (undo action token tree).1 = .ok outcome) (ne : outcome.status ≠ .error) :
    Undoes token [action] tree (undo action token tree).2 := by
  refine ⟨[outcome], ?_, by simpa using ne⟩
  rw [undoAll]
  cases hundo : undo action token tree with
  | mk result next =>
    rw [hundo] at h
    simp only at h
    subst h
    rfl

lemma Undoes.append {middle after : FileTree} {actions more : List UndoAction}
    (h : Undoes token actions tree middle) (h' : Undoes token more middle after) :
    Undoes token (actions ++ more) tree after := by
  obtain ⟨outcomes, hundo, hnone⟩ := h
  obtain ⟨others, hmore, hothers⟩ := h'
  refine ⟨outcomes ++ others, ?_, by simpa [or_imp, forall_and] using ⟨hnone, hothers⟩⟩
  clear hnone hothers
  induction actions generalizing tree outcomes with
  | nil =>
    simp only [undoAll, Prod.mk.injEq, Except.ok.injEq] at hundo
    obtain ⟨rfl, rfl⟩ := hundo
    exact hmore
  | cons action actions ih =>
    rw [undoAll] at hundo
    rw [List.cons_append, undoAll]
    cases hstep : undo action token tree with
    | mk result next =>
      cases result with
      | error fault => simp [hstep] at hundo
      | ok outcome =>
        simp only [hstep, Prod.mk.injEq, map_eq_ok_iff] at hundo
        obtain ⟨⟨rest, hrest, rfl⟩, hlast⟩ := hundo
        simp only [ih rest (Prod.ext hrest hlast)]
        rfl

section Runs

variable {start : FileTree} {root : Path} {place : Place} {other : Manifest → Prop}
  {kept : List KeptRun} {r : KeptRun}

/-- A tree from which runs can be undone: the store is in it, and no way to a directory
differs from those in a tree without links. -/
structure Standing (start : FileTree) (root : Path) (place : Place) (other : Manifest → Prop)
    (kept : List KeptRun) (tree : FileTree) : Prop where
  /-- Places have changed that no way to a directory notices. -/
  rewound : Rewound start tree
  /-- The store is as it was. -/
  holds : Holds place other kept tree
  /-- The root of the store is there. -/
  located : start.locate true root = .ok ⟨place, some .directory⟩
  /-- There is no link. -/
  noLinks : start.NoLinks

/-- The bytes that are kept for an entry can be read. -/
lemma Standing.read_backup (h : Standing start root place other kept tree) (hr : r ∈ kept)
    {backup : String} (hkept : KeepsUnder 0 r.entries backup contents) :
    tree.read ((inside root r.id).child backup) = .ok contents := by
  obtain ⟨rewound, holds, located, -⟩ := h
  have hlies := holds.lies r hr
  have hbackup := contents?_eq_some_iff.mp (hlies.backups _ _ hkept)
  have hname : Path.IsName backup ∧ backup.toList.contains '\x00' = false := by
    obtain ⟨i, entry, -, -, rfl⟩ := hkept
    refine ⟨backupName_isName _ _, ?_⟩
    rw [← Bool.not_eq_true, List.contains_iff_mem]
    exact fun hmem => (isPlainChar_of_mem_backupName hmem).ne_zero rfl
  have hentry : ∀ p node, tree.node? p = some node → ∀ n ∈ p, IsEntry n := fun p node hnode =>
    rewound.named.node p (by simp [hnode])
  have hplain := fun rest target => holds.unlinked rest target
  have hdir := locate_child (rewound.ways.locate located)
    (hentry _ _ (hlies.directory rewound.sound) r.id (by simp)) r.zero (hplain [r.id]) true
  rw [hlies.directory rewound.sound] at hdir
  have hfile := locate_child hdir (hentry _ _ hbackup backup (by simp)) hname.2
    (fun target => by rw [List.append_assoc]; exact hplain _ target) true
  rw [hbackup] at hfile
  rw [Path.child_name hname.1]
  exact read_eq_ok_iff.mpr ⟨_, hfile⟩

/-- One place outside the store has changed. -/
lemma Standing.changed {after : FileTree} {p : Place}
    (h : Standing start root place other kept tree) (loose : start.Loose p)
    (apart : ¬ place <+: p) (changed : Changed p tree after) :
    Standing start root place other kept after ∧
      outside place after = Function.update (outside place tree) p (after.contents? p) := by
  have hrewound := h.rewound.changed loose changed
  refine ⟨⟨hrewound, h.holds.of_contents (fun rest => changed.contents_eq ?_) fun q target hq =>
    absurd (hrewound.links q target hq) (h.noLinks q target), h.located, h.noLinks⟩, ?_⟩
  · rintro rfl
    exact apart (List.prefix_append _ _)
  · funext q
    by_cases hq : q = p
    · rw [hq, Function.update_self, outside_of_not apart]
    · rw [Function.update_of_ne hq, outside, outside, changed.contents_eq hq]

/-- **The undoing of one change** gives the file the bytes that are kept for it, or takes
it away when none are kept. -/
lemma undo_change (index : Nat) (h : Standing start root place other kept tree)
    (sound : start.Sound) (fresh : IsFreshToken token start) (hr : r ∈ kept) {entry : OutputEntry}
    {goal : Place} {bytes : Bytes}
    (located : start.locate true (.ofText entry.fullPath) = .ok ⟨goal, some (.file bytes)⟩)
    (apart : ¬ place <+: goal)
    (status : entry.status = if (keptBytes? entry).isSome then .overwritten else .written)
    (backup : ∀ contents, keptBytes? entry = some contents →
      KeepsUnder 0 r.entries (backupName (some entry.path) index) contents) :
    ∃ after,
      Undoes token (UndoAction.ofChange? (r.run root) (recordOf index entry)).toList tree after ∧
      Standing start root place other kept after ∧
      outside place after = Function.update (outside place tree) goal (keptBytes? entry) := by
  obtain ⟨directory, name, haim, hloose, hgoal⟩ := exists_aim sound located
  obtain rfl := hgoal (h.noLinks _)
  have haim' := haim.sameWays h.rewound.ways
  have hdir := h.rewound.not_directory hloose
  have hfresh := fresh.rewound h.rewound
  have hname : name ≠ temporaryName "restore" token := by
    rintro rfl
    exact hloose.there (fresh.unused directory)
  have hplain : ∀ target, tree.node? (directory ++ [name]) ≠ some (.link target) :=
    fun target htarget => h.noLinks _ target (h.rewound.links _ target htarget)
  -- the action, and what it makes of the place
  obtain ⟨action, haction, hpath, outcome, houtcome, hne, hcontents⟩ : ∃ action,
      UndoAction.ofChange? (r.run root) (recordOf index entry) = some action ∧
      action.fullPath = some entry.fullPath ∧ ∃ outcome, (undo action token tree).1 = .ok outcome ∧
        outcome.status ≠ .error ∧
        (undo action token tree).2.contents? (directory ++ [name]) = keptBytes? entry := by
    cases hkept : keptBytes? entry with
    | none =>
      rw [hkept] at status
      simp only [Option.isSome_none, Bool.false_eq_true, if_false] at status
      refine ⟨_, by rw [UndoAction.ofChange?, recordOf, status]; rfl, rfl, ?_⟩
      exact undo_delete rfl rfl haim' hdir hplain
    | some contents =>
      rw [hkept] at status
      simp only [Option.isSome_some, if_true] at status
      have hbackup : (recordOf index entry).backup = some (backupName (some entry.path) index) :=
        backup_recordOf.mpr ⟨by rw [hkept]; rfl, rfl⟩
      have hstatus : UndoKind.ofStatus? (recordOf index entry).status = some .restore := by
        rw [recordOf, status]
        rfl
      refine ⟨_, by rw [UndoAction.ofChange?, hstatus]; rfl, rfl, ?_⟩
      exact undo_restore h.rewound.sound rfl rfl hbackup (backupName_isName _ _).1
        (h.read_backup hr (backup contents hkept)) haim' hdir hfresh hname
  rw [haction]
  refine ⟨_, undoes_singleton houtcome hne, ?_⟩
  rcases undo_changed h.rewound.sound hpath haim' hdir hfresh hname with hsame | hchanged
  · refine ⟨hsame.symm ▸ h, ?_⟩
    rw [hsame] at hcontents ⊢
    rw [← hcontents, ← outside_of_not apart, Function.update_eq_self]
  · rw [← hcontents]
    exact h.changed hloose apart hchanged

/-- The changes of a run are undone, the last one first. -/
lemma undo_changes (h : Standing start root place other kept tree) (sound : start.Sound)
    (fresh : IsFreshToken token start) (hr : r ∈ kept) {changes : List Change} {index : Nat}
    {before : Place → Option Bytes}
    (trail : Trail start place before changes (outside place tree))
    (plain : ∀ change ∈ changes, ".." ∉ (Path.ofText change.entry.fullPath).names)
    (files : ∀ change ∈ changes, ∃ goal bytes,
      start.locate true (.ofText change.entry.fullPath) = .ok ⟨goal, some (.file bytes)⟩)
    (backups : ∀ backup contents, KeepsUnder index (changes.map (·.entry)) backup contents →
      KeepsUnder 0 r.entries backup contents) :
    ∃ after, Undoes token ((recordsFrom index (changes.map (·.entry))).reverse.filterMap
        (UndoAction.ofChange? (r.run root))) tree after ∧
      Standing start root place other kept after ∧ outside place after = before := by
  generalize hbehind : outside place tree = behind at trail
  induction trail generalizing index tree with
  | nil => exact ⟨tree, undoes_nil token tree, h, hbehind⟩
  | @cons before behind change changes goal node located apart status kept' rest ih =>
    obtain ⟨middle, hmiddle, hstanding, houtside⟩ := ih h (fun c hc => plain c (by simp [hc]))
      (fun c hc => files c (by simp [hc])) (fun backup contents hkept =>
        backups backup contents (keepsUnder_cons.mpr (.inr hkept))) hbehind
    obtain ⟨goal', bytes, hfile⟩ := files change (by simp)
    obtain ⟨rfl, rfl⟩ : goal = goal' ∧ node = some (.file bytes) := by
      rw [located, Except.ok.injEq, Found.mk.injEq] at hfile
      exact hfile
    obtain ⟨after, hafter, hstanding', houtside'⟩ := undo_change index hstanding sound
      fresh hr located apart status fun contents hcontents =>
        backups _ contents (keepsUnder_cons.mpr (.inl ⟨hcontents, rfl⟩))
    refine ⟨after, ?_, hstanding', ?_⟩
    · rw [List.map_cons, recordsFrom, List.reverse_cons, List.filterMap_append]
      refine hmiddle.append ?_
      rw [List.filterMap_cons, List.filterMap_nil]
      cases haction : UndoAction.ofChange? (r.run root) (recordOf index change.entry) with
      | none => simpa [haction] using hafter
      | some action => simpa [haction] using hafter
    · rw [houtside', houtside, kept' (plain change (by simp)), Function.update_idem,
        Function.update_eq_self]

/-- **A run is undone**: its files get the bytes that they had before it. -/
lemma undo_run (h : Standing start root place other kept tree) (sound : start.Sound)
    (fresh : IsFreshToken token start) (hr : r ∈ kept) {deed : Deed} (own : deed.IsKeptAs r)
    {before : Place → Option Bytes}
    (trail : Trail start place before deed.changes (outside place tree))
    (plain : ∀ change ∈ deed.changes, ".." ∉ (Path.ofText change.entry.fullPath).names)
    (files : ∀ change ∈ deed.changes, ∃ goal bytes,
      start.locate true (.ofText change.entry.fullPath) = .ok ⟨goal, some (.file bytes)⟩) :
    ∃ after, Undoes token (undoOf (r.run root)) tree after ∧
      Standing start root place other kept after ∧ outside place after = before := by
  have hentries : (r.run root).manifest.entries = recordsFrom 0 (deed.changes.map (·.entry)) := by
    rw [← own.entries]
    exact r.lists
  rw [undoOf, hentries]
  refine undo_changes h sound fresh hr trail plain files fun backup contents hkept => ?_
  rwa [own.entries]

/-- **Runs are undone**, the last one first: all files get the bytes that they had before
the first one. -/
lemma undo_runs (h : Standing start root place other kept tree) (sound : start.Sound)
    (fresh : IsFreshToken token start) {deeds : List Deed} {runs : List KeptRun}
    (own : List.Forall₂ Deed.IsKeptAs deeds runs) (sub : ∀ r ∈ runs, r ∈ kept)
    {before : Place → Option Bytes}
    (trail : Trail start place before (deeds.flatMap (·.changes)) (outside place tree))
    (plain : ∀ change ∈ deeds.flatMap (·.changes),
      ".." ∉ (Path.ofText change.entry.fullPath).names)
    (files : ∀ change ∈ deeds.flatMap (·.changes), ∃ goal bytes,
      start.locate true (.ofText change.entry.fullPath) = .ok ⟨goal, some (.file bytes)⟩) :
    ∃ after, Undoes token ((runs.map (·.run root)).reverse.flatMap undoOf) tree after ∧
      Standing start root place other kept after ∧ outside place after = before := by
  induction own generalizing before with
  | nil =>
    rw [List.flatMap_nil] at trail
    generalize hbehind : outside place tree = behind at trail
    cases trail
    exact ⟨tree, undoes_nil token tree, h, hbehind⟩
  | @cons deed r deeds runs hdeed _ ih =>
    rw [List.flatMap_cons] at trail plain files
    obtain ⟨between, hfirst, hrest⟩ := Trail.append_iff.mp trail
    obtain ⟨middle, hmiddle, hstanding, rfl⟩ := ih (fun r hr => sub r (by simp [hr])) hrest
      (fun c hc => plain c (List.mem_append_right _ hc))
      (fun c hc => files c (List.mem_append_right _ hc))
    obtain ⟨after, hafter, hstanding', houtside⟩ := undo_run hstanding sound fresh
      (sub r (by simp)) hdeed hfirst (fun c hc => plain c (List.mem_append_left _ hc))
      (fun c hc => files c (List.mem_append_left _ hc))
    refine ⟨after, ?_, hstanding', houtside⟩
    rw [List.map_cons, List.reverse_cons, List.flatMap_append, List.flatMap_singleton]
    exact hmiddle.append hafter

end Runs

/-! ### Orderly histories -/

/-- What the last tree of a history has to satisfy so that executions can be undone in it,
for a root in which the runs lie. -/
def IsOrderly (sessions : List Session) (root : Path) (place : Place) (token : String)
    (after : FileTree) : Prop :=
  after.isDirectory root = .ok true ∧ IsTop after root place ∧
    (∀ session ∈ sessions, session.Fits root after place) ∧ IsFreshToken token after

instance (sessions : List Session) (root : Path) (place : Place) (token : String)
    (after : FileTree) : Decidable (IsOrderly sessions root place token after) :=
  inferInstanceAs (Decidable (_ ∧ _ ∧ _ ∧ _))

end Scaffold
