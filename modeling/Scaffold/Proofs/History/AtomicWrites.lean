import Mathlib.Data.PNat.Basic
import Scaffold.Proofs.History.Undoing

/-!
Atomic writes under faults.

A file is filled under a temporary name and then gets its own. The system may refuse any call on
the way, and it may take fewer bytes than it is offered, so a loop offers it the rest. Whatever
happens, one place at most differs until the temporary file has its final name, and this is the
place that is cleaned up at the end.

* `Replies`: what the system answers; `pour`, `fill`, `publish`, `atomicWriteWith`: an atomic write
  with these answers.
* `pour_put`: what the loop puts into the temporary file, one call after another.
* `fill_put`, `publish_put`: what a filled file holds, and what becomes of it.
* `IsUnused`: nothing is where a path leads; `Put.isUnused`: another file does not change that for
  the temporary path.
* `Replaced`: what is promised when all has gone well; `atomicWriteWith_cases`: it is kept, or the
  tree is as it was.
* `atomicWriteWith_of_willing`: with a system that refuses nothing it is a write all at once.
* `atomicWriteWith_atomic` (**all or nothing**): a write that fails has changed nothing, and one
  that does not has replaced one file.
-/

namespace Scaffold.Files

/-! ### The calls -/

/-- What the system answers to the calls of an atomic write. The last calls make the directory
durable; what is answered to them makes no difference, since their faults are passed over. -/
structure Replies where
  /-- The number of the error with which the temporary file is not opened. -/
  opening : Option Nat
  /-- How many bytes are taken at each turn, or the number of an error. -/
  writing : Nat → Except Nat ℕ+
  /-- The number of the error with which the contents are not made durable. -/
  syncing : Option Nat
  /-- The number of the error with which the file is not closed. -/
  closing : Option Nat
  /-- The number of the error with which the file does not get its final name. -/
  naming : Option Nat

/-- The system refuses nothing. -/
structure Replies.Willing (replies : Replies) : Prop where
  /-- The temporary file may be opened. -/
  opening : replies.opening = none
  /-- Some bytes are taken at each turn. -/
  writing : ∀ turn, ∃ count, replies.writing turn = .ok count
  /-- The contents can be made durable. -/
  syncing : replies.syncing = none
  /-- The file can be closed. -/
  closing : replies.closing = none
  /-- The file may get its final name. -/
  naming : replies.naming = none

/-- Why a file is not written. -/
inductive WriteFault
  /-- It follows from what is in the tree. -/
  | found (fault : Fault)
  /-- The system refuses a call, for the reason with a number. -/
  | refused (errno : Nat)
  deriving DecidableEq, Repr

namespace FileTree

/-- The loop that puts bytes at the end of a file: as many as the system takes at each turn, until
none is left. -/
def pour (answers : Nat → Except Nat ℕ+) (path : Path) (turn : Nat) (view : Bytes)
    (tree : FileTree) : Option WriteFault × FileTree :=
  match view with
  | [] => (none, tree)
  | byte :: bytes =>
    match answers turn with
    | .error errno => (some (.refused errno), tree)
    | .ok count =>
      match tree.append path ((byte :: bytes).take count) with
      | .error fault => (some (.found fault), tree)
      | .ok grown => pour answers path (turn + 1) ((byte :: bytes).drop count) grown
termination_by view.length
decreasing_by
  rw [List.length_drop, List.length_cons]
  exact Nat.sub_lt (Nat.succ_pos _) count.pos

/-- A file is made or emptied, and filled. It is closed in any case, and if this fails then this is
the fault. -/
def fill (replies : Replies) (path : Path) (contents : Bytes) (tree : FileTree) :
    Option WriteFault × FileTree :=
  match replies.opening with
  | some errno => (some (.refused errno), tree)
  | none =>
    match tree.write path [] with
    | .error fault => (some (.found fault), tree)
    | .ok opened =>
      let poured := opened.pour replies.writing path 0 contents
      let written := poured.1.or (replies.syncing.map .refused)
      ((replies.closing.map .refused).or written, poured.2)

/-- A file that has been filled gets its final name. -/
def publish (replies : Replies) (temporary final : Path) (filled : FileTree) :
    Option WriteFault × FileTree :=
  match replies.naming with
  | some errno => (some (.refused errno), filled)
  | none =>
    match filled.rename temporary final with
    | .error fault => (some (.found fault), filled)
    | .ok published => (none, published)

/-- A file gets its contents all at once, with some answers of the system. The temporary file is
removed at the end if it is still there, whatever has happened. -/
def atomicWriteWith (replies : Replies) (final : Path) (contents : Bytes) (label token : String)
    (tree : FileTree) : Option WriteFault × FileTree :=
  let temporary := temporaryPath final label token
  let ended := match tree.fill replies temporary contents with
    | (none, filled) => filled.publish replies temporary final
    | failed => failed
  (ended.1, ended.2.dropTemporary temporary)

variable {tree tree' filled : FileTree} {path final : Path} {directory goal p : Place}
  {name label token : String} {contents before : Bytes} {replies : Replies}

/-! ### Trees with the same nodes -/

lemma Alike.refl (tree : FileTree) : Alike tree tree :=
  ⟨rfl, fun _ => rfl⟩

lemma Alike.remove (h : Alike tree tree') (p : Place) :
    Alike (tree.remove p) (tree'.remove p) := by
  refine ⟨by simp [h.workplace], fun q => ?_⟩
  by_cases hp : p = []
  · by_cases hq : q = []
    · rw [hq]
      rfl
    · rw [node?_remove_of_ne (hp ▸ hq), node?_remove_of_ne (hp ▸ hq), h.node]
  · rw [node?_remove hp, node?_remove hp, h.node]

lemma Alike.set (h : Alike tree tree') (p : Place) (node : Node) :
    Alike (tree.set p node) (tree'.set p node) := by
  refine ⟨by simp [h.workplace], fun q => ?_⟩
  by_cases hp : p = []
  · by_cases hq : q = []
    · rw [hq]
      rfl
    · rw [node?_set_of_ne (hp ▸ hq), node?_set_of_ne (hp ▸ hq), h.node]
  · rw [node?_set hp, node?_set hp, h.node]

/-- Renaming fails in both trees for the same reason, or it makes trees with the same nodes. -/
lemma Alike.rename (h : Alike tree tree') (source target : Path) :
    (∃ fault, tree.rename source target = .error fault ∧
      tree'.rename source target = .error fault) ∨
    ∃ renamed renamed', tree.rename source target = .ok renamed ∧
      tree'.rename source target = .ok renamed' ∧ Alike renamed renamed' := by
  rw [FileTree.rename, FileTree.rename, h.locate, h.locate]
  cases tree.locate false source with
  | error fault => exact .inl ⟨fault, rfl, rfl⟩
  | ok found =>
    cases tree.locate false target with
    | error fault => exact .inl ⟨fault, rfl, rfl⟩
    | ok goal =>
      simp only [bind, Except.bind]
      split
      · exact .inl ⟨_, rfl, rfl⟩
      · exact .inl ⟨_, rfl, rfl⟩
      · exact .inr ⟨_, _, rfl, rfl, (h.remove _).set _ _⟩

lemma Alike.dropTemporary (h : Alike tree tree') (path : Path) :
    Alike (tree.dropTemporary path) (tree'.dropTemporary path) := by
  rw [FileTree.dropTemporary, FileTree.dropTemporary, FileTree.delete, FileTree.delete, h.locate]
  cases tree.locate false path with
  | error fault => exact h
  | ok found =>
    obtain ⟨place, node⟩ := found
    rcases node with _ | (contents | _ | target)
    · exact h
    · exact h.remove place
    · exact h
    · exact h.remove place

/-- Trees in which the same file has been put at the same place have the same nodes. -/
lemma Put.alike (h : Put p contents tree tree') (h' : Put p contents tree filled) :
    Alike tree' filled :=
  ⟨h'.workplace.trans h.workplace.symm, fun q => (h'.node q).trans (h.node q).symm⟩

/-! ### The loop -/

/-- A turn of the loop adds to the file. -/
lemma append_put (sound : tree.Sound)
    (located : tree.locate true path = .ok ⟨p, some (.file before)⟩) (chunk : Bytes) :
    ∃ grown, tree.append path chunk = .ok grown ∧ Put p (before ++ chunk) tree grown ∧
      grown.locate true path = .ok ⟨p, some (.file (before ++ chunk))⟩ := by
  have hnode := node?_of_locate located
  have hput := put_set sound (.inr ⟨before, hnode⟩) (sound.closed p _ hnode) (before ++ chunk)
  refine ⟨_, ?_, hput, ?_⟩
  · rw [FileTree.append, located]
    rfl
  · rw [(hput.keeps (.inr ⟨before, hnode⟩)).locate located, hput.file]

/-- **The loop** puts the first bytes of what it is given at the end of a file, and all of them when
it does not fail. It does not fail when bytes are taken at each turn. -/
lemma pour_put (answers : Nat → Except Nat ℕ+) (turn : Nat) (view : Bytes) (sound : tree.Sound)
    (located : tree.locate true path = .ok ⟨p, some (.file before)⟩) :
    ∃ taken, taken <+: view ∧ Put p (before ++ taken) tree (tree.pour answers path turn view).2 ∧
      ((tree.pour answers path turn view).1 = none → taken = view) ∧
      ((∀ turn, ∃ count, answers turn = .ok count) →
        (tree.pour answers path turn view).1 = none) := by
  have hself : Put p (before ++ []) tree tree := by
    rw [List.append_nil]
    exact put_self sound (node?_of_locate located)
  fun_induction pour answers path turn view tree generalizing before with
  | case1 turn tree => exact ⟨[], List.prefix_rfl, hself, fun _ => rfl, fun _ => rfl⟩
  | case2 turn tree byte bytes errno hanswer =>
    refine ⟨[], List.nil_prefix, hself, nofun, fun willing => ?_⟩
    obtain ⟨count, hcount⟩ := willing turn
    rw [hanswer] at hcount
    cases hcount
  | case3 turn tree byte bytes count hanswer fault happend =>
    obtain ⟨grown, hgrown, -⟩ := append_put sound located ((byte :: bytes).take count)
    rw [happend] at hgrown
    cases hgrown
  | case4 turn tree byte bytes count hanswer grown happend ih =>
    obtain ⟨grown', hgrown, hput, hlocated⟩ :=
      append_put sound located ((byte :: bytes).take count)
    obtain rfl : grown = grown' := by
      rw [happend] at hgrown
      exact Except.ok.inj hgrown
    obtain ⟨taken, hprefix, hrest, hall, hwilling⟩ := ih hput.sound hlocated (by
      rw [List.append_nil]
      exact put_self hput.sound hput.file)
    -- what this turn has taken stands before what the other turns take
    have hview := List.take_append_drop count (byte :: bytes)
    refine ⟨(byte :: bytes).take count ++ taken, ?_, ?_, fun hnone => ?_, hwilling⟩
    · have hmore := (List.prefix_append_right_inj ((byte :: bytes).take count)).mpr hprefix
      rwa [hview] at hmore
    · rw [← List.append_assoc]
      exact hput.trans hrest
    · rw [hall hnone, hview]

/-! ### The temporary file -/

/-- Nothing is where a path leads, if it leads anywhere; its last link is not followed. -/
def IsUnused (tree : FileTree) (path : Path) : Prop :=
  ∀ found, tree.locate false path = .ok found → found.node = none

instance (tree : FileTree) (path : Path) : Decidable (tree.IsUnused path) :=
  match h : tree.locate false path with
  | .error _ => isTrue fun found hfound => by rw [h] at hfound; cases hfound
  | .ok found => decidable_of_iff (found.node = none)
    ⟨fun hnone other hother => by rw [h] at hother; exact Except.ok.inj hother ▸ hnone,
      fun hunused => hunused found h⟩

/-- A temporary path that leads somewhere aims at an empty place. -/
lemma IsUnused.exists_aim {follow : Bool} {found : Found}
    (unused : tree.IsUnused (temporaryPath final label token))
    (located : tree.locate follow (temporaryPath final label token) = .ok found) :
    ∃ directory, tree.Aim (temporaryPath final label token) directory (temporaryName label token) ∧
      tree.node? (directory ++ [temporaryName label token]) = none := by
  obtain ⟨directory, haim⟩ := exists_aim_temporary located
  exact ⟨directory, haim, unused _ haim.locate_false⟩

/-- Where nothing is, nothing is taken away. -/
lemma IsUnused.dropTemporary (unused : tree.IsUnused path) : tree.dropTemporary path = tree := by
  rw [FileTree.dropTemporary, FileTree.delete]
  cases hfound : tree.locate false path with
  | error fault => rfl
  | ok found =>
    obtain ⟨place, node⟩ := found
    obtain rfl : node = none := unused _ hfound
    rfl

/-- When the temporary file has been taken away everything is as it was. -/
lemma Put.dropTemporary (put : Put (directory ++ [name]) contents tree filled)
    (aim : tree.Aim path directory name) (missing : tree.node? (directory ++ [name]) = none) :
    Alike tree (filled.dropTemporary path) := by
  have hlocate := (aim.keeps (put.keeps (.inl missing))).locate_false
  rw [put.file] at hlocate
  have hdrop : filled.dropTemporary path = filled.remove (directory ++ [name]) := by
    rw [FileTree.dropTemporary, FileTree.delete, hlocate]
    rfl
  rw [hdrop]
  exact ⟨by rw [workplace_remove, put.workplace], put.node?_remove missing⟩

/-- A file with another name does not bring a temporary file. The way to its directory may have
gone through a link that the file has replaced, but no new way has come. -/
lemma Put.isUnused (put : Put (directory ++ [name]) contents tree tree')
    (unused : tree.IsUnused (temporaryPath final label token))
    (ne : name ≠ temporaryName label token) :
    tree'.IsUnused (temporaryPath final label token) := by
  intro found located
  obtain ⟨directory', haim⟩ := exists_aim_temporary located
  have haim' : tree.Aim (temporaryPath final label token) directory'
      (temporaryName label token) := by
    obtain ⟨hholds, hleads⟩ := locate_eq_ok_iff.mp haim.parent
    rw [FileTree.start, put.workplace] at hleads
    refine ⟨locate_eq_ok_iff.mpr ⟨hholds, hleads.changed rfl (p := directory ++ [name])
      (fun q hq => ?_) ?_ ?_⟩, haim.names, haim.entry, haim.zero⟩
    · rw [put.node, if_neg hq]
    · simp [put.file]
    · exact fun target htarget => by simp [put.file] at htarget
  have hmissing : tree.node? (directory' ++ [temporaryName label token]) = none :=
    unused _ haim'.locate_false
  have hplace : directory' ++ [temporaryName label token] ≠ directory ++ [name] := by
    intro heq
    exact ne (by simpa using (List.append_inj' heq rfl).2.symm)
  have hfound := haim.locate_false
  rw [put.node, if_neg hplace, hmissing] at hfound
  rw [← Except.ok.inj (hfound.symm.trans located)]

/-! ### Filling -/

/-- **A file is filled** with the first bytes of what it is given, with all of them when nothing
fails. -/
lemma fill_put (sound : tree.Sound) (aim : tree.Aim path directory name)
    (missing : tree.node? (directory ++ [name]) = none) (opening : replies.opening = none)
    (contents : Bytes) :
    ∃ taken, taken <+: contents ∧
      Put (directory ++ [name]) taken tree (tree.fill replies path contents).2 ∧
      ((tree.fill replies path contents).1 = none →
        taken = contents ∧ replies.syncing = none ∧ replies.closing = none) ∧
      (replies.Willing → (tree.fill replies path contents).1 = none) := by
  obtain ⟨p, hp⟩ : ∃ p, p = directory ++ [name] := ⟨_, rfl⟩
  rw [← hp] at missing ⊢
  have hlocate := aim.locate_true (by rw [← hp, missing]; simp)
  rw [← hp] at hlocate
  have hparent : tree.node? p.dropLast = some .directory := by
    rw [hp, List.dropLast_concat]
    exact node?_of_locate aim.parent
  have hwrite : tree.write path [] = .ok (tree.set p (.file [])) :=
    write_eq_ok_iff.mpr ⟨p, hlocate, .inl missing, rfl⟩
  have hopened := put_set sound (.inl missing) hparent []
  obtain ⟨taken, hprefix, hput, hall, hwilling⟩ := pour_put replies.writing 0 contents hopened.sound
    (locate_set_file hlocate (.inl missing) [])
  rw [fill, opening, hwrite]
  refine ⟨taken, hprefix, hopened.trans hput, fun hnone => ?_, fun willing => ?_⟩
  · simp only [Option.or_eq_none_iff, Option.map_eq_none_iff] at hnone
    obtain ⟨hclosing, hpoured, hsyncing⟩ := hnone
    exact ⟨hall hpoured, hsyncing, hclosing⟩
  · simp only [Option.or_eq_none_iff, Option.map_eq_none_iff]
    exact ⟨willing.closing, hwilling willing.writing, willing.syncing⟩

/-! ### The final name -/

/-- A path that leads to something else than a directory aims into the directory of its parent. -/
lemma aim_of_located {node : Option Node} (sound : tree.Sound)
    (parent : tree.locate true path.parent = .ok ⟨directory, some .directory⟩)
    (located : tree.locate false path = .ok ⟨goal, node⟩) (there : node ≠ some .directory) :
    tree.Aim path directory path.name ∧ goal = directory ++ [path.name] := by
  have hdir := node?_of_locate parent
  obtain ⟨hholds, hleads⟩ := locate_eq_ok_iff.mp located
  rcases List.eq_nil_or_concat path.names with hnil | ⟨above, name, hnames⟩
  · -- without names the path leads to the directory in which it starts
    rw [hnil] at hleads
    have hfound := hleads.unique .here
    rw [sound.start, Found.mk.injEq] at hfound
    exact absurd hfound.2 there
  rw [List.concat_eq_append] at hnames
  have habove : path.parent.names = above := by simp [Path.parent, hnames]
  have hname : path.name = name := by simp [Path.name, hnames]
  have hpath : path = ⟨path.parent.anchor, path.parent.names ++ [name]⟩ := by
    rw [habove, ← hnames]
    rfl
  obtain ⟨fewer, hfewer⟩ := (locate_eq_ok_iff.mp parent).2.append rfl
  have hlast : Leads tree false fewer directory [name] ⟨goal, node⟩ := by
    refine (hfewer false [name] _ (by simp)).mp ?_
    rw [habove, ← hnames]
    exact hleads
  -- dots lead to directories
  have hdot : name ≠ "." := by
    rintro rfl
    have hfound := hlast.of_dot.unique .here
    rw [hdir, Found.mk.injEq] at hfound
    exact there hfound.2
  have hup : name ≠ ".." := by
    rintro rfl
    have hfound := hlast.of_up.unique .here
    rw [sound.closed _ _ hdir, Found.mk.injEq] at hfound
    exact there hfound.2
  rw [hpath] at located
  obtain ⟨hentry, hzero⟩ := isEntry_of_child parent located hdot hup
  rw [hname]
  exact ⟨⟨parent, by rw [habove, hnames], hentry, hzero⟩,
    place_of_child_unfollowed parent located hdot hup⟩

/-- **A filled file gets its final name**, or it stays where it is. -/
lemma publish_put
    (aim : tree.Aim (temporaryPath final label token) directory (temporaryName label token))
    (missing : tree.node? (directory ++ [temporaryName label token]) = none)
    (ne : final.name ≠ temporaryName label token)
    (put : Put (directory ++ [temporaryName label token]) contents tree filled) :
    (∃ fault, filled.publish replies (temporaryPath final label token) final =
      (some fault, filled)) ∨
    ∃ after, filled.publish replies (temporaryPath final label token) final = (none, after) ∧
      replies.naming = none ∧ tree.Aim final directory final.name ∧
      tree.node? (directory ++ [final.name]) ≠ some .directory ∧
      Put (directory ++ [final.name]) contents tree after := by
  have hparent : tree.locate true final.parent = .ok ⟨directory, some .directory⟩ := by
    have := aim.parent
    rwa [temporaryPath_eq, Path.parent_append] at this
  have hkeeps := put.keeps (.inl missing)
  rw [publish]
  cases hnaming : replies.naming with
  | some errno => exact .inl ⟨_, rfl⟩
  | none =>
    cases hrename : filled.rename (temporaryPath final label token) final with
    | error fault => exact .inl ⟨_, rfl⟩
    | ok after =>
      refine .inr ⟨after, rfl, rfl, ?_⟩
      have hsource := (aim.keeps hkeeps).locate_false
      rw [put.file] at hsource
      cases hlocate : filled.locate false final with
      | error fault =>
        rw [FileTree.rename, hsource, hlocate] at hrename
        cases hrename
      | ok found =>
        obtain ⟨goal, node⟩ := found
        rw [rename_filled hsource hlocate] at hrename
        split_ifs at hrename with hdir
        obtain ⟨haim, rfl⟩ :=
          aim_of_located put.sound (hkeeps.locate_directory hparent) hlocate hdir
        have hgoal : directory ++ [final.name] ≠ directory ++ [temporaryName label token] := by
          simpa using ne
        rw [← node?_of_locate hlocate, put.node, if_neg hgoal] at hdir
        rw [← Except.ok.inj hrename]
        refine ⟨⟨hparent, haim.names, haim.entry, haim.zero⟩, hdir,
          put.renamed missing (by simp) ?_ hdir⟩
        rw [List.dropLast_concat]
        exact node?_of_locate hparent

/-! ### All or nothing -/

/-- What is promised when a file has been written: it has its contents at the place of its path,
everything else is as it was, and no temporary file is left. -/
structure Replaced (final temporary : Path) (contents : Bytes) (directory : Place)
    (tree after : FileTree) : Prop where
  /-- The path leads into a directory. -/
  aim : tree.Aim final directory final.name
  /-- There was no other directory at its end. -/
  plain : tree.node? (directory ++ [final.name]) ≠ some .directory
  /-- The file has its contents, and all other places are as they were. -/
  put : Put (directory ++ [final.name]) contents tree after
  /-- No temporary file is left. -/
  gone : after.IsUnused temporary

/-- The contents are read back, unless a link has been replaced that led to a directory. -/
lemma Replaced.read {temporary : Path} {after : FileTree}
    (h : Replaced final temporary contents directory tree after)
    (nowhere : tree.LeadsNowhere (directory ++ [final.name])) : after.read final = .ok contents := by
  have hways := sameWays_of_changed h.put.workplace
    (fun q hq => by rw [h.put.node, if_neg hq]) h.plain nowhere (.inr ⟨_, h.put.file⟩)
  have hlocate := (h.aim.sameWays hways).locate_true (by simp [h.put.file])
  rw [h.put.file] at hlocate
  exact read_eq_ok_iff.mpr ⟨_, hlocate⟩

/-- **All or nothing**: the tree is as it was, or the file has been replaced and nothing has been
refused. -/
lemma atomicWriteWith_cases (replies : Replies) (contents : Bytes) (sound : tree.Sound)
    (unused : tree.IsUnused (temporaryPath final label token))
    (ne : final.name ≠ temporaryName label token) :
    (∃ fault after, tree.atomicWriteWith replies final contents label token = (some fault, after) ∧
      Alike tree after) ∨
    ∃ directory after, tree.atomicWriteWith replies final contents label token = (none, after) ∧
      Replaced final (temporaryPath final label token) contents directory tree after ∧
      tree.Aim (temporaryPath final label token) directory (temporaryName label token) ∧
      replies.opening = none ∧ replies.syncing = none ∧ replies.closing = none ∧
      replies.naming = none := by
  have hdrop := unused.dropTemporary
  -- without a temporary file there is nothing to clean up
  have hearly : ∀ fault, tree.fill replies (temporaryPath final label token) contents =
      (some fault, tree) → ∃ fault after,
        tree.atomicWriteWith replies final contents label token = (some fault, after) ∧
          Alike tree after := by
    intro fault hfill
    refine ⟨fault, tree, ?_, .refl tree⟩
    simp only [atomicWriteWith, hfill, hdrop]
  cases hopening : replies.opening with
  | some errno => exact .inl (hearly (.refused errno) (by rw [fill, hopening]))
  | none =>
    cases hlocate : tree.locate true (temporaryPath final label token) with
    | error fault =>
      refine .inl (hearly (.found fault) ?_)
      rw [fill, hopening, FileTree.write, hlocate]
      rfl
    | ok found =>
      obtain ⟨directory, haim, hmissing⟩ := unused.exists_aim hlocate
      obtain ⟨taken, -, hput, hall, -⟩ := fill_put sound haim hmissing hopening contents
      cases hfill : tree.fill replies (temporaryPath final label token) contents with
      | mk fault filled =>
        rw [hfill] at hput hall
        have hclean := hput.dropTemporary haim hmissing
        cases fault with
        | some fault =>
          refine .inl ⟨fault, _, ?_, hclean⟩
          simp only [atomicWriteWith, hfill]
        | none =>
          obtain ⟨rfl, hsyncing, hclosing⟩ := hall rfl
          obtain ⟨fault, hpublish⟩ | ⟨after, hpublish, hnaming, haim', hplain, hafter⟩ :=
            @publish_put _ _ _ _ _ _ _ replies haim hmissing ne hput
          · refine .inl ⟨fault, _, ?_, hclean⟩
            simp only [atomicWriteWith, hfill, hpublish]
          · have hgone := hafter.isUnused unused ne
            refine .inr ⟨directory, after, ?_, ⟨haim', hplain, hafter, hgone⟩, haim, rfl, hsyncing,
              hclosing, hnaming⟩
            simp only [atomicWriteWith, hfill, hpublish, hgone.dropTemporary]

/-- When nothing is refused the loop makes no difference: the outcome is that of a write all at
once. -/
lemma atomicWriteWith_of_willing (willing : replies.Willing) (contents : Bytes) (sound : tree.Sound)
    (unused : tree.IsUnused (temporaryPath final label token))
    (ne : final.name ≠ temporaryName label token) :
    (tree.atomicWriteWith replies final contents label token).1 =
        (tree.atomicWrite final contents label token).1.map .found ∧
      Alike (tree.atomicWrite final contents label token).2
        (tree.atomicWriteWith replies final contents label token).2 := by
  cases hlocate : tree.locate true (temporaryPath final label token) with
  | error fault =>
    have hwrite : tree.write (temporaryPath final label token) [] = .error fault := by
      rw [FileTree.write, hlocate]
      rfl
    have hfill : tree.fill replies (temporaryPath final label token) contents =
        (some (.found fault), tree) := by
      rw [fill, willing.opening, hwrite]
    have honce : tree.atomicWrite final contents label token = (some fault, tree) := by
      rw [FileTree.atomicWrite, atomicSteps, List.cons_append]
      simp only [FileTree.performAll, perform, hwrite, settle, unused.dropTemporary]
    have hturns : tree.atomicWriteWith replies final contents label token =
        (some (.found fault), tree) := by
      simp only [atomicWriteWith, hfill, unused.dropTemporary]
    rw [honce, hturns]
    exact ⟨rfl, .refl tree⟩
  | ok found =>
    obtain ⟨directory, haim, hmissing⟩ := unused.exists_aim hlocate
    obtain ⟨taken, -, hput, hall, hwilling⟩ :=
      fill_put sound haim hmissing willing.opening contents
    obtain ⟨rfl, -⟩ := hall (hwilling willing)
    obtain ⟨once, hsteps, honce⟩ := performAll_filled sound haim hmissing final taken
    cases hfill : tree.fill replies (temporaryPath final label token) taken with
    | mk fault filled =>
      rw [hfill] at hput hwilling
      obtain rfl : fault = none := hwilling willing
      have halike := honce.alike hput
      obtain ⟨fault, hrename, hrename'⟩ | ⟨renamed, renamed', hrename, hrename', hrenamed⟩ :=
        halike.rename (temporaryPath final label token) final
      · simp only [atomicWriteWith, hfill, publish, willing.naming, hrename', FileTree.atomicWrite,
          hsteps, hrename, settle]
        exact ⟨rfl, halike.dropTemporary _⟩
      · have hpublish : filled.publish replies (temporaryPath final label token) final =
            (none, renamed') := by
          simp only [publish, willing.naming, hrename']
        obtain ⟨fault, hfault⟩ | ⟨after, hafter, -, -, -, hput'⟩ :=
          @publish_put _ _ _ _ _ _ _ replies haim hmissing ne hput
        · rw [hpublish] at hfault
          cases hfault
        · obtain rfl : renamed' = after := by
            rw [hpublish] at hafter
            exact (Prod.mk.inj hafter).2
          have hgone := (hput'.isUnused unused ne).dropTemporary
          simp only [atomicWriteWith, hfill, hpublish, hgone, FileTree.atomicWrite, hsteps, hrename,
            settle]
          exact ⟨rfl, hrenamed⟩

/-- When nothing is refused a write succeeds exactly if the path and the temporary one lead into a
directory and there is no other directory at the end of the path. -/
lemma atomicWriteWith_eq_none_iff (willing : replies.Willing) (contents : Bytes)
    (sound : tree.Sound) (unused : tree.IsUnused (temporaryPath final label token))
    (ne : final.name ≠ temporaryName label token) :
    (tree.atomicWriteWith replies final contents label token).1 = none ↔
      ∃ directory, tree.Aim final directory final.name ∧
        tree.node? (directory ++ [final.name]) ≠ some .directory ∧
        tree.Aim (temporaryPath final label token) directory (temporaryName label token) := by
  constructor
  · intro hnone
    obtain ⟨fault, after, hafter, -⟩ | ⟨directory, after, -, hreplaced, haim, -⟩ :=
      atomicWriteWith_cases replies contents sound unused ne
    · rw [hafter] at hnone
      cases hnone
    · exact ⟨directory, hreplaced.aim, hreplaced.plain, haim⟩
  · rintro ⟨directory, haim, hplain, haim'⟩
    obtain ⟨after, hafter, -⟩ := atomicWrite_put sound haim hplain haim'.entry haim'.zero
      (unused _ haim'.locate_false) ne contents
    rw [(atomicWriteWith_of_willing willing contents sound unused ne).1, hafter]
    rfl

/-- **Atomic writes.** When a call of an atomic write fails everything is as it was, and no temporary
file is left. When none does, the file of the path has exactly the given bytes and nothing else has
changed. The loop comes to its end whatever numbers of bytes are taken at its turns, and puts all
bytes at the end of its file in their order, each of them once. When the system refuses nothing a
write succeeds exactly if both paths lead into a directory in which no other directory has the name
of the file, and its outcome is that of filling the temporary file in a single turn. -/
theorem atomicWriteWith_atomic (replies : Replies) (contents : Bytes) (sound : tree.Sound)
    (unused : tree.IsUnused (temporaryPath final label token))
    (ne : final.name ≠ temporaryName label token) :
    (∃ fault after, tree.atomicWriteWith replies final contents label token = (fault, after) ∧
      (fault ≠ none → Alike tree after ∧ after.IsUnused (temporaryPath final label token)) ∧
      (fault = none →
        (∃ directory,
          Replaced final (temporaryPath final label token) contents directory tree after ∧
          (tree.LeadsNowhere (directory ++ [final.name]) → after.read final = .ok contents)) ∧
        replies.opening = none ∧ replies.syncing = none ∧ replies.closing = none ∧
          replies.naming = none) ∧
      (replies.Willing →
        (fault = none ↔ ∃ directory, tree.Aim final directory final.name ∧
          tree.node? (directory ++ [final.name]) ≠ some .directory ∧
          tree.Aim (temporaryPath final label token) directory (temporaryName label token)) ∧
        fault = (tree.atomicWrite final contents label token).1.map .found ∧
        Alike (tree.atomicWrite final contents label token).2 after)) ∧
    ∀ (counts : Nat → ℕ+) (opened : FileTree) (path : Path) (p : Place) (before view : Bytes),
      opened.Sound → opened.locate true path = .ok ⟨p, some (.file before)⟩ →
      ∃ filled, opened.pour (fun turn => .ok (counts turn)) path 0 view = (none, filled) ∧
        Put p (before ++ view) opened filled := by
  constructor
  · have hwilling := fun willing : replies.Willing =>
      And.intro (atomicWriteWith_eq_none_iff willing contents sound unused ne)
        (atomicWriteWith_of_willing willing contents sound unused ne)
    obtain ⟨fault, after, hafter, halike⟩ | ⟨directory, after, hafter, hreplaced, -, hrefused⟩ :=
      atomicWriteWith_cases replies contents sound unused ne
    · rw [hafter] at hwilling
      have hgone : after.IsUnused (temporaryPath final label token) := fun found located =>
        unused found (halike.locate _ _ ▸ located)
      exact ⟨some fault, after, hafter, fun _ => ⟨halike, hgone⟩, nofun, hwilling⟩
    · rw [hafter] at hwilling
      exact ⟨none, after, hafter, fun hfault => absurd rfl hfault,
        fun _ => ⟨⟨directory, hreplaced, hreplaced.read⟩, hrefused⟩, hwilling⟩
  · intro counts opened path p before view hsound located
    obtain ⟨taken, -, hput, hall, hwilling⟩ :=
      pour_put (fun turn => .ok (counts turn)) 0 view hsound located
    have hnone := hwilling fun turn => ⟨counts turn, rfl⟩
    obtain rfl := hall hnone
    exact ⟨_, Prod.ext hnone rfl, hput⟩

/-- A directory with two files. -/
def twoNotes : FileTree :=
  ⟨[], [(["d"], .directory), (["d", "f"], .file [1]), (["d", "g"], .file [7])], [], 0⟩

theorem atomicWriteWith_atomic_twoNotes :
    twoNotes.Sound ∧ twoNotes.IsUnused (temporaryPath (.ofText "/d/f") "note" "1") ∧
    (Path.ofText "/d/f").name ≠ temporaryName "note" "1" ∧
    (∃ after, twoNotes.atomicWriteWith ⟨none, fun _ => .ok 2, none, none, none⟩ (.ofText "/d/f")
        [4, 5, 6] "note" "1" = (none, after) ∧
      after.read (.ofText "/d/f") = .ok [4, 5, 6] ∧ after.contents? ["d", "g"] = some [7]) ∧
    ∃ fault after, twoNotes.atomicWriteWith ⟨none, fun _ => .ok 2, none, some 5, none⟩
        (.ofText "/d/f") [4, 5, 6] "note" "1" = (some fault, after) ∧
      after.contents? ["d", "f"] = some [1] := by
  have sound : twoNotes.Sound := by decide +kernel
  have unused : twoNotes.IsUnused (temporaryPath (.ofText "/d/f") "note" "1") := by decide +kernel
  have ne : (Path.ofText "/d/f").name ≠ temporaryName "note" "1" := by decide +kernel
  refine ⟨sound, unused, ne, ?_, ?_⟩
  · obtain ⟨⟨fault, after, hafter, -, hdone, hwilling⟩, -⟩ := atomicWriteWith_atomic
      ⟨none, fun _ => .ok 2, none, none, none⟩ [4, 5, 6] sound unused ne
    have hnone : (twoNotes.atomicWrite (.ofText "/d/f") [4, 5, 6] "note" "1").1 = none := by
      decide +kernel
    obtain rfl : fault = none := by
      rw [(hwilling ⟨rfl, fun _ => ⟨2, rfl⟩, rfl, rfl, rfl⟩).2.1, hnone]
      rfl
    obtain ⟨⟨directory, hreplaced, hread⟩, -⟩ := hdone rfl
    have hparent : twoNotes.locate true (Path.ofText "/d/f").parent =
        .ok ⟨["d"], some .directory⟩ := by rfl
    obtain rfl : directory = ["d"] := by
      have := hreplaced.aim.parent
      rw [hparent, Except.ok.injEq, Found.mk.injEq] at this
      exact this.1.symm
    refine ⟨after, hafter, hread fun target htarget => ?_, ?_⟩
    · cases htarget
    · rw [contents?, hreplaced.put.node, if_neg (by decide +kernel)]
      rfl
  · obtain ⟨⟨fault, after, hafter, hfailed, hdone, -⟩, -⟩ := atomicWriteWith_atomic
      ⟨none, fun _ => .ok 2, none, some 5, none⟩ [4, 5, 6] sound unused ne
    cases fault with
    | none => cases (hdone rfl).2.2.2.1
    | some fault =>
      refine ⟨fault, after, hafter, ?_⟩
      rw [contents?, (hfailed (by simp)).1.node]
      rfl

end FileTree

end Scaffold.Files
