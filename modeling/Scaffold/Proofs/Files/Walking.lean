import Mathlib.Tactic.Common
import Scaffold.Files.Change

/-!
Ways through a file tree.

A path is followed name by name. `Leads` says, rule by rule, which ways there are;
it holds of exactly the ways that `walk` takes to an end. What a way looks at are
directories and links, so it stays a way in every tree that has the same ones.

* `Leads`: the rules; `walk_eq_ok_iff`, `locate_eq_ok_iff`: ways are what is walked.
* `Leads.node_eq`, `Leads.unique`: what stands at the end of a way.
* `Alike`: trees with the same nodes have the same ways.
* `Keeps`, `Leads.keeps`: a way outlives changes that keep directories and links.
* `Leads.append`: a way to a directory is the beginning of a way into it.
* `Fits`, `leads_iff_of_noLinks`: in a tree without links a path without `..` leads
  to the place of its own names.
-/

namespace Scaffold.Files

/-- A name that denotes a node of its own and that a directory can hold. -/
structure IsEntry (name : String) : Prop where
  /-- The name is no single dot. -/
  ne_dot : name ≠ "."
  /-- The name does not lead upwards. -/
  ne_up : name ≠ ".."
  /-- The name is short enough. -/
  short : tooLong name = false

instance (name : String) : Decidable (IsEntry name) :=
  decidable_of_iff (name ≠ "." ∧ name ≠ ".." ∧ tooLong name = false)
    ⟨fun ⟨dot, up, short⟩ => ⟨dot, up, short⟩, fun h => ⟨h.ne_dot, h.ne_up, h.short⟩⟩

namespace FileTree

variable {tree tree' : FileTree} {follow : Bool} {links : Nat} {place : Place}
  {names : List String} {found : Found} {path : Path}

/-! ### The rules -/

/-- The ways through a tree: `Leads tree follow links place names found` says that the
names lead from the place to what is found, over at most `links` links. -/
inductive Leads (tree : FileTree) (follow : Bool) : Nat → Place → List String → Found → Prop
  /-- No name is left. -/
  | here {links : Nat} {place : Place} :
    Leads tree follow links place [] ⟨place, tree.node? place⟩
  /-- A dot stays in the directory. -/
  | stay {links : Nat} {place : Place} {names : List String} {found : Found}
    (dir : tree.node? place = some .directory) (rest : Leads tree follow links place names found) :
    Leads tree follow links place ("." :: names) found
  /-- Two dots leave the directory. -/
  | up {links : Nat} {place : Place} {names : List String} {found : Found}
    (dir : tree.node? place = some .directory)
    (rest : Leads tree follow links place.dropLast names found) :
    Leads tree follow links place (".." :: names) found
  /-- The last name may denote nothing, and a link only when links are not followed. -/
  | last {links : Nat} {place : Place} {name : String}
    (dir : tree.node? place = some .directory) (entry : IsEntry name)
    (stop : follow = true → ∀ target, tree.node? (place ++ [name]) ≠ some (.link target)) :
    Leads tree follow links place [name] ⟨place ++ [name], tree.node? (place ++ [name])⟩
  /-- A name that is not the last leads on when it denotes no link. -/
  | enter {links : Nat} {place : Place} {name : String} {names : List String} {found : Found}
    (dir : tree.node? place = some .directory) (entry : IsEntry name) (more : names ≠ [])
    (plain : ∀ target, tree.node? (place ++ [name]) ≠ some (.link target))
    (rest : Leads tree follow links (place ++ [name]) names found) :
    Leads tree follow links place (name :: names) found
  /-- A link leads to its target, and the names that are left from there. -/
  | jump {links : Nat} {place : Place} {name : String} {names : List String} {target : String}
    {found : Found} (dir : tree.node? place = some .directory) (entry : IsEntry name)
    (link : tree.node? (place ++ [name]) = some (.link target))
    (followed : names = [] → follow = true)
    (rest : Leads tree follow links (if target.startsWith "/" then [] else place)
      (targetNames target ++ names) found) :
    Leads tree follow (links + 1) place (name :: names) found

/-- The part of a way up to the next link, for any continuation behind it. -/
lemma leads_of_walkBy {jump : Place → List String → Except Fault Found}
    (hjump : ∀ place names found, jump place names = .ok found →
      ∃ fewer, links = fewer + 1 ∧ Leads tree follow fewer place names found)
    (h : tree.walkBy follow jump place names = .ok found) :
    Leads tree follow links place names found := by
  induction names generalizing place with
  | nil =>
    rw [walkBy, Except.ok.injEq] at h
    exact h ▸ .here
  | cons name names ih =>
    rw [walkBy] at h
    split at h <;> try contradiction
    next dir =>
    by_cases hdot : name = "."
    · rw [if_pos hdot] at h
      exact hdot ▸ .stay dir (ih h)
    by_cases hup : name = ".."
    · rw [if_neg hdot, if_pos hup] at h
      exact hup ▸ .up dir (ih h)
    by_cases hlong : tooLong name = true
    · rw [if_neg hdot, if_neg hup, if_pos hlong] at h
      cases h
    rw [if_neg hdot, if_neg hup, if_neg hlong] at h
    have entry : IsEntry name := ⟨hdot, hup, by simpa using hlong⟩
    simp only at h
    split at h
    · next target hlink =>
      split at h
      · next hlast =>
        rw [Bool.and_eq_true, List.isEmpty_iff, Bool.not_eq_true'] at hlast
        obtain ⟨rfl, hfollow⟩ := hlast
        rw [Except.ok.injEq, ← hlink] at h
        exact h ▸ .last dir entry (by simp [hfollow])
      · next hlast =>
        obtain ⟨fewer, rfl, rest⟩ := hjump _ _ _ h
        refine .jump dir entry hlink (fun hnil => ?_) rest
        simpa [hnil] using hlast
    · next node hnolink hnode =>
      have plain : ∀ target, tree.node? (place ++ [name]) ≠ some (.link target) := by
        intro target htarget
        rw [hnode, Option.some.injEq] at htarget
        exact hnolink target htarget
      split at h
      · next hlast =>
        rw [List.isEmpty_iff] at hlast
        subst hlast
        rw [Except.ok.injEq, ← hnode] at h
        exact h ▸ .last dir entry fun _ => plain
      · next hlast => exact .enter dir entry (by simpa using hlast) plain (ih h)
    · next hnone =>
      split at h
      · next hlast =>
        rw [List.isEmpty_iff] at hlast
        subst hlast
        rw [Except.ok.injEq, ← hnone] at h
        exact h ▸ .last dir entry (by simp [hnone])
      · cases h

/-- Every way that is walked to its end follows the rules. -/
lemma leads_of_walk (h : tree.walk follow links place names = .ok found) :
    Leads tree follow links place names found := by
  induction links generalizing place names found with
  | zero =>
    rw [walk] at h
    exact leads_of_walkBy (fun _ _ _ hjump => by cases hjump) h
  | succ links ih =>
    rw [walk] at h
    exact leads_of_walkBy (fun _ _ _ hjump => ⟨links, rfl, ih hjump⟩) h

/-- One name further, for the two shapes of `walk`. -/
lemma walk_eq_walkBy (links : Nat) :
    ∃ jump, tree.walk follow links = tree.walkBy follow jump ∧
      ∀ fewer, links = fewer + 1 → jump = tree.walk follow fewer := by
  cases links with
  | zero => exact ⟨_, by rw [walk], fun _ h => absurd h (by omega)⟩
  | succ links => exact ⟨_, by rw [walk], fun fewer h => by rw [Nat.add_right_cancel h]⟩

/-- Every way that follows the rules is walked to its end. -/
lemma walk_of_leads (h : Leads tree follow links place names found) :
    tree.walk follow links place names = .ok found := by
  induction h with
  | @here links place =>
    obtain ⟨jump, hwalk, _⟩ := @walk_eq_walkBy tree follow links
    rw [hwalk, walkBy]
  | @stay links place names found dir rest ih =>
    obtain ⟨jump, hwalk, _⟩ := @walk_eq_walkBy tree follow links
    rw [hwalk] at ih ⊢
    simpa [walkBy, dir] using ih
  | @up links place names found dir rest ih =>
    obtain ⟨jump, hwalk, _⟩ := @walk_eq_walkBy tree follow links
    rw [hwalk] at ih ⊢
    simpa [walkBy, dir] using ih
  | @last links place name dir entry stop =>
    obtain ⟨jump, hwalk, _⟩ := @walk_eq_walkBy tree follow links
    rw [hwalk, walkBy]
    simp only [dir, entry.ne_dot, entry.ne_up, entry.short, if_false, Bool.false_eq_true]
    cases hnode : tree.node? (place ++ [name]) with
    | none => simp
    | some node =>
      cases node with
      | file contents => simp
      | directory => simp
      | link target =>
        have hfollow : follow = false := by
          by_contra hne
          exact stop (by simpa using hne) target hnode
        simp [hfollow]
  | @enter links place name names found dir entry more plain rest ih =>
    obtain ⟨jump, hwalk, _⟩ := @walk_eq_walkBy tree follow links
    rw [hwalk] at ih ⊢
    rw [walkBy]
    simp only [dir, entry.ne_dot, entry.ne_up, entry.short, if_false, Bool.false_eq_true]
    cases hnode : tree.node? (place ++ [name]) with
    | none =>
      -- the names that are left would have to start from nothing
      cases names with
      | nil => exact absurd rfl more
      | cons name' names' =>
        rw [walkBy, hnode] at ih
        cases ih
    | some node =>
      cases node with
      | file contents => simpa [more] using ih
      | directory => simpa [more] using ih
      | link target => exact absurd hnode (plain target)
  | @jump links place name names target found dir entry link followed rest ih =>
    obtain ⟨jump, hwalk, hjump⟩ := @walk_eq_walkBy tree follow (links + 1)
    rw [hwalk, walkBy]
    simp only [dir, entry.ne_dot, entry.ne_up, entry.short, if_false, Bool.false_eq_true, link,
      hjump links rfl]
    rw [if_neg, ih]
    intro hlast
    rw [Bool.and_eq_true, List.isEmpty_iff, Bool.not_eq_true'] at hlast
    rw [followed hlast.1] at hlast
    cases hlast.2

/-- What is walked to an end are the ways that follow the rules. -/
lemma walk_eq_ok_iff :
    tree.walk follow links place names = .ok found ↔ Leads tree follow links place names found :=
  ⟨leads_of_walk, walk_of_leads⟩

/-- A path is located where its names lead. -/
lemma locate_eq_ok_iff :
    tree.locate follow path = .ok found ↔
      path.holdsZero = false ∧ Leads tree follow linkLimit (tree.start path) path.names found := by
  rw [locate]
  split_ifs with h
  · simp [h]
  · simp [walk_eq_ok_iff, h]

/-! ### The end of a way -/

/-- What is found is what the tree holds at the place. -/
lemma Leads.node_eq (h : Leads tree follow links place names found) :
    found.node = tree.node? found.place := by
  induction h with
  | here => rfl
  | stay _ _ ih => exact ih
  | up _ _ ih => exact ih
  | last => rfl
  | enter _ _ _ _ _ ih => exact ih
  | jump _ _ _ _ _ ih => exact ih

/-- Names lead to one place only. -/
lemma Leads.unique {found' : Found} (h : Leads tree follow links place names found)
    (h' : Leads tree follow links place names found') : found = found' := by
  have := (walk_of_leads h).symm.trans (walk_of_leads h')
  exact Except.ok.inj this

/-- A followed way ends at no link. -/
lemma Leads.not_link (h : Leads tree true links place names found)
    (start : ∀ target, tree.node? place ≠ some (.link target))
    (dirs : ∀ p, tree.node? p = some .directory → ∀ target,
      tree.node? p.dropLast ≠ some (.link target)) :
    ∀ target, found.node ≠ some (.link target) := by
  induction h with
  | here => exact start
  | stay _ _ ih => exact ih start
  | up dir _ ih => exact ih (dirs _ dir)
  | last dir _ stop => exact stop rfl
  | enter dir _ _ plain _ ih => exact ih plain
  | jump dir _ _ _ _ ih =>
    refine ih ?_
    split
    · simp [node?]
    · simp [dir]

/-- What a followed way finds is there for a way that does not follow its last link. -/
lemma Leads.exists_unfollowed (h : Leads tree true links place names found)
    (there : found.node.isSome) :
    ∃ found', Leads tree false links place names found' ∧ found'.node.isSome := by
  induction h with
  | here => exact ⟨_, .here, there⟩
  | stay dir _ ih =>
    obtain ⟨found', hfound, hsome⟩ := ih there
    exact ⟨found', .stay dir hfound, hsome⟩
  | up dir _ ih =>
    obtain ⟨found', hfound, hsome⟩ := ih there
    exact ⟨found', .up dir hfound, hsome⟩
  | last dir entry stop => exact ⟨_, .last dir entry (by simp), there⟩
  | enter dir entry more plain _ ih =>
    obtain ⟨found', hfound, hsome⟩ := ih there
    exact ⟨found', .enter dir entry more plain hfound, hsome⟩
  | @jump links place name names target found dir entry link _ _ ih =>
    cases names with
    | nil => exact ⟨_, .last dir entry (by simp), by simp [link]⟩
    | cons name' names' =>
      obtain ⟨found', hfound, hsome⟩ := ih there
      exact ⟨found', .jump dir entry link (by simp) hfound, hsome⟩

/-- A way that does not end at a link is the same whether or not the last link is
followed. -/
lemma Leads.followed (h : Leads tree false links place names found)
    (plain : ∀ target, found.node ≠ some (.link target)) :
    Leads tree true links place names found := by
  induction h with
  | here => exact .here
  | stay dir _ ih => exact .stay dir (ih plain)
  | up dir _ ih => exact .up dir (ih plain)
  | last dir entry _ => exact .last dir entry fun _ => plain
  | enter dir entry more nolink _ ih => exact .enter dir entry more nolink (ih plain)
  | jump dir entry link _ _ ih => exact .jump dir entry link (fun _ => rfl) (ih plain)

/-- Only from a directory can names lead on. -/
lemma Leads.dir (h : Leads tree follow links place names found) (more : names ≠ []) :
    tree.node? place = some .directory := by
  cases h with
  | here => exact absurd rfl more
  | stay dir _ => exact dir
  | up dir _ => exact dir
  | last dir _ _ => exact dir
  | enter dir _ _ _ _ => exact dir
  | jump dir _ _ _ _ => exact dir

/-! ### Changes that keep directories and links -/

/-- The second tree has all directories of the first one and the same links. -/
structure Keeps (tree tree' : FileTree) : Prop where
  /-- Relative paths start at the same place. -/
  workplace : tree'.workplace = tree.workplace
  /-- Directories are kept. -/
  directory : ∀ p, tree.node? p = some .directory → tree'.node? p = some .directory
  /-- Links are kept, and none is new. -/
  link : ∀ p target, tree'.node? p = some (.link target) ↔ tree.node? p = some (.link target)

lemma Keeps.refl (tree : FileTree) : Keeps tree tree :=
  ⟨rfl, fun _ h => h, fun _ _ => Iff.rfl⟩

lemma Keeps.trans {tree'' : FileTree} (h : Keeps tree tree') (h' : Keeps tree' tree'') :
    Keeps tree tree'' :=
  ⟨h'.workplace.trans h.workplace, fun p hp => h'.directory p (h.directory p hp),
    fun p target => (h'.link p target).trans (h.link p target)⟩

/-- A way outlives changes that keep directories and links; what stands at its end
may be new. -/
lemma Leads.keeps (h : Leads tree follow links place names found) (keeps : Keeps tree tree') :
    Leads tree' follow links place names ⟨found.place, tree'.node? found.place⟩ := by
  induction h with
  | here => exact .here
  | stay dir _ ih => exact .stay (keeps.directory _ dir) ih
  | up dir _ ih => exact .up (keeps.directory _ dir) ih
  | last dir entry stop =>
    refine .last (keeps.directory _ dir) entry fun hfollow target htarget => ?_
    exact stop hfollow target ((keeps.link _ _).mp htarget)
  | enter dir entry more plain _ ih =>
    refine .enter (keeps.directory _ dir) entry more (fun target htarget => ?_) ih
    exact plain target ((keeps.link _ _).mp htarget)
  | jump dir entry link followed _ ih =>
    exact .jump (keeps.directory _ dir) entry ((keeps.link _ _).mpr link) followed ih

lemma Keeps.start (keeps : Keeps tree tree') (path : Path) : tree'.start path = tree.start path := by
  rw [FileTree.start, FileTree.start, keeps.workplace]

/-- A path is located where it was. -/
lemma Keeps.locate (keeps : Keeps tree tree') (h : tree.locate follow path = .ok found) :
    tree'.locate follow path = .ok ⟨found.place, tree'.node? found.place⟩ := by
  obtain ⟨hzero, hleads⟩ := locate_eq_ok_iff.mp h
  exact locate_eq_ok_iff.mpr ⟨hzero, keeps.start path ▸ hleads.keeps keeps⟩

/-! ### Trees with the same nodes -/

/-- Two trees with the same nodes, however they are listed. -/
structure Alike (tree tree' : FileTree) : Prop where
  /-- Relative paths start at the same place. -/
  workplace : tree'.workplace = tree.workplace
  /-- Every place holds the same. -/
  node : ∀ p, tree'.node? p = tree.node? p

lemma Alike.symm (h : Alike tree tree') : Alike tree' tree :=
  ⟨h.workplace.symm, fun p => (h.node p).symm⟩

lemma Alike.walkBy (h : Alike tree tree') {jump jump' : Place → List String → Except Fault Found}
    (hjump : jump' = jump) (place : Place) (names : List String) :
    tree'.walkBy follow jump' place names = tree.walkBy follow jump place names := by
  subst hjump
  induction names generalizing place with
  | nil => rw [FileTree.walkBy, FileTree.walkBy, h.node]
  | cons name names ih =>
    rw [FileTree.walkBy, FileTree.walkBy]
    simp only [h.node, ih]

/-- Only the nodes decide where a path leads. -/
lemma Alike.locate (h : Alike tree tree') (follow : Bool) (path : Path) :
    tree'.locate follow path = tree.locate follow path := by
  have hwalk : ∀ links, tree'.walk follow links = tree.walk follow links := by
    intro links
    induction links with
    | zero =>
      funext place names
      exact h.walkBy rfl place names
    | succ links ih =>
      funext place names
      exact h.walkBy ih place names
  rw [FileTree.locate, FileTree.locate, hwalk, start, start, h.workplace]

lemma Alike.stat (h : Alike tree tree') (path : Path) : tree'.stat path = tree.stat path := by
  rw [FileTree.stat, FileTree.stat, h.locate]

lemma Alike.isDirectory (h : Alike tree tree') (path : Path) :
    tree'.isDirectory path = tree.isDirectory path := by
  rw [FileTree.isDirectory, FileTree.isDirectory, holds, holds, h.stat]

lemma Alike.read (h : Alike tree tree') (path : Path) : tree'.read path = tree.read path := by
  rw [FileTree.read, FileTree.read, h.stat]

/-! ### Ways into a directory -/

/-- After a dot a way goes on in the same directory. -/
lemma Leads.of_dot (h : Leads tree follow links place ("." :: names) found) :
    Leads tree follow links place names found := by
  generalize hname : "." = name at h
  cases h with
  | stay _ rest => exact rest
  | up => exact absurd hname (by decide)
  | last _ entry => exact absurd hname.symm entry.ne_dot
  | enter _ entry => exact absurd hname.symm entry.ne_dot
  | jump _ entry => exact absurd hname.symm entry.ne_dot

/-- After two dots a way goes on in the directory above. -/
lemma Leads.of_up (h : Leads tree follow links place (".." :: names) found) :
    Leads tree follow links place.dropLast names found := by
  generalize hname : ".." = name at h
  cases h with
  | stay => exact absurd hname (by decide)
  | up _ rest => exact rest
  | last _ entry => exact absurd hname.symm entry.ne_up
  | enter _ entry => exact absurd hname.symm entry.ne_up
  | jump _ entry => exact absurd hname.symm entry.ne_up

/-- A single name that is no link denotes what lies under it. -/
lemma Leads.of_single {name : String} {node : Option Node} {goal : Place}
    (h : Leads tree follow links place [name] ⟨goal, node⟩) (dot : name ≠ ".") (up : name ≠ "..")
    (plain : ∀ target, tree.node? (place ++ [name]) ≠ some (.link target)) :
    goal = place ++ [name] := by
  cases h with
  | stay => exact absurd rfl dot
  | up => exact absurd rfl up
  | last => rfl
  | enter _ _ more => exact absurd rfl more
  | jump _ _ link => exact absurd link (plain _)

/-- The ways beyond a way to a directory are the ways from the directory. -/
lemma Leads.append (h : Leads tree true links place names found)
    (dir : found.node = some .directory) :
    ∃ fewer, ∀ follow more found', more ≠ [] →
      (Leads tree follow links place (names ++ more) found' ↔
        Leads tree follow fewer found.place more found') := by
  induction h with
  | @here links place => exact ⟨links, fun follow more found' _ => Iff.rfl⟩
  | stay hdir _ ih =>
    obtain ⟨fewer, hfewer⟩ := ih dir
    refine ⟨fewer, fun follow more found' hmore => ?_⟩
    rw [← hfewer follow more found' hmore]
    exact ⟨fun h => h.of_dot, .stay hdir⟩
  | up hdir _ ih =>
    obtain ⟨fewer, hfewer⟩ := ih dir
    refine ⟨fewer, fun follow more found' hmore => ?_⟩
    rw [← hfewer follow more found' hmore]
    exact ⟨fun h => h.of_up, .up hdir⟩
  | @last links place name hdir entry stop =>
    refine ⟨links, fun follow more found' hmore => ⟨fun h => ?_, .enter hdir entry hmore (stop rfl)⟩⟩
    cases h with
    | stay => exact absurd rfl entry.ne_dot
    | up => exact absurd rfl entry.ne_up
    | last => exact absurd rfl hmore
    | enter _ _ _ _ rest => exact rest
    | jump _ _ link => exact absurd link (stop rfl _)
  | @enter links place name names found hdir entry hnames plain _ ih =>
    obtain ⟨fewer, hfewer⟩ := ih dir
    refine ⟨fewer, fun follow more found' hmore => ?_⟩
    rw [← hfewer follow more found' hmore]
    have hmore' : names ++ more ≠ [] := by simp [hmore]
    refine ⟨fun h => ?_, .enter hdir entry hmore' plain⟩
    rw [List.cons_append] at h
    generalize names ++ more = left at h hmore' ⊢
    cases h with
    | stay => exact absurd rfl entry.ne_dot
    | up => exact absurd rfl entry.ne_up
    | last => exact absurd rfl hmore'
    | enter _ _ _ _ rest => exact rest
    | jump _ _ link => exact absurd link (plain _)
  | @jump links place name names target found hdir entry link followed _ ih =>
    obtain ⟨fewer, hfewer⟩ := ih dir
    refine ⟨fewer, fun follow more found' hmore => ?_⟩
    rw [← hfewer follow more found' hmore]
    have hmore' : names ++ more ≠ [] := by simp [hmore]
    constructor
    · intro h
      rw [List.cons_append] at h
      rw [List.append_assoc]
      generalize names ++ more = left at h hmore' ⊢
      cases h with
      | stay => exact absurd rfl entry.ne_dot
      | up => exact absurd rfl entry.ne_up
      | last => exact absurd rfl hmore'
      | enter _ _ _ plain => exact absurd link (plain _)
      | jump _ _ link' _ rest =>
        rw [link, Option.some.injEq, Node.link.injEq] at link'
        rw [link']
        exact rest
    · intro h
      rw [List.append_assoc] at h
      exact .jump hdir entry link (fun hnil => absurd hnil hmore') h

/-- What lies in a directory is located by the path of the directory and its name. -/
lemma locate_child {directory : Place} {name : String}
    (h : tree.locate true path = .ok ⟨directory, some .directory⟩) (entry : IsEntry name)
    (zero : name.toList.contains '\x00' = false)
    (plain : ∀ target, tree.node? (directory ++ [name]) ≠ some (.link target)) (follow : Bool) :
    tree.locate follow ⟨path.anchor, path.names ++ [name]⟩ =
      .ok ⟨directory ++ [name], tree.node? (directory ++ [name])⟩ := by
  obtain ⟨hzero, hleads⟩ := locate_eq_ok_iff.mp h
  obtain ⟨fewer, hfewer⟩ := hleads.append rfl
  refine locate_eq_ok_iff.mpr ⟨?_, ?_⟩
  · simp only [Path.holdsZero, List.any_append, Bool.or_eq_false_iff] at hzero ⊢
    exact ⟨hzero, by simpa using zero⟩
  · refine (hfewer follow [name] _ (by simp)).mpr (.last ?_ entry fun _ => plain)
    exact hleads.node_eq.symm

/-- A path into a directory denotes what lies there under its last name. -/
lemma place_of_child {directory goal : Place} {name : String} {node : Option Node}
    (h : tree.locate true path = .ok ⟨directory, some .directory⟩)
    (h' : tree.locate follow ⟨path.anchor, path.names ++ [name]⟩ = .ok ⟨goal, node⟩)
    (dot : name ≠ ".") (up : name ≠ "..")
    (plain : ∀ target, tree.node? (directory ++ [name]) ≠ some (.link target)) :
    goal = directory ++ [name] := by
  obtain ⟨-, hleads⟩ := locate_eq_ok_iff.mp h
  obtain ⟨-, hleads'⟩ := locate_eq_ok_iff.mp h'
  obtain ⟨fewer, hfewer⟩ := hleads.append rfl
  exact ((hfewer follow [name] _ (by simp)).mp hleads').of_single dot up plain

/-- A path into a directory whose last name is not followed denotes what lies there under
this name, a link too. -/
lemma place_of_child_unfollowed {directory goal : Place} {name : String} {node : Option Node}
    (h : tree.locate true path = .ok ⟨directory, some .directory⟩)
    (h' : tree.locate false ⟨path.anchor, path.names ++ [name]⟩ = .ok ⟨goal, node⟩)
    (dot : name ≠ ".") (up : name ≠ "..") : goal = directory ++ [name] := by
  obtain ⟨-, hleads⟩ := locate_eq_ok_iff.mp h
  obtain ⟨-, hleads'⟩ := locate_eq_ok_iff.mp h'
  obtain ⟨fewer, hfewer⟩ := hleads.append rfl
  cases (hfewer false [name] _ (by simp)).mp hleads' with
  | stay => exact absurd rfl dot
  | up => exact absurd rfl up
  | last => rfl
  | enter _ _ more => exact absurd rfl more
  | jump _ _ _ followed => cases followed rfl

/-! ### Trees without links -/

/-- No node is a link. -/
def NoLinks (tree : FileTree) : Prop :=
  ∀ p target, tree.node? p ≠ some (.link target)

lemma Keeps.noLinks (h : Keeps tree tree') (noLinks : tree.NoLinks) : tree'.NoLinks :=
  fun p target hlink => noLinks p target ((h.link p target).mp hlink)

/-- Every name of a list denotes a node of its own. -/
def Fits (names : List String) : Prop :=
  ∀ name ∈ names, IsEntry name

instance (names : List String) : Decidable (Fits names) :=
  inferInstanceAs (Decidable (∀ name ∈ names, IsEntry name))

/-- Without links and without dots the names lead down, through directories. -/
lemma leads_iff_of_noLinks (noLinks : tree.NoLinks)
    (plain : ∀ name ∈ names, name ≠ "." ∧ name ≠ "..") :
    Leads tree follow links place names found ↔
      found = ⟨place ++ names, tree.node? (place ++ names)⟩ ∧ Fits names ∧
        ∀ k < names.length, tree.node? (place ++ names.take k) = some .directory := by
  induction names generalizing place with
  | nil =>
    constructor
    · intro h
      cases h
      simp [Fits]
    · rintro ⟨rfl, -, -⟩
      simpa using Leads.here
  | cons name names ih =>
    have hname := plain name (by simp)
    have hnames : ∀ n ∈ names, n ≠ "." ∧ n ≠ ".." := fun n hn => plain n (by simp [hn])
    constructor
    · intro h
      cases h with
      | stay => exact absurd rfl hname.1
      | up => exact absurd rfl hname.2
      | last dir entry stop =>
        refine ⟨rfl, by simpa [Fits] using entry, fun k hk => ?_⟩
        have hk0 : k = 0 := by simpa using hk
        simpa [hk0] using dir
      | enter dir entry more _ rest =>
        obtain ⟨hfound, hfits, hdirs⟩ := (ih hnames).mp rest
        refine ⟨by simpa using hfound, ?_, fun k hk => ?_⟩
        · intro n hn
          rcases List.mem_cons.mp hn with rfl | hn
          · exact entry
          · exact hfits n hn
        · cases k with
          | zero => simpa using dir
          | succ k => simpa using hdirs k (by simpa using hk)
      | jump _ _ link => exact absurd link (noLinks _ _)
    · rintro ⟨rfl, hfits, hdirs⟩
      have dir : tree.node? place = some .directory := by simpa using hdirs 0 (by simp)
      have entry : IsEntry name := hfits name (by simp)
      by_cases hnil : names = []
      · subst hnil
        exact .last dir entry fun _ => noLinks _
      · refine .enter dir entry hnil (noLinks _) ((ih hnames).mpr ⟨by simp, ?_, ?_⟩)
        · exact fun n hn => hfits n (by simp [hn])
        · intro k hk
          simpa using hdirs (k + 1) (by simpa using hk)

end FileTree

end Scaffold.Files
