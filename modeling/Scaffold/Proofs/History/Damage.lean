import Scaffold.Proofs.History.Relisting
import Scaffold.Proofs.Json.Reading

/-!
Damaged runs beside others.

Whatever lies in the root of a store is a run, is passed over, or breaks the listing off. What
is passed over does not disturb the runs beside it: the list is the same with it and without
it, and so is what is selected from the list. Only three things break a listing off: a name
that is too long, found behind a link, and a manifest in which lists are nested too deeply or
an integer has too many digits.

* `Loads`, `PassedOver`, `BreaksOff`: the three things a path can be to a store.
* `loads_or_passedOver_or_breaksOff`: there is no fourth.
* `runsAmong_eq_error_iff`: the first path that breaks off decides; `exists_error_of_breaksOff`:
  one is enough.
* `Without`: a tree in which one thing less is in a directory; `Pruned.without`: such trees
  arise when something is removed.
* `runs_undisturbed`: all this for a store.
-/

namespace Scaffold

open Files FileTree Text

variable {tree after : FileTree} {root path : Path} {paths : List Path} {place top : Place}
  {name text : String} {store : HistoryStore} {run : Run} {breakdown : Breakdown}

/-! ### What lies at a path -/

/-- A directory holds a manifest with a text. -/
structure ManifestText (tree : FileTree) (path : Path) (text : String) : Prop where
  /-- The directory is there. -/
  directory : tree.isDirectory path = .ok true
  /-- The manifest is encoded text. -/
  encoded : ∃ contents, tree.read (path.child Manifest.fileName) = .ok contents ∧
    Utf8.decode? contents = some text

/-- A directory holds a run. -/
inductive Loads (tree : FileTree) (path : Path) : Run → Prop
  /-- The text is an object, and the object is a manifest once it is complete. -/
  | mk {text : String} {members : List (String × Json)} {manifest : Manifest}
    (read : ManifestText tree path text) (object : Json.parse text = .ok (.object members))
    (shaped : Manifest.decode (.ofJson (.object (completed path.name members))) = .ok manifest) :
    Loads tree path ⟨manifest.id, path, manifest⟩

/-- What is no run, and is seen to be none. -/
inductive PassedOver (tree : FileTree) (path : Path) : Prop
  /-- A file, or nothing at all. -/
  | noDirectory (away : tree.isDirectory path = .ok false)
  /-- A directory without a manifest, or with one that cannot be read. -/
  | unreadable {fault : Fault} (directory : tree.isDirectory path = .ok true)
    (unread : tree.read (path.child Manifest.fileName) = .error fault)
  /-- A directory whose manifest is no encoded text. -/
  | undecodable {contents : Bytes} (directory : tree.isDirectory path = .ok true)
    (read : tree.read (path.child Manifest.fileName) = .ok contents)
    (undecoded : Utf8.decode? contents = none)
  /-- The text has not the form of JSON. -/
  | malformed {text : String} (read : ManifestText tree path text)
    (unparsed : Json.parse text = .error .malformed)
  /-- The text is a value of another kind than an object. -/
  | noObject {text : String} {value : Json} (read : ManifestText tree path text)
    (parsed : Json.parse text = .ok value) (kind : ∀ members, value ≠ .object members)
  /-- The object is no manifest, even when it is complete. -/
  | misshapen {text : String} {members : List (String × Json)} {violations : List Shape.Violation}
    (read : ManifestText tree path text) (object : Json.parse text = .ok (.object members))
    (unshaped : Manifest.decode (.ofJson (.object (completed path.name members))) =
      .error violations) :
    PassedOver tree path

/-- What breaks the reading of a store off. -/
inductive BreaksOff (tree : FileTree) (path : Path) : Breakdown → Prop
  /-- A name on the way to a directory is too long. -/
  | longName (refused : tree.isDirectory path = .error .nameTooLong) :
    BreaksOff tree path (.file .nameTooLong)
  /-- Lists and objects in a manifest are nested too deeply. -/
  | deep {text : String} (read : ManifestText tree path text)
    (nested : Json.parse text = .error .tooDeep) : BreaksOff tree path .deepJson
  /-- An integer in a manifest has too many digits. -/
  | huge {text : String} (read : ManifestText tree path text)
    (digits : Json.parse text = .error .hugeInteger) : BreaksOff tree path .hugeInteger

section Judged

variable {found : Option Run}

/-- What is read from a text. -/
lemma ManifestText.runAt? (h : ManifestText tree path text) :
    runAt? tree path = (manifestOf? path.name text).map fun found =>
      found.map fun manifest => ⟨manifest.id, path, manifest⟩ := by
  obtain ⟨contents, hread, hdecode⟩ := h.encoded
  rw [Scaffold.runAt?, h.directory]
  simp only [Except.mapError, bind, Except.bind, if_true]
  rw [loadRun?, hread]
  simp only [hdecode]

lemma Loads.runAt? (h : Loads tree path run) : runAt? tree path = .ok (some run) := by
  obtain ⟨read, object, shaped⟩ := h
  rw [read.runAt?, manifestOf?, object]
  simp only [shaped]
  rfl

lemma PassedOver.runAt? (h : PassedOver tree path) : runAt? tree path = .ok none := by
  cases h with
  | noDirectory away =>
    rw [Scaffold.runAt?, away]
    rfl
  | unreadable directory unread =>
    rw [Scaffold.runAt?, directory]
    simp only [Except.mapError, bind, Except.bind, if_true]
    rw [loadRun?, unread]
  | undecodable directory read undecoded =>
    rw [Scaffold.runAt?, directory]
    simp only [Except.mapError, bind, Except.bind, if_true]
    rw [loadRun?, read]
    simp only [undecoded]
  | malformed read unparsed =>
    rw [read.runAt?, manifestOf?, unparsed]
    rfl
  | @noObject text value read parsed kind =>
    rw [read.runAt?, manifestOf?, parsed]
    cases value with
    | object members => exact absurd rfl (kind members)
    | null | bool | int | float | string | array => rfl
  | misshapen read object unshaped =>
    rw [read.runAt?, manifestOf?, object]
    simp only [unshaped]
    rfl

lemma BreaksOff.runAt? (h : BreaksOff tree path breakdown) :
    runAt? tree path = .error breakdown := by
  cases h with
  | longName refused =>
    rw [Scaffold.runAt?, refused]
    rfl
  | deep read nested =>
    rw [read.runAt?, manifestOf?, nested]
    rfl
  | huge read digits =>
    rw [read.runAt?, manifestOf?, digits]
    rfl

/-- **There is nothing else** that a path can be to a store. -/
lemma loads_or_passedOver_or_breaksOff (tree : FileTree) (path : Path) :
    (∃ run, Loads tree path run) ∨ PassedOver tree path ∨
      ∃ breakdown, BreaksOff tree path breakdown := by
  cases hdir : tree.isDirectory path with
  | error fault =>
    obtain ⟨rfl, -⟩ := holds_eq_error_iff.mp hdir
    exact .inr (.inr ⟨_, .longName hdir⟩)
  | ok present =>
    cases present with
    | false => exact .inr (.inl (.noDirectory hdir))
    | true =>
      cases hread : tree.read (path.child Manifest.fileName) with
      | error fault => exact .inr (.inl (.unreadable hdir hread))
      | ok contents =>
        cases hdecode : Utf8.decode? contents with
        | none => exact .inr (.inl (.undecodable hdir hread hdecode))
        | some text =>
          have read : ManifestText tree path text := ⟨hdir, contents, hread, hdecode⟩
          cases hparse : Json.parse text with
          | error cause =>
            cases cause with
            | malformed => exact .inr (.inl (.malformed read hparse))
            | tooDeep => exact .inr (.inr ⟨_, .deep read hparse⟩)
            | hugeInteger => exact .inr (.inr ⟨_, .huge read hparse⟩)
          | ok value =>
            by_cases hkind : ∃ members, value = .object members
            · obtain ⟨members, rfl⟩ := hkind
              cases hshape : Manifest.decode (.ofJson (.object (completed path.name members))) with
              | ok manifest => exact .inl ⟨_, .mk read hparse hshape⟩
              | error violations => exact .inr (.inl (.misshapen read hparse hshape))
            · exact .inr (.inl (.noObject read hparse fun members heq => hkind ⟨members, heq⟩))

lemma runAt?_eq_some_iff_loads : runAt? tree path = .ok (some run) ↔ Loads tree path run := by
  refine ⟨fun h => ?_, Loads.runAt?⟩
  rcases loads_or_passedOver_or_breaksOff tree path with ⟨other, hload⟩ | hpass | ⟨cause, hbreak⟩
  · rw [hload.runAt?, Except.ok.injEq, Option.some.injEq] at h
    exact h ▸ hload
  · rw [hpass.runAt?] at h
    cases h
  · rw [hbreak.runAt?] at h
    cases h

lemma runAt?_eq_error_iff :
    runAt? tree path = .error breakdown ↔ BreaksOff tree path breakdown := by
  refine ⟨fun h => ?_, BreaksOff.runAt?⟩
  rcases loads_or_passedOver_or_breaksOff tree path with ⟨other, hload⟩ | hpass | ⟨cause, hbreak⟩
  · rw [hload.runAt?] at h
    cases h
  · rw [hpass.runAt?] at h
    cases h
  · rw [hbreak.runAt?, Except.error.injEq] at h
    exact h ▸ hbreak

end Judged

/-! ### Listing -/

/-- **The first path that breaks off** decides, and there need be one. -/
lemma runsAmong_eq_error_iff :
    HistoryStore.runsAmong tree paths = .error breakdown ↔
      ∃ before path later, paths = before ++ path :: later ∧
        (∀ p ∈ before, ∀ cause, ¬ BreaksOff tree p cause) ∧ BreaksOff tree path breakdown := by
  induction paths with
  | nil => simp [HistoryStore.runsAmong]
  | cons path paths ih =>
    rw [runsAmong_cons]
    change runAt? tree path >>= _ = _ ↔ _
    rw [bind_eq_error_iff]
    simp only [map_eq_error_iff, ih, runAt?_eq_error_iff]
    constructor
    · rintro (hbreak | ⟨found, hfound, before, later, rest, rfl, hbefore, hlater⟩)
      · exact ⟨[], path, paths, rfl, by simp, hbreak⟩
      · refine ⟨path :: before, later, rest, rfl,
          List.forall_mem_cons.mpr ⟨fun cause hcause => ?_, hbefore⟩, hlater⟩
        rw [hcause.runAt?] at hfound
        cases hfound
    · rintro ⟨before, later, rest, heq, hbefore, hlater⟩
      cases before with
      | nil =>
        obtain ⟨rfl, rfl⟩ := List.cons.inj heq
        exact .inl hlater
      | cons first before =>
        obtain ⟨rfl, rfl⟩ := List.cons.inj heq
        rw [List.forall_mem_cons] at hbefore
        cases hat : runAt? tree path with
        | ok found => exact .inr ⟨found, rfl, before, later, rest, rfl, hbefore.2, hlater⟩
        | error cause => exact absurd (runAt?_eq_error_iff.mp hat) (hbefore.1 cause)

/-- What holds no run can be left out. -/
lemma runsAmong_filter (none : runAt? tree path = .ok none) (paths : List Path) :
    HistoryStore.runsAmong tree (paths.filter (· ≠ path)) = HistoryStore.runsAmong tree paths := by
  induction paths with
  | nil => rfl
  | cons first paths ih =>
    by_cases hfirst : first = path
    · subst hfirst
      rw [List.filter_cons_of_neg (by simp), ih, runsAmong_cons, none]
      cases hrest : HistoryStore.runsAmong tree paths <;> rfl
    · rw [List.filter_cons_of_pos (by simp [hfirst]), runsAmong_cons, runsAmong_cons, ih]

/-- Only what is read from the paths counts. -/
lemma runsAmong_congr (same : ∀ path ∈ paths, runAt? after path = runAt? tree path) :
    HistoryStore.runsAmong after paths = HistoryStore.runsAmong tree paths := by
  induction paths with
  | nil => rfl
  | cons path paths ih =>
    rw [List.forall_mem_cons] at same
    rw [runsAmong_cons, runsAmong_cons, same.1, ih same.2]

/-- What is listed is read from the paths. -/
lemma mem_runsAmong_iff {runs : List Run} (h : HistoryStore.runsAmong tree paths = .ok runs) :
    run ∈ runs ↔ run.path ∈ paths ∧ Loads tree run.path run := by
  obtain ⟨hall, rfl⟩ := runsAmong_eq_ok_iff.mp h
  rw [List.mem_filterMap]
  constructor
  · rintro ⟨path, hpath, hrun⟩
    obtain ⟨found, hfound⟩ := hall path hpath
    rw [runOf?, hfound] at hrun
    obtain rfl : found = some run := hrun
    obtain rfl := path_of_runAt? hfound
    exact ⟨hpath, runAt?_eq_some_iff_loads.mp hfound⟩
  · rintro ⟨hpath, hload⟩
    refine ⟨run.path, hpath, ?_⟩
    rw [runOf?, hload.runAt?]
    rfl

/-- A path gives one run at most. -/
lemma paths_sublist_of_runsAmong {runs : List Run}
    (h : HistoryStore.runsAmong tree paths = .ok runs) : (runs.map (·.path)).Sublist paths := by
  obtain ⟨hall, rfl⟩ := runsAmong_eq_ok_iff.mp h
  clear h
  induction paths with
  | nil => exact List.nil_sublist _
  | cons path paths ih =>
    rw [List.forall_mem_cons] at hall
    obtain ⟨⟨found, hfound⟩, hall⟩ := hall
    have hof : runOf? tree path = found := by
      rw [runOf?, hfound]
      rfl
    cases found with
    | none =>
      rw [List.filterMap_cons_none hof]
      exact (ih hall).cons _
    | some run =>
      rw [List.filterMap_cons_some hof, List.map_cons, path_of_runAt? hfound]
      exact (ih hall).cons_cons _

/-! ### One thing less -/

/-- A tree in which a directory lacks one of the things in it. The others are as they were. -/
structure Without (root : Path) (name : String) (tree after : FileTree) : Prop where
  /-- The directory is there. -/
  directory : after.isDirectory root = .ok true
  /-- The others stand in the same order. -/
  entries : after.entriesOf root = (tree.entriesOf root).filter (· ≠ inside root name)
  /-- They have the same things in them. -/
  locate : ∀ path ∈ after.entriesOf root, ∀ names, ".." ∉ names →
    after.locate true ⟨path.anchor, path.names ++ names⟩ =
      tree.locate true ⟨path.anchor, path.names ++ names⟩
  /-- They have the same times. -/
  time : ∀ path ∈ after.entriesOf root, ∀ place node,
    tree.locate true path = .ok ⟨place, some node⟩ → after.time place = tree.time place

namespace Without

variable (h : Without root name tree after)

include h

/-- The others hold the same runs. -/
lemma runAt? (hpath : path ∈ after.entriesOf root) :
    Scaffold.runAt? after path = Scaffold.runAt? tree path := by
  have hplace : after.locate true path = tree.locate true path := by
    simpa using h.locate path hpath [] (by simp)
  have hmanifest : after.locate true (path.child Manifest.fileName) =
      tree.locate true (path.child Manifest.fileName) := by
    rw [Path.child_name fileName_isName]
    exact h.locate path hpath [Manifest.fileName] (by decide)
  have hdir : after.isDirectory path = tree.isDirectory path := by
    rw [isDirectory, isDirectory, holds, holds, stat, stat, hplace]
  have hload : loadRun? after path = loadRun? tree path := by
    rw [loadRun?, loadRun?, FileTree.read, FileTree.read, stat, stat, hmanifest]
  rw [Scaffold.runAt?, Scaffold.runAt?, hdir, hload]

/-- Their directories have the same times. -/
lemma time? (hpath : run.path ∈ after.entriesOf root) :
    Run.time? after run = Run.time? tree run := by
  have hplace : after.locate true run.path = tree.locate true run.path := by
    simpa using h.locate run.path hpath [] (by simp)
  rw [Run.time?, Run.time?, hplace]
  split
  · next place node hfound => rw [h.time run.path hpath place node hfound]
  · rfl

/-- **The list of runs** is the same when no run is missing. -/
lemma runs_eq (enabled : store.root? = some root) (present : tree.isDirectory root = .ok true)
    (none : Scaffold.runAt? tree (inside root name) = .ok none) :
    store.runs after = store.runs tree := by
  have hamong : HistoryStore.runsAmong after (after.entriesOf root) =
      HistoryStore.runsAmong tree (tree.entriesOf root) := by
    rw [runsAmong_congr fun path => h.runAt?, h.entries, runsAmong_filter none]
  rw [runs_of_isDirectory enabled present, runs_of_isDirectory enabled h.directory, hamong]
  cases hruns : HistoryStore.runsAmong tree (tree.entriesOf root) with
  | error cause => rfl
  | ok runs =>
    have htime : ∀ run ∈ runs, Run.time? after run = Run.time? tree run := fun run hrun =>
      h.time? ((mem_runsAmong_iff (hamong.trans hruns)).mp hrun).1
    refine congrArg Except.ok (sortBy_congr fun a ha b hb => ?_)
    rw [Run.compare, Run.compare, htime a ha, htime b hb]

end Without

/-- A tree without a place and what is below it. -/
structure Pruned (gone : Place) (tree after : FileTree) : Prop where
  /-- Relative paths start at the same place. -/
  workplace : after.workplace = tree.workplace
  /-- All other nodes are there, in the same order. -/
  nodes : after.nodes = tree.nodes.filter fun entry => ¬ gone <+: entry.1
  /-- They have the same times, the directory around the place apart. -/
  time : ∀ p, ¬ gone <+: p → p ≠ gone.dropLast → after.time p = tree.time p

/-- A path beyond a child of a directory finds the same in trees that agree on this child. -/
lemma locate_beyond {other : String} {names : List String} (noLinks : tree.NoLinks)
    (located : tree.locate true root = .ok ⟨top, some .directory⟩)
    (located' : after.locate true root = .ok ⟨top, some .directory⟩) (entry : IsEntry other)
    (plain : ".." ∉ names) (same : ∀ p, top ++ [other] <+: p → after.node? p = tree.node? p) :
    after.locate true ⟨root.anchor, root.names ++ other :: names⟩ =
      tree.locate true ⟨root.anchor, root.names ++ other :: names⟩ := by
  obtain ⟨fewer, hfewer⟩ := (locate_eq_ok_iff.mp located).2.walk_append rfl
  obtain ⟨fewer', hfewer'⟩ := (locate_eq_ok_iff.mp located').2.walk_append rfl
  have hstart : ∀ tree : FileTree, tree.start ⟨root.anchor, root.names ++ other :: names⟩ =
      tree.start root := fun _ => rfl
  obtain ⟨jump, hjump, -⟩ := @walk_eq_walkBy tree true fewer
  obtain ⟨jump', hjump', -⟩ := @walk_eq_walkBy after true fewer'
  rw [FileTree.locate, FileTree.locate, hstart, hstart, hfewer true _ (List.cons_ne_nil _ _),
    hfewer' true _ (List.cons_ne_nil _ _), hjump, hjump']
  -- one step into the child, and from there on everything is the same
  have hbeyond : after.walkBy true jump' (top ++ [other]) names =
      tree.walkBy true jump (top ++ [other]) names :=
    walkBy_congr same noLinks (List.prefix_refl _) fun hup => absurd hup plain
  have hnode := same _ (List.prefix_refl (top ++ [other]))
  rw [walkBy, walkBy, node?_of_locate located, node?_of_locate located']
  simp only [entry.ne_dot, entry.ne_up, entry.short, if_false, Bool.false_eq_true, hnode, hbeyond]
  cases hchild : tree.node? (top ++ [other]) with
  | none => rfl
  | some node =>
    cases node with
    | file | directory => rfl
    | link target => exact absurd hchild (noLinks _ _)

namespace Files.FileTree

variable {region : Place → Bool} {places : List Place}

/-- Removing places one after another takes their nodes away. -/
lemma nodes_foldl_remove (places : List Place) (tree : FileTree) :
    (places.foldl (fun rest q => rest.remove q) tree).nodes =
      tree.nodes.filter fun entry => entry.1 ∉ places := by
  induction places generalizing tree with
  | nil => simp
  | cons q places ih =>
    have hremove : (tree.remove q).nodes = tree.nodes.filter fun entry => entry.1 ≠ q := rfl
    rw [List.foldl_cons, ih, hremove, List.filter_filter]
    refine List.filter_congr fun entry _ => ?_
    by_cases hq : entry.1 = q <;> simp [hq]

/-- Removing places outside a region leaves it alone. -/
lemma sameOn_foldl_remove (out : ∀ q ∈ places, IsOut region q) (tree : FileTree) :
    SameOn region tree (places.foldl (fun rest q => rest.remove q) tree) := by
  induction places generalizing tree with
  | nil => exact .refl region tree
  | cons q places ih =>
    rw [List.forall_mem_cons] at out
    exact (sameOn_remove out.1 tree).trans (ih out.2 _)

end Files.FileTree

namespace Pruned

variable {gone : Place}

/-- The other nodes are the same. -/
lemma node?_eq (h : Pruned gone tree after) {p : Place} (hp : ¬ gone <+: p) :
    after.node? p = tree.node? p := by
  have hfind : ∀ entries : List (Place × Node),
      find? p (entries.filter fun entry => ¬ gone <+: entry.1) = find? p entries := by
    intro entries
    induction entries with
    | nil => rfl
    | cons entry entries ih =>
      by_cases hkept : gone <+: entry.1
      · have hne : entry.1 ≠ p := fun heq => hp (heq ▸ hkept)
        rw [List.filter_cons_of_neg (by simpa using hkept), ih, find?, if_neg hne]
      · rw [List.filter_cons_of_pos (by simpa using hkept), find?, find?, ih]
  rw [node?, node?, h.nodes, hfind]

/-- **Removing something from a directory** leaves the others as they were, in trees without
links. -/
lemma without (h : Pruned (top ++ [name]) tree after) (sound : tree.Sound)
    (noLinks : tree.NoLinks) (named : tree.Named)
    (located : tree.locate true root = .ok ⟨top, some .directory⟩)
    (located' : after.locate true root = .ok ⟨top, some .directory⟩) :
    Without root name tree after := by
  obtain ⟨names, hchildren, -, hnames⟩ := exists_children sound top
  have hunder : ∀ other : String, top ++ [name] <+: top ++ [other] ↔ other = name := by
    intro other
    rw [List.prefix_append_right_inj]
    simp [eq_comm]
  have hchildren' : after.children top =
      (names.filter (· ≠ name)).map fun other => top ++ [other] := by
    have hfilter : after.children top =
        (tree.children top).filter fun p => ¬ top ++ [name] <+: p := by
      have hmap : (tree.nodes.filter fun entry => ¬ top ++ [name] <+: entry.1).map (·.1) =
          (tree.nodes.map (·.1)).filter fun p => ¬ top ++ [name] <+: p := by
        rw [List.filter_map]
        rfl
      rw [children, children, h.nodes, hmap, List.filter_comm]
    rw [hfilter, hchildren, List.filter_map]
    refine congrArg _ (List.filter_congr fun other _ => ?_)
    simp [hunder]
  have hentries := entriesOf_eq located hchildren
  have hentries' := entriesOf_eq located' hchildren'
  have hbeside : ∀ path ∈ after.entriesOf root, ∃ other, path = inside root other ∧
      IsEntry other ∧ ¬ top ++ [name] <+: top ++ [other] := by
    intro path hpath
    rw [hentries'] at hpath
    obtain ⟨other, hother, rfl⟩ := List.mem_map.mp hpath
    rw [List.mem_filter, decide_eq_true_eq] at hother
    exact ⟨other, rfl, named.node _ ((hnames other).mp hother.1) other (by simp),
      fun hbelow => hother.2 ((hunder other).mp hbelow)⟩
  refine ⟨isDirectory_of_locate located', ?_, fun path hpath names plain => ?_,
    fun path hpath place node hplace => ?_⟩
  · rw [hentries, hentries', List.filter_map]
    refine congrArg _ (List.filter_congr fun other _ => ?_)
    simp [inside]
  · obtain ⟨other, rfl, entry, away⟩ := hbeside path hpath
    rw [inside, List.append_assoc]
    exact locate_beyond noLinks located located' entry plain fun p hp => h.node?_eq fun hgone =>
      away (List.prefix_of_prefix_length_le hgone hp (by simp))
  · obtain ⟨other, rfl, entry, away⟩ := hbeside path hpath
    obtain rfl : place = top ++ [other] := place_of_child located hplace entry.ne_dot entry.ne_up
      fun target => noLinks _ target
    exact h.time _ away (by simp)

/-- Removing a directory takes it out of the tree with everything in it. -/
lemma of_removeTree (h : tree.locate false path = .ok ⟨gone, some .directory⟩) :
    Pruned gone tree (tree.removeTree path) := by
  have hplaces : ∀ p ∈ tree.below gone ++ [gone], gone <+: p := by
    intro p hp
    rw [List.mem_append, mem_below_iff, List.mem_singleton] at hp
    rcases hp with ⟨hp, -⟩ | rfl
    · exact hp
    · exact List.prefix_refl p
  rw [removeTree, h]
  refine ⟨workplace_foldl_remove _ _, ?_, fun p hp hdrop => ?_⟩
  · rw [nodes_foldl_remove]
    refine List.filter_congr fun entry hentry =>
      decide_eq_decide.mpr (not_congr ⟨hplaces _, fun hp => ?_⟩)
    rw [List.mem_append, List.mem_singleton, below, List.mem_filter]
    by_cases heq : entry.1 = gone
    · exact .inr heq
    · exact .inl ⟨List.mem_map_of_mem hentry, by simpa [heq] using hp⟩
  · -- the directory around the place is the only one whose time changes
    have hout : ∀ q ∈ tree.below gone ++ [gone],
        IsOut (fun p => decide (¬ gone <+: p ∧ p ≠ gone.dropLast)) q := by
      intro q hq
      have hgone := hplaces q hq
      refine ⟨by simp [hgone], ?_⟩
      by_cases heq : q = gone
      · simp [heq]
      · have hbelow : gone <+: q.dropLast := by
          obtain ⟨rest, rfl⟩ := hgone
          have hrest : rest ≠ [] := fun hnil => heq (by simp [hnil])
          rw [List.dropLast_append_of_ne_nil hrest]
          exact List.prefix_append _ _
        simp [hbelow]
    exact (sameOn_foldl_remove hout tree).times p (by simp [hp, hdrop])

end Pruned

/-! ### A store -/

/-- **One thing that breaks off** is enough: with it in the root nothing is listed. -/
lemma exists_error_of_breaksOff (enabled : store.root? = some root)
    (present : tree.isDirectory root = .ok true) (mem : path ∈ tree.entriesOf root)
    (broken : BreaksOff tree path breakdown) : ∃ cause, store.runs tree = .error cause := by
  cases hruns : store.runs tree with
  | error cause => exact ⟨cause, rfl⟩
  | ok runs =>
    rcases (runs_eq_ok_iff enabled).mp hruns with ⟨habsent, -⟩ | ⟨-, hread, -⟩
    · rw [present] at habsent
      cases habsent
    · obtain ⟨found, hfound⟩ := hread path mem
      rw [broken.runAt?] at hfound
      cases hfound

/-- **Damaged runs do not disturb the others.** A listing is broken off by the first thing in
the root that breaks off, and a run is not looked up only for this cause. Every directory
that holds a run is listed once, and nothing else is. What is passed over can be taken out of
the root or put into it, and the list is the same, with whatever is selected from it. -/
theorem runs_undisturbed (sound : tree.Sound) (enabled : store.root? = some root)
    (present : tree.isDirectory root = .ok true) :
    (∀ breakdown, store.runs tree = .error breakdown ↔
      ∃ before path later, tree.entriesOf root = before ++ path :: later ∧
        (∀ p ∈ before, ∀ cause, ¬ BreaksOff tree p cause) ∧ BreaksOff tree path breakdown) ∧
    (∀ s breakdown, store.run? tree s = .error breakdown ↔
      HistoryStore.isName (trimmed s) = true ∧
        BreaksOff tree (inside root (trimmed s)) breakdown) ∧
    (∀ s run, store.run? tree s = .ok (some run) ↔
      HistoryStore.isName (trimmed s) = true ∧ Loads tree (inside root (trimmed s)) run) ∧
    (∀ runs, store.runs tree = .ok runs → (runs.map (·.path)).Nodup ∧
      ∀ run, run ∈ runs ↔ run.path ∈ tree.entriesOf root ∧ Loads tree run.path run) ∧
    ∀ after name, PassedOver tree (inside root name) → Without root name tree after →
      store.runs after = store.runs tree ∧ ∀ execution latestOnly,
        store.select after none execution latestOnly =
          store.select tree none execution latestOnly := by
  have hruns := runs_of_isDirectory enabled present
  refine ⟨fun breakdown => ?_, fun s breakdown => ?_, fun s run => ?_, fun runs listed => ?_,
    fun after name passed without => ?_⟩
  · rw [hruns, map_eq_error_iff, runsAmong_eq_error_iff]
  · rw [run?_eq enabled, ← runAt?_eq_error_iff]
    split_ifs with hname <;> simp [hname]
  · rw [run?_eq_some_iff enabled, runAt?_eq_some_iff_loads]
  · rw [hruns, map_eq_ok_iff] at listed
    obtain ⟨found, hfound, rfl⟩ := listed
    have hperm : (Run.newestFirst tree found).Perm found := sortBy_perm _
    obtain ⟨place, located⟩ := isDirectory_eq_true_iff.mp present
    obtain ⟨names, hchildren, distinct, -⟩ := exists_children sound place
    have hdistinct : (tree.entriesOf root).Nodup := by
      rw [entriesOf_eq located hchildren]
      refine distinct.map fun a b hab => ?_
      rw [← name_inside root a, hab, name_inside]
    refine ⟨?_, fun run => ?_⟩
    · rw [(hperm.map _).nodup_iff]
      exact hdistinct.sublist (paths_sublist_of_runsAmong hfound)
    · rw [hperm.mem_iff, mem_runsAmong_iff hfound]
  · have hsame := without.runs_eq enabled present passed.runAt?
    refine ⟨hsame, fun execution latestOnly => ?_⟩
    rw [HistoryStore.select, HistoryStore.select, hsame]
    rfl

/-- A store with two runs, a manifest that breaks off in the middle of its text, and a file. -/
def mixedRuns : FileTree :=
  ⟨[], [(["h"], .directory), (["h", "a"], .directory),
    (["h", "a", "manifest.json"], .file (Utf8.encode "\x7b\"sequence\":1\x7d")),
    (["h", "torn"], .directory), (["h", "torn", "manifest.json"], .file (Utf8.encode "\x7b")),
    (["h", "note"], .file []), (["h", "b"], .directory),
    (["h", "b", "manifest.json"], .file (Utf8.encode "\x7b\"sequence\":2\x7d"))], [], 0⟩

/-- The directory with the torn manifest is taken away. -/
theorem runs_undisturbed_mixedRuns :
    mixedRuns.Sound ∧ (HistoryStore.mk "/h" true).root? = some ⟨"/", ["h"]⟩ ∧
      mixedRuns.isDirectory ⟨"/", ["h"]⟩ = .ok true ∧
      PassedOver mixedRuns (inside ⟨"/", ["h"]⟩ "torn") ∧
      Without ⟨"/", ["h"]⟩ "torn" mixedRuns (mixedRuns.removeTree ⟨"/", ["h", "torn"]⟩) ∧
      (((HistoryStore.mk "/h" true).runs (mixedRuns.removeTree ⟨"/", ["h", "torn"]⟩)).toOption.map
        (·.map (·.id))) = some ["b", "a"] := by
  have sound : mixedRuns.Sound := by decide +kernel
  have noLinks : mixedRuns.NoLinks := noLinks_of_nodes (by simp [mixedRuns])
  have named : mixedRuns.Named := named_of_nodes (by decide +kernel) (by decide +kernel)
  have enabled : (HistoryStore.mk "/h" true).root? = some ⟨"/", ["h"]⟩ := by decide +kernel
  have present : mixedRuns.isDirectory ⟨"/", ["h"]⟩ = .ok true := by decide +kernel
  have torn : ManifestText mixedRuns (inside ⟨"/", ["h"]⟩ "torn") "\x7b" :=
    ⟨by decide +kernel, Utf8.encode "\x7b", by decide +kernel, Utf8.decode?_encode _⟩
  have passed : PassedOver mixedRuns (inside ⟨"/", ["h"]⟩ "torn") := .malformed torn (by rfl)
  have pruned : Pruned (["h"] ++ ["torn"]) mixedRuns
      (mixedRuns.removeTree ⟨"/", ["h", "torn"]⟩) := .of_removeTree (by rfl)
  have without : Without ⟨"/", ["h"]⟩ "torn" mixedRuns
      (mixedRuns.removeTree ⟨"/", ["h", "torn"]⟩) :=
    pruned.without sound noLinks named (by rfl) (by rfl)
  refine ⟨sound, enabled, present, passed, without, ?_⟩
  rw [((runs_undisturbed sound enabled present).2.2.2.2 _ _ passed without).1]
  decide +kernel

/-! ### A number that is too long -/

/-- Ones are the digits of an integer. -/
lemma isWhole_ones (n : Nat) : Json.IsWhole (List.replicate (n + 1) '1') where
  digits c hc := by
    rw [List.eq_of_mem_replicate hc]
    rfl
  head := .inr ⟨'1', List.replicate n '1', rfl, by decide⟩

/-- An integer with too many digits is refused as such. -/
lemma parse_long {digits : List Char} (whole : Json.IsWhole digits)
    (long : Json.digitLimit < digits.length) :
    Json.parse (String.ofList digits) = .error .hugeInteger := by
  obtain ⟨c, rest, rfl⟩ := List.exists_cons_of_ne_nil whole.ne_nil
  have hc : c.isDigit = true := whole.digits c (by simp)
  have htake : Json.takeWhole (c :: rest) = (c :: rest, []) := by
    have hends : Json.EndsDigits [] := by simp [Json.EndsDigits]
    simpa using Json.takeWhole_eq whole hends
  have hnumber : Json.readNumber (c :: rest) = .error .hugeInteger := by
    rw [Json.readNumber]
    · simp only [htake, Json.takeFraction, Json.takeExponent, List.isEmpty_nil, List.isEmpty_cons,
        Bool.and_self, Bool.false_eq_true, if_false, if_true]
      rw [if_pos long]
    · rintro more heq
      rw [(List.cons.inj heq).1] at hc
      cases hc
  have hvalue := Json.readValue_of_digit hc false rest
  simp only [Bool.false_eq_true, if_false, List.nil_append, hnumber] at hvalue
  have hne : ∀ d : Char, d.isDigit = false → (c == d) = false := by
    intro d hd
    rw [beq_eq_false_iff_ne]
    rintro rfl
    rw [hc] at hd
    cases hd
  have hblanks : Json.skipBlanks (c :: rest) = c :: rest :=
    (Json.starts_cons (by simp [hne]) rest).skipBlanks
  rw [Json.parse, String.toList_ofList]
  simp only [hblanks, hvalue]
  rfl

/-- So is a manifest of nothing but ones. -/
lemma BreaksOff.of_ones {contents : Bytes} (directory : tree.isDirectory path = .ok true)
    (read : tree.read (path.child Manifest.fileName) = .ok contents)
    (long : Json.digitLimit < contents.length) (ones : ∀ b ∈ contents, b = 49) :
    BreaksOff tree path .hugeInteger := by
  obtain ⟨n, hn⟩ := Nat.exists_eq_add_one_of_ne_zero (Nat.ne_zero_of_lt long)
  have hcontents : contents = Utf8.encode (String.ofList (List.replicate (n + 1) '1')) := by
    rw [Utf8.encode, String.toList_ofList, Utf8.encodeChars, List.flatMap_replicate]
    exact (List.eq_replicate_iff.mpr ⟨hn, ones⟩).trans (List.flatten_replicate_singleton).symm
  refine .huge ⟨directory, contents, read, hcontents ▸ Utf8.decode?_encode _⟩
    (parse_long (isWhole_ones n) ?_)
  rwa [List.length_replicate, ← hn]

/-- A store in which there is nothing but a manifest with too many digits. -/
def longRun : FileTree :=
  ⟨[], [(["h"], .directory), (["h", "bad"], .directory),
    (["h", "bad", "manifest.json"], .file (List.replicate 4301 49))], [], 0⟩

/-- A store with a run, and a manifest that is one long integer. -/
def hugeRuns : FileTree :=
  ⟨[], [(["h"], .directory), (["h", "a"], .directory),
    (["h", "a", "manifest.json"], .file (Utf8.encode "\x7b\x7d")), (["h", "huge"], .directory),
    (["h", "huge", "manifest.json"],
      .file (Utf8.encode (String.ofList (List.replicate 4301 '1'))))], [], 0⟩

/-- One manifest with a long integer, and the run beside it is not listed. -/
theorem runs_broken_hugeRuns :
    (∃ run, (HistoryStore.mk "/h" true).run? hugeRuns "a" = .ok (some run)) ∧
      (HistoryStore.mk "/h" true).run? hugeRuns "huge" = .error .hugeInteger ∧
      (HistoryStore.mk "/h" true).runs hugeRuns = .error .hugeInteger := by
  have enabled : (HistoryStore.mk "/h" true).root? = some ⟨"/", ["h"]⟩ := by decide +kernel
  have hlong : Json.digitLimit < (List.replicate 4301 '1').length := by
    rw [List.length_replicate]
    decide
  have hbreaks : BreaksOff hugeRuns (inside ⟨"/", ["h"]⟩ "huge") .hugeInteger :=
    .huge ⟨by rfl, _, by rfl, Utf8.decode?_encode _⟩
      (parse_long (isWhole_ones 4300) hlong)
  obtain ⟨run, hrun⟩ : ∃ run, (HistoryStore.mk "/h" true).run? hugeRuns "a" = .ok (some run) := by
    have hsome : ((HistoryStore.mk "/h" true).run? hugeRuns "a").toOption.join.isSome = true := by
      decide +kernel
    cases h : (HistoryStore.mk "/h" true).run? hugeRuns "a" with
    | error cause => simp [h, Except.toOption] at hsome
    | ok found =>
      have hfound : found.isSome = true := by simpa [h, Except.toOption] using hsome
      exact ⟨_, congrArg _ (Option.some_get hfound).symm⟩
  have hload := runAt?_eq_some_iff_loads.mp ((run?_eq_some_iff enabled).mp hrun).2
  refine ⟨⟨run, hrun⟩, ?_, ?_⟩
  · rw [run?_eq enabled, if_pos (by decide +kernel)]
    exact hbreaks.runAt?
  · rw [runs_of_isDirectory enabled (by rfl), map_eq_error_iff, runsAmong_eq_error_iff]
    refine ⟨[inside ⟨"/", ["h"]⟩ "a"], _, [], by rfl, fun p hp cause hcause => ?_, hbreaks⟩
    rw [List.mem_singleton.mp hp, ← runAt?_eq_error_iff] at hcause
    exact absurd (hload.runAt?.symm.trans hcause) (by simp)

end Scaffold
