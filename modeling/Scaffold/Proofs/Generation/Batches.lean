import Scaffold.Proofs.Generation.Writing
import Scaffold.Proofs.History.Holdings

/-!
Generations one after another.

A batch of files is written below an output root, and a run is recorded for what has been
changed. Seen from outside the store, batches are changes of single files one after
another, and the entry of a change keeps the bytes that were at its place before.

* `Batch`, `Batch.generate`: files that are written and recorded together; `Session`,
  `Session.performAll`: the batches of several managers one after another.
* `Change`, `Deed`: what a batch has journaled.
* `Trail`: contents that change place by place; `Trail.append_iff`, `Trail.last`: parts
  of a trail, and what it leaves at a place.
* `Course`: what lies between two trees; `course_of_write`, `KeptRun.Added.course`: one
  file, and one recording.
* `exists_course_of_performAll`: all batches of all managers.
-/

namespace Scaffold

open Files FileTree

variable {tree middle after final : FileTree} {root : Path} {place : Place}
  {store : HistoryStore} {journal : Journal}

/-! ### Batches -/

/-- A change that has been journaled. -/
structure Change where
  /-- The execution that has made it. -/
  execution : Option String
  /-- The journaled entry. -/
  entry : OutputEntry
  /-- What has been written. -/
  contents : Bytes

/-- The path of a change leads to a place. -/
def Change.LeadsTo (tree : FileTree) (change : Change) (p : Place) : Prop :=
  ∃ node, tree.locate true (.ofText change.entry.fullPath) = .ok ⟨p, node⟩

/-- A run that has been recorded. -/
structure Deed where
  /-- The sequence. -/
  sequence : Number.Binary64
  /-- The execution. -/
  execution : Option String
  /-- The changes, in order. -/
  changes : List Change

/-- The changes that the entries of files stand for. -/
def changesOf (execution : Option String) (entries : List OutputEntry)
    (files : List GeneratedFile) : List Change :=
  (entries.zip files).filterMap fun (entry, file) =>
    if entry.isJournaled then some ⟨execution, entry, file.contents⟩ else none

/-- Files that are written below an output root, and what is recorded about them. -/
structure Batch where
  /-- The output root. -/
  base : String
  /-- Whether and how files are written. -/
  mode : Writer.Mode
  /-- The files. -/
  files : List GeneratedFile
  /-- The warnings of the generation. -/
  warnings : List String
  /-- What the recording takes from outside. -/
  surroundings : Surroundings
  /-- The context. -/
  context : List (Document × Document)
  /-- The blueprint. -/
  blueprint : Blueprint
  /-- The path of the blueprint. -/
  relative : String

namespace Batch

/-- The execution to which a batch belongs. -/
def execution (batch : Batch) : Option String :=
  (RunContext.ofEntries batch.context).toOption.bind (·.executionId)

/-- The path of a file below the output root. -/
def target (batch : Batch) (file : GeneratedFile) : Path :=
  (Path.ofText batch.base).child (Writer.relativeText file.path)

/-- The files of a batch are written, and a run is recorded when a file has been
changed. -/
def generate (batch : Batch) (journal : Journal) (tree : FileTree) :
    Option (List Deed × Journal × FileTree) :=
  match Writer.writeAll (.ofText batch.base) batch.mode batch.files tree with
  | (.error _, _) => none
  | (.ok entries, written) =>
    match journal.record batch.surroundings batch.context batch.blueprint batch.relative
      ⟨entries, batch.warnings⟩ written with
    | (.ok _, next, after) =>
      some ([⟨Journal.nextSequence journal.last batch.surroundings.clock, batch.execution,
        changesOf batch.execution entries batch.files⟩], next, after)
    | (.error .unchanged, next, after) => some ([], next, after)
    | (.error _, _, _) => none

end Batch

/-- Batches one after another, if all of them come to their end. -/
def generateAll : Journal → List Batch → FileTree → Option (List Deed × FileTree)
  | _, [], tree => some ([], tree)
  | journal, batch :: batches, tree => do
    let (deeds, journal, next) ← batch.generate journal tree
    let (more, after) ← generateAll journal batches next
    return (deeds ++ more, after)

/-- The batches of one manager. -/
structure Session where
  /-- The journal that the manager starts with. -/
  journal : Journal
  /-- The batches. -/
  batches : List Batch

/-- The batches of several managers one after another, with the runs of each. -/
def Session.performAll : List Session → FileTree → Option (List (List Deed) × FileTree)
  | [], tree => some ([], tree)
  | session :: sessions, tree => do
    let (deeds, next) ← generateAll session.journal session.batches tree
    let (more, after) ← Session.performAll sessions next
    return (deeds :: more, after)

/-! ### Trails -/

/-- The contents of all places outside the store. -/
def outside (place : Place) (tree : FileTree) (p : Place) : Option Bytes :=
  if place <+: p then none else tree.contents? p

/-- The root of a store lies at a place, if it is there. -/
def IsTop (tree : FileTree) (root : Path) (place : Place) : Prop :=
  ∀ other, tree.locate true root = .ok ⟨other, some .directory⟩ → other = place

/-- A path does not lead into a place. -/
def LeadsApart (tree : FileTree) (path : Path) (place : Place) : Prop :=
  ∀ goal node, tree.locate true path = .ok ⟨goal, node⟩ → ¬ place <+: goal

instance (tree : FileTree) (root : Path) (place : Place) : Decidable (IsTop tree root place) :=
  match h : tree.locate true root with
  | .ok ⟨other, some .directory⟩ => decidable_of_iff (other = place)
      ⟨fun heq other' h' => by rw [h, Except.ok.injEq, Found.mk.injEq] at h'; exact h'.1 ▸ heq,
        fun all => all other h⟩
  | .ok ⟨_, none⟩ => .isTrue fun _ h' => by simp [h] at h'
  | .ok ⟨_, some (.file _)⟩ => .isTrue fun _ h' => by simp [h] at h'
  | .ok ⟨_, some (.link _)⟩ => .isTrue fun _ h' => by simp [h] at h'
  | .error _ => .isTrue fun _ h' => by simp [h] at h'

instance (tree : FileTree) (path : Path) (place : Place) : Decidable (LeadsApart tree path place) :=
  match h : tree.locate true path with
  | .ok ⟨goal, node⟩ => decidable_of_iff (¬ place <+: goal)
      ⟨fun apart goal' node' h' => by
        rw [h, Except.ok.injEq, Found.mk.injEq] at h'
        exact h'.1 ▸ apart, fun all => all goal node h⟩
  | .error _ => .isTrue fun _ _ h' => by simp [h] at h'

lemma outside_of_not {p : Place} (h : ¬ place <+: p) : outside place tree p = tree.contents? p :=
  if_neg h

/-- Contents that have become others by changes one after another. The paths of the
changes are located in the last tree, and outside the store. -/
inductive Trail (final : FileTree) (place : Place) :
    (Place → Option Bytes) → List Change → (Place → Option Bytes) → Prop
  /-- Nothing has changed. -/
  | nil {before : Place → Option Bytes} : Trail final place before [] before
  /-- The contents of one place have changed first. The entry keeps what was there, unless
  its path comes back from some directory. -/
  | cons {before after : Place → Option Bytes} {change : Change} {changes : List Change}
    {goal : Place} {node : Option Node}
    (located : final.locate true (.ofText change.entry.fullPath) = .ok ⟨goal, node⟩)
    (apart : ¬ place <+: goal)
    (status : change.entry.status =
      if (keptBytes? change.entry).isSome then .overwritten else .written)
    (kept : ".." ∉ (Path.ofText change.entry.fullPath).names →
      keptBytes? change.entry = before goal)
    (rest : Trail final place (Function.update before goal (some change.contents)) changes after) :
    Trail final place before (change :: changes) after

namespace Trail

variable {before between behind : Place → Option Bytes} {change : Change}
  {changes more : List Change}

/-- A trail is cut between any two of its changes. -/
lemma append_iff : Trail final place before (changes ++ more) behind ↔
    ∃ between, Trail final place before changes between ∧ Trail final place between more behind := by
  induction changes generalizing before with
  | nil =>
    refine ⟨fun h => ⟨before, .nil, h⟩, ?_⟩
    rintro ⟨between, h, hmore⟩
    cases h
    exact hmore
  | cons change changes ih =>
    constructor
    · intro h
      cases h with
      | cons located apart status kept rest =>
        obtain ⟨between, hfirst, hmore⟩ := ih.mp rest
        exact ⟨between, .cons located apart status kept hfirst, hmore⟩
    · rintro ⟨between, h, hmore⟩
      cases h with
      | cons located apart status kept rest =>
        exact .cons located apart status kept (ih.mpr ⟨between, rest, hmore⟩)

/-- Places with contents keep some. -/
lemma isSome (h : Trail final place before changes behind) {p : Place}
    (there : (before p).isSome) : (behind p).isSome := by
  induction h with
  | nil => exact there
  | @cons _ _ _ _ goal _ _ _ _ _ _ ih =>
    refine ih ?_
    by_cases hp : p = goal
    · simp [hp]
    · rwa [Function.update_of_ne hp]

/-- A place to which no change leads has the contents that it had. -/
lemma eq_of_forall (h : Trail final place before changes behind) {p : Place}
    (unseen : ∀ change ∈ changes, ¬ change.LeadsTo final p) : behind p = before p := by
  induction h with
  | nil => rfl
  | @cons before _ change _ goal node located _ _ _ _ ih =>
    rw [ih fun other hother => unseen other (by simp [hother])]
    have hne : p ≠ goal := by
      rintro rfl
      exact unseen change (by simp) ⟨node, located⟩
    rw [Function.update_of_ne hne]

/-- **The last change** that leads to a place decides what is there. -/
lemma last {p : Place} (h : Trail final place before (changes ++ change :: more) behind)
    (leads : change.LeadsTo final p) (later : ∀ other ∈ more, ¬ other.LeadsTo final p) :
    behind p = some change.contents := by
  obtain ⟨between, -, hrest⟩ := append_iff.mp h
  obtain ⟨node, hnode⟩ := leads
  cases hrest with
  | cons located _ _ _ rest =>
    rw [hnode, Except.ok.injEq, Found.mk.injEq] at located
    rw [rest.eq_of_forall later, ← located.1, Function.update_self]

/-- Every change leads to a place outside the store that has contents in the end. -/
lemma exists_goal (h : Trail final place before changes behind) {change : Change}
    (hchange : change ∈ changes) :
    ∃ goal node, final.locate true (.ofText change.entry.fullPath) = .ok ⟨goal, node⟩ ∧
      ¬ place <+: goal ∧ (behind goal).isSome := by
  obtain ⟨earlier, later, rfl⟩ := List.mem_iff_append.mp hchange
  obtain ⟨between, -, hrest⟩ := append_iff.mp h
  cases hrest with
  | cons located apart _ _ rest => exact ⟨_, _, located, apart, rest.isSome (by simp)⟩

end Trail

/-! ### Courses -/

/-- What writings and recordings leave between two trees: the contents outside the store
have changed along a trail, and runs have been added to the store. That files are not
written into the store is known from the last tree, in which all directories and links
of the others are found again. -/
structure Course (final : FileTree) (root : Path) (place : Place) (changes : List Change)
    (runs : List KeptRun) (tree after : FileTree) : Prop where
  /-- All directories and links are as they were. -/
  keeps : Keeps tree after
  /-- Everything still lies in a directory. -/
  sound : after.Sound
  /-- Every name is one that a directory can hold. -/
  named : tree.Named → after.Named
  /-- The runs have been added. -/
  holds : Keeps after final → ∀ other kept, Holds place other kept tree →
    Holds place other (kept ++ runs) after
  /-- The contents have changed. -/
  trail : Keeps after final →
    Trail final place (outside place tree) changes (outside place after)
  /-- The root is there when runs have been added. -/
  located : Keeps after final → runs ≠ [] →
    final.locate true root = .ok ⟨place, some .directory⟩

namespace Course

variable {changes more : List Change} {runs others : List KeptRun}

/-- Nothing happens to contents. -/
lemma quiet (keeps : Keeps tree after) (sound : after.Sound) (named : tree.Named → after.Named)
    (contents : ∀ p, after.contents? p = tree.contents? p) :
    Course final root place [] [] tree after where
  keeps := keeps
  sound := sound
  named := named
  holds _ other kept h := by
    rw [List.append_nil]
    exact h.of_contents (fun _ => contents _) fun p target => (keeps.link p target).mp
  trail _ := by
    have hsame : outside place after = outside place tree := by
      funext p
      rw [outside, outside, contents]
    rw [hsame]
    exact .nil
  located _ h := absurd rfl h

lemma refl (sound : tree.Sound) : Course final root place [] [] tree tree :=
  quiet (.refl tree) sound id fun _ => rfl

lemma trans (h : Course final root place changes runs tree middle)
    (h' : Course final root place more others middle after) :
    Course final root place (changes ++ more) (runs ++ others) tree after where
  keeps := h.keeps.trans h'.keeps
  sound := h'.sound
  named named := h'.named (h.named named)
  holds keeps other kept holds := by
    rw [← List.append_assoc]
    exact h'.holds keeps other _ (h.holds (h'.keeps.trans keeps) other kept holds)
  trail keeps := Trail.append_iff.mpr ⟨_, h.trail (h'.keeps.trans keeps), h'.trail keeps⟩
  located keeps ne := by
    by_cases hruns : runs = []
    · exact h'.located keeps (by simpa [hruns] using ne)
    · exact h.located (h'.keeps.trans keeps) hruns

end Course

/-! ### One file -/

section File

variable {mode : Writer.Mode} {file : GeneratedFile} {entry : OutputEntry} {target : Path}
  {contents : Bytes} {execution : Option String}

/-- Where a file is written something may be written in a sound tree. -/
lemma sound_of_write (sound : tree.Sound) (h : tree.write target contents = .ok after) :
    after.Sound := by
  obtain ⟨goal, hgoal, vacant, rfl⟩ := write_eq_ok_iff.mp h
  have hdir : tree.node? goal.dropLast = some .directory := by
    rcases vacant with hnone | ⟨before, hfile⟩
    · rw [hnone] at hgoal
      exact (sound.parent hgoal).2.1
    · exact sound.closed _ _ hfile
  exact sound.set vacant.ne_nil _ hdir vacant.not_directory

/-- Contents are put at the place to which the path of an entry leads. -/
lemma course_of_put (sound : tree.Sound) (h : tree.write target contents = .ok after)
    (path : Path.ofText entry.fullPath = target)
    (apart : LeadsApart final target place)
    (status : entry.status = if (keptBytes? entry).isSome then .overwritten else .written)
    (kept : ".." ∉ target.names → ∀ goal, tree.locate true target = .ok ⟨goal, tree.node? goal⟩ →
      keptBytes? entry = tree.contents? goal) :
    Course final root place [⟨execution, entry, contents⟩] [] tree after := by
  have hsound := sound_of_write sound h
  have hnamed := fun named : tree.Named => named.write h
  obtain ⟨goal, hgoal, vacant, rfl⟩ := write_eq_ok_iff.mp h
  have hkeeps := Keeps.set_file vacant contents
  -- in the last tree the path leads to the same place
  have hfinal : Keeps (tree.set goal (.file contents)) final →
      final.locate true target = .ok ⟨goal, final.node? goal⟩ :=
    fun keeps => (hkeeps.trans keeps).locate hgoal
  refine ⟨hkeeps, hsound, hnamed, fun keeps other before holds => ?_, fun keeps => ?_,
    fun _ h => absurd rfl h⟩
  · rw [List.append_nil]
    refine holds.of_contents (fun rest => ?_) fun p t => (hkeeps.link p t).mp
    rw [contents?_set vacant.ne_nil, if_neg]
    rintro rfl
    exact apart _ _ (hfinal keeps) (List.prefix_append _ _)
  · have hapart := apart _ _ (hfinal keeps)
    have hlocate : final.locate true (.ofText entry.fullPath) = .ok ⟨goal, final.node? goal⟩ := by
      rw [path]
      exact hfinal keeps
    refine .cons hlocate hapart status (fun plain => ?_) ?_
    · rw [outside_of_not hapart]
      exact kept (by rwa [path] at plain) goal hgoal
    · have hupdate : Function.update (outside place tree) goal (some contents) =
          outside place (tree.set goal (.file contents)) := by
        funext p
        by_cases hp : p = goal
        · rw [hp, Function.update_self, outside_of_not hapart, contents?_set vacant.ne_nil,
            if_pos rfl]
        · rw [Function.update_of_ne hp, outside, outside, contents?_set vacant.ne_nil, if_neg hp]
      rw [hupdate]
      exact .nil

/-- A failure to place contents leaves the directories that have been made. -/
lemma place_of_error {previous : Option Bytes} {relative : String}
    (h : (Writer.place target contents previous relative tree).1.status = .error) :
    (Writer.place target contents previous relative tree).2 =
      (tree.makeDirectories target.parent).2 := by
  rw [Writer.place] at h ⊢
  cases hmade : tree.makeDirectories target.parent with
  | mk fault grown =>
    cases fault with
    | some fault => rfl
    | none =>
      cases hwrite : grown.write target contents with
      | error fault => simp only [hwrite]
      | ok written =>
        simp only [hmade, hwrite] at h
        cases previous <;> cases h

/-- The bytes that the entry of a written file keeps. -/
lemma keptBytes?_placed (target : Path) (contents : Bytes) (relative : String)
    (previous : Option Bytes) :
    keptBytes? (Writer.placed target contents relative previous) = previous := by
  cases previous <;> rfl

/-- The change of a file, if its entry is journaled. -/
def changeOf (execution : Option String) (entry : OutputEntry) (contents : Bytes) : List Change :=
  if entry.isJournaled then [⟨execution, entry, contents⟩] else []

/-- Making directories changes no contents. -/
lemma course_of_makeDirectories (sound : tree.Sound) (path : Path) :
    Course final root place [] [] tree (tree.makeDirectories path).2 :=
  .quiet (makeDirectories_grown path tree).keeps ((makeDirectories_made path tree).sound sound)
    (fun named => named.makeDirectories path) (makeDirectories_grown path tree).contents

/-- What the placing of contents does, whether or not it succeeds. -/
lemma course_of_place {previous : Option Bytes} (sound : tree.Sound) (written : target.IsWritten)
    (apart : LeadsApart final target place)
    (existing : Writer.existing target tree = .ok previous) (relative : String) :
    Course final root place (changeOf execution
        (Writer.place target contents previous relative tree).1 contents) [] tree
      (Writer.place target contents previous relative tree).2 := by
  obtain ⟨hstatus, -⟩ | ⟨grown, after, hmade, hwrite, hplaced⟩ :=
    Writer.place_cases target contents previous relative tree
  · rw [place_of_error hstatus, changeOf, OutputEntry.isJournaled, hstatus]
    exact course_of_makeDirectories sound target.parent
  · have hgrown := makeDirectories_grown target.parent tree
    have hcourse : Course final root place [] [] tree (tree.makeDirectories target.parent).2 :=
      course_of_makeDirectories sound target.parent
    rw [hmade] at hgrown hcourse
    rw [hplaced]
    have hpath : Path.ofText (Writer.placed target contents relative previous).fullPath = target := by
      cases previous <;> exact Path.ofText_toText written
    have hchange : changeOf execution (Writer.placed target contents relative previous) contents =
        [⟨execution, Writer.placed target contents relative previous, contents⟩] := by
      cases previous <;> rfl
    rw [hchange]
    refine hcourse.trans (course_of_put hcourse.sound hwrite hpath apart ?_ fun plain goal hgoal => ?_)
    · cases previous <;> rfl
    · rw [keptBytes?_placed, hgrown.contents]
      cases previous with
      | some before =>
        -- the file that was read is the one that is written
        obtain ⟨goal', hgoal'⟩ := read_eq_ok_iff.mp (Writer.read_of_existing existing)
        have hsame := hgrown.keeps.locate hgoal'
        rw [hgoal, Except.ok.injEq, Found.mk.injEq] at hsame
        rw [hsame.1, eq_comm, contents?_eq_some_iff]
        exact node?_of_locate hgoal'
      | none =>
        cases hcontents : tree.contents? goal with
        | none => rfl
        | some before =>
          refine absurd ⟨Writer.isFile_of_existing_none existing, by rw [hmade], ?_⟩
            (Writer.not_uncovers sound written plain)
          rw [hmade, isFile_eq_true_iff]
          refine ⟨goal, before, ?_⟩
          rw [hgoal, hgrown.of_some (contents?_eq_some_iff.mp hcontents)]

/-- **One file**: what has been journaled is a change of contents, and nothing else has
happened to contents. -/
lemma course_of_write (sound : tree.Sound) (base : String)
    (h : Writer.write (.ofText base) mode file tree = (.ok entry, after))
    (apart : LeadsApart final ((Path.ofText base).child (Writer.relativeText file.path)) place) :
    Course final root place (changeOf execution entry file.contents) [] tree after := by
  have written := (Path.ofText_isWritten base).child (Writer.relativeText file.path)
  unfold Writer.write at h
  simp only at h
  generalize (Path.ofText base).child (Writer.relativeText file.path) = target at *
  split at h
  · cases h
  · simp only [Prod.mk.injEq, Except.ok.injEq] at h
    obtain ⟨rfl, rfl⟩ := h
    exact .refl sound
  · simp only [Prod.mk.injEq, Except.ok.injEq] at h
    obtain ⟨rfl, rfl⟩ := h
    rw [Writer.writeAt]
    simp only
    split_ifs
    · exact .refl sound
    · cases hexisting : Writer.existing target tree with
      | error fault => exact .refl sound
      | ok previous =>
        simp only
        split_ifs
        · exact .refl sound
        · exact .refl sound
        · exact course_of_place sound written apart hexisting _

end File

/-! ### Files one after another -/

section Files

variable {batch : Batch} {file : GeneratedFile} {files : List GeneratedFile}
  {entry : OutputEntry} {entries : List OutputEntry} {mode : Writer.Mode} {base : String}

-- the equations of `writeAll` are stated by hand, so that no file is written by evaluation
attribute [local irreducible] Writer.write

lemma writeAll_nil (out : Path) (mode : Writer.Mode) (tree : FileTree) :
    Writer.writeAll out mode [] tree = (.ok [], tree) := rfl

lemma writeAll_cons (out : Path) (mode : Writer.Mode) (file : GeneratedFile)
    (files : List GeneratedFile) (tree : FileTree) :
    Writer.writeAll out mode (file :: files) tree =
      match Writer.write out mode file tree with
      | (.error fault, tree) => (.error fault, tree)
      | (.ok entry, tree) =>
        ((Writer.writeAll out mode files tree).1.map (entry :: ·),
          (Writer.writeAll out mode files tree).2) := rfl

/-- The first of some files is written, and the others are written after it. -/
lemma writeAll_cons_eq_ok {out : Path}
    (h : Writer.writeAll out mode (file :: files) tree = (.ok entries, after)) :
    ∃ entry rest next, entries = entry :: rest ∧ Writer.write out mode file tree = (.ok entry, next) ∧
      Writer.writeAll out mode files next = (.ok rest, after) := by
  rw [writeAll_cons] at h
  cases hwrite : Writer.write out mode file tree with
  | mk outcome next =>
    cases outcome with
    | error fault => simp [hwrite] at h
    | ok entry =>
      cases hrest : Writer.writeAll out mode files next with
      | mk outcome last =>
        simp only [hwrite, hrest, Prod.mk.injEq, map_eq_ok_iff] at h
        obtain ⟨⟨rest, hrest', rfl⟩, rfl⟩ := h
        exact ⟨entry, rest, next, rfl, rfl, by rw [hrest, hrest']⟩

lemma changesOf_cons (execution : Option String) (entry : OutputEntry)
    (entries : List OutputEntry) (file : GeneratedFile) (files : List GeneratedFile) :
    changesOf execution (entry :: entries) (file :: files) =
      changeOf execution entry file.contents ++ changesOf execution entries files := by
  rw [changesOf, List.zip_cons_cons, List.filterMap_cons, changeOf]
  split <;> simp_all [changesOf]

lemma execution_of_mem_changesOf {execution : Option String} {change : Change}
    (h : change ∈ changesOf execution entries files) : change.execution = execution := by
  obtain ⟨⟨entry, file⟩, -, hsome⟩ := List.mem_filterMap.mp h
  simp only [Option.ite_none_right_eq_some, Option.some.injEq] at hsome
  rw [← hsome.2]

/-- The files of a batch one after another. -/
lemma course_of_writeAll (root : Path) (sound : tree.Sound) (execution : Option String)
    (h : Writer.writeAll (.ofText base) mode files tree = (.ok entries, after))
    (apart : ∀ file ∈ files,
      LeadsApart final ((Path.ofText base).child (Writer.relativeText file.path)) place) :
    Course final root place (changesOf execution entries files) [] tree after ∧
      (changesOf execution entries files).map (·.entry) = entries.filter (·.isJournaled) := by
  induction files generalizing tree entries with
  | nil =>
    simp only [writeAll_nil, Prod.mk.injEq, Except.ok.injEq] at h
    obtain ⟨rfl, rfl⟩ := h
    exact ⟨.refl sound, rfl⟩
  | cons file files ih =>
    obtain ⟨entry, rest, next, rfl, hwrite, hrest⟩ := writeAll_cons_eq_ok h
    have hfirst : Course final root place (changeOf execution entry file.contents) [] tree next :=
      course_of_write sound base hwrite (apart file (by simp))
    obtain ⟨hcourse, hentries⟩ :=
      ih hfirst.sound hrest fun other hother => apart other (by simp [hother])
    rw [changesOf_cons]
    refine ⟨hfirst.trans hcourse, ?_⟩
    rw [List.map_append, hentries, changeOf, List.filter_cons]
    split <;> simp_all

end Files

/-! ### Recordings -/

/-- A run is what has been kept of a deed. -/
structure Deed.IsKeptAs (deed : Deed) (r : KeptRun) : Prop where
  /-- The journaled entries. -/
  entries : r.entries = deed.changes.map (·.entry)
  /-- The execution. -/
  execution : r.manifest.executionId = deed.execution
  /-- All changes have been made by this execution. -/
  own : ∀ change ∈ deed.changes, change.execution = deed.execution
  /-- The sequence. -/
  sequence : r.manifest.sequence = some deed.sequence

/-- A recording adds a run and changes no contents outside the store. -/
lemma KeptRun.Added.course {r : KeptRun} {manifest : Manifest} {here : Place}
    (added : r.Added root manifest here tree after) (sound : tree.Sound)
    (top : IsTop final root place) :
    Course final root place [] [r] tree after := by
  have hlocate : Keeps after final → final.locate true root = .ok ⟨here, some .directory⟩ :=
    fun keeps => keeps.locate_directory added.recorded.located
  have hplace : Keeps after final → here = place := fun keeps => top here (hlocate keeps)
  refine ⟨added.keeps, added.sound, added.named, fun keeps other kept holds => ?_, fun keeps => ?_,
    fun keeps _ => hplace keeps ▸ hlocate keeps⟩
  · obtain rfl := hplace keeps
    exact holds.record sound added
  · obtain rfl := hplace keeps
    have hsame : outside here after = outside here tree := by
      funext p
      by_cases hp : here <+: p
      · rw [outside, outside, if_pos hp, if_pos hp]
      · rw [outside_of_not hp, outside_of_not hp, FileTree.contents?, FileTree.contents?]
        rcases added.recorded.others p fun h => hp ((List.prefix_append _ _).trans h) with
          heq | ⟨hnone, hdir, -⟩
        · rw [heq]
        · rw [hnone, hdir]
    rw [hsame]
    exact .nil

section Batches

variable {batch : Batch} {batches : List Batch} {deeds : List Deed} {next : Journal}

/-- Only what has changed nothing is not recorded for this reason. -/
lemma journaled_eq_nil_of_record {s : Surroundings} {context : List (Document × Document)}
    {b : Blueprint} {relative : String} {output : Output}
    (enabled : journal.store.root? = some root)
    (h : journal.record s context b relative output tree = (.error .unchanged, next, after)) :
    output.journaled = [] ∧ next = journal ∧ after = tree := by
  by_cases hnil : output.journaled = []
  · rw [Journal.record, enabled, hnil] at h
    simp only [Prod.mk.injEq, true_and] at h
    exact ⟨hnil, h.1.symm, h.2.symm⟩
  · -- a recording that has begun fails for other reasons
    rw [record_eq enabled hnil, Prod.mk.injEq] at h
    have hrun := h.1
    rw [Recording.run] at hrun
    split at hrun
    · cases hrun
    · next refusal _ hrefusal =>
      rw [Except.error.injEq] at hrun
      subst hrun
      rw [recordingOf] at hrefusal
      split at hrefusal
      · cases hrefusal
      · split at hrefusal
        · next fault hfault =>
          rw [Option.some.injEq] at hrefusal
          subst hrefusal
          rw [Manifest.fileBytes] at hfault
          split at hfault
          · cases hfault
          · split at hfault <;> cases hfault
        · cases hrefusal
    · cases hrun

/-- **One batch**: its changes, and a run for them when there are any. -/
lemma exists_course_of_generate (enabled : journal.store.root? = some root)
    (unique : '/' ∉ batch.surroundings.unique.toList) (sound : tree.Sound)
    (top : IsTop final root place)
    (apart : ∀ file ∈ batch.files, LeadsApart final (batch.target file) place)
    (done : batch.generate journal tree = some (deeds, next, after)) :
    next.store = journal.store ∧ ∃ runs, List.Forall₂ Deed.IsKeptAs deeds runs ∧
      Course final root place (deeds.flatMap (·.changes)) runs tree after := by
  rw [Batch.generate] at done
  split at done
  · cases done
  · next entries written hwritten =>
    obtain ⟨hcourse, hentries⟩ := course_of_writeAll root sound batch.execution hwritten apart
    split at done
    · next id journal' after' hrecord =>
      simp only [Option.some.injEq, Prod.mk.injEq] at done
      obtain ⟨rfl, rfl, rfl⟩ := done
      obtain ⟨r, known, here, -, -, hrentries, hknown, rfl, added⟩ :=
        exists_kept_of_record enabled hcourse.sound unique hrecord
      refine ⟨rfl, [r], .cons ⟨?_, ?_, fun change hchange => ?_, ?_⟩ .nil, ?_⟩
      · rw [hentries, hrentries]
        rfl
      · rw [added.plain.executionId, Batch.execution, hknown]
        rfl
      · exact execution_of_mem_changesOf hchange
      · rw [added.plain.sequence]
        rfl
      · simpa using hcourse.trans (added.course hcourse.sound top)
    · next journal' after' hrecord =>
      simp only [Option.some.injEq, Prod.mk.injEq] at done
      obtain ⟨rfl, rfl, rfl⟩ := done
      obtain ⟨hnil, rfl, rfl⟩ := journaled_eq_nil_of_record enabled hrecord
      refine ⟨rfl, [], .nil, ?_⟩
      have hchanges : changesOf batch.execution entries batch.files = [] := by
        rw [← List.map_eq_nil_iff, hentries]
        exact hnil
      rwa [hchanges] at hcourse
    · cases done

/-- **The batches of one manager.** -/
lemma exists_course_of_generateAll (enabled : journal.store.root? = some root)
    (unique : ∀ batch ∈ batches, '/' ∉ batch.surroundings.unique.toList) (sound : tree.Sound)
    (top : IsTop final root place)
    (apart : ∀ batch ∈ batches, ∀ file ∈ batch.files, LeadsApart final (batch.target file) place)
    (done : generateAll journal batches tree = some (deeds, after)) :
    ∃ runs, List.Forall₂ Deed.IsKeptAs deeds runs ∧
      Course final root place (deeds.flatMap (·.changes)) runs tree after := by
  induction batches generalizing journal tree deeds with
  | nil =>
    simp only [generateAll, Option.some.injEq, Prod.mk.injEq] at done
    obtain ⟨rfl, rfl⟩ := done
    exact ⟨[], .nil, .refl sound⟩
  | cons batch batches ih =>
    simp only [generateAll, Option.bind_eq_bind, Option.bind_eq_some_iff, Prod.exists,
      Option.pure_def, Option.some.injEq, Prod.mk.injEq] at done
    obtain ⟨first, next, middle, hfirst, more, last, hmore, rfl, rfl⟩ := done
    obtain ⟨hstore, runs, hruns, hcourse⟩ := exists_course_of_generate enabled
      (unique batch (by simp)) sound top (apart batch (by simp)) hfirst
    obtain ⟨others, hothers, hrest⟩ := ih (hstore ▸ enabled)
      (fun b hb => unique b (by simp [hb])) hcourse.sound (fun b hb => apart b (by simp [hb])) hmore
    refine ⟨runs ++ others, List.rel_append hruns hothers, ?_⟩
    rw [List.flatMap_append]
    exact hcourse.trans hrest

/-- A session has a manager with the given root, its runs get names without slashes, and
its files are written outside the store. -/
structure Session.Fits (session : Session) (root : Path) (final : FileTree) (place : Place) :
    Prop where
  /-- The root of the store. -/
  enabled : session.journal.store.root? = some root
  /-- The unique parts of the names of runs. -/
  unique : ∀ batch ∈ session.batches, '/' ∉ batch.surroundings.unique.toList
  /-- No file is written into the store. -/
  apart : ∀ batch ∈ session.batches, ∀ file ∈ batch.files,
    LeadsApart final (batch.target file) place

lemma Session.fits_iff {session : Session} : session.Fits root final place ↔
    session.journal.store.root? = some root ∧
    (∀ batch ∈ session.batches, '/' ∉ batch.surroundings.unique.toList) ∧
    ∀ batch ∈ session.batches, ∀ file ∈ batch.files, LeadsApart final (batch.target file) place :=
  ⟨fun h => ⟨h.enabled, h.unique, h.apart⟩, fun ⟨h, h', h''⟩ => ⟨h, h', h''⟩⟩

instance (session : Session) (root : Path) (final : FileTree) (place : Place) :
    Decidable (session.Fits root final place) :=
  decidable_of_iff _ Session.fits_iff.symm

/-- **The batches of several managers** one after another. -/
lemma exists_course_of_performAll {sessions : List Session} {deeds : List (List Deed)}
    (final : FileTree) (sound : tree.Sound) (top : IsTop final root place)
    (fits : ∀ session ∈ sessions, session.Fits root final place)
    (done : Session.performAll sessions tree = some (deeds, after)) :
    ∃ runs, List.Forall₂ (List.Forall₂ Deed.IsKeptAs) deeds runs ∧
      Course final root place (deeds.flatten.flatMap (·.changes)) runs.flatten tree after := by
  induction sessions generalizing tree deeds with
  | nil =>
    simp only [Session.performAll, Option.some.injEq, Prod.mk.injEq] at done
    obtain ⟨rfl, rfl⟩ := done
    exact ⟨[], .nil, .refl sound⟩
  | cons session sessions ih =>
    simp only [Session.performAll, Option.bind_eq_bind, Option.bind_eq_some_iff, Prod.exists,
      Option.pure_def, Option.some.injEq, Prod.mk.injEq] at done
    obtain ⟨first, middle, hfirst, more, last, hmore, rfl, rfl⟩ := done
    have hfits := fits session (by simp)
    obtain ⟨runs, hruns, hcourse⟩ := exists_course_of_generateAll hfits.enabled hfits.unique sound
      top hfits.apart hfirst
    obtain ⟨others, hothers, hrest⟩ := ih hcourse.sound (fun s hs => fits s (by simp [hs])) hmore
    refine ⟨runs :: others, .cons hruns hothers, ?_⟩
    rw [List.flatten_cons, List.flatten_cons, List.flatMap_append]
    exact hcourse.trans hrest

end Batches

/-! ### Small sessions -/

/-- A session that writes one file for an execution, and may replace it. -/
def Session.single (execution unique path : String) (contents : Bytes) : Session where
  journal := .fresh ⟨"/h", true⟩
  batches := [
    { base := "/out"
      mode := ⟨false, true⟩
      files := [⟨path, contents, false⟩]
      warnings := []
      surroundings := { someDay with unique := unique }
      context := [(.text "execution_id", .text execution)]
      blueprint := smallBlueprint
      relative := "e.yaml" }]

/-- In a tree that holds nothing nothing lies in a store. -/
lemma holds_empty (place : Place) (other : Manifest → Prop) : Holds place other [] (empty []) := by
  have hnode : ∀ p, p ≠ [] → (empty []).node? p = none := fun p hp => by
    rw [node?, if_neg hp]
    rfl
  refine ⟨.nil, by simp, fun name contents text _ hcontents => ?_, fun rest target hlink => ?_⟩
  · rw [FileTree.contents?, hnode _ (by simp)] at hcontents
    cases hcontents
  · by_cases hnil : place ++ rest = []
    · rw [hnil] at hlink
      cases hlink
    · rw [hnode _ hnil] at hlink
      cases hlink

end Scaffold
