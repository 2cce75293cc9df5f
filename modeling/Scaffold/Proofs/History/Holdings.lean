import Scaffold.Proofs.Files.Ways
import Scaffold.Proofs.History.Listing
import Scaffold.Proofs.History.ManifestText
import Scaffold.Proofs.History.Recording
import Scaffold.Proofs.Order.Sorting

/-!
What a store holds, and what it lists.

A store holds the runs that have been recorded, each in its own directory, beside what
lay in its root before. Other changes leave this alone as long as they put no file into
the root, a recording adds its run, and the list of the store is what it holds.

* `KeptRun`: a run with the contents of its directory; `KeptRun.LiesIn`: they are there.
* `runAt?_child`: what is read from a directory in the root depends on its manifest only.
* `Holds`: what lies in the root of a store; `Holds.of_contents`, `Holds.record`: how it
  outlives changes, and how a run is added.
* `Holds.exists_runs`: the store can be listed, and which runs it lists.
* `exists_kept_of_record`: what a recording that succeeds has done.
-/

namespace Scaffold

open Files FileTree

variable {tree tree' after : FileTree} {root path : Path} {place : Place} {name : String}
  {store : HistoryStore}

/-! ### What is read from a directory -/

/-- The path of a name in a directory. -/
def inside (root : Path) (name : String) : Path :=
  ⟨root.anchor, root.names ++ [name]⟩

@[simp] lemma name_inside (root : Path) (name : String) : (inside root name).name = name := by
  simp [inside, Path.name]

/-- The run that the bytes of a manifest stand for, if they stand for any. -/
def runIn (path : Path) : Option Bytes → Except Breakdown (Option Run)
  | none => .ok none
  | some contents =>
    match Utf8.decode? contents with
    | none => .ok none
    | some text => (manifestOf? path.name text).map fun found =>
      found.map fun manifest => ⟨manifest.id, path, manifest⟩

/-- A manifest that is located is read. -/
lemma loadRun?_of_locate
    (h : tree.locate true (path.child Manifest.fileName) = .ok ⟨place, tree.node? place⟩) :
    loadRun? tree path = runIn path (tree.contents? place) := by
  have hread : tree.contents? place = (tree.read (path.child Manifest.fileName)).toOption := by
    rw [FileTree.read, FileTree.stat, h, FileTree.contents?]
    cases tree.node? place with
    | none => rfl
    | some node => cases node <;> rfl
  rw [loadRun?, hread]
  cases tree.read (path.child Manifest.fileName) <;> rfl

/-- **What is read** from a directory in the root depends on its manifest only. -/
lemma runAt?_child (sound : tree.Sound)
    (located : tree.locate true root = .ok ⟨place, some .directory⟩) (entry : IsEntry name)
    (unlinked : ∀ rest target, tree.node? (place ++ [name] ++ rest) ≠ some (.link target)) :
    runAt? tree (inside root name) =
      if name.toList.contains '\x00' then .ok none
      else runIn (inside root name) (tree.contents? (place ++ [name] ++ [Manifest.fileName])) := by
  by_cases hzero : name.toList.contains '\x00' = true
  · rw [if_pos hzero]
    have hholds : (inside root name).holdsZero = true := by
      rw [Path.holdsZero, inside, List.any_append, Bool.or_eq_true]
      exact .inr (by simpa using hzero)
    have hdir : tree.isDirectory (inside root name) = .ok false := by
      rw [FileTree.isDirectory, FileTree.holds, FileTree.stat, FileTree.locate, if_pos hholds]
      rfl
    rw [runAt?, hdir]
    rfl
  · rw [if_neg hzero]
    rw [Bool.not_eq_true] at hzero
    have hchild := locate_child located entry hzero (by simpa using unlinked []) true
    rw [runAt?, inside, isDirectory_of_locate hchild]
    by_cases hnode : tree.node? (place ++ [name]) = some .directory
    · rw [hnode] at hchild ⊢
      have hfile : IsEntry Manifest.fileName := ⟨by decide, by decide, by decide⟩
      have hmanifest := locate_child hchild hfile (by decide) (unlinked [Manifest.fileName]) true
      rw [← Path.child_name fileName_isName ⟨root.anchor, root.names ++ [name]⟩] at hmanifest
      exact loadRun?_of_locate hmanifest
    · have hnone : tree.contents? (place ++ [name] ++ [Manifest.fileName]) = none := by
        rw [FileTree.contents?, sound.below hnode (by simp)]
      rw [hnone]
      have hbeq : (tree.node? (place ++ [name]) == some .directory) = false := by simpa using hnode
      rw [hbeq]
      rfl

/-! ### The names in a directory -/

/-- The names in a directory, each of them once. -/
lemma exists_children (sound : tree.Sound) (place : Place) :
    ∃ names : List String, tree.children place = names.map (fun name => place ++ [name]) ∧
      names.Nodup ∧ ∀ name, name ∈ names ↔ tree.node? (place ++ [name]) ≠ none := by
  have hform : ∀ p ∈ tree.children place, p = place ++ [p.getLast?.getD ""] := by
    intro p hp
    rw [FileTree.children, List.mem_filter] at hp
    have hcond := hp.2
    simp only [Bool.and_eq_true, Bool.not_eq_true', List.isEmpty_eq_false_iff,
      decide_eq_true_eq] at hcond
    obtain ⟨hne, hdrop⟩ := hcond
    rw [List.getLast?_eq_getLast_of_ne_nil hne, Option.getD_some, ← hdrop]
    exact (List.dropLast_append_getLast hne).symm
  have hmap : tree.children place =
      ((tree.children place).map fun p => p.getLast?.getD "").map fun name => place ++ [name] := by
    rw [List.map_map]
    conv_lhs => rw [← List.map_id (tree.children place)]
    exact List.map_congr_left hform
  refine ⟨_, hmap, ?_, fun name => ?_⟩
  · have hnodup : (tree.children place).Nodup := sound.distinct.filter _
    rw [hmap] at hnodup
    exact hnodup.of_map
  · have hmem : place ++ [name] ∈ tree.children place ↔ tree.node? (place ++ [name]) ≠ none := by
      rw [FileTree.children, List.mem_filter, mem_nodes_iff (by simp)]
      simp
    rw [← hmem]
    constructor
    · intro hname
      obtain ⟨p, hp, rfl⟩ := List.mem_map.mp hname
      rwa [← hform p hp]
    · intro hp
      exact List.mem_map.mpr ⟨_, hp, by simp⟩

/-- The paths in the directory of a root. -/
lemma entriesOf_eq {names : List String}
    (located : tree.locate true root = .ok ⟨place, some .directory⟩)
    (h : tree.children place = names.map fun name => place ++ [name]) :
    tree.entriesOf root = names.map (inside root) := by
  rw [FileTree.entriesOf, located]
  simp only [h, List.map_map]
  exact List.map_congr_left fun name _ => by simp [inside]

/-! ### Runs in a store -/

/-- A run with what its directory holds: the bytes of its manifest, and the bytes that
the journaled entries have replaced. -/
structure KeptRun where
  /-- The name of the run. -/
  id : String
  /-- The journaled entries. -/
  entries : List OutputEntry
  /-- The bytes of the manifest. -/
  bytes : Bytes
  /-- The manifest as it is read. -/
  manifest : Manifest
  /-- The name stands between slashes as it is. -/
  isName : Path.IsName id
  /-- The name can stand in a path. -/
  zero : id.toList.contains '\x00' = false
  /-- The manifest is what is read from the bytes. -/
  reads : ∃ text, Utf8.decode? bytes = some text ∧ manifestOf? id text = .ok (some manifest)
  /-- The manifest has the name of the run. -/
  named : manifest.id = id
  /-- The manifest has a record for each journaled entry. -/
  lists : manifest.entries = recordsFrom 0 entries

namespace KeptRun

/-- The run as a store lists it. -/
def run (root : Path) (r : KeptRun) : Run :=
  ⟨r.id, inside root r.id, r.manifest⟩

/-- The directory of a run lies in a place. -/
structure LiesIn (place : Place) (tree : FileTree) (r : KeptRun) : Prop where
  /-- The manifest. -/
  manifest : tree.contents? (place ++ [r.id] ++ [Manifest.fileName]) = some r.bytes
  /-- The kept bytes. -/
  backups : ∀ name contents, KeepsUnder 0 r.entries name contents →
    tree.contents? (place ++ [r.id] ++ [name]) = some contents

lemma LiesIn.directory {r : KeptRun} (h : r.LiesIn place tree) (sound : tree.Sound) :
    tree.node? (place ++ [r.id]) = some .directory := by
  have := sound.closed _ _ (contents?_eq_some_iff.mp h.manifest)
  rwa [List.dropLast_concat] at this

/-- The run is read from the bytes of its manifest. -/
lemma runIn_bytes (r : KeptRun) (root : Path) :
    runIn (inside root r.id) (some r.bytes) = .ok (some (r.run root)) := by
  obtain ⟨text, hdecode, hmanifest⟩ := r.reads
  have hname : (inside root r.id).name = r.id := by simp [inside, Path.name]
  simp only [runIn, hdecode, hname, hmanifest]
  rw [run, r.named.symm]
  rfl

end KeptRun

/-- A recording has added a run: its directory is new, and what has been written as its
manifest is read back. -/
structure KeptRun.Added (r : KeptRun) (root : Path) (manifest : Manifest) (place : Place)
    (tree after : FileTree) : Prop where
  /-- What has changed. -/
  recorded : Recorded root r.id r.entries manifest r.bytes place tree after
  /-- The manifest is read back. -/
  plain : r.manifest.IsPlainOf manifest
  /-- The manifest has a record for each journaled entry. -/
  records : manifest.entries = recordsFrom 0 r.entries
  /-- Everything lies in a directory. -/
  sound : after.Sound
  /-- All directories and links are as they were. -/
  keeps : Keeps tree after
  /-- Every name is one that a directory can hold. -/
  named : tree.Named → after.Named

/-- The directory of a run that has been added is there. -/
lemma KeptRun.Added.liesIn {r : KeptRun} {manifest : Manifest}
    (h : r.Added root manifest place tree after) : r.LiesIn place after where
  manifest := contents?_eq_some_iff.mpr
    ((h.recorded.holds [Manifest.fileName] _ (by simp)).mpr (.inl ⟨rfl, rfl⟩))
  backups := by
    rintro name contents ⟨i, entry, hentry, hbytes, rfl⟩
    refine contents?_eq_some_iff.mpr ((h.recorded.holds [_] _ (by simp)).mpr (.inr
      ⟨i, entry, recordOf i entry, _, contents, hentry, ?_, ?_, hbytes, rfl, rfl⟩))
    · simp [h.records, getElem?_recordsFrom, hentry]
    · rw [backup_recordOf, hbytes]
      exact ⟨rfl, by simp⟩

/-- What lies in the root of a store: some runs, and beside them manifests with a
certain property or none. -/
structure Holds (place : Place) (other : Manifest → Prop) (kept : List KeptRun)
    (tree : FileTree) : Prop where
  /-- No two runs have one name. -/
  distinct : (kept.map (·.id)).Nodup
  /-- The directories of the runs are there. -/
  lies : ∀ r ∈ kept, r.LiesIn place tree
  /-- The other manifests can be read, or they are none, and have the property. -/
  others : ∀ name contents text, name ∉ kept.map (·.id) →
    tree.contents? (place ++ [name] ++ [Manifest.fileName]) = some contents →
    Utf8.decode? contents = some text →
    ∃ found, manifestOf? name text = .ok found ∧ ∀ m, found = some m → other m
  /-- There are no links. -/
  unlinked : ∀ rest target, tree.node? (place ++ rest) ≠ some (.link target)

namespace Holds

variable {other : Manifest → Prop} {kept : List KeptRun}

/-- What is known of the other manifests can be weakened. -/
lemma mono {property : Manifest → Prop} (h : Holds place other kept tree)
    (weaker : ∀ m, other m → property m) : Holds place property kept tree where
  distinct := h.distinct
  lies := h.lies
  others name contents text hname hcontents hdecode := by
    obtain ⟨found, hfound, hother⟩ := h.others name contents text hname hcontents hdecode
    exact ⟨found, hfound, fun m hm => weaker m (hother m hm)⟩
  unlinked := h.unlinked

/-- What lies in the root stays the same when no contents change there and no link is
new. -/
lemma of_contents (h : Holds place other kept tree)
    (contents : ∀ rest, tree'.contents? (place ++ rest) = tree.contents? (place ++ rest))
    (links : ∀ p target, tree'.node? p = some (.link target) → tree.node? p = some (.link target)) :
    Holds place other kept tree' where
  distinct := h.distinct
  lies r hr := by
    obtain ⟨hmanifest, hbackups⟩ := h.lies r hr
    refine ⟨?_, fun name bytes hname => ?_⟩
    · rw [List.append_assoc, contents, ← List.append_assoc, hmanifest]
    · rw [List.append_assoc, contents, ← List.append_assoc, hbackups name bytes hname]
  others name bytes text hname hbytes := by
    rw [List.append_assoc, contents, ← List.append_assoc] at hbytes
    exact h.others name bytes text hname hbytes
  unlinked rest target htarget := h.unlinked rest target (links _ _ htarget)

/-- A recorded run is added to those that lie in the root. -/
lemma record {r : KeptRun} {manifest : Manifest} (h : Holds place other kept tree)
    (sound : tree.Sound) (added : r.Added root manifest place tree after) :
    Holds place other (kept ++ [r]) after := by
  have hnewest := added.liesIn
  obtain ⟨recorded, -, -, -, keeps, -⟩ := added
  have hsame : ∀ name file, name ≠ r.id →
      after.contents? (place ++ [name] ++ [file]) = tree.contents? (place ++ [name] ++ [file]) := by
    intro name file hname
    have hstarts : ¬ (place ++ [r.id]) <+: (place ++ [name] ++ [file]) := by
      rw [List.append_assoc, List.prefix_append_right_inj, List.singleton_append,
        List.cons_prefix_cons]
      exact fun heq => hname heq.1.symm
    rw [FileTree.contents?, FileTree.contents?]
    rcases recorded.others _ hstarts with heq | ⟨hnone, hdir, -⟩
    · rw [heq]
    · rw [hnone, hdir]
  have hnew : r.id ∉ kept.map (·.id) := by
    intro hmem
    obtain ⟨r', hr', heq⟩ := List.mem_map.mp hmem
    have hdir := (h.lies r' hr').directory sound
    rw [heq, recorded.fresh] at hdir
    cases hdir
  refine ⟨?_, fun r' hr' => ?_, fun name contents text hname hcontents => ?_,
    fun rest target htarget => h.unlinked rest target ((keeps.link _ _).mp htarget)⟩
  · rw [List.map_append]
    exact List.Nodup.append h.distinct (List.nodup_singleton _) (by simpa using hnew)
  · rcases List.mem_append.mp hr' with hr' | hr'
    · have hne : r'.id ≠ r.id := fun heq => hnew (heq ▸ List.mem_map_of_mem hr')
      obtain ⟨hmanifest, hbackups⟩ := h.lies r' hr'
      exact ⟨by rw [hsame _ _ hne, hmanifest],
        fun name contents hname => by rw [hsame _ _ hne, hbackups name contents hname]⟩
    · rw [List.mem_singleton.mp hr']
      exact hnewest
  · rw [List.map_append, List.mem_append, not_or] at hname
    rw [hsame _ _ (by simpa using hname.2)] at hcontents
    exact h.others name contents text hname.1 hcontents

/-- What is read from a name in the root. -/
lemma runAt? (h : Holds place other kept tree) (sound : tree.Sound) (named : tree.Named)
    (located : tree.locate true root = .ok ⟨place, some .directory⟩)
    (there : tree.node? (place ++ [name]) ≠ none) :
    (∃ r ∈ kept, r.id = name ∧ Scaffold.runAt? tree (inside root name) = .ok (some (r.run root))) ∨
      name ∉ kept.map (·.id) ∧ ∃ found, Scaffold.runAt? tree (inside root name) = .ok found ∧
        ∀ run, found = some run → other run.manifest := by
  have hentry : IsEntry name := named.node _ there name (by simp)
  rw [runAt?_child sound located hentry fun rest target => by
    rw [List.append_assoc]
    exact h.unlinked _ target]
  by_cases hkept : name ∈ kept.map (·.id)
  · obtain ⟨r, hr, rfl⟩ := List.mem_map.mp hkept
    refine .inl ⟨r, hr, rfl, ?_⟩
    rw [if_neg (by rw [r.zero]; simp), (h.lies r hr).manifest, r.runIn_bytes root]
  · refine .inr ⟨hkept, ?_⟩
    split
    · exact ⟨none, rfl, by simp⟩
    · cases hcontents : tree.contents? (place ++ [name] ++ [Manifest.fileName]) with
      | none => exact ⟨none, rfl, by simp⟩
      | some contents =>
        cases hdecode : Utf8.decode? contents with
        | none => exact ⟨none, by simp [runIn, hdecode], by simp⟩
        | some text =>
          obtain ⟨found, hfound, hother⟩ := h.others name contents text hkept hcontents hdecode
          have hname : (inside root name).name = name := by simp [inside, Path.name]
          refine ⟨_, by simp only [runIn, hdecode, hname, hfound]; rfl, ?_⟩
          rintro run hrun
          obtain ⟨m, rfl, rfl⟩ := Option.map_eq_some_iff.mp hrun
          exact hother m rfl

/-- The names in the root are those of the runs and others. -/
lemma perm_names (h : Holds place other kept tree) (sound : tree.Sound) {names : List String}
    (distinct : names.Nodup) (mem : ∀ name, name ∈ names ↔ tree.node? (place ++ [name]) ≠ none) :
    names.Perm (kept.map (·.id) ++ names.filter (· ∉ kept.map (·.id))) := by
  refine (List.perm_ext_iff_of_nodup distinct ?_).mpr fun name => ?_
  · refine List.Nodup.append h.distinct (distinct.filter _) fun name hkept hother => ?_
    simp only [List.mem_filter, decide_eq_true_eq] at hother
    exact hother.2 hkept
  · rw [List.mem_append, List.mem_filter, decide_eq_true_eq]
    constructor
    · intro hname
      by_cases hkept : name ∈ kept.map (·.id)
      · exact .inl hkept
      · exact .inr ⟨hname, hkept⟩
    · rintro (hkept | ⟨hname, -⟩)
      · obtain ⟨r, hr, rfl⟩ := List.mem_map.mp hkept
        exact (mem _).mpr (by simp [(h.lies r hr).directory sound])
      · exact hname

/-- From the names of the runs the runs are read. -/
lemma filterMap_runOf? (h : Holds place other kept tree) (sound : tree.Sound) (named : tree.Named)
    (located : tree.locate true root = .ok ⟨place, some .directory⟩) :
    (kept.map (·.id)).filterMap (fun name => runOf? tree (inside root name)) =
      kept.map (·.run root) := by
  rw [List.filterMap_map, ← List.filterMap_eq_map]
  refine List.filterMap_congr fun r hr => ?_
  have hthere : tree.node? (place ++ [r.id]) ≠ none := by
    simp [(h.lies r hr).directory sound]
  rcases h.runAt? sound named located hthere with ⟨r', hr', hid, hrun⟩ | ⟨hnot, -⟩
  · have hsame : r' = r := List.inj_on_of_nodup_map h.distinct hr' hr hid
    subst hsame
    simp [runOf?, hrun, Except.toOption]
  · exact absurd (List.mem_map_of_mem hr) hnot

/-- **Listing**: the store can be listed, and its list holds the runs and others that
have the property. -/
lemma exists_runs (h : Holds place other kept tree) (sound : tree.Sound) (named : tree.Named)
    (located : tree.locate true root = .ok ⟨place, some .directory⟩)
    (enabled : store.root? = some root) :
    ∃ runs others, store.runs tree = .ok runs ∧ runs.Perm (kept.map (·.run root) ++ others) ∧
      ∀ run ∈ others, other run.manifest := by
  obtain ⟨names, hchildren, hnodup, hmem⟩ := exists_children sound place
  have hentries := entriesOf_eq located hchildren
  have hread := fun name (hname : name ∈ names) =>
    h.runAt? sound named located ((hmem name).mp hname)
  have hall : ∀ path ∈ tree.entriesOf root, ∃ found, Scaffold.runAt? tree path = .ok found := by
    intro path hpath
    rw [hentries] at hpath
    obtain ⟨name, hname, rfl⟩ := List.mem_map.mp hpath
    rcases hread name hname with ⟨r, -, -, hrun⟩ | ⟨-, found, hfound, -⟩
    · exact ⟨_, hrun⟩
    · exact ⟨found, hfound⟩
  refine ⟨_,
    (names.filter (· ∉ kept.map (·.id))).filterMap (fun name => runOf? tree (inside root name)),
    (runs_eq_ok_iff enabled).mpr (.inr ⟨isDirectory_eq_true_iff.mpr ⟨place, located⟩, hall, rfl⟩),
    ?_, fun run hrun => ?_⟩
  · refine (sortBy_perm _).trans ?_
    rw [hentries, List.filterMap_map, ← h.filterMap_runOf? sound named located,
      ← List.filterMap_append]
    exact (h.perm_names sound hnodup hmem).filterMap _
  · obtain ⟨name, hname, hrun⟩ := List.mem_filterMap.mp hrun
    simp only [List.mem_filter, decide_eq_true_eq] at hname
    rcases hread name hname.1 with ⟨r, hr, hid, -⟩ | ⟨-, found, hfound, hother⟩
    · exact absurd (hid ▸ List.mem_map_of_mem hr) hname.2
    · refine hother run ?_
      rw [runOf?, hfound] at hrun
      cases found with
      | none => cases hrun
      | some run' => exact hrun

end Holds

/-! ### Recordings that succeed -/

section Record

variable {journal journal' : Journal} {s : Surroundings} {context : List (Document × Document)}
  {b : Blueprint} {relative : String} {output : Output} {id : String}

/-- A recording that comes to its end has carried out all of its steps. -/
lemma run_eq_ok {recording : Recording} (h : (recording.run tree).1 = .ok id) :
    tree.performAll recording.steps = (none, (recording.run tree).2) ∧
      recording.refusal = none ∧ recording.id = id := by
  rw [Recording.run] at h ⊢
  cases hperform : tree.performAll recording.steps with
  | mk fault left =>
    cases fault with
    | some fault => simp [hperform] at h
    | none =>
      cases hrefusal : recording.refusal with
      | some refusal => simp [hperform, hrefusal] at h
      | none => simpa [hperform, hrefusal] using h

/-- Only a recording with a manifest is not given up. -/
lemma recordingOf_of_carried {sequence : Number.Binary64} {entries : List OutputEntry}
    (h : (recordingOf root s sequence context b relative entries).refusal = none) :
    ∃ known bytes, RunContext.ofEntries context = .ok known ∧
      (manifestFor s sequence known b relative entries).fileBytes = .ok bytes ∧
      recordingOf root s sequence context b relative entries =
        ⟨runName s b, root.child (runName s b),
          .ensureDirectory root :: .makeDirectory (root.child (runName s b)) ::
            (backupSteps (root.child (runName s b)) s.token 0 entries ++
              atomicSteps ((root.child (runName s b)).child Manifest.fileName)
                (temporaryPath ((root.child (runName s b)).child Manifest.fileName) "manifest"
                  s.token) [bytes]), none⟩ := by
  rw [recordingOf] at h ⊢
  cases hcontext : RunContext.ofEntries context with
  | error fault => simp [hcontext] at h
  | ok known =>
    cases hbytes : (manifestFor s sequence known b relative entries).fileBytes with
    | error fault => simp [hcontext, hbytes] at h
    | ok bytes => exact ⟨known, bytes, rfl, hbytes, by simp [hbytes]⟩

/-- The first step that is carried out, and the others. -/
lemma performAll_cons_eq_none {step : Step} {steps : List Step}
    (h : tree.performAll (step :: steps) = (none, after)) :
    ∃ next, tree.perform step = (none, next) ∧ next.performAll steps = (none, after) := by
  rw [FileTree.performAll] at h
  cases hstep : tree.perform step with
  | mk fault next =>
    cases fault with
    | none => exact ⟨next, rfl, by simpa [hstep] using h⟩
    | some fault => simp [hstep] at h

/-- The run of a manifest that is in its file. -/
lemma exists_keptRun {known : RunContext} {sequence : Number.Binary64} {bytes : Bytes}
    {entries : List OutputEntry} (hcontext : RunContext.ofEntries context = .ok known)
    (hbytes : (manifestFor s sequence known b relative entries).fileBytes = .ok bytes)
    (unique : '/' ∉ s.unique.toList) (zero : (runName s b).toList.contains '\x00' = false) :
    ∃ r : KeptRun, r.id = runName s b ∧ r.entries = entries ∧ r.bytes = bytes ∧
      r.manifest.IsPlainOf (manifestFor s sequence known b relative entries) := by
  obtain ⟨hoptions, hfilters⟩ := RunContext.nodup_of_ofEntries hcontext
  obtain ⟨text, read, hdecode, hmanifest, hplain⟩ :=
    manifestOf?_of_fileBytes hbytes hoptions hfilters (runName s b)
  exact ⟨⟨runName s b, entries, bytes, read, runName_isName unique b, zero,
    ⟨text, hdecode, hmanifest⟩, hplain.id, hplain.entries⟩, rfl, rfl, rfl, hplain⟩

/-- What a recording has done when it comes to its end. -/
lemma exists_kept_of_run {sequence : Number.Binary64} {entries : List OutputEntry}
    (sound : tree.Sound) (written : root.IsWritten) (unique : '/' ∉ s.unique.toList)
    (h : (recordingOf root s sequence context b relative entries).run tree = (.ok id, after)) :
    ∃ (r : KeptRun) (known : RunContext) (place : Place), id = r.id ∧ r.id = runName s b ∧
      r.entries = entries ∧ RunContext.ofEntries context = .ok known ∧
      r.Added root (manifestFor s sequence known b relative entries) place tree after := by
  obtain ⟨hperform, hrefusal, hid⟩ := run_eq_ok (by rw [h])
  obtain ⟨known, bytes, hcontext, hbytes, hrecording⟩ := recordingOf_of_carried hrefusal
  rw [h] at hperform
  have hnamed := fun named : tree.Named => named.performAll
    (recordingOf root s sequence context b relative entries).steps
  rw [hperform] at hnamed
  rw [hrecording] at hperform hid
  simp only at hperform hid hnamed
  -- the root, the directory in it, and what fills the directory
  obtain ⟨grown, hroot, hperform⟩ := performAll_cons_eq_none hperform
  obtain ⟨started, hdirectory, hfill⟩ := performAll_cons_eq_none hperform
  have hmade : tree.makeDirectories root = (none, grown) := hroot
  have hmade' : (tree.makeDirectories root).2 = grown := by rw [hmade]
  have hgrown : Grown tree grown := hmade' ▸ makeDirectories_grown root tree
  have hsound : grown.Sound := hmade' ▸ (makeDirectories_made root tree).sound sound
  obtain ⟨place, hplace⟩ : ∃ place, grown.locate true root = .ok ⟨place, some .directory⟩ :=
    hmade' ▸ makeDirectories_reached (by rw [hmade])
  have hmkdir : grown.makeDirectory (root.child (runName s b)) = .ok started := by
    rw [FileTree.perform] at hdirectory
    obtain ⟨changed, hok, hsettle⟩ | ⟨fault, hsettle⟩ :=
      settle_cases grown (grown.makeDirectory (root.child (runName s b)))
    · rw [hsettle, Prod.mk.injEq] at hdirectory
      rw [hok, hdirectory.2]
    · rw [hsettle, Prod.mk.injEq] at hdirectory
      cases hdirectory.1
  have hstarted := started_of_makeDirectory hsound (runName_isName unique b) (runName_ne_up s b)
    hplace hmkdir
  obtain ⟨hwithin, hdone⟩ := performAll_filling (hstarted.located true) hstarted.unlinked s.token
    entries bytes
  rw [hfill] at hwithin hdone
  obtain ⟨filled, hkept, hmanifest⟩ := hdone rfl
  have hzero : (runName s b).toList.contains '\x00' = false := by
    have hholds := (locate_eq_ok_iff.mp (hstarted.located true)).1
    rw [Path.child_name (runName_isName unique b), Path.holdsZero, List.any_append,
      Bool.or_eq_false_iff] at hholds
    simpa using hholds.2
  obtain ⟨r, hr, hentries, hrbytes, hplain⟩ := exists_keptRun hcontext hbytes unique hzero
  have hset : Grown grown started := by
    rw [hstarted.set]
    exact grown_set_directory hstarted.fresh
  refine ⟨r, known, place, hid.symm.trans hr.symm, hr, hentries, hcontext, ?_, hplain,
    by rw [hentries]; rfl, hwithin.sound hstarted.sound,
    hgrown.keeps.trans (hset.keeps.trans hwithin.keeps), hnamed⟩
  rw [hr, hentries, hrbytes]
  exact recorded_of_filled sound written (hmade'.symm ▸ hstarted) hkept hmanifest hwithin rfl

/-- **What a recording has done** when it succeeds. -/
lemma exists_kept_of_record (enabled : journal.store.root? = some root) (sound : tree.Sound)
    (unique : '/' ∉ s.unique.toList)
    (h : journal.record s context b relative output tree = (.ok id, journal', after)) :
    ∃ (r : KeptRun) (known : RunContext) (place : Place), id = r.id ∧ r.id = runName s b ∧
      r.entries = output.journaled ∧ RunContext.ofEntries context = .ok known ∧
      journal' = { journal with last := Journal.nextSequence journal.last s.clock } ∧
      r.Added root (manifestFor s (Journal.nextSequence journal.last s.clock) known b relative
        output.journaled) place tree after := by
  have changed : output.journaled ≠ [] := by
    intro hnil
    rw [Journal.record, enabled, hnil] at h
    cases h
  rw [record_eq enabled changed, Prod.mk.injEq, Prod.mk.injEq] at h
  obtain ⟨hid, rfl, hafter⟩ := h
  obtain ⟨r, known, place, hid, hname, hentries, hknown, added⟩ := exists_kept_of_run sound
    (root?_isWritten enabled) unique (Prod.ext hid hafter)
  exact ⟨r, known, place, hid, hname, hentries, hknown, rfl, added⟩

end Record

end Scaffold
