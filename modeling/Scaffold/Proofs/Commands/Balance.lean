import Scaffold.Proofs.Commands.Accounts
import Scaffold.Proofs.Commands.Equipment
import Scaffold.Proofs.History.Keeping
import Scaffold.Proofs.Validation.Acceptance

/-!
The accounts of an invocation and its changes balance.

While blueprints are looked at one after another, whatever becomes of them, contents change
only where journaled entries lead and in the directories of new runs, and a run that has
been recorded stands for the journaled entries of its blueprint.

* `Circumstances.Marks`: the names that an invocation gives to its runs.
* `Outset`: where an invocation starts.
* `accounted_of_record`: one recording, whether or not it succeeds.
* `Becomes.accounted`, `Proceeds.accounted`: one blueprint, and all of them.
* `Balanced`, `Proceeds.balanced`: what this says about files and manifests.
-/

namespace Scaffold

open Files FileTree Production

variable {given : Circumstances} {bench : Workbench} {registry : Generators} {request : Request}
  {journal journal' : Journal} {b : Blueprint} {label : String} {count n n' number : Nat}
  {base tree middle after : FileTree} {root : Path} {place : Place}

/-! ### Names of runs -/

/-- The unique part of a run, one of so many, is at the end of a name. -/
def Circumstances.Marks (given : Circumstances) (count n : Nat) (name : String) : Prop :=
  n < count ∧ (given.surroundings n).unique.toList <:+ name.toList

lemma marks_runName (given : Circumstances) (within : n < count) (b : Blueprint) :
    given.Marks count n (runName (given.surroundings n) b) := by
  refine ⟨within, ?_⟩
  rw [runName, String.toList_append]
  exact List.suffix_append _ _

/-- The path of the snapshot of a blueprint. -/
def Workbench.snapshotFile (bench : Workbench) (b : Blueprint) : Path :=
  bench.configuration.locations.output.child (Writer.relativeText (snapshotPath b))

/-- Where an invocation starts that is about so many blueprints: the file tree holds no links,
the snapshots lie outside the root of the store, and the names of the runs are new. -/
structure Outset (given : Circumstances) (bench : Workbench) (blueprints : Blueprint → Prop)
    (count : Nat) (place : Place) (base : FileTree) : Prop where
  /-- Everything lies in a directory. -/
  sound : base.Sound
  /-- No node is a link. -/
  noLinks : base.NoLinks
  /-- The root of the store is resolved to the place, if it can be resolved. -/
  home : ∀ root, bench.store.root? = some root → ∀ other, base.resolve root = .ok other →
    other = place
  /-- No snapshot is resolved to a place in the store. -/
  apart : ∀ b, blueprints b → ∀ p, base.resolve (bench.snapshotFile b) = .ok p → ¬ place <+: p
  /-- The unique parts of the names stand between slashes as they are. -/
  unique : ∀ n < count, '/' ∉ (given.surroundings n).unique.toList
  /-- None of them ends another one. -/
  distinct : ∀ n, ∀ n' < count, given.Marks count n (given.surroundings n').unique → n = n'
  /-- None of them ends a name in the root of the store. -/
  vacant : ∀ n name, given.Marks count n name → base.node? (place ++ [name]) = none
  /-- None of them ends a name of the working directory. -/
  workplace : ∀ n, ∀ name ∈ base.workplace, ¬ given.Marks count n name
  /-- None of them ends a name in the path of the store. -/
  root : ∀ root, bench.store.root? = some root → ∀ n, ∀ name ∈ root.names,
    ¬ given.Marks count n name
  /-- None of them ends a name in the path of a snapshot. -/
  snapshots : ∀ b, blueprints b → ∀ n, ∀ name ∈ (bench.snapshotFile b).names,
    ¬ given.Marks count n name

namespace Outset

variable {blueprints : Blueprint → Prop} (outset : Outset given bench blueprints count place base)
include outset

/-- A name is given to one run only. -/
lemma eq_of_marks {name : String} (h : given.Marks count n name)
    (h' : given.Marks count n' name) : n = n' :=
  (List.suffix_or_suffix_of_suffix h.2 h'.2).elim
    (fun hsuffix => outset.distinct n n' h'.1 ⟨h.1, hsuffix⟩)
    fun hsuffix => (outset.distinct n' n h.1 ⟨h'.1, hsuffix⟩).symm

/-- No node is a link later either. -/
lemma noLinks_of_keeps (keeps : Keeps base tree) : tree.NoLinks :=
  fun p target hlink => outset.noLinks p target ((keeps.link p target).mp hlink)

/-- No name of a run is in the working directory later either. -/
lemma not_mem_workplace (keeps : Keeps base tree) {name : String} (mark : given.Marks count n name) :
    name ∉ tree.workplace :=
  fun hmem => outset.workplace n name (keeps.workplace ▸ hmem) mark

end Outset

/-! ### Recordings -/

/-- What is known about an execution has its name. -/
lemma executionId_of_context {execution : String} {warnings : List String} {known : RunContext}
    (h : RunContext.ofEntries (request.context execution warnings) = .ok known) :
    known.executionId = some execution :=
  RunContext.executionId_of_ofEntries h rfl

/-- A recording leaves the store of a journal as it is. -/
lemma store_of_record {s : Surroundings} {context : List (Document × Document)} {output : Output}
    {kept : Except RecordFault String}
    (h : journal.record s context b label output tree = (kept, journal', after)) :
    journal'.store = journal.store := by
  rw [Journal.record] at h
  split at h <;> cases h <;> rfl

/-- **One recording**: it changes no contents, or a run has been added to the store. -/
lemma accounted_of_record {s : Surroundings} {output : Output}
    {context : List (Document × Document)} {kept : Except RecordFault String}
    (enabled : ∀ other, journal.store.root? = some other → other = root) (sound : tree.Sound)
    (unique : '/' ∉ s.unique.toList) (keeps : Keeps base tree)
    (home : ∀ root, journal.store.root? = some root → ∀ other, base.resolve root = .ok other →
      other = place)
    (fresh : ∀ root, journal.store.root? = some root → IsNewRun root (runName s b) tree)
    (h : journal.record s context b label output tree = (kept, journal', after)) :
    ∃ runs, Accounted root place [] runs tree after ∧ kept.toOption.toList = runs.map (·.id) ∧
      ∀ r ∈ runs, r.id = runName s b ∧ r.entries = output.journaled ∧
        ∃ known, RunContext.ofEntries context = .ok known ∧
          r.manifest.executionId = known.executionId := by
  have hquiet : Accounted root place [] [] tree tree :=
    (Reported.refl sound).accounted root place
  cases hroot : journal.store.root? with
  | none =>
    rw [Journal.record, hroot] at h
    cases h
    exact ⟨[], hquiet, rfl, by simp⟩
  | some other =>
    obtain rfl := enabled other hroot
    by_cases hnil : output.journaled = []
    · rw [Journal.record, hroot, hnil] at h
      cases h
      exact ⟨[], hquiet, rfl, by simp⟩
    · cases kept with
      | error fault =>
        obtain ⟨halike, hsound⟩ := left_of_record hroot hnil sound unique (fresh _ hroot) h
        exact ⟨[], accounted_of_error place halike hsound, rfl, by simp⟩
      | ok id =>
        obtain ⟨r, known, here, rfl, hname, hentries, hknown, -, added⟩ :=
          exists_kept_of_record hroot sound unique h
        exact ⟨[r], accounted_of_added keeps (home _ hroot) added, rfl, by
          simpa using ⟨hname, hentries, known, hknown, added.plain.executionId⟩⟩

namespace Production

/-- The run that has been recorded, and the entries for which it stands. -/
def Account.run? (account : Account) : Option (String × List OutputEntry) :=
  account.fate.run?.map fun id => (id, account.fate.output.journaled)

variable {gs : List Generator} {blueprints : Blueprint → Prop}
  {result : Except BlueprintFault Blueprint} {fate : Fate} {path : String} {shown : List Emission}
  {outcomes : List (String × Except BlueprintFault Blueprint)} {accounts : List Account}

lemma Becomes.store
    (h : Becomes given bench registry request number label journal tree result fate journal'
      after) :
    journal'.store = journal.store := by
  cases h with
  | recorded _ _ _ _ record => exact store_of_record record
  | _ => rfl

lemma snapshotPath_applied (request : Request) (b : Blueprint) :
    snapshotPath (applied request b) = snapshotPath b := by
  rw [applied]
  cases request.architecture.filter fun name => !name.isEmpty <;> rfl

/-- Entries are about snapshots of blueprints. -/
def AreSnapshots (bench : Workbench) (blueprints : Blueprint → Prop) (entries : List OutputEntry) :
    Prop :=
  ∀ entry ∈ entries, ∃ b, blueprints b ∧ Path.ofText entry.fullPath = bench.snapshotFile b

section

variable (outset : Outset given bench blueprints count place base)
  (written : bench.configuration.locations.output.IsWritten)
  (all : ∀ g ∈ gs, g = Generator.snapshot)
  (enabled : ∀ other, bench.store.root? = some other → other = root)

include written all in
/-- The output of a blueprint is its snapshot, and its entries account for it. -/
lemma accounted_of_generate {output : Output} {options : Named} (sound : tree.Sound)
    (mem : blueprints b)
    (h : Pipeline.generate bench.architectures bench.configuration.locations.output (.ofList gs)
      request.selection request.mode options (applied request b) tree = (.ok output, after))
    (root : Path) (place : Place) :
    AreSnapshots bench blueprints output.entries ∧
      Accounted root place output.entries [] tree after := by
  obtain ⟨hreported, hpaths⟩ := Pipeline.reported_of_generate sound written h
  refine ⟨fun entry hentry => ⟨b, mem, ?_⟩, hreported.accounted root place⟩
  obtain ⟨file, hfile, hpath⟩ := hpaths entry hentry
  rw [hpath, Writer.targetOf, Path.ofText_toText (written.child _),
    Pipeline.path_of_isGenerated all hfile, snapshotPath_applied, Workbench.snapshotFile]

include outset in
/-- The name of a run that is still vacant stays so while others are accounted for. -/
lemma vacant_of_accounted {name : String} {entries : List OutputEntry} {runs : List KeptRun}
    (accounted : Accounted root place entries runs tree middle) (keeps : Keeps base tree)
    (snapshots : AreSnapshots bench blueprints entries) (mark : given.Marks count n name)
    (names : ∀ other ∈ root.names, ¬ given.Marks count n other)
    (other : name ∉ runs.map (·.id)) (vacant : tree.node? (place ++ [name]) = none) :
    middle.node? (place ++ [name]) = none := by
  refine accounted.vacant (outset.noLinks_of_keeps keeps) name
    (outset.not_mem_workplace keeps mark) (fun hmem => names name hmem mark)
    (fun entry hentry hmem => ?_) other vacant
  obtain ⟨b, hb, hpath⟩ := snapshots entry hentry
  exact outset.snapshots b hb n name (hpath ▸ hmem) mark

include outset written all enabled in
/-- **One blueprint** is accounted for. -/
lemma Becomes.accounted
    (h : Becomes given bench (.ofList gs) request number label journal tree result fate journal'
      after)
    (store : journal.store = bench.store) (within : number < count) (keeps : Keeps base tree)
    (sound : tree.Sound) (names : ∀ n, ∀ name ∈ root.names, ¬ given.Marks count n name)
    (vacant : ∀ name, given.Marks count number name → tree.node? (place ++ [name]) = none)
    (mem : ∀ b, result = .ok b → blueprints b) (path : String) (shown : List Emission) :
    AreSnapshots bench blueprints fate.output.entries ∧
      ∃ runs, Accounted root place fate.output.entries runs tree after ∧
        (Account.run? ⟨path, fate, shown⟩).toList = runs.map (fun r => (r.id, r.entries)) ∧
        ∀ r ∈ runs, given.Marks count number r.id ∧
          r.manifest.executionId = some given.executionId := by
  have hnone : AreSnapshots bench blueprints Output.empty.entries := fun _ h => by cases h
  have hquiet : Accounted root place [] [] tree tree :=
    (Reported.refl sound).accounted root place
  cases h with
  | unreadable => exact ⟨hnone, [], hquiet, rfl, by simp⟩
  | rejected => exact ⟨hnone, [], hquiet, rfl, by simp⟩
  | unknown _ _ refused =>
    obtain ⟨-, rfl⟩ := Pipeline.generate_eq_refused refused
    exact ⟨hnone, [], hquiet, rfl, by simp⟩
  | previewed _ _ generated _ =>
    obtain ⟨hsnapshots, haccounted⟩ := accounted_of_generate written all sound (mem _ rfl) generated
      root place
    exact ⟨hsnapshots, [], haccounted, rfl, by simp⟩
  | @recorded _ _ middle _ b _ output kept _ _ generated _ record =>
    obtain ⟨hsnapshots, haccounted⟩ := accounted_of_generate written all sound (mem _ rfl) generated
      root place
    have hfresh : ∀ other, journal.store.root? = some other →
        IsNewRun other (runName (given.surroundings number) (applied request b)) middle := by
      intro other hother
      rw [store] at hother
      have hmark := marks_runName given within (applied request b)
      have hkeeps := keeps.trans haccounted.keeps
      exact isNewRun_of_vacant (outset.noLinks_of_keeps hkeeps) hkeeps (outset.home other hother)
        (runName_isName (outset.unique number within) _) (runName_ne_up _ _)
        (outset.not_mem_workplace hkeeps hmark)
        (fun hmem => outset.root other hother number _ hmem hmark)
        (vacant_of_accounted outset haccounted keeps hsnapshots hmark (names number) (by simp)
          (vacant _ hmark))
    obtain ⟨runs, hrecorded, hkept, hruns⟩ := accounted_of_record (store ▸ enabled)
      haccounted.sound (outset.unique number within) (keeps.trans haccounted.keeps)
      (store ▸ outset.home) hfresh record
    refine ⟨hsnapshots, runs, ?_, ?_, fun r hr => ?_⟩
    · have hboth := haccounted.trans hrecorded (by simp)
      rwa [List.append_nil] at hboth
    · have hrun : Account.run? ⟨path, .generated output (some kept), shown⟩ =
          kept.toOption.map fun id => (id, output.journaled) := by
        cases kept <;> rfl
      rw [hrun, Option.toList_map, hkept, List.map_map]
      exact List.map_congr_left fun r hr => by simp [(hruns r hr).2.1]
    · obtain ⟨hname, -, known, hknown, hexecution⟩ := hruns r hr
      exact ⟨hname ▸ marks_runName given within _,
        hexecution.trans (executionId_of_context hknown)⟩

include outset written all enabled in
/-- **All blueprints** are accounted for. -/
lemma Proceeds.accounted
    (h : Proceeds given bench (.ofList gs) request number journal tree outcomes accounts after)
    (store : journal.store = bench.store) (within : number + outcomes.length ≤ count)
    (keeps : Keeps base tree) (sound : tree.Sound)
    (names : ∀ n, ∀ name ∈ root.names, ¬ given.Marks count n name)
    (vacant : ∀ n, number ≤ n → ∀ name, given.Marks count n name →
      tree.node? (place ++ [name]) = none)
    (mem : ∀ path b, (path, .ok b) ∈ outcomes → blueprints b) :
    AreSnapshots bench blueprints (accounts.flatMap (·.fate.output.entries)) ∧
      ∃ runs, Accounted root place (accounts.flatMap (·.fate.output.entries)) runs tree after ∧
        accounts.filterMap Account.run? = runs.map (fun r => (r.id, r.entries)) ∧
        ∀ r ∈ runs, r.manifest.executionId = some given.executionId := by
  induction h with
  | done =>
    exact ⟨by simp [AreSnapshots], [], (Reported.refl sound).accounted root place, rfl, by simp⟩
  | @next number journal journal' tree middle after path label outcome fate shown outcomes accounts
      becomes told rest ih =>
    obtain ⟨hsnapshots, runs, hfirst, hrun, hruns⟩ :=
      becomes.accounted outset written all enabled store (by simp at within; omega) keeps sound
        names (vacant number le_rfl) (fun b hb => mem path b (by simp [hb])) path shown
    -- the names of later runs are still not used
    have hvacant : ∀ n, number + 1 ≤ n → ∀ name, given.Marks count n name →
        middle.node? (place ++ [name]) = none := by
      intro n hn name hmark
      refine vacant_of_accounted outset hfirst keeps hsnapshots hmark (names n) (fun hmem => ?_)
        (vacant n (by omega) name hmark)
      obtain ⟨r, hr, rfl⟩ := List.mem_map.mp hmem
      have := outset.eq_of_marks hmark (hruns r hr).1
      omega
    obtain ⟨hsnapshots', others, hrest, hrun', hothers⟩ :=
      ih (becomes.store.trans store) (by simp at within; omega) (keeps.trans hfirst.keeps)
        hfirst.sound hvacant fun path b hb => mem path b (by simp [hb])
    refine ⟨fun entry hentry => ?_, runs ++ others, ?_, ?_, fun r hr => ?_⟩
    · rw [List.flatMap_cons, List.mem_append] at hentry
      exact hentry.elim (hsnapshots entry) (hsnapshots' entry)
    · refine hfirst.trans hrest fun entry hentry _ goal node hlocate => ?_
      obtain ⟨b, hb, hpath⟩ := hsnapshots' entry hentry
      rw [hpath] at hlocate
      exact outset.apart b hb goal (Writer.resolve_of_later
        ((keeps.trans hfirst.keeps).trans hrest.keeps) hlocate)
    · rw [List.map_append, ← hrun, ← hrun', List.filterMap_cons]
      cases Account.run? ⟨path, fate, shown⟩ <;> rfl
    · exact (List.mem_append.mp hr).elim (fun hr => (hruns r hr).2) (hothers r)

end

/-! ### Previews, and what is not recorded -/

/-- A preview changes nothing. -/
lemma Becomes.preview (dry : request.mode.dryRun = true)
    (h : Becomes given bench registry request number label journal tree result fate journal'
      after) :
    after = tree := by
  cases h with
  | unreadable => rfl
  | rejected => rfl
  | unknown _ _ refused => exact (Pipeline.generate_eq_refused refused).2
  | @previewed _ _ b _ output _ _ generated _ =>
    have hquiet := Pipeline.generate_preview bench.architectures
      bench.configuration.locations.output registry request.selection dry [] (applied request b)
      tree
    rwa [generated] at hquiet
  | recorded _ _ _ live _ => simp [dry] at live

/-- A preview of all blueprints changes nothing. -/
lemma Proceeds.preview (dry : request.mode.dryRun = true)
    (h : Proceeds given bench registry request number journal tree outcomes accounts after) :
    after = tree := by
  induction h with
  | done => rfl
  | next becomes _ _ ih => exact ih.trans (becomes.preview dry)

/-- An architecture that is not found has been an error before. -/
lemma Becomes.known (ne : bench.architectures.available ≠ [])
    (h : Becomes given bench registry request number label journal tree result fate journal' after)
    (fault : UnknownArchitecture) : fate ≠ .unknown fault := by
  rintro rfl
  cases h with
  | unknown checked valid refused =>
    have hmem := architecture_of_isValid ne checked valid
    obtain ⟨hresolve, -⟩ := Pipeline.generate_eq_refused refused
    rw [Architectures.resolve] at hresolve
    split at hresolve
    · cases hresolve
    · next hlookup =>
      obtain ⟨entry, hentry, heq⟩ := List.mem_map.mp hmem
      have hne := List.lookup_eq_none_iff.mp hlookup entry hentry
      simp [heq] at hne

/-- No architecture is not found. -/
lemma Proceeds.known (ne : bench.architectures.available ≠ [])
    (h : Proceeds given bench registry request number journal tree outcomes accounts after)
    (fault : UnknownArchitecture) : ∀ account ∈ accounts, account.fate ≠ .unknown fault := by
  induction h with
  | done => simp
  | next becomes _ _ ih => simpa using ⟨becomes.known ne fault, ih⟩

/-- An account says that a run has been recorded for the journaled entries, or that none
could be. -/
def Account.IsSettled (store : HistoryStore) (account : Account) : Prop :=
  account.fate.output.journaled ≠ [] → account.run?.isSome = true ∨ store.root? = none ∨
    ∃ fault, notRecorded fault ∈ account.shown

/-- Every account of an invocation that is no preview is settled. -/
lemma Proceeds.settled (live : request.mode.dryRun = false)
    (h : Proceeds given bench registry request number journal tree outcomes accounts after) :
    ∀ account ∈ accounts, account.IsSettled journal.store := by
  induction h with
  | done => simp
  | @next number journal journal' tree middle after path label outcome fate shown outcomes accounts
      becomes told rest ih =>
    rw [becomes.store] at ih
    rw [List.forall_mem_cons]
    refine ⟨fun journaled => ?_, ih⟩
    cases becomes with
    | previewed _ _ _ dry => simp [live] at dry
    | @recorded _ _ _ _ _ _ output kept =>
      cases kept with
      | ok id => exact .inl rfl
      | error fault =>
        by_cases henabled : journal.store.isEnabled = true
        · exact .inr (.inr ⟨fault, told output fault rfl henabled journaled⟩)
        · exact .inr (.inl (by simp [HistoryStore.root?, henabled]))
    | _ => exact absurd rfl journaled

end Production

/-! ### What the accounts say about files -/

/-- The manifest under a name in a place, if there is one that can be read. -/
def manifestIn? (tree : FileTree) (place : Place) (name : String) : Option Manifest :=
  ((tree.contents? (place ++ [name] ++ [Manifest.fileName])).bind Utf8.decode?).bind fun text =>
    (manifestOf? name text).toOption.join

/-- Accounts balance with the difference of two trees, where the root of the store lies at a
place. -/
structure Balanced (execution : String) (store : HistoryStore) (place : Place)
    (accounts : List Account) (tree after : FileTree) : Prop where
  /-- A file outside the store that has changed is one to which the full path of a journaled
  entry leads. -/
  contents : ∀ p, ¬ place <+: p → after.contents? p ≠ tree.contents? p →
    ∃ account ∈ accounts, ∃ entry ∈ account.fate.output.journaled, ∃ node,
      after.locate true (.ofText entry.fullPath) = .ok ⟨p, node⟩
  /-- The journaled entries of a blueprint have been recorded, or no runs are kept, or it is
  shown that they could not be recorded. -/
  settled : ∀ account ∈ accounts, account.IsSettled store
  /-- No two runs have one name. -/
  distinct : ((accounts.filterMap Account.run?).map (·.1)).Nodup
  /-- A run that has been recorded has a manifest of the execution with its entries. -/
  manifest : ∀ run ∈ accounts.filterMap Account.run?, ∃ m, manifestIn? after place run.1 = some m ∧
    m.executionId = some execution ∧ m.entries = recordsFrom 0 run.2
  /-- There are no other manifests of the execution. -/
  only : ∀ name m, manifestIn? after place name = some m → m.executionId = some execution →
    name ∈ (accounts.filterMap Account.run?).map (·.1)

namespace Production

variable {gs : List Generator} {blueprints : Blueprint → Prop}
  {outcomes : List (String × Except BlueprintFault Blueprint)} {accounts : List Account}

/-- **The accounts balance** with what has changed. -/
lemma Proceeds.balanced (outset : Outset given bench blueprints count place tree)
    (written : bench.configuration.locations.output.IsWritten)
    (all : ∀ g ∈ gs, g = Generator.snapshot)
    (h : Proceeds given bench (.ofList gs) request number journal tree outcomes accounts after)
    (live : request.mode.dryRun = false) (store : journal.store = bench.store)
    (within : number + outcomes.length ≤ count)
    (mem : ∀ path b, (path, .ok b) ∈ outcomes → blueprints b)
    (new : ∀ name m, manifestIn? tree place name = some m →
      m.executionId ≠ some given.executionId) :
    Balanced given.executionId bench.store place accounts tree after := by
  obtain ⟨root, henabled, hnames⟩ : ∃ root, (∀ other, bench.store.root? = some other →
      other = root) ∧ ∀ n, ∀ name ∈ root.names, ¬ given.Marks count n name := by
    cases hroot : bench.store.root? with
    | none => exact ⟨⟨"", []⟩, by simp, by simp⟩
    | some root => exact ⟨root, by simp, outset.root root hroot⟩
  obtain ⟨hsnapshots, runs, haccounted, hrun, hexecution⟩ := h.accounted outset written all
    henabled store within (.refl tree) outset.sound hnames (fun n _ => outset.vacant n) mem
  have hids : (accounts.filterMap Account.run?).map (·.1) = runs.map (·.id) := by
    rw [hrun, List.map_map]
    rfl
  -- no journaled entry leads into the store
  have hapart : ∀ entry ∈ accounts.flatMap (·.fate.output.entries), ∀ p node,
      after.locate true (.ofText entry.fullPath) = .ok ⟨p, node⟩ → ¬ place <+: p := by
    intro entry hentry p node hlocate
    obtain ⟨b, hb, hpath⟩ := hsnapshots entry hentry
    exact outset.apart b hb p (Writer.resolve_of_later haccounted.keeps (hpath ▸ hlocate))
  refine ⟨fun p hp hchange => ?_, store ▸ h.settled live, hids ▸ haccounted.distinct,
    fun run hmem => ?_, fun name m hm hid => ?_⟩
  · rcases haccounted.contents p hchange with ⟨entry, hentry, hjournaled, hlocate⟩ | ⟨r, -, hprefix⟩
    · obtain ⟨account, haccount, hentry⟩ := List.mem_flatMap.mp hentry
      exact ⟨account, haccount, entry, List.mem_filter.mpr ⟨hentry, hjournaled⟩, hlocate⟩
    · exact absurd ((List.prefix_append _ _).trans hprefix) hp
  · rw [hrun] at hmem
    obtain ⟨r, hr, rfl⟩ := List.mem_map.mp hmem
    obtain ⟨text, hdecode, hmanifest⟩ := r.reads
    refine ⟨r.manifest, ?_, hexecution r hr, r.lists⟩
    rw [manifestIn?, (haccounted.lies r hr).manifest]
    simp [hdecode, hmanifest, Except.toOption]
  · rw [hids]
    by_contra hother
    refine new name m ?_ hid
    rw [← hm, manifestIn?, manifestIn?]
    congr 2
    by_contra hchange
    rcases haccounted.contents _ (Ne.symm hchange) with ⟨entry, hentry, -, node, hlocate⟩ |
      ⟨r, hr, hprefix⟩
    · refine hapart entry hentry _ node hlocate ?_
      rw [List.append_assoc]
      exact List.prefix_append _ _
    · obtain rfl := eq_of_run_prefix hprefix
      exact hother (List.mem_map_of_mem hr)

end Production

end Scaffold
