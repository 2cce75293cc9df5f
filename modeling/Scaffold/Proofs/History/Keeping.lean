import Scaffold.Proofs.Files.Avoiding
import Scaffold.Proofs.Generation.Reports

/-!
Outputs and recordings, and what they leave together.

A recording that fails leaves nothing but directories on the path of the root. So whatever
mixture of outputs and recordings lies between two trees, contents have changed only where
the full path of a journaled entry leads and in the directories of new runs.

* `left_of_record`: a recording that fails.
* `Accounted`: entries and runs account for the difference of two trees; `Accounted.trans`:
  one difference after another.
* `Reported.accounted`, `accounted_of_error`, `accounted_of_added`: the output of a blueprint,
  a recording that fails, and one that succeeds.
* `isNewRun_of_vacant`: a name that nothing mentions can be given to a run.
-/

namespace Scaffold

open Files FileTree

variable {base tree tree' middle after : FileTree} {root : Path} {place : Place} {id : String}
  {journal journal' : Journal} {s : Surroundings} {context : List (Document × Document)}
  {b : Blueprint} {relative : String} {output : Output} {fault : RecordFault}

/-! ### Recordings that fail -/

lemma Files.FileTree.Alike.sound (h : Alike tree tree') (sound : tree.Sound)
    (distinct : (tree'.nodes.map (·.1)).Nodup) : tree'.Sound where
  distinct := distinct
  closed p node hnode := by
    rw [h.node] at hnode ⊢
    exact sound.closed p node hnode
  workplace := by
    rw [h.node, h.workplace]
    exact sound.workplace

lemma Files.FileTree.Alike.keeps (h : Alike tree tree') : Keeps tree tree' where
  workplace := h.workplace
  directory p hp := by rw [h.node, hp]
  link p target := by rw [h.node]

/-- A removal leaves every place listed at most once. -/
lemma nodup_removeTree (path : Path) (h : (tree.nodes.map (·.1)).Nodup) :
    ((tree.removeTree path).nodes.map (·.1)).Nodup := by
  have hfold : ∀ (places : List Place) (tree : FileTree), (tree.nodes.map (·.1)).Nodup →
      ((places.foldl (fun rest p => rest.remove p) tree).nodes.map (·.1)).Nodup := by
    intro places
    induction places with
    | nil => exact fun _ h => h
    | cons p places ih =>
      intro tree h
      refine ih _ ?_
      rw [nodes_remove]
      exact (List.filter_sublist.map _).nodup h
  rw [removeTree]
  split
  · exact hfold _ _ h
  · exact h

/-- Steps that make the root and a new directory in it and then stay in this directory leave
everything in a directory. -/
lemma sound_performAll_in_root {inner : List Step} (sound : tree.Sound) (isName : Path.IsName id)
    (up : id ≠ "..")
    (stays : ∀ started place, Started (tree.makeDirectories root).2 root id place started →
      Within (fun p => ∃ name, p = place ++ [id] ++ [name]) started (started.performAll inner).2) :
    (tree.performAll
      (.ensureDirectory root :: .makeDirectory (root.child id) :: inner)).2.Sound := by
  have hmade := makeDirectories_made root tree
  have hreached := @makeDirectories_reached tree root
  rw [performAll, perform]
  generalize tree.makeDirectories root = made at *
  obtain ⟨fault, grown⟩ := made
  cases fault with
  | some fault => exact hmade.sound sound
  | none =>
    obtain ⟨place, hplace⟩ := hreached rfl
    simp only [performAll, perform]
    obtain ⟨started, hmkdir, hsettle⟩ | ⟨fault, hsettle⟩ :=
      settle_cases grown (grown.makeDirectory (root.child id))
    · rw [hsettle]
      have hstarted := started_of_makeDirectory (hmade.sound sound) isName up hplace hmkdir
      exact (stays started place hstarted).sound hstarted.sound
    · rw [hsettle]
      exact hmade.sound sound

/-- Every recording makes the root and the directory of its run, and then stays in this
directory. -/
lemma recordingOf_shape (root : Path) (s : Surroundings) (sequence : Number.Binary64)
    (context : List (Document × Document)) (b : Blueprint) (relative : String)
    (entries : List OutputEntry) :
    ∃ inner, (recordingOf root s sequence context b relative entries).steps =
        .ensureDirectory root :: .makeDirectory (root.child (runName s b)) :: inner ∧
      (recordingOf root s sequence context b relative entries).directory =
        root.child (runName s b) ∧
      ∀ grown started place, Started grown root (runName s b) place started →
        Within (fun p => ∃ name, p = place ++ [runName s b] ++ [name]) started
          (started.performAll inner).2 := by
  have hbackups : ∀ grown started place, Started grown root (runName s b) place started →
      Within (fun p => ∃ name, p = place ++ [runName s b] ++ [name]) started
        (started.performAll (backupSteps (root.child (runName s b)) s.token 0 entries)).2 :=
    fun _ _ _ h => (performAll_backupSteps (h.located true) h.unlinked s.token 0 entries).1
  cases hcontext : RunContext.ofEntries context with
  | error fault =>
    exact ⟨backupSteps (root.child (runName s b)) s.token 0 entries,
      by simp [recordingOf, hcontext], by simp [recordingOf, hcontext], hbackups⟩
  | ok known =>
    cases hbytes : (manifestFor s sequence known b relative entries).fileBytes with
    | error fault =>
      exact ⟨backupSteps (root.child (runName s b)) s.token 0 entries,
        by simp [recordingOf, hcontext, hbytes], by simp [recordingOf, hcontext, hbytes], hbackups⟩
    | ok bytes =>
      exact ⟨backupSteps (root.child (runName s b)) s.token 0 entries ++
          atomicSteps ((root.child (runName s b)).child Manifest.fileName)
            (temporaryPath ((root.child (runName s b)).child Manifest.fileName) "manifest" s.token)
            [bytes],
        by simp [recordingOf, hcontext, hbytes], by simp [recordingOf, hcontext, hbytes],
        fun _ _ _ h => (performAll_filling (h.located true) h.unlinked s.token entries bytes).1⟩

/-- **A recording that fails** leaves nothing but directories on the path of the root. -/
lemma left_of_record (enabled : journal.store.root? = some root)
    (changed : output.journaled ≠ []) (sound : tree.Sound) (unique : '/' ∉ s.unique.toList)
    (fresh : IsNewRun root (runName s b) tree)
    (h : journal.record s context b relative output tree = (.error fault, journal', after)) :
    Alike (tree.makeDirectories root).2 after ∧ after.Sound := by
  rw [record_eq enabled changed, Prod.mk.injEq, Prod.mk.injEq] at h
  obtain ⟨hfault, -, hafter⟩ := h
  obtain ⟨inner, hsteps, hdirectory, hstays⟩ := recordingOf_shape root s
    (Journal.nextSequence journal.last s.clock) context b relative output.journaled
  generalize recordingOf root s (Journal.nextSequence journal.last s.clock) context b relative
    output.journaled = recording at *
  have isName := runName_isName unique b
  have up := runName_ne_up s b
  have halike := (performAll_in_root sound isName up fresh (hstays _)).1
  have hsound := sound_performAll_in_root sound isName up (hstays (tree.makeDirectories root).2)
  rw [← hsteps, ← hdirectory] at halike
  rw [← hsteps] at hsound
  -- whatever the fault is, the directory of the run is removed
  have hremoved : (recording.run tree).2 =
      (tree.performAll recording.steps).2.removeTree recording.directory := by
    rw [Recording.run] at hfault ⊢
    cases hperform : tree.performAll recording.steps with
    | mk stopped left =>
      cases stopped with
      | some _ => rfl
      | none =>
        cases hrefusal : recording.refusal with
        | some refusal => rfl
        | none => simp [hperform, hrefusal] at hfault
  rw [← hafter, hremoved]
  exact ⟨halike, halike.sound ((makeDirectories_made root tree).sound sound)
    (nodup_removeTree _ hsound.distinct)⟩

/-! ### Differences that are accounted for -/

/-- Journaled entries and runs account for the difference of two trees, where the root of
the store lies at a place. -/
structure Accounted (root : Path) (place : Place) (entries : List OutputEntry)
    (runs : List KeptRun) (tree after : FileTree) : Prop where
  /-- All directories and links are as they were. -/
  keeps : Keeps tree after
  /-- Everything still lies in a directory. -/
  sound : after.Sound
  /-- Contents have changed where a journaled entry leads, or in the directory of a run. -/
  contents : ∀ p, after.contents? p ≠ tree.contents? p →
    (∃ entry ∈ entries, entry.isJournaled = true ∧ ∃ node,
      after.locate true (.ofText entry.fullPath) = .ok ⟨p, node⟩) ∨
    ∃ r ∈ runs, place ++ [r.id] <+: p
  /-- The directories of the runs are there. -/
  lies : ∀ r ∈ runs, r.LiesIn place after
  /-- They were not there before. -/
  new : ∀ r ∈ runs, tree.node? (place ++ [r.id]) ≠ some .directory
  /-- No two runs have one name. -/
  distinct : (runs.map (·.id)).Nodup
  /-- The root is there when there are runs. -/
  located : runs ≠ [] → after.locate true root = .ok ⟨place, some .directory⟩
  /-- A name that nothing mentions is still not used in the root. -/
  vacant : tree.NoLinks → ∀ id, id ∉ tree.workplace → id ∉ root.names →
    (∀ entry ∈ entries, id ∉ (Path.ofText entry.fullPath).names) → id ∉ runs.map (·.id) →
    tree.node? (place ++ [id]) = none → after.node? (place ++ [id]) = none

/-- A place lies in the directory of one run only. -/
lemma eq_of_run_prefix {id name : String} {rest : Place}
    (h : place ++ [id] <+: place ++ [name] ++ rest) : id = name := by
  rw [List.append_assoc, List.prefix_append_right_inj, List.singleton_append,
    List.cons_prefix_cons] at h
  exact h.1

namespace Accounted

variable {entries more : List OutputEntry} {runs others : List KeptRun}

/-- One difference after another. No journaled entry of the later one leads into the root. -/
lemma trans (h : Accounted root place entries runs tree middle)
    (h' : Accounted root place more others middle after)
    (apart : ∀ entry ∈ more, entry.isJournaled = true →
      LeadsApart after (.ofText entry.fullPath) place) :
    Accounted root place (entries ++ more) (runs ++ others) tree after := by
  -- the directories of the earlier runs stay as they are
  have hkept : ∀ r ∈ runs, ∀ rest, after.contents? (place ++ [r.id] ++ rest) =
      middle.contents? (place ++ [r.id] ++ rest) := by
    intro r hr rest
    by_contra hne
    rcases h'.contents _ hne with ⟨entry, hentry, hjournaled, node, hlocate⟩ | ⟨r', hr', hprefix⟩
    · exact apart entry hentry hjournaled _ _ hlocate (by
        rw [List.append_assoc]
        exact List.prefix_append _ _)
    · have hdir := (h.lies r hr).directory h.sound
      rw [← eq_of_run_prefix hprefix] at hdir
      exact h'.new r' hr' hdir
  refine ⟨h.keeps.trans h'.keeps, h'.sound, fun p hp => ?_, fun r hr => ?_, fun r hr => ?_, ?_,
    fun ne => ?_, fun noLinks id hplace hroot hentries hruns hnone => ?_⟩
  · by_cases hlater : after.contents? p = middle.contents? p
    · rcases h.contents p (hlater ▸ hp) with ⟨entry, hentry, hjournaled, node, hlocate⟩ |
        ⟨r, hr, hprefix⟩
      · exact .inl ⟨entry, by simp [hentry], hjournaled, _, h'.keeps.locate hlocate⟩
      · exact .inr ⟨r, by simp [hr], hprefix⟩
    · rcases h'.contents p hlater with ⟨entry, hentry, hchange⟩ | ⟨r, hr, hprefix⟩
      · exact .inl ⟨entry, by simp [hentry], hchange⟩
      · exact .inr ⟨r, by simp [hr], hprefix⟩
  · rcases List.mem_append.mp hr with hr | hr
    · obtain ⟨hmanifest, hbackups⟩ := h.lies r hr
      exact ⟨by rw [hkept r hr, hmanifest],
        fun name bytes hname => by rw [hkept r hr, hbackups name bytes hname]⟩
    · exact h'.lies r hr
  · rcases List.mem_append.mp hr with hr | hr
    · exact h.new r hr
    · exact fun hdir => h'.new r hr (h.keeps.directory _ hdir)
  · rw [List.map_append]
    refine List.Nodup.append h.distinct h'.distinct fun id hid hid' => ?_
    obtain ⟨r, hr, rfl⟩ := List.mem_map.mp hid
    obtain ⟨r', hr', heq⟩ := List.mem_map.mp hid'
    have hdir := (h.lies r hr).directory h.sound
    rw [← heq] at hdir
    exact h'.new r' hr' hdir
  · by_cases hothers : others = []
    · exact h'.keeps.locate_directory (h.located (by simpa [hothers] using ne))
    · exact h'.located hothers
  · have hmiddle := h.vacant noLinks id hplace hroot (fun e he => hentries e (by simp [he]))
      (fun hid => hruns (by simp_all)) hnone
    exact h'.vacant (h.keeps.noLinks noLinks) id
      (by rw [h.keeps.workplace]; exact hplace) hroot (fun e he => hentries e (by simp [he]))
      (fun hid => hruns (by simp_all)) hmiddle

end Accounted

/-! ### Names that nothing mentions -/

/-- A path that does not mention a name comes to no place with this name. -/
lemma not_mem_of_way {path : Path} {p : Place} {node : Option Node} {count : Nat}
    (noLinks : tree.NoLinks) (located : tree.locate true (path.upTo count) = .ok ⟨p, node⟩)
    (workplace : id ∉ tree.workplace) (names : id ∉ path.names) : id ∉ p := by
  have hstart : Avoids [id] (tree.start (path.upTo count)) := by
    rw [FileTree.start]
    split
    · exact avoids_nil
    · intro name hname hid
      exact workplace (List.mem_singleton.mp hid ▸ hname)
  have hnames : Avoids [id] (path.upTo count).names := by
    intro name hname hid
    exact names (List.mem_singleton.mp hid ▸ List.take_subset _ _ hname)
  have havoids := (locate_eq_ok_iff.mp located).2.avoids
    (fun p target hlink => absurd hlink (noLinks p target)) hstart hnames
  exact fun hid => havoids id hid (by simp)

/-- Making the root puts nothing at a name that nothing mentions. -/
lemma vacant_makeDirectories (noLinks : tree.NoLinks) (workplace : id ∉ tree.workplace)
    (names : id ∉ root.names) (vacant : tree.node? (place ++ [id]) = none) :
    (tree.makeDirectories root).2.node? (place ++ [id]) = none := by
  have hmade := makeDirectories_made root tree
  rcases hmade.grown.node (place ++ [id]) with hsame | ⟨hnone, hdir⟩
  · rw [hsame, vacant]
  · obtain ⟨count, -, hlocate⟩ := hmade.new _ hnone hdir
    refine absurd (List.mem_append_right place (List.mem_singleton_self id)) (not_mem_of_way
      (hmade.grown.keeps.noLinks noLinks)
      hlocate ?_ names)
    rw [hmade.grown.keeps.workplace]
    exact workplace

/-- **A name that nothing mentions** can be given to a run. -/
lemma isNewRun_of_vacant (noLinks : tree.NoLinks) (keeps : Keeps base tree)
    (top : ∀ other, base.resolve root = .ok other → other = place)
    (isName : Path.IsName id) (up : id ≠ "..") (workplace : id ∉ tree.workplace)
    (names : id ∉ root.names) (vacant : tree.node? (place ++ [id]) = none) :
    IsNewRun root id tree := by
  intro found hfound
  have hnone := vacant_makeDirectories noLinks workplace names vacant
  have hkeeps := keeps.trans (makeDirectories_grown root tree).keeps
  generalize (tree.makeDirectories root).2 = grown at *
  rw [Path.child_name isName] at hfound
  obtain ⟨directory, hdirectory⟩ := exists_locate_of_child hfound
  obtain rfl := top _ (Writer.resolve_of_later hkeeps hdirectory)
  have hplace := place_of_child_unfollowed hdirectory hfound isName.2.1 up
  have hnode := node?_of_locate hfound
  rwa [hplace, hnone, eq_comm] at hnode

/-! ### Outputs and recordings -/

/-- **An output** accounts for what its generation changes. -/
lemma Reported.accounted {entries : List OutputEntry} (h : Reported entries tree after)
    (root : Path) (place : Place) : Accounted root place entries [] tree after where
  keeps := h.keeps
  sound := h.sound
  contents p hp := .inl (h.contents p hp)
  lies := by simp
  new := by simp
  distinct := by simp
  located ne := absurd rfl ne
  vacant noLinks id hplace _ hentries _ hnone := by
    by_contra hsome
    obtain ⟨entry, hentry, count, node, hlocate⟩ := h.ways (place ++ [id]) (by rwa [hnone])
    refine absurd (List.mem_append_right place (List.mem_singleton_self id)) (not_mem_of_way
      (h.keeps.noLinks noLinks) hlocate ?_
      (hentries entry hentry))
    rw [h.keeps.workplace]
    exact hplace

/-- **A recording that fails** changes no contents. -/
lemma accounted_of_error (place : Place) (alike : Alike (tree.makeDirectories root).2 after)
    (sound : after.Sound) : Accounted root place [] [] tree after where
  keeps := (makeDirectories_grown root tree).keeps.trans alike.keeps
  sound := sound
  contents p hp := by
    refine absurd ?_ hp
    rw [FileTree.contents?, alike.node]
    exact (makeDirectories_grown root tree).contents p
  lies := by simp
  new := by simp
  distinct := by simp
  located ne := absurd rfl ne
  vacant noLinks id hplace hroot _ _ hnone := by
    rw [alike.node]
    exact vacant_makeDirectories noLinks hplace hroot hnone

/-- **A recording that succeeds** adds its run. -/
lemma accounted_of_added {r : KeptRun} {manifest : Manifest} {here : Place}
    (keeps : Keeps base tree) (top : ∀ other, base.resolve root = .ok other → other = place)
    (added : r.Added root manifest here tree after) : Accounted root place [] [r] tree after := by
  obtain rfl := top _ (Writer.resolve_of_later (keeps.trans added.keeps) added.recorded.located)
  have hothers := added.recorded.others
  refine ⟨added.keeps, added.sound, fun p hp => .inr ⟨r, by simp, ?_⟩, ?_, ?_, by simp,
    fun _ => added.recorded.located, fun noLinks id hplace hroot _ hruns hnone => ?_⟩
  · by_contra hprefix
    refine hp ?_
    rw [FileTree.contents?, FileTree.contents?]
    rcases hothers p hprefix with hsame | ⟨hnone, hdir, -⟩
    · rw [hsame]
    · rw [hnone, hdir]
  · simpa using added.liesIn
  · simp [added.recorded.fresh]
  · have hprefix : ¬ here ++ [r.id] <+: here ++ [id] := by
      rw [List.prefix_append_right_inj, List.cons_prefix_cons]
      simpa [eq_comm] using hruns
    rcases hothers _ hprefix with hsame | ⟨-, -, count, -, hlocate⟩
    · rw [hsame, hnone]
    · refine absurd (List.mem_append_right here (List.mem_singleton_self id)) (not_mem_of_way
        (added.keeps.noLinks noLinks) hlocate ?_
        hroot)
      rw [added.keeps.workplace]
      exact hplace

end Scaffold
