import Scaffold.Generation.Pipeline
import Scaffold.Proofs.Generation.Confinement

/-!
What an output reports.

The entries of an output account for everything that its generation has changed: new
directories are on the way of the full path of an entry, and contents have changed only
where the full path of a journaled entry leads.

* `Reported`: entries account for the difference of two trees; `Reported.trans`.
* `reported_of_write`, `reported_of_writeAll`, `reported_of_generate`: one file, several
  files, and all layers of a blueprint; full paths are those of generated files.
* `generate_preview`: a preview changes nothing; `generate_eq_refused`: what is refused.
-/

namespace Scaffold

open Files FileTree

variable {tree middle after : FileTree} {root : Path} {mode : Writer.Mode} {file : GeneratedFile}
  {files : List GeneratedFile} {entry : OutputEntry} {entries more : List OutputEntry}

/-- Entries account for the difference of two trees. -/
structure Reported (entries : List OutputEntry) (tree after : FileTree) : Prop where
  /-- All directories and links are as they were. -/
  keeps : Keeps tree after
  /-- Everything still lies in a directory. -/
  sound : after.Sound
  /-- A node that has changed is on the way of the full path of an entry. -/
  ways : ∀ p, after.node? p ≠ tree.node? p → ∃ entry ∈ entries, ∃ count node,
    after.locate true ((Path.ofText entry.fullPath).upTo count) = .ok ⟨p, node⟩
  /-- Contents have changed where the full path of a journaled entry leads. -/
  contents : ∀ p, after.contents? p ≠ tree.contents? p → ∃ entry ∈ entries,
    entry.isJournaled = true ∧ ∃ node,
      after.locate true (.ofText entry.fullPath) = .ok ⟨p, node⟩

namespace Reported

lemma refl (sound : tree.Sound) : Reported entries tree tree :=
  ⟨.refl tree, sound, fun _ h => absurd rfl h, fun _ h => absurd rfl h⟩

lemma trans (h : Reported entries tree middle) (h' : Reported more middle after) :
    Reported (entries ++ more) tree after where
  keeps := h.keeps.trans h'.keeps
  sound := h'.sound
  ways p hp := by
    by_cases hlater : after.node? p = middle.node? p
    · obtain ⟨entry, hentry, count, node, hlocate⟩ := h.ways p (hlater ▸ hp)
      exact ⟨entry, by simp [hentry], count, _, h'.keeps.locate hlocate⟩
    · obtain ⟨entry, hentry, hway⟩ := h'.ways p hlater
      exact ⟨entry, by simp [hentry], hway⟩
  contents p hp := by
    by_cases hlater : after.contents? p = middle.contents? p
    · obtain ⟨entry, hentry, journaled, node, hlocate⟩ := h.contents p (hlater ▸ hp)
      exact ⟨entry, by simp [hentry], journaled, _, h'.keeps.locate hlocate⟩
    · obtain ⟨entry, hentry, hchange⟩ := h'.contents p hlater
      exact ⟨entry, by simp [hentry], hchange⟩

/-- The layer of an entry is no part of its account. -/
lemma stamped (h : Reported entries tree after) (layer : Option String) :
    Reported (entries.map fun entry => { entry with layer }) tree after where
  keeps := h.keeps
  sound := h.sound
  ways p hp := by
    obtain ⟨entry, hentry, hway⟩ := h.ways p hp
    exact ⟨_, List.mem_map_of_mem hentry, hway⟩
  contents p hp := by
    obtain ⟨entry, hentry, hchange⟩ := h.contents p hp
    exact ⟨_, List.mem_map_of_mem hentry, hchange⟩

end Reported

/-! ### One file -/

lemma Writer.fullPath_place (target : Path) (contents : Bytes) (previous : Option Bytes)
    (relative : String) (tree : FileTree) :
    (Writer.place target contents previous relative tree).1.fullPath = target.toText := by
  rw [Writer.place]
  simp only
  split
  · rfl
  · split
    · rfl
    · cases previous <;> rfl

/-- The entry of contents that are placed accounts for what this changes. -/
lemma reported_of_place {target : Path} (sound : tree.Sound) (written : target.IsWritten)
    (contents : Bytes) (previous : Option Bytes) (relative : String) :
    Reported [(Writer.place target contents previous relative tree).1] tree
      (Writer.place target contents previous relative tree).2 := by
  have hmade := makeDirectories_made target.parent tree
  have hgrown := hmade.grown
  have hsound := hmade.sound sound
  -- the directories on the way, in any tree that keeps them
  have hdirs : ∀ after, Keeps (tree.makeDirectories target.parent).2 after → ∀ p,
      (tree.makeDirectories target.parent).2.node? p ≠ tree.node? p →
        ∃ count node, after.locate true (target.upTo count) = .ok ⟨p, node⟩ := by
    intro after hkeeps p hp
    rcases hgrown.node p with hold | ⟨hnone, hdir⟩
    · exact absurd hold hp
    · obtain ⟨count, hcount, hlocate⟩ := hmade.new p hnone hdir
      rw [Path.upTo_parent hcount] at hlocate
      exact ⟨count, _, hkeeps.locate hlocate⟩
  obtain ⟨hstatus, -⟩ | ⟨grown, after, hdirectories, hwrite, hplaced⟩ :=
    Writer.place_cases target contents previous relative tree
  · have hpath := (Writer.fullPath_place target contents previous relative tree)
    rw [place_of_error hstatus]
    refine ⟨hgrown.keeps, hsound, fun p hp => ⟨_, List.mem_singleton_self _, ?_⟩, fun p hp =>
      absurd (hgrown.contents p) hp⟩
    rw [hpath, Path.ofText_toText written]
    exact hdirs _ (.refl _) p hp
  · rw [hplaced]
    rw [hdirectories] at hgrown hdirs hsound
    have hpath :
        Path.ofText (Writer.placed target contents relative previous).fullPath = target := by
      cases previous <;> exact Path.ofText_toText written
    have hafter := sound_of_write hsound hwrite
    obtain ⟨goal, hgoal, vacant, rfl⟩ := write_eq_ok_iff.mp hwrite
    have hset := Keeps.set_file vacant contents
    refine ⟨hgrown.keeps.trans hset, hafter, fun p hp => ⟨_, List.mem_singleton_self _, ?_⟩,
      fun p hp => ⟨_, List.mem_singleton_self _, ?_, ?_⟩⟩
    · rw [hpath]
      by_cases hp' : p = goal
      · refine ⟨target.names.length, ?_⟩
        rw [upTo_length, hp']
        exact ⟨_, hset.locate hgoal⟩
      · rw [node?_set_of_ne hp'] at hp
        exact hdirs _ hset p hp
    · cases previous <;> rfl
    · rw [hpath]
      have hp' : p = goal := by
        by_contra hne
        rw [contents?_set vacant.ne_nil, if_neg hne] at hp
        exact hp (hgrown.contents p)
      rw [hp']
      exact ⟨_, hset.locate hgoal⟩

/-- **The entry of a file** accounts for what its writing changes. -/
lemma reported_of_write (sound : tree.Sound) (written : root.IsWritten)
    (h : Writer.write root mode file tree = (.ok entry, after)) :
    Reported [entry] tree after ∧ entry.fullPath = (Writer.targetOf root file).toText := by
  have hwritten : (Writer.targetOf root file).IsWritten := written.child _
  unfold Writer.write at h
  simp only at h
  unfold Writer.targetOf at hwritten ⊢
  generalize root.child (Writer.relativeText file.path) = target at *
  split at h
  · cases h
  · simp only [Prod.mk.injEq, Except.ok.injEq] at h
    obtain ⟨rfl, rfl⟩ := h
    exact ⟨.refl sound, rfl⟩
  · simp only [Prod.mk.injEq, Except.ok.injEq] at h
    obtain ⟨rfl, rfl⟩ := h
    rw [Writer.writeAt]
    simp only
    split_ifs
    · exact ⟨.refl sound, rfl⟩
    · cases hexisting : Writer.existing target tree with
      | error fault => exact ⟨.refl sound, rfl⟩
      | ok previous =>
        simp only
        split_ifs
        · exact ⟨.refl sound, rfl⟩
        · exact ⟨.refl sound, rfl⟩
        · exact ⟨reported_of_place sound hwritten _ _ _, Writer.fullPath_place _ _ _ _ _⟩

/-! ### Several files -/

/-- The entries of several files account for what their writing changes. -/
lemma reported_of_writeAll (sound : tree.Sound) (written : root.IsWritten)
    (h : Writer.writeAll root mode files tree = (.ok entries, after)) :
    Reported entries tree after ∧ ∀ entry ∈ entries, ∃ file ∈ files,
      entry.fullPath = (Writer.targetOf root file).toText := by
  induction files generalizing tree entries with
  | nil =>
    simp only [writeAll_nil, Prod.mk.injEq, Except.ok.injEq] at h
    obtain ⟨rfl, rfl⟩ := h
    exact ⟨.refl sound, by simp⟩
  | cons file files ih =>
    obtain ⟨entry, rest, next, rfl, hwrite, hrest⟩ := writeAll_cons_eq_ok h
    obtain ⟨hfirst, hpath⟩ := reported_of_write sound written hwrite
    obtain ⟨hothers, hpaths⟩ := ih hfirst.sound hrest
    refine ⟨hfirst.trans hothers, fun other hother => ?_⟩
    rcases List.mem_cons.mp hother with rfl | hother
    · exact ⟨file, by simp, hpath⟩
    · obtain ⟨file', hfile', hpath'⟩ := hpaths other hother
      exact ⟨file', by simp [hfile'], hpath'⟩

section Preview

variable (dry : mode.dryRun = true)
include dry

lemma write_preview (root : Path) (file : GeneratedFile) (tree : FileTree) :
    (Writer.write root mode file tree).2 = tree := by
  unfold Writer.write
  simp only [Writer.writeAt, dry, if_true]
  split <;> rfl

/-- A preview of files changes nothing. -/
lemma writeAll_preview (root : Path) (files : List GeneratedFile) (tree : FileTree) :
    (Writer.writeAll root mode files tree).2 = tree := by
  induction files with
  | nil => rfl
  | cons file files ih =>
    have hwrite := write_preview dry root file tree
    rw [writeAll_cons]
    cases hfirst : Writer.write root mode file tree with
    | mk outcome next =>
      rw [hfirst] at hwrite
      obtain rfl : next = tree := hwrite
      cases outcome with
      | error fault => rfl
      | ok entry => exact ih

end Preview

/-! ### All layers -/

namespace Pipeline

variable {registry : Generators} {b : Blueprint} {a : Architecture} {options : Named}
  {output result : Output} {layers : List String}

/-- A file is one that a generator of the registry has made for a blueprint. -/
def IsGenerated (registry : Generators) (b : Blueprint) (file : GeneratedFile) : Prop :=
  ∃ layer generator a options generated, registry.serving layer = some generator ∧
    generator.generate b a options = .ok generated ∧ file ∈ generated.files

lemma runLayers_cons (root : Path) (mode : Writer.Mode) (registry : Generators) (b : Blueprint)
    (a : Architecture) (options : Named) (output : Output) (layer : String)
    (layers : List String) (tree : FileTree) :
    runLayers root mode registry b a options output (layer :: layers) tree =
      match registry.serving layer with
      | none => runLayers root mode registry b a options
          { output with warnings := output.warnings ++
              ["No generator registered for layer '" ++ layer ++ "'."] } layers tree
      | some generator =>
        match generator.generate b a options with
        | .error cause => (.error (.broken cause), tree)
        | .ok generated =>
          match Writer.writeAll root mode generated.files tree with
          | (.error cause, tree) => (.error (.broken (.ofResolve cause)), tree)
          | (.ok entries, tree) =>
            runLayers root mode registry b a options
              ⟨output.entries ++ entries.map fun entry => { entry with layer := some layer },
                output.warnings ++ generated.warnings⟩ layers tree := rfl

/-- The entries of some layers account for what they change, and their full paths are those
of generated files. -/
lemma reported_of_runLayers (sound : tree.Sound) (written : root.IsWritten)
    (h : runLayers root mode registry b a options output layers tree = (.ok result, after)) :
    ∃ entries, result.entries = output.entries ++ entries ∧ Reported entries tree after ∧
      ∀ entry ∈ entries, ∃ file, IsGenerated registry b file ∧
        entry.fullPath = (Writer.targetOf root file).toText := by
  induction layers generalizing tree output with
  | nil =>
    simp only [runLayers, Prod.mk.injEq, Except.ok.injEq] at h
    obtain ⟨rfl, rfl⟩ := h
    exact ⟨[], by simp, .refl sound, by simp⟩
  | cons layer layers ih =>
    rw [runLayers_cons] at h
    split at h
    · obtain ⟨entries, hentries, hrest⟩ := ih sound h
      exact ⟨entries, hentries, hrest⟩
    · next generator hserving =>
      split at h
      · simp at h
      · next generated hgenerated =>
        split at h
        · simp at h
        · next entries next hwrite =>
          obtain ⟨hfirst, hpaths⟩ := reported_of_writeAll sound written hwrite
          obtain ⟨more, hentries, hothers, hpaths'⟩ := ih hfirst.sound h
          refine ⟨entries.map (fun entry => { entry with layer := some layer }) ++ more,
            by simp [hentries], (hfirst.stamped (some layer)).trans hothers, fun entry hentry => ?_⟩
          rcases List.mem_append.mp hentry with hentry | hentry
          · obtain ⟨bare, hbare, rfl⟩ := List.mem_map.mp hentry
            obtain ⟨file, hfile, hpath⟩ := hpaths bare hbare
            exact ⟨file, ⟨layer, generator, a, options, generated, hserving, hgenerated, hfile⟩,
              hpath⟩
          · exact hpaths' entry hentry

/-- **The output of a blueprint** accounts for what its generation changes, and the full
paths of its entries are those of generated files. -/
lemma reported_of_generate {architectures : Architectures} {selection : Selection}
    (sound : tree.Sound) (written : root.IsWritten)
    (h : generate architectures root registry selection mode options b tree = (.ok output, after)) :
    Reported output.entries tree after ∧ ∀ entry ∈ output.entries, ∃ file,
      IsGenerated registry b file ∧ entry.fullPath = (Writer.targetOf root file).toText := by
  rw [generate] at h
  split at h
  · simp at h
  · obtain ⟨entries, hentries, hreported, hpaths⟩ := reported_of_runLayers sound written h
    rw [Output.empty, List.nil_append] at hentries
    rw [hentries]
    exact ⟨hreported, hpaths⟩

/-- **A preview** changes nothing. -/
lemma generate_preview (architectures : Architectures) (root : Path) (registry : Generators)
    (selection : Selection) (dry : mode.dryRun = true) (options : Named) (b : Blueprint)
    (tree : FileTree) :
    (generate architectures root registry selection mode options b tree).2 = tree := by
  have hlayers : ∀ a layers options output,
      (runLayers root mode registry b a options output layers tree).2 = tree := by
    intro a layers options
    induction layers with
    | nil => exact fun _ => rfl
    | cons layer layers ih =>
      intro output
      rw [runLayers_cons]
      split
      · exact ih _
      · split
        · rfl
        · next generated _ =>
          have hwrite := writeAll_preview dry root generated.files tree
          split
          · next hfiles => rw [hfiles] at hwrite; exact hwrite
          · next hfiles =>
            rw [hfiles] at hwrite
            simp only at hwrite
            rw [hwrite]
            exact ih _
  rw [generate]
  split
  · rfl
  · exact hlayers _ _ _ _

/-- Only a name that is not registered is refused, and then nothing changes. -/
lemma generate_eq_refused {architectures : Architectures} {selection : Selection}
    {unknown : UnknownArchitecture}
    (h : generate architectures root registry selection mode options b tree =
      (.error (.refused unknown), after)) :
    architectures.resolve b.architecture = .error unknown ∧ after = tree := by
  have hlayers : ∀ a layers tree output,
      (runLayers root mode registry b a (optionsFor mode options) output layers tree).1 ≠
        .error (.refused unknown) := by
    intro a layers
    induction layers with
    | nil => intro tree output h; cases h
    | cons layer layers ih =>
      intro tree output
      rw [runLayers_cons]
      split
      · exact ih _ _
      · split
        · simp
        · split
          · simp
          · exact ih _ _
  rw [generate] at h
  split at h
  · next cause hcause =>
    simp only [Prod.mk.injEq, Except.error.injEq, Failure.refused.injEq] at h
    exact ⟨h.1 ▸ hcause, h.2.symm⟩
  · exact absurd (congrArg Prod.fst h) (hlayers _ _ _ _)

end Pipeline

end Scaffold
