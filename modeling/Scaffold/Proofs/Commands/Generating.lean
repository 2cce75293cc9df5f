import Scaffold.Commands.Program
import Scaffold.Proofs.Blueprint.Isolation
import Scaffold.Proofs.Commands.Balance

/-!
An invocation that generates files.

The command gives up before it has looked at any blueprint, or it goes on to the last one.
In the second case its exit code tells whether a blueprint has failed, and what it has
changed balances with the accounts of the blueprints.

* `conclude_bind_iff`: one piece of a command after another, up to the exit code.
* `finished_of_generate`: how the generation of files ends.
* `Workbench.Finds`: the blueprints that an invocation finds.
* `run_generate_balanced`: a whole invocation; `run_generate_missing`: one that finds no
  directory of blueprints.
-/

namespace Scaffold

open Files FileTree Work

variable {α : Type} {x : Work α} {f : α → Work Unit} {t after : Terminal} {code count : Nat}
  {given : Circumstances} {bench : Workbench} {request : Request}

/-! ### Exit codes -/

namespace Program

/-- A piece after another comes to an end when both do, or when the first gives up. -/
lemma conclude_bind_iff :
    conclude (outcome (x >>= f) t) = (.finished code, after) ↔
      (∃ a u, outcome x t = (.ok a, u) ∧ conclude (outcome (f a) u) = (.finished code, after)) ∨
        outcome x t = (.error (.exit code), after) := by
  rw [outcome_bind]
  rcases outcome x t with ⟨e | a, u⟩
  · cases e <;> simp [conclude]
  · simp

/-- What does not stop unless it breaks down does not give up. -/
lemma conclude_bind_of_onlyBreaks (hx : OnlyBreaks x)
    (h : conclude (outcome (x >>= f) t) = (.finished code, after)) :
    ∃ a u, outcome x t = (.ok a, u) ∧ conclude (outcome (f a) u) = (.finished code, after) := by
  refine (conclude_bind_iff.mp h).resolve_right fun hstop => ?_
  obtain ⟨cause, hcause⟩ := hx _ _ _ hstop
  cases hcause

end Program

namespace Production

/-- The end of the command: failures are told. -/
lemma conclude_of_failures {failed : Nat} {message : String}
    (h : Program.conclude (outcome (if failed > 0 then do line message; giveUp else pure ()) t) =
      (.finished code, after)) :
    ∃ more, after = t.showing more ∧ code = if failed > 0 then 1 else 0 := by
  split_ifs at h ⊢
  · cases h
    exact ⟨_, rfl, rfl⟩
  · cases h
    exact ⟨[], by simp, rfl⟩

/-- The end of the command after a preview and after files have been written. -/
lemma conclude_of_end {failed : Nat} {dry : Bool} {preview message : String}
    (h : Program.conclude (outcome (do
      if dry then line preview
      if failed > 0 then
        line message
        giveUp) t) = (.finished code, after)) :
    ∃ more, after = t.showing more ∧ code = if failed > 0 then 1 else 0 := by
  cases dry with
  | true =>
    obtain ⟨_, _, hline, h⟩ := Program.conclude_bind_of_onlyBreaks (.line _) h
    rw [outcome_line, Prod.mk.injEq] at hline
    obtain ⟨-, rfl⟩ := hline
    obtain ⟨more, rfl, hcode⟩ := conclude_of_failures h
    exact ⟨_ ++ more, Terminal.showing_showing _ _, hcode⟩
  | false => exact conclude_of_failures h

/-- **How the generation of files ends.** It gives up because of a generator or a missing
directory before it has looked at any blueprint, or it goes on to the last blueprint. -/
lemma finished_of_generate
    (h : Program.conclude (outcome (generate given bench request) t) = (.finished code, after)) :
    (code = 1 ∧ after.tree = t.tree ∧
      ((∃ fault, Generator.loadAll bench.configuration.generators = .error (.refused fault)) ∨
        t.tree.isDirectory bench.root = .ok false)) ∨
    ∃ configured paths outcomes accounts more,
      Generator.loadAll bench.configuration.generators = .ok configured ∧
      t.tree.isDirectory bench.root = .ok true ∧
      Discovery.find t.tree bench.root request.wanted = .ok paths ∧
      bench.reader.readAll t.tree (paths.map Path.toText) = .ok outcomes ∧
      Proceeds given bench (.ofList (Generator.snapshot :: configured)) request 0
        (.fresh bench.store) t.tree outcomes accounts after.tree ∧
      after.emissions = t.emissions ++ accounts.flatMap (·.shown) ++ more ∧
      code = if accounts.any (·.fate.isFailure) then 1 else 0 := by
  rw [generate, generators] at h
  cases hload : Generator.loadAll bench.configuration.generators with
  | error failure =>
    simp only [hload] at h
    cases failure with
    | broken cause => cases h
    | refused fault =>
      cases h
      exact .inl ⟨rfl, rfl, .inl ⟨fault, rfl⟩⟩
  | ok configured =>
    simp only [hload, pure_bind, Workbench.discover, bind_assoc] at h
    obtain ⟨there, _, hthere, h⟩ := Program.conclude_bind_of_onlyBreaks (.ofTree _) h
    obtain ⟨hlook, rfl⟩ := outcome_ofTree_eq_ok_iff.mp hthere
    have hroot := mapError_eq_ok_iff.mp hlook
    cases there with
    | false =>
      cases h
      exact .inl ⟨rfl, rfl, .inr hroot⟩
    | true =>
      rw [if_pos rfl] at h
      obtain ⟨paths, _, hpaths, h⟩ := Program.conclude_bind_of_onlyBreaks (.ofTree _) h
      obtain ⟨hlook, rfl⟩ := outcome_ofTree_eq_ok_iff.mp hpaths
      have hfind := mapError_eq_ok_iff.mp hlook
      right
      cases paths with
      | nil =>
        cases h
        exact ⟨configured, [], [], [], _, rfl, hroot, hfind, rfl, .done, by simp; rfl, rfl⟩
      | cons path paths =>
        obtain ⟨outcomes, _, houtcomes, h⟩ := Program.conclude_bind_of_onlyBreaks (.ofTree _) h
        obtain ⟨hread, rfl⟩ := outcome_ofTree_eq_ok_iff.mp houtcomes
        obtain ⟨failed, u, heach, h⟩ :=
          Program.conclude_bind_of_onlyBreaks (onlyBreaks_each _ _ _ _ _ _ _) h
        obtain ⟨accounts, hproceeds, hemissions, hfailed⟩ := each_eq_ok heach
        have hpositive : failed > 0 ↔ accounts.any (·.fate.isFailure) = true := by
          rw [hfailed, gt_iff_lt, List.countP_pos_iff, List.any_eq_true]
        obtain ⟨more, rfl, hcode⟩ := conclude_of_end h
        refine ⟨configured, path :: paths, outcomes, accounts, more, rfl, hroot, hfind, hread,
          hproceeds, by simp [hemissions], ?_⟩
        simp only [hcode, hpositive]

/-- A blueprint has failed when there is none, when it is rejected, or when one of its files
could not be written. -/
lemma Fate.isFailure_iff {fate : Fate} (known : ∀ fault, fate ≠ .unknown fault) :
    fate.isFailure = true ↔ (∃ fault, fate = .unreadable fault) ∨
      (∃ findings, fate = .rejected findings) ∨
      ∃ output kept, fate = .generated output kept ∧
        ∃ entry ∈ output.entries, entry.status = .error := by
  cases fate with
  | unreadable fault => simp [isFailure]
  | rejected findings => simp [isFailure]
  | unknown fault => exact absurd rfl (known fault)
  | generated output kept => simp [isFailure, Output.hasErrors]

end Production

/-! ### Invocations -/

/-- A blueprint is read from one of the files that an invocation finds. -/
def Workbench.Finds (bench : Workbench) (wanted : Discovery.Wanted) (tree : FileTree)
    (b : Blueprint) : Prop :=
  ∃ paths outcomes path, Discovery.find tree bench.root wanted = .ok paths ∧
    bench.reader.readAll tree (paths.map Path.toText) = .ok outcomes ∧ (path, .ok b) ∈ outcomes

namespace Program

open Production

variable {arguments : List String} {command : Command} {file : Option String} {c : Configuration}
  {place : Place} {wanted : Discovery.Wanted} {only architecture : Option String}
  {dryRun force : Bool}

lemma conclude_of_run (asked : Invocation.ofArguments? arguments = some ⟨command, file⟩)
    (h : run given arguments t = (.finished code, after)) :
    conclude (outcome (runCommand given (file.map .ofText) command) t) =
      (.finished code, after) := by
  rw [run, asked] at h
  cases file with
  | none => exact h
  | some file =>
    simp only at h
    split_ifs at h
    · cases h
    · cases h
    · exact h

lemma outcome_load {path : Option Path}
    (loaded : Configuration.load t.tree given.environment given.homes t.tree.workplace.toPath path =
      .ok c) :
    outcome (Workbench.load given path) t = (.ok (.ofConfiguration c), t) := by
  have hget : outcome (get : Work Terminal) t = (.ok t, t) := rfl
  rw [Workbench.load, outcome_bind, hget]
  simp only [loaded]
  rfl

/-- **Generating files.** An invocation that comes to its end either gives up before it has
looked at any blueprint, because of a configured generator or because there is no directory
of blueprints; then nothing has changed, and the exit code is 1. Or it looks at all
blueprints that it finds. Then the exit code is 1 if one of them cannot be read, is rejected
or has a file that could not be written, and 0 otherwise. No blueprint that has been accepted
has an unknown architecture. A preview changes nothing, and without one the changes balance
with the accounts of the blueprints. -/
theorem run_generate_balanced
    (asked : Invocation.ofArguments? arguments =
      some ⟨.generate wanted only architecture dryRun force, file⟩)
    (loaded : Configuration.load t.tree given.environment given.homes t.tree.workplace.toPath
      (file.map .ofText) = .ok c)
    (workplace : t.tree.workplace.toPath.IsWritten)
    (enough : ∀ paths, Discovery.find t.tree c.locations.blueprints wanted = .ok paths →
      paths.length ≤ count)
    (outset : Outset given (.ofConfiguration c) ((Workbench.ofConfiguration c).Finds wanted t.tree)
      count place t.tree)
    (new : ∀ name m, manifestIn? t.tree place name = some m →
      m.executionId ≠ some given.executionId)
    (ends : run given arguments t = (.finished code, after)) :
    (code = 1 ∧ after.tree = t.tree ∧
      ((∃ fault, Generator.loadAll c.generators = .error (.refused fault)) ∨
        t.tree.isDirectory c.locations.blueprints = .ok false)) ∨
    ∃ registry paths outcomes accounts more,
      t.tree.isDirectory c.locations.blueprints = .ok true ∧
      Discovery.find t.tree c.locations.blueprints wanted = .ok paths ∧
      (Workbench.ofConfiguration c).reader.readAll t.tree (paths.map Path.toText) = .ok outcomes ∧
      Proceeds given (.ofConfiguration c) registry ⟨wanted, only, architecture, ⟨dryRun, force⟩⟩ 0
        (.fresh (Workbench.ofConfiguration c).store) t.tree outcomes accounts after.tree ∧
      after.emissions = t.emissions ++ accounts.flatMap (·.shown) ++ more ∧
      (code = 0 ∨ code = 1) ∧
      (code = 1 ↔ ∃ account ∈ accounts, (∃ fault, account.fate = .unreadable fault) ∨
        (∃ findings, account.fate = .rejected findings) ∨
        ∃ output kept, account.fate = .generated output kept ∧
          ∃ entry ∈ output.entries, entry.status = .error) ∧
      (∀ account ∈ accounts, ∀ fault, account.fate ≠ .unknown fault) ∧
      (dryRun = true → after.tree = t.tree) ∧
      (dryRun = false → Balanced given.executionId (Workbench.ofConfiguration c).store place
        accounts t.tree after.tree) := by
  have hends := conclude_of_run asked ends
  rw [runCommand, outcome_bind, outcome_load loaded] at hends
  obtain hearly | ⟨configured, paths, outcomes, accounts, more, hload, hroot, hfind, hread,
    hproceeds, hemissions, hcode⟩ := finished_of_generate hends
  · exact .inl hearly
  · have hknown : ∀ account ∈ accounts, ∀ fault, account.fate ≠ .unknown fault :=
      fun account haccount fault =>
        hproceeds.known (Configuration.available_ne_nil loaded) fault account haccount
    have hlength := (BlueprintReader.readAll_eq_ok_iff.mp hread).length_eq
    have hsnapshot : ∀ g ∈ Generator.snapshot :: configured, g = Generator.snapshot := by
      simpa using Generator.eq_snapshot_of_loadAll hload
    refine .inr ⟨_, paths, outcomes, accounts, more, hroot, hfind, hread, hproceeds, hemissions,
      ?_, ?_, hknown, fun dry => hproceeds.preview dry, fun live => ?_⟩
    · rw [hcode]
      split <;> simp
    · have hone : code = 1 ↔ accounts.any (·.fate.isFailure) = true := by
        rw [hcode]
        split <;> simp_all
      exact hone.trans (List.any_eq_true.trans (exists_congr fun account =>
        and_congr_right fun haccount => Fate.isFailure_iff (hknown account haccount)))
    · exact hproceeds.balanced outset (Configuration.output_isWritten workplace loaded) hsnapshot
        live rfl (by simpa [← hlength] using enough _ hfind)
        (fun path b hb => ⟨paths, outcomes, path, hfind, hread, hb⟩) new

/-- A file tree with one blueprint. -/
def oneBlueprint : FileTree :=
  ⟨[], [(["blueprints"], .directory), (["blueprints", "a.yaml"],
    .file (Utf8.encode "entity: A\nfields: [{name: id, type: uuid}]"))], [], 0⟩

/-- Circumstances in which no runs are kept. -/
def keepingNothing : Circumstances :=
  ⟨[(enabledVariable, "0")], ⟨"/", []⟩, "e", fun _ => someDay⟩

/-- The standard configuration, in which the one blueprint is found. -/
lemma exists_standard : ∃ c, Configuration.load oneBlueprint keepingNothing.environment
      keepingNothing.homes oneBlueprint.workplace.toPath none = .ok c ∧
    c.locations = ⟨.ofText "/blueprints", .ofText "/"⟩ ∧
    (Workbench.ofConfiguration c).store = ⟨"/.blueprintx/history", false⟩ ∧
    Discovery.find oneBlueprint c.locations.blueprints ⟨none, none⟩ =
      .ok [.ofText "/blueprints/a.yaml"] ∧
    ∀ b, (Workbench.ofConfiguration c).Finds ⟨none, none⟩ oneBlueprint b →
      (Workbench.ofConfiguration c).snapshotFile b =
        .ofText "/.blueprintx/snapshots/global/a.json" := by
  have facts : (Configuration.load oneBlueprint keepingNothing.environment keepingNothing.homes
      oneBlueprint.workplace.toPath none).toOption.map (fun c => (c.locations,
        (Workbench.ofConfiguration c).store,
        ((Workbench.ofConfiguration c).reader.readAll oneBlueprint
          ["/blueprints/a.yaml"]).toOption.map
            fun outcomes => outcomes.map fun outcome => outcome.2.toOption.map snapshotPath)) =
      some (⟨.ofText "/blueprints", .ofText "/"⟩, ⟨"/.blueprintx/history", false⟩,
        some [some ".blueprintx/snapshots/global/a.json"]) := by decide +kernel
  obtain ⟨c, hload, hfacts⟩ := Option.map_eq_some_iff.mp facts
  simp only [Prod.mk.injEq] at hfacts
  obtain ⟨hlocations, hstore, hread⟩ := hfacts
  have hfind : Discovery.find oneBlueprint c.locations.blueprints ⟨none, none⟩ =
      .ok [.ofText "/blueprints/a.yaml"] := by
    rw [hlocations]
    decide +kernel
  refine ⟨c, toOption_eq_some_iff.mp hload, hlocations, hstore, hfind, ?_⟩
  rintro b ⟨paths, outcomes, path, hpaths, houtcomes, hmem⟩
  obtain rfl := Except.ok.inj (hpaths.symm.trans hfind)
  obtain ⟨found, hfound, hsnapshots⟩ := Option.map_eq_some_iff.mp hread
  obtain rfl := Except.ok.inj (houtcomes.symm.trans (toOption_eq_some_iff.mp hfound))
  obtain ⟨outcome, rfl, houtcome⟩ := List.map_eq_singleton_iff.mp hsnapshots
  obtain rfl := List.mem_singleton.mp hmem
  have hpath : snapshotPath b = ".blueprintx/snapshots/global/a.json" := Option.some.inj houtcome
  change c.locations.output.child (Writer.relativeText (snapshotPath b)) = _
  rw [hlocations, hpath]
  decide +kernel

/-- Nothing lies below the root of the store. -/
lemma vacant_oneBlueprint (name : String) (rest : Place) :
    oneBlueprint.node? ([".blueprintx", "history"] ++ [name] ++ rest) = none := by
  have sound : oneBlueprint.Sound := by decide +kernel
  rw [List.append_assoc]
  exact sound.below (by decide +kernel) (by simp)

/-- An invocation can start at one blueprint. -/
lemma outset_oneBlueprint (store : (Workbench.ofConfiguration c).store =
      ⟨"/.blueprintx/history", false⟩)
    (snapshot : ∀ b, (Workbench.ofConfiguration c).Finds ⟨none, none⟩ oneBlueprint b →
      (Workbench.ofConfiguration c).snapshotFile b =
        .ofText "/.blueprintx/snapshots/global/a.json") :
    Outset keepingNothing (.ofConfiguration c)
      ((Workbench.ofConfiguration c).Finds ⟨none, none⟩ oneBlueprint) 1
      [".blueprintx", "history"] oneBlueprint where
  sound := by decide +kernel
  noLinks := noLinks_of_nodes (by simp [oneBlueprint])
  home := by simp [store, HistoryStore.root?, HistoryStore.isEnabled]
  apart := by
    intro b hb p hp
    have hplace : oneBlueprint.resolve (.ofText "/.blueprintx/snapshots/global/a.json") =
        .ok [".blueprintx", "snapshots", "global", "a.json"] := by decide +kernel
    rw [snapshot b hb, hplace] at hp
    cases hp
    decide
  unique := by simp [keepingNothing, someDay]
  distinct := by
    rintro n n' hn' ⟨hn, -⟩
    omega
  vacant := fun n name _ => by simpa using vacant_oneBlueprint name []
  workplace := by simp [oneBlueprint]
  root := by simp [store, HistoryStore.root?, HistoryStore.isEnabled]
  snapshots := by
    rintro b hb n name hname ⟨-, hsuffix⟩
    rw [snapshot b hb] at hname
    have hplain : ∀ name ∈ (Path.ofText "/.blueprintx/snapshots/global/a.json").names,
        '1' ∉ name.toList := by decide +kernel
    exact hplain name hname (hsuffix.subset (by simp [keepingNothing, someDay]))

/-- The snapshot of one blueprint is written. -/
theorem run_generate_balanced_oneBlueprint :
    ∃ c accounts after, Configuration.load oneBlueprint keepingNothing.environment
        keepingNothing.homes oneBlueprint.workplace.toPath none = .ok c ∧
      run keepingNothing ["generate"] ⟨oneBlueprint, [], []⟩ = (.finished 0, after) ∧
      (after.tree.contents? [".blueprintx", "snapshots", "global", "a.json"]).isSome = true ∧
      Balanced "e" (Workbench.ofConfiguration c).store [".blueprintx", "history"] accounts
        oneBlueprint after.tree := by
  obtain ⟨c, loaded, hlocations, hstore, hfind, hsnapshot⟩ := exists_standard
  obtain ⟨hcode, hwritten⟩ :
      (run keepingNothing ["generate"] ⟨oneBlueprint, [], []⟩).1 = .finished 0 ∧
      ((run keepingNothing ["generate"] ⟨oneBlueprint, [], []⟩).2.tree.contents?
        [".blueprintx", "snapshots", "global", "a.json"]).isSome = true := by decide +kernel
  rcases ends : run keepingNothing ["generate"] ⟨oneBlueprint, [], []⟩ with ⟨code, after⟩
  rw [ends] at hcode hwritten
  obtain rfl : code = .finished 0 := hcode
  have outset := outset_oneBlueprint hstore hsnapshot
  have asked : Invocation.ofArguments? ["generate"] =
      some ⟨.generate ⟨none, none⟩ none none false false, none⟩ := by decide +kernel
  have new : ∀ name m, manifestIn? oneBlueprint [".blueprintx", "history"] name = some m →
      m.executionId ≠ some keepingNothing.executionId := by
    intro name m hm
    rw [manifestIn?, FileTree.contents?, vacant_oneBlueprint] at hm
    cases hm
  obtain ⟨hone, -⟩ | ⟨_, _, _, accounts, _, -, -, -, -, -, -, -, -, -, hbalanced⟩ :=
    run_generate_balanced asked loaded ⟨.inr (.inl rfl), by simp [oneBlueprint, Place.toPath]⟩
      (by simp [hfind]) outset new ends
  · cases hone
  · exact ⟨c, accounts, after, loaded, rfl, hwritten, hbalanced rfl⟩

/-- Where there is no directory of blueprints no blueprint fails, and still the exit code
is 1. -/
theorem run_generate_missing :
    ∃ c, Configuration.load (empty []) keepingNothing.environment keepingNothing.homes
        (empty []).workplace.toPath none = .ok c ∧
      Discovery.find (empty []) c.locations.blueprints ⟨none, none⟩ = .ok [] ∧
      (run keepingNothing ["generate"] ⟨empty [], [], []⟩).1 = .finished 1 := by
  have facts : (Configuration.load (empty []) keepingNothing.environment keepingNothing.homes
      (empty []).workplace.toPath none).toOption.map (·.locations) =
      some ⟨.ofText "/blueprints", .ofText "/"⟩ := by decide +kernel
  obtain ⟨c, hload, hlocations⟩ := Option.map_eq_some_iff.mp facts
  refine ⟨c, toOption_eq_some_iff.mp hload, ?_, by decide +kernel⟩
  rw [hlocations]
  decide +kernel

end Program

end Scaffold
