import Mathlib.Logic.Function.Basic
import Scaffold.Proofs.Files.Avoiding
import Scaffold.Proofs.History.Holdings

/-!
Recorders at work in one root.

A recorder carries out the steps of its recording one by one. It may fail at any step and
then cleans up, file by file, and it may be killed at any time. What its steps do inside
the directory of its run depends on nothing but what is there, so they can be followed on
the contents of this directory alone.

* `Task`, `Recorder`: what is to be recorded, and how far this has come.
* `Action`, `Recorder.act?`: what a recorder can do next; `World`, `World.play`: several
  recorders whose actions come in any order.
* `Step.effect`, `effects`: what steps do to the contents of the directory.
* `Task.Plan`: the steps of a recording, cut in front of the renaming of its manifest.
* `perform_of_staysIn`: a step inside the directory does what its effect says.
-/

namespace Scaffold

open Files FileTree

variable {tree next : FileTree} {root directory path : Path} {place : Place} {name : String}

/-! ### What recorders do -/

/-- A run that is to be recorded. -/
structure Task where
  /-- What the recording takes from outside. -/
  surroundings : Surroundings
  /-- The sequence. -/
  sequence : Number.Binary64
  /-- The context. -/
  context : List (Document × Document)
  /-- The blueprint. -/
  blueprint : Blueprint
  /-- The path of the blueprint. -/
  relative : String
  /-- The journaled entries. -/
  entries : List OutputEntry

namespace Task

/-- The name of the run. -/
def id (task : Task) : String :=
  runName task.surroundings task.blueprint

/-- The recording. -/
def recording (root : Path) (task : Task) : Recording :=
  recordingOf root task.surroundings task.sequence task.context task.blueprint task.relative
    task.entries

/-- The path of the manifest. -/
def manifestPath (root : Path) (task : Task) : Path :=
  (root.child task.id).child Manifest.fileName

end Task

/-- How far a recording has come. -/
inductive Phase
  /-- Some steps are left. -/
  | working (left : List Step)
  /-- The recording has failed, and what it has left behind is taken away. -/
  | cleaning

/-- A process that records a run. -/
structure Recorder where
  /-- The run. -/
  task : Task
  /-- How far the recording has come. -/
  phase : Phase
  /-- Whether the process has not been killed. -/
  alive : Bool

/-- Whether a step gives a manifest its name. -/
def Files.Step.publishes (manifest : Path) : Step → Bool
  | .replace _ target => target == manifest
  | _ => false

namespace Recorder

/-- A recorder that has done nothing yet. -/
def start (root : Path) (task : Task) : Recorder :=
  ⟨task, .working (task.recording root).steps, true⟩

/-- Whether a manifest has got its name. -/
def isPublished (root : Path) (r : Recorder) : Bool :=
  match r.phase with
  | .working left => (r.task.recording root).refusal.isNone &&
      left.all fun step => !step.publishes (r.task.manifestPath root)
  | .cleaning => false

end Recorder

/-- What a recorder can do at one time. -/
inductive Action
  /-- The next step is tried; when no step is left, a recording that is refused is given
  up. -/
  | advance
  /-- The next step fails. -/
  | fail
  /-- Some of the bytes that are to be put at the end of a file are written. -/
  | write (count : Nat)
  /-- A directory on the path of the root is made. -/
  | enter (count : Nat)
  /-- A file in the directory of the run is taken away, or the directory when it is
  empty. -/
  | clean (place : Place)
  /-- The process is killed. -/
  | kill

/-- A recorder and the tree after an action, if the action is possible. Once the manifest
has its name, faults are passed over. -/
def Recorder.act? (root : Path) (action : Action) (r : Recorder) (tree : FileTree) :
    Option (Recorder × FileTree) :=
  if r.alive then
    match action with
    | .advance =>
      match r.phase with
      | .working (step :: left) =>
        match tree.perform step with
        | (none, next) => some ({ r with phase := .working left }, next)
        | (some _, next) => some ({ r with phase := .cleaning }, next)
      | .working [] =>
        if (r.task.recording root).refusal.isSome then some ({ r with phase := .cleaning }, tree)
        else none
      | .cleaning => none
    | .fail =>
      match r.phase with
      | .working (_ :: _) =>
        if r.isPublished root then none else some ({ r with phase := .cleaning }, tree)
      | _ => none
    | .write count =>
      match r.phase with
      | .working (.append path contents :: left) =>
        match tree.append path (contents.take count) with
        | .ok next =>
          some ({ r with phase := .working (.append path (contents.drop count) :: left) }, next)
        | .error _ => none
      | _ => none
    | .enter count =>
      match r.phase with
      | .working (.ensureDirectory path :: _) =>
        match tree.makeDirectory (path.upTo count) with
        | .ok next => some (r, next)
        | .error _ => none
      | _ => none
    | .clean p =>
      match r.phase, tree.locate false (root.child r.task.id) with
      | .cleaning, .ok ⟨directory, some .directory⟩ =>
        if directory <+: p ∧ tree.below p = [] then some (r, tree.remove p) else none
      | _, _ => none
    | .kill => some ({ r with alive := false }, tree)
  else none

/-- Recorders in one tree. -/
structure World where
  /-- The tree. -/
  tree : FileTree
  /-- The recorders. -/
  recorders : List Recorder

namespace World

/-- The world after an action of one of the recorders. -/
def act? (root : Path) (turn : Nat × Action) (w : World) : Option World := do
  let r ← w.recorders[turn.1]?
  let (r, tree) ← r.act? root turn.2 w.tree
  return ⟨tree, w.recorders.set turn.1 r⟩

/-- The world after actions of the recorders one after another. -/
def play (root : Path) : List (Nat × Action) → World → Option World
  | [], w => some w
  | turn :: turns, w => do play root turns (← w.act? root turn)

end World

/-! ### What steps do inside a directory -/

/-- What the files directly in a directory hold. -/
def shelf (tree : FileTree) (place : Place) (name : String) : Option Bytes :=
  tree.contents? (place ++ [name])

/-- What a step does to the files in the directory of its run. -/
def Files.Step.effect : Step → (String → Option Bytes) → String → Option Bytes
  | .create path, files => Function.update files path.name (some [])
  | .append path contents, files =>
    Function.update files path.name ((files path.name).map (· ++ contents))
  | .replace source target, files =>
    Function.update (Function.update files source.name none) target.name (files source.name)
  | _, files => files

/-- What steps do one after another. -/
def effects (steps : List Step) (files : String → Option Bytes) : String → Option Bytes :=
  steps.foldl (fun files step => step.effect files) files

@[simp] lemma effects_nil (files : String → Option Bytes) : effects [] files = files := rfl

@[simp] lemma effects_cons (step : Step) (steps : List Step) (files : String → Option Bytes) :
    effects (step :: steps) files = effects steps (step.effect files) := rfl

lemma effects_append (steps more : List Step) (files : String → Option Bytes) :
    effects (steps ++ more) files = effects more (effects steps files) :=
  List.foldl_append

/-- A path denotes something directly in a directory. -/
def IsInside (directory path : Path) : Prop :=
  ∃ name, path = inside directory name ∧ name ≠ "." ∧ name ≠ ".."

/-- A step touches nothing but files in a directory. -/
def Files.Step.StaysIn (directory : Path) : Step → Prop
  | .create path => IsInside directory path
  | .append path _ => IsInside directory path
  | .replace source target =>
    IsInside directory source ∧ IsInside directory target ∧ source.name ≠ target.name
  | .sync _ => True
  | _ => False

/-- A step leaves the file of a name alone. -/
def Files.Step.Spares (name : String) : Step → Prop
  | .create path => path.name ≠ name
  | .append path _ => path.name ≠ name
  | .replace source target => source.name ≠ name ∧ target.name ≠ name
  | _ => True

lemma effect_of_spares {step : Step} (h : step.Spares name) (files : String → Option Bytes) :
    step.effect files name = files name := by
  cases step with
  | create path => exact Function.update_of_ne (Ne.symm h) _ _
  | append path contents => exact Function.update_of_ne (Ne.symm h) _ _
  | replace source target =>
    rw [Files.Step.effect, Function.update_of_ne (Ne.symm h.2), Function.update_of_ne (Ne.symm h.1)]
  | ensureDirectory path => rfl
  | makeDirectory path => rfl
  | sync path => rfl

/-- Two parts of some bytes that are written one after the other are the whole. -/
lemma effect_append_drop (path : Path) (contents : Bytes) (count : Nat)
    (files : String → Option Bytes) :
    (Step.append path (contents.drop count)).effect
        ((Step.append path (contents.take count)).effect files) =
      (Step.append path contents).effect files := by
  have happend : (fun before : Bytes => (before ++ contents.take count) ++ contents.drop count) =
      (· ++ contents) := by
    funext before
    rw [List.append_assoc, List.take_append_drop]
  rw [Files.Step.effect, Files.Step.effect, Files.Step.effect, Function.update_self,
    Function.update_idem, Option.map_map]
  exact congrArg (fun f => Function.update files path.name ((files path.name).map f)) happend

/-- A path inside a directory leads into it. -/
lemma IsInside.into (h : IsInside directory path)
    (located : tree.locate true directory = .ok ⟨place, some .directory⟩) :
    tree.Into path place path.name := by
  obtain ⟨name, rfl, hdot, hup⟩ := h
  rw [name_inside]
  have hparent : (inside directory name).parent = directory := by
    simp [inside, Path.parent]
  exact ⟨by rw [hparent, located], by rw [hparent]; rfl, hdot, hup⟩

lemma shelf_set (name : String) (contents : Bytes) :
    shelf (tree.set (place ++ [name]) (.file contents)) place =
      Function.update (shelf tree place) name (some contents) := by
  funext other
  rw [shelf, contents?_set (by simp)]
  by_cases hname : other = name
  · simp [hname]
  · rw [Function.update_of_ne hname, if_neg (by simpa using hname)]
    rfl

lemma shelf_remove (name : String) :
    shelf (tree.remove (place ++ [name])) place = Function.update (shelf tree place) name none := by
  funext other
  rw [shelf, contents?_remove (by simp)]
  by_cases hname : other = name
  · simp [hname]
  · rw [Function.update_of_ne hname, if_neg (by simpa using hname)]
    rfl

/-- What a step has done inside a directory that holds nothing but files. -/
structure Did (place : Place) (tree : FileTree) (step : Step) (fault : Option Fault)
    (next : FileTree) : Prop where
  /-- Nothing else has changed. -/
  within : Within (fun p => ∃ name, p = place ++ [name]) tree next
  /-- The directory still holds nothing but files. -/
  vacant : ∀ name, next.Vacant (place ++ [name])
  /-- A step that fails does nothing. -/
  failed : fault ≠ none → next = tree
  /-- Otherwise it does what its effect says. -/
  done : fault = none → shelf next place = step.effect (shelf tree place)

/-- **A step inside a directory** does what its effect says, or nothing. -/
lemma perform_of_staysIn (located : tree.locate true directory = .ok ⟨place, some .directory⟩)
    (vacant : ∀ name, tree.Vacant (place ++ [name])) {step : Step}
    (stays : step.StaysIn directory) :
    Did place tree step (tree.perform step).1 (tree.perform step).2 := by
  have unlinked : tree.Unlinked place := fun name target => (vacant name).not_link target
  have hdir : tree.node? place = some .directory := node?_of_locate located
  have hfault : ∀ fault, Did place tree step (some fault) tree := fun fault =>
    ⟨.refl _ _, vacant, fun _ => rfl, fun h => by cases h⟩
  -- a file gets contents
  have hset : ∀ name contents,
      Within (fun p => ∃ name, p = place ++ [name]) tree
          (tree.set (place ++ [name]) (.file contents)) ∧
        ∀ other, (tree.set (place ++ [name]) (.file contents)).Vacant (place ++ [other]) :=
    fun name contents => ⟨.set (vacant name) (by simpa using hdir) _ ⟨name, rfl⟩,
      fun other => (vacant other).set (by simp) _⟩
  cases step with
  | ensureDirectory path => cases stays
  | makeDirectory path => cases stays
  | sync path => exact ⟨.refl _ _, vacant, fun _ => rfl, fun _ => rfl⟩
  | create path =>
    rw [perform]
    obtain ⟨changed, hcreate, hsettle⟩ | ⟨fault, hsettle⟩ := settle_cases tree (tree.write path [])
    · rw [hsettle]
      obtain ⟨-, rfl⟩ := (stays.into located).write unlinked hcreate
      exact ⟨(hset _ _).1, (hset _ _).2, fun h => absurd rfl h, fun _ => shelf_set _ _⟩
    · rw [hsettle]
      exact hfault fault
  | append path contents =>
    rw [perform]
    obtain ⟨changed, happend, hsettle⟩ | ⟨fault, hsettle⟩ :=
      settle_cases tree (tree.append path contents)
    · rw [hsettle]
      obtain ⟨before, hbefore, rfl⟩ := (stays.into located).append unlinked happend
      refine ⟨(hset _ _).1, (hset _ _).2, fun h => absurd rfl h, fun _ => ?_⟩
      have hshelf : shelf tree place path.name = some before := contents?_eq_some_iff.mpr hbefore
      rw [shelf_set, Files.Step.effect, hshelf]
      rfl
    · rw [hsettle]
      exact hfault fault
  | replace source target =>
    obtain ⟨hsource, htarget, hne⟩ := stays
    rw [perform]
    obtain ⟨changed, hrename, hsettle⟩ | ⟨fault, hsettle⟩ :=
      settle_cases tree (tree.rename source target)
    · rw [hsettle]
      obtain ⟨node, hnode, -, rfl⟩ :=
        (hsource.into located).rename (htarget.into located) unlinked hrename
      obtain ⟨contents, rfl⟩ : ∃ contents, node = .file contents := by
        rcases vacant source.name with h | ⟨contents, h⟩
        · rw [h] at hnode
          cases hnode
        · exact ⟨contents, Option.some.inj (hnode.symm.trans h)⟩
      have hremove : Within (fun p => ∃ name, p = place ++ [name]) tree
          (tree.remove (place ++ [source.name])) := .remove (vacant _) ⟨_, rfl⟩
      have hput := hremove.trans (.set ((vacant target.name).remove (by simp))
        (by simpa using hremove.keeps.directory _ hdir) contents ⟨target.name, rfl⟩)
      refine ⟨hput, fun name => ((vacant name).remove (by simp)).set (by simp) _,
        fun h => absurd rfl h, fun _ => ?_⟩
      have hshelf : shelf tree place source.name = some contents := contents?_eq_some_iff.mpr hnode
      rw [shelf_set, shelf_remove, Files.Step.effect, hshelf]
    · rw [hsettle]
      exact hfault fault

/-! ### The steps of a recording -/

section Plan

variable {task : Task} {other label token : String} {contents : Bytes} {inner finale : List Step}

lemma temporaryPath_inside (directory : Path) (name label token : String) :
    temporaryPath (inside directory name) label token =
      inside directory (temporaryName label token) := by
  simp [temporaryPath, inside, Path.parent, temporaryName]

/-- The steps of an atomic write stay in the directory of the file. -/
lemma staysIn_atomicSteps (final : IsInside directory (inside directory name))
    (temporary : IsInside directory (inside directory other)) (ne : other ≠ name)
    (chunks : List Bytes) :
    ∀ step ∈ atomicSteps (inside directory name) (inside directory other) chunks,
      step.StaysIn directory := by
  intro step hstep
  simp only [atomicSteps, List.cons_append, List.mem_cons, List.mem_append, List.mem_map,
    List.not_mem_nil, or_false] at hstep
  rcases hstep with rfl | ⟨chunk, -, rfl⟩ | rfl | rfl | rfl
  · exact temporary
  · exact temporary
  · trivial
  · exact ⟨temporary, final, by simpa using ne⟩
  · trivial

/-- The steps of an atomic write put a file in its place and leave no temporary file. -/
lemma effects_atomicSteps (contents : Bytes) (files : String → Option Bytes) :
    effects (atomicSteps (inside directory name) (inside directory other) [contents]) files =
      Function.update (Function.update files other none) name (some contents) := by
  simp [atomicSteps, Files.Step.effect]

/-- The name of a kept file is one in the directory. -/
lemma isInside_backup (directory : Path) (path : Option String) (index : Nat) :
    IsInside directory (inside directory (backupName path index)) :=
  ⟨_, rfl, (backupName_isName path index).2.1, backupName_ne_up path index⟩

lemma isInside_temporary (directory : Path) (label token : String) :
    IsInside directory (inside directory (temporaryName label token)) :=
  ⟨_, rfl, temporaryName_ne_dot label token, temporaryName_ne_up label token⟩

lemma isInside_manifest (directory : Path) :
    IsInside directory (inside directory Manifest.fileName) :=
  ⟨_, rfl, by decide, by decide⟩

/-- The keeping of replaced bytes stays in the directory and leaves the manifest alone. -/
lemma staysIn_backupSteps (directory : Path) (token : String) (index : Nat)
    (entries : List OutputEntry) :
    ∀ step ∈ backupSteps directory token index entries,
      step.StaysIn directory ∧ step.Spares Manifest.fileName := by
  induction entries generalizing index with
  | nil => simp [backupSteps]
  | cons entry entries ih =>
    intro step hstep
    rw [backupSteps_cons, List.mem_append] at hstep
    rcases hstep with hstep | hstep
    · cases hkept : keptBytes? entry with
      | none => simp [hkept] at hstep
      | some contents =>
        have hchild := Path.child_name (backupName_isName (some entry.path) index) directory
        simp only [hkept] at hstep
        rw [show directory.child _ = inside directory _ from hchild, temporaryPath_inside] at hstep
        refine ⟨staysIn_atomicSteps (isInside_backup _ _ _) (isInside_temporary _ _ _)
          (backupName_ne_temporary _ _ _ _).symm _ step hstep, ?_⟩
        have hbackup := backupName_ne_manifest (some entry.path) index
        have htemporary := (fileName_ne_temporary "backup" token).symm
        simp only [atomicSteps, List.cons_append, List.mem_cons, List.mem_append, List.mem_map,
          List.not_mem_nil, or_false] at hstep
        rcases hstep with rfl | ⟨chunk, -, rfl⟩ | rfl | rfl | rfl <;>
          simp [Files.Step.Spares, hbackup, htemporary]
    · exact ih _ step hstep

/-- The keeping of replaced bytes leaves them under their names, and nothing else has
changed but the temporary file. -/
lemma effects_backupSteps (directory : Path) (token : String) (index : Nat)
    (entries : List OutputEntry) (files : String → Option Bytes) :
    (∀ name contents, KeepsUnder index entries name contents →
      effects (backupSteps directory token index entries) files name = some contents) ∧
    ∀ name, (∀ contents, ¬ KeepsUnder index entries name contents) →
      name ≠ temporaryName "backup" token →
      effects (backupSteps directory token index entries) files name = files name := by
  induction entries generalizing index files with
  | nil =>
    refine ⟨fun name contents h => ?_, fun _ _ _ => rfl⟩
    obtain ⟨i, entry, hentry, -⟩ := h
    simp at hentry
  | cons entry entries ih =>
    rw [backupSteps_cons, effects_append]
    cases hkept : keptBytes? entry with
    | none =>
      simp only [effects_nil]
      obtain ⟨hfiles, hothers⟩ := ih (index + 1) files
      refine ⟨fun name contents h => ?_, fun name h => hothers name fun contents hunder =>
        h contents (keepsUnder_cons.mpr (.inr hunder))⟩
      rcases keepsUnder_cons.mp h with ⟨hfirst, -⟩ | h
      · rw [hkept] at hfirst
        cases hfirst
      · exact hfiles name contents h
    | some bytes =>
      have hchild := Path.child_name (backupName_isName (some entry.path) index) directory
      have hne := (backupName_ne_temporary (some entry.path) index "backup" token).symm
      simp only
      rw [show directory.child _ = inside directory _ from hchild, temporaryPath_inside,
        effects_atomicSteps]
      obtain ⟨hfiles, hothers⟩ := ih (index + 1) (Function.update
        (Function.update files (temporaryName "backup" token) none)
        (backupName (some entry.path) index) (some bytes))
      refine ⟨fun name contents h => ?_, fun name h htemporary => ?_⟩
      · rcases keepsUnder_cons.mp h with ⟨hfirst, rfl⟩ | h
        · -- the first file is not touched by those that follow
          rw [hkept, Option.some.injEq] at hfirst
          subst hfirst
          rw [hothers _ _ hne.symm, Function.update_self]
          rintro contents ⟨i, other, -, -, hname⟩
          have := backupName_inj hname
          omega
        · exact hfiles name contents h
      · rw [hothers name (fun contents hunder => h contents (keepsUnder_cons.mpr (.inr hunder)))
          htemporary, Function.update_of_ne, Function.update_of_ne htemporary]
        rintro rfl
        exact h bytes (keepsUnder_cons.mpr (.inl ⟨hkept, rfl⟩))

namespace Task

/-- The steps of a recording: the root and the directory of the run are made, this is
filled, and then the manifest gets its name, unless the recording is refused. -/
structure Plan (root : Path) (task : Task) (inner finale : List Step) : Prop where
  /-- The steps. -/
  steps : (task.recording root).steps =
    .ensureDirectory root :: .makeDirectory (root.child task.id) :: (inner ++ finale)
  /-- All but the first two stay in the directory of the run. -/
  stays : ∀ step ∈ inner ++ finale, step.StaysIn (root.child task.id)
  /-- There is no manifest before the end. -/
  spares : ∀ step ∈ inner, step.Spares Manifest.fileName
  /-- The end. -/
  finale : ((task.recording root).refusal ≠ none ∧ finale = []) ∨
    (task.recording root).refusal = none ∧ ∃ temporary,
      finale = [.replace temporary (task.manifestPath root), .sync (root.child task.id)]

lemma manifestPath_eq (root : Path) (task : Task) :
    task.manifestPath root = inside (root.child task.id) Manifest.fileName :=
  Path.child_name fileName_isName _

/-- A recording has the name of the run, and its directory, also when it is refused. -/
lemma recording_id_directory (root : Path) (task : Task) :
    (task.recording root).id = task.id ∧ (task.recording root).directory = root.child task.id := by
  simp only [recording, recordingOf, Task.id]
  split
  · simp only [and_self]
  · split <;> simp only [and_self]

/-- The steps of a recording that is not refused. -/
lemma steps_of_carried (carried : (task.recording root).refusal = none) :
    ∃ known bytes, RunContext.ofEntries task.context = .ok known ∧
      (manifestFor task.surroundings task.sequence known task.blueprint task.relative
        task.entries).fileBytes = .ok bytes ∧
      (task.recording root).steps = .ensureDirectory root ::
        .makeDirectory (root.child task.id) ::
          (backupSteps (root.child task.id) task.surroundings.token 0 task.entries ++
            atomicSteps (task.manifestPath root)
              (inside (root.child task.id) (temporaryName "manifest" task.surroundings.token))
              [bytes]) := by
  obtain ⟨known, bytes, hknown, hbytes, hrecording⟩ := recordingOf_of_carried carried
  refine ⟨known, bytes, hknown, hbytes, ?_⟩
  rw [recording, hrecording, ← temporaryPath_inside, ← manifestPath_eq]
  rfl

/-- Every recording has such steps. -/
lemma exists_plan (root : Path) (task : Task) : ∃ inner finale, task.Plan root inner finale := by
  have hbackups := staysIn_backupSteps (root.child task.id) task.surroundings.token 0 task.entries
  by_cases hcarried : (task.recording root).refusal = none
  · obtain ⟨known, bytes, -, -, hsteps⟩ := steps_of_carried hcarried
    have hparent : (task.manifestPath root).parent = root.child task.id := by
      rw [manifestPath_eq]
      simp [inside, Path.parent]
    have hne := (fileName_ne_temporary "manifest" task.surroundings.token).symm
    have hstays := staysIn_atomicSteps (isInside_manifest (root.child task.id))
      (isInside_temporary _ "manifest" task.surroundings.token) hne [bytes]
    rw [← manifestPath_eq] at hstays
    have hspares : ∀ path ∈ [inside (root.child task.id)
        (temporaryName "manifest" task.surroundings.token)], path.name ≠ Manifest.fileName := by
      simpa using hne
    generalize inside (root.child task.id) (temporaryName "manifest" task.surroundings.token) =
      temporary at hsteps hstays hspares
    have hatomic : atomicSteps (task.manifestPath root) temporary [bytes] =
        [.create temporary, .append temporary bytes, .sync temporary] ++
          [.replace temporary (task.manifestPath root), .sync (root.child task.id)] := by
      rw [← hparent]
      rfl
    rw [hatomic, ← List.append_assoc] at hsteps
    rw [hatomic] at hstays
    refine ⟨_, _, hsteps, ?_, ?_, .inr ⟨hcarried, temporary, rfl⟩⟩
    · rw [List.append_assoc]
      exact List.forall_mem_append.mpr ⟨fun step hstep => (hbackups step hstep).1, hstays⟩
    · refine List.forall_mem_append.mpr ⟨fun step hstep => (hbackups step hstep).2, ?_⟩
      simpa [Files.Step.Spares] using hspares
  · refine ⟨backupSteps (root.child task.id) task.surroundings.token 0 task.entries, [], ?_,
      by simpa using fun step hstep => (hbackups step hstep).1,
      fun step hstep => (hbackups step hstep).2, .inl ⟨hcarried, rfl⟩⟩
    rw [List.append_nil]
    revert hcarried
    rw [recording, recordingOf]
    cases RunContext.ofEntries task.context with
    | error fault => exact fun _ => rfl
    | ok known =>
      simp only
      cases (manifestFor task.surroundings task.sequence known task.blueprint task.relative
          task.entries).fileBytes with
      | error fault => exact fun _ => rfl
      | ok bytes => exact fun h => absurd rfl h

/-- What the directory of the run holds in the end. -/
def shelf (root : Path) (task : Task) : String → Option Bytes :=
  effects (task.recording root).steps fun _ => none

/-- A run in a store is the one of a task. -/
structure IsKeptAs (task : Task) (r : KeptRun) : Prop where
  /-- The name. -/
  id : r.id = task.id
  /-- The journaled entries. -/
  entries : r.entries = task.entries
  /-- The bytes of the manifest, and the manifest that is read from them. -/
  manifest : ∃ known, RunContext.ofEntries task.context = .ok known ∧
    (manifestFor task.surroundings task.sequence known task.blueprint task.relative
      task.entries).fileBytes = .ok r.bytes ∧
    r.manifest.IsPlainOf (manifestFor task.surroundings task.sequence known task.blueprint
      task.relative task.entries)

/-- **What a recording leaves** when it is not refused: the whole manifest, and all bytes
that it keeps. -/
lemma exists_kept (carried : (task.recording root).refusal = none)
    (unique : '/' ∉ task.surroundings.unique.toList)
    (zero : task.id.toList.contains '\x00' = false) :
    ∃ r : KeptRun, task.IsKeptAs r ∧ task.shelf root Manifest.fileName = some r.bytes ∧
      ∀ name contents, KeepsUnder 0 r.entries name contents →
        task.shelf root name = some contents := by
  obtain ⟨known, bytes, hknown, hbytes, hsteps⟩ := steps_of_carried carried
  obtain ⟨r, hid, hentries, rfl, hplain⟩ := exists_keptRun hknown hbytes unique zero
  obtain ⟨hfiles, -⟩ := effects_backupSteps (root.child task.id) task.surroundings.token 0
    task.entries fun _ => none
  have hshelf : task.shelf root = Function.update (Function.update
      (effects (backupSteps (root.child task.id) task.surroundings.token 0 task.entries)
        fun _ => none) (temporaryName "manifest" task.surroundings.token) none)
      Manifest.fileName (some r.bytes) := by
    rw [shelf, hsteps, manifestPath_eq, effects_cons, effects_cons, effects_append,
      effects_atomicSteps]
    rfl
  refine ⟨r, ⟨hid, hentries, known, hknown, hbytes, hplain⟩, by rw [hshelf, Function.update_self],
    fun name contents hunder => ?_⟩
  rw [hshelf, Function.update_of_ne hunder.ne_manifest,
    Function.update_of_ne (hunder.ne_temporary _ _)]
  exact hfiles name contents (hentries ▸ hunder)

end Task

end Plan

end Scaffold
