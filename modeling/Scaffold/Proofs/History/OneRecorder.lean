import Scaffold.Proofs.History.Recorders

/-!
What one recorder does to a store.

A recorder touches nothing but the directory of its run once the root is there. What this
directory holds fits the steps that are left: there is no manifest until the last step but
one has given it its name, and then everything is there. Neither a failure nor a partial
write nor the clean-up changes this, and what others do elsewhere does not matter.

* `Recorder.Moves`, `moves_of_act?`: what a recorder can do at one time.
* `Progress`, `Settled`: how far a recording has come, seen from the directory of its run.
* `Settled.frame`: what others have moved does not matter.
* `settled_of_perform`, `settled_of_append`, `settled_of_remove`: a step, a partial write,
  and the clean-up after a failure.
* `settled_of_moves`: whatever a recorder does.
-/

namespace Scaffold

open Files FileTree

variable {tree next : FileTree} {root : Path} {place : Place} {r r' : Recorder} {task : Task}
  {inner finale : List Step} {phase : Phase} {action : Action}

/-! ### What an action can do -/

/-- What a recorder can do at one time, case by case. -/
inductive Recorder.Moves (root : Path) (r : Recorder) (tree : FileTree) :
    Recorder → FileTree → Prop
  /-- A step is carried out. -/
  | advanced {step : Step} {left : List Step} {next : FileTree}
    (phase : r.phase = .working (step :: left)) (done : tree.perform step = (none, next)) :
    Moves root r tree { r with phase := .working left } next
  /-- A step turns out to be impossible. -/
  | faulted {step : Step} {left : List Step} {next : FileTree} {fault : Fault}
    (phase : r.phase = .working (step :: left)) (done : tree.perform step = (some fault, next)) :
    Moves root r tree { r with phase := .cleaning } next
  /-- A step fails. -/
  | failed {step : Step} {left : List Step} (phase : r.phase = .working (step :: left))
    (unpublished : r.isPublished root = false) :
    Moves root r tree { r with phase := .cleaning } tree
  /-- A recording that is refused is given up. -/
  | refused (phase : r.phase = .working [])
    (refusal : (r.task.recording root).refusal ≠ none) :
    Moves root r tree { r with phase := .cleaning } tree
  /-- Some bytes are put at the end of a file. -/
  | written {path : Path} {contents : Bytes} {count : Nat} {left : List Step} {next : FileTree}
    (phase : r.phase = .working (.append path contents :: left))
    (done : tree.append path (contents.take count) = .ok next) :
    Moves root r tree { r with phase := .working (.append path (contents.drop count) :: left) } next
  /-- A directory on the path of the root is made. -/
  | entered {path : Path} {count : Nat} {left : List Step} {next : FileTree}
    (phase : r.phase = .working (.ensureDirectory path :: left))
    (done : tree.makeDirectory (path.upTo count) = .ok next) : Moves root r tree r next
  /-- Something in the directory of the run is taken away, or the directory. -/
  | cleaned {directory p : Place} (phase : r.phase = .cleaning)
    (located : tree.locate false (root.child r.task.id) = .ok ⟨directory, some .directory⟩)
    (inside : directory <+: p) (leaf : tree.below p = []) : Moves root r tree r (tree.remove p)
  /-- The process is killed. -/
  | killed : Moves root r tree { r with alive := false } tree

/-- An action does what is possible. -/
lemma moves_of_act? (h : r.act? root action tree = some (r', next)) :
    r.Moves root tree r' next := by
  unfold Recorder.act? at h
  split at h
  swap
  · cases h
  cases action with
  | advance =>
    simp only at h
    split at h
    · next step left hphase =>
      cases hstep : tree.perform step with
      | mk fault after =>
        cases fault with
        | none =>
          simp only [hstep, Option.some.injEq, Prod.mk.injEq] at h
          obtain ⟨rfl, rfl⟩ := h
          exact .advanced hphase hstep
        | some fault =>
          simp only [hstep, Option.some.injEq, Prod.mk.injEq] at h
          obtain ⟨rfl, rfl⟩ := h
          exact .faulted hphase hstep
    · next hphase =>
      split at h
      · next hrefusal =>
        simp only [Option.some.injEq, Prod.mk.injEq] at h
        obtain ⟨rfl, rfl⟩ := h
        exact .refused hphase (by simpa [Option.isSome_iff_ne_none] using hrefusal)
      · cases h
    · cases h
  | fail =>
    simp only at h
    split at h
    · next step left hphase =>
      split at h
      · cases h
      · next hpublished =>
        simp only [Option.some.injEq, Prod.mk.injEq] at h
        obtain ⟨rfl, rfl⟩ := h
        exact .failed hphase (by simpa using hpublished)
    · cases h
  | write count =>
    simp only at h
    split at h
    · next path contents left hphase =>
      split at h
      · next after happend =>
        simp only [Option.some.injEq, Prod.mk.injEq] at h
        obtain ⟨rfl, rfl⟩ := h
        exact .written hphase happend
      · cases h
    · cases h
  | enter count =>
    simp only at h
    split at h
    · next path left hphase =>
      split at h
      · next after hmake =>
        simp only [Option.some.injEq, Prod.mk.injEq] at h
        obtain ⟨rfl, rfl⟩ := h
        exact .entered hphase hmake
      · cases h
    · cases h
  | clean p =>
    simp only at h
    split at h
    · next directory hphase hlocate =>
      split at h
      · next hcond =>
        simp only [Option.some.injEq, Prod.mk.injEq] at h
        obtain ⟨rfl, rfl⟩ := h
        exact .cleaned hphase hlocate hcond.1 hcond.2
      · cases h
    · cases h
  | kill =>
    simp only [Option.some.injEq, Prod.mk.injEq] at h
    obtain ⟨rfl, rfl⟩ := h
    exact .killed

/-! ### One recorder -/

/-- How far a recording has come, seen from the directory of its run. -/
inductive Progress (root : Path) (place : Place) (tree : FileTree) (task : Task)
    (inner finale : List Step) (phase : Phase) : Prop
  /-- Nothing has been done. -/
  | ready (left : phase = .working (.ensureDirectory root ::
      .makeDirectory (root.child task.id) :: (inner ++ finale)))
    (fresh : tree.node? (place ++ [task.id]) = none)
  /-- The root has been made. -/
  | entered (left : phase = .working (.makeDirectory (root.child task.id) :: (inner ++ finale)))
    (fresh : tree.node? (place ++ [task.id]) = none)
  /-- The directory of the run is being filled, and holds no manifest. -/
  | filling (middle : List Step) (left : phase = .working (middle ++ finale))
    (stays : ∀ step ∈ middle, step.StaysIn (root.child task.id))
    (spares : ∀ step ∈ middle, step.Spares Manifest.fileName)
    (there : tree.node? (place ++ [task.id]) = some .directory)
    (due : effects (middle ++ finale) (shelf tree (place ++ [task.id])) = task.shelf root)
    (bare : shelf tree (place ++ [task.id]) Manifest.fileName = none)
  /-- The manifest has its name, and everything is there. -/
  | published (left : List Step) (phase : phase = .working left)
    (carried : (task.recording root).refusal = none)
    (syncs : ∀ step ∈ left, ∃ path, step = .sync path)
    (there : tree.node? (place ++ [task.id]) = some .directory)
    (full : shelf tree (place ++ [task.id]) = task.shelf root)
  /-- The recording has failed, and there is no manifest. -/
  | cleaning (phase : phase = .cleaning)
    (bare : shelf tree (place ++ [task.id]) Manifest.fileName = none)

/-- Where a recorder has come to: its directory holds nothing but files, and what is
there fits the steps that are left. -/
structure Settled (root : Path) (place : Place) (tree : FileTree) (task : Task) (phase : Phase) :
    Prop where
  /-- There are only files. -/
  vacant : ∀ name, tree.Vacant (place ++ [task.id] ++ [name])
  /-- The directory is there, or nothing is. -/
  entry : tree.node? (place ++ [task.id]) = none ∨
    tree.node? (place ++ [task.id]) = some .directory ∧ IsEntry task.id ∧
      task.id.toList.contains '\x00' = false
  /-- What is left to do. -/
  progress : ∃ inner finale, task.Plan root inner finale ∧
    Progress root place tree task inner finale phase

/-- Nothing has changed but in one directory. -/
structure Moved (directory : Place) (tree next : FileTree) : Prop where
  /-- Relative paths start at the same place. -/
  workplace : next.workplace = tree.workplace
  /-- Everything else is as it was. -/
  outside : ∀ p, ¬ directory <+: p → next.node? p = tree.node? p
  /-- Everything lies in a directory. -/
  sound : next.Sound

lemma shelf_of_none (sound : tree.Sound) {directory : Place} (h : tree.node? directory = none) :
    shelf tree directory = fun _ => none := by
  funext name
  rw [shelf, contents?, sound.below (by simp [h]) (by simp)]

/-- Before the end has been carried out nothing is published. -/
lemma isPublished_eq_false (plan : r.task.Plan root inner finale) {front : List Step}
    (phase : r.phase = .working (front ++ finale)) : r.isPublished root = false := by
  rw [Recorder.isPublished, phase]
  rcases plan.finale with ⟨hrefusal, -⟩ | ⟨-, temporary, rfl⟩
  · simp [Option.isNone_eq_false_iff.mpr (Option.isSome_iff_ne_none.mpr hrefusal)]
  · simp [Files.Step.publishes]

/-- A recorder that has published its manifest has everything in its directory. -/
lemma Progress.of_published (h : Progress root place tree r.task inner finale r.phase)
    (plan : r.task.Plan root inner finale) (published : r.isPublished root = true) :
    (r.task.recording root).refusal = none ∧ tree.node? (place ++ [r.task.id]) = some .directory ∧
      shelf tree (place ++ [r.task.id]) = r.task.shelf root := by
  cases h with
  | ready left =>
    rw [← List.cons_append, ← List.cons_append] at left
    simp [isPublished_eq_false plan left] at published
  | entered left =>
    rw [← List.cons_append] at left
    simp [isPublished_eq_false plan left] at published
  | filling middle left => simp [isPublished_eq_false plan left] at published
  | published left phase carried syncs there full => exact ⟨carried, there, full⟩
  | cleaning phase => simp [Recorder.isPublished, phase] at published

/-- Another one has no manifest there. -/
lemma Progress.of_unpublished (h : Progress root place tree r.task inner finale r.phase)
    (sound : tree.Sound) (unpublished : r.isPublished root = false) :
    shelf tree (place ++ [r.task.id]) Manifest.fileName = none := by
  cases h with
  | ready left fresh => rw [shelf_of_none sound fresh]
  | entered left fresh => rw [shelf_of_none sound fresh]
  | filling middle left stays spares there due bare => exact bare
  | published left phase carried syncs there full =>
    -- nothing is left that could publish
    have hall : (left.all fun step => !step.publishes (r.task.manifestPath root)) = true := by
      rw [List.all_eq_true]
      intro step hstep
      obtain ⟨path, rfl⟩ := syncs step hstep
      rfl
    simp [Recorder.isPublished, phase, carried, hall] at unpublished
  | cleaning phase bare => exact bare

/-- The directory of a run that is there is located. -/
lemma Settled.located (h : Settled root place tree task phase)
    (located : tree.locate true root = .ok ⟨place, some .directory⟩) (isName : Path.IsName task.id)
    (there : tree.node? (place ++ [task.id]) = some .directory) :
    tree.locate true (root.child task.id) = .ok ⟨place ++ [task.id], some .directory⟩ := by
  rcases h.entry with hnone | ⟨-, hentry, hzero⟩
  · rw [there] at hnone
    cases hnone
  · rw [Path.child_name isName, locate_child located hentry hzero (by simp [there]), there]

/-- What another recorder has moved does not matter. -/
lemma Settled.frame (h : Settled root place tree task phase)
    (same : ∀ rest, next.node? (place ++ [task.id] ++ rest) =
      tree.node? (place ++ [task.id] ++ rest)) : Settled root place next task phase := by
  have hnode : next.node? (place ++ [task.id]) = tree.node? (place ++ [task.id]) := by
    simpa using same []
  have hshelf : shelf next (place ++ [task.id]) = shelf tree (place ++ [task.id]) := by
    funext name
    rw [shelf, shelf, contents?, contents?, same]
  obtain ⟨inner, finale, plan, progress⟩ := h.progress
  refine ⟨fun name => ?_, by rw [hnode]; exact h.entry, inner, finale, plan, ?_⟩
  · rw [Vacant, same]
    exact h.vacant name
  · cases progress with
    | ready left fresh => exact .ready left (by rw [hnode, fresh])
    | entered left fresh => exact .entered left (by rw [hnode, fresh])
    | filling middle left stays spares there due bare =>
      exact .filling middle left stays spares (by rw [hnode, there]) (by rw [hshelf, due])
        (by rw [hshelf, bare])
    | published left phase carried syncs there full =>
      exact .published left phase carried syncs (by rw [hnode, there]) (by rw [hshelf, full])
    | cleaning phase bare => exact .cleaning phase (by rw [hshelf, bare])

/-- What a step inside the directory of its run has changed lies there. -/
lemma Did.moved {directory : Place} {step : Step} {fault : Option Fault}
    (h : Did directory tree step fault next) (sound : tree.Sound) : Moved directory tree next :=
  ⟨h.within.keeps.workplace,
    fun p hp => h.within.outside p fun ⟨_, heq⟩ => hp (heq ▸ List.prefix_append _ _),
    h.within.sound sound⟩

lemma Moved.refl (directory : Place) (sound : tree.Sound) : Moved directory tree tree :=
  ⟨rfl, fun _ _ => rfl, sound⟩

/-- A step has been carried out that fills the directory, or gives the manifest its name. -/
lemma Progress.of_step {step : Step} {left middle : List Step} (plan : task.Plan root inner finale)
    (steps : step :: left = middle ++ finale)
    (stays : ∀ step ∈ middle, step.StaysIn (root.child task.id))
    (spares : ∀ step ∈ middle, step.Spares Manifest.fileName)
    (due : effects (middle ++ finale) (shelf tree (place ++ [task.id])) = task.shelf root)
    (bare : shelf tree (place ++ [task.id]) Manifest.fileName = none)
    (there : next.node? (place ++ [task.id]) = some .directory)
    (done : shelf next (place ++ [task.id]) = step.effect (shelf tree (place ++ [task.id]))) :
    Progress root place next task inner finale (.working left) := by
  cases middle with
  | cons first middle =>
    rw [List.cons_append, List.cons.injEq] at steps
    obtain ⟨rfl, rfl⟩ := steps
    rw [List.cons_append, effects_cons, ← done] at due
    exact .filling middle rfl (fun s hs => stays s (by simp [hs]))
      (fun s hs => spares s (by simp [hs])) there due
      (by rw [done, effect_of_spares (spares step (by simp)), bare])
  | nil =>
    -- the manifest gets its name
    rw [List.nil_append] at steps due
    rcases plan.finale with ⟨-, rfl⟩ | ⟨hcarried, temporary, rfl⟩
    · cases steps
    · rw [List.cons.injEq] at steps
      obtain ⟨rfl, rfl⟩ := steps
      rw [effects_cons, ← done] at due
      exact .published _ rfl hcarried (fun s hs => ⟨_, List.mem_singleton.mp hs⟩) there due

section Own

variable (isName : Path.IsName task.id)
  (located : tree.locate true root = .ok ⟨place, some .directory⟩) (sound : tree.Sound)

include isName located sound

/-- A new directory is made for a run, and is empty. -/
lemma settled_of_makeDirectory (up : task.id ≠ "..") (plan : task.Plan root inner finale)
    (fresh : tree.node? (place ++ [task.id]) = none)
    (made : tree.makeDirectory (root.child task.id) = .ok next) :
    Moved (place ++ [task.id]) tree next ∧
      Settled root place next task (.working (inner ++ finale)) := by
  have started := started_of_makeDirectory sound isName up located made
  obtain ⟨goal, hgoal, -⟩ := makeDirectory_ok made
  rw [Path.child_name isName] at hgoal
  obtain ⟨hentry, hzero⟩ := isEntry_of_child located hgoal isName.2.1 up
  have hset := started.set
  have hempty : ∀ name, next.node? (place ++ [task.id] ++ [name]) = none := fun name => by
    rw [hset, node?_set_of_ne (by simp), sound.below (by simp [fresh]) (by simp)]
  have hthere : next.node? (place ++ [task.id]) = some .directory := by
    rw [hset, node?_set_self (by simp)]
  have hshelf : shelf next (place ++ [task.id]) = fun _ => none := by
    funext name
    rw [shelf, contents?, hempty]
  refine ⟨⟨by rw [hset, workplace_set], fun p hp => ?_, started.sound⟩,
    fun name => .inl (hempty name),
    .inr ⟨hthere, hentry, hzero⟩, inner, finale, plan, ?_⟩
  · rw [hset, node?_set_of_ne]
    rintro rfl
    exact hp (List.prefix_refl _)
  · refine .filling inner rfl (fun step hstep => plan.stays step (List.mem_append_left _ hstep))
      plan.spares hthere ?_ (by rw [hshelf])
    rw [hshelf, Task.shelf, plan.steps]
    rfl

/-- **A step is carried out**, or turns out to be impossible. -/
lemma settled_of_perform {step : Step} {left : List Step} {fault : Option Fault}
    (up : task.id ≠ "..") (h : Settled root place tree task (.working (step :: left)))
    (done : tree.perform step = (fault, next)) :
    Moved (place ++ [task.id]) tree next ∧
      (fault = none → Settled root place next task (.working left)) ∧
      (fault ≠ none → Settled root place next task .cleaning) := by
  obtain ⟨inner, finale, plan, progress⟩ := h.progress
  have hclean : ∀ {last : FileTree}, last = tree →
      shelf tree (place ++ [task.id]) Manifest.fileName = none →
      Settled root place last task .cleaning := by
    rintro last rfl hbare
    exact ⟨h.vacant, h.entry, inner, finale, plan, .cleaning rfl hbare⟩
  cases progress with
  | ready hleft fresh =>
    rw [Phase.working.injEq, List.cons.injEq] at hleft
    obtain ⟨rfl, rfl⟩ := hleft
    rw [perform, makeDirectories_of_present located, Prod.mk.injEq] at done
    obtain ⟨rfl, rfl⟩ := done
    exact ⟨.refl _ sound, fun _ => ⟨h.vacant, h.entry, inner, finale, plan, .entered rfl fresh⟩,
      fun hne => absurd rfl hne⟩
  | entered hleft fresh =>
    rw [Phase.working.injEq, List.cons.injEq] at hleft
    obtain ⟨rfl, rfl⟩ := hleft
    rw [perform] at done
    obtain ⟨changed, hmade, hsettle⟩ | ⟨fault', hsettle⟩ :=
      settle_cases tree (tree.makeDirectory (root.child task.id))
    · rw [hsettle, Prod.mk.injEq] at done
      obtain ⟨rfl, rfl⟩ := done
      obtain ⟨hmoved, hsettled⟩ := settled_of_makeDirectory isName located sound up plan fresh hmade
      exact ⟨hmoved, fun _ => hsettled, fun hne => absurd rfl hne⟩
    · rw [hsettle, Prod.mk.injEq] at done
      obtain ⟨rfl, rfl⟩ := done
      exact ⟨.refl _ sound, fun hnone => (by cases hnone),
        fun _ => hclean rfl (by rw [shelf_of_none sound fresh])⟩
  | filling middle hleft stays spares there due bare =>
    have hdirectory := h.located located isName there
    rw [Phase.working.injEq] at hleft
    have hstays : step.StaysIn (root.child task.id) := by
      have hmem : step ∈ middle ++ finale := hleft ▸ List.mem_cons_self
      rcases List.mem_append.mp hmem with hmem | hmem
      · exact stays step hmem
      · exact plan.stays step (List.mem_append_right _ hmem)
    have hdid := perform_of_staysIn hdirectory h.vacant hstays
    rw [done] at hdid
    have hthere : next.node? (place ++ [task.id]) = some .directory :=
      hdid.within.keeps.directory _ there
    have hentry := (h.entry.resolve_left (by simp [there])).2
    refine ⟨hdid.moved sound, fun hnone => ⟨hdid.vacant, .inr ⟨hthere, hentry⟩, inner, finale, plan,
      ?_⟩, fun hne => hclean (hdid.failed hne) bare⟩
    exact .of_step plan hleft stays spares due bare hthere (hdid.done hnone)
  | published left' hleft carried syncs there full =>
    rw [Phase.working.injEq] at hleft
    subst hleft
    obtain ⟨path, rfl⟩ := syncs step (by simp)
    rw [perform, Prod.mk.injEq] at done
    obtain ⟨rfl, rfl⟩ := done
    exact ⟨.refl _ sound, fun _ => ⟨h.vacant, h.entry, inner, finale, plan,
      .published left rfl carried (fun s hs => syncs s (by simp [hs])) there full⟩,
      fun hne => absurd rfl hne⟩
  | cleaning hphase => cases hphase

/-- **Some bytes are written**, and the others are left to be written. -/
lemma settled_of_append {path : Path} {contents : Bytes} {count : Nat} {left : List Step}
    (h : Settled root place tree task (.working (.append path contents :: left)))
    (done : tree.append path (contents.take count) = .ok next) :
    Moved (place ++ [task.id]) tree next ∧
      Settled root place next task (.working (.append path (contents.drop count) :: left)) := by
  obtain ⟨inner, finale, plan, progress⟩ := h.progress
  cases progress with
  | ready hleft => simp at hleft
  | entered hleft => simp at hleft
  | filling middle hleft stays spares there due bare =>
    rw [Phase.working.injEq] at hleft
    cases middle with
    | nil => rcases plan.finale with ⟨-, rfl⟩ | ⟨-, temporary, rfl⟩ <;> simp at hleft
    | cons first middle =>
      rw [List.cons_append, List.cons.injEq] at hleft
      obtain ⟨rfl, rfl⟩ := hleft
      have hdirectory := h.located located isName there
      have hstays : (Step.append path (contents.take count)).StaysIn (root.child task.id) :=
        stays (.append path contents) (by simp)
      have hspares : (Step.append path (contents.take count)).Spares Manifest.fileName :=
        spares (.append path contents) (by simp)
      have hdid := perform_of_staysIn hdirectory h.vacant hstays
      rw [show tree.perform (.append path (contents.take count)) = (none, next) by
        rw [perform, done]; rfl] at hdid
      have hthere : next.node? (place ++ [task.id]) = some .directory :=
        hdid.within.keeps.directory _ there
      have hshelf := hdid.done rfl
      refine ⟨hdid.moved sound, hdid.vacant,
        .inr ⟨hthere, (h.entry.resolve_left (by simp [there])).2⟩,
        inner, finale, plan, .filling (.append path (contents.drop count) :: middle) rfl
          (List.forall_mem_cons.mpr ⟨hstays, fun s hs => stays s (by simp [hs])⟩)
          (List.forall_mem_cons.mpr ⟨hspares, fun s hs => spares s (by simp [hs])⟩) hthere ?_
          (by rw [hshelf, effect_of_spares hspares, bare])⟩
      rw [List.cons_append, effects_cons] at due ⊢
      rw [hshelf, effect_append_drop, due]
  | published left' hleft carried syncs =>
    rw [Phase.working.injEq] at hleft
    obtain ⟨path', hpath⟩ := syncs (.append path contents) (by simp [← hleft])
    cases hpath
  | cleaning hphase => cases hphase

/-- **Something is taken away** from the directory of a run that has failed. -/
lemma settled_of_remove {directory p : Place} (up : task.id ≠ "..")
    (home : ¬ (place ++ [task.id]) <+: tree.workplace)
    (h : Settled root place tree task .cleaning)
    (found : tree.locate false (root.child task.id) = .ok ⟨directory, some .directory⟩)
    (below : directory <+: p) (leaf : tree.below p = []) :
    Moved (place ++ [task.id]) tree (tree.remove p) ∧
      Settled root place (tree.remove p) task .cleaning := by
  rw [Path.child_name isName] at found
  obtain rfl := place_of_child_unfollowed located found isName.2.1 up
  have hne : p ≠ [] := by
    rintro rfl
    simp at below
  have hnode := fun q => node?_remove hne tree q
  obtain ⟨inner, finale, plan, progress⟩ := h.progress
  have hbare : shelf tree (place ++ [task.id]) Manifest.fileName = none := by
    cases progress with
    | ready left => cases left
    | entered left => cases left
    | filling middle left => cases left
    | published left phase => cases phase
    | cleaning phase bare => exact bare
  refine ⟨⟨workplace_remove _ _, fun q hq => ?_, sound.remove_leaf hne
      (below_eq_nil_iff.mp leaf) ?_⟩,
    fun name => (h.vacant name).remove hne, ?_, inner, finale, plan, .cleaning rfl ?_⟩
  · rw [hnode, if_neg]
    rintro rfl
    exact hq below
  · rintro heq
    exact home (heq ▸ below)
  · rw [hnode]
    split
    · exact .inl rfl
    · exact h.entry
  · rw [shelf, contents?_remove hne]
    split
    · rfl
    · exact hbare

/-- **What a recorder does** touches nothing but the directory of its run, and fits what
is left to do. -/
lemma settled_of_moves (move : r.Moves root tree r' next) (htask : r.task = task)
    (up : task.id ≠ "..") (home : ¬ (place ++ [task.id]) <+: tree.workplace)
    (h : Settled root place tree task r.phase) :
    r'.task = task ∧ Moved (place ++ [task.id]) tree next ∧
      Settled root place next task r'.phase := by
  subst htask
  have hrefl := Moved.refl (place ++ [r.task.id]) sound
  cases move with
  | advanced phase done =>
    rw [phase] at h
    obtain ⟨hmoved, hsettled, -⟩ := settled_of_perform isName located sound up h done
    exact ⟨rfl, hmoved, hsettled rfl⟩
  | faulted phase done =>
    rw [phase] at h
    obtain ⟨hmoved, -, hsettled⟩ := settled_of_perform isName located sound up h done
    exact ⟨rfl, hmoved, hsettled (by simp)⟩
  | failed phase unpublished =>
    obtain ⟨inner, finale, plan, progress⟩ := h.progress
    exact ⟨rfl, hrefl, h.vacant, h.entry, inner, finale, plan,
      .cleaning rfl (progress.of_unpublished sound unpublished)⟩
  | refused phase refusal =>
    obtain ⟨inner, finale, plan, progress⟩ := h.progress
    have hunpublished : r.isPublished root = false := by
      rw [Recorder.isPublished, phase]
      simpa [Option.isSome_iff_ne_none] using refusal
    exact ⟨rfl, hrefl, h.vacant, h.entry, inner, finale, plan,
      .cleaning rfl (progress.of_unpublished sound hunpublished)⟩
  | written phase done =>
    rw [phase] at h
    obtain ⟨hmoved, hsettled⟩ := settled_of_append isName located sound h done
    exact ⟨rfl, hmoved, hsettled⟩
  | @entered path count left _ phase done =>
    -- the root is there, so no directory on its path is missing
    obtain ⟨inner, finale, plan, progress⟩ := h.progress
    have hpath : path = root := by
      rw [phase] at progress
      cases progress with
      | ready hleft => exact Step.ensureDirectory.inj (List.cons.inj (Phase.working.inj hleft)).1
      | entered hleft => cases hleft
      | filling middle hleft stays =>
        have hmem : Step.ensureDirectory path ∈ middle ++ finale :=
          Phase.working.inj hleft ▸ List.mem_cons_self
        rcases List.mem_append.mp hmem with hmem | hmem
        · cases stays _ hmem
        · cases plan.stays _ (List.mem_append_right _ hmem)
      | published left' hleft carried syncs =>
        obtain ⟨path', hpath⟩ := syncs (.ensureDirectory path) (by
          rw [← Phase.working.inj hleft]
          simp)
        cases hpath
      | cleaning hleft => cases hleft
    rw [hpath, makeDirectory_upTo_of_present located] at done
    cases done
  | cleaned phase found below leaf =>
    rw [phase] at h ⊢
    obtain ⟨hmoved, hsettled⟩ := settled_of_remove isName located sound up home h found below leaf
    exact ⟨rfl, hmoved, hsettled⟩
  | killed => exact ⟨rfl, hrefl, h⟩

end Own

end Scaffold
