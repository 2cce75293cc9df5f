import Scaffold.Proofs.History.Damage
import Scaffold.Proofs.History.OneRecorder

/-!
Recorders that run beside one another and may be killed.

Any number of recorders work in one root, their actions come in any order, and each of
them may fail or be killed after any of them. As long as the root is missing nothing has
been done but that directories on its path have been made. From then on every recorder
stays in the directory of its run, so all of them are settled at every moment, and what
is listed follows from that.

* `Chosen`: the names of the runs are new; `Ground`: a tree in which recorders start.
* `Running`: recorders at work in a root that is there; `Running.act`: one action.
* `Waiting`: the root is missing; `Waiting.act`: one action, which may bring the root.
* `Running.exists_runs`: what is listed at one moment.
* `Underway`, `Underway.act`, `Underway.play`: either of them, whatever happens.
* `exists_error_of_play`: a list that is broken off at first stays so.
* `Underway.exists_play_run`: a recorder that is left alone can leave the tree that its
  recording leaves.
* `play_lists_published`: crash safety.
-/

namespace Scaffold

open Files FileTree

variable {tree next : FileTree} {root : Path} {place : Place} {r r' : Recorder} {task : Task}
  {phase : Phase} {action : Action}
  {tasks : List Task} {base : FileTree} {w w' : World} {turn : Nat × Action}

/-- What has been chosen before the recorders start: names of runs that no other run has,
and that the path of the root does not mention. -/
structure Chosen (root : Path) (tasks : List Task) : Prop where
  /-- No two runs have one name. -/
  distinct : (tasks.map (·.id)).Nodup
  /-- The unique parts of the names stand between slashes as they are. -/
  unique : ∀ task ∈ tasks, '/' ∉ task.surroundings.unique.toList
  /-- The path of the root has none of the names. -/
  avoids : Avoids (tasks.map (·.id)) root.names

lemma Chosen.isName (h : Chosen root tasks) (mem : task ∈ tasks) : Path.IsName task.id :=
  runName_isName (h.unique task mem) _

/-- A tree in which recorders start to work in a root that is there. -/
structure Ground (root : Path) (place : Place) (tasks : List Task) (base : FileTree) : Prop where
  /-- The root is there. -/
  located : base.locate true root = .ok ⟨place, some .directory⟩
  /-- Everything lies in a directory. -/
  sound : base.Sound
  /-- Nothing has the name of a run. -/
  unmentioned : Unmentioned (tasks.map (·.id)) base

/-- What lies in the root at first has the name of no run. -/
lemma Ground.not_mem_ids (h : Ground root place tasks base) {name : String}
    (there : base.node? (place ++ [name]) ≠ none) : name ∉ tasks.map (·.id) := fun hid => by
  obtain ⟨node, hnode⟩ := Option.ne_none_iff_exists'.mp there
  exact h.unmentioned.places _ node hnode name (by simp) hid

/-- Recorders at work: every place without the name of a run is as it was, and every
recorder has come to where its steps say. -/
structure Running (root : Path) (place : Place) (tasks : List Task) (base : FileTree)
    (w : World) : Prop where
  /-- The runs. -/
  own : w.recorders.map (·.task) = tasks
  /-- What lies elsewhere. -/
  agree : Agree (tasks.map (·.id)) base w.tree
  /-- Everything lies in a directory. -/
  sound : w.tree.Sound
  /-- The recorders. -/
  settled : ∀ (i : Nat) (r : Recorder), w.recorders[i]? = some r →
    Settled root place w.tree r.task r.phase

/-- The action of a world is one of its recorders' actions. -/
lemma exists_moves (act : w.act? root turn = some w') :
    ∃ r r', w.recorders[turn.1]? = some r ∧ r.Moves root w.tree r' w'.tree ∧
      w'.recorders = w.recorders.set turn.1 r' := by
  simp only [World.act?, Option.bind_eq_bind, Option.bind_eq_some_iff, Option.pure_def,
    Option.some.injEq, Prod.exists] at act
  obtain ⟨r, hr, r', next, hact, rfl⟩ := act
  exact ⟨r, r', hr, moves_of_act? hact, rfl⟩

/-- No recorder gets another run. -/
lemma map_task_set {recorders : List Recorder} {i : Nat} (hr : recorders[i]? = some r)
    (htask : r'.task = r.task) : (recorders.set i r').map (·.task) = recorders.map (·.task) := by
  obtain ⟨hi, rfl⟩ := List.getElem?_eq_some_iff.mp hr
  have hi' : i < (recorders.map (·.task)).length := by simpa using hi
  have hself : recorders[i].task = (recorders.map (·.task))[i] := by simp
  rw [List.map_set, htask, hself, List.set_getElem_self]

/-- The directories of different runs lie beside one another. -/
lemma not_prefix_of_ne {id other : String} (ne : other ≠ id) (rest : Place) :
    ¬ (place ++ [id]) <+: (place ++ [other] ++ rest) := by
  rw [List.append_assoc, List.prefix_append_right_inj, List.singleton_append,
    List.cons_prefix_cons]
  exact fun h => ne h.1.symm

namespace Running

lemma mem_tasks (h : Running root place tasks base w) {i : Nat} (hr : w.recorders[i]? = some r) :
    r.task ∈ tasks := by
  rw [← h.own]
  exact List.mem_map_of_mem (List.mem_of_getElem? hr)

/-- Different recorders have different runs. -/
lemma ne_of_ne (h : Running root place tasks base w) (chosen : Chosen root tasks) {i j : Nat}
    (hr : w.recorders[i]? = some r) (hr' : w.recorders[j]? = some r') (ne : i ≠ j) :
    r.task.id ≠ r'.task.id := by
  have hdistinct : (w.recorders.map fun r => r.task.id).Nodup := by
    simpa [← h.own, Function.comp_def] using chosen.distinct
  obtain ⟨hi, rfl⟩ := List.getElem?_eq_some_iff.mp hr
  obtain ⟨hj, rfl⟩ := List.getElem?_eq_some_iff.mp hr'
  intro heq
  have hi : i < (w.recorders.map fun r => r.task.id).length := by simpa using hi
  have hj : j < (w.recorders.map fun r => r.task.id).length := by simpa using hj
  have heq : (w.recorders.map fun r => r.task.id)[i] = (w.recorders.map fun r => r.task.id)[j] := by
    simpa using heq
  exact ne (hdistinct.getElem_inj_iff.mp heq)

/-- The root is where it was. -/
lemma located (h : Running root place tasks base w) (chosen : Chosen root tasks)
    (ground : Ground root place tasks base) :
    w.tree.locate true root = .ok ⟨place, some .directory⟩ := by
  rw [h.agree.locate ground.unmentioned ground.sound chosen.avoids, ground.located]

/-- What does not have the name of a run is as it was. -/
lemma node?_eq (h : Running root place tasks base w) (ground : Ground root place tasks base)
    {name : String} (other : name ∉ tasks.map (·.id)) :
    w.tree.node? (place ++ [name]) = base.node? (place ++ [name]) :=
  h.agree.node _ (avoids_append.mpr
    ⟨ground.unmentioned.places _ _ (node?_of_locate ground.located), by simpa [Avoids] using other⟩)

/-- **One action** of any recorder. -/
lemma act (h : Running root place tasks base w) (chosen : Chosen root tasks)
    (ground : Ground root place tasks base) (act : w.act? root turn = some w') :
    Running root place tasks base w' := by
  obtain ⟨r, r', hr, hmoves, hset⟩ := exists_moves act
  have hmem := h.mem_tasks hr
  have hid : r.task.id ∈ tasks.map (·.id) := List.mem_map_of_mem hmem
  -- a place with the name of the run is not one of the others
  have hapart : ∀ p, Avoids (tasks.map (·.id)) p → ¬ (place ++ [r.task.id]) <+: p :=
    fun p hp hstarts => hp r.task.id (hstarts.subset (by simp)) hid
  have hhome : ¬ (place ++ [r.task.id]) <+: w.tree.workplace := by
    rw [h.agree.workplace]
    exact hapart _ (ground.unmentioned.places _ _ ground.sound.workplace)
  obtain ⟨htask, hmoved, hsettled⟩ := settled_of_moves (chosen.isName hmem)
    (h.located chosen ground) h.sound hmoves rfl (runName_ne_up _ _) hhome (h.settled _ r hr)
  refine ⟨?_, h.agree.trans ⟨hmoved.workplace, fun p hp => hmoved.outside p (hapart p hp)⟩,
    hmoved.sound, fun j other hother => ?_⟩
  · rw [hset, map_task_set hr htask, h.own]
  · rw [hset, List.getElem?_set] at hother
    split at hother
    · next heq =>
      split at hother
      · rw [Option.some.injEq] at hother
        exact hother ▸ htask ▸ hsettled
      · cases hother
    · next hne =>
      exact (h.settled j other hother).frame fun rest =>
        hmoved.outside _ (not_prefix_of_ne (h.ne_of_ne chosen hother hr (Ne.symm hne)) rest)

lemma play {turns : List (Nat × Action)} (h : Running root place tasks base w)
    (chosen : Chosen root tasks) (ground : Ground root place tasks base)
    (played : World.play root turns w = some w') : Running root place tasks base w' := by
  induction turns generalizing w with
  | nil =>
    rw [World.play, Option.some.injEq] at played
    exact played ▸ h
  | cons turn turns ih =>
    simp only [World.play, Option.bind_eq_bind, Option.bind_eq_some_iff] at played
    obtain ⟨next, hact, hrest⟩ := played
    exact ih (h.act chosen ground hact) hrest

end Running

/-- **Recorders begin** in a root that is there: none of them has done more than to make
the root. -/
lemma running_of_begun (own : w.recorders.map (·.task) = tasks)
    (ground : Ground root place tasks w.tree)
    (begun : ∀ (i : Nat) (r : Recorder), w.recorders[i]? = some r →
      r.phase = .working (r.task.recording root).steps ∨ r.phase = .cleaning ∨
        r.phase = .working (r.task.recording root).steps.tail) :
    Running root place tasks w.tree w := by
  refine ⟨own, .refl _ _, ground.sound, fun i r hr => ?_⟩
  have hid : r.task.id ∈ tasks.map (·.id) := by
    rw [← own]
    exact List.mem_map_of_mem (List.mem_map_of_mem (List.mem_of_getElem? hr))
  -- nothing has the name of the run
  have hnone : ∀ rest, w.tree.node? (place ++ [r.task.id] ++ rest) = none := by
    intro rest
    by_contra hne
    obtain ⟨node, hnode⟩ := Option.ne_none_iff_exists'.mp hne
    exact ground.unmentioned.places _ node hnode r.task.id (by simp) hid
  have hfresh : w.tree.node? (place ++ [r.task.id]) = none := by simpa using hnone []
  obtain ⟨inner, finale, plan⟩ := r.task.exists_plan root
  refine ⟨fun name => .inl (hnone [name]), .inl hfresh, inner, finale, plan, ?_⟩
  rcases begun i r hr with hphase | hphase | hphase
  · exact .ready (by rw [hphase, plan.steps]) hfresh
  · exact .cleaning hphase (by rw [shelf_of_none ground.sound hfresh])
  · exact .entered (by rw [hphase, plan.steps]; rfl) hfresh

/-- Recorders that wait for the root: it is not there, and nothing has been done but that
directories on its path have been made. -/
structure Waiting (root : Path) (tasks : List Task) (w : World) : Prop where
  /-- The runs. -/
  own : w.recorders.map (·.task) = tasks
  /-- Everything lies in a directory. -/
  sound : w.tree.Sound
  /-- Nothing has the name of a run. -/
  unmentioned : Unmentioned (tasks.map (·.id)) w.tree
  /-- The root is not there. -/
  missing : w.tree.isDirectory root = .ok false
  /-- No step has come to its end. -/
  begun : ∀ (i : Nat) (r : Recorder), w.recorders[i]? = some r →
    r.phase = .working (r.task.recording root).steps ∨ r.phase = .cleaning

/-- Nothing can be in a root that is not there. -/
lemma Waiting.not_found (h : Waiting root tasks w) (chosen : Chosen root tasks) {i : Nat}
    (hr : w.recorders[i]? = some r) {found : Found} :
    w.tree.locate false (root.child r.task.id) ≠ .ok found := by
  intro hfound
  have hmem : r.task ∈ tasks := h.own ▸ List.mem_map_of_mem (List.mem_of_getElem? hr)
  rw [Path.child_name (chosen.isName hmem)] at hfound
  have hpresent := isDirectory_eq_true_iff.mpr (exists_locate_of_child hfound)
  rw [h.missing] at hpresent
  cases hpresent

/-- What a recorder does that waits for the root. -/
lemma Waiting.moves (h : Waiting root tasks w) (chosen : Chosen root tasks)
    {i : Nat} (hr : w.recorders[i]? = some r) (move : r.Moves root w.tree r' next) :
    r'.task = r.task ∧ (∃ count fault, Made w.tree root count fault next) ∧
      (r'.phase = .working (r.task.recording root).steps ∨ r'.phase = .cleaning ∨
        r'.phase = .working (r.task.recording root).steps.tail ∧
          ∃ place, next.locate true root = .ok ⟨place, some .directory⟩) := by
  have hsame : ∃ count fault, Made w.tree root count fault w.tree := ⟨_, _, made_zero w.tree root⟩
  obtain ⟨inner, finale, plan⟩ := r.task.exists_plan root
  -- only the first step is tried
  have hfirst : ∀ {step : Step} {left : List Step}, r.phase = .working (step :: left) →
      step = .ensureDirectory root ∧ left = (r.task.recording root).steps.tail := by
    intro step left hphase
    rcases h.begun i r hr with hbegun | hbegun
    · rw [hphase, plan.steps, Phase.working.injEq, List.cons.injEq] at hbegun
      exact ⟨hbegun.1, by rw [hbegun.2, plan.steps]; rfl⟩
    · rw [hphase] at hbegun
      cases hbegun
  cases move with
  | advanced phase done =>
    obtain ⟨rfl, rfl⟩ := hfirst phase
    have hmade := makeDirectories_made root w.tree
    have hreached := @makeDirectories_reached w.tree root
    rw [perform] at done
    rw [done] at hmade hreached
    exact ⟨rfl, ⟨_, _, hmade⟩, .inr (.inr ⟨rfl, hreached rfl⟩)⟩
  | faulted phase done =>
    obtain ⟨rfl, rfl⟩ := hfirst phase
    have hmade := makeDirectories_made root w.tree
    rw [perform] at done
    rw [done] at hmade
    exact ⟨rfl, ⟨_, _, hmade⟩, .inr (.inl rfl)⟩
  | failed => exact ⟨rfl, hsame, .inr (.inl rfl)⟩
  | refused => exact ⟨rfl, hsame, .inr (.inl rfl)⟩
  | written phase => cases (hfirst phase).1
  | @entered path count left _ phase done =>
    obtain rfl := Step.ensureDirectory.inj (hfirst phase).1
    have hmade := (made_zero w.tree path).orPresent (Nat.zero_le count)
    rw [done] at hmade
    exact ⟨rfl, ⟨_, _, hmade⟩, (h.begun i r hr).imp_right .inl⟩
  | cleaned phase found => exact (h.not_found chosen hr found).elim
  | killed => exact ⟨rfl, hsame, (h.begun i r hr).imp_right .inl⟩

/-- **One action** before the root is there: it is still missing after that, or it is there
and empty. -/
lemma Waiting.act (h : Waiting root tasks w) (chosen : Chosen root tasks) (fits : Fits root.names)
    (act : w.act? root turn = some w') :
    Waiting root tasks w' ∨ ∃ place, Ground root place tasks w'.tree ∧
      Running root place tasks w'.tree w' ∧ ∀ name, w'.tree.node? (place ++ [name]) = none := by
  obtain ⟨r, r', hr, hmoves, hset⟩ := exists_moves act
  obtain ⟨htask, ⟨count, fault, hmade⟩, hphase⟩ := h.moves chosen hr hmoves
  have hsound := hmade.sound h.sound
  have hunmentioned := hmade.unmentioned h.unmentioned h.sound chosen.avoids
  have hown : w'.recorders.map (·.task) = tasks := by rw [hset, map_task_set hr htask, h.own]
  have hbegun : ∀ (j : Nat) (other : Recorder), w'.recorders[j]? = some other →
      other.phase = .working (other.task.recording root).steps ∨ other.phase = .cleaning ∨
        other.phase = .working (other.task.recording root).steps.tail ∧
          ∃ place, w'.tree.locate true root = .ok ⟨place, some .directory⟩ := by
    intro j other hother
    rw [hset, List.getElem?_set] at hother
    split at hother
    · split at hother
      · rw [Option.some.injEq] at hother
        rw [← hother, htask]
        exact hphase
      · cases hother
    · exact (h.begun j other hother).imp_right .inl
  rcases hmade.isDirectory h.sound fits h.missing with hmissing | ⟨place, hplace, hempty⟩
  · refine .inl ⟨hown, hsound, hunmentioned, hmissing, fun j other hother => ?_⟩
    rcases hbegun j other hother with hother | hother | ⟨-, hlocated⟩
    · exact .inl hother
    · exact .inr hother
    · rw [isDirectory_eq_true_iff.mpr hlocated] at hmissing
      cases hmissing
  · have hground : Ground root place tasks w'.tree := ⟨hplace, hsound, hunmentioned⟩
    exact .inr ⟨place, hground, running_of_begun hown hground fun j other hother =>
      (hbegun j other hother).imp_right fun hother => hother.imp_right (·.1), hempty⟩

/-! ### What is listed -/

/-- What is in the directory of a run is a file. -/
lemma Settled.exists_file (h : Settled root place tree task phase) (sound : tree.Sound) {p : Place}
    (mem : p ∈ tree.below (place ++ [task.id])) :
    ∃ name contents, p = place ++ [task.id] ++ [name] ∧ tree.node? p = some (.file contents) := by
  obtain ⟨⟨rest, rfl⟩, hne, hnode⟩ := mem_below_iff.mp mem
  match rest with
  | [] => exact absurd (List.append_nil _) hne
  | [name] =>
    rcases h.vacant name with hnone | ⟨contents, hfile⟩
    · exact absurd hnone hnode
    · exact ⟨name, contents, rfl, hfile⟩
  | name :: other :: more =>
    refine absurd ?_ hnode
    rw [List.append_cons]
    exact sound.below (h.vacant name).not_directory (List.cons_ne_nil other more)

/-- There are no links in the directory of a run. -/
lemma Settled.unlinked (h : Settled root place tree task phase) (sound : tree.Sound)
    (there : tree.node? (place ++ [task.id]) = some .directory) (rest : Place) (target : String) :
    tree.node? (place ++ [task.id] ++ rest) ≠ some (.link target) := by
  intro hlink
  by_cases hrest : rest = []
  · rw [hrest, List.append_nil, there] at hlink
    cases hlink
  · obtain ⟨name, contents, -, hfile⟩ := h.exists_file sound
      (mem_below_iff.mpr ⟨List.prefix_append _ rest, by simpa using hrest, by rw [hlink]; simp⟩)
    rw [hlink] at hfile
    cases hfile

/-- What is read from the directory of a run depends on its manifest. -/
lemma Settled.runAt? (h : Settled root place tree task phase) (sound : tree.Sound)
    (located : tree.locate true root = .ok ⟨place, some .directory⟩)
    (there : tree.node? (place ++ [task.id]) = some .directory) :
    Scaffold.runAt? tree (inside root task.id) =
      runIn (inside root task.id) (shelf tree (place ++ [task.id]) Manifest.fileName) := by
  obtain ⟨-, hentry, hzero⟩ := h.entry.resolve_left (by simp [there])
  rw [runAt?_child sound located hentry (h.unlinked sound there), hzero, if_neg (by simp), shelf]

/-- **What a recorder has left**: its whole run when its manifest is published, and
otherwise nothing that is read. -/
lemma Settled.read (h : Settled root place tree r.task r.phase) (sound : tree.Sound)
    (located : tree.locate true root = .ok ⟨place, some .directory⟩)
    (unique : '/' ∉ r.task.surroundings.unique.toList) :
    (r.isPublished root = true ∧ tree.node? (place ++ [r.task.id]) = some .directory ∧
      ∃ k : KeptRun, r.task.IsKeptAs k ∧ k.LiesIn place tree ∧
        Scaffold.runAt? tree (inside root r.task.id) = .ok (some (k.run root))) ∨
    r.isPublished root = false ∧ (tree.node? (place ++ [r.task.id]) ≠ none →
      Scaffold.runAt? tree (inside root r.task.id) = .ok none) := by
  obtain ⟨inner, finale, plan, progress⟩ := h.progress
  cases hpublished : r.isPublished root with
  | true =>
    obtain ⟨hcarried, hthere, hfull⟩ := progress.of_published plan hpublished
    obtain ⟨-, -, hzero⟩ := h.entry.resolve_left (by simp [hthere])
    obtain ⟨k, hk, hmanifest, hbackups⟩ := Task.exists_kept hcarried unique hzero
    refine .inl ⟨rfl, hthere, k, hk, ⟨?_, fun name contents hunder => ?_⟩, ?_⟩
    · rw [hk.id, ← hmanifest, ← hfull]
      rfl
    · rw [hk.id, ← hbackups name contents hunder, ← hfull]
      rfl
    · rw [h.runAt? sound located hthere, hfull, hmanifest, ← hk.id, k.runIn_bytes]
  | false =>
    refine .inr ⟨rfl, fun hpresent => ?_⟩
    rw [h.runAt? sound located (h.entry.resolve_left hpresent).1,
      progress.of_unpublished sound hpublished]
    rfl

/-- All recorders together. -/
lemma exists_kept_of_settled {recorders : List Recorder} (sound : tree.Sound)
    (located : tree.locate true root = .ok ⟨place, some .directory⟩)
    (unique : ∀ r ∈ recorders, '/' ∉ r.task.surroundings.unique.toList)
    (settled : ∀ r ∈ recorders, Settled root place tree r.task r.phase) :
    ∃ kept : List KeptRun,
      List.Forall₂ (fun r k => r.task.IsKeptAs k) (recorders.filter (·.isPublished root)) kept ∧
      (∀ k ∈ kept, k.LiesIn place tree) ∧
      ((recorders.map (·.task.id)).filter fun id => tree.node? (place ++ [id]) ≠ none).filterMap
        (fun name => runOf? tree (inside root name)) = kept.map (·.run root) := by
  induction recorders with
  | nil => exact ⟨[], .nil, by simp, rfl⟩
  | cons r recorders ih =>
    obtain ⟨kept, hkept, hlies, hruns⟩ := ih (fun s hs => unique s (by simp [hs]))
      (fun s hs => settled s (by simp [hs]))
    rw [List.map_cons, List.filter_cons, List.filter_cons]
    rcases (settled r (by simp)).read sound located (unique r (by simp)) with
      ⟨hpublished, hthere, k, hk, hlies', hread⟩ | ⟨hpublished, hread⟩
    · have hrun : runOf? tree (inside root r.task.id) = some (k.run root) := by
        rw [runOf?, hread]
        rfl
      refine ⟨k :: kept, ?_, List.forall_mem_cons.mpr ⟨hlies', hlies⟩, ?_⟩
      · rw [if_pos hpublished]
        exact .cons hk hkept
      · rw [if_pos (by simp [hthere]), List.filterMap_cons, hrun, hruns, List.map_cons]
    · refine ⟨kept, by rwa [if_neg (by simp [hpublished])], hlies, ?_⟩
      split
      · next hpresent =>
        have hnone : runOf? tree (inside root r.task.id) = none := by
          rw [runOf?, hread (by simpa using hpresent)]
          rfl
        rw [List.filterMap_cons, hnone, hruns]
      · exact hruns

namespace Running

/-- What is read from other directories is what was read before. -/
lemma runAt? (h : Running root place tasks base w) (chosen : Chosen root tasks)
    (ground : Ground root place tasks base) {name : String} (other : name ∉ tasks.map (·.id)) :
    Scaffold.runAt? w.tree (inside root name) = Scaffold.runAt? base (inside root name) := by
  have hname : Avoids (tasks.map (·.id)) (inside root name).names :=
    avoids_append.mpr ⟨chosen.avoids, by simpa [Avoids] using other⟩
  have hmanifest : Avoids (tasks.map (·.id))
      ((inside root name).child Manifest.fileName).names := by
    rw [Path.child_name fileName_isName]
    refine avoids_append.mpr ⟨hname, fun file hfile => ?_⟩
    rw [List.mem_singleton.mp hfile]
    rintro hmem
    obtain ⟨task, -, htask⟩ := List.mem_map.mp hmem
    exact runName_ne_manifest _ _ htask
  rw [Scaffold.runAt?, Scaffold.runAt?, loadRun?, loadRun?,
    h.agree.isDirectory ground.unmentioned ground.sound hname,
    h.agree.read ground.unmentioned ground.sound hmanifest]

/-- The names in the root are those of before and those of the new directories. -/
lemma perm_names (h : Running root place tasks base w) (chosen : Chosen root tasks)
    (ground : Ground root place tasks base) {names old : List String} (distinct : names.Nodup)
    (mem : ∀ name, name ∈ names ↔ w.tree.node? (place ++ [name]) ≠ none)
    (distinct' : old.Nodup) (mem' : ∀ name, name ∈ old ↔ base.node? (place ++ [name]) ≠ none) :
    names.Perm (old ++ (tasks.map (·.id)).filter fun id =>
      w.tree.node? (place ++ [id]) ≠ none) := by
  refine (List.perm_ext_iff_of_nodup distinct ?_).mpr fun name => ?_
  · refine List.Nodup.append distinct' (chosen.distinct.filter _) fun name hname hid => ?_
    exact ground.not_mem_ids ((mem' name).mp hname) (List.mem_filter.mp hid).1
  · rw [mem, List.mem_append, mem', List.mem_filter, decide_eq_true_eq]
    by_cases hid : name ∈ tasks.map (·.id)
    · have hnone : ¬ base.node? (place ++ [name]) ≠ none := fun hne =>
        ground.not_mem_ids hne hid
      simp [hid, hnone]
    · rw [h.node?_eq ground hid]
      simp [hid]

/-- **What is listed while recorders are at work**: what was listed before, and the runs
whose manifests have got their names. -/
lemma exists_runs {store : HistoryStore} {before : List Run} (h : Running root place tasks base w)
    (chosen : Chosen root tasks) (ground : Ground root place tasks base)
    (enabled : store.root? = some root) (listed : store.runs base = .ok before) :
    ∃ runs kept, store.runs w.tree = .ok runs ∧
      List.Forall₂ (fun r k => r.task.IsKeptAs k) (w.recorders.filter (·.isPublished root)) kept ∧
      runs.Perm (before ++ kept.map (·.run root)) ∧ ∀ k ∈ kept, k.LiesIn place w.tree := by
  have hlocated := h.located chosen ground
  have hsettled : ∀ r ∈ w.recorders, Settled root place w.tree r.task r.phase := fun r hr => by
    obtain ⟨i, hi⟩ := List.getElem?_of_mem hr
    exact h.settled i r hi
  have hids : w.recorders.map (·.task.id) = tasks.map (·.id) := by
    rw [← h.own, List.map_map]
    rfl
  have hunique : ∀ r ∈ w.recorders, '/' ∉ r.task.surroundings.unique.toList := fun r hr =>
    chosen.unique _ (h.own ▸ List.mem_map_of_mem hr)
  obtain ⟨kept, hkept, hlies, hruns⟩ := exists_kept_of_settled h.sound hlocated hunique hsettled
  rw [hids] at hruns
  obtain ⟨names, hchildren, hnodup, hmem⟩ := exists_children h.sound place
  obtain ⟨old, hold, hnodup', hmem'⟩ := exists_children ground.sound place
  have hother : ∀ name ∈ old, name ∉ tasks.map (·.id) := fun name hname =>
    ground.not_mem_ids ((hmem' name).mp hname)
  have hperm := h.perm_names chosen ground hnodup hmem hnodup' hmem'
  obtain ⟨hfalse, -⟩ | ⟨-, hread, hbefore⟩ := (runs_eq_ok_iff enabled).mp listed
  · rw [isDirectory_eq_true_iff.mpr ⟨place, ground.located⟩] at hfalse
    cases hfalse
  rw [entriesOf_eq ground.located hold] at hread hbefore
  have hentries := entriesOf_eq hlocated hchildren
  have hall : ∀ path ∈ w.tree.entriesOf root, ∃ found, Scaffold.runAt? w.tree path = .ok found := by
    intro path hpath
    rw [hentries] at hpath
    obtain ⟨name, hname, rfl⟩ := List.mem_map.mp hpath
    rcases List.mem_append.mp (hperm.mem_iff.mp hname) with hname | hname
    · rw [h.runAt? chosen ground (hother name hname)]
      exact hread _ (List.mem_map_of_mem hname)
    · obtain ⟨hid, hthere⟩ := List.mem_filter.mp hname
      rw [← hids] at hid
      obtain ⟨r, hr, rfl⟩ := List.mem_map.mp hid
      rcases (hsettled r hr).read h.sound hlocated (hunique r hr) with
        ⟨-, -, k, -, -, hrun⟩ | ⟨-, hrun⟩
      · exact ⟨_, hrun⟩
      · exact ⟨none, hrun (by simpa using hthere)⟩
  refine ⟨_, kept, (runs_eq_ok_iff enabled).mpr
    (.inr ⟨isDirectory_eq_true_iff.mpr ⟨place, hlocated⟩, hall, rfl⟩), hkept,
    (sortBy_perm _).trans ?_, hlies⟩
  rw [hentries, List.filterMap_map, hbefore]
  refine (hperm.filterMap _).trans ?_
  rw [List.filterMap_append]
  refine List.Perm.append ?_ (by rw [← hruns]; rfl)
  rw [List.filterMap_map] at *
  refine List.Perm.trans (List.Perm.of_eq ?_) (sortBy_perm _).symm
  refine List.filterMap_congr fun name hname => ?_
  rw [Function.comp, Function.comp, runOf?, runOf?, h.runAt? chosen ground (hother name hname)]

end Running

/-- Recorders that wait for the root have published nothing. -/
lemma Waiting.isPublished (h : Waiting root tasks w) :
    ∀ r ∈ w.recorders, r.isPublished root = false := by
  intro r hr
  obtain ⟨i, hi⟩ := List.getElem?_of_mem hr
  obtain ⟨inner, finale, plan⟩ := r.task.exists_plan root
  rcases h.begun i r hi with hphase | hphase
  · rw [plan.steps, ← List.cons_append, ← List.cons_append] at hphase
    exact isPublished_eq_false plan hphase
  · rw [Recorder.isPublished, hphase]

/-- What holds at every moment: the root is still missing, or the recorders are at work
in it, and it was empty before if it was not there. -/
def Underway (store : HistoryStore) (root : Path) (tasks : List Task) (before : List Run)
    (w : World) : Prop :=
  before = [] ∧ Fits root.names ∧ Waiting root tasks w ∨
    ∃ place base, Ground root place tasks base ∧ Running root place tasks base w ∧
      store.runs base = .ok before

variable {store : HistoryStore} {before : List Run}

/-- An empty root is listed without runs. -/
lemma runs_of_empty (enabled : store.root? = some root) (ground : Ground root place tasks base)
    (empty : ∀ name, base.node? (place ++ [name]) = none) : store.runs base = .ok [] := by
  obtain ⟨names, hchildren, -, hmem⟩ := exists_children ground.sound place
  have hnames : names = [] := by
    rw [List.eq_nil_iff_forall_not_mem]
    exact fun name hname => (hmem name).mp hname (empty name)
  have hentries := entriesOf_eq ground.located hchildren
  rw [hnames, List.map_nil] at hentries
  refine (runs_eq_ok_iff enabled).mpr
    (.inr ⟨isDirectory_eq_true_iff.mpr ⟨place, ground.located⟩, ?_⟩)
  rw [hentries]
  exact ⟨by simp, rfl⟩

/-- Every action leads from one such moment to another. -/
lemma Underway.act (h : Underway store root tasks before w) (enabled : store.root? = some root)
    (chosen : Chosen root tasks) (act : w.act? root turn = some w') :
    Underway store root tasks before w' := by
  rcases h with ⟨rfl, hfits, hwaiting⟩ | ⟨place, base, hground, hrunning, hbefore⟩
  · rcases hwaiting.act chosen hfits act with hwaiting' | ⟨place, hground, hrunning, hempty⟩
    · exact .inl ⟨rfl, hfits, hwaiting'⟩
    · exact .inr ⟨place, w'.tree, hground, hrunning, runs_of_empty enabled hground hempty⟩
  · exact .inr ⟨place, base, hground, hrunning.act chosen hground act, hbefore⟩

lemma Underway.play {turns : List (Nat × Action)} (h : Underway store root tasks before w)
    (enabled : store.root? = some root) (chosen : Chosen root tasks)
    (played : World.play root turns w = some w') : Underway store root tasks before w' := by
  induction turns generalizing w with
  | nil =>
    rw [World.play, Option.some.injEq] at played
    exact played ▸ h
  | cons turn turns ih =>
    simp only [World.play, Option.bind_eq_bind, Option.bind_eq_some_iff] at played
    obtain ⟨next, hact, hrest⟩ := played
    exact ih (h.act enabled chosen hact) hrest

section Start

variable {start : FileTree}

lemma map_task_start (root : Path) (tasks : List Task) :
    (tasks.map (Recorder.start root)).map (·.task) = tasks := by
  rw [List.map_map]
  exact List.map_id tasks

lemma phase_of_start {i : Nat} (hr : (tasks.map (Recorder.start root))[i]? = some r) :
    r.phase = .working (r.task.recording root).steps := by
  rw [List.getElem?_map] at hr
  obtain ⟨task, -, rfl⟩ := Option.map_eq_some_iff.mp hr
  rfl

lemma running_start (ground : Ground root place tasks start) :
    Running root place tasks start ⟨start, tasks.map (.start root)⟩ :=
  running_of_begun (w := ⟨start, tasks.map (.start root)⟩) (map_task_start root tasks) ground
    fun _ _ hr => .inl (phase_of_start hr)

/-- The first moment. -/
lemma underway_start (enabled : store.root? = some root)
    (sound : start.Sound) (unmentioned : Unmentioned (tasks.map (·.id)) start)
    (reached : start.isDirectory root = .ok true ∨ Fits root.names)
    (listed : store.runs start = .ok before) :
    Underway store root tasks before ⟨start, tasks.map (.start root)⟩ := by
  rcases (runs_eq_ok_iff enabled).mp listed with ⟨hmissing, rfl⟩ | ⟨hpresent, -⟩
  · have hfits : Fits root.names := reached.resolve_left (by simp [hmissing])
    exact .inl ⟨rfl, hfits, map_task_start root tasks, sound, unmentioned, hmissing,
      fun _ _ hr => .inl (phase_of_start hr)⟩
  · obtain ⟨place, hplace⟩ := isDirectory_eq_true_iff.mp hpresent
    have hground : Ground root place tasks start := ⟨hplace, sound, unmentioned⟩
    exact .inr ⟨place, start, hground, running_start hground, listed⟩

/-- **A list that is broken off** at first is broken off at every moment, since what breaks
it off does not lie in the directory of any recorder. -/
lemma exists_error_of_play {turns : List (Nat × Action)} {breakdown : Breakdown}
    (enabled : store.root? = some root) (chosen : Chosen root tasks) (sound : start.Sound)
    (unmentioned : Unmentioned (tasks.map (·.id)) start)
    (present : start.isDirectory root = .ok true) (broken : store.runs start = .error breakdown)
    (played : World.play root turns ⟨start, tasks.map (.start root)⟩ = some w) :
    ∃ cause, store.runs w.tree = .error cause := by
  obtain ⟨place, hplace⟩ := isDirectory_eq_true_iff.mp present
  have hground : Ground root place tasks start := ⟨hplace, sound, unmentioned⟩
  have hrunning := (running_start hground).play chosen hground played
  have hlocated := hrunning.located chosen hground
  -- the name of what breaks off is not the name of a new run
  rw [runs_of_isDirectory enabled present, map_eq_error_iff, runsAmong_eq_error_iff] at broken
  obtain ⟨before, path, later, hentries, -, hbreak⟩ := broken
  obtain ⟨old, hold, -, hmem⟩ := exists_children sound place
  have hpath : path ∈ old.map (inside root) := by
    rw [← entriesOf_eq hplace hold, hentries]
    simp
  obtain ⟨name, hname, rfl⟩ := List.mem_map.mp hpath
  have hthere := (hmem name).mp hname
  have hother := hground.not_mem_ids hthere
  -- so the same is read from it
  have hread := hrunning.runAt? chosen hground hother
  rw [hbreak.runAt?, runAt?_eq_error_iff] at hread
  obtain ⟨names, hchildren, -, hmem'⟩ := exists_children hrunning.sound place
  refine exists_error_of_breaksOff enabled (isDirectory_of_locate hlocated) ?_ hread
  rw [entriesOf_eq hlocated hchildren]
  refine List.mem_map_of_mem ((hmem' name).mpr ?_)
  rwa [hrunning.node?_eq hground hother]

end Start

/-! ### A recorder that is left alone -/

lemma play_append (turns more : List (Nat × Action)) :
    World.play root (turns ++ more) w = (World.play root turns w).bind (World.play root more) := by
  induction turns generalizing w with
  | nil => rfl
  | cons turn turns ih =>
    simp only [List.cons_append, World.play, Option.bind_eq_bind]
    cases w.act? root turn with
    | none => rfl
    | some next => exact ih

variable {i : Nat}

/-- The world after an action that is possible. -/
lemma act?_eq_some (hr : w.recorders[i]? = some r)
    (h : r.act? root action w.tree = some (r', next)) :
    w.act? root (i, action) = some ⟨next, w.recorders.set i r'⟩ := by
  simp [World.act?, hr, h]

lemma set_self_of_getElem? {recorders : List Recorder} (hr : recorders[i]? = some r) :
    recorders.set i r = recorders := by
  obtain ⟨hi, rfl⟩ := List.getElem?_eq_some_iff.mp hr
  exact List.set_getElem_self hi

/-- Steps are carried out one after another, up to the first that is impossible. -/
lemma exists_play_performAll {left : List Step} {fault : Option Fault} (alive : r.alive = true)
    (hr : w.recorders[i]? = some r) (phase : r.phase = .working left)
    (done : w.tree.performAll left = (fault, next)) :
    ∃ turns, World.play root turns w = some ⟨next, w.recorders.set i
      { r with phase := if fault.isSome then .cleaning else .working [] }⟩ := by
  induction left generalizing w r with
  | nil =>
    rw [performAll, Prod.mk.injEq] at done
    obtain ⟨rfl, rfl⟩ := done
    refine ⟨[], ?_⟩
    have hself : ({ r with phase := .working [] } : Recorder) = r := by rw [← phase]
    simp [World.play, hself, set_self_of_getElem? hr]
  | cons step left ih =>
    have hi := (List.getElem?_eq_some_iff.mp hr).1
    rw [performAll] at done
    cases hstep : w.tree.perform step with
    | mk first after =>
      have hact : ∀ r', r.act? root .advance w.tree = some (r', after) →
          w.act? root (i, .advance) = some ⟨after, w.recorders.set i r'⟩ :=
        fun r' => act?_eq_some hr
      cases first with
      | none =>
        simp only [hstep] at done
        have hfirst := hact { r with phase := .working left } (by
          simp [Recorder.act?, alive, phase, hstep])
        obtain ⟨turns, hturns⟩ := ih
          (w := ⟨after, w.recorders.set i { r with phase := .working left }⟩)
          (r := { r with phase := .working left }) alive (by simp [hi]) rfl done
        refine ⟨(i, .advance) :: turns, ?_⟩
        rw [World.play, hfirst]
        simpa using hturns
      | some stopped =>
        simp only [hstep, Prod.mk.injEq] at done
        obtain ⟨rfl, rfl⟩ := done
        have hfirst := hact { r with phase := .cleaning } (by
          simp [Recorder.act?, alive, phase, hstep])
        exact ⟨[(i, .advance)], by simp [World.play, hfirst]⟩

namespace Running

/-- Something is taken away that lies alone. -/
lemma play_clean (h : Running root place tasks base w) (chosen : Chosen root tasks)
    (ground : Ground root place tasks base) (hr : w.recorders[i]? = some r)
    (alive : r.alive = true) (phase : r.phase = .cleaning)
    (there : w.tree.node? (place ++ [r.task.id]) = some .directory) {p : Place}
    (inside : place ++ [r.task.id] <+: p) (leaf : w.tree.below p = []) :
    w.act? root (i, .clean p) = some ⟨w.tree.remove p, w.recorders⟩ := by
  obtain ⟨-, hentry, hzero⟩ := (h.settled i r hr).entry.resolve_left (by simp [there])
  have hfound : w.tree.locate false (root.child r.task.id) =
      .ok ⟨place ++ [r.task.id], some .directory⟩ := by
    rw [Path.child_name (chosen.isName (h.mem_tasks hr)),
      locate_child_unfollowed (h.located chosen ground) hentry hzero, there]
  have hact : r.act? root (.clean p) w.tree = some (r, w.tree.remove p) := by
    simp [Recorder.act?, alive, phase, hfound, inside, leaf]
  rw [act?_eq_some hr hact, set_self_of_getElem? hr]

/-- Files in the directory of a run are taken away one after another. -/
lemma play_clean_files (h : Running root place tasks base w) (chosen : Chosen root tasks)
    (ground : Ground root place tasks base) (hr : w.recorders[i]? = some r)
    (alive : r.alive = true) (phase : r.phase = .cleaning)
    (there : w.tree.node? (place ++ [r.task.id]) = some .directory) (places : List Place)
    (inside : ∀ p ∈ places, place ++ [r.task.id] <+: p ∧ p ≠ place ++ [r.task.id])
    (leaf : ∀ p ∈ places, w.tree.below p = []) :
    World.play root (places.map fun p => (i, .clean p)) w =
        some ⟨places.foldl (fun rest p => rest.remove p) w.tree, w.recorders⟩ ∧
      Running root place tasks base
        ⟨places.foldl (fun rest p => rest.remove p) w.tree, w.recorders⟩ := by
  induction places generalizing w with
  | nil => exact ⟨rfl, h⟩
  | cons p places ih =>
    obtain ⟨hinside, hne⟩ := inside p (by simp)
    have hact := h.play_clean chosen ground hr alive phase there hinside (leaf p (by simp))
    have hp : p ≠ [] := by
      rintro rfl
      simp at hinside
    obtain ⟨hplay, hrunning⟩ := ih (w := ⟨w.tree.remove p, w.recorders⟩)
      (h.act chosen ground hact) hr
      (by rw [node?_remove hp, if_neg hne.symm, there])
      (fun q hq => inside q (by simp [hq])) fun q hq => by
        refine below_eq_nil_iff.mpr fun place hstarts hother => ?_
        rw [node?_remove hp, below_eq_nil_iff.mp (leaf q (by simp [hq])) place hstarts hother]
        simp
    refine ⟨?_, hrunning⟩
    rw [List.map_cons, World.play, hact]
    exact hplay

/-- The directory of a run is taken away with everything in it. -/
lemma exists_play_removeTree (h : Running root place tasks base w) (chosen : Chosen root tasks)
    (ground : Ground root place tasks base) (hr : w.recorders[i]? = some r)
    (alive : r.alive = true) (phase : r.phase = .cleaning) :
    ∃ turns, World.play root turns w =
      some ⟨w.tree.removeTree (root.child r.task.id), w.recorders⟩ := by
  by_cases hfound : ∃ directory, w.tree.locate false (root.child r.task.id) =
      .ok ⟨directory, some .directory⟩
  swap
  · exact ⟨[], by rw [removeTree_of_not (not_exists.mp hfound)]; rfl⟩
  obtain ⟨directory, hfound⟩ := hfound
  have hplace := hfound
  rw [Path.child_name (chosen.isName (h.mem_tasks hr))] at hplace
  obtain rfl := place_of_child_unfollowed (h.located chosen ground) hplace
    (chosen.isName (h.mem_tasks hr)).2.1 (runName_ne_up _ _)
  have hthere := node?_of_locate hfound
  have hsettled := h.settled i r hr
  obtain ⟨hplay, hrunning⟩ := h.play_clean_files chosen ground hr alive phase hthere
    (w.tree.below (place ++ [r.task.id]))
    (fun p hp => ⟨(mem_below_iff.mp hp).1, (mem_below_iff.mp hp).2.1⟩) fun p hp => by
      obtain ⟨name, contents, rfl, hfile⟩ := hsettled.exists_file h.sound hp
      refine below_eq_nil_iff.mpr ?_
      rintro q ⟨rest, rfl⟩ hne
      exact h.sound.below (by rw [hfile]; simp) (by simpa using hne)
  -- nothing is left but the directory
  have hroot : [] ∉ w.tree.below (place ++ [r.task.id]) := fun hmem => by
    simpa using (mem_below_iff.mp hmem).1
  have hleft : ∀ q, ((w.tree.below (place ++ [r.task.id])).foldl
      (fun rest p => rest.remove p) w.tree).node? q =
        if q ∈ w.tree.below (place ++ [r.task.id]) then none else w.tree.node? q :=
    node?_foldl_remove hroot w.tree
  have hlast := hrunning.play_clean chosen ground hr alive phase (p := place ++ [r.task.id])
    (by rw [hleft, if_neg (fun hmem => (mem_below_iff.mp hmem).2.1 rfl), hthere])
    (List.prefix_refl _) (below_eq_nil_iff.mpr fun q hstarts hne => by
      rw [hleft]
      split
      · rfl
      · next hmem =>
        by_contra hnode
        exact hmem (mem_below_iff.mpr ⟨hstarts, hne, hnode⟩))
  refine ⟨(w.tree.below (place ++ [r.task.id])).map (fun p => (i, .clean p)) ++
    [(i, .clean (place ++ [r.task.id]))], ?_⟩
  rw [play_append, hplay, Option.bind_some, World.play, hlast, removeTree, hfound]
  simp only [List.foldl_append]
  rfl

end Running

/-- What a recorder that has failed leaves behind is taken away. -/
lemma Underway.exists_play_removeTree (h : Underway store root tasks before w)
    (chosen : Chosen root tasks) (hr : w.recorders[i]? = some r) (alive : r.alive = true)
    (phase : r.phase = .cleaning) :
    ∃ turns, World.play root turns w =
      some ⟨w.tree.removeTree (root.child r.task.id), w.recorders⟩ := by
  rcases h with ⟨-, -, hwaiting⟩ | ⟨place, base, hground, hrunning, -⟩
  · exact ⟨[], by rw [removeTree_of_not fun _ => hwaiting.not_found chosen hr]; rfl⟩
  · exact hrunning.exists_play_removeTree chosen hground hr alive phase

/-- **A recorder that is left alone** can bring its recording to its end, in whatever state
the others have left the store: the tree is the one that the recording leaves, and the
manifest has its name if and only if the recording gives the name of the run. -/
theorem Underway.exists_play_run (h : Underway store root tasks before w)
    (enabled : store.root? = some root) (chosen : Chosen root tasks)
    (hr : w.recorders[i]? = some r) (alive : r.alive = true)
    (begun : r.phase = .working (r.task.recording root).steps) :
    ∃ turns last, World.play root turns w =
        some ⟨((r.task.recording root).run w.tree).2, w.recorders.set i last⟩ ∧
      (last.isPublished root = true ↔ ((r.task.recording root).run w.tree).1 = .ok r.task.id) := by
  have hi := (List.getElem?_eq_some_iff.mp hr).1
  obtain ⟨hid, hdirectory⟩ := r.task.recording_id_directory root
  -- after a failure the directory is taken away
  have hclean : ∀ {turns : List (Nat × Action)} {left : FileTree},
      World.play root turns w = some ⟨left, w.recorders.set i { r with phase := .cleaning }⟩ →
      ∃ more, World.play root more w =
        some ⟨left.removeTree (r.task.recording root).directory,
          w.recorders.set i { r with phase := .cleaning }⟩ := by
    intro turns left hturns
    obtain ⟨more, hmore⟩ := (h.play enabled chosen hturns).exists_play_removeTree
      (i := i) (r := { r with phase := .cleaning }) chosen (by simp [hi]) alive rfl
    exact ⟨turns ++ more, by rw [play_append, hturns, Option.bind_some, hmore, hdirectory]⟩
  cases hdone : w.tree.performAll (r.task.recording root).steps with
  | mk fault left =>
    obtain ⟨turns, hturns⟩ := exists_play_performAll alive hr begun hdone
    cases fault with
    | some fault =>
      obtain ⟨more, hmore⟩ := hclean hturns
      rw [run_of_fault hdone]
      exact ⟨more, _, hmore, by simp [Recorder.isPublished]⟩
    | none =>
      cases hrefusal : (r.task.recording root).refusal with
      | some refusal =>
        have hadvance : Recorder.act? root .advance { r with phase := .working [] } left =
            some ({ r with phase := .cleaning }, left) := by
          simp [Recorder.act?, alive, hrefusal]
        have hgiven : World.play root (turns ++ [(i, .advance)]) w =
            some ⟨left, w.recorders.set i { r with phase := .cleaning }⟩ := by
          rw [play_append, hturns, Option.bind_some, World.play,
            act?_eq_some (by simp [hi]) hadvance]
          simp [World.play]
        obtain ⟨more, hmore⟩ := hclean hgiven
        rw [run_of_refused hdone hrefusal]
        exact ⟨more, _, hmore, by simp [Recorder.isPublished]⟩
      | none =>
        rw [run_of_done hdone hrefusal, hid]
        exact ⟨turns, _, hturns, by simp [Recorder.isPublished, hrefusal]⟩

/-- **Crash safety**: whatever recorders do beside one another in one root, in whatever
order, and whichever of them fail or are killed after whatever step, at every moment the
store lists exactly the runs that it listed before and those whose manifests have got their
names, and of each of these the whole manifest and all kept bytes are there. The names of
the runs are new. A root that is not there at first has no `..` in its path, since the path
could lead to old runs once the directories in front of the `..` are made, and no name that
is too long, since its directories could be made only in part. -/
theorem play_lists_published (tasks : List Task) (turns : List (Nat × Action)) {start : FileTree}
    (enabled : store.root? = some root) (chosen : Chosen root tasks) (sound : start.Sound)
    (unmentioned : Unmentioned (tasks.map (·.id)) start)
    (reached : start.isDirectory root = .ok true ∨ Fits root.names)
    (listed : store.runs start = .ok before)
    (played : World.play root turns ⟨start, tasks.map (.start root)⟩ = some w) :
    w.recorders.map (·.task) = tasks ∧ ∃ runs kept, store.runs w.tree = .ok runs ∧
      List.Forall₂ (fun r k => r.task.IsKeptAs k) (w.recorders.filter (·.isPublished root)) kept ∧
      runs.Perm (before ++ kept.map (·.run root)) ∧
      ∀ k ∈ kept, ∃ place, w.tree.locate true root = .ok ⟨place, some .directory⟩ ∧
        k.LiesIn place w.tree := by
  rcases (underway_start enabled sound unmentioned reached listed).play enabled chosen played with
    ⟨rfl, -, hwaiting⟩ | ⟨place, base, hground, hrunning, hbefore⟩
  · have hfilter : w.recorders.filter (·.isPublished root) = [] := by
      rw [List.filter_eq_nil_iff]
      exact fun r hr => by simp [hwaiting.isPublished r hr]
    refine ⟨hwaiting.own, [], [], (runs_eq_ok_iff enabled).mpr (.inl ⟨hwaiting.missing, rfl⟩), ?_,
      .refl _, by simp⟩
    rw [hfilter]
    exact .nil
  · obtain ⟨runs, kept, hruns, hkept, hperm, hlies⟩ :=
      hrunning.exists_runs chosen hground enabled hbefore
    exact ⟨hrunning.own, runs, kept, hruns, hkept, hperm, fun k hk =>
      ⟨place, hrunning.located chosen hground, hlies k hk⟩⟩

/-- Recordings of one replacement under the names of the given unique parts. -/
def replacing (uniques : List String) : List Task :=
  uniques.map fun unique => ⟨{ someDay with unique, token := unique }, someDay.clock, [],
    smallBlueprint, "e.yaml", oneReplacement.journaled⟩

/-- A run is recorded in a root that is not there yet. Then the first of two recordings
beside one another is finished, and the second is killed while it writes its manifest. -/
theorem play_lists_published_oneKilled :
    ∃ first before last runs kept,
      World.play (.ofText "/h") (List.replicate 12 (0, .advance))
        ⟨empty [], (replacing ["1"]).map (.start (.ofText "/h"))⟩ = some first ∧
      (HistoryStore.mk "/h" true).runs first.tree = .ok before ∧ before.length = 1 ∧
      World.play (.ofText "/h") (List.replicate 7 (0, .advance) ++ List.replicate 8 (1, .advance) ++
          (1, .write 3) :: List.replicate 5 (0, .advance) ++ [(1, .kill)])
        ⟨first.tree, (replacing ["2", "3"]).map (.start (.ofText "/h"))⟩ = some last ∧
      last.recorders.map (·.isPublished (.ofText "/h")) = [true, false] ∧
      (HistoryStore.mk "/h" true).runs last.tree = .ok runs ∧
      List.Forall₂ (fun r k => r.task.IsKeptAs k)
        (last.recorders.filter (·.isPublished (.ofText "/h"))) kept ∧
      runs.Perm (before ++ kept.map (·.run (.ofText "/h"))) ∧
      ∀ k ∈ kept, ∃ place, last.tree.locate true (.ofText "/h") = .ok ⟨place, some .directory⟩ ∧
        k.LiesIn place last.tree := by
  have hdone : (World.play (.ofText "/h") (List.replicate 12 (0, .advance))
      ⟨empty [], (replacing ["1"]).map (.start (.ofText "/h"))⟩).any fun first =>
        (World.play (.ofText "/h") (List.replicate 7 (0, .advance) ++
            List.replicate 8 (1, .advance) ++ (1, .write 3) :: List.replicate 5 (0, .advance) ++
              [(1, .kill)])
          ⟨first.tree, (replacing ["2", "3"]).map (.start (.ofText "/h"))⟩).any fun last =>
            decide ((first.recorders.filter (·.isPublished (.ofText "/h"))).length = 1 ∧
              first.tree.Sound ∧
              (∀ entry ∈ first.tree.nodes, Avoids ((replacing ["2", "3"]).map (·.id)) entry.1 ∧
                Avoids ((replacing ["2", "3"]).map (·.id)) entry.2.mentions) ∧
              last.recorders.map (·.isPublished (.ofText "/h")) = [true, false]) := by
    decide +kernel
  obtain ⟨first, hfirst, hrest⟩ := (Option.any_eq_true _ _).mp hdone
  obtain ⟨last, hlast, hconditions⟩ := (Option.any_eq_true _ _).mp hrest
  obtain ⟨hone, hsound, hnodes, hpublished⟩ := of_decide_eq_true hconditions
  have enabled : (HistoryStore.mk "/h" true).root? = some (.ofText "/h") := by decide +kernel
  have chosen : ∀ uniques ∈ [["1"], ["2", "3"]], Chosen (.ofText "/h") (replacing uniques) := by
    simp only [List.forall_mem_cons, List.not_mem_nil, false_implies, implies_true, and_true]
    exact ⟨⟨by decide +kernel, by decide +kernel, by decide +kernel⟩,
      ⟨by decide +kernel, by decide +kernel, by decide +kernel⟩⟩
  have hfits : Fits (Path.ofText "/h").names := by decide +kernel
  obtain ⟨-, before, kept, hbefore, hkept, hperm, -⟩ := play_lists_published (replacing ["1"]) _
    enabled (chosen _ (by simp)) (by decide +kernel) (unmentioned_of_nodes (by simp [empty]))
    (.inr hfits) ((runs_eq_ok_iff enabled).mpr (.inl ⟨by decide +kernel, rfl⟩)) hfirst
  obtain ⟨-, runs, kept', hruns, hkept', hperm', hlies⟩ := play_lists_published
    (replacing ["2", "3"]) _ enabled (chosen _ (by simp)) hsound (unmentioned_of_nodes hnodes)
    (.inr hfits) hbefore hlast
  refine ⟨first, before, last, runs, kept', hfirst, hbefore, ?_, hlast, hpublished, hruns, hkept',
    hperm', hlies⟩
  rw [hperm.length_eq, List.nil_append, List.length_map, ← hkept.length_eq, hone]

/-- A run is recorded beside a manifest with too many digits. Its manifest gets its name, and
still it is not listed. -/
theorem play_lists_nothing_longRun :
    ∃ last cause,
      Chosen (.ofText "/h") (replacing ["1"]) ∧ longRun.Sound ∧
      Unmentioned ((replacing ["1"]).map (·.id)) longRun ∧
      World.play (.ofText "/h") (List.replicate 12 (0, .advance))
        ⟨longRun, (replacing ["1"]).map (.start (.ofText "/h"))⟩ = some last ∧
      last.recorders.map (·.isPublished (.ofText "/h")) = [true] ∧
      (HistoryStore.mk "/h" true).runs last.tree = .error cause := by
  have hdone : (World.play (.ofText "/h") (List.replicate 12 (0, .advance))
      ⟨longRun, (replacing ["1"]).map (.start (.ofText "/h"))⟩).any fun last =>
        decide (last.recorders.map (·.isPublished (.ofText "/h")) = [true]) := by
    decide +kernel
  obtain ⟨last, hlast, hpublished⟩ := (Option.any_eq_true _ _).mp hdone
  have enabled : (HistoryStore.mk "/h" true).root? = some (.ofText "/h") := by decide +kernel
  have chosen : Chosen (.ofText "/h") (replacing ["1"]) :=
    ⟨by decide +kernel, by decide +kernel, by decide +kernel⟩
  have sound : longRun.Sound := by decide +kernel
  have unmentioned : Unmentioned ((replacing ["1"]).map (·.id)) longRun :=
    unmentioned_of_nodes (by decide +kernel)
  have present : longRun.isDirectory (.ofText "/h") = .ok true := by decide +kernel
  have hread : longRun.read ((inside (.ofText "/h") "bad").child Manifest.fileName) =
      .ok (List.replicate 4301 49) := by rfl
  have hbreak : BreaksOff longRun (inside (.ofText "/h") "bad") .hugeInteger :=
    .of_ones (by decide +kernel) hread (by rw [List.length_replicate]; decide)
      fun b hb => List.eq_of_mem_replicate hb
  obtain ⟨_, hbroken⟩ := exists_error_of_breaksOff enabled present (by decide +kernel) hbreak
  obtain ⟨cause, hcause⟩ := exists_error_of_play enabled chosen sound unmentioned present hbroken
    hlast
  exact ⟨last, cause, chosen, sound, unmentioned, hlast, of_decide_eq_true hpublished, hcause⟩

end Scaffold
