import Scaffold.Proofs.History.Damage
import Scaffold.Proofs.History.Succession
import Scaffold.Proofs.History.Undoing

/-!
Rolling back executions, the last one first.

An execution is undone change by change in the reverse order of its sequences and
entries. So the rollback of executions in the reverse of their order takes all files back
to where they were before the first of them, however often they have written a file.

* `Execution`: the batches of one manager under one name.
* `rollBack`, `rollBackAll`: executions are selected, planned and undone, one after
  another.
* `exists_rollBack`: the rollback of one execution; `exists_rollBackAll`: of several.
* `rollBackAll_of_error`: without a list there is no rollback.
* `rollBackAll_undoes`: what is left in the end.
-/

namespace Scaffold

open Files FileTree Number

variable {tree start middle after : FileTree} {root : Path} {place : Place}
  {store : HistoryStore} {kept : List KeptRun} {token execution : String}

/-- The batches of one manager under one name. -/
structure Execution extends Session where
  /-- The name. -/
  id : String

/-- The batches of an execution have its name. -/
def Execution.IsNamed (x : Execution) : Prop :=
  ∀ batch ∈ x.batches, batch.execution = some x.id

instance (x : Execution) : Decidable x.IsNamed :=
  inferInstanceAs (Decidable (∀ batch ∈ x.batches, _))

/-- An execution is rolled back: its runs are selected, and what undoes them is carried
out. -/
def rollBack (store : HistoryStore) (token execution : String) (tree : FileTree) :
    Option (UndoReport × FileTree) :=
  match store.select tree none (some execution) false with
  | .error _ => none
  | .ok runs =>
    match undoAll token (planUndo tree runs) tree with
    | (.error _, _) => none
    | (.ok outcomes, after) => some (⟨outcomes, false⟩, after)

/-- Executions are rolled back one after another, each with a name for temporary files. -/
def rollBackAll (store : HistoryStore) :
    List (String × String) → FileTree → Option (List UndoReport × FileTree)
  | [], tree => some ([], tree)
  | (token, execution) :: rest, tree => do
    let (report, next) ← rollBack store token execution tree
    let (reports, after) ← rollBackAll store rest next
    return (report :: reports, after)

/-! ### What has been recorded -/

/-- The runs of batches of one execution belong to it. -/
lemma execution_of_mem_generateAll {journal : Journal} {batches : List Batch}
    {deeds : List Deed} {named : Option String} (h : ∀ batch ∈ batches, batch.execution = named)
    (done : generateAll journal batches tree = some (deeds, after)) :
    ∀ deed ∈ deeds, deed.execution = named := by
  induction batches generalizing journal tree deeds with
  | nil =>
    simp only [generateAll, Option.some.injEq, Prod.mk.injEq] at done
    simp [← done.1]
  | cons batch batches ih =>
    simp only [generateAll, Option.bind_eq_bind, Option.bind_eq_some_iff, Prod.exists,
      Option.pure_def, Option.some.injEq, Prod.mk.injEq] at done
    obtain ⟨first, next, middle, hfirst, more, last, hmore, rfl, rfl⟩ := done
    intro deed hdeed
    rcases List.mem_append.mp hdeed with hdeed | hdeed
    · rw [Batch.generate] at hfirst
      split at hfirst
      · cases hfirst
      · split at hfirst
        · simp only [Option.some.injEq, Prod.mk.injEq] at hfirst
          rw [← hfirst.1, List.mem_singleton] at hdeed
          rw [hdeed]
          exact h batch (by simp)
        · simp only [Option.some.injEq, Prod.mk.injEq] at hfirst
          simp [← hfirst.1] at hdeed
        · cases hfirst
    · exact ih (fun b hb => h b (by simp [hb])) hmore deed hdeed

/-- The runs of executions belong to them. -/
lemma forall₂_execution {xs : List Execution} {deeds : List (List Deed)}
    (named : ∀ x ∈ xs, x.IsNamed)
    (done : Session.performAll (xs.map (·.toSession)) tree = some (deeds, after)) :
    List.Forall₂ (fun x ds => ∀ deed ∈ ds, deed.execution = some x.id) xs deeds := by
  induction xs generalizing tree deeds with
  | nil =>
    simp only [List.map_nil, Session.performAll, Option.some.injEq, Prod.mk.injEq] at done
    rw [← done.1]
    exact .nil
  | cons x xs ih =>
    simp only [List.map_cons, Session.performAll, Option.bind_eq_bind, Option.bind_eq_some_iff,
      Prod.exists, Option.pure_def, Option.some.injEq, Prod.mk.injEq] at done
    obtain ⟨first, middle, hfirst, more, last, hmore, rfl, rfl⟩ := done
    exact .cons (execution_of_mem_generateAll (named x (by simp)) hfirst)
      (ih (fun y hy => named y (by simp [hy])) hmore)

/-- What has been kept of an execution belongs to it. -/
lemma executionId_of_forall₂ {deeds : List Deed} {runs : List KeptRun} {named : Option String}
    (h : ∀ deed ∈ deeds, deed.execution = named) (own : List.Forall₂ Deed.IsKeptAs deeds runs)
    {r : KeptRun} (hr : r ∈ runs) : r.manifest.executionId = named := by
  induction own with
  | nil => cases hr
  | cons hdeed _ ih =>
    rcases List.mem_cons.mp hr with rfl | hr
    · exact hdeed.execution.trans (h _ (by simp))
    · exact ih (fun deed hdeed => h deed (by simp [hdeed])) hr

/-- What has been kept of executions belongs to one of them. -/
lemma exists_execution {xs : List Execution} {deeds : List (List Deed)}
    {runs : List (List KeptRun)} {r : KeptRun}
    (named : List.Forall₂ (fun x ds => ∀ deed ∈ ds, deed.execution = some x.id) xs deeds)
    (own : List.Forall₂ (List.Forall₂ Deed.IsKeptAs) deeds runs) (hr : r ∈ runs.flatten) :
    ∃ x ∈ xs, r.manifest.executionId = some x.id := by
  induction named generalizing runs with
  | nil =>
    cases own
    cases hr
  | @cons x _ _ _ hx _ ih =>
    cases own with
    | cons hrs hruns =>
      rw [List.flatten_cons, List.mem_append] at hr
      rcases hr with hr | hr
      · exact ⟨x, by simp, executionId_of_forall₂ hx hrs hr⟩
      · obtain ⟨y, hy, hname⟩ := ih hruns hr
        exact ⟨y, by simp [hy], hname⟩

/-! ### One execution -/

/-- Sequences that are each greater than the one before grow. -/
lemma pairwise_less_of_isChain {last : Binary64} {xs : List Binary64}
    (h : List.IsChain (fun x y => x.less y = true) (last :: xs)) :
    xs.Pairwise fun x y => x.less y = true := by
  have : Trans (fun x y : Binary64 => x.less y = true) (fun x y => x.less y = true)
      (fun x y => x.less y = true) := ⟨fun {x y z} hxy hyz => by
    obtain ⟨m, n, hm, hn, hlt⟩ := less_iff.mp hxy
    obtain ⟨m', n', hm', hn', hlt'⟩ := less_iff.mp hyz
    rw [hn, Option.some.injEq] at hm'
    exact less_iff.mpr ⟨m, n', hm, hn', by omega⟩⟩
  exact (List.pairwise_cons.mp (List.isChain_iff_pairwise.mp h)).2

/-- So do those of the runs of each execution. -/
lemma pairwise_less_of_forall₂ {xs : List Execution} {deeds : List (List Deed)}
    (h : List.Forall₂ (fun x ds => List.IsChain (fun x y => x.less y = true)
      (x.journal.last :: ds.map (·.sequence))) xs deeds) :
    ∀ ds ∈ deeds, (ds.map (·.sequence)).Pairwise fun x y => x.less y = true := by
  induction h with
  | nil => simp
  | cons hchain _ ih => exact List.forall_mem_cons.mpr ⟨pairwise_less_of_isChain hchain, ih⟩

lemma hasErrors_eq_false {outcomes : List UndoOutcome}
    (h : ∀ outcome ∈ outcomes, outcome.status ≠ .error) :
    (UndoReport.mk outcomes false).hasErrors = false := by
  have hnil : outcomes.filter (·.status == .error) = [] := by
    rw [List.filter_eq_nil_iff]
    intro outcome houtcome
    simpa using h outcome houtcome
  simp [UndoReport.hasErrors, UndoReport.count, hnil]

/-- The runs of deeds have their sequences. -/
lemma map_sequence_of_forall₂ (root : Path) {deeds : List Deed} {runs : List KeptRun}
    (own : List.Forall₂ Deed.IsKeptAs deeds runs) :
    (runs.map (·.run root)).map (·.manifest.sequence) = (deeds.map (·.sequence)).map some := by
  induction own with
  | nil => rfl
  | cons hdeed _ ih =>
    rw [List.map_cons, List.map_cons, List.map_cons, List.map_cons, ih]
    exact congrArg (· :: _) hdeed.sequence

/-- **The rollback of one execution** takes its runs back in the reverse of the order in
which they were recorded. -/
lemma exists_rollBack {other : Manifest → Prop} (enabled : store.root? = some root)
    (filled : filledText (some execution) = some execution) (sound : start.Sound)
    (fresh : IsFreshToken token start) (standing : Standing start root place other kept tree)
    (foreign : ∀ m, other m → m.executionId ≠ some execution) {deeds : List Deed}
    {runs : List KeptRun} (own : List.Forall₂ Deed.IsKeptAs deeds runs)
    (selected : kept.filter (·.manifest.executionId == some execution) = runs)
    (rising : (deeds.map (·.sequence)).Pairwise fun x y => x.less y = true)
    {before : Place → Option Bytes}
    (trail : Trail start place before (deeds.flatMap (·.changes)) (outside place tree))
    (plain : ∀ change ∈ deeds.flatMap (·.changes),
      ".." ∉ (Path.ofText change.entry.fullPath).names)
    (files : ∀ change ∈ deeds.flatMap (·.changes), ∃ goal bytes,
      start.locate true (.ofText change.entry.fullPath) = .ok ⟨goal, some (.file bytes)⟩) :
    ∃ report after, rollBack store token execution tree = some (report, after) ∧
      report.hasErrors = false ∧ Standing start root place other kept after ∧
      outside place after = before := by
  obtain ⟨found, hselect, hperm⟩ := exists_select false enabled filled standing.rewound.sound
    standing.rewound.named (standing.holds.mono foreign)
    (.inl (standing.rewound.ways.locate standing.located))
  rw [selected] at hperm
  -- sequences grow, so the plan begins with the run recorded last
  have hsequences := map_sequence_of_forall₂ root own
  have hreverse : (runs.map (·.run root)).reverse.map (·.manifest.sequence) =
      (deeds.map (·.sequence)).reverse.map some := by
    rw [List.map_reverse, List.map_reverse, hsequences]
  have hplan : planUndo tree found = (runs.map (·.run root)).reverse.flatMap undoOf := by
    rw [planUndo, newestFirst_eq_of_perm tree
      (pairwise_isNewer hreverse (List.pairwise_reverse.mpr rising))
      (hperm.trans (List.reverse_perm _).symm)]
  have hsub : ∀ r ∈ runs, r ∈ kept := fun r hr => (List.mem_filter.mp (selected ▸ hr)).1
  obtain ⟨after, ⟨outcomes, hundo, hnone⟩, hstanding, houtside⟩ :=
    undo_runs standing sound fresh own hsub trail plain files
  refine ⟨⟨outcomes, false⟩, after, ?_, hasErrors_eq_false hnone, hstanding, houtside⟩
  rw [rollBack, hselect]
  simp only [hplan, hundo]

/-! ### Executions one after another -/

lemma rollBackAll_append {xs ys : List (String × String)} {reports more : List UndoReport}
    (h : rollBackAll store xs tree = some (reports, middle))
    (h' : rollBackAll store ys middle = some (more, after)) :
    rollBackAll store (xs ++ ys) tree = some (reports ++ more, after) := by
  induction xs generalizing tree reports with
  | nil =>
    simp only [rollBackAll, Option.some.injEq, Prod.mk.injEq] at h
    obtain ⟨rfl, rfl⟩ := h
    exact h'
  | cons x xs ih =>
    simp only [rollBackAll, Option.bind_eq_bind, Option.bind_eq_some_iff, Prod.exists,
      Option.pure_def, Option.some.injEq, Prod.mk.injEq] at h
    obtain ⟨report, next, hfirst, rest, last, hrest, rfl, rfl⟩ := h
    simp [rollBackAll, hfirst, ih hrest]

/-- Without a root there is nothing to roll back. -/
lemma rollBackAll_of_missing (enabled : store.root? = some root)
    (missing : tree.isDirectory root = .ok false) (xs : List (String × String)) :
    ∃ reports, rollBackAll store xs tree = some (reports, tree) ∧
      ∀ report ∈ reports, report.hasErrors = false := by
  induction xs with
  | nil => exact ⟨[], rfl, by simp⟩
  | cons x xs ih =>
    obtain ⟨reports, hreports, hnone⟩ := ih
    have hruns : store.runs tree = .ok [] := (runs_eq_ok_iff enabled).mpr (.inl ⟨missing, rfl⟩)
    have hselect : store.select tree none (some x.2) false = .ok [] := by
      have : filledText none = none := rfl
      rw [HistoryStore.select, this]
      simp only [hruns]
      rfl
    have hroll : rollBack store x.1 x.2 tree = some (⟨[], false⟩, tree) := by
      rw [rollBack, hselect]
      rfl
    refine ⟨⟨[], false⟩ :: reports, by simp [rollBackAll, hroll, hreports], ?_⟩
    simpa using ⟨hasErrors_eq_false (by simp), hnone⟩

/-- Where nothing can be listed, nothing is rolled back. -/
lemma rollBackAll_of_error {cause : Breakdown} (broken : store.runs tree = .error cause)
    (x : String × String) (xs : List (String × String)) :
    rollBackAll store (x :: xs) tree = none := by
  have hnone : filledText none = none := rfl
  have hselect : store.select tree none (some x.2) false = .error cause := by
    rw [HistoryStore.select, hnone]
    simp only [broken]
    rfl
  have hroll : rollBack store x.1 x.2 tree = none := by
    rw [rollBack, hselect]
  simp [rollBackAll, hroll]

/-- The runs of one execution stand together between those of others. -/
lemma filter_executionId {first rs rest : List KeptRun}
    (before : ∀ r ∈ first, r.manifest.executionId ≠ some execution)
    (own : ∀ r ∈ rs, r.manifest.executionId = some execution)
    (behind : ∀ r ∈ rest, r.manifest.executionId ≠ some execution) :
    (first ++ rs ++ rest).filter (·.manifest.executionId == some execution) = rs := by
  have hfirst : first.filter (·.manifest.executionId == some execution) = [] := by
    rw [List.filter_eq_nil_iff]
    simpa using before
  have hown : rs.filter (·.manifest.executionId == some execution) = rs := by
    rw [List.filter_eq_self]
    simpa using own
  have hrest : rest.filter (·.manifest.executionId == some execution) = [] := by
    rw [List.filter_eq_nil_iff]
    simpa using behind
  rw [List.filter_append, List.filter_append, hfirst, hown, hrest, List.nil_append,
    List.append_nil]

/-- **Executions are rolled back**, the last one first: all files get the bytes that they
had before the first one. -/
lemma exists_rollBackAll {other : Manifest → Prop} {tokens : String → String}
    {xs : List Execution} {deeds : List (List Deed)} {runs : List (List KeptRun)}
    {first : List KeptRun} (enabled : store.root? = some root) (sound : start.Sound)
    (filled : ∀ x ∈ xs, filledText (some x.id) = some x.id)
    (fresh : ∀ x ∈ xs, IsFreshToken (tokens x.id) start) (distinct : (xs.map (·.id)).Nodup)
    (foreign : ∀ x ∈ xs, ∀ m, other m → m.executionId ≠ some x.id)
    (earlier : ∀ r ∈ first, ∀ x ∈ xs, r.manifest.executionId ≠ some x.id)
    (own : List.Forall₂ (List.Forall₂ Deed.IsKeptAs) deeds runs)
    (named : List.Forall₂ (fun x ds => ∀ deed ∈ ds, deed.execution = some x.id) xs deeds)
    (rising : ∀ ds ∈ deeds, (ds.map (·.sequence)).Pairwise fun x y => x.less y = true)
    (standing : Standing start root place other (first ++ runs.flatten) tree)
    {before : Place → Option Bytes}
    (trail : Trail start place before (deeds.flatten.flatMap (·.changes)) (outside place tree))
    (plain : ∀ change ∈ deeds.flatten.flatMap (·.changes),
      ".." ∉ (Path.ofText change.entry.fullPath).names)
    (files : ∀ change ∈ deeds.flatten.flatMap (·.changes), ∃ goal bytes,
      start.locate true (.ofText change.entry.fullPath) = .ok ⟨goal, some (.file bytes)⟩) :
    ∃ reports after,
      rollBackAll store (xs.map fun x => (tokens x.id, x.id)).reverse tree = some (reports, after) ∧
      (∀ report ∈ reports, report.hasErrors = false) ∧ outside place after = before ∧
      Standing start root place other (first ++ runs.flatten) after := by
  induction named generalizing first runs before with
  | nil =>
    cases own
    simp only [List.flatten_nil, List.flatMap_nil] at trail
    generalize hbehind : outside place tree = behind at trail
    cases trail
    exact ⟨[], tree, rfl, by simp, hbehind, standing⟩
  | @cons x ds xs deeds hx hxs ih =>
    cases own with
    | @cons _ rs _ runs hrs hruns =>
    rw [List.flatten_cons, List.flatMap_append] at trail plain files
    rw [List.flatten_cons, ← List.append_assoc] at standing ⊢
    obtain ⟨hnot, hdistinct⟩ := List.nodup_cons.mp distinct
    obtain ⟨between, hfirst, hrest⟩ := Trail.append_iff.mp trail
    -- the runs of this execution have its name, and those of the others have not
    have hown := fun r (hr : r ∈ rs) => executionId_of_forall₂ hx hrs hr
    have hlater : ∀ r ∈ runs.flatten, r.manifest.executionId ≠ some x.id := by
      intro r hr heq
      obtain ⟨y, hy, hname⟩ := exists_execution hxs hruns hr
      rw [hname, Option.some.injEq] at heq
      exact hnot (List.mem_map.mpr ⟨y, hy, heq⟩)
    have hbefore : ∀ r ∈ first ++ rs, ∀ y ∈ xs, r.manifest.executionId ≠ some y.id := by
      intro r hr y hy
      rcases List.mem_append.mp hr with hr | hr
      · exact earlier r hr y (by simp [hy])
      · rw [hown r hr, Ne, Option.some.injEq]
        exact fun heq => hnot (List.mem_map.mpr ⟨y, hy, heq.symm⟩)
    obtain ⟨reports, middle, hroll, hnone, rfl, hstanding⟩ :=
      ih (fun y hy => filled y (by simp [hy])) (fun y hy => fresh y (by simp [hy])) hdistinct
        (fun y hy => foreign y (by simp [hy])) hbefore hruns
        (fun ds hds => rising ds (by simp [hds])) standing hrest
        (fun c hc => plain c (List.mem_append_right _ hc))
        (fun c hc => files c (List.mem_append_right _ hc))
    obtain ⟨report, after, hlast, herrors, hstanding', houtside⟩ :=
      exists_rollBack enabled (filled x (by simp)) sound (fresh x (by simp)) hstanding
        (foreign x (by simp)) hrs (filter_executionId (fun r hr => earlier r hr x (by simp))
          hown hlater) (rising ds (by simp)) hfirst
        (fun c hc => plain c (List.mem_append_left _ hc))
        (fun c hc => files c (List.mem_append_left _ hc))
    refine ⟨reports ++ [report], after, ?_, ?_, houtside, hstanding'⟩
    · rw [List.map_cons, List.reverse_cons]
      exact rollBackAll_append hroll (by simp [rollBackAll, hlast])
    · intro r hr
      rcases List.mem_append.mp hr with hr | hr
      · exact hnone r hr
      · exact List.mem_singleton.mp hr ▸ herrors

/-- **Rolling back undoes executions**: when the executions at the end of a history are
rolled back, the last one first, no error is reported, and outside the store every file
has the bytes that it had before the first of them, or is absent when it was absent. What
lies in the store at first can be read and belongs to none of these executions, sequences
are exact, and no file is written into the store or by a path that comes back through
`..`. -/
theorem rollBackAll_undoes (earlier later : List Execution) (tokens : String → String)
    {past deeds : List (List Deed)} (enabled : store.root? = some root)
    (distinct : ((earlier ++ later).map (·.id)).Nodup)
    (filled : ∀ x ∈ later, filledText (some x.id) = some x.id)
    (named : ∀ x ∈ earlier ++ later, x.IsNamed)
    (fits : ∀ x ∈ earlier ++ later, x.toSession.Fits root after place)
    (sound : start.Sound) (fit : start.Named) (noLinks : start.NoLinks)
    (first : Session.performAll (earlier.map (·.toSession)) start = some (past, middle))
    (second : Session.performAll (later.map (·.toSession)) middle = some (deeds, after))
    (exact : List.Forall₂ (fun x ds => List.IsChain (fun x y => x.less y = true)
      (x.journal.last :: ds.map (·.sequence))) later deeds)
    (plain : ∀ change ∈ deeds.flatten.flatMap (·.changes),
      ".." ∉ (Path.ofText change.entry.fullPath).names)
    (reached : ∃ present, after.isDirectory root = .ok present)
    (top : IsTop after root place)
    (before : Holds place (fun m => ∀ x ∈ later, m.executionId ≠ some x.id) [] start)
    (fresh : ∀ x ∈ later, IsFreshToken (tokens x.id) after) :
    ∃ reports last,
      rollBackAll store (later.map fun x => (tokens x.id, x.id)).reverse after =
        some (reports, last) ∧
      (∀ report ∈ reports, report.hasErrors = false) ∧
      ∀ p, ¬ place <+: p → last.contents? p = middle.contents? p := by
  obtain ⟨runs, hruns, hcourse⟩ := exists_course_of_performAll after sound top
    (by simpa using fun x hx => fits x (List.mem_append_left _ hx)) first
  obtain ⟨others, hothers, hcourse'⟩ := exists_course_of_performAll after hcourse.sound
    top (by simpa using fun x hx => fits x (List.mem_append_right _ hx)) second
  have htrail := hcourse'.trail (.refl after)
  have hsame : ∀ {last : FileTree}, outside place last = outside place middle →
      ∀ p, ¬ place <+: p → last.contents? p = middle.contents? p := fun heq p hp => by
    rw [← outside_of_not hp, heq, outside_of_not hp]
  obtain ⟨present, hpresent⟩ := reached
  cases present with
  | false =>
    -- no run has been recorded, so nothing has changed
    have hnil : others.flatten = [] := by
      by_contra hne
      rw [isDirectory_eq_true_iff.mpr ⟨_, hcourse'.located (.refl after) hne⟩] at hpresent
      cases hpresent
    have hdeeds : deeds.flatten = [] := by
      have hlength : (deeds.flatten).length = (others.flatten).length := by
        clear htrail hcourse' hnil exact plain second
        induction hothers with
        | nil => rfl
        | cons h _ ih =>
          rw [List.flatten_cons, List.flatten_cons, List.length_append, List.length_append,
            h.length_eq, ih]
      rw [hnil] at hlength
      exact List.length_eq_zero_iff.mp hlength
    obtain ⟨reports, hreports, hnone⟩ := rollBackAll_of_missing enabled hpresent _
    refine ⟨reports, after, hreports, hnone, hsame ?_⟩
    rw [hdeeds, List.flatMap_nil] at htrail
    generalize outside place after = behind at htrail
    cases htrail
    rfl
  | true =>
    obtain ⟨other, hother⟩ := isDirectory_eq_true_iff.mp hpresent
    obtain rfl := top other hother
    have hkeeps := hcourse.keeps.trans hcourse'.keeps
    have hstanding : Standing after root other (fun m => ∀ x ∈ later, m.executionId ≠ some x.id)
        (runs.flatten ++ others.flatten) after :=
      ⟨.refl hcourse'.sound (hcourse'.named (hcourse.named fit)), by
        simpa using hcourse'.holds (.refl after) _ _ (hcourse.holds hcourse'.keeps _ [] before),
        hother, fun p target hlink => noLinks p target ((hkeeps.link p target).mp hlink)⟩
    have hfiles : ∀ change ∈ deeds.flatten.flatMap (·.changes), ∃ goal bytes,
        after.locate true (.ofText change.entry.fullPath) = .ok ⟨goal, some (.file bytes)⟩ := by
      intro change hchange
      obtain ⟨goal, node, hlocate, hapart, hsome⟩ := htrail.exists_goal hchange
      obtain ⟨bytes, hbytes⟩ := Option.isSome_iff_exists.mp hsome
      rw [outside_of_not hapart, contents?_eq_some_iff, node?_of_locate hlocate] at hbytes
      exact ⟨goal, bytes, hbytes ▸ hlocate⟩
    have hnames := forall₂_execution (fun x hx => named x (List.mem_append_left _ hx)) first
    have hnames' := forall₂_execution (fun x hx => named x (List.mem_append_right _ hx)) second
    rw [List.map_append] at distinct
    obtain ⟨-, hdistinct, hapart⟩ := List.nodup_append.mp distinct
    obtain ⟨reports, last, hreports, hnone, houtside, -⟩ := exists_rollBackAll enabled
      hcourse'.sound filled fresh hdistinct (fun x hx m hm => hm x hx)
      (fun r hr x hx => by
        obtain ⟨y, hy, hname⟩ := exists_execution hnames hruns hr
        rw [hname, Ne, Option.some.injEq]
        exact hapart y.id (List.mem_map_of_mem hy) x.id (List.mem_map_of_mem hx))
      hothers hnames' (pairwise_less_of_forall₂ exact) hstanding htrail plain hfiles
    exact ⟨reports, last, hreports, hnone, hsame houtside⟩

/-- An execution that writes `a.txt` once. -/
def rewriting (id unique : String) (contents : Bytes) : Execution :=
  ⟨.single id unique "a.txt" contents, id⟩

/-- Two executions that have changed one file after a third are rolled back. -/
theorem rollBackAll_undoes_twoOfThree :
    ∃ past middle deeds after reports last,
      Session.performAll [(rewriting "e0" "0" [64]).toSession] (empty []) = some (past, middle) ∧
      Session.performAll [(rewriting "e1" "1" [65]).toSession, (rewriting "e2" "2" [66]).toSession]
        middle = some (deeds, after) ∧
      rollBackAll ⟨"/h", true⟩ [("t2", "e2"), ("t1", "e1")] after = some (reports, last) ∧
      (∀ report ∈ reports, report.hasErrors = false) ∧
      ∀ p, ¬ ["h"] <+: p → last.contents? p = middle.contents? p := by
  have hdone :
      (Session.performAll [(rewriting "e0" "0" [64]).toSession] (empty [])).any fun first =>
      (Session.performAll [(rewriting "e1" "1" [65]).toSession,
          (rewriting "e2" "2" [66]).toSession] first.2).any fun second =>
        decide (IsOrderly [(rewriting "e0" "0" [64]).toSession, (rewriting "e1" "1" [65]).toSession,
            (rewriting "e2" "2" [66]).toSession] (.ofText "/h") ["h"] "t1" second.2 ∧
          IsFreshToken "t2" second.2 ∧
          List.Forall₂ (fun x ds => List.IsChain (fun x y => x.less y = true)
            (x.journal.last :: ds.map (·.sequence)))
            [rewriting "e1" "1" [65], rewriting "e2" "2" [66]] second.1 ∧
          ∀ change ∈ second.1.flatten.flatMap (·.changes),
            ".." ∉ (Path.ofText change.entry.fullPath).names) := by
    decide +kernel
  obtain ⟨⟨past, middle⟩, hfirst, hrest⟩ := (Option.any_eq_true _ _).mp hdone
  obtain ⟨⟨deeds, after⟩, hsecond, hlast⟩ := (Option.any_eq_true _ _).mp hrest
  obtain ⟨⟨hreached, htop, hfits, hfresh⟩, hfresh', hexact, hplain⟩ := of_decide_eq_true hlast
  have enabled : (HistoryStore.mk "/h" true).root? = some (.ofText "/h") := by decide +kernel
  have hnoLinks : (empty []).NoLinks := fun p target hlink =>
    (holds_empty [] fun _ => True).unlinked p target hlink
  obtain ⟨reports, last, hreports, hnone, hsame⟩ :=
    rollBackAll_undoes [rewriting "e0" "0" [64]] [rewriting "e1" "1" [65], rewriting "e2" "2" [66]]
      (fun id => if id = "e1" then "t1" else "t2") enabled (by decide) (by decide +kernel)
      (by decide +kernel)
      (by simpa using hfits) (by decide +kernel) named_empty hnoLinks hfirst hsecond hexact hplain
      ⟨true, hreached⟩ htop (holds_empty _ _) (by simpa [rewriting] using ⟨hfresh, hfresh'⟩)
  exact ⟨past, middle, deeds, after, reports, last, hfirst, hsecond, hreports, hnone, hsame⟩

/-- An execution has written a file beside a manifest with too many digits, and is not rolled
back. -/
theorem rollBackAll_breaks_longRun :
    longRun.Sound ∧ longRun.Named ∧ longRun.NoLinks ∧ (rewriting "e" "0" [65]).IsNamed ∧
    ∃ deeds after,
      Session.performAll [(rewriting "e" "0" [65]).toSession] longRun = some ([deeds], after) ∧
      deeds.length = 1 ∧ longRun.contents? ["out", "a.txt"] = none ∧
      after.contents? ["out", "a.txt"] = some [65] ∧
      (rewriting "e" "0" [65]).toSession.Fits (.ofText "/h") after ["h"] ∧
      rollBackAll ⟨"/h", true⟩ [("t", "e")] after = none := by
  have hdone : (Session.performAll [(rewriting "e" "0" [65]).toSession] longRun).any fun done =>
      decide (done.1.map (·.length) = [1] ∧ done.2.contents? ["out", "a.txt"] = some [65] ∧
        (rewriting "e" "0" [65]).toSession.Fits (.ofText "/h") done.2 ["h"] ∧
        done.2.isDirectory (.ofText "/h") = .ok true ∧
        inside (.ofText "/h") "bad" ∈ done.2.entriesOf (.ofText "/h") ∧
        done.2.isDirectory (inside (.ofText "/h") "bad") = .ok true ∧
        ((done.2.read ((inside (.ofText "/h") "bad").child Manifest.fileName)).toOption.any
          fun contents =>
            decide (Json.digitLimit < contents.length) && contents.all (· == 49))) := by
    decide +kernel
  obtain ⟨⟨all, after⟩, hperform, hconditions⟩ := (Option.any_eq_true _ _).mp hdone
  obtain ⟨hlengths, hwritten, hfits, hpresent, hentry, hdirectory, hmanifest⟩ :=
    of_decide_eq_true hconditions
  obtain ⟨deeds, rfl, hlength⟩ : ∃ deeds, all = [deeds] ∧ deeds.length = 1 := by
    obtain ⟨deeds, rest, rfl, hlength, hrest⟩ := List.map_eq_cons_iff.mp hlengths
    exact ⟨deeds, by rw [List.map_eq_nil_iff.mp hrest], hlength⟩
  -- the listing is broken off, so the execution cannot be selected
  obtain ⟨contents, hread, hdigits⟩ := (Option.any_eq_true _ _).mp hmanifest
  rw [Bool.and_eq_true, decide_eq_true_eq] at hdigits
  obtain ⟨hlong, hones⟩ := hdigits
  have hbreak := BreaksOff.of_ones hdirectory (toOption_eq_some_iff.mp hread) hlong
    (by simpa using hones)
  have enabled : (HistoryStore.mk "/h" true).root? = some (.ofText "/h") := by decide +kernel
  obtain ⟨cause, hcause⟩ := exists_error_of_breaksOff enabled hpresent hentry hbreak
  exact ⟨by decide +kernel, named_of_nodes (by decide +kernel) (by decide +kernel),
    noLinks_of_nodes (by simp [longRun, -List.reduceReplicate]), by decide +kernel, deeds, after,
    hperform, hlength, by decide +kernel, hwritten, hfits, rollBackAll_of_error hcause _ _⟩

end Scaffold
