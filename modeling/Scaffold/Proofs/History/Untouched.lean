import Scaffold.Proofs.History.Undoing

/-!
What the rollback of an execution leaves alone.

The rollback of an execution acts on the paths of its changes, whatever has happened there
since. So a file outlives it with the bytes that were written last when the execution has
not changed it. A file that it has changed is deleted or replaced also when another
execution has written it after that.

* `IsLast`: the last change of a file.
* `undo_leaves_others`: a file that the execution has not changed keeps the bytes of its
  last change; `undo_takes_others` shows a file that both have written.
-/

namespace Scaffold

open Files FileTree

variable {tree after : FileTree} {root : Path} {place : Place} {store : HistoryStore}
  {deeds : List (List Deed)}

/-- A change is the last among some that leads to a place. -/
def IsLast (tree : FileTree) (changes : List Change) (change : Change) (p : Place) : Prop :=
  ∃ earlier later, changes = earlier ++ change :: later ∧ change.LeadsTo tree p ∧
    ∀ other ∈ later, ¬ other.LeadsTo tree p

/-- The entries of a run are those of changes, made by the execution of the run. -/
lemma exists_change {runs : List (List KeptRun)} {r : KeptRun} {entry : OutputEntry}
    (kept : List.Forall₂ (List.Forall₂ Deed.IsKeptAs) deeds runs) (hr : r ∈ runs.flatten)
    (hentry : entry ∈ r.entries) :
    ∃ change ∈ deeds.flatten.flatMap (·.changes), change.entry = entry ∧
      change.execution = r.manifest.executionId := by
  have hall := List.rel_flatten kept
  obtain ⟨i, hi, rfl⟩ := List.getElem_of_mem hr
  have hlt : i < deeds.flatten.length := hall.length_eq ▸ hi
  have hdeed : Deed.IsKeptAs deeds.flatten[i] runs.flatten[i] := hall.get hlt hi
  rw [hdeed.entries] at hentry
  obtain ⟨change, hchange, rfl⟩ := List.mem_map.mp hentry
  exact ⟨change, List.mem_flatMap.mpr ⟨_, List.getElem_mem _, hchange⟩, rfl,
    by rw [hdeed.own change hchange, hdeed.execution]⟩

/-- The actions that undo runs come from entries of these runs. -/
lemma exists_entry_of_mem_planUndo {runs : List Run} {kept : List KeptRun}
    {action : UndoAction} (perm : runs.Perm (kept.map (·.run root)))
    (h : action ∈ planUndo tree runs) :
    ∃ r ∈ kept, ∃ entry ∈ r.entries, action.fullPath = some entry.fullPath := by
  obtain ⟨run, hrun, haction⟩ := List.mem_flatMap.mp h
  have hmem := perm.mem_iff.mp ((sortBy_perm _).mem_iff.mp hrun)
  obtain ⟨r, hr, rfl⟩ := List.mem_map.mp hmem
  obtain ⟨record, hrecord, hsome⟩ := List.mem_filterMap.mp haction
  have hlist : (r.run root).manifest.entries = recordsFrom 0 r.entries := r.lists
  rw [List.mem_reverse, hlist] at hrecord
  obtain ⟨i, hi⟩ := List.getElem?_of_mem hrecord
  rw [getElem?_recordsFrom] at hi
  obtain ⟨entry, hentry, rfl⟩ := Option.map_eq_some_iff.mp hi
  refine ⟨r, hr, entry, List.mem_of_getElem? hentry, ?_⟩
  obtain ⟨kind, -, rfl⟩ := Option.map_eq_some_iff.mp hsome
  rfl

/-- **What the rollback of an execution leaves alone**: a file that the execution has not
changed keeps the bytes of its last change, whichever executions have changed it. Nothing
is said to be changed but by the batches, what lies in the store at first belongs to no
run of the execution, and no file is written into the store. -/
theorem undo_leaves_others (sessions : List Session) (execution token : String)
    (latestOnly : Bool) (enabled : store.root? = some root)
    (filled : filledText (some execution) = some execution) (sound : tree.Sound)
    (named : tree.Named) (done : Session.performAll sessions tree = some (deeds, after))
    (reached : ∃ present, after.isDirectory root = .ok present)
    (top : IsTop after root place)
    (before : Holds place (·.executionId ≠ some execution) [] tree)
    (fits : ∀ session ∈ sessions, session.Fits root after place)
    (fresh : IsFreshToken token after) :
    ∃ runs, store.select after none (some execution) latestOnly = .ok runs ∧
      ∀ p change, IsLast after (deeds.flatten.flatMap (·.changes)) change p →
        (∀ other ∈ deeds.flatten.flatMap (·.changes), other.execution = some execution →
          ¬ other.LeadsTo after p) →
        (undoAll token (planUndo after runs) after).2.contents? p = some change.contents := by
  obtain ⟨kept, hkept, course⟩ := exists_course_of_performAll after sound top fits done
  have hafter := course.sound
  have hnamed := course.named named
  have hholds := course.holds (.refl after) _ [] before
  have htrail := course.trail (.refl after)
  have hthere : after.locate true root = .ok ⟨place, some .directory⟩ ∨
      [] ++ kept.flatten = [] ∧ after.isDirectory root = .ok false := by
    obtain ⟨present, hpresent⟩ := reached
    cases present with
    | true =>
      obtain ⟨other, hother⟩ := isDirectory_eq_true_iff.mp hpresent
      exact .inl (top other hother ▸ hother)
    | false =>
      by_cases hnil : kept.flatten = []
      · exact .inr ⟨hnil, hpresent⟩
      · exact .inl (course.located (.refl after) hnil)
  obtain ⟨runs, hselect, hperm⟩ := exists_select latestOnly enabled filled hafter hnamed hholds hthere
  refine ⟨runs, hselect, fun p change ⟨earlier, later, hchanges, hleads, hlater⟩ hothers => ?_⟩
  -- the bytes of the last change are there
  have hcontents : after.contents? p = some change.contents := by
    rw [hchanges] at htrail
    have hlast := htrail.last hleads hlater
    rw [outside] at hlast
    split at hlast
    · cases hlast
    · exact hlast
  have hfile := contents?_eq_some_iff.mp hcontents
  refine contents?_eq_some_iff.mpr ((undoAll_frame (.refl hafter hnamed) hafter fresh ⟨_, hfile⟩
    fun action haction => ?_).trans hfile)
  -- no action comes from a change of this file
  obtain ⟨r, hr, entry, hentry, hpath⟩ := exists_entry_of_mem_planUndo hperm haction
  rw [List.mem_filter, List.nil_append, beq_iff_eq] at hr
  obtain ⟨other, hother, rfl, hexecution⟩ := exists_change hkept hr.1 hentry
  obtain ⟨goal, node, hlocate, hapart, hsome⟩ := htrail.exists_goal hother
  obtain ⟨bytes, hbytes⟩ := Option.isSome_iff_exists.mp hsome
  rw [outside_of_not hapart, contents?_eq_some_iff, node?_of_locate hlocate] at hbytes
  subst hbytes
  refine ⟨_, goal, bytes, hpath, hlocate, ?_⟩
  rintro rfl
  exact hothers other hother (hexecution.trans hr.2) ⟨_, hlocate⟩

/-- Two executions that write different files. -/
def twoFiles : List Session :=
  [.single "e1" "1" "a.txt" [65], .single "e2" "2" "b.txt" [66]]

/-- The rollback of one of two executions that write different files. -/
theorem undo_leaves_others_twoFiles :
    (HistoryStore.mk "/h" true).root? = some (.ofText "/h") ∧
    filledText (some "e1") = some "e1" ∧ (empty []).Sound ∧ (empty []).Named ∧
    Holds ["h"] (·.executionId ≠ some "e1") [] (empty []) ∧
    ∃ deeds after, Session.performAll twoFiles (empty []) = some (deeds, after) ∧
      IsOrderly twoFiles (.ofText "/h") ["h"] "t" after ∧
      ∃ runs, (HistoryStore.mk "/h" true).select after none (some "e1") false = .ok runs ∧
        ∀ p change, IsLast after (deeds.flatten.flatMap (·.changes)) change p →
          (∀ other ∈ deeds.flatten.flatMap (·.changes), other.execution = some "e1" →
            ¬ other.LeadsTo after p) →
          (undoAll "t" (planUndo after runs) after).2.contents? p = some change.contents := by
  have enabled : (HistoryStore.mk "/h" true).root? = some (.ofText "/h") := by decide +kernel
  have filled : filledText (some "e1") = some "e1" := by decide +kernel
  have sound : (empty []).Sound := by decide +kernel
  have before : Holds ["h"] (·.executionId ≠ some "e1") [] (empty []) := holds_empty _ _
  have hdone : (Session.performAll twoFiles (empty [])).any (fun result =>
      decide (IsOrderly twoFiles (.ofText "/h") ["h"] "t" result.2)) = true := by decide +kernel
  obtain ⟨⟨deeds, after⟩, hafter, horderly⟩ := (Option.any_eq_true _ _).mp hdone
  obtain ⟨hreached, htop, hfits, hfresh⟩ := of_decide_eq_true horderly
  exact ⟨enabled, filled, sound, named_empty, before, deeds, after, hafter,
    ⟨hreached, htop, hfits, hfresh⟩, undo_leaves_others twoFiles "e1" "t" false enabled filled sound
      named_empty hafter ⟨true, hreached⟩ htop before hfits hfresh⟩

/-- A file that the only change of an execution has made is gone after the rollback of the
execution, whatever other executions have written to it since. -/
lemma undo_takes {token execution : String} {kept : List KeptRun} {r : KeptRun} {deed : Deed}
    {change : Change} {p : Place} (enabled : store.root? = some root)
    (filled : filledText (some execution) = some execution)
    (standing : Standing after root place (·.executionId ≠ some execution) kept after)
    (fresh : IsFreshToken token after)
    (single : kept.filter (·.manifest.executionId == some execution) = [r])
    (own : deed.IsKeptAs r) (changes : deed.changes = [change])
    (written : change.entry.status = .written ∧ keptBytes? change.entry = none)
    (plain : ".." ∉ (Path.ofText change.entry.fullPath).names)
    (leads : change.LeadsTo after p) (apart : ¬ place <+: p) {bytes : Bytes}
    (contents : after.contents? p = some bytes) :
    ∃ runs, store.select after none (some execution) false = .ok runs ∧
      (undoAll token (planUndo after runs) after).2.contents? p = none := by
  obtain ⟨hstatus, hnone⟩ := written
  obtain ⟨node, hlocate⟩ := leads
  have hsound := standing.rewound.sound
  obtain ⟨runs, hselect, hperm⟩ := exists_select false enabled filled hsound
    standing.rewound.named standing.holds (.inl standing.located)
  rw [single] at hperm
  obtain rfl := List.perm_singleton.mp hperm
  -- for the undoing it does not matter who has written the bytes that are there
  obtain ⟨deed', hdeed'⟩ : ∃ deed' : Deed, deed' =
      { deed with changes := [{ change with contents := bytes }] } := ⟨_, rfl⟩
  have hown : deed'.IsKeptAs r := by
    rw [hdeed']
    refine ⟨by rw [own.entries, changes]; rfl, own.execution, fun other hother => ?_, own.sequence⟩
    rw [List.mem_singleton.mp hother]
    exact own.own change (by simp [changes])
  have htrail : Trail after place (Function.update (outside place after) p none) deed'.changes
      (outside place after) := by
    rw [hdeed']
    refine .cons hlocate apart (by simp [hstatus, hnone]) (fun _ => by simp [hnone]) ?_
    rw [Function.update_idem, ← contents, ← outside_of_not apart, Function.update_eq_self]
    exact .nil
  have hfile : node = some (.file bytes) := by
    rw [← node?_of_locate hlocate]
    exact contents?_eq_some_iff.mp contents
  obtain ⟨last, ⟨outcomes, hundo, -⟩, -, houtside⟩ := undo_run standing hsound fresh
    (List.mem_filter.mp (single ▸ List.mem_singleton_self r)).1 hown htrail
    (by simpa [hdeed'] using plain)
    (by simpa [hdeed'] using ⟨p, bytes, hfile ▸ hlocate⟩)
  refine ⟨_, hselect, ?_⟩
  have hplan : planUndo after [r.run root] = undoOf (r.run root) := by
    simp [planUndo, Run.newestFirst, sortBy]
  simp only [hplan, hundo]
  rw [← outside_of_not apart, houtside, Function.update_self]

/-- Two executions that write one file after another. -/
def oneFileTwice : List Session :=
  [.single "e1" "1" "a.txt" [65], .single "e2" "2" "a.txt" [66]]

/-- What two executions that write one file have recorded. -/
def IsFileTwice (deeds : List (List Deed)) (after : FileTree) : Prop :=
  deeds.map (·.map fun deed => (deed.execution, deed.changes.map fun c =>
      (c.execution, c.entry.fullPath))) =
    [[(some "e1", [(some "e1", "/out/a.txt")])], [(some "e2", [(some "e2", "/out/a.txt")])]] ∧
  (deeds.flatten.flatMap (·.changes)).map (fun c =>
      (c.entry.status, keptBytes? c.entry, c.contents)) =
    [(.written, none, [65]), (.overwritten, some [65], [66])] ∧
  (after.locate true (.ofText "/out/a.txt")).toOption.map (·.place) = some ["out", "a.txt"]

instance (deeds : List (List Deed)) (after : FileTree) : Decidable (IsFileTwice deeds after) :=
  inferInstanceAs (Decidable (_ ∧ _ ∧ _))

/-- The two runs and their changes. -/
lemma IsFileTwice.exists_deeds {deeds : List (List Deed)} (h : IsFileTwice deeds after) :
    ∃ first second a b, deeds = [[first], [second]] ∧ first.changes = [a] ∧ second.changes = [b] ∧
      (first.execution = some "e1" ∧ second.execution = some "e2" ∧ b.execution = some "e2") ∧
      (a.entry.fullPath = "/out/a.txt" ∧ a.entry.status = .written ∧ keptBytes? a.entry = none) ∧
      b.entry.fullPath = "/out/a.txt" ∧ b.contents = [66] := by
  obtain ⟨hdeeds, hchanges, -⟩ := h
  simp only [List.map_eq_cons_iff, List.map_eq_nil_iff, Prod.mk.injEq] at hdeeds
  obtain ⟨_, _, rfl, ⟨first, _, rfl, ⟨hfirst, a, _, ha, ⟨-, hpath⟩, rfl⟩, rfl⟩,
    _, _, rfl, ⟨second, _, rfl, ⟨hsecond, b, _, hb, ⟨hexecution, hpath'⟩, rfl⟩, rfl⟩, rfl⟩ := hdeeds
  simp only [List.flatten_cons, List.flatten_nil, List.append_nil, List.cons_append, List.nil_append,
    List.flatMap_cons, List.flatMap_nil, ha, hb, List.map_cons, List.map_nil, List.cons.injEq,
    Prod.mk.injEq, and_true] at hchanges
  obtain ⟨⟨hstatus, hnone, -⟩, -, -, hcontents⟩ := hchanges
  exact ⟨first, second, a, b, rfl, ha, hb, ⟨hfirst, hsecond, hexecution⟩, ⟨hpath, hstatus, hnone⟩,
    hpath', hcontents⟩

/-- The file that another execution has written last is gone after the rollback of the
execution that has made it. -/
theorem undo_takes_others :
    ∃ deeds after runs change, Session.performAll oneFileTwice (empty []) = some (deeds, after) ∧
      (HistoryStore.mk "/h" true).select after none (some "e1") false = .ok runs ∧
      IsLast after (deeds.flatten.flatMap (·.changes)) change ["out", "a.txt"] ∧
      change.execution = some "e2" ∧ change.contents = [66] ∧
      (undoAll "t" (planUndo after runs) after).2.contents? ["out", "a.txt"] = none := by
  have hdone : (Session.performAll oneFileTwice (empty [])).any (fun result =>
      decide (IsOrderly oneFileTwice (.ofText "/h") ["h"] "t" result.2 ∧
        IsFileTwice result.1 result.2)) = true := by decide +kernel
  obtain ⟨⟨deeds, after⟩, hafter, horderly⟩ := (Option.any_eq_true _ _).mp hdone
  obtain ⟨⟨hreached, htop, hfits, hfresh⟩, htwice⟩ := of_decide_eq_true horderly
  simp only at hreached htop hfits hfresh htwice
  have enabled : (HistoryStore.mk "/h" true).root? = some (.ofText "/h") := by decide +kernel
  have filled : filledText (some "e1") = some "e1" := by decide +kernel
  have hapart : ¬ ["h"] <+: ["out", "a.txt"] := by decide
  obtain ⟨kept, hkept, course⟩ := exists_course_of_performAll after (by decide +kernel) htop
    hfits hafter
  obtain ⟨node, hlocate⟩ : ∃ node,
      after.locate true (.ofText "/out/a.txt") = .ok ⟨["out", "a.txt"], node⟩ := by
    obtain ⟨found, hfound, hplace⟩ := Option.map_eq_some_iff.mp htwice.2.2
    cases hlocate : after.locate true (.ofText "/out/a.txt") with
    | error fault => simp [hlocate, Except.toOption] at hfound
    | ok found' =>
      simp only [hlocate, Except.toOption, Option.some.injEq] at hfound
      subst hfound
      exact ⟨found'.node, by rw [← hplace]⟩
  obtain ⟨first, second, a, b, rfl, ha, hb, ⟨hfirst, hsecond, hexecution⟩, ⟨hpath, hwritten⟩, hpath',
    hcontents⟩ := htwice.exists_deeds
  simp only [List.forall₂_cons_left_iff, List.forall₂_nil_left_iff] at hkept
  obtain ⟨_, _, ⟨r, _, hr, rfl, rfl⟩, ⟨_, _, ⟨r', _, hr', rfl, rfl⟩, rfl, rfl⟩, rfl⟩ := hkept
  have hlast : IsLast after ([[first], [second]].flatten.flatMap (·.changes)) b
      ["out", "a.txt"] := ⟨[a], [], by simp [ha, hb], ⟨node, by rw [hpath', hlocate]⟩, by simp⟩
  have hbytes : after.contents? ["out", "a.txt"] = some [66] := by
    have htrail := course.trail (.refl after)
    obtain ⟨earlier, later, heq, hleads, hlater⟩ := hlast
    rw [heq] at htrail
    have houtside := @outside_of_not after _ _ hapart
    rw [← houtside, htrail.last hleads hlater, hcontents]
  have hstanding : Standing after (.ofText "/h") ["h"] (·.executionId ≠ some "e1") [r, r'] after :=
    ⟨.refl course.sound (course.named named_empty), course.holds (.refl after) _ [] (holds_empty _ _),
      course.located (.refl after) (by simp), fun p target hlink =>
        (holds_empty [] fun _ => True).unlinked p target ((course.keeps.link p target).mp hlink)⟩
  obtain ⟨runs, hselect, hgone⟩ := undo_takes enabled filled hstanding hfresh
    (by simp [hr.execution, hr'.execution, hfirst, hsecond]) hr ha hwritten
    (by rw [hpath]; decide +kernel) ⟨node, by rw [hpath, hlocate]⟩ hapart hbytes
  exact ⟨_, after, runs, b, hafter, hselect, hlast, hexecution, hcontents, hgone⟩

end Scaffold
