import Scaffold.Commands.Production
import Scaffold.Proofs.Commands.Working
import Scaffold.Proofs.Outcome

/-!
What becomes of the blueprints of an invocation.

Blueprints are looked at one after another. Each one is unreadable, rejected or put out, and
what has been put out is recorded or not. Here this is told as a relation between file trees,
without terminals and early ends; the command that generates files follows it step by step.

* `Fate`, `Account`: what has become of a blueprint, and what has been shown of it.
* `Becomes`: one blueprint; `one_eq_ok`: the command follows this.
* `Proceeds`: blueprints one after another; `each_eq_ok`: the command follows this.
-/

namespace Scaffold.Production

open Files Work

variable {given : Circumstances} {bench : Workbench} {registry : Generators} {request : Request}
  {number : Nat} {journal journal' : Journal} {b : Blueprint} {label : String} {t t' : Terminal}

/-! ### Accounts -/

/-- What has become of a blueprint. -/
inductive Fate
  /-- There is none in the file. -/
  | unreadable (fault : BlueprintFault)
  /-- It has been rejected. -/
  | rejected (findings : Findings)
  /-- Its architecture has not been found. -/
  | unknown (fault : UnknownArchitecture)
  /-- Its files have been put out and, unless this is a preview, a run has been recorded or
  not. -/
  | generated (output : Output) (kept : Option (Except RecordFault String))

namespace Fate

/-- Whether a blueprint counts as failed. -/
def isFailure : Fate → Bool
  | generated output _ => output.hasErrors
  | _ => true

/-- The output of a blueprint, if there is any. -/
def output : Fate → Output
  | generated output _ => output
  | _ => .empty

/-- The name of the run that has been recorded. -/
def run? : Fate → Option String
  | generated _ (some (.ok id)) => some id
  | _ => none

end Fate

/-- What has become of the blueprint in a file, and what has been shown of it. -/
structure Account where
  /-- The path of the file. -/
  path : String
  /-- What has become of it. -/
  fate : Fate
  /-- What has been shown. -/
  shown : List Emission

/-- The line that tells why no run has been recorded. -/
def notRecorded (fault : RecordFault) : Emission :=
  .line ("[yellow]Could not record generation history: " ++ Markup.escape fault.message)

/-- What is shown of a recording. -/
def keptShown (store : HistoryStore) (output : Output) : Except RecordFault String → List Emission
  | .ok id => [.line ("[green]History run:[/green] " ++ id)]
  | .error fault =>
    if store.isEnabled && !output.journaled.isEmpty then [notRecorded fault] else []

/-- A blueprint with the architecture that is asked for, if there is one. -/
def applied (request : Request) (b : Blueprint) : Blueprint :=
  (request.architecture.filter fun name => !name.isEmpty).elim b b.withArchitecture

/-! ### One blueprint -/

/-- What becomes of a blueprint, or of a file without one. -/
inductive Becomes (given : Circumstances) (bench : Workbench) (registry : Generators)
    (request : Request) (number : Nat) (label : String) :
    Journal → FileTree → Except BlueprintFault Blueprint → Fate → Journal → FileTree → Prop
  /-- There is no blueprint. -/
  | unreadable {journal : Journal} {tree : FileTree} {fault : BlueprintFault} :
    Becomes given bench registry request number label journal tree (.error fault)
      (.unreadable fault) journal tree
  /-- The blueprint is rejected. -/
  | rejected {journal : Journal} {tree : FileTree} {b : Blueprint} {findings : Findings}
    (checked : validate bench.architectures.available (applied request b) = .ok findings)
    (invalid : findings.isValid = false) :
    Becomes given bench registry request number label journal tree (.ok b)
      (.rejected findings) journal tree
  /-- The architecture is not found. -/
  | unknown {journal : Journal} {tree after : FileTree} {b : Blueprint} {findings : Findings}
    {fault : UnknownArchitecture}
    (checked : validate bench.architectures.available (applied request b) = .ok findings)
    (valid : findings.isValid = true)
    (refused : Pipeline.generate bench.architectures bench.configuration.locations.output
      registry request.selection request.mode [] (applied request b) tree =
        (.error (.refused fault), after)) :
    Becomes given bench registry request number label journal tree (.ok b) (.unknown fault)
      journal after
  /-- The files are shown. -/
  | previewed {journal : Journal} {tree after : FileTree} {b : Blueprint} {findings : Findings}
    {output : Output}
    (checked : validate bench.architectures.available (applied request b) = .ok findings)
    (valid : findings.isValid = true)
    (generated : Pipeline.generate bench.architectures bench.configuration.locations.output
      registry request.selection request.mode [] (applied request b) tree = (.ok output, after))
    (dry : request.mode.dryRun = true) :
    Becomes given bench registry request number label journal tree (.ok b)
      (.generated output none) journal after
  /-- The files are written, and a run is recorded or not. -/
  | recorded {journal journal' : Journal} {tree middle after : FileTree} {b : Blueprint}
    {findings : Findings} {output : Output} {kept : Except RecordFault String}
    (checked : validate bench.architectures.available (applied request b) = .ok findings)
    (valid : findings.isValid = true)
    (generated : Pipeline.generate bench.architectures bench.configuration.locations.output
      registry request.selection request.mode [] (applied request b) tree = (.ok output, middle))
    (live : request.mode.dryRun = false)
    (record : journal.record (given.surroundings number)
      (request.context given.executionId output.warnings) (applied request b) label output middle =
        (kept, journal', after)) :
    Becomes given bench registry request number label journal tree (.ok b)
      (.generated output (some kept)) journal' after

/-- It is told when a run that is due has not been recorded. -/
def Fate.IsTold (store : HistoryStore) (fate : Fate) (shown : List Emission) : Prop :=
  ∀ output fault, fate = .generated output (some (.error fault)) → store.isEnabled = true →
    output.journaled ≠ [] → notRecorded fault ∈ shown

lemma outcome_keep (given : Circumstances) (request : Request) (number : Nat) (journal : Journal)
    (b : Blueprint) (label : String) (output : Output) (t : Terminal) :
    outcome (keep given request number journal b label output) t =
      let (kept, journal', tree) := journal.record (given.surroundings number)
        (request.context given.executionId output.warnings) b label output t.tree
      (.ok journal', { t with tree }.showing (keptShown journal.store output kept)) := by
  rw [keep, outcome_bind, outcome_change]
  rcases journal.record (given.surroundings number)
    (request.context given.executionId output.warnings) b label output t.tree with
    ⟨kept, journal', tree⟩
  simp only
  cases kept with
  | ok id => rfl
  | error fault =>
    simp only [keptShown]
    split_ifs with h
    · rfl
    · simp

lemma onlyShows_showOutput (label : String) (output : Output) :
    OnlyShows (showOutput label output) :=
  .bind (.emit _) (.bind (.forIn (fun _ => .emit _) _) .done)

lemma onlyShows_showFindings (style kind label : String) (findings : List Finding) :
    OnlyShows (forIn findings PUnit.unit fun finding _ => do
      showFinding style kind label finding
      pure (ForInStep.yield PUnit.unit)) :=
  .forIn (fun _ => .emit _) findings

/-- **One blueprint**: the command that puts it out follows the relation. -/
lemma one_eq_ok {fine : Bool}
    (h : outcome (one given bench registry request number journal b label) t =
      (.ok (fine, journal'), t')) :
    ∃ fate shown, Becomes given bench registry request number label journal t.tree (.ok b) fate
        journal' t'.tree ∧
      t'.emissions = t.emissions ++ shown ∧ fine = !fate.isFailure ∧
      fate.IsTold journal.store shown := by
  rw [one] at h
  simp only at h
  obtain ⟨findings, _, hvalidate, h⟩ := outcome_bind_eq_ok_iff.mp h
  obtain ⟨hchecked, rfl⟩ := outcome_orBreak_eq_ok_iff.mp hvalidate
  have hchecked : validate bench.architectures.available (applied request b) = .ok findings :=
    mapError_eq_ok_iff.mp hchecked
  obtain ⟨warned, h⟩ := (onlyShows_showFindings _ _ _ _).outcome_of_bind h
  by_cases hvalid : findings.isValid = true
  case neg =>
    rw [if_pos (by simpa using hvalid)] at h
    obtain ⟨shown, h⟩ := (onlyShows_showFindings _ _ _ _).outcome_of_bind h
    cases h
    exact ⟨.rejected findings, warned ++ shown, .rejected hchecked (by simpa using hvalid),
      by simp, rfl, by simp [Fate.IsTold]⟩
  case pos =>
    rw [if_neg (by simpa using hvalid)] at h
    obtain ⟨generated, u, hchange, h⟩ := outcome_bind_eq_ok_iff.mp h
    rw [outcome_change, Prod.mk.injEq, Except.ok.injEq] at hchange
    obtain ⟨hgenerated, rfl⟩ := hchange
    rw [Terminal.showing_tree] at hgenerated h
    split at h
    · cases h
    · next fault =>
      cases h
      exact ⟨.unknown fault, warned ++ _, .unknown hchecked hvalid (Prod.ext hgenerated rfl),
        by simp [Terminal.showing]; rfl, rfl, by simp [Fate.IsTold]⟩
    · next output =>
      obtain ⟨table, h⟩ := (onlyShows_showOutput label output).outcome_of_bind h
      split_ifs at h with hdry
      · cases h
        exact ⟨.generated output none, warned ++ table,
          .previewed hchecked hvalid (Prod.ext hgenerated rfl) hdry, by simp [Terminal.showing], by
          simp [Fate.isFailure], by simp [Fate.IsTold]⟩
      · obtain ⟨_, _, hkeep, h⟩ := outcome_bind_eq_ok_iff.mp h
        rw [outcome_keep] at hkeep
        simp only [Terminal.showing_tree] at hkeep
        rcases hrecord : journal.record (given.surroundings number)
          (request.context given.executionId output.warnings) (applied request b) label output
          (Pipeline.generate bench.architectures bench.configuration.locations.output registry
            request.selection request.mode [] (applied request b) t.tree).2 with
          ⟨kept, next, tree⟩
        rw [applied] at hrecord
        rw [hrecord] at hkeep
        cases hkeep
        cases h
        refine ⟨.generated output (some kept),
          warned ++ table ++ keptShown journal.store output kept,
          .recorded hchecked hvalid (Prod.ext hgenerated rfl) (by simpa using hdry) hrecord,
          by simp [Terminal.showing], by simp [Fate.isFailure], ?_⟩
        intro other fault hfate enabled journaled
        rw [Fate.generated.injEq, Option.some.injEq] at hfate
        obtain ⟨rfl, rfl⟩ := hfate
        simp [keptShown, enabled, journaled]

lemma onlyBreaks_one (given : Circumstances) (bench : Workbench) (registry : Generators)
    (request : Request) (number : Nat) (journal : Journal) (b : Blueprint) (label : String) :
    OnlyBreaks (one given bench registry request number journal b label) := by
  have hkeep : ∀ b output, OnlyBreaks (keep given request number journal b label output) :=
    fun b output => .of_ok fun t =>
      ⟨_, _, outcome_keep given request number journal b label output t⟩
  rw [one]
  refine .bind (.orBreak _) fun findings => .bind (.of_onlyShows (onlyShows_showFindings _ _ _ _))
    fun _ => .ite (.bind (.of_onlyShows (onlyShows_showFindings _ _ _ _)) fun _ => .pure _)
      (.bind (.change _) fun generated => ?_)
  split
  · exact .broken _
  · exact .bind (.line _) fun _ => .pure _
  · exact .bind (.of_onlyShows (onlyShows_showOutput _ _)) fun _ =>
      .ite (.pure _) (.bind (hkeep _ _) fun _ => .pure _)

/-! ### All blueprints -/

/-- Blueprints one after another, with the files in which they are, the outcomes of reading
them, and their accounts. -/
inductive Proceeds (given : Circumstances) (bench : Workbench) (registry : Generators)
    (request : Request) : Nat → Journal → FileTree →
      List (String × Except BlueprintFault Blueprint) → List Account → FileTree → Prop
  /-- No blueprint is left. -/
  | done {number : Nat} {journal : Journal} {tree : FileTree} :
    Proceeds given bench registry request number journal tree [] [] tree
  /-- One blueprint, and the others. -/
  | next {number : Nat} {journal journal' : Journal} {tree middle after : FileTree}
    {path label : String} {outcome : Except BlueprintFault Blueprint} {fate : Fate}
    {shown : List Emission} {outcomes : List (String × Except BlueprintFault Blueprint)}
    {accounts : List Account}
    (becomes : Becomes given bench registry request number label journal tree outcome fate journal'
      middle)
    (told : fate.IsTold journal.store shown)
    (rest : Proceeds given bench registry request (number + 1) journal' middle outcomes accounts
      after) :
    Proceeds given bench registry request number journal tree ((path, outcome) :: outcomes)
      (⟨path, fate, shown⟩ :: accounts) after

/-- **All blueprints**: the command that puts them out follows the relation, shows what the
accounts say, and counts the failures. -/
lemma each_eq_ok {outcomes : List (String × Except BlueprintFault Blueprint)} {failed : Nat}
    (h : Work.outcome (each given bench registry request number journal outcomes) t =
      (.ok failed, t')) :
    ∃ accounts, Proceeds given bench registry request number journal t.tree outcomes accounts
        t'.tree ∧
      t'.emissions = t.emissions ++ accounts.flatMap (·.shown) ∧
      failed = accounts.countP (·.fate.isFailure) := by
  induction outcomes generalizing number journal t failed with
  | nil =>
    cases h
    exact ⟨[], .done, by simp, rfl⟩
  | cons entry outcomes ih =>
    obtain ⟨path, result⟩ := entry
    rw [each] at h
    obtain ⟨label, _, hlabel, h⟩ := outcome_bind_eq_ok_iff.mp h
    obtain ⟨-, rfl⟩ := outcome_ofTree_eq_ok_iff.mp hlabel
    simp only at h
    -- Both kinds of outcomes go on in the same way.
    obtain ⟨fine, journal', u, fate, shown, hbecomes, hshown, hfine, htold, h⟩ :
        ∃ fine journal' u fate shown, Becomes given bench registry request number label journal
          t.tree result fate journal' u.tree ∧ u.emissions = t.emissions ++ shown ∧
          fine = !fate.isFailure ∧ fate.IsTold journal.store shown ∧
          Work.outcome (each given bench registry request (number + 1) journal' outcomes >>=
            fun failed => pure (if fine then failed else failed + 1)) u = (.ok failed, t') := by
      cases result with
      | ok b =>
        obtain ⟨⟨fine, journal'⟩, u, hfirst, h⟩ := outcome_bind_eq_ok_iff.mp h
        obtain ⟨fate, shown, hbecomes, hshown, hfine, htold⟩ := one_eq_ok hfirst
        exact ⟨fine, journal', u, fate, shown, hbecomes, hshown, hfine, htold, h⟩
      | error fault =>
        obtain ⟨shown, h⟩ := (OnlyShows.emit _).outcome_of_bind h
        exact ⟨false, journal, t.showing shown, .unreadable fault, shown, .unreadable, rfl, rfl,
          by simp [Fate.IsTold], h⟩
    obtain ⟨count, w, hrest, h⟩ := outcome_bind_eq_ok_iff.mp h
    rw [outcome_pure, Prod.mk.injEq, Except.ok.injEq] at h
    obtain ⟨rfl, rfl⟩ := h
    obtain ⟨accounts, hproceeds, hemissions, hcount⟩ := ih hrest
    refine ⟨⟨path, fate, shown⟩ :: accounts, .next hbecomes htold hproceeds,
      by simp [hemissions, hshown], ?_⟩
    rw [List.countP_cons, ← hcount, hfine]
    cases fate.isFailure <;> simp

lemma onlyBreaks_each (given : Circumstances) (bench : Workbench) (registry : Generators)
    (request : Request) (number : Nat) (journal : Journal)
    (outcomes : List (String × Except BlueprintFault Blueprint)) :
    OnlyBreaks (each given bench registry request number journal outcomes) := by
  induction outcomes generalizing number journal with
  | nil => exact .pure _
  | cons entry outcomes ih =>
    obtain ⟨path, result⟩ := entry
    rw [each]
    refine .bind (.ofTree _) fun label => ?_
    have hrest : ∀ (fine : Bool) (journal' : Journal), OnlyBreaks
        (each given bench registry request (number + 1) journal' outcomes >>=
          fun failed => pure (if fine then failed else failed + 1)) :=
      fun _ _ => .bind (ih _ _) fun _ => .pure _
    cases result with
    | ok b => exact .bind (onlyBreaks_one _ _ _ _ _ _ _ _) fun _ => hrest _ _
    | error fault => exact .bind (.line _) fun _ => hrest _ _

end Scaffold.Production
