import Scaffold.Commands.Program
import Scaffold.Proofs.Commands.Composing
import Scaffold.Proofs.Commands.Inspecting
import Scaffold.Proofs.History.BestEffort
import Scaffold.Proofs.Order.Sorting

/-!
What the commands show, and the tags in it.

Whatever the arguments and the file tree are, all texts that a run of the program shows are put
together from its phrases, from numbers, from escaped values and from some values that are
inserted as they are. If none of the latter has an opening bracket, the console finds no tags
but those of the phrases.

* `Work.Shows`: all that a piece of a command shows is put together in the right way.
* `Inspection.Inserts`, `Production.Inserts`, `Retrospection.Inserts`: the values that the
  commands insert as they are; `Program.Inserts`: those of a whole run.
* `shows_runCommand`: one command.
* `run_tags_composed`: a whole run; `run_tags_forged`: a value that makes a tag.
-/

namespace Scaffold

open Files FileTree Work Markup

variable {α β : Type} {x : Work α} {f : α → Work β} {t after : Terminal}
  {inserted : String → Prop} {given : Circumstances} {bench : Workbench}

/-! ### Pieces of commands -/

namespace Work

/-- All that a piece of a command shows is put together in the right way. -/
def Shows (inserted : String → Prop) (x : Work α) (t : Terminal) : Prop :=
  ∃ shown, (outcome x t).2.emissions = t.emissions ++ shown ∧
    ∀ e ∈ shown, e.IsComposed inserted

namespace Shows

lemma nothing (h : (outcome x t).2.emissions = t.emissions) : Shows inserted x t :=
  ⟨[], by simpa using h, by simp⟩

lemma pure (a : α) : Shows inserted (Pure.pure a : Work α) t := nothing rfl

lemma stop (e : Stop) : Shows inserted (throw e : Work α) t := nothing rfl

lemma get : Shows inserted (MonadState.get : Work Terminal) t := nothing rfl

lemma change (step : FileTree → α × FileTree) : Shows inserted (Work.change step) t := nothing rfl

lemma orBreak (result : Except Breakdown α) : Shows inserted (Work.orBreak result) t := by
  cases result with
  | ok a => exact pure a
  | error cause => exact stop _

lemma emit {emission : Emission} (h : emission.IsComposed inserted) :
    Shows inserted (Work.emit emission) t :=
  ⟨[emission], rfl, by simpa using h⟩

lemma line {markup : String} (h : (Emission.line markup).IsComposed inserted) :
    Shows inserted (Work.line markup) t :=
  emit h

lemma value (json : Json) : Shows inserted (Work.emit (.value json)) t :=
  emit (by simp [Emission.IsComposed, Emission.markups])

/-- One piece after another: the second one may rely on what the first one comes to. -/
lemma bind (hx : Shows inserted x t)
    (hf : ∀ a u, outcome x t = (.ok a, u) → Shows inserted (f a) u) :
    Shows inserted (x >>= f) t := by
  obtain ⟨shown, hshown, hall⟩ := hx
  rw [Shows, outcome_bind]
  rcases houtcome : outcome x t with ⟨e | a, u⟩
  · rw [houtcome] at hshown
    exact ⟨shown, hshown, hall⟩
  · rw [houtcome] at hshown
    obtain ⟨more, hmore, hrest⟩ := hf a u houtcome
    refine ⟨shown ++ more, ?_, fun e he => (List.mem_append.mp he).elim (hall e) (hrest e)⟩
    rw [hmore, show u.emissions = _ from hshown, List.append_assoc]

lemma ofTree (look : FileTree → Except Breakdown α) : Shows inserted (Work.ofTree look) t :=
  bind get fun _ _ _ => orBreak _

/-- More values may be inserted. -/
lemma mono {more : String → Prop} (h : ∀ value, inserted value → more value)
    (hx : Shows inserted x t) : Shows more x t := by
  obtain ⟨shown, hshown, hall⟩ := hx
  exact ⟨shown, hshown, fun e he text htext => (hall e he text htext).mono h⟩

lemma ite {condition : Prop} [Decidable condition] {y z : Work α} (hy : Shows inserted y t)
    (hz : Shows inserted z t) : Shows inserted (if condition then y else z) t := by
  split
  · exact hy
  · exact hz

/-- Something is shown for each item of a list. -/
lemma forIn {say : α → Work PUnit} {as : List α} (h : ∀ a ∈ as, ∀ u, Shows inserted (say a) u)
    (t : Terminal) : Shows inserted (ForIn.forIn as PUnit.unit fun a _ => do
      say a
      Pure.pure (ForInStep.yield PUnit.unit)) t := by
  induction as generalizing t with
  | nil => exact pure _
  | cons a as ih =>
    rw [List.forall_mem_cons] at h
    rw [List.forIn_cons]
    refine bind (bind (h.1 t) fun _ _ _ => pure _) fun step u hstep => ?_
    -- the loop goes on behind every item
    obtain ⟨_, _, -, hpure⟩ := outcome_bind_eq_ok_iff.mp hstep
    cases hpure
    exact ih h.2 u

lemma mapM {as : List α} (h : ∀ a ∈ as, ∀ u, Shows inserted (f a) u) (t : Terminal) :
    Shows inserted (as.mapM f) t := by
  induction as generalizing t with
  | nil => exact pure _
  | cons a as ih =>
    rw [List.forall_mem_cons] at h
    rw [List.mapM_cons]
    exact bind (h.1 t) fun _ u _ => bind (ih h.2 u) fun _ _ _ => pure _

/-- A question is no markup. -/
lemma confirm (question : String) : Shows inserted (Work.confirm question) t := by
  have hask : ∀ answers, ∀ e ∈ (ask question answers).1, e.markups = [] := by
    intro answers
    induction answers with
    | nil => simp [ask, Emission.markups]
    | cons answer answers ih =>
      rw [ask]
      split
      · simp [Emission.markups]
      · simpa [Emission.markups] using ih
  have hshown : (outcome (Work.confirm question) t).2.emissions =
      t.emissions ++ (ask question t.answers).1 := by
    have hget : outcome (MonadState.get : Work Terminal) t = (.ok t, t) := rfl
    rw [Work.confirm, outcome_bind, hget]
    simp only
    rcases ask question t.answers with ⟨emissions, answers, consent⟩
    cases consent <;> rfl
  exact ⟨_, hshown, fun e he => by simp [Emission.IsComposed, hask _ e he]⟩

end Shows

/-- Looks that leave the terminal alone: every result is that of one thing. -/
lemma exists_of_outcome_mapM {as : List α} {bs : List β}
    (quiet : ∀ a b u, outcome (f a) t = (.ok b, u) → t = u)
    (h : outcome (as.mapM f) t = (.ok bs, after)) :
    t = after ∧ ∀ b ∈ bs, ∃ a ∈ as, outcome (f a) t = (.ok b, t) := by
  obtain ⟨rfl, hall⟩ := outcome_mapM_eq_ok quiet h
  exact ⟨rfl, fun b hb => exists_of_forall₂ hall.flip hb⟩

end Work

/-! ### The workbench -/

lemma outcome_load_eq_ok {file : Option Path}
    (h : outcome (Workbench.load given file) t = (.ok bench, after)) :
    t = after ∧ ∃ c, Configuration.load t.tree given.environment given.homes
      t.tree.workplace.toPath file = .ok c ∧ bench = .ofConfiguration c := by
  rw [Workbench.load] at h
  obtain ⟨_, _, hget, h⟩ := outcome_bind_eq_ok_iff.mp h
  cases hget
  simp only at h
  split at h
  · next c hload =>
    cases h
    exact ⟨rfl, c, hload, rfl⟩
  · cases h
  · cases h

namespace Workbench

/-- An invocation reads a blueprint file, with an outcome. -/
def Reads (bench : Workbench) (wanted : Discovery.Wanted) (tree : FileTree) (path : String)
    (outcome : Except BlueprintFault Blueprint) : Prop :=
  ∃ paths outcomes, Discovery.find tree bench.root wanted = .ok paths ∧
    bench.reader.readAll tree (paths.map Path.toText) = .ok outcomes ∧ (path, outcome) ∈ outcomes

/-- A fault of the configuration is escaped. -/
lemma shows_load (given : Circumstances) (file : Option Path) (t : Terminal) :
    Shows inserted (load given file) t := by
  refine .bind .get fun terminal u _ => ?_
  simp only
  split
  · exact .pure _
  · exact .stop _
  · exact .bind (.line (Emission.isComposed_line (.message rfl _))) fun _ _ _ => .stop _

/-- The root is escaped. -/
lemma shows_discover (bench : Workbench) (wanted : Discovery.Wanted) (t : Terminal) :
    Shows inserted (bench.discover wanted) t :=
  .bind (.ofTree _) fun _ _ _ => .ite (.ofTree _)
    (.bind (.line (Emission.isComposed_line (.message rfl _))) fun _ _ _ => .stop _)

lemma outcome_discover_eq_ok {wanted : Discovery.Wanted} {paths : List Path}
    (h : outcome (bench.discover wanted) t = (.ok paths, after)) :
    t = after ∧ Discovery.find t.tree bench.root wanted = .ok paths := by
  obtain ⟨there, _, hthere, h⟩ := outcome_bind_eq_ok_iff.mp h
  obtain ⟨-, rfl⟩ := outcome_ofTree_eq_ok_iff.mp hthere
  cases there with
  | false => cases h
  | true =>
    rw [if_pos rfl] at h
    obtain ⟨hlook, rfl⟩ := outcome_ofTree_eq_ok_iff.mp h
    exact ⟨rfl, mapError_eq_ok_iff.mp hlook⟩

end Workbench

/-! ### Looking at blueprints -/

namespace Inspection

variable {wanted : Discovery.Wanted}

/-- The values that are inserted as they are when blueprints are looked at. -/
inductive Inserts (bench : Workbench) (wanted : Discovery.Wanted) (tree : FileTree) : String → Prop
  /-- The path of a blueprint file. -/
  | file {path file : String} {outcome : Except BlueprintFault Blueprint}
    (read : bench.Reads wanted tree path outcome)
    (seen : Discovery.relativeText tree bench.root (.ofText path) = .ok file) :
    Inserts bench wanted tree file
  /-- A name in a blueprint. -/
  | name {path name : String} {b : Blueprint} (read : bench.Reads wanted tree path (.ok b))
    (among : name ∈ b.names) : Inserts bench wanted tree name
  /-- The code of a finding. -/
  | code {path : String} {b : Blueprint} {findings : Findings} {f : Finding}
    (read : bench.Reads wanted tree path (.ok b))
    (checked : Scaffold.validate bench.architectures.available b = .ok findings)
    (among : f ∈ findings.errors ++ findings.warnings) : Inserts bench wanted tree f.code
  /-- The code of a fault. -/
  | fault : Inserts bench wanted tree "parser.error"
  /-- The module that is asked for. -/
  | asked {modulePath : String} (asked : wanted.modulePath = some modulePath) :
    Inserts bench wanted tree modulePath

lemma inserts_of_check {path : String} {result : Except BlueprintFault Blueprint} {row : CheckedRow}
    (read : bench.Reads wanted t.tree path result)
    (h : outcome (check bench path result) t = (.ok row, after)) :
    Inserts bench wanted t.tree row.file ∧
      ∀ f ∈ row.findings.errors ++ row.findings.warnings, Inserts bench wanted t.tree f.code := by
  obtain ⟨-, file, hfile, ⟨fault, -, rfl⟩ | ⟨b, findings, rfl, hchecked, rfl⟩⟩ :=
    outcome_check_eq_ok_iff.mp h
  · refine ⟨.file read hfile, fun f hf => ?_⟩
    obtain rfl : f = ⟨"parser.error", fault.message, none⟩ := by simpa [unparsedRow] using hf
    exact .fault
  · exact ⟨.file read hfile, fun f hf => .code read hchecked hf⟩

lemma shows_check (bench : Workbench) (path : String) (result : Except BlueprintFault Blueprint)
    (t : Terminal) : Shows inserted (check bench path result) t := by
  refine .bind (.ofTree _) fun file u _ => ?_
  cases result with
  | error fault => exact .pure _
  | ok b => exact .bind (.orBreak _) fun _ _ _ => .pure _

/-- Blueprints are validated. -/
lemma shows_validate (bench : Workbench) (modulePath : Option String) (asJson : Bool)
    (t : Terminal) :
    Shows (Inserts bench ⟨modulePath, none⟩ t.tree) (validate bench modulePath asJson) t := by
  refine .bind (Workbench.shows_discover _ _ _) fun paths u hpaths => ?_
  obtain ⟨rfl, hfind⟩ := Workbench.outcome_discover_eq_ok hpaths
  cases paths with
  | nil => exact .line (isComposed_missing fun value h => .asked h)
  | cons first rest =>
    refine .bind (.ofTree _) fun outcomes u houtcomes => ?_
    obtain ⟨hread, rfl⟩ := outcome_ofTree_eq_ok_iff.mp houtcomes
    refine .bind (.mapM (fun entry _ u => shows_check _ _ _ u) _) fun rows u hrows => ?_
    obtain ⟨rfl, hall⟩ := exists_of_outcome_mapM (fun entry row u hrow =>
      (outcome_check_eq_ok_iff.mp hrow).1) hrows
    have hinserts : ∀ row ∈ rows, Inserts bench ⟨modulePath, none⟩ t.tree row.file ∧
        ∀ f ∈ row.findings.errors ++ row.findings.warnings,
          Inserts bench ⟨modulePath, none⟩ t.tree f.code := by
      intro row hrow
      obtain ⟨entry, hentry, hcheck⟩ := hall row hrow
      exact inserts_of_check ⟨_, outcomes, hfind, hread, hentry⟩ hcheck
    have hend : ∀ u, Shows (Inserts bench ⟨modulePath, none⟩ t.tree)
        (if rows.any fun row => !row.findings.isValid then giveUp else pure ()) u :=
      fun u => .ite (.stop _) (.pure _)
    refine .ite (.bind (.value _) fun _ u _ => hend u) (.bind (.emit ?_) fun _ u _ =>
      .bind (.line ?_) fun _ u _ => hend u)
    · exact CheckedRow.isComposed_table (fun row hrow => (hinserts row hrow).1)
        fun row hrow => (hinserts row hrow).2
    · exact CheckedRow.isComposed_summary rows _

/-- Blueprints are listed. -/
lemma shows_list (bench : Workbench) (wanted : Discovery.Wanted) (asJson : Bool) (t : Terminal) :
    Shows (Inserts bench wanted t.tree) (list bench wanted asJson) t := by
  refine .bind (Workbench.shows_discover _ _ _) fun paths u hpaths => ?_
  obtain ⟨rfl, hfind⟩ := Workbench.outcome_discover_eq_ok hpaths
  refine .bind (.ofTree _) fun outcomes u houtcomes => ?_
  obtain ⟨hread, rfl⟩ := outcome_ofTree_eq_ok_iff.mp houtcomes
  have hrow : ∀ (entry : String × Except BlueprintFault Blueprint) (row : ListedRow) (u : Terminal),
      outcome (do return (⟨← bench.label entry.1, entry.2⟩ : ListedRow)) t = (.ok row, u) →
        t = u ∧ row.outcome = entry.2 ∧
          Discovery.relativeText t.tree bench.root (.ofText entry.1) = .ok row.file := by
    intro entry row u h
    obtain ⟨file, _, hlabel, h⟩ := outcome_bind_eq_ok_iff.mp h
    obtain ⟨hfile, rfl⟩ := outcome_label_eq_ok_iff.mp hlabel
    cases h
    exact ⟨rfl, rfl, hfile⟩
  refine .bind (.mapM (fun entry _ u => .bind (.ofTree _) fun _ _ _ => .pure _) _)
    fun rows u hrows => ?_
  obtain ⟨rfl, hall⟩ := exists_of_outcome_mapM (fun entry row u h => (hrow entry row u h).1) hrows
  have hend : ∀ u, Shows (Inserts bench wanted t.tree)
      (if rows.any fun row => row.fault?.isSome then giveUp else pure ()) u :=
    fun u => .ite (.stop _) (.pure _)
  refine .ite (.bind (.value _) fun _ u _ => hend u) (.ite (.bind (.line ?_) fun _ u _ => hend u)
    (.bind (.emit ?_) fun _ u _ => hend u))
  · exact Emission.isComposed_line (.phrase rfl)
  · refine ListedRow.isComposed_table (fun row hmem => ?_) fun row hmem b hb name hname => ?_
    · obtain ⟨entry, hentry, hresult⟩ := hall row hmem
      exact .file ⟨_, outcomes, hfind, hread, hentry⟩ (hrow entry row t hresult).2.2
    · obtain ⟨entry, hentry, hresult⟩ := hall row hmem
      obtain ⟨-, houtcome, -⟩ := hrow entry row t hresult
      have hmem : (entry.1, .ok b) ∈ outcomes := by rwa [← hb, houtcome]
      exact .name ⟨_, outcomes, hfind, hread, hmem⟩ hname

end Inspection

/-! ### Generating files -/

/-- A run that is recorded has its own name. -/
lemma eq_runName_of_record {journal journal' : Journal} {s : Surroundings}
    {context : List (Document × Document)} {b : Blueprint} {label id : String} {output : Output}
    {tree tree' : FileTree}
    (h : journal.record s context b label output tree = (.ok id, journal', tree')) :
    id = runName s b := by
  rw [Journal.record] at h
  split at h
  · cases h
  · cases h
  · next root _ _ =>
    simp only [Prod.mk.injEq] at h
    obtain ⟨-, -, rfl⟩ := run_eq_ok h.1
    rw [recordingOf]
    split
    · rfl
    · split <;> rfl

namespace Production

variable {request : Request} {registry : Generators} {tree : FileTree}

/-- The values that are inserted as they are when files are generated. The file tree is the one
at the beginning; it may have changed by the time a path is shown. -/
inductive Inserts (given : Circumstances) (bench : Workbench) (request : Request)
    (tree : FileTree) : String → Prop
  /-- The path of a blueprint file. -/
  | file {path file : String} {outcome : Except BlueprintFault Blueprint} {now : FileTree}
    (read : bench.Reads request.wanted tree path outcome)
    (seen : Discovery.relativeText now bench.root (.ofText path) = .ok file) :
    Inserts given bench request tree file
  /-- The code of a finding. -/
  | code {path : String} {b : Blueprint} {findings : Findings} {f : Finding}
    (read : bench.Reads request.wanted tree path (.ok b))
    (checked : validate bench.architectures.available (applied request b) = .ok findings)
    (among : f ∈ findings.errors ++ findings.warnings) : Inserts given bench request tree f.code
  /-- The path or the layer of a file that is put out. -/
  | output {path text : String} {b : Blueprint} {configured : List Generator} {now after : FileTree}
    {output : Output} {entry : OutputEntry} (read : bench.Reads request.wanted tree path (.ok b))
    (loaded : Generator.loadAll bench.configuration.generators = .ok configured)
    (generated : Pipeline.generate bench.architectures bench.configuration.locations.output
      (.ofList (Generator.snapshot :: configured)) request.selection request.mode []
      (applied request b) now = (.ok output, after))
    (among : entry ∈ output.entries) (part : text ∈ entry.path :: entry.layer.toList) :
    Inserts given bench request tree text
  /-- The name of a run that is recorded. -/
  | run {path : String} {b : Blueprint} {number : Nat}
    (read : bench.Reads request.wanted tree path (.ok b)) :
    Inserts given bench request tree (runName (given.surroundings number) (applied request b))

/-- The run of a blueprint is recorded. -/
lemma shows_keep {number : Nat} {journal : Journal} {b : Blueprint} {label : String}
    {output : Output} (name : inserted (runName (given.surroundings number) b)) (t : Terminal) :
    Shows inserted (keep given request number journal b label output) t := by
  rw [Shows, outcome_keep]
  rcases hrecord : journal.record (given.surroundings number)
    (request.context given.executionId output.warnings) b label output t.tree with
    ⟨kept, journal', after⟩
  refine ⟨keptShown journal.store output kept, rfl, isComposed_kept fun id hid => ?_⟩
  subst hid
  rwa [eq_runName_of_record hrecord]

/-- Findings are shown. -/
lemma shows_findings {style kind label : String} {findings : List Finding}
    (known : (style = "yellow" ∧ kind = "warning") ∨ (style = "red" ∧ kind = "error"))
    (title : inserted label) (codes : ∀ f ∈ findings, inserted f.code) (t : Terminal) :
    Shows inserted (forIn findings PUnit.unit fun finding _ => do
      showFinding style kind label finding
      pure (ForInStep.yield PUnit.unit)) t :=
  .forIn (fun f hf _ => .line (isComposed_finding title (codes f hf) known)) t

/-- One blueprint is put out. -/
lemma shows_one {path label : String} {b : Blueprint} {configured : List Generator} {number : Nat}
    {journal : Journal} (read : bench.Reads request.wanted tree path (.ok b))
    (loaded : Generator.loadAll bench.configuration.generators = .ok configured)
    (title : Inserts given bench request tree label) (t : Terminal) :
    Shows (Inserts given bench request tree) (one given bench
      (.ofList (Generator.snapshot :: configured)) request number journal b label) t := by
  rw [one]
  simp only
  refine .bind (.orBreak _) fun findings u hfindings => ?_
  have hchecked : validate bench.architectures.available (applied request b) = .ok findings :=
    mapError_eq_ok_iff.mp (outcome_orBreak_eq_ok_iff.mp hfindings).1
  have hcodes : ∀ f ∈ findings.errors ++ findings.warnings,
      Inserts given bench request tree f.code := fun f hf => .code read hchecked hf
  refine .bind (shows_findings (.inl ⟨rfl, rfl⟩) title (fun f hf => hcodes f (by simp [hf])) _)
    fun _ u _ => .ite (.bind (shows_findings (.inr ⟨rfl, rfl⟩) title
      (fun f hf => hcodes f (by simp [hf])) _) fun _ _ _ => .pure _)
      (.bind (.change _) fun generated u hgenerated => ?_)
  split
  · exact .stop _
  · exact .bind (.line (isComposed_fault title _)) fun _ _ _ => .pure _
  · next output =>
    rw [outcome_change, Prod.mk.injEq, Except.ok.injEq] at hgenerated
    refine .bind (.bind (.emit (isComposed_table title fun entry hentry => ?_)) fun _ _ _ =>
      .bind (.forIn (fun warning _ _ => .line (isComposed_warning warning)) _) fun _ _ _ => .pure _)
      fun _ u _ => ?_
    · have hpart : ∀ text ∈ entry.path :: entry.layer.toList,
          Inserts given bench request tree text := fun text htext =>
        .output read loaded (Prod.ext hgenerated.1 rfl) hentry htext
      exact ⟨hpart _ (by simp), fun layer hlayer => hpart _ (by simp [hlayer])⟩
    · exact .ite (.bind (.pure _) fun _ _ _ => .pure _)
        (.bind (shows_keep (.run read) _) fun _ _ _ => .pure _)

/-- Blueprints are put out one after another. -/
lemma shows_each {configured : List Generator}
    (loaded : Generator.loadAll bench.configuration.generators = .ok configured)
    {outcomes : List (String × Except BlueprintFault Blueprint)}
    (read : ∀ entry ∈ outcomes, bench.Reads request.wanted tree entry.1 entry.2) (number : Nat)
    (journal : Journal) (t : Terminal) :
    Shows (Inserts given bench request tree) (each given bench
      (.ofList (Generator.snapshot :: configured)) request number journal outcomes) t := by
  induction outcomes generalizing number journal t with
  | nil => exact .pure _
  | cons entry outcomes ih =>
    obtain ⟨path, result⟩ := entry
    rw [List.forall_mem_cons] at read
    rw [each]
    refine .bind (.ofTree _) fun label u hlabel => ?_
    obtain ⟨hseen, rfl⟩ := Inspection.outcome_label_eq_ok_iff.mp hlabel
    have title : Inserts given bench request tree label := .file read.1 hseen
    -- a file without a blueprint and one with a blueprint go on in the same way
    have hrest : ∀ (fine : Bool) (journal : Journal) (u : Terminal),
        Shows (Inserts given bench request tree) (do
          let failed ← each given bench (.ofList (Generator.snapshot :: configured)) request
            (number + 1) journal outcomes
          return if fine then failed else failed + 1) u :=
      fun _ journal u => .bind (ih read.2 _ journal u) fun _ _ _ => .pure _
    cases result with
    | ok b => exact .bind (shows_one read.1 loaded title _) fun _ u _ => hrest _ _ u
    | error fault =>
      exact .bind (.line (isComposed_fault title _)) fun _ u _ => hrest _ _ u

/-- Files are generated. -/
lemma shows_generate (given : Circumstances) (bench : Workbench) (request : Request)
    (t : Terminal) :
    Shows (Inserts given bench request t.tree) (generate given bench request) t := by
  rw [generate, generators]
  cases hload : Generator.loadAll bench.configuration.generators with
  | error failure =>
    cases failure with
    | broken cause => exact .bind (.stop _) fun _ _ h => by cases h
    | refused fault =>
      exact .bind (.bind (.line (Emission.isComposed_line (.message rfl _))) fun _ _ _ => .stop _)
        fun _ _ h => by cases h
  | ok configured =>
    refine .bind (.pure _) fun registry u h => ?_
    cases h
    refine .bind (Workbench.shows_discover _ _ _) fun paths u hpaths => ?_
    obtain ⟨rfl, hfind⟩ := Workbench.outcome_discover_eq_ok hpaths
    cases paths with
    | nil => exact .line (Emission.isComposed_line (.phrase rfl))
    | cons first rest =>
      refine .bind (.ofTree _) fun outcomes u houtcomes => ?_
      obtain ⟨hread, rfl⟩ := outcome_ofTree_eq_ok_iff.mp houtcomes
      refine .bind (shows_each hload (fun entry hentry =>
        ⟨_, outcomes, hfind, hread, hentry⟩) _ _ _) fun failed u _ => ?_
      have hend : ∀ u, Shows (Inserts given bench request t.tree) (if failed > 0 then do
          line ("[bold red]" ++ toString failed ++ " blueprint(s) failed.[/bold red]")
          giveUp
        else pure ()) u := fun u =>
        .ite (.bind (.line (isComposed_failures failed)) fun _ _ _ => .stop _) (.pure _)
      exact .ite (.bind (.line (Emission.isComposed_line (.phrase rfl))) fun _ u _ => hend u)
        (hend u)

end Production

/-! ### Looking back -/

/-- A text is a name or a time of a run that is listed. -/
def HistoryStore.Lists (store : HistoryStore) (tree : FileTree) (text : String) : Prop :=
  ∃ runs, store.runs tree = .ok runs ∧ ∃ run ∈ runs, text ∈ run.names

namespace Retrospection

variable {name execution : Option String} {latestOnly : Bool}

/-- The values that are inserted as they are when runs are rolled back. -/
inductive Inserts (bench : Workbench) (tree : FileTree) (name execution : Option String)
    (latestOnly : Bool) : String → Prop
  /-- A name or a time of a run that is listed as a suggestion. -/
  | listed {text : String} (listed : bench.store.Lists tree text) :
    Inserts bench tree name execution latestOnly text
  /-- A name, a time or a path of a run that is selected. -/
  | selected {runs : List Run} {run : Run} {text : String}
    (selected : bench.store.select tree name execution latestOnly = .ok runs) (among : run ∈ runs)
    (part : text ∈ run.names ++ run.places) : Inserts bench tree name execution latestOnly text
  /-- The execution that is asked for. -/
  | asked {id : String} (asked : execution = some id) :
    Inserts bench tree name execution latestOnly id

/-- Runs are listed. -/
lemma shows_history (bench : Workbench) (limit : Nat) (asJson : Bool) (t : Terminal) :
    Shows (bench.store.Lists t.tree) (history bench limit asJson) t := by
  rw [history]
  refine .ite (.bind (.line (Emission.isComposed_line (.phrase rfl))) fun _ _ _ =>
    .bind (.stop _) fun _ _ h => by cases h) (.bind (.ofTree _) fun runs u hlook => ?_)
  obtain ⟨hruns, rfl⟩ := outcome_ofTree_eq_ok_iff.mp hlook
  refine .ite (.bind (.orBreak _) fun _ _ _ => .value _) (.emit ?_)
  exact isComposed_shownRuns fun run hrun name hname =>
    ⟨runs, hruns, run, List.mem_of_mem_take hrun, hname⟩

/-- An action is called like its run, and it names paths of this run. -/
lemma places_of_mem_planUndo {tree : FileTree} {runs : List Run} {action : UndoAction}
    (h : action ∈ planUndo tree runs) :
    ∃ run ∈ runs, action.label ∈ run.names ++ run.places ∧
      ∀ path, action.path = some path ∨ action.fullPath = some path → path ∈ run.places := by
  obtain ⟨run, hrun, haction⟩ := List.mem_flatMap.mp h
  rw [Run.newestFirst, (sortBy_perm _).mem_iff] at hrun
  obtain ⟨change, hchange, haction⟩ := List.mem_filterMap.mp haction
  rw [List.mem_reverse] at hchange
  obtain ⟨kind, -, rfl⟩ := Option.map_eq_some_iff.mp haction
  refine ⟨run, hrun, ?_, fun path hpath => ?_⟩
  · cases hlabel : run.manifest.blueprint.path.filter fun path => !path.isEmpty with
    | none => simp [Run.names]
    | some path => simp [Run.places, (Option.filter_eq_some_iff.mp hlabel).1]
  · rw [Run.places, List.mem_append, List.mem_flatMap]
    refine .inr ⟨change, hchange, ?_⟩
    rcases hpath with hpath | hpath <;> simp_all

/-- Actions are carried out. -/
lemma shows_carryOut {actions : List UndoAction}
    (labels : ∀ action ∈ actions, inserted action.label) (t : Terminal) :
    Shows inserted (carryOut given actions) t := by
  refine .bind (.change _) fun result u hresult => ?_
  split
  · exact .stop _
  · next outcomes =>
    -- every outcome tells of one of the actions, so its label is one of theirs
    rw [outcome_change, Prod.mk.injEq, Except.ok.injEq] at hresult
    have hactions := (outcomes_of_undoAll hresult.1).1
    refine .bind (.forIn (fun outcome houtcome _ => .line (isComposed_outcomeLine ?_)) _)
      fun _ _ _ => .bind (.emit (isComposed_reportPanel _)) fun _ _ _ => .ite (.stop _) (.pure _)
    exact labels _ (hactions ▸ List.mem_map_of_mem houtcome)

/-- Runs are rolled back. -/
lemma shows_rollback (given : Circumstances) (bench : Workbench) (name execution : Option String)
    (latestOnly dryRun force : Bool) (t : Terminal) :
    Shows (Inserts bench t.tree name execution latestOnly)
      (rollback given bench name execution latestOnly dryRun force) t := by
  rw [rollback]
  refine .ite (.bind (.line isComposed_disabled) fun _ _ _ =>
    .bind (.stop _) fun _ _ h => by cases h) (.bind (.ofTree _) fun runs u hlook => ?_)
  obtain ⟨hselect, rfl⟩ := outcome_ofTree_eq_ok_iff.mp hlook
  cases runs with
  | nil =>
    refine .bind (.line (isComposed_nothingSelected name execution)) fun _ u hline =>
      .bind (.ofTree _) fun available v havailable => ?_
    cases hline
    obtain ⟨hruns, rfl⟩ := outcome_ofTree_eq_ok_iff.mp havailable
    refine .ite (.bind (.emit (isComposed_shownRuns fun run hrun name hname => ?_))
      fun _ _ _ => .stop _) (.stop _)
    exact .listed ⟨available, hruns, run, List.mem_of_mem_take hrun, hname⟩
  | cons first others =>
    have hselected : ∀ run ∈ first :: others, ∀ text ∈ run.names ++ run.places,
        Inserts bench t.tree name execution latestOnly text :=
      fun run hrun text htext => .selected hselect hrun htext
    refine .bind .get fun now u hget => ?_
    cases hget
    have hactions : ∀ action ∈ planUndo t.tree (first :: others),
        Inserts bench t.tree name execution latestOnly action.label ∧
        (∀ path, action.path = some path → Inserts bench t.tree name execution latestOnly path) ∧
        ∀ path, action.fullPath = some path →
          Inserts bench t.tree name execution latestOnly path := by
      intro action haction
      obtain ⟨run, hrun, hlabel, hpaths⟩ := places_of_mem_planUndo haction
      have hpath : ∀ path, action.path = some path ∨ action.fullPath = some path →
          Inserts bench t.tree name execution latestOnly path :=
        fun path hpath => hselected run hrun path (List.mem_append_right _ (hpaths path hpath))
      exact ⟨hselected run hrun _ hlabel, fun path h => hpath path (.inl h),
        fun path h => hpath path (.inr h)⟩
    split
    · exact .line (Emission.isComposed_line (.phrase rfl))
    · refine .bind (.emit (isComposed_selectionPanel (hselected first List.mem_cons_self)
        fun id hid => .asked hid)) fun _ _ _ => .bind (.emit (isComposed_planTable hactions))
        fun _ u _ => ?_
      have hcarry : ∀ u, Shows (Inserts bench t.tree name execution latestOnly)
          (carryOut given (planUndo t.tree (first :: others))) u :=
        shows_carryOut fun action haction => (hactions action haction).1
      exact .ite (.line (Emission.isComposed_line (.phrase rfl))) (.ite (hcarry u)
        (.bind (.confirm _) fun _ u _ => .ite (hcarry u)
          (.line (Emission.isComposed_line (.phrase rfl)))))

end Retrospection

/-! ### Whole runs -/

/-- The values that a command inserts as they are. -/
def Command.Inserts (given : Circumstances) (bench : Workbench) (tree : FileTree) :
    Command → String → Prop
  | validate modulePath _ => Inspection.Inserts bench ⟨modulePath, none⟩ tree
  | list wanted _ => Inspection.Inserts bench wanted tree
  | generate wanted only architecture dryRun force =>
    Production.Inserts given bench ⟨wanted, only, architecture, ⟨dryRun, force⟩⟩ tree
  | history _ _ => bench.store.Lists tree
  | rollback name execution latestOnly _ _ =>
    Retrospection.Inserts bench tree name execution latestOnly

namespace Program

/-- The values that a run of the program inserts as they are. -/
def Inserts (given : Circumstances) (arguments : List String) (tree : FileTree) (value : String) :
    Prop :=
  ∃ command file c, Invocation.ofArguments? arguments = some ⟨command, file⟩ ∧
    Configuration.load tree given.environment given.homes tree.workplace.toPath
      (file.map .ofText) = .ok c ∧
    command.Inserts given (.ofConfiguration c) tree value

variable {arguments : List String} {command : Command} {file : Option String}

/-- One command: what it shows is put together in the right way. -/
lemma shows_runCommand (asked : Invocation.ofArguments? arguments = some ⟨command, file⟩)
    (t : Terminal) :
    Shows (Inserts given arguments t.tree) (runCommand given (file.map .ofText) command) t := by
  refine .bind (Workbench.shows_load _ _ _) fun bench u hload => ?_
  obtain ⟨rfl, c, hc, rfl⟩ := outcome_load_eq_ok hload
  have hinserts : ∀ value, command.Inserts given (.ofConfiguration c) t.tree value →
      Inserts given arguments t.tree value :=
    fun value h => ⟨command, file, c, asked, hc, h⟩
  refine Shows.mono hinserts ?_
  cases command with
  | validate modulePath asJson => exact Inspection.shows_validate _ _ _ _
  | list wanted asJson => exact Inspection.shows_list _ _ _ _
  | generate wanted only architecture dryRun force => exact Production.shows_generate _ _ _ _
  | history limit asJson => exact Retrospection.shows_history _ _ _ _
  | rollback name execution latestOnly dryRun force =>
    exact Retrospection.shows_rollback _ _ _ _ _ _ _ _

lemma emissions_conclude (result : Except Stop Unit × Terminal) :
    (conclude result).2.emissions = result.2.emissions := by
  obtain ⟨result, after⟩ := result
  cases result with
  | ok _ => rfl
  | error stop => cases stop <;> rfl

/-- A run shows only what is put together in the right way. -/
lemma exists_shown_of_run (given : Circumstances) (arguments : List String) (t : Terminal) :
    ∃ shown, (run given arguments t).2.emissions = t.emissions ++ shown ∧
      ∀ e ∈ shown, e.IsComposed (Inserts given arguments t.tree) := by
  rw [run]
  cases asked : Invocation.ofArguments? arguments with
  | none => exact ⟨[], by simp, by simp⟩
  | some invocation =>
    obtain ⟨command, file⟩ := invocation
    have hshows : Shows (Inserts given arguments t.tree)
        (runCommand given (file.map .ofText) command) t := shows_runCommand asked t
    cases file with
    | none =>
      obtain ⟨shown, hshown, hall⟩ := hshows
      exact ⟨shown, (emissions_conclude _).trans hshown, hall⟩
    | some file =>
      simp only
      split_ifs
      · exact ⟨[], by simp, by simp⟩
      · exact ⟨[], by simp, by simp⟩
      · obtain ⟨shown, hshown, hall⟩ := hshows
        exact ⟨shown, (emissions_conclude _).trans hshown, hall⟩

/-- **Markup.** Whatever the arguments and the file tree are, and however a run ends, each text that
it shows is put together from phrases of the program, numbers, escaped values and values that
are inserted as they are. The latter are among those of the blueprints, findings, files and
runs that are meant. If none of those in a text has an opening bracket, the tags of the text
are some of those in its phrases, in their order. -/
theorem run_tags_composed (given : Circumstances) (arguments : List String) (t : Terminal) :
    ∃ shown, (run given arguments t).2.emissions = t.emissions ++ shown ∧
      ∀ e ∈ shown, ∀ text ∈ e.markups, ∃ pieces,
        Composes (Inserts given arguments t.tree) pieces text ∧
        ((∀ piece ∈ pieces, piece.Quiet) →
          (tags text).Sublist (pieces.flatMap Piece.tags) ∧
          ∀ tag ∈ tags text, ∃ phrase ∈ phrases, tag ∈ tags phrase) := by
  obtain ⟨shown, hshown, hall⟩ := exists_shown_of_run given arguments t
  refine ⟨shown, hshown, fun e he text htext => ?_⟩
  obtain ⟨pieces, composes⟩ := hall e he text htext
  refine ⟨pieces, composes, fun quiet => ?_⟩
  have hsublist : (tags text).Sublist (pieces.flatMap Piece.tags) :=
    composes.text_eq ▸ tags_assemble composes.framed quiet
  exact ⟨hsublist, fun tag htag => composes.exists_phrase (hsublist.mem htag)⟩

/-- Circumstances in which runs are kept. -/
def keepingRuns : Circumstances :=
  ⟨[], ⟨"/", []⟩, "e", fun _ => someDay⟩

/-- A file tree with one run of a blueprint, which has written a file. -/
def oneWriting (blueprint : String) : FileTree :=
  ⟨[], [([".blueprintx"], .directory), ([".blueprintx", "history"], .directory),
    ([".blueprintx", "history", "r"], .directory),
    ([".blueprintx", "history", "r", "manifest.json"], .file (Utf8.encode
      ("\x7b\"id\": \"r\", \"blueprint\": \x7b\"path\": \"" ++ blueprint ++
        "\"\x7d, \"entries\": [\x7b\"status\": \"written\", \"full_path\": \"/x\"\x7d]\x7d")))],
    [], 0⟩

/-- The run is the only one that is listed or selected. -/
lemma texts_oneWriting {value : String}
    (h : Inserts keepingRuns ["rollback", "--dry-run"] (oneWriting "a.yaml") value) :
    value = "r" ∨ value = "a.yaml" ∨ value = "/x" := by
  obtain ⟨command, file, c, asked, loaded, hvalue⟩ := h
  have hcommand : Invocation.ofArguments? ["rollback", "--dry-run"] =
      some ⟨.rollback none none false true false, none⟩ := by decide +kernel
  cases hcommand.symm.trans asked
  have hfacts : (Configuration.load (oneWriting "a.yaml") keepingRuns.environment keepingRuns.homes
      (oneWriting "a.yaml").workplace.toPath none).toOption.map
        (fun c => (Workbench.ofConfiguration c).store) =
      some ⟨"/.blueprintx/history", true⟩ := by decide +kernel
  have hstore : (Workbench.ofConfiguration c).store = ⟨"/.blueprintx/history", true⟩ := by
    rw [show Configuration.load _ _ _ _ none = .ok c from loaded] at hfacts
    exact Option.some.inj hfacts
  let store : HistoryStore := ⟨"/.blueprintx/history", true⟩
  have hruns : (store.runs (oneWriting "a.yaml")).toOption.map
      (·.flatMap fun run => run.names ++ run.places) = some ["r", "a.yaml", "/x"] := by
    decide +kernel
  have hselect : (store.select (oneWriting "a.yaml") none none false).toOption.map
      (·.flatMap fun run => run.names ++ run.places) = some ["r", "a.yaml", "/x"] := by
    decide +kernel
  have hmem : value ∈ ["r", "a.yaml", "/x"] := by
    cases hvalue with
    | listed listed =>
      obtain ⟨runs, h, run, hrun, hvalue⟩ := listed
      rw [hstore] at h
      rw [h] at hruns
      rw [← Option.some.inj hruns]
      exact List.mem_flatMap.mpr ⟨run, hrun, List.mem_append_left _ hvalue⟩
    | @selected runs run _ selected among part =>
      rw [hstore] at selected
      rw [selected] at hselect
      rw [← Option.some.inj hselect]
      exact List.mem_flatMap.mpr ⟨run, among, part⟩
    | asked asked => cases asked
  simpa using hmem

/-- Where a run has no brackets, the tags of its rollback are those of the program. -/
theorem run_tags_composed_oneWriting :
    (run keepingRuns ["rollback", "--dry-run"] ⟨oneWriting "a.yaml", [], []⟩).2.emissions.flatMap
        (·.markups.flatMap tags) = ["[bold]", "[/bold]", "[cyan]", "[/cyan]"] ∧
      ∀ e ∈ (run keepingRuns ["rollback", "--dry-run"] ⟨oneWriting "a.yaml", [], []⟩).2.emissions,
        ∀ text ∈ e.markups, ∀ tag ∈ tags text, ∃ phrase ∈ phrases, tag ∈ tags phrase := by
  refine ⟨by decide +kernel, fun e he text htext => ?_⟩
  obtain ⟨shown, hshown, hall⟩ :=
    run_tags_composed keepingRuns ["rollback", "--dry-run"] ⟨oneWriting "a.yaml", [], []⟩
  rw [hshown, List.nil_append] at he
  obtain ⟨pieces, composes, htags⟩ := hall e he text htext
  refine (htags fun piece hpiece => ?_).2
  have hallowed := composes.allowed piece hpiece
  cases piece with
  | bare value =>
    rcases texts_oneWriting hallowed with rfl | rfl | rfl <;> simp [Piece.Quiet]
  | phrase | number | escaped => exact True.intro

/-- The path of a blueprint with a bracket in its name is escaped where runs are listed, and it
makes a tag of its own where they are rolled back. -/
theorem run_tags_forged :
    (∃ e ∈ (run keepingRuns ["history"] ⟨oneWriting "[b].yaml", [], []⟩).2.emissions,
      escape "[b].yaml" ∈ e.markups) ∧ tags (escape "[b].yaml") = [] ∧
    (∃ e ∈ (run keepingRuns ["rollback", "--dry-run"] ⟨oneWriting "[b].yaml", [], []⟩).2.emissions,
      "[b].yaml" ∈ e.markups) ∧ tags "[b].yaml" = ["[b]"] ∧
    ∀ phrase ∈ phrases, "[b]" ∉ tags phrase := by
  have hlisted : ((run keepingRuns ["history"]
      ⟨oneWriting "[b].yaml", [], []⟩).2.emissions.any
        (·.markups.contains (escape "[b].yaml"))) = true := by decide +kernel
  have hplanned : ((run keepingRuns ["rollback", "--dry-run"]
      ⟨oneWriting "[b].yaml", [], []⟩).2.emissions.any (·.markups.contains "[b].yaml")) = true := by
    decide +kernel
  have hmem : ∀ {emissions : List Emission} {text : String},
      emissions.any (·.markups.contains text) = true → ∃ e ∈ emissions, text ∈ e.markups := by
    intro emissions text h
    obtain ⟨e, he, htext⟩ := List.any_eq_true.mp h
    exact ⟨e, he, List.contains_iff_mem.mp htext⟩
  refine ⟨hmem hlisted, tags_escape _, hmem hplanned, by decide +kernel, ?_⟩
  simp only [phrases, List.forall_mem_cons]
  and_intros
  any_goals exact notMem_tags_ofList (by decide +kernel)
  simp

end Program

end Scaffold
