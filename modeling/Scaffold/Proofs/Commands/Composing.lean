import Scaffold.Commands.Program
import Scaffold.Proofs.Commands.Accounts
import Scaffold.Proofs.Commands.Tags

/-!
How the texts on the console are put together.

Every line, cell and title is put together from phrases of the program, numbers and values. Most
values that come from files are escaped; names and paths are inserted as they are.

* `phrases`: all phrases of the program that stand beside values or alone.
* `Composes`, `Composed`: how a text is put together.
* `Emission.IsComposed`: something that is shown has such texts only.
* `CheckedRow.isComposed_table`, `Output.isComposed_table`, `Retrospection.isComposed_planTable`
  and the like: the tables, panels and lines of the commands.
-/

namespace Scaffold

open Markup

/-- The markup texts of what is shown. -/
def Emission.markups : Emission → List String
  | .line markup => [markup]
  | .table shown => shown.title :: shown.columns.map (·.header) ++ shown.rows.flatten
  | .panel shown => [shown.title, shown.text]
  | _ => []

namespace Markup

/-- The phrases of the program. -/
def phrases : List String :=
  ["-", "ok", ": ", ")", ", ", "[red]", "[yellow]", "[green]", "[bold red]", "[/yellow]", "[/red] ",
    "[/green] ", ":[/bold red] ", "error: ", ": error ", ": warning ", "[red]error[/red] ",
    "[yellow]warning[/yellow] ", "\n[red]error[/red] ", "\n[yellow]warning[/yellow] ",
    "[green]ok[/green]", "[bold red]error[/bold red]", "[green]written[/green]",
    "[yellow]overwritten[/yellow]", "[cyan]preview[/cyan]", "[dim]skipped[/dim]",
    " blueprint(s) checked, ", " error(s), ", " warning(s)[/green]", " warning(s)[/bold red]",
    "[bold red]Invalid configuration:[/bold red] ",
    "[bold red]Invalid generator configuration:[/bold red] ",
    "[bold red]Blueprints directory does not exist:[/bold red] ",
    "[yellow]No blueprints found.[/yellow]", "[yellow]No blueprints found for module '",
    "'.[/yellow]", "[yellow]warning: ", "[green]History run:[/green] ",
    "[yellow]Could not record generation history: ",
    "[cyan]Preview mode: no files were written.[/cyan]", " blueprint(s) failed.[/bold red]",
    "[bold red]Generation history is disabled.[/bold red]",
    " Set history.enabled and history.path in the configuration.",
    "No generation runs recorded yet.", "Execution: [bold]", "Run: [bold]", "[/bold] (",
    "[/bold] (blueprint=", " run(s), ", "unknown date", "Delete", "Restore", "Summary (",
    " run(s)): restored=", ", deleted=", ", skipped=", ", errors=",
    "[bold red]No history run with id '", "[bold red]No runs for execution '", "'.[/bold red]",
    "[bold red]No recorded runs to roll back.[/bold red]",
    "[yellow]The selected runs have no files to roll back.[/yellow]",
    "[cyan]Preview mode: no changes were made.[/cyan]", "Cancelled.",
    "Blueprint Validation", "Blueprint", "Status", "Findings", "Blueprints", "Module", "Entity",
    "Architecture", "Layer", "File", "Detail", "History", "Generation History", "Run ID",
    "Execution", "Files", "Recorded (UTC)", "Rollback", "Rollback Plan", "Action", "Absolute path"]

/-- A piece is a phrase of the program, or no phrase. -/
def Piece.isKnown : Piece → Bool
  | phrase text => phrases.contains text
  | _ => true

/-- A value that is inserted as it is, is one of those for which this is foreseen. -/
def Piece.Allowed (inserted : String → Prop) : Piece → Prop
  | bare value => inserted value
  | _ => True

variable {inserted : String → Prop} {text value : String} {pieces more : List Piece}

@[simp] lemma Piece.allowed_phrase (text : String) : (phrase text).Allowed inserted := True.intro

@[simp] lemma Piece.allowed_number (n : Nat) : (number n).Allowed inserted := True.intro

@[simp] lemma Piece.allowed_escaped (value : String) : (escaped value).Allowed inserted :=
  True.intro

@[simp] lemma Piece.allowed_bare : (bare value).Allowed inserted ↔ inserted value := Iff.rfl

/-- A text is put together from pieces in the right way. -/
structure Composes (inserted : String → Prop) (pieces : List Piece) (text : String) : Prop where
  /-- The text is that of the pieces. -/
  text_eq : text = assemble pieces
  /-- All phrases are known. -/
  known : pieces.all Piece.isKnown = true
  /-- No escaped value is upset. -/
  framed : framed true pieces = true
  /-- Values are inserted as they are only where this is foreseen. -/
  allowed : ∀ piece ∈ pieces, piece.Allowed inserted

/-- The tags of the pieces are tags of phrases. -/
lemma Composes.exists_phrase {tag : String} (h : Composes inserted pieces text)
    (mem : tag ∈ pieces.flatMap Piece.tags) : ∃ phrase ∈ phrases, tag ∈ tags phrase := by
  obtain ⟨piece, hpiece, htag⟩ := List.mem_flatMap.mp mem
  have hknown := List.all_eq_true.mp h.known piece hpiece
  cases piece with
  | phrase text => exact ⟨text, by simpa [Piece.isKnown] using hknown, htag⟩
  | number | bare | escaped => cases htag

/-- A text is put together in the right way. -/
def Composed (inserted : String → Prop) (text : String) : Prop :=
  ∃ pieces, Composes inserted pieces text

/-- A text is a phrase of the program. -/
def isPhrase (text : String) : Bool :=
  phrases.contains text && framed true [.phrase text]

namespace Composed

/-- More values may be inserted. -/
lemma mono {wider : String → Prop} (h : ∀ value, inserted value → wider value)
    (hc : Composed inserted text) : Composed wider text := by
  obtain ⟨pieces, composes⟩ := hc
  refine ⟨pieces, composes.text_eq, composes.known, composes.framed, fun piece hpiece => ?_⟩
  have hallowed := composes.allowed piece hpiece
  cases piece with
  | bare value => exact h value hallowed
  | phrase | number | escaped => exact True.intro

lemma phrase (h : isPhrase text = true) : Composed inserted text := by
  rw [isPhrase, Bool.and_eq_true] at h
  exact ⟨[.phrase text], by simp [assemble, Piece.text], by simpa [Piece.isKnown] using h.1, h.2,
    by simp⟩

lemma bare (h : inserted value) : Composed inserted value :=
  ⟨[.bare value], by simp [assemble, Piece.text], rfl, rfl, by simpa using h⟩

lemma escape (value : String) : Composed inserted (escape value) :=
  ⟨[.escaped value], by simp [assemble, Piece.text], rfl, rfl, by simp⟩

lemma number (n : Nat) : Composed inserted (toString n) :=
  ⟨[.number n], by simp [assemble, Piece.text], rfl, rfl, by simp⟩

/-- An escaped value behind a phrase. -/
lemma message (h : isPhrase text = true) (value : String) :
    Composed inserted (text ++ Markup.escape value) := by
  rw [isPhrase, Bool.and_eq_true] at h
  exact ⟨[.phrase text, .escaped value], by simp [assemble, Piece.text],
    by simpa [Piece.isKnown] using h.1, by simpa [framed, opensNext] using h.2,
    by simp⟩

/-- A value, or a phrase where there is none. -/
lemma getD_filter {value? : Option String} (h : ∀ value, value? = some value → inserted value)
    (other : isPhrase text = true) :
    Composed inserted ((value?.filter fun value => !value.isEmpty).getD text) := by
  cases hvalue : value?.filter fun value => !value.isEmpty with
  | none => exact phrase other
  | some value => exact bare (h value (Option.filter_eq_some_iff.mp hvalue).1)

end Composed

end Markup

variable {inserted : String → Prop}

/-- All texts of what is shown are put together in the right way. -/
def Emission.IsComposed (inserted : String → Prop) (e : Emission) : Prop :=
  ∀ text ∈ e.markups, Composed inserted text

namespace Emission

lemma isComposed_line {text : String} (h : Composed inserted text) :
    (line text).IsComposed inserted := by
  simpa [IsComposed, markups] using h

lemma isComposed_panel {shown : Panel} (title : isPhrase shown.title = true)
    (h : Composed inserted shown.text) : (panel shown).IsComposed inserted := by
  simpa [IsComposed, markups] using ⟨Composed.phrase title, h⟩

/-- A table is put together from its title, headers and cells. -/
lemma isComposed_table {shown : Table} (headers : List String)
    (title : Composed inserted shown.title) (named : shown.columns.map (·.header) = headers)
    (known : headers.all isPhrase = true)
    (cells : ∀ row ∈ shown.rows, ∀ cell ∈ row, Composed inserted cell) :
    (table shown).IsComposed inserted := by
  intro text htext
  rw [markups, List.mem_append, List.mem_cons, named] at htext
  rcases htext with (rfl | hheader) | hcell
  · exact title
  · exact .phrase (List.all_eq_true.mp known text hheader)
  · obtain ⟨row, hrow, hcell⟩ := List.mem_flatten.mp hcell
    exact cells row hrow text hcell

end Emission

/-! ### Looking at blueprints -/

namespace CheckedRow

/-- What stands in front of a finding in a cell. -/
def lead (severe : Bool) : String :=
  if severe then "[red]error[/red] " else "[yellow]warning[/yellow] "

/-- The findings of a row, with their severity. -/
def graded (row : CheckedRow) : List (Bool × Finding) :=
  row.findings.errors.map (Prod.mk true) ++ row.findings.warnings.map (Prod.mk false)

/-- The text of a finding in a cell. -/
def graveText (item : Bool × Finding) : String :=
  lead item.1 ++ item.2.code ++ ": " ++ escape item.2.message

/-- The pieces of findings in a cell, a line break in front of all but the first. -/
def pieces (start : String) : List (Bool × Finding) → List Piece
  | [] => []
  | (severe, f) :: rest =>
    .phrase (start ++ lead severe) :: .bare f.code :: .phrase ": " :: .escaped f.message ::
      pieces "\n" rest

/-- Findings that stand one below the other have these pieces. -/
lemma append_intercalate (start : String) (item : Bool × Finding) (rest : List (Bool × Finding)) :
    start ++ "\n".intercalate ((item :: rest).map graveText) =
      assemble (pieces start (item :: rest)) := by
  induction rest generalizing start item with
  | nil => simp [pieces, graveText, assemble, Piece.text, String.append_assoc]
  | cons next rest ih =>
    have hrest := ih "\n" next
    rw [List.map_cons] at hrest
    rw [List.map_cons, List.map_cons, String.intercalate_cons_cons, String.append_assoc, hrest]
    simp [pieces, graveText, assemble, Piece.text, String.append_assoc]

lemma known_pieces {start : String} (h : start = "" ∨ start = "\n")
    (items : List (Bool × Finding)) : (pieces start items).all Piece.isKnown = true := by
  induction items generalizing start with
  | nil => rfl
  | cons item rest ih =>
    obtain ⟨severe, f⟩ := item
    have hlead : phrases.contains (start ++ lead severe) = true := by
      rcases h with rfl | rfl <;> cases severe <;> decide +kernel
    have hcolon : phrases.contains ": " = true := by decide +kernel
    simp only [pieces, List.all_cons, Piece.isKnown, hlead, hcolon, ih (.inr rfl), Bool.and_self]

lemma opensNext_pieces (items : List (Bool × Finding)) : opensNext (pieces "\n" items) = true := by
  cases items with
  | nil => rfl
  | cons item rest =>
    obtain ⟨severe, f⟩ := item
    cases severe <;> rfl

lemma framed_pieces {start : String} (h : start = "" ∨ start = "\n") (fresh : Bool)
    (items : List (Bool × Finding)) : framed fresh (pieces start items) = true := by
  induction items generalizing start fresh with
  | nil => rfl
  | cons item rest ih =>
    obtain ⟨severe, f⟩ := item
    have hlead : (!(start ++ lead severe).toList.contains '\\' &&
        whole (start ++ lead severe).toList) = true := by
      rcases h with rfl | rfl <;> cases severe <;> decide +kernel
    have hcolon : (!(": ".toList.contains '\\') && whole ": ".toList &&
        (false || ": " != "")) = true := by
      decide +kernel
    simp only [Bool.and_eq_true] at hcolon
    simp only [pieces, framed, hlead, hcolon.1, hcolon.2, opensNext_pieces, ih (.inr rfl),
      Bool.and_self]

/-- The findings in a cell. -/
lemma composed_findings {row : CheckedRow}
    (codes : ∀ f ∈ row.findings.errors ++ row.findings.warnings, inserted f.code) :
    Composed inserted (if row.graded.isEmpty then "-"
      else "\n".intercalate (row.graded.map graveText)) := by
  cases hitems : row.graded with
  | nil => exact .phrase (by decide +kernel)
  | cons item rest =>
    refine ⟨pieces "" (item :: rest), ?_, known_pieces (.inl rfl) _, framed_pieces (.inl rfl) _ _,
      ?_⟩
    · rw [← append_intercalate, String.empty_append]
      rfl
    · -- the codes are the only values that are inserted as they are
      have hitem : ∀ entry ∈ item :: rest, inserted entry.2.code := by
        intro entry hentry
        refine codes entry.2 ?_
        rw [← hitems, graded, List.mem_append] at hentry
        rw [List.mem_append]
        refine hentry.imp (fun h => ?_) fun h => ?_ <;>
          · obtain ⟨f, hf, rfl⟩ := List.mem_map.mp h
            exact hf
      have hall : ∀ start items, (∀ entry ∈ items, inserted entry.2.code) →
          ∀ piece ∈ pieces start items, piece.Allowed inserted := by
        intro start items
        induction items generalizing start with
        | nil => simp [pieces]
        | cons first rest ih =>
          intro h
          rw [List.forall_mem_cons] at h
          simpa [pieces, h.1] using ih "\n" h.2
      exact hall _ _ hitem

/-- The table of validated files. -/
lemma isComposed_table {rows : List CheckedRow} (files : ∀ row ∈ rows, inserted row.file)
    (codes : ∀ row ∈ rows, ∀ f ∈ row.findings.errors ++ row.findings.warnings, inserted f.code) :
    (Emission.table (table rows)).IsComposed inserted := by
  refine Emission.isComposed_table ["Blueprint", "Status", "Findings"]
    (.phrase (by rfl : isPhrase "Blueprint Validation" = true)) rfl rfl ?_
  intro cells hcells
  obtain ⟨row, hrow, rfl⟩ := List.mem_map.mp hcells
  have hshown : row.findings.errors.map (cell "red" "error") ++
      row.findings.warnings.map (cell "yellow" "warning") = row.graded.map graveText := by
    rw [graded, List.map_append, List.map_map, List.map_map]
    rfl
  have hfindings := composed_findings (codes row hrow)
  rw [← List.isEmpty_map (f := graveText), ← hshown] at hfindings
  simp only [CheckedRow.cells, List.mem_cons, List.not_mem_nil, or_false]
  rintro text (rfl | rfl | rfl)
  · exact .bare (files row hrow)
  · rw [status]
    cases row.findings.isValid <;> exact .phrase rfl
  · exact hfindings

/-- The line below the table. -/
lemma isComposed_summary (rows : List CheckedRow) (failed : Bool) :
    (Emission.line ("[" ++ (if failed then "bold red" else "green") ++ "]" ++ summary rows ++
      "[/" ++ (if failed then "bold red" else "green") ++ "]")).IsComposed inserted := by
  have hpieces : ∀ front back, (front = "[bold red]" ∧ back = " warning(s)[/bold red]") ∨
      (front = "[green]" ∧ back = " warning(s)[/green]") → Composed inserted
        (front ++ toString rows.length ++ " blueprint(s) checked, " ++
          toString (rows.flatMap (·.findings.errors)).length ++ " error(s), " ++
          toString (rows.flatMap (·.findings.warnings)).length ++ back) := by
    intro front back h
    refine ⟨[.phrase front, .number rows.length, .phrase " blueprint(s) checked, ",
      .number (rows.flatMap (·.findings.errors)).length, .phrase " error(s), ",
      .number (rows.flatMap (·.findings.warnings)).length, .phrase back],
      by simp [assemble, Piece.text, String.append_assoc], ?_, ?_, by simp⟩ <;>
    rcases h with ⟨rfl, rfl⟩ | ⟨rfl, rfl⟩ <;> rfl
  refine Emission.isComposed_line ?_
  cases failed with
  | true => simpa [summary, String.append_assoc] using hpieces _ _ (.inl ⟨rfl, rfl⟩)
  | false => simpa [summary, String.append_assoc] using hpieces _ _ (.inr ⟨rfl, rfl⟩)

end CheckedRow

/-- The line that tells that there is no blueprint. -/
lemma Inspection.isComposed_missing {modulePath : Option String}
    (asked : ∀ value, modulePath = some value → inserted value) :
    (Emission.line ("[yellow]No blueprints found" ++
      (modulePath.filter fun text => !text.isEmpty).elim "" (fun text =>
        " for module '" ++ text ++ "'") ++ ".[/yellow]")).IsComposed inserted := by
  refine Emission.isComposed_line ?_
  cases hvalue : modulePath.filter fun text => !text.isEmpty with
  | none => exact .phrase (by rfl : isPhrase "[yellow]No blueprints found.[/yellow]" = true)
  | some value =>
    have hinserted := asked value (Option.filter_eq_some_iff.mp hvalue).1
    exact ⟨[.phrase "[yellow]No blueprints found for module '", .bare value, .phrase "'.[/yellow]"],
      by simp [assemble, Piece.text, ← String.toList_inj], rfl, rfl,
      by simp [hinserted]⟩

/-- The names of a blueprint. -/
def Blueprint.names (b : Blueprint) : List String :=
  b.modulePath.toList ++ [b.entity, b.architecture]

/-- The table of listed files. -/
lemma ListedRow.isComposed_table {rows : List ListedRow}
    (files : ∀ row ∈ rows, inserted row.file)
    (names : ∀ row ∈ rows, ∀ b, row.outcome = .ok b → ∀ name ∈ b.names, inserted name) :
    (Emission.table (table rows)).IsComposed inserted := by
  refine Emission.isComposed_table ["Blueprint", "Module", "Entity", "Architecture", "Status"]
    (.phrase (by rfl : isPhrase "Blueprints" = true)) rfl rfl ?_
  intro cells hcells
  obtain ⟨row, hrow, rfl⟩ := List.mem_map.mp hcells
  obtain ⟨file, outcome⟩ := row
  have hfile : Composed inserted file := .bare (files _ hrow)
  cases outcome with
  | error fault =>
    have hcells : ListedRow.cells ⟨file, .error fault⟩ =
      [file, "-", "-", "-", "error: " ++ escape fault.message] := rfl
    simp only [hcells, List.mem_cons, List.not_mem_nil, or_false]
    rintro text (rfl | rfl | rfl | rfl | rfl)
    · exact hfile
    · exact .phrase rfl
    · exact .phrase rfl
    · exact .phrase rfl
    · exact .message rfl fault.message
  | ok b =>
    have hnames := names _ hrow b rfl
    have hcells : ListedRow.cells ⟨file, .ok b⟩ = [file, shownOr b.modulePath,
      shownOr (some b.entity), shownOr (some b.architecture), "ok"] := rfl
    simp only [hcells, List.mem_cons, List.not_mem_nil, or_false]
    rintro text (rfl | rfl | rfl | rfl | rfl)
    · exact hfile
    · exact .getD_filter (fun name hname => hnames name (by
        simp [Blueprint.names, hname])) rfl
    · exact .getD_filter (fun name hname => hnames name (by
        simp [Blueprint.names, Option.some.inj hname])) rfl
    · exact .getD_filter (fun name hname => hnames name (by
        simp [Blueprint.names, Option.some.inj hname])) rfl
    · exact .phrase rfl

/-! ### Generating files -/

namespace Production

/-- The table of an output. -/
lemma isComposed_table {label : String} {output : Output} (title : inserted label)
    (entries : ∀ entry ∈ output.entries, inserted entry.path ∧
      ∀ layer, entry.layer = some layer → inserted layer) :
    (Emission.table (output.table label)).IsComposed inserted := by
  refine Emission.isComposed_table ["Status", "Layer", "File", "Detail"] (.bare title) rfl rfl ?_
  intro cells hcells
  obtain ⟨entry, hentry, rfl⟩ := List.mem_map.mp hcells
  simp only [OutputEntry.cells, List.mem_cons, List.not_mem_nil, or_false]
  rintro text (rfl | rfl | rfl | rfl)
  · cases entry.status <;> exact .phrase rfl
  · exact .getD_filter (entries entry hentry).2 rfl
  · exact .bare (entries entry hentry).1
  · exact .escape _

/-- The line of a warning. -/
lemma isComposed_warning (warning : String) :
    (Emission.line ("[yellow]warning: " ++ escape warning ++ "[/yellow]")).IsComposed inserted :=
  Emission.isComposed_line ⟨[.phrase "[yellow]warning: ", .escaped warning, .phrase "[/yellow]"],
    by simp [assemble, Piece.text, String.append_assoc], rfl, rfl, by simp⟩

/-- The line of a finding. -/
lemma isComposed_finding {style kind label : String} {f : Finding} (title : inserted label)
    (code : inserted f.code)
    (known : (style = "yellow" ∧ kind = "warning") ∨ (style = "red" ∧ kind = "error")) :
    (Emission.line ("[" ++ style ++ "]" ++ label ++ ": " ++ kind ++ " " ++ f.code ++ ": " ++
      escape f.message)).IsComposed inserted := by
  refine Emission.isComposed_line ⟨[.phrase ("[" ++ style ++ "]"), .bare label,
    .phrase (": " ++ kind ++ " "), .bare f.code, .phrase ": ", .escaped f.message],
    by simp [assemble, Piece.text, String.append_assoc], ?_, ?_,
    by simp [title, code]⟩ <;>
  rcases known with ⟨rfl, rfl⟩ | ⟨rfl, rfl⟩ <;> rfl

/-- The line of a fault. -/
lemma isComposed_fault {label : String} (title : inserted label) (message : String) :
    (Emission.line ("[bold red]" ++ label ++ ":[/bold red] " ++ escape message)).IsComposed
      inserted :=
  Emission.isComposed_line ⟨[.phrase "[bold red]", .bare label, .phrase ":[/bold red] ",
    .escaped message], by simp [assemble, Piece.text, String.append_assoc], rfl, rfl,
    by simp [title]⟩

/-- What is shown of a recording. -/
lemma isComposed_kept {store : HistoryStore} {output : Output} {kept : Except RecordFault String}
    (name : ∀ id, kept = .ok id → inserted id) :
    ∀ e ∈ keptShown store output kept, e.IsComposed inserted := by
  cases kept with
  | ok id =>
    simpa [keptShown] using Emission.isComposed_line ⟨[.phrase "[green]History run:[/green] ",
      .bare id], by simp [assemble, Piece.text], rfl, rfl, by simp [name id rfl]⟩
  | error fault =>
    rw [keptShown]
    split_ifs
    · rw [List.forall_mem_singleton]
      exact Emission.isComposed_line (.message rfl fault.message)
    · simp

/-- The line that counts failures. -/
lemma isComposed_failures (failed : Nat) :
    (Emission.line ("[bold red]" ++ toString failed ++
      " blueprint(s) failed.[/bold red]")).IsComposed inserted :=
  Emission.isComposed_line ⟨[.phrase "[bold red]", .number failed,
    .phrase " blueprint(s) failed.[/bold red]"],
    by simp [assemble, Piece.text, String.append_assoc], rfl, rfl, by simp⟩

end Production

/-! ### Looking back -/

/-- The names and times of a run. -/
def Run.names (run : Run) : List String :=
  run.id :: run.manifest.executionId.toList ++ run.manifest.timestamp.toList

/-- The paths of a run. -/
def Run.places (run : Run) : List String :=
  run.manifest.blueprint.path.toList ++
    run.manifest.entries.flatMap fun change => change.path.toList ++ change.fullPath.toList

namespace Retrospection

/-- What is shown of some runs. -/
lemma isComposed_shownRuns {runs : List Run}
    (names : ∀ run ∈ runs, ∀ name ∈ run.names, inserted name) :
    (shownRuns runs).IsComposed inserted := by
  rw [shownRuns]
  split_ifs with hempty
  · exact Emission.isComposed_panel rfl (.phrase rfl)
  refine Emission.isComposed_table ["Run ID", "Execution", "Blueprint", "Files", "Recorded (UTC)"]
    (.phrase (by rfl : isPhrase "Generation History" = true)) rfl rfl ?_
  intro cells hcells
  obtain ⟨run, hrun, rfl⟩ := List.mem_map.mp hcells
  simp only [runCells, filledOr, List.mem_cons, List.not_mem_nil, or_false]
  rintro text (rfl | rfl | rfl | rfl | rfl)
  · exact .bare (names run hrun _ (by simp [Run.names]))
  · exact .getD_filter (fun name hname => names run hrun _ (by simp [Run.names, hname])) rfl
  · exact .escape _
  · exact .number _
  · exact .getD_filter (fun name hname => names run hrun _ (by simp [Run.names, hname])) rfl

lemma filledOr_cases (other : String) (s : Option String) :
    filledOr other s = other ∨ s = some (filledOr other s) := by
  rw [filledOr]
  cases hfilled : s.filter fun text => !text.isEmpty with
  | none => exact .inl rfl
  | some text => exact .inr (Option.filter_eq_some_iff.mp hfilled).1

/-- The piece of a value, or of a phrase where there is none. -/
lemma exists_piece {s : Option String} (other : String)
    (h : ∀ value, s = some value → inserted value) (known : phrases.contains other = true) :
    ∃ piece : Piece, (piece = .phrase other ∨ piece = .bare (filledOr other s)) ∧
      piece.text = filledOr other s ∧ piece.isKnown = true ∧ piece.Allowed inserted := by
  rcases filledOr_cases other s with hother | hvalue
  · exact ⟨.phrase other, .inl rfl, hother.symm, known, True.intro⟩
  · exact ⟨.bare (filledOr other s), .inr rfl, rfl, rfl, h _ hvalue⟩

/-- The panel of the runs that are selected. -/
lemma isComposed_selectionPanel {first : Run} {count : Nat} {name execution : Option String}
    (names : ∀ text ∈ first.names ++ first.places, inserted text)
    (asked : ∀ id, execution = some id → inserted id) :
    (Emission.panel (selectionPanel first count name execution)).IsComposed inserted := by
  have hstamp : ∀ value, first.manifest.timestamp = some value → inserted value :=
    fun value h => names value (by simp [Run.names, h])
  have hpath : ∀ value, first.manifest.blueprint.path = some value → inserted value :=
    fun value h => names value (by simp [Run.places, h])
  obtain ⟨time, htime, htimeText, -, htimeAllowed⟩ := exists_piece "unknown date" hstamp (by rfl)
  obtain ⟨file, hfile, hfileText, -, hfileAllowed⟩ := exists_piece "-" hpath (by rfl)
  refine Emission.isComposed_panel (by rfl : isPhrase "Rollback" = true) ?_
  simp only [selectionPanel, ← htimeText, ← hfileText]
  split
  · next id hid =>
    have hid : inserted id := by
      rw [firstFilled, Option.or_eq_some_iff] at hid
      rcases hid with h | ⟨-, h⟩
      · exact asked id (Option.filter_eq_some_iff.mp h).1
      · exact names id (by simp [Run.names, h])
    refine ⟨[.phrase "Execution: [bold]", .bare id, .phrase "[/bold] (", .number count,
      .phrase " run(s), ", time, .phrase ")"],
      by simp [assemble, Piece.text, String.append_assoc], ?_, ?_,
      by simp [hid, htimeAllowed]⟩ <;>
    rcases htime with rfl | rfl <;> rfl
  · have hid : inserted first.id := names _ (by simp [Run.names])
    refine ⟨[.phrase "Run: [bold]", .bare first.id, .phrase "[/bold] (blueprint=", file,
      .phrase ", ", time, .phrase ")"], by simp [assemble, Piece.text, String.append_assoc], ?_, ?_,
      by simp [hid, htimeAllowed, hfileAllowed]⟩ <;>
    rcases htime with rfl | rfl <;> rcases hfile with rfl | rfl <;> rfl

/-- The table of a plan. -/
lemma isComposed_planTable {actions : List UndoAction}
    (actions_inserted : ∀ action ∈ actions, inserted action.label ∧
      (∀ path, action.path = some path → inserted path) ∧
      ∀ path, action.fullPath = some path → inserted path) :
    (Emission.table (planTable actions)).IsComposed inserted := by
  refine Emission.isComposed_table ["Action", "Blueprint", "File", "Absolute path"]
    (.phrase (by rfl : isPhrase "Rollback Plan" = true)) rfl rfl ?_
  intro cells hcells
  obtain ⟨action, haction, rfl⟩ := List.mem_map.mp hcells
  obtain ⟨hlabel, hpath, hfull⟩ := actions_inserted action haction
  simp only [filledOr, List.mem_cons, List.not_mem_nil, or_false]
  rintro text (rfl | rfl | rfl | rfl)
  · cases action.kind <;> exact .phrase rfl
  · exact .bare hlabel
  · exact .getD_filter hpath rfl
  · exact .getD_filter hfull rfl

/-- The line of an outcome. -/
lemma isComposed_outcomeLine {outcome : UndoOutcome} (label : inserted outcome.action.label) :
    (Emission.line (outcomeLine outcome)).IsComposed inserted := by
  refine Emission.isComposed_line ?_
  -- the status is escaped together with its own brackets
  have hpieces : ∀ front back, (front = "[red]" ∧ back = "[/red] ") ∨
      (front = "[green]" ∧ back = "[/green] ") → Composed inserted
        (front ++ escape ("[" ++ outcome.status.word ++ "]") ++ back ++ outcome.action.label ++
          ": " ++ escape outcome.detail) := by
    intro front back h
    refine ⟨[.phrase front, .escaped ("[" ++ outcome.status.word ++ "]"), .phrase back,
      .bare outcome.action.label, .phrase ": ", .escaped outcome.detail],
      by simp [assemble, Piece.text, String.append_assoc], ?_, ?_, by simp [label]⟩ <;>
    rcases h with ⟨rfl, rfl⟩ | ⟨rfl, rfl⟩ <;> rfl
  rw [outcomeLine]
  cases outcome.status == .error with
  | true => simpa [String.append_assoc] using hpieces _ _ (.inl ⟨rfl, rfl⟩)
  | false => simpa [String.append_assoc] using hpieces _ _ (.inr ⟨rfl, rfl⟩)

/-- The panel of a report. -/
lemma isComposed_reportPanel (report : UndoReport) :
    (Emission.panel (reportPanel report)).IsComposed inserted :=
  Emission.isComposed_panel (by rfl : isPhrase "Rollback" = true) ⟨[.phrase "Summary (",
    .number report.runIds.length, .phrase " run(s)): restored=", .number (report.count .restored),
    .phrase ", deleted=", .number (report.count .deleted), .phrase ", skipped=",
    .number (report.count .skipped), .phrase ", errors=", .number (report.count .error)],
    by simp [assemble, Piece.text, reportPanel, String.append_assoc], rfl, rfl,
    by simp⟩

/-- The line that tells that no runs are kept. -/
lemma isComposed_disabled :
    (Emission.line ("[bold red]Generation history is disabled.[/bold red] " ++
      "Set history.enabled and history.path in the configuration.")).IsComposed inserted :=
  Emission.isComposed_line ⟨[.phrase "[bold red]Generation history is disabled.[/bold red]",
    .phrase " Set history.enabled and history.path in the configuration."], by decide +kernel,
    rfl, by decide +kernel, by simp⟩

/-- The line for a selection without runs. -/
lemma isComposed_nothingSelected (name execution : Option String) :
    (Emission.line (nothingSelected name execution)).IsComposed inserted := by
  have hquoted : ∀ start value, (start = "[bold red]No history run with id '" ∨
      start = "[bold red]No runs for execution '") →
        Composed inserted (start ++ escape value ++ "'.[/bold red]") := by
    intro start value h
    refine ⟨[.phrase start, .escaped value, .phrase "'.[/bold red]"],
      by simp [assemble, Piece.text, String.append_assoc], ?_, ?_, by simp⟩ <;>
    rcases h with rfl | rfl <;> rfl
  refine Emission.isComposed_line ?_
  rw [nothingSelected]
  split
  · exact hquoted _ _ (.inl rfl)
  · exact hquoted _ _ (.inr rfl)
  · exact .phrase rfl

end Retrospection

end Scaffold
