import Scaffold.Proofs.Commands.Generating
import Scaffold.Proofs.Json.Reading

/-!
Invocations that look at blueprints.

Blueprints are listed and validated for other programs as one JSON array. It has one element
for each blueprint file that is found, in their order; an element tells of an error exactly if
the file gives no blueprint, or none that is accepted; and the exit code tells whether any
element does. The file tree is left as it is.

* `Json.TellsError`: an element tells of an error.
* `StandsFor`: what one element tells; `Answers`: what is printed as a whole.
* `outcome_mapM_eq_ok`: a look at one thing after another.
* `Inspection.answers_of_list`, `Inspection.answers_of_validate`: what the two commands print.
* `run_inspection_answers`: whole invocations; `run_validate_silent`: one that finds nothing
  and prints no array.
-/

namespace Scaffold

open Files FileTree Work

variable {α β : Type} {t after : Terminal} {code : Nat} {given : Circumstances}
  {bench : Workbench} {path : Path} {paths : List Path} {tree : FileTree}

/-! ### Elements -/

/-- An element of an array tells of an error, or of several ones. -/
def Json.TellsError (element : Json) : Prop :=
  (∃ message, element.get? "error" = some (.string message)) ∨
    ∃ first rest, element.get? "errors" = some (.array (first :: rest))

/-- An element stands for a blueprint file: it names the file, and it tells of an error exactly
if the file fails. -/
structure StandsFor (tree : FileTree) (root : Path) (fails : Path → Prop) (path : Path)
    (element : Json) : Prop where
  /-- The file is named as it is seen from the root. -/
  file : ∃ file, Discovery.relativeText tree root (.ofText path.toText) = .ok file ∧
    element.get? "file" = some (.string file)
  /-- An error is told of when there is one. -/
  error : element.TellsError ↔ fails path

/-- One array is printed and nothing else, and a program can read it. It tells of all
files in their order, and the exit code of all errors. -/
structure Answers (root : Path) (fails : Path → Prop) (paths : List Path) (t : Terminal)
    (code : Nat) (after : Terminal) (elements : List Json) : Prop where
  /-- Nothing else is shown, and nothing is changed. -/
  printed : after = t.showing [.value (.array elements)]
  /-- What is printed is the text of the array. -/
  legible : Json.parse (Json.array elements).document = .ok (.array elements)
  /-- There is an element for each file. -/
  complete : List.Forall₂ (StandsFor t.tree root fails) paths elements
  /-- The exit code is zero or one. -/
  exit : code = 0 ∨ code = 1
  /-- It is one when there is an error. -/
  failed : code = 1 ↔ ∃ element ∈ elements, element.TellsError

/-- A file gives no blueprint. -/
def Workbench.Unreadable (bench : Workbench) (tree : FileTree) (path : Path) : Prop :=
  ∃ fault, bench.reader.read tree path.toText = .error (.refused fault)

/-- A file gives no blueprint, or one that is not accepted. -/
def Workbench.Unacceptable (bench : Workbench) (tree : FileTree) (path : Path) : Prop :=
  bench.Unreadable tree path ∨ ∃ b findings, bench.reader.read tree path.toText = .ok b ∧
    Scaffold.validate bench.architectures.available b = .ok findings ∧ findings.isValid = false

section Elements

variable {file : String}

namespace ListedRow

@[simp] lemma get?_file_toJson (row : ListedRow) :
    row.toJson.get? "file" = some (.string row.file) :=
  rfl

/-- A listed row tells of an error when there is no blueprint. -/
lemma tellsError_toJson_iff (row : ListedRow) :
    row.toJson.TellsError ↔ row.fault?.isSome = true := by
  have herror : row.toJson.get? "error" = some (.ofText? (row.fault?.map BlueprintFault.message)) :=
    rfl
  have herrors : row.toJson.get? "errors" = none := rfl
  rw [Json.TellsError, herror, herrors]
  cases row.fault? <;> simp [Json.ofText?]

end ListedRow

namespace CheckedRow

@[simp] lemma get?_file_toJson (row : CheckedRow) :
    row.toJson.get? "file" = some (.string row.file) :=
  rfl

/-- A checked row tells of an error when one was found. -/
lemma tellsError_toJson_iff (row : CheckedRow) :
    row.toJson.TellsError ↔ row.findings.isValid = false := by
  have herror : row.toJson.get? "error" = none := rfl
  have herrors : row.toJson.get? "errors" =
      some (.array (row.findings.errors.map Finding.toJson)) := rfl
  rw [Json.TellsError, herror, herrors, Findings.isValid]
  cases row.findings.errors <;> simp

end CheckedRow

end Elements

/-! ### What can be read again -/

namespace Json

variable {depth : Nat}

@[simp] lemma legible_ofText? (s : Option String) : (ofText? s).Legible depth := by
  cases s <;> simp [ofText?, Legible]

end Json

lemma legible_listedRow (row : ListedRow) : row.toJson.Legible 1 := by
  simp [ListedRow.toJson, Json.Legible, Json.LegibleMembers, Json.depthLimit]

lemma legible_checkedRow (row : CheckedRow) : row.toJson.Legible 1 := by
  have hfindings : ∀ findings : List Finding,
      Json.LegibleItems 3 (findings.map Finding.toJson) := by
    intro findings
    rw [Json.legibleItems_iff, List.forall_mem_map]
    intro f _
    simp [Finding.toJson, Json.Legible, Json.LegibleMembers, Json.depthLimit]
  simp [CheckedRow.toJson, Json.Legible, Json.LegibleMembers, Json.depthLimit, hfindings]

/-- An array of legible elements is read back. -/
lemma parse_document_array {elements : List Json} (h : ∀ element ∈ elements, element.Legible 1) :
    Json.parse (Json.array elements).document = .ok (.array elements) :=
  Json.parse_render _ ⟨by decide, Json.legibleItems_iff.mpr h⟩

/-! ### One look after another -/

namespace Work

variable {f : α → Work β} {as : List α} {bs : List β}

lemma OnlyBreaks.mapM (h : ∀ a, OnlyBreaks (f a)) (as : List α) : OnlyBreaks (as.mapM f) := by
  induction as with
  | nil => exact .pure []
  | cons a as ih =>
    rw [List.mapM_cons]
    exact .bind (h a) fun b => .bind ih fun bs => .pure _

/-- Looks that leave the terminal alone have one result each. -/
lemma outcome_mapM_eq_ok (quiet : ∀ a b u, outcome (f a) t = (.ok b, u) → t = u)
    (h : outcome (as.mapM f) t = (.ok bs, after)) :
    t = after ∧ List.Forall₂ (fun a b => outcome (f a) t = (.ok b, t)) as bs := by
  induction as generalizing bs after with
  | nil =>
    cases h
    exact ⟨rfl, .nil⟩
  | cons a as ih =>
    rw [List.mapM_cons] at h
    obtain ⟨b, u, hb, h⟩ := outcome_bind_eq_ok_iff.mp h
    obtain rfl := quiet a b u hb
    obtain ⟨rest, u, hrest, h⟩ := outcome_bind_eq_ok_iff.mp h
    obtain ⟨rfl, hall⟩ := ih hrest
    cases h
    exact ⟨rfl, .cons hb hall⟩

end Work

/-- A relation between the elements of two lists and one between these and a third list. -/
lemma forall₂_comp {γ : Type} {R : α → β → Prop} {S : β → γ → Prop} {T : α → γ → Prop}
    (step : ∀ a b c, R a b → S b c → T a c) {as : List α} {bs : List β} {cs : List γ}
    (h : List.Forall₂ R as bs) (h' : List.Forall₂ S bs cs) : List.Forall₂ T as cs := by
  induction h generalizing cs with
  | nil =>
    cases h'
    exact .nil
  | cons hab _ ih =>
    cases h' with
    | cons hbc hrest => exact .cons (step _ _ _ hab hbc) (ih hrest)

/-! ### The commands -/

namespace Inspection

open Program

variable {wanted : Discovery.Wanted} {modulePath : Option String}

/-- The end of both commands: the array is printed, and a failure is told. -/
lemma conclude_of_print {elements : List Json} {failed : Bool}
    (h : conclude (outcome (do emit (.value (.array elements)); if failed then giveUp) t) =
      (.finished code, after)) :
    after = t.showing [.value (.array elements)] ∧ code = if failed then 1 else 0 := by
  cases failed <;> (cases h; exact ⟨rfl, rfl⟩)

/-- Blueprints are looked for in a root that is there. -/
lemma conclude_of_discover {f : List Path → Work Unit}
    (present : t.tree.isDirectory bench.root = .ok true)
    (h : conclude (outcome (bench.discover wanted >>= f) t) = (.finished code, after)) :
    ∃ paths, Discovery.find t.tree bench.root wanted = .ok paths ∧
      conclude (outcome (f paths) t) = (.finished code, after) := by
  simp only [Workbench.discover, bind_assoc] at h
  obtain ⟨there, _, hthere, h⟩ := conclude_bind_of_onlyBreaks (.ofTree _) h
  obtain ⟨hlook, rfl⟩ := outcome_ofTree_eq_ok_iff.mp hthere
  obtain rfl : there = true :=
    Except.ok.inj ((mapError_eq_ok_iff.mp hlook).symm.trans present)
  rw [if_pos rfl] at h
  obtain ⟨paths, _, hpaths, h⟩ := conclude_bind_of_onlyBreaks (.ofTree _) h
  obtain ⟨hlook, rfl⟩ := outcome_ofTree_eq_ok_iff.mp hpaths
  exact ⟨paths, mapError_eq_ok_iff.mp hlook, h⟩

/-- Rows have elements that are printed. -/
lemma answers_of_rows {Row : Type} {rows : List Row} {toJson : Row → Json} {failed : Row → Bool}
    {root : Path} {fails : Path → Prop}
    (complete : List.Forall₂ (fun path row => StandsFor t.tree root fails path (toJson row)) paths
      rows)
    (legible : ∀ row, (toJson row).Legible 1)
    (tells : ∀ row, (toJson row).TellsError ↔ failed row = true)
    (h : conclude (outcome (do
      emit (.value (.array (rows.map toJson)))
      if rows.any failed then giveUp) t) = (.finished code, after)) :
    Answers root fails paths t code after (rows.map toJson) := by
  obtain ⟨rfl, rfl⟩ := conclude_of_print h
  refine ⟨rfl, parse_document_array (List.forall_mem_map.mpr fun row _ => legible row),
    List.forall₂_map_right_iff.mpr complete, ?_, ?_⟩
  · split <;> simp
  · have hany : rows.any failed = true ↔ ∃ element ∈ rows.map toJson, element.TellsError := by
      simp [tells]
    rw [← hany]
    split <;> simp_all

/-- The name of a file is told, and nothing else happens. -/
lemma outcome_label_eq_ok_iff {path file : String} :
    outcome (bench.label path) t = (.ok file, after) ↔
      Discovery.relativeText t.tree bench.root (.ofText path) = .ok file ∧ t = after := by
  rw [Workbench.label, outcome_ofTree_eq_ok_iff, mapError_eq_ok_iff]

/-- The outcomes of the files that are found. -/
lemma conclude_of_parse {f : List (String × Except BlueprintFault Blueprint) → Work Unit}
    (h : conclude (outcome (bench.parse paths >>= f) t) = (.finished code, after)) :
    ∃ outcomes, List.Forall₂ (fun path outcome =>
        bench.reader.IsOutcomeOf t.tree path.toText outcome) paths outcomes ∧
      conclude (outcome (f outcomes) t) = (.finished code, after) := by
  obtain ⟨outcomes, _, houtcomes, h⟩ := conclude_bind_of_onlyBreaks (.ofTree _) h
  obtain ⟨hread, rfl⟩ := outcome_ofTree_eq_ok_iff.mp houtcomes
  exact ⟨outcomes, List.forall₂_map_left_iff.mp (BlueprintReader.readAll_eq_ok_iff.mp hread), h⟩

/-- **Listing** prints one array for all files that are found. -/
lemma answers_of_list (present : t.tree.isDirectory bench.root = .ok true)
    (h : conclude (outcome (list bench wanted true) t) = (.finished code, after)) :
    ∃ paths elements, Discovery.find t.tree bench.root wanted = .ok paths ∧
      Answers bench.root (bench.Unreadable t.tree) paths t code after elements := by
  obtain ⟨paths, hfind, h⟩ := conclude_of_discover present h
  obtain ⟨outcomes, houtcomes, h⟩ := conclude_of_parse h
  obtain ⟨rows, _, hrows, h⟩ := conclude_bind_of_onlyBreaks (.mapM (fun entry =>
    .bind (.ofTree _) fun _ => .pure _) _) h
  obtain ⟨rfl, hall⟩ := outcome_mapM_eq_ok (fun entry row u hrow => by
    obtain ⟨file, v, hlabel, hrow⟩ := outcome_bind_eq_ok_iff.mp hrow
    obtain ⟨-, rfl⟩ := outcome_label_eq_ok_iff.mp hlabel
    cases hrow
    rfl) hrows
  refine ⟨paths, rows.map ListedRow.toJson, hfind, answers_of_rows
    (forall₂_comp (fun path entry row hentry hrow => ?_) houtcomes hall) legible_listedRow
    ListedRow.tellsError_toJson_iff h⟩
  obtain ⟨hpath, hread⟩ := hentry
  obtain ⟨file, _, hlabel, hrow⟩ := outcome_bind_eq_ok_iff.mp hrow
  obtain ⟨hfile, rfl⟩ := outcome_label_eq_ok_iff.mp hlabel
  cases hrow
  refine ⟨⟨file, hpath ▸ hfile, rfl⟩, ?_⟩
  rw [ListedRow.tellsError_toJson_iff, Workbench.Unreadable, hread]
  cases entry.2 <;> simp [ListedRow.fault?, Except.mapError]

/-- One file is validated: its row tells of the fault, or of the findings. -/
lemma outcome_check_eq_ok_iff {path : String} {outcome : Except BlueprintFault Blueprint}
    {row : CheckedRow} :
    Work.outcome (check bench path outcome) t = (.ok row, after) ↔ t = after ∧
      ∃ file, Discovery.relativeText t.tree bench.root (.ofText path) = .ok file ∧
        ((∃ fault, outcome = .error fault ∧ row = unparsedRow file fault) ∨
          ∃ b findings, outcome = .ok b ∧
            Scaffold.validate bench.architectures.available b = .ok findings ∧
            row = ⟨file, b.modulePath, some b.entity, findings⟩) := by
  rw [check, outcome_bind_eq_ok_iff]
  simp only [outcome_label_eq_ok_iff]
  cases outcome with
  | error fault =>
    constructor
    · rintro ⟨file, _, ⟨hfile, rfl⟩, hrow⟩
      cases hrow
      exact ⟨rfl, file, hfile, .inl ⟨fault, rfl, rfl⟩⟩
    · rintro ⟨rfl, file, hfile, ⟨fault, hfault, rfl⟩ | ⟨b, _, hb, -⟩⟩
      · cases hfault
        exact ⟨file, t, ⟨hfile, rfl⟩, rfl⟩
      · cases hb
  | ok b =>
    simp only [outcome_bind_eq_ok_iff, Workbench.validate, outcome_orBreak_eq_ok_iff,
      mapError_eq_ok_iff]
    constructor
    · rintro ⟨file, _, ⟨hfile, rfl⟩, findings, _, ⟨hvalid, rfl⟩, hrow⟩
      cases hrow
      exact ⟨rfl, file, hfile, .inr ⟨b, findings, rfl, hvalid, rfl⟩⟩
    · rintro ⟨rfl, file, hfile, ⟨fault, hfault, -⟩ | ⟨b', findings, hb, hvalid, rfl⟩⟩
      · cases hfault
      · cases hb
        exact ⟨file, t, ⟨hfile, rfl⟩, findings, t, ⟨hvalid, rfl⟩, rfl⟩

lemma onlyBreaks_check (bench : Workbench) (entry : String × Except BlueprintFault Blueprint) :
    OnlyBreaks (check bench entry.1 entry.2) := by
  refine .bind (.ofTree _) fun file => ?_
  cases entry.2 with
  | error fault => exact .pure _
  | ok b => exact .bind (.orBreak _) fun findings => .pure _

/-- **Validating** prints one array for all files that are found, and none when there are
none. -/
lemma answers_of_validate (present : t.tree.isDirectory bench.root = .ok true)
    (h : conclude (outcome (validate bench modulePath true) t) = (.finished code, after)) :
    ∃ paths, Discovery.find t.tree bench.root ⟨modulePath, none⟩ = .ok paths ∧
      (paths = [] → ∃ warning, after = t.showing [.line warning] ∧ code = 0) ∧
      (paths ≠ [] → ∃ elements,
        Answers bench.root (bench.Unacceptable t.tree) paths t code after elements) := by
  obtain ⟨paths, hfind, h⟩ := conclude_of_discover present h
  refine ⟨paths, hfind, ?_, fun some_ => ?_⟩
  · rintro rfl
    cases h
    exact ⟨_, rfl, rfl⟩
  · obtain ⟨first, rest, rfl⟩ := List.exists_cons_of_ne_nil some_
    obtain ⟨outcomes, houtcomes, h⟩ := conclude_of_parse h
    obtain ⟨rows, _, hrows, h⟩ :=
      conclude_bind_of_onlyBreaks (.mapM (onlyBreaks_check bench) outcomes) h
    obtain ⟨rfl, hall⟩ := outcome_mapM_eq_ok (fun entry row u hrow =>
      (outcome_check_eq_ok_iff.mp hrow).1) hrows
    refine ⟨rows.map CheckedRow.toJson, answers_of_rows
      (forall₂_comp (fun path entry row hentry hrow => ?_) houtcomes hall) legible_checkedRow
      (fun row => by simp [CheckedRow.tellsError_toJson_iff]) h⟩
    obtain ⟨hpath, hread⟩ := hentry
    obtain ⟨-, file, hfile, hcase⟩ := outcome_check_eq_ok_iff.mp hrow
    rw [hpath] at hfile
    rcases hcase with ⟨fault, hfault, rfl⟩ | ⟨b, findings, hb, hvalid, rfl⟩
    · rw [hfault] at hread
      refine ⟨⟨file, hfile, CheckedRow.get?_file_toJson _⟩, ?_⟩
      rw [CheckedRow.tellsError_toJson_iff]
      exact iff_of_true rfl (.inl ⟨fault, hread⟩)
    · rw [hb] at hread
      refine ⟨⟨file, hfile, CheckedRow.get?_file_toJson _⟩, ?_⟩
      rw [CheckedRow.tellsError_toJson_iff, Workbench.Unacceptable, Workbench.Unreadable, hread]
      simp [Except.mapError, hvalid]

end Inspection

/-! ### Invocations -/

namespace Program

open Inspection

variable {arguments : List String} {file : Option String} {c : Configuration}

/-- **Looking at blueprints for other programs.** Where there is a directory of blueprints, an
invocation that lists blueprints as JSON and comes to its end prints one array for all files
that it finds. So does one that validates them, unless it finds none: then it shows a warning
and prints no array. -/
theorem run_inspection_answers
    (loaded : Configuration.load t.tree given.environment given.homes t.tree.workplace.toPath
      (file.map .ofText) = .ok c)
    (present : t.tree.isDirectory c.locations.blueprints = .ok true)
    (ends : run given arguments t = (.finished code, after)) :
    (∀ wanted, Invocation.ofArguments? arguments = some ⟨.list wanted true, file⟩ →
      ∃ paths elements, Discovery.find t.tree c.locations.blueprints wanted = .ok paths ∧
        Answers c.locations.blueprints ((Workbench.ofConfiguration c).Unreadable t.tree) paths t
          code after elements) ∧
    ∀ modulePath, Invocation.ofArguments? arguments = some ⟨.validate modulePath true, file⟩ →
      ∃ paths, Discovery.find t.tree c.locations.blueprints ⟨modulePath, none⟩ = .ok paths ∧
        (paths = [] → ∃ warning, after = t.showing [.line warning] ∧ code = 0) ∧
        (paths ≠ [] → ∃ elements,
          Answers c.locations.blueprints ((Workbench.ofConfiguration c).Unacceptable t.tree) paths
            t code after elements) := by
  refine ⟨fun wanted asked => ?_, fun modulePath asked => ?_⟩
  · have hends := conclude_of_run asked ends
    rw [runCommand, outcome_bind, outcome_load loaded] at hends
    exact answers_of_list present hends
  · have hends := conclude_of_run asked ends
    rw [runCommand, outcome_bind, outcome_load loaded] at hends
    exact answers_of_validate present hends

/-- A file tree with one file, which gives no blueprint. -/
def brokenBlueprint : FileTree :=
  ⟨[], [(["blueprints"], .directory),
    (["blueprints", "b.yaml"], .file (Utf8.encode "entity: ["))], [], 0⟩

/-- The file is listed, and its fault is told. -/
theorem run_inspection_answers_brokenBlueprint :
    ∃ c paths elements after, Configuration.load brokenBlueprint keepingNothing.environment
        keepingNothing.homes brokenBlueprint.workplace.toPath none = .ok c ∧
      brokenBlueprint.isDirectory c.locations.blueprints = .ok true ∧
      run keepingNothing ["list", "--json"] ⟨brokenBlueprint, [], []⟩ = (.finished 1, after) ∧
      paths.map Path.toText = ["/blueprints/b.yaml"] ∧
      Answers c.locations.blueprints ((Workbench.ofConfiguration c).Unreadable brokenBlueprint)
        paths ⟨brokenBlueprint, [], []⟩ 1 after elements := by
  have facts : (Configuration.load brokenBlueprint keepingNothing.environment keepingNothing.homes
      brokenBlueprint.workplace.toPath none).toOption.map (·.locations) =
      some ⟨.ofText "/blueprints", .ofText "/"⟩ := by decide +kernel
  obtain ⟨c, hload, hlocations⟩ := Option.map_eq_some_iff.mp facts
  have loaded := toOption_eq_some_iff.mp hload
  have present : brokenBlueprint.isDirectory c.locations.blueprints = .ok true := by
    rw [hlocations]
    decide +kernel
  have found : Discovery.find brokenBlueprint c.locations.blueprints ⟨none, none⟩ =
      .ok [.ofText "/blueprints/b.yaml"] := by
    rw [hlocations]
    decide +kernel
  have hcode : (run keepingNothing ["list", "--json"] ⟨brokenBlueprint, [], []⟩).1 =
      .finished 1 := by decide +kernel
  rcases ends : run keepingNothing ["list", "--json"] ⟨brokenBlueprint, [], []⟩ with ⟨code, after⟩
  rw [ends] at hcode
  obtain rfl : code = .finished 1 := hcode
  have asked : Invocation.ofArguments? ["list", "--json"] =
      some ⟨.list ⟨none, none⟩ true, none⟩ := by decide +kernel
  obtain ⟨paths, elements, hfind, hanswers⟩ :=
    (run_inspection_answers loaded present ends).1 ⟨none, none⟩ asked
  obtain rfl := Except.ok.inj (found.symm.trans hfind)
  exact ⟨c, _, elements, after, loaded, present, rfl, by decide +kernel, hanswers⟩

/-- A file tree with a directory for blueprints and nothing in it. -/
def noBlueprint : FileTree :=
  ⟨[], [(["blueprints"], .directory)], [], 0⟩

/-- Where there is no blueprint, listing prints an empty array, and validating prints
nothing. -/
theorem run_validate_silent :
    (run keepingNothing ["list", "--json"] ⟨noBlueprint, [], []⟩).2.emissions.map
        Emission.printed = ["[]\n"] ∧
      (run keepingNothing ["validate", "--json"] ⟨noBlueprint, [], []⟩).1 = .finished 0 ∧
      (run keepingNothing ["validate", "--json"] ⟨noBlueprint, [], []⟩).2.emissions.map
        Emission.printed = [""] :=
  ⟨by decide +kernel, by decide +kernel, by decide +kernel⟩

end Program

end Scaffold
