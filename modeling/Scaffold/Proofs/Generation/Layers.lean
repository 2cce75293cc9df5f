import Scaffold.Proofs.Generation.Reports
import Scaffold.Proofs.Shape.Named
import Scaffold.Proofs.Text.Segments
import Scaffold.Proofs.Validation.Acceptance

/-!
The layers of a preview.

A preview changes nothing, so what it reports about one layer does not depend on the layers before
it. The preview of a blueprint is the reports of its layers in order, and a selection of layers
leaves out the reports of all others.

* `Selection.Selects`, `selectLayers_eq`: which layers are selected.
* `selectLayers_text`: the same layers in a text and in a list.
* `Generator.last?`, `serving_ofList`: the generator of a layer is the last one that serves it.
* `Pipeline.layerOutput`: the report of one layer; `Output.joined`: several reports as one.
* `runLayers_preview`: the reports of some layers.
* `generate_selected` (**selected layers**): a selection only leaves out reports.
-/

namespace Scaffold

open Files Text

/-! ### Selections -/

/-- A layer is selected by a name that is not blank, whatever the blanks around it and the case. -/
def Selection.Selects (s : Selection) (layer : String) : Prop :=
  ∃ name ∈ s.names, isBlankText name = false ∧ lowered (trimmed name) = lowered layer

instance (s : Selection) : DecidablePred s.Selects :=
  fun layer => inferInstanceAs (Decidable
    (∃ name ∈ s.names, isBlankText name = false ∧ lowered (trimmed name) = lowered layer))

variable {selection : Selection} {layer : String} {layers : List String}

lemma mem_wanted_iff : lowered layer ∈ selection.wanted ↔ selection.Selects layer := by
  simp [Selection.wanted, Selection.Selects, and_assoc]

/-- Where some name is not blank, the selected layers are left. -/
lemma selectLayers_eq (named : ∃ name ∈ selection.names, isBlankText name = false) :
    selectLayers layers selection = layers.filter (selection.Selects ·) := by
  obtain ⟨name, hname, hblank⟩ := named
  have ne : selection.wanted ≠ [] := by
    refine List.ne_nil_of_mem (a := lowered (trimmed name)) ?_
    exact List.mem_map_of_mem (List.mem_filter.mpr ⟨hname, by simp [hblank]⟩)
  have hselect : selectLayers layers selection =
      layers.filter fun layer => selection.wanted.contains (lowered layer) := by
    rw [selectLayers]
    split
    · next h => exact absurd h ne
    · rfl
  rw [hselect]
  refine List.filter_congr fun layer _ => ?_
  rw [Bool.eq_iff_iff, List.contains_iff_mem, mem_wanted_iff, decide_eq_true_iff]

lemma names_text (text : String) :
    ",".intercalate (Selection.text text).names = text ∧
      ∀ name ∈ (Selection.text text).names, ',' ∉ name.toList :=
  ⟨intercalate_pieces ',' text, fun _ => notMem_of_pieces⟩

/-- A text with commas selects the same layers as the list of its items. -/
lemma selectLayers_text {names : List String} (free : ∀ name ∈ names, ',' ∉ name.toList) :
    selectLayers layers (.text (",".intercalate names)) = selectLayers layers (.list names) := by
  by_cases hnil : names = []
  · -- no text has no item, but the one item of the empty text is blank
    subst hnil
    rfl
  · have hnames : (Selection.text (",".intercalate names)).names = names :=
      pieces_intercalate hnil free
    rw [selectLayers, selectLayers, Selection.wanted, Selection.wanted, hnames]
    rfl

/-! ### Generators -/

/-- The last of some generators that serves a layer, the case of which does not matter. -/
def Generator.last? (generators : List Generator) (layer : String) : Option Generator :=
  generators.reverse.find? fun generator => lowered generator.layer == lowered layer

/-- **Later generators replace earlier ones** for the same layer. -/
lemma serving_ofList (generators : List Generator) (layer : String) :
    (Generators.ofList generators).serving layer = Generator.last? generators layer := by
  rw [Generator.last?, Generators.ofList, ← List.foldr_reverse]
  induction generators.reverse with
  | nil => rfl
  | cons generator earlier ih =>
    rw [List.foldr_cons, Generators.serving, Generators.register, Shape.lookup_putEntry,
      ← Generators.serving, ih, List.find?_cons]
    by_cases h : lowered generator.layer = lowered layer
    · simp [h]
    · rw [if_neg (Ne.symm h), beq_false_of_ne h]

/-! ### Reports -/

/-- Several outputs as one. -/
def Output.joined (parts : List Output) : Output :=
  ⟨parts.flatMap Output.entries, parts.flatMap Output.warnings⟩

/-- Where every entry of a layer's output bears its name, the entries of some layers are those that
bear their names. -/
lemma Output.entries_joined_filter {parts : List (String × Output)}
    (stamped : ∀ part ∈ parts, ∀ entry ∈ part.2.entries, entry.layer = some part.1)
    (p : String → Bool) :
    (joined ((parts.filter (p ·.1)).map Prod.snd)).entries =
      (joined (parts.map Prod.snd)).entries.filter (·.layer.any p) := by
  induction parts with
  | nil => rfl
  | cons part parts ih =>
    obtain ⟨hpart, hparts⟩ := List.forall_mem_cons.mp stamped
    have hentries : part.2.entries.filter (·.layer.any p) =
        if p part.1 then part.2.entries else [] := by
      split_ifs with h
      · exact List.filter_eq_self.mpr fun entry hentry => by simp [hpart entry hentry, h]
      · exact List.filter_eq_nil_iff.mpr fun entry hentry => by simp [hpart entry hentry, h]
    have ih := ih hparts
    simp only [joined, List.map_cons, List.flatMap_cons, List.filter_append, hentries,
      List.filter_cons] at ih ⊢
    rw [← ih]
    split_ifs <;> simp

namespace Pipeline

variable {root : Path} {mode : Writer.Mode} {generators : List Generator} {options : Named}
  {b : Blueprint} {a : Architecture} {tree : FileTree} {part : Output}

/-- What is put out for one layer of a blueprint: the files of the generator that serves it, or a
warning that there is none. -/
def layerOutput (root : Path) (mode : Writer.Mode) (generators : List Generator) (options : Named)
    (b : Blueprint) (a : Architecture) (tree : FileTree) (layer : String) :
    Except (Failure UnknownArchitecture) Output :=
  match Generator.last? generators layer with
  | none => .ok ⟨[], ["No generator registered for layer '" ++ layer ++ "'."]⟩
  | some generator => do
    let generated ← (generator.generate b a (optionsFor mode options)).mapError .broken
    let entries ← (Writer.writeAll root mode generated.files tree).1.mapError
      fun cause => .broken (.ofResolve cause)
    return ⟨entries.map fun entry => { entry with layer := some layer }, generated.warnings⟩

/-- Every entry bears the name of the layer. -/
lemma layer_of_layerOutput
    (h : layerOutput root mode generators options b a tree layer = .ok part) :
    ∀ entry ∈ part.entries, entry.layer = some layer := by
  rw [layerOutput] at h
  split at h
  · obtain rfl := Except.ok.inj h
    simp
  · simp only [bind_eq_ok_iff, pure, Except.pure, Except.ok.injEq] at h
    obtain ⟨-, -, entries, -, rfl⟩ := h
    simp

/-- One layer of a preview is reported and leaves the tree as it is. -/
lemma runLayers_cons_preview (dry : mode.dryRun = true) (output : Output) :
    runLayers root mode (.ofList generators) b a (optionsFor mode options) output
        (layer :: layers) tree =
      match layerOutput root mode generators options b a tree layer with
      | .error cause => (.error cause, tree)
      | .ok next => runLayers root mode (.ofList generators) b a (optionsFor mode options)
          (.joined [output, next]) layers tree := by
  rw [runLayers_cons, serving_ofList, layerOutput]
  cases Generator.last? generators layer with
  | none => simp [Output.joined]
  | some generator =>
    dsimp only
    cases generator.generate b a (optionsFor mode options) with
    | error cause => rfl
    | ok generated =>
      have hwrite := writeAll_preview dry root generated.files tree
      simp only [Except.mapError, bind, Except.bind]
      cases hfiles : Writer.writeAll root mode generated.files tree with
      | mk entries next =>
        obtain rfl : next = tree := by rwa [hfiles] at hwrite
        cases entries with
        | error cause => rfl
        | ok entries => simp [Output.joined, pure, Except.pure]

/-- **The reports of some layers** of a preview come one after another. -/
lemma runLayers_preview (dry : mode.dryRun = true) (output : Output) :
    runLayers root mode (.ofList generators) b a (optionsFor mode options) output layers tree =
      ((layers.mapM (layerOutput root mode generators options b a tree)).map fun parts =>
        .joined (output :: parts), tree) := by
  induction layers generalizing output with
  | nil => simp [runLayers, Output.joined, Except.map, pure, Except.pure]
  | cons layer layers ih =>
    rw [runLayers_cons_preview dry, List.mapM_cons]
    cases layerOutput root mode generators options b a tree layer with
    | error cause => rfl
    | ok next =>
      simp only [ih, bind, Except.bind]
      cases layers.mapM (layerOutput root mode generators options b a tree) with
      | error cause => rfl
      | ok parts => simp [Except.map, pure, Except.pure, Output.joined]

/-- The preview of a blueprint is the reports of the selected layers. -/
lemma generate_eq_joined {architectures : Architectures}
    (resolves : architectures.resolve b.architecture = .ok a) (dry : mode.dryRun = true) :
    generate architectures root (.ofList generators) selection mode options b tree =
      (((selectLayers a.layers selection).mapM
        (layerOutput root mode generators options b a tree)).map .joined, tree) := by
  rw [generate, resolves]
  simp only [runLayers_preview dry]
  rfl

/-- **Selected layers**: the preview of a blueprint is the reports of its layers in order. With a
selection that names something it is those of the selected layers, which are the same for a text
with commas and the list of its items. So where all layers can be reported, a selection leaves
the entries and the warnings of the selected layers, in the same order; these are the entries that
bear the name of a selected layer. -/
theorem generate_selected (architectures : Architectures) (root : Path)
    (generators : List Generator) (selection : Selection) (mode : Writer.Mode) (options : Named)
    (b : Blueprint) (a : Architecture) (tree : FileTree)
    (resolves : architectures.resolve b.architecture = .ok a) (dry : mode.dryRun = true)
    (named : ∃ name ∈ selection.names, isBlankText name = false) :
    generate architectures root (.ofList generators) .all mode options b tree =
      ((a.layers.mapM (layerOutput root mode generators options b a tree)).map .joined, tree) ∧
    generate architectures root (.ofList generators) selection mode options b tree =
      (((a.layers.filter (selection.Selects ·)).mapM
        (layerOutput root mode generators options b a tree)).map .joined, tree) ∧
    (∀ output, generate architectures root (.ofList generators) .all mode options b tree =
        (.ok output, tree) →
      ∃ parts : List (String × Output), parts.map Prod.fst = a.layers ∧
        (∀ part ∈ parts,
          layerOutput root mode generators options b a tree part.1 = .ok part.2) ∧
        output = .joined (parts.map Prod.snd) ∧
        ∃ selected, generate architectures root (.ofList generators) selection mode options b tree =
            (.ok selected, tree) ∧
          selected = .joined ((parts.filter (selection.Selects ·.1)).map Prod.snd) ∧
          selected.entries = output.entries.filter (·.layer.any (selection.Selects ·))) ∧
    (∀ text, ",".intercalate (Selection.text text).names = text ∧
      ∀ name ∈ (Selection.text text).names, ',' ∉ name.toList) ∧
    ∀ layers names, (∀ name ∈ names, ',' ∉ name.toList) →
      selectLayers layers (.text (",".intercalate names)) = selectLayers layers (.list names) := by
  have hall : generate architectures root (.ofList generators) .all mode options b tree =
      ((a.layers.mapM (layerOutput root mode generators options b a tree)).map .joined, tree) :=
    generate_eq_joined resolves dry
  have hselected : generate architectures root (.ofList generators) selection mode options b tree =
      (((a.layers.filter (selection.Selects ·)).mapM
        (layerOutput root mode generators options b a tree)).map .joined, tree) := by
    rw [← selectLayers_eq named]
    exact generate_eq_joined resolves dry
  refine ⟨hall, hselected, fun output houtput => ?_, names_text, fun _ _ => selectLayers_text⟩
  rw [hall, Prod.mk.injEq, map_eq_ok_iff] at houtput
  obtain ⟨⟨outputs, houtputs, rfl⟩, -⟩ := houtput
  obtain ⟨parts, hlayers, rfl, hparts⟩ := mapM_eq_ok_iff_pairs.mp houtputs
  refine ⟨parts, hlayers, hparts, rfl, _, ?_, rfl, Output.entries_joined_filter
    (fun part hpart => layer_of_layerOutput (hparts part hpart)) (selection.Selects ·)⟩
  rw [hselected, ← hlayers, mapM_filter_of_pairs hparts (selection.Selects ·)]
  rfl

/-- A generator of one file, with a note. -/
def sketch (layer path : String) : Generator :=
  ⟨layer, fun _ _ _ => .ok ⟨[⟨path, [65], false⟩], ["Note on " ++ path]⟩⟩

/-- Generators of two layers, the last of which takes the place of the first. -/
def threeSketches : List Generator :=
  [sketch "domain" "old.txt", sketch "http" "http.txt", sketch "DOMAIN" "new.txt"]

/-- Four layers, two of which differ in case only. -/
def fourLayers : Architecture :=
  ⟨"hexagonal", ["domain", "storage", "http", "Domain"], []⟩

/-- Two layers of an employee, one of which is there twice and the other has no generator. -/
theorem generate_selected_twice :
    Architectures.resolve [("hexagonal", fourLayers)] employee.architecture = .ok fourLayers ∧
    (∃ name ∈ (Selection.text " Domain ,, storage").names, isBlankText name = false) ∧
    (generate [("hexagonal", fourLayers)] (.ofText "/out") (.ofList threeSketches)
        .all ⟨true, false⟩ [] employee ⟨[], [], [], 0⟩).1.toOption.map
        (fun output => output.entries.map fun e => (e.layer, e.path)) =
      some [(some "domain", "new.txt"), (some "http", "http.txt"), (some "Domain", "new.txt")] ∧
    (generate [("hexagonal", fourLayers)] (.ofText "/out") (.ofList threeSketches)
        (.text " Domain ,, storage") ⟨true, false⟩ [] employee ⟨[], [], [], 0⟩).1.toOption.map
        (fun output => (output.entries.map fun e => (e.layer, e.path), output.warnings)) =
      some ([(some "domain", "new.txt"), (some "Domain", "new.txt")],
        ["Note on new.txt", "No generator registered for layer 'storage'.",
          "Note on new.txt"]) := by
  have resolves : Architectures.resolve [("hexagonal", fourLayers)] employee.architecture =
      .ok fourLayers := rfl
  have named : ∃ name ∈ (Selection.text " Domain ,, storage").names, isBlankText name = false := by
    decide +kernel
  obtain ⟨hall, hselected, -⟩ := generate_selected [("hexagonal", fourLayers)] (.ofText "/out")
    threeSketches (.text " Domain ,, storage") ⟨true, false⟩ [] employee fourLayers
    ⟨[], [], [], 0⟩ resolves rfl named
  refine ⟨resolves, named, ?_, ?_⟩
  · rw [hall]
    decide +kernel
  · rw [hselected]
    decide +kernel

end Pipeline

end Scaffold
