import Scaffold.Proofs.Blueprint.Normalizing
import Scaffold.Proofs.Files.Below

/-!
One document at the same location below two roots.

The module of a document that declares none is told from the directory of its file, seen from
the root of all blueprints. So it does not matter where this root is: the same document at the
same location comes to the same blueprint, but for the path.

* `staysInside`: a location that does not leave its root.
* `Files.Checkout`: what is asked of a root.
* `detect_extended`: the directory of a file below a root.
* `assemble_relocated`, `ofEntries_relocated`: the parts, and what is read of them.
* `normalize_relocated`: the blueprints of the same document below two roots.
-/

namespace Scaffold

open Files FileTree Text Shape Checked

/-! ### Locations -/

/-- Whether names, seen from a place that many names below a root, do not leave the root. -/
def staysInside : Nat → List String → Bool
  | _, [] => true
  | depth, name :: names =>
    if name = "." then staysInside depth names
    else if name = ".." then depth != 0 && staysInside (depth - 1) names
    else staysInside (depth + 1) names

/-- Names that do not leave a root lead to the same place, seen from it. -/
lemma along_of_staysInside {names : List String} {top place : Place}
    (inside : staysInside place.length names = true) :
    along (top ++ place) names = top ++ along place names := by
  induction names generalizing place with
  | nil => rfl
  | cons name names ih =>
    rw [staysInside] at inside
    by_cases hdot : name = "."
    · rw [if_pos hdot] at inside
      rw [hdot, along_dot, along_dot, ih inside]
    rw [if_neg hdot] at inside
    by_cases hup : name = ".."
    · rw [if_pos hup, Bool.and_eq_true, bne_iff_ne] at inside
      obtain ⟨hne, hrest⟩ := inside
      have hplace : place ≠ [] := List.ne_nil_of_length_pos (Nat.pos_of_ne_zero hne)
      rw [hup, along_up, along_up, List.dropLast_append_of_ne_nil hplace, ih]
      rwa [List.length_dropLast]
    · rw [if_neg hup] at inside
      rw [along_plain hdot hup, along_plain hdot hup, List.append_assoc, ih]
      rwa [List.length_append, List.length_singleton]

namespace Files

/-- What is asked of a root: the tree around it has no links, and it can be read again. -/
structure Checkout (tree : FileTree) (root : Path) : Prop where
  /-- There are no links. -/
  noLinks : tree.NoLinks
  /-- The root can be read again. -/
  written : root.IsWritten
  /-- The character zero does not occur in it. -/
  zero : root.holdsZero = false

lemma Path.after?_append (names more : List String) :
    Path.after? names (names ++ more) = some more := by
  induction names with
  | nil => rfl
  | cons name names ih => rw [List.cons_append, Path.after?, if_pos (beq_self_eq_true name), ih]

end Files

variable {tree tree' : FileTree} {root root' : Path} {location : List String}
  {settings : Settings} {source source' : String} {raw : Document}
  {entries : List (Document × Document)}

/-! ### Modules -/

/-- The directory of a location, seen from the root. -/
def directoryOf (location : List String) : Option String :=
  if location.any fun name => name.toList.contains '\x00' then none
  else match (along [] location).dropLast with
    | [] => none
    | directory => some (Path.joinNames directory)

/-- **The directory of a file below a root** is told from its location. -/
lemma detect_extended (checkout : Checkout tree root) (inside : staysInside 0 location = true) :
    ModulePath.detect tree (some root) (root.extended location) = .ok (directoryOf location) := by
  have hroot := resolve_of_noLinks checkout.noLinks checkout.zero
  have hzero : (root.extended location).holdsZero =
      location.any fun name => name.toList.contains '\x00' := by
    have hnames := checkout.zero
    rw [Path.holdsZero] at hnames
    rw [Path.holdsZero, Path.extended, List.any_append, hnames, Bool.false_or]
  rw [ModulePath.detect, directoryOf, ← hzero]
  cases hholds : (root.extended location).holdsZero with
  | true =>
    have hpath : tree.resolve (root.extended location) = .error .zeroCharacter := by
      rw [resolve, if_pos hholds]
    simp only [hpath, if_true]
  | false =>
    have hgoal : tree.goal (root.extended location) = tree.goal root ++ along [] location := by
      have hstart : tree.start (root.extended location) = tree.start root := rfl
      rw [goal, hstart, Path.extended, along_append, goal]
      conv_lhs => rw [← List.append_nil (along (tree.start root) root.names)]
      exact along_of_staysInside inside
    have hpath := resolve_of_noLinks checkout.noLinks hholds
    rw [hgoal] at hpath
    simp only [hpath, hroot, Path.after?_append, Bool.false_eq_true, if_false]
    cases (along [] location).dropLast with
    | nil => rfl
    | cons name names => rfl

namespace Normalize

/-- The directory of a source decides about the module, and nothing else about the source. -/
lemma moduleOf_relocated {settings' : Settings} {directory modulePath : Option String}
    (detected : ModulePath.detect tree settings.root (.ofText source) = .ok directory)
    (detected' : ModulePath.detect tree' settings'.root (.ofText source') = .ok directory)
    (h : moduleOf tree settings source entries = .ok modulePath) :
    moduleOf tree' settings' source' entries = .ok modulePath := by
  have hchecked : ∀ {text : String},
      (ModulePath.sanitize text).mapError (fun segment =>
        (Failure.refused (BlueprintFault.badSegment source segment))) = .ok modulePath →
      (ModulePath.sanitize text).mapError (fun segment =>
        (Failure.refused (BlueprintFault.badSegment source' segment))) = .ok modulePath := by
    intro text htext
    exact mapError_eq_ok_iff.mpr (mapError_eq_ok_iff.mp htext)
  rw [moduleOf] at h ⊢
  simp only [detected, detected'] at h ⊢
  split at h
  · exact hchecked h
  · cases directory with
    | none => exact h
    | some text => exact hchecked h
  · cases directory with
    | none => exact h
    | some text => exact hchecked h
  · cases h

/-- What is assembled is the same but for the path. -/
lemma assemble_relocated {settings' : Settings} {parts : List (Document × Document)}
    {found : List ErrorDefinition}
    (architecture : settings'.defaultArchitecture = settings.defaultArchitecture)
    (options : settings'.defaultOptions = settings.defaultOptions)
    (modules : ∀ entries modulePath, moduleOf tree settings source entries = .ok modulePath →
      moduleOf tree' settings' source' entries = .ok modulePath)
    (h : assemble tree settings raw source = .ok (parts, found)) :
    ∃ rest, parts = (.text "path", .text source) :: rest ∧
      assemble tree' settings' raw source' = .ok ((.text "path", .text source') :: rest, found) := by
  rw [assemble] at h
  split at h
  · next entries hentries =>
    split at h
    · next entity hentity =>
      obtain ⟨fields, hfields, h⟩ := bind_eq_ok_iff.mp h
      by_cases hempty : fields.isEmpty = true
      · simp only [hempty, if_true] at h
        cases h
      simp only [hempty, if_false, Bool.false_eq_true] at h
      -- the options are there or not, and the other sections are read alike
      split at h
      case h_4 => cases h
      all_goals
        rename_i hoptions
        simp only [bind_eq_ok_iff, pure, Except.pure, Except.ok.injEq, Prod.mk.injEq] at h
        obtain ⟨_, rfl, modulePath, hmodule, relations, hrelations, shown, hshown, endpoints,
          hendpoints, errors, herrors, tenancy, htenancy, hparts, rfl⟩ := h
        refine ⟨_, hparts.symm, ?_⟩
        rw [assemble, hentries]
        simp only [hentity, hfields, hempty, hoptions, modules _ _ hmodule, hrelations, hshown,
          hendpoints, herrors, htenancy, architecture, options, bind, Except.bind, pure, Except.pure]
        rfl
    · cases h
  · cases h

end Normalize

/-! ### Blueprints -/

/-- A member under another name is not found in the path. -/
lemma lookup_cons_path {name : String} (ne : name ≠ "path") (d : Document)
    (rest : List (Document × Document)) :
    Document.lookup name ((.text "path", d) :: rest) = Document.lookup name rest := by
  have hkey : Document.sameKey (.text "path") (.text name) = false := by
    have hbeq : Document.sameKey (.text "path") (.text name) = ("path" == name) := rfl
    rw [hbeq]
    exact beq_eq_false_iff_ne.mpr ne.symm
  rw [Document.lookup, Document.lookup, List.find?_cons, hkey]

lemma required_cons_path {α : Type} {name : String} {decode : Decoder α} (ne : name ≠ "path")
    (d : Document) (rest : List (Document × Document)) :
    required name decode ((.text "path", d) :: rest) = required name decode rest := by
  rw [required, required, lookup_cons_path ne]

lemma defaulted_cons_path {α : Type} {name : String} {decode : Decoder α} {absent : α}
    (ne : name ≠ "path") (d : Document) (rest : List (Document × Document)) :
    defaulted name decode absent ((.text "path", d) :: rest) =
      defaulted name decode absent rest := by
  rw [defaulted, defaulted, lookup_cons_path ne]

/-- The path of a blueprint is the one among its parts, and nothing else depends on it. -/
lemma ofEntries_relocated (source' : String) {rest : List (Document × Document)}
    {errors : List ErrorDefinition} {b : Blueprint}
    (h : Blueprint.ofEntries ((.text "path", .text source) :: rest) errors = .ok b) :
    b.path = source ∧
      Blueprint.ofEntries ((.text "path", .text source') :: rest) errors =
        .ok { b with path := source' } := by
  obtain ⟨parts, hparts, hknown, hreading⟩ := strictRecord_eq_ok_iff.mp h
  cases hparts
  simp only [Blueprint.reading, apply_eq_ok_iff] at hreading
  obtain ⟨_, tenancy, ⟨_, metadata, ⟨_, errors, ⟨_, docs, ⟨_, api, ⟨_, options, ⟨_, relations,
    ⟨_, fields, ⟨_, architecture, ⟨_, table, ⟨_, entity, ⟨_, module, ⟨_, path, hdone, hpath, rfl⟩,
    hmodule, rfl⟩, hentity, rfl⟩, htable, rfl⟩, harchitecture, rfl⟩, hfields, rfl⟩, hrelations, rfl⟩,
    hoptions, rfl⟩, hapi, rfl⟩, hdocs, rfl⟩, hfound, rfl⟩, hmetadata, rfl⟩, htenancy, rfl⟩ :=
    hreading
  cases hdone
  cases hfound
  rw [absentAsNone, defaulted_cons_path (by decide)] at hmodule
  rw [required_cons_path (by decide)] at hentity htable harchitecture
  rw [defaulted_cons_path (by decide)] at hfields hrelations hoptions hapi hdocs hmetadata htenancy
  rw [Normalize.required_eq_ok_iff rfl] at hpath
  refine ⟨(Except.ok.inj hpath).symm, strictRecord_eq_ok_iff.mpr ⟨_, rfl, hknown, ?_⟩⟩
  simp only [Blueprint.reading, apply_eq_ok_iff]
  refine ⟨_, tenancy, ⟨_, metadata, ⟨_, errors, ⟨_, docs, ⟨_, api, ⟨_, options, ⟨_, relations,
    ⟨_, fields, ⟨_, architecture, ⟨_, table, ⟨_, entity, ⟨_, module, ⟨_, source', rfl, ?_, rfl⟩,
    ?_, rfl⟩, ?_, rfl⟩, ?_, rfl⟩, ?_, rfl⟩, ?_, rfl⟩, ?_, rfl⟩, ?_, rfl⟩, ?_, rfl⟩, ?_, rfl⟩, rfl,
    rfl⟩, ?_, rfl⟩, ?_, rfl⟩
  · rw [Normalize.required_eq_ok_iff rfl]
    rfl
  · rw [absentAsNone, defaulted_cons_path (by decide), hmodule]
  · rw [required_cons_path (by decide), hentity]
  · rw [required_cons_path (by decide), htable]
  · rw [required_cons_path (by decide), harchitecture]
  · rw [defaulted_cons_path (by decide), hfields]
  · rw [defaulted_cons_path (by decide), hrelations]
  · rw [defaulted_cons_path (by decide), hoptions]
  · rw [defaulted_cons_path (by decide), hapi]
  · rw [defaulted_cons_path (by decide), hdocs]
  · rw [defaulted_cons_path (by decide), hmetadata]
  · rw [defaulted_cons_path (by decide), htenancy]

/-- The settings with another root. -/
def Settings.rootedAt (settings : Settings) (root : Path) : Settings :=
  { settings with root := some root }

/-- The text of a path below a root can be read again. -/
lemma ofText_extended (checkout : Checkout tree root)
    (names : ∀ name ∈ location, Path.IsName name) :
    Path.ofText (root.extended location).toText = root.extended location := by
  refine Path.ofText_toText ⟨checkout.written.anchor, fun name hname => ?_⟩
  rcases List.mem_append.mp hname with hname | hname
  · exact checkout.written.names name hname
  · exact names name hname

/-- **The same document at the same location** below two roots comes to the same blueprint, but
for the path. -/
theorem normalize_relocated {b : Blueprint} (checkout : Checkout tree root)
    (checkout' : Checkout tree' root') (names : ∀ name ∈ location, Path.IsName name)
    (inside : staysInside 0 location = true)
    (h : normalize tree (settings.rootedAt root) raw (root.extended location).toText = .ok b) :
    b.path = (root.extended location).toText ∧
      normalize tree' (settings.rootedAt root') raw (root'.extended location).toText =
        .ok { b with path := (root'.extended location).toText } := by
  have detected : ModulePath.detect tree (settings.rootedAt root).root
      (.ofText (root.extended location).toText) = .ok (directoryOf location) := by
    rw [ofText_extended checkout names]
    exact detect_extended checkout inside
  have detected' : ModulePath.detect tree' (settings.rootedAt root').root
      (.ofText (root'.extended location).toText) = .ok (directoryOf location) := by
    rw [ofText_extended checkout' names]
    exact detect_extended checkout' inside
  generalize (root.extended location).toText = source at *
  generalize (root'.extended location).toText = source' at *
  have modules : ∀ entries modulePath,
      Normalize.moduleOf tree (settings.rootedAt root) source entries = .ok modulePath →
      Normalize.moduleOf tree' (settings.rootedAt root') source' entries = .ok modulePath :=
    fun _ _ hmodule => Normalize.moduleOf_relocated detected detected' hmodule
  rw [normalize] at h
  obtain ⟨⟨parts, found⟩, hassemble, h⟩ := bind_eq_ok_iff.mp h
  have architecture : (settings.rootedAt root').defaultArchitecture =
      (settings.rootedAt root).defaultArchitecture := rfl
  obtain ⟨rest, rfl, hassemble'⟩ :=
    Normalize.assemble_relocated architecture rfl modules hassemble
  simp only at h
  split at h
  · next read hread =>
    cases h
    obtain ⟨hpath, hread'⟩ := ofEntries_relocated source' hread
    refine ⟨hpath, ?_⟩
    rw [normalize, hassemble']
    simp only [bind, Except.bind, hread']
  · cases h

end Scaffold
