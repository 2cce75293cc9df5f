import Scaffold.Generation.Generator
import Scaffold.Proofs.Blueprint.Normalizing
import Scaffold.Proofs.Generation.Regenerating
import Scaffold.Proofs.Text.Segments
import Scaffold.Proofs.Text.Spelling
import Scaffold.Proofs.Validation.Acceptance

/-!
Snapshots of different blueprints.

The path of a snapshot consists of the module, or a word for its absence, and the snake case of
the entity. So two blueprints share it exactly if their modules are the same, an absent one and
the module of that word counting as such, and their entities are spelled alike. Snapshots with
different paths stay out of each other's way, as long as no links bring the paths together
again.

* `snapshotNames`, `snapshotPath_eq`: the names on the path of a snapshot.
* `snapshotPath_eq_iff`: when two blueprints share it.
* `Writer.Undisturbed`, `undisturbed_of_apart`: a file with which others do not interfere.
* `snapshotPath_separates` (**snapshots of different blueprints**).
* `snapshotPath_collides`: different blueprints that share a path, and different paths that
  share a file.
-/

namespace Scaffold

open Files Text FileTree

/-! ### The path of a snapshot -/

/-- The directory of the snapshots of a module; an absent module has one as well. -/
def Blueprint.shelf (b : Blueprint) : String :=
  b.modulePath.getD "global"

/-- The names on the path of a snapshot. -/
def snapshotNames (b : Blueprint) : List String :=
  [".blueprintx", "snapshots"] ++ Path.namesBetween b.shelf ++ [snake b.entity ++ ".json"]

/-- Segments can be checked one by one. -/
lemma isModule_of_all {m : String} {segments : List (List Char)} (ne : segments ≠ [])
    (h : (segments.all fun segment => !segment.isEmpty &&
      segment.all fun c => c.isLower || c.isDigit || c == '_') = true)
    (hm : m = String.ofList (joinWith ['/'] segments)) : Normalize.IsModule m := by
  refine ⟨segments, ne, fun segment hsegment => ?_, hm⟩
  simpa [or_assoc] using List.all_eq_true.mp h segment hsegment

/-- A name of small letters, digits and underscores, with or without a suffix. -/
def IsShelfName (name : String) : Prop :=
  ∃ cs : List Char, cs ≠ [] ∧ (∀ c ∈ cs, c.isLower = true ∨ c.isDigit = true ∨ c = '_') ∧
    (name = String.ofList cs ∨ name = String.ofList cs ++ ".json")

/-- Such a name stands for itself on a path. -/
lemma IsShelfName.plain {name : String} (h : IsShelfName name) :
    Path.IsName name ∧ name ≠ ".." ∧ '\\' ∉ name.toList := by
  obtain ⟨cs, hne, hclass, hname⟩ := h
  have hnot : ∀ d, (d.isLower = true ∨ d.isDigit = true ∨ d = '_') → d ≠ '/' ∧ d ≠ '\\' ∧ d ≠ '.' := by
    rintro d h
    refine ⟨?_, ?_, ?_⟩ <;> · rintro rfl; revert h; decide
  obtain ⟨c, rest, rfl⟩ := List.exists_cons_of_ne_nil hne
  have hchars : ∃ more, name.toList = c :: more ∧ '/' ∉ c :: more ∧ '\\' ∉ c :: more := by
    have hslash : '/' ∉ c :: rest := fun hmem => (hnot '/' (hclass '/' hmem)).1 rfl
    have hback : '\\' ∉ c :: rest := fun hmem => (hnot '\\' (hclass '\\' hmem)).2.1 rfl
    rcases hname with rfl | rfl
    · exact ⟨rest, String.toList_ofList, hslash, hback⟩
    · refine ⟨rest ++ ".json".toList, ?_, ?_, ?_⟩
      · rw [String.toList_append, String.toList_ofList, List.cons_append]
      · rw [← List.cons_append, List.mem_append, not_or]
        exact ⟨hslash, by decide⟩
      · rw [← List.cons_append, List.mem_append, not_or]
        exact ⟨hback, by decide⟩
  obtain ⟨more, hname, hslash, hback⟩ := hchars
  have hfirst : c ≠ '.' := (hnot c (hclass c List.mem_cons_self)).2.2
  rw [← hname] at hslash hback
  refine ⟨⟨?_, ?_, hslash⟩, ?_, hback⟩
  · rintro rfl
    cases hname
  · rintro rfl
    exact hfirst (List.cons.inj hname).1.symm
  · rintro rfl
    exact hfirst (List.cons.inj hname).1.symm

/-- What is asked of a blueprint so that its snapshot has its place. -/
structure Blueprint.Shelved (b : Blueprint) : Prop where
  /-- The entity is a studly name. -/
  entity : IsStudly b.entity
  /-- The module is a module path, if there is one. -/
  module : ∀ m, b.modulePath = some m → Normalize.IsModule m

namespace Blueprint.Shelved

variable {b b' : Blueprint}

lemma entity_alphanum (h : b.Shelved) :
    b.entity ≠ "" ∧ ∀ c ∈ b.entity.toList, c.isAlphanum = true := by
  obtain ⟨c, cs, hchars, hfirst, hlater⟩ := h.entity
  constructor
  · intro hempty
    rw [hempty] at hchars
    cases hchars
  · intro d hd
    rw [hchars] at hd
    rcases List.mem_cons.mp hd with rfl | hd
    · exact isAlphanum_iff.mpr (.inl hfirst)
    · exact hlater d hd

/-- The directory is a module path, whether or not there is a module. -/
lemma isModule_shelf (h : b.Shelved) : Normalize.IsModule b.shelf := by
  rw [shelf]
  cases hmodule : b.modulePath with
  | some m => exact h.module m hmodule
  | none =>
    exact isModule_of_all (List.cons_ne_nil "global".toList []) (by decide +kernel)
      (by decide +kernel)

/-- All names behind the directory of snapshots are plain. -/
lemma isShelfName (h : b.Shelved) {name : String}
    (hname : name ∈ Path.namesBetween b.shelf ++ [snake b.entity ++ ".json"]) :
    IsShelfName name := by
  rcases List.mem_append.mp hname with hname | hname
  · obtain ⟨segments, hne, hsegments, hshelf⟩ := h.isModule_shelf
    have hslash : ∀ segment ∈ segments, ∀ c ∈ segment, (c == '/') = false := by
      intro segment hsegment c hc
      rw [beq_eq_false_iff_ne]
      rintro rfl
      exact absurd ((hsegments segment hsegment).2 '/' hc) (by decide)
    rw [hshelf, Path.namesBetween, String.toList_ofList, pieces_joinWith (by simp) hne hslash]
      at hname
    obtain ⟨segment, hsegment, rfl⟩ := List.mem_map.mp hname
    exact ⟨segment, (hsegments segment hsegment).1, (hsegments segment hsegment).2, .inl rfl⟩
  · obtain ⟨hne, halphanum⟩ := h.entity_alphanum
    obtain ⟨hsnake, hclass⟩ := snakeChars_class (mt String.toList_eq_nil_iff.mp hne) halphanum
    exact ⟨snakeChars b.entity.toList, hsnake, hclass, .inr (List.mem_singleton.mp hname)⟩

lemma plain (h : b.Shelved) : ∀ name ∈ snapshotNames b,
    Path.IsName name ∧ name ≠ ".." ∧ '\\' ∉ name.toList := by
  intro name hname
  rw [snapshotNames, List.append_assoc] at hname
  rcases List.mem_append.mp hname with hname | hname
  · have hall : ∀ name ∈ [".blueprintx", "snapshots"],
        (name ≠ "" ∧ name ≠ "." ∧ '/' ∉ name.toList) ∧ name ≠ ".." ∧ '\\' ∉ name.toList := by
      decide +kernel
    exact hall name hname
  · exact (h.isShelfName hname).plain

lemma isWritten (h : b.Shelved) : (Files.Path.mk "" (snapshotNames b)).IsWritten :=
  ⟨.inl rfl, fun name hname => (h.plain name hname).1⟩

end Blueprint.Shelved

/-- The path is made of the directory and the entity. -/
lemma snapshotPath_shelf {b : Blueprint} (h : b.Shelved) :
    snapshotPath b = snapshotDirectory ++ "/" ++ b.shelf ++ "/" ++ snake b.entity ++ ".json" := by
  rw [snapshotPath, Blueprint.shelf]
  cases hmodule : b.modulePath with
  | none => rfl
  | some m =>
    obtain ⟨segments, hne, hsegments, rfl⟩ := h.module m hmodule
    obtain ⟨segment, rest, rfl⟩ := List.exists_cons_of_ne_nil hne
    have hfilled : joinWith ['/'] (segment :: rest) ≠ [] := by
      have hsegment := (hsegments segment List.mem_cons_self).1
      cases rest with
      | nil => exact hsegment
      | cons next rest => simp [joinWith, hsegment]
    have htext : (String.ofList (joinWith ['/'] (segment :: rest))).isEmpty = false := by
      rw [Bool.eq_false_iff, Ne, String.isEmpty_iff, String.ofList_eq_empty_iff]
      exact hfilled
    simp only [htext, Bool.false_eq_true, if_false, Option.getD_some]

/-- The names are those on the path. -/
lemma snapshotPath_eq {b : Blueprint} (h : b.Shelved) :
    snapshotPath b = (Files.Path.mk "" (snapshotNames b)).toText := by
  have htext : (Files.Path.mk "" (snapshotNames b)).toText = Path.joinNames (snapshotNames b) := by
    rw [Path.toText, if_neg (by simp [snapshotNames]), String.empty_append]
  rw [snapshotPath_shelf h, htext, snapshotNames, Path.joinNames_append (by simp) (by simp),
    Path.joinNames_append (by simp) (Path.namesBetween_ne_nil _), Path.joinNames_namesBetween]
  simp [snapshotDirectory, Path.joinNames, String.append_assoc]

/-- **When two blueprints share the path of their snapshots**: they belong to one directory, and
their entities are spelled alike. -/
lemma snapshotPath_eq_iff {b b' : Blueprint} (h : b.Shelved) (h' : b'.Shelved) :
    snapshotPath b = snapshotPath b' ↔ b.shelf = b'.shelf ∧ SpelledAlike b.entity b'.entity := by
  have hnames : snapshotPath b = snapshotPath b' ↔ snapshotNames b = snapshotNames b' := by
    rw [snapshotPath_eq h, snapshotPath_eq h']
    constructor
    · intro htext
      have hpath := congrArg Path.ofText htext
      rw [Path.ofText_toText h.isWritten, Path.ofText_toText h'.isWritten] at hpath
      exact congrArg Path.names hpath
    · intro hnames
      rw [hnames]
  have hshelf : Path.namesBetween b.shelf = Path.namesBetween b'.shelf ↔ b.shelf = b'.shelf := by
    constructor
    · intro hbetween
      rw [← Path.joinNames_namesBetween b.shelf, hbetween, Path.joinNames_namesBetween]
    · intro heq
      rw [heq]
  obtain ⟨hne, halphanum⟩ := h.entity_alphanum
  obtain ⟨hne', halphanum'⟩ := h'.entity_alphanum
  rw [hnames, snapshotNames, snapshotNames, List.append_singleton_inj, List.append_right_inj, hshelf,
    String.append_left_inj, snake_eq_iff hne hne' halphanum halphanum']

/-! ### Files that stay out of each other's way -/

namespace Writer

variable {tree next after : FileTree} {root : Path} {mode : Mode} {file : GeneratedFile}
  {names names' : List String} {entry : OutputEntry}

/-- The target of plain names lies at these names, seen from the root. -/
lemma targetOf_toText (ne : names ≠ [])
    (plain : ∀ name ∈ names, Path.IsName name ∧ name ≠ ".." ∧ '\\' ∉ name.toList)
    (hfile : file.path = (Files.Path.mk "" names).toText) :
    targetOf root file = ⟨root.anchor, root.names ++ names⟩ := by
  have hwritten : (Files.Path.mk "" names).IsWritten :=
    ⟨.inl rfl, fun name hname => (plain name hname).1⟩
  have htext : file.path.toList = joinWith ['/'] (names.map String.toList) := by
    rw [hfile, Path.toText, if_neg (by simp [ne]), String.empty_append, Path.toList_joinNames]
  have hback : ∀ c ∈ file.path.toList, (if c == '\\' then '/' else c) = c := by
    intro c hc
    rw [htext] at hc
    rw [if_neg]
    rw [beq_iff_eq]
    rintro rfl
    rcases mem_joinWith hc with hc | ⟨part, hpart, hc⟩
    · exact absurd hc (by decide)
    · obtain ⟨name, hname, rfl⟩ := List.mem_map.mp hpart
      exact (plain name hname).2.2 hc
  have hslash : file.path.toList.dropWhile (· == '/') = file.path.toList := by
    have htake := Path.takeWhile_joinWith hwritten.names
    rw [← htext] at htake
    have hsplit := List.takeWhile_append_dropWhile (p := (· == '/')) (l := file.path.toList)
    rwa [htake, List.nil_append] at hsplit
  have hrelative : relativeText file.path = file.path := by
    rw [relativeText, List.map_congr_left hback, List.map_id', hslash, String.ofList_toList]
  rw [targetOf, hrelative, hfile, Path.child, Path.ofText_toText hwritten, Path.join]
  rfl

/-- Without links different names below a root are resolved to different places. -/
lemma resolve_apart (noLinks : tree.NoLinks) {p : Place}
    (plain : ∀ name ∈ names, name ≠ "." ∧ name ≠ "..")
    (plain' : ∀ name ∈ names', name ≠ "." ∧ name ≠ "..") (ne : names ≠ names')
    (h : tree.resolve ⟨root.anchor, root.names ++ names⟩ = .ok p) :
    tree.resolve ⟨root.anchor, root.names ++ names'⟩ ≠ .ok p := by
  have hgoal : ∀ {more : List String}, (∀ name ∈ more, name ≠ "." ∧ name ≠ "..") →
      tree.resolve ⟨root.anchor, root.names ++ more⟩ = .ok p → p = tree.goal root ++ more := by
    intro more hmore hresolve
    cases hzero : Path.holdsZero ⟨root.anchor, root.names ++ more⟩ with
    | true =>
      rw [resolve, if_pos hzero] at hresolve
      cases hresolve
    | false =>
      rw [resolve_of_noLinks noLinks hzero, Except.ok.injEq, goal, along_append,
        along_names hmore] at hresolve
      exact hresolve.symm
  intro h'
  exact ne (List.append_cancel_left ((hgoal plain h).symm.trans (hgoal plain' h')))

/-- A file with which the writing that changed a tree did not interfere. -/
structure Undisturbed (root : Path) (file : GeneratedFile) (tree next : FileTree) : Prop where
  /-- What is at its place was not overwritten. -/
  contents : ∀ p, tree.resolve (targetOf root file) = .ok p → next.contents? p = tree.contents? p
  /-- Where it is skipped or replaces something, that was there before. -/
  entry : ∀ mode entry after, write root mode file next = (.ok entry, after) →
    entry.status = .skipped ∨ entry.status = .overwritten →
      ∃ p before, tree.resolve (targetOf root file) = .ok p ∧ tree.contents? p = some before

/-- A file that is skipped or replaces something was found. -/
lemma existing_of_writeAt {target : Path} {relative : String}
    (h : (writeAt target relative mode file tree).1.status = .skipped ∨
      (writeAt target relative mode file tree).1.status = .overwritten) :
    ∃ before, existing target tree = .ok (some before) := by
  rw [writeAt] at h
  by_cases hdry : mode.dryRun = true
  · simp only [hdry, if_true] at h
    rcases h with h | h <;> cases h
  cases hexisting : existing target tree with
  | error fault =>
    simp only [hdry, hexisting] at h
    rcases h with h | h <;> cases h
  | ok previous =>
    cases previous with
    | some before => exact ⟨before, rfl⟩
    | none =>
      -- nothing was found, so the file is new or there is an error
      simp only [hdry, hexisting, reduceCtorEq, if_false, Option.isSome_none, Bool.false_and,
        Bool.false_eq_true] at h
      obtain ⟨herror, -⟩ | ⟨grown, changed, -, -, hplaced⟩ :=
        place_cases target file.contents none relative tree
      · rw [herror] at h
        rcases h with h | h <;> cases h
      · rw [hplaced] at h
        rcases h with h | h <;> cases h

lemma existing_of_entry (h : write root mode file tree = (.ok entry, after))
    (hstatus : entry.status = .skipped ∨ entry.status = .overwritten) :
    ∃ before, existing (targetOf root file) tree = .ok (some before) := by
  have htarget : root.child (relativeText file.path) = targetOf root file := rfl
  unfold write at h
  simp only [htarget] at h
  cases hbelow : isBelow root (targetOf root file) tree with
  | error fault => simp [hbelow] at h
  | ok below =>
    cases below with
    | false =>
      simp only [hbelow, Prod.mk.injEq, Except.ok.injEq] at h
      obtain ⟨rfl, -⟩ := h
      rcases hstatus with hstatus | hstatus <;> cases hstatus
    | true =>
      simp only [hbelow, Prod.mk.injEq, Except.ok.injEq] at h
      obtain ⟨rfl, -⟩ := h
      exact existing_of_writeAt hstatus

/-- **Files elsewhere** do not interfere with a file. -/
lemma undisturbed_of_apart {places : Place → Prop} (rewritten : Rewritten places tree next)
    (apart : ∀ p, tree.resolve (targetOf root file) = .ok p → ¬ places p) :
    Undisturbed root file tree next where
  contents p hp := rewritten.others p (apart p hp)
  entry mode entry after hwrite hstatus := by
    obtain ⟨before, hexisting⟩ := existing_of_entry hwrite hstatus
    obtain ⟨p, hlocate⟩ := read_eq_ok_iff.mp (read_of_existing hexisting)
    have hresolve := resolve_of_later rewritten.keeps hlocate
    refine ⟨p, before, hresolve, ?_⟩
    rw [← rewritten.others p (apart p hresolve), contents?_eq_some_iff]
    exact node?_of_locate hlocate

end Writer

/-! ### Snapshots -/

open Writer

variable {known : List String} {b b' : Blueprint}

/-- Whatever blueprint is generated, its snapshot is the only file. -/
lemma path_of_snapshot {a : Architecture} {options : Named} {out : Generated}
    (h : Generator.snapshot.generate b a options = .ok out) :
    ∀ file ∈ out.files, file.path = snapshotPath b := by
  simp only [Generator.snapshot, bind_eq_ok_iff] at h
  obtain ⟨contents, -, hout⟩ := h
  cases hout
  intro file hfile
  rw [List.mem_singleton.mp hfile]

/-- **Snapshots of different blueprints.** Two blueprints that are accepted share the path of
their snapshots exactly if they have the same module, no module counting as the module
`global`, and entities that are spelled alike. If they do not share it, generating one of them
does not disturb the snapshot of the other, unless there are links. -/
theorem snapshotPath_separates
    (valid : ∃ found, validate known b = .ok found ∧ found.isValid = true)
    (valid' : ∃ found, validate known b' = .ok found ∧ found.isValid = true)
    (module : ∀ m, b.modulePath = some m → Normalize.IsModule m)
    (module' : ∀ m, b'.modulePath = some m → Normalize.IsModule m) :
    (snapshotPath b = snapshotPath b' ↔
      b.modulePath.getD "global" = b'.modulePath.getD "global" ∧
        SpelledAlike b.entity b'.entity) ∧
    (snapshotPath b ≠ snapshotPath b' → ∀ (tree : FileTree) (root : Path) (mode : Mode)
      (a : Architecture) (options : Named) (out : Generated) (file : GeneratedFile),
      tree.NoLinks → Generator.snapshot.generate b' a options = .ok out →
        file.path = snapshotPath b →
          Undisturbed root file tree (writeAll root mode out.files tree).2) := by
  obtain ⟨found, hfound, hvalid⟩ := valid
  obtain ⟨found', hfound', hvalid'⟩ := valid'
  have shelved : b.Shelved := ⟨isStudly_of_isValid hfound hvalid, module⟩
  have shelved' : b'.Shelved := ⟨isStudly_of_isValid hfound' hvalid', module'⟩
  refine ⟨snapshotPath_eq_iff shelved shelved', ?_⟩
  intro hne tree root mode a options out file noLinks hout hfile
  have hnames : snapshotNames b ≠ snapshotNames b' := by
    intro heq
    rw [snapshotPath_eq shelved, snapshotPath_eq shelved', heq] at hne
    exact hne rfl
  have hplain : ∀ {b : Blueprint}, b.Shelved → ∀ name ∈ snapshotNames b, name ≠ "." ∧ name ≠ ".." :=
    fun h name hname => ⟨(h.plain name hname).1.2.1, (h.plain name hname).2.1⟩
  have htarget : ∀ {b : Blueprint} {file : GeneratedFile}, b.Shelved → file.path = snapshotPath b →
      targetOf root file = ⟨root.anchor, root.names ++ snapshotNames b⟩ := by
    intro b file h hpath
    exact targetOf_toText (by simp [snapshotNames]) h.plain (hpath.trans (snapshotPath_eq h))
  refine undisturbed_of_apart (rewritten_writeAll root mode out.files noLinks) ?_
  rintro p hp ⟨other, hother, hp'⟩
  rw [htarget shelved hfile] at hp
  rw [htarget shelved' (path_of_snapshot hout other hother)] at hp'
  exact resolve_apart noLinks (hplain shelved) (hplain shelved') hnames hp hp'

/-- An employee of some module under some name. -/
def employeeIn (modulePath : Option String) (entity : String) : Blueprint :=
  { employee with modulePath, entity }

/-- A tree with an output root. -/
def outputTree : FileTree :=
  ⟨[], [(["out"], .directory)], [], 0⟩

/-- Generating a name of one word does not disturb the snapshot of the same letters in two
words and without a module. -/
theorem snapshotPath_separates_words :
    (∃ found, validate ["hexagonal"] (employeeIn none "SalesForce") = .ok found ∧
      found.isValid = true) ∧
    (∃ found, validate ["hexagonal"] (employeeIn (some "hr/sales") "Salesforce") = .ok found ∧
      found.isValid = true) ∧
    (∀ m, (employeeIn (some "hr/sales") "Salesforce").modulePath = some m →
      Normalize.IsModule m) ∧
    snapshotPath (employeeIn none "SalesForce") ≠
      snapshotPath (employeeIn (some "hr/sales") "Salesforce") ∧
    ∃ out, Generator.snapshot.generate (employeeIn (some "hr/sales") "Salesforce")
        ⟨"hexagonal", ["snapshot"], []⟩ [] = .ok out ∧
      Undisturbed (.ofText "/out") ⟨snapshotPath (employeeIn none "SalesForce"), [1], false⟩
        outputTree (writeAll (.ofText "/out") ⟨false, true⟩ out.files outputTree).2 := by
  have valid : ∃ found, validate ["hexagonal"] (employeeIn none "SalesForce") = .ok found ∧
      found.isValid = true :=
    exists_of_accepted (by decide +kernel)
  have valid' : ∃ found, validate ["hexagonal"] (employeeIn (some "hr/sales") "Salesforce") =
      .ok found ∧ found.isValid = true :=
    exists_of_accepted (by decide +kernel)
  have module : ∀ m, (employeeIn none "SalesForce").modulePath = some m → Normalize.IsModule m := by
    intro m hm
    cases hm
  have module' : ∀ m, (employeeIn (some "hr/sales") "Salesforce").modulePath = some m →
      Normalize.IsModule m := by
    intro m hm
    cases hm
    exact isModule_of_all (List.cons_ne_nil "hr".toList ["sales".toList]) (by decide +kernel)
      (by decide +kernel)
  have noLinks : outputTree.NoLinks := noLinks_of_nodes (by simp [outputTree])
  obtain ⟨hpath, hapart⟩ := snapshotPath_separates valid valid' module module'
  have hne : snapshotPath (employeeIn none "SalesForce") ≠
      snapshotPath (employeeIn (some "hr/sales") "Salesforce") :=
    fun heq => absurd (hpath.mp heq) (by decide +kernel)
  obtain ⟨out, hout⟩ : ∃ out, Generator.snapshot.generate
      (employeeIn (some "hr/sales") "Salesforce") ⟨"hexagonal", ["snapshot"], []⟩ [] = .ok out := by
    have hsome : (Generator.snapshot.generate (employeeIn (some "hr/sales") "Salesforce")
        ⟨"hexagonal", ["snapshot"], []⟩ []).toOption.isSome = true := by
      decide +kernel
    obtain ⟨out, hout⟩ := Option.isSome_iff_exists.mp hsome
    exact ⟨out, toOption_eq_some_iff.mp hout⟩
  exact ⟨valid, valid', module', hne, out, hout,
    hapart hne outputTree _ _ _ _ out _ noLinks hout rfl⟩

/-- A tree in which the snapshots of one module are those of another. -/
def linkedTree : FileTree :=
  ⟨[], [(["out"], .directory), (["out", ".blueprintx"], .directory),
    (["out", ".blueprintx", "snapshots"], .directory),
    (["out", ".blueprintx", "snapshots", "hr"], .directory),
    (["out", ".blueprintx", "snapshots", "it"], .link "hr")], [], 0⟩

/-- Blueprints with different modules, or with different entities, may share the path of their
snapshots: no module is taken for the module `global`, and the snake case does not keep the
case of a word. Where there are links, snapshots with different paths may be one file. -/
theorem snapshotPath_collides :
    (∃ b b' : Blueprint, (validate ["hexagonal"] b).toOption.any Findings.isValid = true ∧
      (validate ["hexagonal"] b').toOption.any Findings.isValid = true ∧
      b.modulePath = none ∧ ModulePath.sanitize "global" = .ok b'.modulePath ∧
      b.modulePath ≠ b'.modulePath ∧ snapshotPath b = snapshotPath b') ∧
    (∃ b b' : Blueprint, (validate ["hexagonal"] b).toOption.any Findings.isValid = true ∧
      (validate ["hexagonal"] b').toOption.any Findings.isValid = true ∧
      b.modulePath = none ∧ b'.modulePath = none ∧ b.entity ≠ b'.entity ∧
      snapshotPath b = snapshotPath b') ∧
    ∃ b b' : Blueprint, (validate ["hexagonal"] b).toOption.any Findings.isValid = true ∧
      (validate ["hexagonal"] b').toOption.any Findings.isValid = true ∧
      ModulePath.sanitize "hr" = .ok b.modulePath ∧
      ModulePath.sanitize "it" = .ok b'.modulePath ∧ snapshotPath b ≠ snapshotPath b' ∧
      ¬ Undisturbed (.ofText "/out") ⟨snapshotPath b, [1], false⟩ linkedTree
        (writeAll (.ofText "/out") ⟨false, false⟩ [⟨snapshotPath b', [2], false⟩] linkedTree).2 := by
  refine ⟨⟨employeeIn none "Employee", employeeIn (some "global") "Employee", ?_⟩,
    ⟨employeeIn none "HTTPServer", employeeIn none "HttpServer", ?_⟩,
    ⟨employeeIn (some "hr") "Employee", employeeIn (some "it") "Employee", ?_⟩⟩
  · decide +kernel
  · decide +kernel
  · refine ⟨by decide +kernel, by decide +kernel, by decide +kernel, by decide +kernel,
      by decide +kernel, fun undisturbed => ?_⟩
    have hsame := undisturbed.contents ["out", ".blueprintx", "snapshots", "hr", "employee.json"]
      (by decide +kernel)
    revert hsame
    decide +kernel

end Scaffold
