import Scaffold.Proofs.History.Undoing

/-!
Manifests in their files.

A manifest whose options and filters are JSON values has a text when these values nest no
deeper than plain forms do and no integer in it has too many digits, and only then. When
this text is written to the file of a run at once, the run that is loaded has the manifest
that was written, whatever the file held before.

* `IsRecordable`: the values and manifests that a file can hold; `exists_fileBytes_iff`:
  no others have a text.
* `TakesManifest`: directories to which a manifest can be written.
* `loadRun?_of_put`: the run that is loaded from a file that has been put there.
* `loadRun?_of_fileBytes`: it has the manifest that was written.
-/

namespace Scaffold

open Files FileTree

/-! ### What a file can hold -/

namespace Document

/-- A JSON value that nests no deeper than plain forms do and whose integers are short. -/
def IsRecordable (d : Document) : Prop :=
  ∃ j : Json, j.IsStrict ∧ j.nesting ≤ plainDepth ∧ j.integersFit = true ∧ d = ofJson j

/-- A JSON value can be recorded exactly when it has a plain form with short integers. -/
lemma IsJson.isRecordable_iff {d : Document} (json : d.IsJson) :
    d.IsRecordable ↔ ∃ j, toPlain d = .ok j ∧ j.integersFit = true := by
  constructor
  · rintro ⟨j, strict, shallow, fit, rfl⟩
    exact ⟨j, toPlainAt_ofJson ⟨strict, by omega⟩, fit⟩
  · rintro ⟨j, hj, fit⟩
    obtain ⟨v, strict, shallow, rfl⟩ := IsPlainOf.isPlain ⟨j, hj, rfl⟩ json
    have hv : toPlain (ofJson v) = .ok v := toPlainAt_ofJson ⟨strict, by omega⟩
    obtain rfl : v = j := Except.ok.inj (hv.symm.trans hj)
    exact ⟨v, strict, shallow, fit, rfl⟩

/-- Named values have a plain form with short integers when each of them has one. -/
lemma exists_toPlainRecord_fit_iff {values : Named} :
    (∃ j, toPlainRecord values = .ok j ∧ j.integersFit = true) ↔
      ∀ entry ∈ values, ∃ j, toPlain entry.2 = .ok j ∧ j.integersFit = true := by
  constructor
  · rintro ⟨j, hj, fit⟩ entry hentry
    obtain ⟨members, rfl, hmembers⟩ := toPlainRecord_eq_ok_iff.mp hj
    obtain ⟨member, hmember, -, hplain⟩ := exists_of_forall₂ hmembers hentry
    exact ⟨member.2, hplain, Json.integersFit_object_iff.mp fit member hmember⟩
  · intro h
    have hmember : ∀ entry ∈ values, ∃ member : String × Json, (member.1 = entry.1 ∧
        toPlain entry.2 = .ok member.2) ∧ member.2.integersFit = true := by
      intro entry hentry
      obtain ⟨j, hj, fit⟩ := h entry hentry
      exact ⟨(entry.1, j), ⟨rfl, hj⟩, fit⟩
    obtain ⟨members, hmembers⟩ := forall₂_of_exists hmember
    refine ⟨.object members, toPlainRecord_eq_ok_iff.mpr ⟨members, rfl, hmembers.imp
      fun _ _ both => both.1⟩, Json.integersFit_object_iff.mpr fun member hin => ?_⟩
    obtain ⟨entry, -, both⟩ := exists_of_forall₂ hmembers.flip hin
    exact both.2

end Document

open Document

/-- The numbers of bytes in a change are short. -/
def ChangeRecord.IsShort (c : ChangeRecord) : Prop :=
  ∀ n : Int, c.size = some n ∨ c.previousSize = some n → n.natAbs < Nat.pow 10 Json.digitLimit

/-- The integers of a change are its numbers of bytes. -/
lemma ChangeRecord.integersFit_toPlain_iff {c : ChangeRecord} :
    c.toPlain.integersFit = true ↔ c.IsShort := by
  rw [toPlain, Json.integersFit_object_iff]
  constructor
  · intro h n hn
    have hmem : ("bytes", Json.int n) ∈ c.members ∨ ("previous_bytes", Json.int n) ∈ c.members :=
      hn.imp (fun hsize => by simp [members, hsize, Json.ofInt?])
        fun hsize => by simp [members, hsize, Json.ofInt?]
    rcases hmem with hmem | hmem <;>
      simpa [Json.integersFit] using h _ (List.mem_filter.mpr ⟨hmem, rfl⟩)
  · intro h member hmember
    have hsize := Json.integersFit_ofInt?_iff.mpr fun n hn => h n (.inl hn)
    have hprevious := Json.integersFit_ofInt?_iff.mpr fun n hn => h n (.inr hn)
    have hmem := List.mem_of_mem_filter hmember
    simp only [members, List.mem_cons, List.not_mem_nil, or_false] at hmem
    rcases hmem with rfl | rfl | rfl | rfl | rfl | rfl | rfl | rfl | rfl
    all_goals first | rfl | exact Json.integersFit_ofText? _ | exact hsize | exact hprevious

namespace Manifest

variable {m : Manifest}

/-- A manifest that a file can hold. -/
structure IsRecordable (m : Manifest) : Prop where
  /-- The options. -/
  options : ∀ entry ∈ m.options, entry.2.IsRecordable
  /-- The filters. -/
  filters : ∀ entry ∈ m.filters, entry.2.IsRecordable
  /-- The changes. -/
  entries : ∀ c ∈ m.entries, c.IsShort

/-- A manifest has a text when its plain form has short integers. -/
lemma exists_fileBytes_iff_toPlain :
    (∃ bytes, m.fileBytes = .ok bytes) ↔ ∃ j, m.toPlain = .ok j ∧ j.integersFit = true := by
  rw [fileBytes]
  cases m.toPlain with
  | error fault => simp
  | ok j => by_cases fit : j.integersFit = true <;> simp [fit]

/-- The integers of a manifest are those of its options, filters and changes. -/
lemma exists_toPlain_fit_iff :
    (∃ j, m.toPlain = .ok j ∧ j.integersFit = true) ↔
      (∃ j, toPlainRecord m.options = .ok j ∧ j.integersFit = true) ∧
      (∃ j, toPlainRecord m.filters = .ok j ∧ j.integersFit = true) ∧
      ∀ c ∈ m.entries, c.IsShort := by
  have hsequence : (m.sequence.elim .null .float : Json).integersFit = true := by
    cases m.sequence <;> rfl
  have horigin : m.blueprint.toPlain.integersFit = true := by
    simp [Origin.toPlain, Json.integersFit_object_iff]
  have hentries : (Json.array (m.entries.map ChangeRecord.toPlain)).integersFit = true ↔
      ∀ c ∈ m.entries, c.IsShort := by
    rw [Json.integersFit_array_iff, List.forall_mem_map]
    exact forall₂_congr fun c _ => c.integersFit_toPlain_iff
  have hid : (Json.string m.id).integersFit = true := rfl
  have hfit : ∀ options filters : Json, (Json.object [("id", .string m.id),
      ("timestamp", .ofText? m.timestamp), ("sequence", m.sequence.elim .null .float),
      ("execution_id", .ofText? m.executionId), ("blueprint", m.blueprint.toPlain),
      ("options", options), ("filters", filters), ("warnings", .ofTexts m.warnings),
      ("entries", .array (m.entries.map ChangeRecord.toPlain))]).integersFit = true ↔
        options.integersFit = true ∧ filters.integersFit = true ∧ ∀ c ∈ m.entries, c.IsShort := by
    intro options filters
    rw [Json.integersFit_object_iff, ← hentries]
    simp [hid, hsequence, horigin]
  simp only [toPlain, bind_eq_ok_iff, pure, Except.pure, Except.ok.injEq]
  constructor
  · rintro ⟨_, ⟨options, hoptions, filters, hfilters, rfl⟩, fit⟩
    obtain ⟨fitOptions, fitFilters, short⟩ := (hfit options filters).mp fit
    exact ⟨⟨options, hoptions, fitOptions⟩, ⟨filters, hfilters, fitFilters⟩, short⟩
  · rintro ⟨⟨options, hoptions, fitOptions⟩, ⟨filters, hfilters, fitFilters⟩, short⟩
    exact ⟨_, ⟨options, hoptions, filters, hfilters, rfl⟩,
      (hfit options filters).mpr ⟨fitOptions, fitFilters, short⟩⟩

/-- **Which manifests have a text**: those that can be recorded. -/
lemma exists_fileBytes_iff (options : ∀ entry ∈ m.options, entry.2.IsJson)
    (filters : ∀ entry ∈ m.filters, entry.2.IsJson) :
    (∃ bytes, m.fileBytes = .ok bytes) ↔ m.IsRecordable := by
  have hvalues : ∀ {values : Named}, (∀ entry ∈ values, entry.2.IsJson) →
      ((∃ j, toPlainRecord values = .ok j ∧ j.integersFit = true) ↔
        ∀ entry ∈ values, entry.2.IsRecordable) := by
    intro values json
    rw [exists_toPlainRecord_fit_iff]
    exact forall₂_congr fun entry hentry => (json entry hentry).isRecordable_iff.symm
  rw [exists_fileBytes_iff_toPlain, exists_toPlain_fit_iff, hvalues options, hvalues filters]
  exact ⟨fun h => ⟨h.1, h.2.1, h.2.2⟩, fun h => ⟨h.options, h.filters, h.entries⟩⟩

/-- What is read back of a manifest of JSON values is this manifest. -/
lemma IsPlainOf.eq {read : Manifest} (h : read.IsPlainOf m)
    (options : ∀ entry ∈ m.options, entry.2.IsJson)
    (filters : ∀ entry ∈ m.filters, entry.2.IsJson) : read = m := by
  have hoptions := h.options.eq options
  have hfilters := h.filters.eq filters
  cases read
  cases m
  rw [Manifest.mk.injEq]
  exact ⟨h.id, h.timestamp, h.sequence, h.executionId, h.blueprint, hoptions, hfilters, h.warnings,
    h.entries⟩

end Manifest

/-! ### The directory of a run -/

variable {tree after : FileTree} {path : Path} {directory : Place} {label token : String}
  {bytes : Bytes} {m : Manifest}

/-- A directory to which a manifest can be written at once. There may be a file of its name
already, or a link that leads to no directory. -/
structure TakesManifest (tree : FileTree) (path : Path) (directory : Place)
    (label token : String) : Prop where
  /-- Everything lies in a directory. -/
  sound : tree.Sound
  /-- The directory is there. -/
  located : tree.locate true path = .ok ⟨directory, some .directory⟩
  /-- The manifest is no directory. -/
  there : tree.node? (directory ++ [Manifest.fileName]) ≠ some .directory
  /-- The manifest is no link to a directory. -/
  nowhere : tree.LeadsNowhere (directory ++ [Manifest.fileName])
  /-- The temporary file can have its name. -/
  entry : IsEntry (temporaryName label token)
  /-- This name can stand in a path. -/
  zero : (temporaryName label token).toList.contains '\x00' = false
  /-- Nothing in the directory has this name. -/
  missing : tree.node? (directory ++ [temporaryName label token]) = none

/-- The path of a manifest aims into the directory of the run. -/
lemma aim_manifest (located : tree.locate true path = .ok ⟨directory, some .directory⟩) :
    tree.Aim (path.child Manifest.fileName) directory Manifest.fileName := by
  rw [Path.child_name fileName_isName path]
  refine ⟨?_, by simp, ⟨by decide, by decide, by decide⟩, by decide⟩
  rw [Path.parent_append]
  exact located

/-- **A manifest that is put** into the directory of a run is what is loaded. -/
lemma loadRun?_of_put (takes : TakesManifest tree path directory label token)
    (put : Put (directory ++ [Manifest.fileName]) bytes tree after) :
    loadRun? after path = runIn path (some bytes) := by
  have hnode : after.node? (directory ++ [Manifest.fileName]) = some (.file bytes) := by
    rw [put.node, if_pos rfl]
  have hways : SameWays tree after := sameWays_of_changed put.workplace
    (fun q hq => by rw [put.node, if_neg hq]) takes.there takes.nowhere (.inr ⟨bytes, hnode⟩)
  have haim := (aim_manifest takes.located).sameWays hways
  rw [loadRun?_of_locate (haim.locate_true (by simp [hnode])), contents?, hnode]

/-- **A manifest file loads back**: a manifest of JSON values has a text exactly when a file
can hold it, and when this text is written to the file of a run, which does not fail, the run
that is loaded has the name and the manifest that were written. -/
theorem loadRun?_of_fileBytes (takes : TakesManifest tree path directory label token)
    (distinct : (m.options.map (·.1)).Nodup ∧ (m.filters.map (·.1)).Nodup)
    (options : ∀ entry ∈ m.options, entry.2.IsJson)
    (filters : ∀ entry ∈ m.filters, entry.2.IsJson) :
    ((∃ bytes, m.fileBytes = .ok bytes) ↔ m.IsRecordable) ∧
    ∀ bytes, m.fileBytes = .ok bytes → ∃ after,
      tree.atomicWrite (path.child Manifest.fileName) bytes label token = (none, after) ∧
        loadRun? after path = .ok (some ⟨m.id, path, m⟩) := by
  refine ⟨Manifest.exists_fileBytes_iff options filters, fun bytes hbytes => ?_⟩
  obtain ⟨after, hwrite, hput⟩ := atomicWrite_put takes.sound (aim_manifest takes.located)
    takes.there takes.entry takes.zero takes.missing (fileName_ne_temporary label token) bytes
  refine ⟨after, hwrite, ?_⟩
  obtain ⟨text, read, htext, hread, hplain⟩ :=
    manifestOf?_of_fileBytes hbytes distinct.1 distinct.2 path.name
  rw [loadRun?_of_put takes hput, runIn]
  simp only [htext, hread, hplain.eq options filters]
  rfl

/-- A manifest with one option, whose change lacks most of its members. -/
def optioned (value : Json) : Manifest where
  id := "a/b"
  timestamp := none
  sequence := none
  executionId := some "e"
  blueprint := .unknown
  options := [("depth", ofJson value)]
  filters := []
  warnings := ["größer"]
  entries := [⟨"written", none, some "a.txt", none, some 1, none, none, none, none⟩]

lemma optioned_distinct (value : Json) :
    ((optioned value).options.map (·.1)).Nodup ∧ ((optioned value).filters.map (·.1)).Nodup := by
  simp [optioned]

lemma optioned_isJson {value : Json} (strict : value.IsStrict) :
    (∀ entry ∈ (optioned value).options, entry.2.IsJson) ∧
      ∀ entry ∈ (optioned value).filters, entry.2.IsJson := by
  simp only [optioned, List.forall_mem_singleton, List.not_mem_nil, false_implies, implies_true,
    and_true]
  exact ⟨value, strict, rfl⟩

theorem loadRun?_of_fileBytes_optioned :
    let tree : FileTree := ⟨[], [(["h"], .directory)], [], 0⟩
    let path : Files.Path := ⟨"/", ["h"]⟩
    let m := optioned (.tower 255)
    TakesManifest tree path ["h"] "manifest" "0" ∧ m.IsRecordable ∧ ∃ bytes after,
      tree.atomicWrite (path.child Manifest.fileName) bytes "manifest" "0" = (none, after) ∧
        loadRun? after path = .ok (some ⟨m.id, path, m⟩) := by
  intro tree path m
  have takes : TakesManifest tree path ["h"] "manifest" "0" := by
    refine ⟨by decide +kernel, rfl, by decide, fun target htarget => ?_, ?_, ?_, ?_⟩
    · cases htarget
    all_goals decide +kernel
  have json := optioned_isJson (Json.isStrict_tower 255)
  obtain ⟨hwritten, hloaded⟩ :=
    loadRun?_of_fileBytes takes (optioned_distinct (.tower 255)) json.1 json.2
  have hrecordable : m.IsRecordable := by
    refine ⟨fun entry hentry => ?_, fun entry hentry => absurd hentry (List.not_mem_nil), ?_⟩
    · obtain rfl := List.mem_singleton.mp hentry
      exact ⟨.tower 255, Json.isStrict_tower 255, (Json.nesting_tower 255).le,
        Json.integersFit_tower 255, rfl⟩
    · refine List.forall_mem_singleton.mpr fun n hn => ?_
      obtain rfl : 1 = n := by simpa using hn
      decide +kernel
  obtain ⟨bytes, hbytes⟩ := hwritten.mpr hrecordable
  obtain ⟨after, hwrite, hload⟩ := hloaded bytes hbytes
  exact ⟨takes, hrecordable, bytes, after, hwrite, hload⟩

/-- An option that is nested one step deeper leaves a manifest without a text. -/
theorem fileBytes_too_deep :
    ((optioned (.tower 256)).options.map (·.1)).Nodup ∧
    ((optioned (.tower 256)).filters.map (·.1)).Nodup ∧
    (∀ entry ∈ (optioned (.tower 256)).options, entry.2.IsJson) ∧
    (∀ entry ∈ (optioned (.tower 256)).filters, entry.2.IsJson) ∧
    ¬ ∃ bytes, (optioned (.tower 256)).fileBytes = .ok bytes := by
  have json := optioned_isJson (Json.isStrict_tower 256)
  refine ⟨(optioned_distinct _).1, (optioned_distinct _).2, json.1, json.2, fun hbytes => ?_⟩
  have hoption := List.mem_singleton_self ("depth", ofJson (.tower 256))
  have hrecordable := (Manifest.exists_fileBytes_iff json.1 json.2).mp hbytes
  obtain ⟨plain, hplain, -⟩ :=
    (json.1 _ hoption).isRecordable_iff.mp (hrecordable.options _ hoption)
  have hshallow := add_nesting_le_of_toPlainAt (Nat.zero_le _) hplain
  rw [Json.nesting_tower] at hshallow
  exact absurd hshallow (by decide)

end Scaffold
