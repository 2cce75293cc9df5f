import Scaffold.History.Journal
import Scaffold.Proofs.Bytes.Utf8
import Scaffold.Proofs.Shape.Decoding

/-!
Manifests are read back.

The file of a manifest holds the JSON text of its plain form. Reading this text gives the
manifest again, with options and filters in their plain form, because every member is
written in a form that its decoder takes for itself: absent members are null or left
out, and both are read as absent.

* `decode_toPlain`: changes and origins are read back.
* `Manifest.IsPlainOf`: what is read back of a manifest.
* `manifestOf?_of_fileBytes`: it is what the file of the manifest gives.
-/

namespace Scaffold

open Document Shape Checked

/-! ### Contexts -/

/-- Options and filters repeat no key. -/
lemma RunContext.nodup_of_ofEntries {context : List (Document × Document)} {known : RunContext}
    (h : RunContext.ofEntries context = .ok known) :
    (known.options.map (·.1)).Nodup ∧ (known.filters.map (·.1)).Nodup := by
  simp only [RunContext.ofEntries, bind_eq_ok_iff] at h
  obtain ⟨options, -, filters, -, warnings, -, h⟩ := h
  split at h
  · next known' hdecode =>
    simp only [pure, Except.pure, Except.ok.injEq] at h
    subst h
    simp only [RunContext.decode, Shape.record, Document.record, apply_eq_ok_iff,
    required] at hdecode
    obtain ⟨_, _, ⟨_, filters', ⟨_, options', ⟨_, _, hdone, _, rfl⟩, hoptions, rfl⟩, hfilters, rfl⟩,
      _, rfl⟩ := hdecode
    cases hdone
    constructor
    · split at hoptions
      · exact nodup_dictOf (within_eq_ok_iff.mp hoptions)
      · cases hoptions
    · split at hfilters
      · exact nodup_dictOf (within_eq_ok_iff.mp hfilters)
      · cases hfilters
  · cases h

/-- The execution is the one that the context names. -/
lemma RunContext.executionId_of_ofEntries {context : List (Document × Document)}
    {known : RunContext} {execution : String} (h : RunContext.ofEntries context = .ok known)
    (named : lookup "execution_id" context = some (.text execution)) :
    known.executionId = some execution := by
  simp only [RunContext.ofEntries, bind_eq_ok_iff] at h
  obtain ⟨options, -, filters, -, warnings, -, h⟩ := h
  split at h
  · next known' hdecode =>
    simp only [pure, Except.pure, Except.ok.injEq] at h
    subst h
    simp only [RunContext.decode, Shape.record, Document.record, apply_eq_ok_iff] at hdecode
    obtain ⟨_, _, ⟨_, _, ⟨_, _, ⟨_, id, hdone, hid, rfl⟩, -, rfl⟩, -, rfl⟩, -, rfl⟩ := hdecode
    cases hdone
    rw [named] at hid
    cases hid
    rfl
  · cases h

/-! ### Changes and origins -/

/-- A text that is left out when it is absent is read back. -/
lemma absentAsNone_text {key : String} {s : Option String} {entries : List (Document × Document)}
    (h : lookup key entries =
      if ChangeRecord.isPresent (.ofText? s) then some (ofJson (.ofText? s)) else none) :
    absentAsNone key Shape.text entries = .ok s := by
  rw [absentAsNone, defaulted, h]
  cases s <;> rfl

/-- An integer that is left out when it is absent is read back. -/
lemma absentAsNone_int {key : String} {n : Option Int} {entries : List (Document × Document)}
    (h : lookup key entries =
      if ChangeRecord.isPresent (.ofInt? n) then some (ofJson (.ofInt? n)) else none) :
    absentAsNone key Shape.int entries = .ok n := by
  rw [absentAsNone, defaulted, h]
  cases n <;> rfl

/-- The members that are not left out are found by their keys. -/
lemma lookup_present (key : String) (members : List (String × Json)) :
    lookup key (ofMembers (members.filter fun member => ChangeRecord.isPresent member.2)) =
      (members.find? fun member => ChangeRecord.isPresent member.2 && member.1 == key).map
        fun member => ofJson member.2 := by
  rw [lookup_ofMembers, List.find?_filter]
  simp only [Bool.decide_and, Bool.decide_eq_true]

/-- A change is read back. -/
lemma ChangeRecord.decode_toPlain (c : ChangeRecord) :
    ChangeRecord.decode (ofJson c.toPlain) = .ok c := by
  have hplain : ofJson c.toPlain =
      .mapping (ofMembers (c.members.filter fun member => isPresent member.2)) := rfl
  rw [hplain, ChangeRecord.decode, Shape.record]
  simp only [apply_eq_ok_iff]
  refine ⟨_, c.backup, ⟨_, c.previousChecksum, ⟨_, c.previousSize, ⟨_, c.checksum, ⟨_, c.size,
    ⟨_, c.fullPath, ⟨_, c.path, ⟨_, c.layer, ⟨_, c.status, rfl, ?_, rfl⟩, absentAsNone_text ?_, rfl⟩,
    absentAsNone_text ?_, rfl⟩, absentAsNone_text ?_, rfl⟩, absentAsNone_int ?_, rfl⟩,
    absentAsNone_text ?_, rfl⟩, absentAsNone_int ?_, rfl⟩, absentAsNone_text ?_, rfl⟩,
    absentAsNone_text ?_, rfl⟩
  · rw [required, lookup_present]
    rfl
  all_goals
    rw [lookup_present]
    simp only [members, List.find?_cons, List.find?_nil, String.reduceBEq, Bool.and_false,
      Bool.and_true]
    split <;> simp_all

/-- An origin is read back. -/
lemma Origin.decode_toPlain (o : Origin) : Origin.decode (ofJson o.toPlain) = .ok o := by
  obtain ⟨modulePath, entity, architecture, path⟩ := o
  have hplain : ofJson (Origin.mk modulePath entity architecture path).toPlain =
      .mapping (ofMembers [("module", .ofText? modulePath), ("entity", .ofText? entity),
        ("architecture", .ofText? architecture), ("path", .ofText? path)]) := rfl
  rw [hplain, Origin.decode, Shape.record]
  simp [Reading.apply, Reading.done, absentAsNone, defaulted, lookup_ofMembers, optional_ofText?,
    within, both]

/-! ### Manifests -/

namespace Manifest

/-- What is read back of a manifest. -/
structure IsPlainOf (read m : Manifest) : Prop where
  /-- The name. -/
  id : read.id = m.id
  /-- The time. -/
  timestamp : read.timestamp = m.timestamp
  /-- The place among other runs. -/
  sequence : read.sequence = m.sequence
  /-- The execution. -/
  executionId : read.executionId = m.executionId
  /-- The blueprint. -/
  blueprint : read.blueprint = m.blueprint
  /-- The options in their plain form. -/
  options : PlainValues m.options read.options
  /-- The filters in their plain form. -/
  filters : PlainValues m.filters read.filters
  /-- The warnings. -/
  warnings : read.warnings = m.warnings
  /-- The changes. -/
  entries : read.entries = m.entries

/-- The plain form of a manifest is read back. -/
lemma decode_toPlain {m : Manifest} {j : Json} (h : m.toPlain = .ok j)
    (options : (m.options.map (·.1)).Nodup) (filters : (m.filters.map (·.1)).Nodup) :
    ∃ members read, j = .object members ∧ (∃ items, Json.get? "entries" j = some (.array items)) ∧
      (Json.get? "id" j).isSome = true ∧ Manifest.decode (ofJson j) = .ok read ∧
      read.IsPlainOf m := by
  simp only [toPlain, bind_eq_ok_iff, pure, Except.pure, Except.ok.injEq] at h
  obtain ⟨optionsPlain, hoptions, filtersPlain, hfilters, rfl⟩ := h
  obtain ⟨optionsRead, hoptionsRead, hoptionsSame⟩ := dictOf_toPlainRecord hoptions options
  obtain ⟨filtersRead, hfiltersRead, hfiltersSame⟩ := dictOf_toPlainRecord hfilters filters
  refine ⟨_, { m with options := optionsRead, filters := filtersRead }, rfl, ⟨_, rfl⟩, rfl, ?_,
    ⟨rfl, rfl, rfl, rfl, rfl, hoptionsSame, hfiltersSame, rfl, rfl⟩⟩
  have hsequence : Shape.optional Shape.number (ofJson (m.sequence.elim .null .float)) =
      .ok m.sequence := by
    cases m.sequence <;> rfl
  have hwarnings : listOf Shape.text (ofJson (Json.ofTexts m.warnings)) = .ok m.warnings :=
    checkItems_ofTexts 0 m.warnings
  have hentries : listOf ChangeRecord.decode
      (ofJson (.array (m.entries.map ChangeRecord.toPlain))) = .ok m.entries :=
    checkItems_map (fun c _ => c.decode_toPlain) 0
  rw [ofJson, Manifest.decode, Shape.record]
  simp only [apply_eq_ok_iff]
  refine ⟨_, m.entries, ⟨_, m.warnings, ⟨_, filtersRead, ⟨_, optionsRead, ⟨_, m.blueprint,
    ⟨_, m.executionId, ⟨_, m.sequence, ⟨_, m.timestamp, ⟨_, m.id, rfl, ?_, rfl⟩, ?_, rfl⟩, ?_, rfl⟩,
    ?_, rfl⟩, ?_, rfl⟩, ?_, rfl⟩, ?_, rfl⟩, ?_, rfl⟩, ?_, rfl⟩
  · rw [required, lookup_ofMembers]
    rfl
  all_goals
    simp only [absentAsNone, defaulted, lookup_ofMembers, List.find?_cons, String.reduceBEq,
      Option.map_some, within_eq_ok_iff]
  · exact optional_ofText? m.timestamp
  · exact hsequence
  · exact optional_ofText? m.executionId
  · exact m.blueprint.decode_toPlain
  · exact hoptionsRead
  · exact hfiltersRead
  · exact hwarnings
  · exact hentries

/-- The plain form of a manifest is legible when its integers are short enough. -/
lemma legible_toPlain {m : Manifest} {j : Json} (h : m.toPlain = .ok j)
    (options : (m.options.map (·.1)).Nodup) (filters : (m.filters.map (·.1)).Nodup)
    (fit : j.integersFit = true) : j.Legible 0 := by
  simp only [toPlain, bind_eq_ok_iff, pure, Except.pure, Except.ok.injEq] at h
  obtain ⟨optionsPlain, hoptions, filtersPlain, hfilters, rfl⟩ := h
  have htext : ∀ (depth : Nat) (s : Option String), (Json.ofText? s).Legible depth := by
    intro depth s
    cases s <;> trivial
  have hint : ∀ (depth : Nat) (n : Option Int), (Json.ofInt? n).integersFit = true →
      (Json.ofInt? n).Legible depth := by
    intro depth n hn
    cases n with
    | none => trivial
    | some n => exact Json.legible_int hn
  refine Json.legible_object (by decide) fit (by simp) fun member hmember hfit => ?_
  simp only [List.mem_cons, List.not_mem_nil, or_false] at hmember
  rcases hmember with rfl | rfl | rfl | rfl | rfl | rfl | rfl | rfl | rfl
  · trivial
  · exact htext 1 _
  · cases m.sequence <;> trivial
  · exact htext 1 _
  · refine Json.legible_object (by decide) hfit (by simp) fun part hpart _ => ?_
    simp only [List.mem_cons, List.not_mem_nil, or_false] at hpart
    rcases hpart with rfl | rfl | rfl | rfl <;> exact htext 2 _
  · exact legible_toPlainRecord hoptions options (by decide) hfit
  · exact legible_toPlainRecord hfilters filters (by decide) hfit
  · refine Json.legible_array (by decide) hfit fun item hitem _ => ?_
    obtain ⟨s, -, rfl⟩ := List.mem_map.mp hitem
    trivial
  · refine Json.legible_array (by decide) hfit fun item hitem hitemFit => ?_
    obtain ⟨c, -, rfl⟩ := List.mem_map.mp hitem
    refine Json.legible_object (by decide) hitemFit ?_ fun part hpart hpartFit => ?_
    · exact (List.filter_sublist.map _).nodup (by simp [ChangeRecord.members])
    · have hmem := List.mem_of_mem_filter hpart
      simp only [ChangeRecord.members, List.mem_cons, List.not_mem_nil, or_false] at hmem
      rcases hmem with rfl | rfl | rfl | rfl | rfl | rfl | rfl | rfl | rfl
      all_goals first | trivial | exact htext 3 _ | exact hint 3 _ hpartFit

end Manifest

/-- **Manifests are read back**: the file of a manifest gives the manifest with options
and filters in their plain form. -/
lemma manifestOf?_of_fileBytes {m : Manifest} {bytes : Bytes} (h : m.fileBytes = .ok bytes)
    (options : (m.options.map (·.1)).Nodup) (filters : (m.filters.map (·.1)).Nodup)
    (directory : String) :
    ∃ text read, Utf8.decode? bytes = some text ∧
      manifestOf? directory text = .ok (some read) ∧ read.IsPlainOf m := by
  rw [Manifest.fileBytes] at h
  split at h
  · cases h
  · next j hj =>
    split at h
    · next hfit =>
      rw [Except.ok.injEq] at h
      obtain ⟨members, read, rfl, ⟨items, hitems⟩, hid, hdecode, hplain⟩ :=
        Manifest.decode_toPlain hj options filters
      have hparse := Json.parse_render (some 2) (Manifest.legible_toPlain hj options filters hfit)
      obtain ⟨id, hid⟩ := Option.isSome_iff_exists.mp hid
      refine ⟨_, read, h ▸ Utf8.decode?_encode _, ?_, hplain⟩
      rw [manifestOf?, Json.document, hparse]
      simp only [completed, hitems, hid, hdecode]
      rfl
    · cases h

end Scaffold
