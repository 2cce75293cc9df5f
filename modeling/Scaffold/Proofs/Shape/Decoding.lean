import Scaffold.Blueprint.Basic
import Scaffold.Proofs.Document.Plain
import Scaffold.Shape.Decoder

/-!
Decoders read plain forms back.

A record is read member by member, and the members of a JSON object are found by their
keys. What is written in a form that its decoder takes for itself is read back; free
values come back in their plain form.

* `both_eq_ok_iff`, `apply_eq_ok_iff`, `within_eq_ok_iff`: when a record is read.
* `nodup_dictOf`, `exists_of_dictOf`: what is read from a mapping repeats no key, and its
  values have been decoded.
* `lookup_ofMembers`: the members of a JSON object are found by their keys.
* `strictRecord_ofJson`: an object whose members are all known.
* `checkItems_ofItems`, `checkItems_map`: lists are read back item by item.
* `PlainValues`, `dictOf_toPlainRecord`: named values are read back in their plain form;
  `PlainValues.eq`: JSON values as they are.
-/

namespace Scaffold

open Document Shape Checked

variable {α β : Type}

/-! ### Decoders -/

namespace Shape

lemma both_eq_ok_iff {γ : Type} {f : α → β → γ} {a : Checked α} {b : Checked β} {c : γ} :
    both f a b = .ok c ↔ ∃ x y, a = .ok x ∧ b = .ok y ∧ f x y = c := by
  cases a <;> cases b <;> simp [both]

/-- A record is read when each of its members is. -/
lemma apply_eq_ok_iff {f : Reading (α → β)} {a : Reading α} {entries : List (Document × Document)}
    {b : β} : f.apply a entries = .ok b ↔
      ∃ g x, f entries = .ok g ∧ a entries = .ok x ∧ g x = b := by
  rw [Reading.apply, both_eq_ok_iff]

lemma within_eq_ok_iff {step : Step} {a : Checked α} {x : α} :
    a.within step = .ok x ↔ a = .ok x := by
  cases a <;> simp [within]

lemma mem_putEntry {name : String} {value : α} {entries : List (String × α)}
    {entry : String × α} (h : entry ∈ putEntry name value entries) :
    entry = (name, value) ∨ entry ∈ entries := by
  induction entries with
  | nil => simpa [putEntry] using h
  | cons other entries ih =>
    rw [putEntry] at h
    split at h
    · exact (List.mem_cons.mp h).imp_right (List.mem_cons_of_mem _)
    · rcases List.mem_cons.mp h with rfl | h
      · exact .inr (by simp)
      · exact (ih h).imp_right (List.mem_cons_of_mem _)

/-- An entry put among others repeats no key. -/
lemma nodup_putEntry {name : String} {value : α} {entries : List (String × α)}
    (h : (entries.map (·.1)).Nodup) : ((putEntry name value entries).map (·.1)).Nodup := by
  induction entries with
  | nil => simp [putEntry]
  | cons entry entries ih =>
    obtain ⟨hfirst, hrest⟩ := List.nodup_cons.mp h
    rw [putEntry]
    split
    · next heq =>
      rw [beq_iff_eq] at heq
      exact List.nodup_cons.mpr ⟨heq ▸ hfirst, hrest⟩
    · next hne =>
      refine List.nodup_cons.mpr ⟨fun hmem => ?_, ih hrest⟩
      obtain ⟨other, hother, heq⟩ := List.mem_map.mp hmem
      rcases mem_putEntry hother with rfl | hother
      · exact hne (by simpa using heq.symm)
      · exact hfirst (heq ▸ List.mem_map_of_mem hother)

/-- A new name is put at the end. -/
lemma putEntry_of_not_mem {name : String} {value : α} {entries : List (String × α)}
    (h : name ∉ entries.map (·.1)) : putEntry name value entries = entries ++ [(name, value)] := by
  induction entries with
  | nil => rfl
  | cons entry entries ih =>
    rw [List.map_cons, List.mem_cons, not_or] at h
    rw [putEntry, if_neg (by simpa using Ne.symm h.1), ih h.2]
    rfl

/-- What is read from a mapping repeats no key. -/
lemma nodup_checkEntries {decode : Decoder α} {entries : List (Document × Document)}
    {found result : List (String × α)} (h : checkEntries decode found entries = .ok result)
    (distinct : (found.map (·.1)).Nodup) : (result.map (·.1)).Nodup := by
  induction entries generalizing found with
  | nil =>
    cases h
    exact distinct
  | cons entry entries ih =>
    obtain ⟨key, value⟩ := entry
    rw [checkEntries] at h
    split at h
    · exact ih h (nodup_putEntry distinct)
    · cases h

lemma nodup_dictOf {decode : Decoder α} {d : Document} {result : List (String × α)}
    (h : dictOf decode d = .ok result) : (result.map (·.1)).Nodup := by
  cases d with
  | mapping entries => exact nodup_checkEntries h .nil
  | _ => simp [dictOf, refuse] at h

/-- What is read from a mapping was there already or has been decoded. -/
lemma exists_of_checkEntries {decode : Decoder α} {entries : List (Document × Document)}
    {found result : List (String × α)} (h : checkEntries decode found entries = .ok result) :
    ∀ entry ∈ result, entry ∈ found ∨ ∃ d, decode d = .ok entry.2 := by
  induction entries generalizing found with
  | nil =>
    cases h
    exact fun entry hentry => .inl hentry
  | cons first entries ih =>
    obtain ⟨key, value⟩ := first
    rw [checkEntries] at h
    split at h
    · next name a _ hvalue =>
      intro entry hentry
      rcases ih h entry hentry with hput | hdecoded
      · rcases mem_putEntry hput with rfl | hfound
        · exact .inr ⟨value, within_eq_ok_iff.mp hvalue⟩
        · exact .inl hfound
      · exact .inr hdecoded
    · cases h

/-- Every value of a mapping that is read has been decoded. -/
lemma exists_of_dictOf {decode : Decoder α} {d : Document} {result : List (String × α)}
    (h : dictOf decode d = .ok result) : ∀ entry ∈ result, ∃ d', decode d' = .ok entry.2 := by
  cases d with
  | mapping entries =>
    intro entry hentry
    exact (exists_of_checkEntries h entry hentry).resolve_left List.not_mem_nil
  | _ => simp [dictOf, refuse] at h

/-- Texts that are new are taken over as they are. -/
lemma checkEntries_of_texts {own found : Named}
    (distinct : (found.map (·.1) ++ own.map (·.1)).Nodup) :
    checkEntries anything found (own.map fun value => (.text value.1, value.2)) =
      .ok (found ++ own) := by
  induction own generalizing found with
  | nil => simp [checkEntries]
  | cons value own ih =>
    obtain ⟨name, d⟩ := value
    have hnew : name ∉ found.map (·.1) := by
      rw [List.nodup_append] at distinct
      exact fun hmem => distinct.2.2 name hmem name (by simp) rfl
    have hkey : checkKey (.text name) = .ok name := rfl
    have hvalue : (anything d).within (keyStep (.text name)) = .ok d := rfl
    rw [List.map_cons, checkEntries]
    simp only [hkey, hvalue, putEntry_of_not_mem hnew]
    rw [ih (by simpa using distinct)]
    simp

end Shape

/-! ### Members of JSON objects -/

/-- A key that is a text is the same as itself only. -/
@[simp] lemma sameKey_text (s t : String) : sameKey (.text s) (.text t) = (s == t) := rfl

/-- The members of a JSON object are found by their keys. -/
lemma lookup_ofMembers (key : String) (members : List (String × Json)) :
    lookup key (ofMembers members) =
      (members.find? (·.1 == key)).map fun member => ofJson member.2 := by
  induction members with
  | nil => rfl
  | cons member members ih =>
    obtain ⟨name, value⟩ := member
    rw [lookup] at ih
    rw [lookup, ofMembers, List.find?_cons, List.find?_cons, sameKey_text]
    cases name == key with
    | true => rfl
    | false => exact ih

/-- A text is read from the value in its place. -/
lemma text_ofJson (s : String) : Shape.text (ofJson (.string s)) = .ok s := rfl

/-- A text that may be absent is read from the value in its place. -/
lemma optional_ofText? (s : Option String) : optional text (ofJson (.ofText? s)) = .ok s := by
  cases s <;> rfl

/-- A list is read back when each of its items is. -/
lemma checkItems_ofItems {decode : Decoder α} {items : List Json} {read : List α}
    (h : List.Forall₂ (fun item a => decode (ofJson item) = .ok a) items read) (i : Nat) :
    checkItems decode i (ofItems items) = .ok read := by
  induction h generalizing i with
  | nil => rfl
  | cons hfirst _ ih => simp [ofItems, checkItems, hfirst, ih, within, both]

/-- A list of values is read back from their layouts. -/
lemma checkItems_map {decode : Decoder α} {layout : α → Json} {values : List α}
    (h : ∀ a ∈ values, decode (ofJson (layout a)) = .ok a) (i : Nat) :
    checkItems decode i (ofItems (values.map layout)) = .ok values :=
  checkItems_ofItems (List.forall₂_map_left_iff.mpr (List.forall₂_same.mpr h)) i

lemma checkItems_ofTexts (i : Nat) (texts : List String) :
    checkItems text i (ofItems (texts.map .string)) = .ok texts :=
  checkItems_map (fun _ _ => rfl) i

/-- The members of an object with distinct keys are read as they are. -/
lemma checkEntries_ofMembers {members : List (String × Json)} (found : Named)
    (distinct : ((found.map (·.1)) ++ members.map (·.1)).Nodup) :
    checkEntries anything found (ofMembers members) =
      .ok (found ++ members.map fun member => (member.1, ofJson member.2)) := by
  have hmembers : ofMembers members =
      (members.map fun member => (member.1, ofJson member.2)).map fun value =>
        (.text value.1, value.2) := by
    clear distinct
    induction members with
    | nil => rfl
    | cons member members ih => rw [ofMembers, ih]; rfl
  rw [hmembers]
  exact checkEntries_of_texts (by simpa [Function.comp_def] using distinct)

/-! ### Records without further members -/

/-- Members with known names are not complained about. -/
lemma unknownMembers_ofMembers {known : List String} {members : List (String × Json)}
    (h : ∀ member ∈ members, member.1 ∈ known) :
    unknownMembers known (ofMembers members) = [] := by
  induction members with
  | nil => rfl
  | cons member members ih =>
    obtain ⟨name, value⟩ := member
    have hname : known.contains name = true := by simpa using h (name, value) (by simp)
    simp only [ofMembers, unknownMembers, hname, if_true]
    exact ih fun other hother => h other (by simp [hother])

/-- An object whose members are all known is read as a record. -/
lemma strictRecord_ofJson {name : String} {known : List String} {reading : Reading α}
    {members : List (String × Json)} (h : ∀ member ∈ members, member.1 ∈ known) :
    strictRecord name known reading (ofJson (.object members)) = reading (ofMembers members) := by
  rw [ofJson, strictRecord, unknownMembers_ofMembers h]

/-! ### Named values -/

/-- Values under the same keys, the second ones read from the plain forms of the first
ones. -/
def PlainValues (values plain : Named) : Prop :=
  List.Forall₂ (fun entry entry' => entry'.1 = entry.1 ∧
    ∃ j, toPlain entry.2 = .ok j ∧ entry'.2 = ofJson j) values plain

/-- The plain form of named values is read back as their plain forms. -/
lemma dictOf_toPlainRecord {values : Named} {j : Json} (h : toPlainRecord values = .ok j)
    (distinct : (values.map (·.1)).Nodup) :
    ∃ plain, dictOf anything (ofJson j) = .ok plain ∧ PlainValues values plain := by
  obtain ⟨members, rfl, hmembers⟩ := toPlainRecord_eq_ok_iff.mp h
  have hboth : members.map (·.1) = values.map (·.1) ∧
      PlainValues values (members.map fun member => (member.1, ofJson member.2)) := by
    clear h distinct
    induction hmembers with
    | nil => exact ⟨rfl, .nil⟩
    | cons hfirst _ ih => exact ⟨by simp [hfirst.1, ih.1], .cons ⟨hfirst.1, _, hfirst.2, rfl⟩ ih.2⟩
  refine ⟨_, checkEntries_ofMembers [] ?_, hboth.2⟩
  simpa [hboth.1] using distinct

/-- A mapping whose keys are texts has a plain form when its values have one. -/
lemma exists_toPlainRecord_iff {values : Named} :
    (∃ j, toPlainRecord values = .ok j) ↔ ∀ entry ∈ values, ∃ j, toPlain entry.2 = .ok j := by
  constructor
  · rintro ⟨j, hj⟩ entry hentry
    obtain ⟨members, -, hmembers⟩ := toPlainRecord_eq_ok_iff.mp hj
    obtain ⟨member, -, -, hplain⟩ := exists_of_forall₂ hmembers hentry
    exact ⟨member.2, hplain⟩
  · intro h
    have hmember : ∀ entry ∈ values, ∃ member : String × Json,
        member.1 = entry.1 ∧ toPlain entry.2 = .ok member.2 := by
      intro entry hentry
      obtain ⟨j, hj⟩ := h entry hentry
      exact ⟨(entry.1, j), rfl, hj⟩
    obtain ⟨members, hmembers⟩ := forall₂_of_exists hmember
    exact ⟨_, toPlainRecord_eq_ok_iff.mpr ⟨members, rfl, hmembers⟩⟩

namespace PlainValues

variable {values read : Named}

/-- Named values that are JSON values are read back as they are. -/
lemma eq (h : PlainValues values read) (json : ∀ entry ∈ values, entry.2.IsJson) :
    read = values := by
  induction h with
  | nil => rfl
  | cons hfirst _ ih =>
    have hvalue := IsPlainOf.eq hfirst.2 (json _ (by simp))
    rw [ih fun other hother => json other (by simp [hother]), Prod.ext hfirst.1 hvalue]

/-- Named values that are JSON values and have a plain form are plain. -/
lemma isPlain (h : PlainValues values read) (json : ∀ entry ∈ values, entry.2.IsJson) :
    ∀ entry ∈ values, entry.2.IsPlain := by
  intro entry hentry
  obtain ⟨entry', -, -, hread⟩ := exists_of_forall₂ h hentry
  exact IsPlainOf.isPlain hread (json entry hentry)

/-- What is read back of named values has the same plain form. -/
lemma toPlainRecord_eq (h : PlainValues values read) :
    toPlainRecord read = toPlainRecord values := by
  rw [toPlainRecord, toPlainRecord]
  congr 1
  induction h with
  | nil => rfl
  | cons hfirst _ ih =>
    rw [List.mapM_cons, List.mapM_cons, ih, hfirst.1, IsPlainOf.toPlain_eq hfirst.2]

end PlainValues

end Scaffold
