import Scaffold.Document.Plain
import Scaffold.Proofs.Json.Strict
import Scaffold.Proofs.Outcome

/-!
Plain forms of documents.

The plain form of a document is a strict JSON value that nests no deeper than the
document may, because an entry whose key is there already takes the place of the earlier
one. So its text is read back when its integers are short. In turn every such JSON value
is the plain form of itself.

* `Json.IsPlainAt`: the values that are plain forms inside so many others.
* `isPlainAt_toPlainAt`: the plain form of a document is one.
* `toPlainAt_ofJson`: it is its own plain form.
* `add_nesting_le_of_toPlainAt`: a JSON value nested too deeply has no plain form.
* `IsJson`, `IsPlain`, `IsPlainOf`: free values and what is read back of them.
* `legible_toPlainRecord`: the plain form of a mapping whose keys are texts is legible.
-/

namespace Scaffold

namespace Json

/-! ### Plain values -/

/-- A strict value for which there is room inside `depth` lists and objects of a plain
form. -/
def IsPlainAt (depth : Nat) (j : Json) : Prop :=
  j.IsStrict ∧ depth + j.nesting ≤ Document.plainDepth

variable {depth : Nat} {items : List Json} {members : List (String × Json)}

/-- A list is plain when there is room for it and its items are plain inside it. -/
lemma isPlainAt_array_iff :
    (array items).IsPlainAt depth ↔
      depth < Document.plainDepth ∧ ∀ item ∈ items, item.IsPlainAt (depth + 1) := by
  simp only [IsPlainAt, isStrict_array_iff, add_nesting_array_le_iff, forall₂_and]
  tauto

/-- An object is plain when there is room for it, it repeats no key and its values are
plain inside it. -/
lemma isPlainAt_object_iff :
    (object members).IsPlainAt depth ↔
      depth < Document.plainDepth ∧ (members.map (·.1)).Nodup ∧
        ∀ member ∈ members, member.2.IsPlainAt (depth + 1) := by
  simp only [IsPlainAt, isStrict_object_iff, add_nesting_object_le_iff, forall₂_and]
  tauto

/-- A plain value is legible inside others when its integers are short. -/
lemma IsPlainAt.legible {outside : Nat} {j : Json} (plain : j.IsPlainAt depth)
    (room : outside + Document.plainDepth ≤ depthLimit) (fit : j.integersFit = true) :
    j.Legible (outside + depth) := by
  refine legible_of_isStrict plain.1 fit ?_
  have hdepth := plain.2
  omega

end Json

namespace Document

open Json

variable {outside depth : Nat} {j : Json}

/-! ### The plain form of a document is plain -/

/-- What may nest has a plain form when there is room for it and its parts have one. -/
lemma nested_eq_ok_iff {α : Type} {parts : Except PlainError α} {f : α → Json} :
    (if depth ≥ plainDepth then .error .circular else parts.map f) = .ok j ↔
      depth < plainDepth ∧ ∃ found, parts = .ok found ∧ f found = j := by
  split
  · next h => simp [Nat.not_lt.mpr h]
  · next h => simp [Nat.lt_of_not_ge h, map_eq_ok_iff]

mutual

/-- The plain form of a document inside `depth` others is plain. -/
theorem isPlainAt_toPlainAt (depth : Nat) (room : depth ≤ plainDepth) :
    (d : Document) → (j : Json) → toPlainAt depth d = .ok j → j.IsPlainAt depth
  | null, j, h => by cases h; exact ⟨by decide, room⟩
  | bool b, j, h => by cases h; exact ⟨⟨rfl, rfl⟩, room⟩
  | int n, j, h => by cases h; exact ⟨⟨rfl, rfl⟩, room⟩
  | float x, j, h => by
    rw [toPlainAt, Except.ok.injEq] at h
    split at h
    · next hfinite =>
      subst h
      exact ⟨isStrict_float_iff.mpr hfinite, room⟩
    · subst h
      exact ⟨by decide, room⟩
  | text s, j, h => by cases h; exact ⟨⟨rfl, rfl⟩, room⟩
  | bytes bs, j, h => by
    rw [toPlainAt] at h
    cases hbytes : Utf8.decode? bs with
    | none => simp [hbytes] at h
    | some s =>
      simp only [hbytes, Option.elim_some, Except.ok.injEq] at h
      subst h
      exact ⟨⟨rfl, rfl⟩, room⟩
  | date d, j, h => by cases h; exact ⟨⟨rfl, rfl⟩, room⟩
  | moment t, j, h => by cases h; exact ⟨⟨rfl, rfl⟩, room⟩
  | list items, j, h => by
    rw [toPlainAt, nested_eq_ok_iff] at h
    obtain ⟨hdepth, js, hjs, rfl⟩ := h
    exact isPlainAt_array_iff.mpr ⟨hdepth, isPlainAt_toPlainItems (depth + 1) hdepth items js hjs⟩
  | tuple items, j, h => by
    rw [toPlainAt, nested_eq_ok_iff] at h
    obtain ⟨hdepth, js, hjs, rfl⟩ := h
    exact isPlainAt_array_iff.mpr ⟨hdepth, isPlainAt_toPlainItems (depth + 1) hdepth items js hjs⟩
  | set items, j, h => by
    rw [toPlainAt, nested_eq_ok_iff] at h
    obtain ⟨hdepth, js, hjs, rfl⟩ := h
    exact isPlainAt_array_iff.mpr ⟨hdepth, isPlainAt_toPlainItems (depth + 1) hdepth items js hjs⟩
  | mapping entries, j, h => by
    rw [toPlainAt, nested_eq_ok_iff] at h
    obtain ⟨hdepth, members, hmembers, rfl⟩ := h
    exact isPlainAt_object_iff.mpr ⟨hdepth,
      isPlainAt_toPlainEntries (depth + 1) hdepth entries [] members hmembers .nil (by simp)⟩
  | knot, j, h => by cases h

/-- The plain forms of some documents are plain. -/
theorem isPlainAt_toPlainItems (depth : Nat) (room : depth ≤ plainDepth) :
    (items : List Document) → (js : List Json) → toPlainItems depth items = .ok js →
      ∀ j ∈ js, j.IsPlainAt depth
  | [], js, h, j, hj => by cases h; cases hj
  | item :: items, js, h, j, hj => by
    simp only [toPlainItems, bind_eq_ok_iff, pure, Except.pure, Except.ok.injEq] at h
    obtain ⟨first, hfirst, rest, hrest, rfl⟩ := h
    rcases List.mem_cons.mp hj with rfl | hj
    · exact isPlainAt_toPlainAt depth room item j hfirst
    · exact isPlainAt_toPlainItems depth room items rest hrest j hj

/-- The plain forms of some entries are plain members, and no key is repeated. -/
theorem isPlainAt_toPlainEntries (depth : Nat) (room : depth ≤ plainDepth) :
    (entries : List (Document × Document)) → (found members : List (String × Json)) →
      toPlainEntries depth found entries = .ok members → (found.map (·.1)).Nodup →
      (∀ member ∈ found, member.2.IsPlainAt depth) →
      (members.map (·.1)).Nodup ∧ ∀ member ∈ members, member.2.IsPlainAt depth
  | [], found, members, h, distinct, hfound => by
    cases h
    exact ⟨distinct, hfound⟩
  | (key, value) :: entries, found, members, h, distinct, hfound => by
    simp only [toPlainEntries, bind_eq_ok_iff] at h
    obtain ⟨name, _, plain, hplain, hrest⟩ := h
    exact isPlainAt_toPlainEntries depth room entries _ members hrest (nodup_setMember distinct)
      (forall_mem_setMember (isPlainAt_toPlainAt depth room value plain hplain) hfound)

end

/-! ### Plain values are their own plain forms -/

lemma toPlainItems_ofItems {items : List Json}
    (h : ∀ item ∈ items, toPlainAt depth (ofJson item) = .ok item) :
    toPlainItems depth (ofItems items) = .ok items := by
  induction items with
  | nil => rfl
  | cons item items ih =>
    rw [ofItems, toPlainItems, h item (by simp), ih fun other hother => h other (by simp [hother])]
    rfl

lemma toPlainEntries_ofMembers {found members : List (String × Json)}
    (h : ∀ member ∈ members, toPlainAt depth (ofJson member.2) = .ok member.2)
    (distinct : ((found ++ members).map (·.1)).Nodup) :
    toPlainEntries depth found (ofMembers members) = .ok (found ++ members) := by
  induction members generalizing found with
  | nil => simp [ofMembers, toPlainEntries]
  | cons member members ih =>
    obtain ⟨key, value⟩ := member
    have hkey : key ∉ found.map (·.1) := by
      rw [List.map_append, List.nodup_append] at distinct
      exact fun hmem => distinct.2.2 key hmem key (by simp) rfl
    have hvalue := h (key, value) (by simp)
    have hrest := @ih (found ++ [(key, value)])
      (fun other hother => h other (by simp [hother])) (by simpa using distinct)
    simp only [ofMembers, toPlainEntries, keyText, hvalue, bind, Except.bind,
      setMember_of_not_mem hkey, hrest]
    simp

/-- **A plain value is the plain form of itself.** -/
theorem toPlainAt_ofJson (plain : j.IsPlainAt depth) : toPlainAt depth (ofJson j) = .ok j := by
  induction j using Json.ind generalizing depth with
  | null | bool | int | string => rfl
  | float x => rw [ofJson, toPlainAt, if_pos (isStrict_float_iff.mp plain.1)]
  | array items ih =>
    rw [isPlainAt_array_iff] at plain
    rw [ofJson, toPlainAt, if_neg (Nat.not_le.mpr plain.1),
      toPlainItems_ofItems fun item hitem => ih item hitem (plain.2 item hitem)]
    rfl
  | object members ih =>
    rw [isPlainAt_object_iff] at plain
    have hmembers : toPlainEntries (depth + 1) [] (ofMembers members) = .ok members :=
      @toPlainEntries_ofMembers _ [] members
        (fun member hmember => ih member hmember (plain.2.2 member hmember)) plain.2.1
    rw [ofJson, toPlainAt, if_neg (Nat.not_le.mpr plain.1), hmembers]
    rfl

lemma exists_of_toPlainItems {items js : List Json}
    (h : toPlainItems depth (ofItems items) = .ok js) :
    ∀ item ∈ items, ∃ out, toPlainAt depth (ofJson item) = .ok out := by
  induction items generalizing js with
  | nil => simp
  | cons first items ih =>
    simp only [ofItems, toPlainItems, bind_eq_ok_iff] at h
    obtain ⟨out, hfirst, _, hrest, -⟩ := h
    exact List.forall_mem_cons.mpr ⟨⟨out, hfirst⟩, ih hrest⟩

lemma exists_of_toPlainEntries {found members out : List (String × Json)}
    (h : toPlainEntries depth found (ofMembers members) = .ok out) :
    ∀ member ∈ members, ∃ out, toPlainAt depth (ofJson member.2) = .ok out := by
  induction members generalizing found with
  | nil => simp
  | cons first members ih =>
    simp only [ofMembers, toPlainEntries, bind_eq_ok_iff] at h
    obtain ⟨name, -, plain, hfirst, hrest⟩ := h
    exact List.forall_mem_cons.mpr ⟨⟨plain, hfirst⟩, ih hrest⟩

/-- A JSON value nested too deeply has no plain form. -/
lemma add_nesting_le_of_toPlainAt {out : Json} (room : depth ≤ plainDepth)
    (h : toPlainAt depth (ofJson j) = .ok out) : depth + j.nesting ≤ plainDepth := by
  induction j using Json.ind generalizing depth out with
  | null | bool | int | float | string => exact room
  | array items ih =>
    rw [ofJson, toPlainAt, nested_eq_ok_iff] at h
    obtain ⟨hdepth, js, hjs, -⟩ := h
    refine add_nesting_array_le_iff.mpr ⟨hdepth, fun item hitem => ?_⟩
    obtain ⟨out, hout⟩ := exists_of_toPlainItems hjs item hitem
    exact ih item hitem hdepth hout
  | object members ih =>
    rw [ofJson, toPlainAt, nested_eq_ok_iff] at h
    obtain ⟨hdepth, found, hfound, -⟩ := h
    refine add_nesting_object_le_iff.mpr ⟨hdepth, fun member hmember => ?_⟩
    obtain ⟨out, hout⟩ := exists_of_toPlainEntries hfound member hmember
    exact ih member hmember hdepth hout

/-! ### Free values that are read back -/

/-- A document is a JSON value. -/
def IsJson (d : Document) : Prop :=
  ∃ j : Json, j.IsStrict ∧ d = ofJson j

/-- A document is a JSON value that nests no deeper than plain forms do. -/
def IsPlain (d : Document) : Prop :=
  ∃ j : Json, j.IsStrict ∧ j.nesting ≤ plainDepth ∧ d = ofJson j

/-- A document is what the plain form of another is read as. -/
def IsPlainOf (read d : Document) : Prop :=
  ∃ j, toPlain d = .ok j ∧ read = ofJson j

variable {d read : Document}

lemma IsPlain.isJson (plain : d.IsPlain) : d.IsJson :=
  let ⟨j, strict, _, hd⟩ := plain
  ⟨j, strict, hd⟩

/-- A plain document has itself as its plain form. -/
lemma IsPlain.isPlainOf (plain : d.IsPlain) : d.IsPlainOf d := by
  obtain ⟨j, strict, shallow, rfl⟩ := plain
  exact ⟨j, toPlainAt_ofJson ⟨strict, by omega⟩, rfl⟩

lemma IsPlain.exists_toPlain (plain : d.IsPlain) : ∃ j, d.toPlain = .ok j :=
  let ⟨j, hj, _⟩ := plain.isPlainOf
  ⟨j, hj⟩

/-- **A plain form has itself as its plain form.** -/
lemma IsPlainOf.toPlain_eq (h : read.IsPlainOf d) : toPlain read = toPlain d := by
  obtain ⟨j, hj, rfl⟩ := h
  rw [hj]
  exact toPlainAt_ofJson (isPlainAt_toPlainAt 0 (Nat.zero_le _) d j hj)

/-- A JSON value with a plain form is plain. -/
lemma IsPlainOf.isPlain (h : read.IsPlainOf d) (json : d.IsJson) : d.IsPlain := by
  obtain ⟨out, hout, -⟩ := h
  obtain ⟨j, strict, rfl⟩ := json
  have hnesting := add_nesting_le_of_toPlainAt (Nat.zero_le _) hout
  exact ⟨j, strict, by omega, rfl⟩

/-- A JSON value is read back from its plain form. -/
lemma IsPlainOf.eq (h : read.IsPlainOf d) (json : d.IsJson) : read = d := by
  obtain ⟨out, hout, rfl⟩ := h
  obtain ⟨j, hj, rfl⟩ := (IsPlainOf.isPlain ⟨out, hout, rfl⟩ json).isPlainOf
  obtain rfl : out = j := by rw [hj] at hout; exact (Except.ok.inj hout).symm
  rfl

/-! ### Mappings whose keys are texts -/

/-- The members of the plain form of a mapping whose keys are texts. -/
lemma toPlainRecord_eq_ok_iff {entries : List (String × Document)} {j : Json} :
    toPlainRecord entries = .ok j ↔ ∃ members, j = .object members ∧
      List.Forall₂ (fun entry member => member.1 = entry.1 ∧ toPlain entry.2 = .ok member.2)
        entries members := by
  rw [toPlainRecord, map_eq_ok_iff]
  simp only [mapM_eq_ok_iff, map_eq_ok_iff]
  have hsame : ∀ (entry : String × Document) (member : String × Json),
      (∃ plain, toPlain entry.2 = .ok plain ∧ (entry.1, plain) = member) ↔
        member.1 = entry.1 ∧ toPlain entry.2 = .ok member.2 := by
    rintro entry ⟨key, value⟩
    simp [and_comm, eq_comm]
  simp only [hsame]
  exact ⟨fun ⟨members, h, hj⟩ => ⟨members, hj.symm, h⟩, fun ⟨members, hj, h⟩ => ⟨members, h, hj.symm⟩⟩

/-- The plain form of a mapping whose keys are texts is legible when no key is
repeated. -/
lemma legible_toPlainRecord {entries : List (String × Document)} {j : Json}
    (h : toPlainRecord entries = .ok j) (distinct : (entries.map (·.1)).Nodup)
    (room : outside + 1 + plainDepth ≤ depthLimit) (fit : j.integersFit = true) :
    j.Legible outside := by
  obtain ⟨members, rfl, hmembers⟩ := toPlainRecord_eq_ok_iff.mp h
  have hkeys : members.map (·.1) = entries.map (·.1) := by
    clear h distinct fit
    induction hmembers with
    | nil => rfl
    | cons hfirst _ ih => simp [hfirst.1, ih]
  refine legible_object (by omega) fit (hkeys ▸ distinct) fun member hmember hfit => ?_
  obtain ⟨entry, -, -, hplain⟩ : ∃ entry ∈ entries, member.1 = entry.1 ∧
      toPlain entry.2 = .ok member.2 := by
    clear h distinct fit hkeys
    induction hmembers with
    | nil => cases hmember
    | cons hfirst _ ih =>
      rcases List.mem_cons.mp hmember with rfl | hmember
      · exact ⟨_, by simp, hfirst⟩
      · obtain ⟨entry, hentry, hboth⟩ := ih hmember
        exact ⟨entry, by simp [hentry], hboth⟩
  exact (isPlainAt_toPlainAt 0 (Nat.zero_le _) entry.2 member.2 hplain).legible room hfit

end Document

end Scaffold
