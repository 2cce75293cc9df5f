import Scaffold.Proofs.Shape.Decoding

/-!
Values under names.

The keys of a mapping are read as names: texts as they are, and byte strings as the texts
they encode. So two keys may come to one name, and the later value counts. A mapping whose
keys are distinct texts is taken over as it is.

* `checkItems_eq_ok_iff`: a list is read item by item.
* `named`: the values of a mapping under the names of their keys.
* `lookup_putEntry`: the value of a name after another has been put.
* `TakesOver`, `takesOver_dictOf`: what a mapping is read as.
-/

namespace Scaffold

open Document Shape Checked

namespace Shape

variable {α : Type}

/-- A list is read when each of its items is. -/
lemma checkItems_eq_ok_iff {decode : Decoder α} {items : List Document} {read : List α}
    {i : Nat} : checkItems decode i items = .ok read ↔
      List.Forall₂ (fun item a => decode item = .ok a) items read := by
  induction items generalizing i read with
  | nil => simp [checkItems, eq_comm]
  | cons item items ih =>
    rw [checkItems, both_eq_ok_iff]
    simp only [within_eq_ok_iff, ih]
    constructor
    · rintro ⟨a, rest, ha, hrest, rfl⟩
      exact .cons ha hrest
    · intro h
      obtain ⟨a, rest, ha, hrest, rfl⟩ := List.forall₂_cons_left_iff.mp h
      exact ⟨a, rest, ha, hrest, rfl⟩

/-! ### Lists of named values -/

variable {name other : String} {value : α} {values : List (String × α)}

lemma lookup_cons_eq : ((name, value) :: values).lookup other =
    if other = name then some value else values.lookup other := by
  rw [List.lookup_cons]
  split
  · next h => rw [if_pos (by simpa using h)]
  · next h => rw [if_neg (by simpa using h)]

/-- The value of a name that is not repeated. -/
lemma lookup_eq_some_iff_mem (distinct : (values.map (·.1)).Nodup) :
    values.lookup name = some value ↔ (name, value) ∈ values := by
  refine ⟨mem_of_lookup, fun h => ?_⟩
  obtain ⟨before, after, rfl⟩ := List.mem_iff_append.mp h
  refine List.lookup_eq_some_iff.mpr ⟨before, after, rfl, fun entry hentry => ?_⟩
  rw [List.map_append, List.nodup_append] at distinct
  simpa using Ne.symm (distinct.2.2 entry.1 (List.mem_map_of_mem hentry) name (by simp))

lemma lookup_eq_none_iff_not_mem : values.lookup name = none ↔ name ∉ values.map (·.1) := by
  rw [List.lookup_eq_none_iff, List.mem_map, not_exists]
  refine forall_congr' fun entry => ?_
  rw [not_and, bne_iff_ne, ne_comm]

/-- The value of a name after another has been put. -/
lemma lookup_putEntry :
    (putEntry name value values).lookup other =
      if other = name then some value else values.lookup other := by
  induction values with
  | nil => exact lookup_cons_eq
  | cons entry values ih =>
    obtain ⟨first, value'⟩ := entry
    rw [putEntry]
    by_cases hfirst : first = name
    · rw [if_pos (by simpa using hfirst), lookup_cons_eq, lookup_cons_eq, hfirst]
      split_ifs <;> rfl
    · rw [if_neg (by simpa using hfirst), lookup_cons_eq, lookup_cons_eq, ih]
      by_cases h : other = first
      · rw [if_pos h, if_pos h, if_neg (h ▸ hfirst)]
      · rw [if_neg h, if_neg h]

/-! ### Names -/

/-- The values of a mapping under the names of their keys, as far as these have one. -/
def named (entries : List (Document × Document)) : Named :=
  entries.filterMap fun entry => (text entry.1).toOption.map fun name => (name, entry.2)

lemma mem_named_iff {entries : List (Document × Document)} {value : Document} :
    (name, value) ∈ named entries ↔ ∃ key, (key, value) ∈ entries ∧ text key = .ok name := by
  rw [named, List.mem_filterMap]
  constructor
  · rintro ⟨⟨key, value⟩, hentry, h⟩
    obtain ⟨name, hname, heq⟩ := Option.map_eq_some_iff.mp h
    cases heq
    exact ⟨key, hentry, toOption_eq_some_iff.mp hname⟩
  · rintro ⟨key, hentry, hkey⟩
    exact ⟨(key, value), hentry, by rw [hkey]; rfl⟩

lemma named_cons {entry : Document × Document} {entries : List (Document × Document)}
    (h : text entry.1 = .ok name) :
    named (entry :: entries) = (name, entry.2) :: named entries := by
  rw [named, List.filterMap_cons, h]
  rfl

lemma named_append (entries others : List (Document × Document)) :
    named (entries ++ others) = named entries ++ named others :=
  List.filterMap_append

/-- A key has a name exactly if it is read as a text. -/
lemma checkKey_eq_ok_iff {key : Document} {name : String} :
    checkKey key = .ok name ↔ text key = .ok name := by
  rw [checkKey, within_eq_ok_iff, within_eq_ok_iff]

/-! ### What a mapping is read as -/

/-- Values are those of a mapping under the names of its keys. -/
structure TakesOver (entries : List (Document × Document)) (values : Named) : Prop where
  /-- Every key has a name. -/
  names : ∀ entry ∈ entries, ∃ name, text entry.1 = .ok name
  /-- No name is repeated. -/
  distinct : (values.map (·.1)).Nodup
  /-- Of several values under one name the last one counts. -/
  lookup : ∀ name, values.lookup name = (named entries).reverse.lookup name
  /-- When the keys are distinct texts, the mapping is taken over as it is. -/
  same : ∀ own : Named, entries = own.map (fun value => (.text value.1, value.2)) →
    (own.map (·.1)).Nodup → values = own

/-- The values that are there already and those of further entries. -/
lemma lookup_checkEntries {entries : List (Document × Document)} {found values : Named}
    (h : checkEntries anything found entries = .ok values) :
    (∀ entry ∈ entries, ∃ name, text entry.1 = .ok name) ∧
      ∀ name, values.lookup name =
        ((named entries).reverse.lookup name).or (found.lookup name) := by
  induction entries generalizing found with
  | nil =>
    cases h
    exact ⟨by simp, fun name => rfl⟩
  | cons entry entries ih =>
    obtain ⟨key, value⟩ := entry
    rw [checkEntries] at h
    split at h
    · next first a hkey hvalue =>
      rw [checkKey_eq_ok_iff] at hkey
      cases within_eq_ok_iff.mp hvalue
      obtain ⟨hnames, hlookup⟩ := ih h
      refine ⟨List.forall_mem_cons.mpr ⟨⟨first, hkey⟩, hnames⟩, fun name => ?_⟩
      rw [hlookup name, named_cons hkey, List.reverse_cons, List.lookup_append, Option.or_assoc,
        lookup_putEntry, lookup_cons_eq]
      by_cases heq : name = first <;> simp [heq]
    · cases h

/-- **A mapping is taken over** under the names of its keys. -/
lemma takesOver_dictOf {entries : List (Document × Document)} {values : Named}
    (h : dictOf anything (.mapping entries) = .ok values) : TakesOver entries values := by
  obtain ⟨hnames, hlookup⟩ := lookup_checkEntries h
  refine ⟨hnames, nodup_dictOf h, fun name => ?_, ?_⟩
  · rw [hlookup name]
    simp
  · rintro own rfl distinct
    have hown := @checkEntries_of_texts own [] distinct
    exact Except.ok.inj (h.symm.trans hown)

namespace TakesOver

variable {entries : List (Document × Document)} {values : Named}

/-- Every value was there. -/
lemma exists_of_mem (h : TakesOver entries values) {value : String × Document}
    (hvalue : value ∈ values) : ∃ key, (key, value.2) ∈ entries ∧ text key = .ok value.1 := by
  have hlookup := (lookup_eq_some_iff_mem h.distinct).mpr hvalue
  rw [h.lookup] at hlookup
  exact mem_named_iff.mp (List.mem_reverse.mp (mem_of_lookup hlookup))

end TakesOver

end Shape

end Scaffold
