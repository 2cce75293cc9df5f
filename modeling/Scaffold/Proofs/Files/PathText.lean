import Mathlib.Tactic.Common
import Scaffold.Files.Path

/-!
Paths and their texts.

A path that has been read can be written and read again: the anchor and the names
are those that were written.

* `Path.IsWritten`: paths that can be read; `ofText_isWritten`, `IsWritten.child`,
  `IsWritten.parent`: how they arise.
* `pieces_joinWith`: cutting undoes joining; `toList_intercalate`: what joins texts.
* `ofText_toText`: reading undoes writing.
-/

namespace Scaffold.Text

variable {α : Type} {p : α → Bool}

/-- A list without separators is its only piece. -/
lemma pieces_of_forall {as : List α} (h : ∀ a ∈ as, p a = false) : pieces p as = [as] := by
  induction as with
  | nil => rfl
  | cons a as ih =>
    rw [pieces, if_neg (by simp [h a (by simp)]), ih fun b hb => h b (by simp [hb])]

/-- The first piece ends at the first separator. -/
lemma pieces_append_cons {as : List α} (h : ∀ a ∈ as, p a = false) {s : α} (hs : p s = true)
    (rest : List α) : pieces p (as ++ s :: rest) = as :: pieces p rest := by
  induction as with
  | nil => rw [List.nil_append, pieces, if_pos hs]
  | cons a as ih =>
    rw [List.cons_append, pieces, if_neg (by simp [h a (by simp)]),
      ih fun b hb => h b (by simp [hb])]

/-- Cutting undoes joining when no piece holds the separator. -/
lemma pieces_joinWith {s : α} (hs : p s = true) {parts : List (List α)} (ne : parts ≠ [])
    (h : ∀ part ∈ parts, ∀ a ∈ part, p a = false) : pieces p (joinWith [s] parts) = parts := by
  induction parts with
  | nil => exact absurd rfl ne
  | cons part parts ih =>
    have hpart := h part (by simp)
    cases parts with
    | nil => rw [joinWith, pieces_of_forall hpart]
    | cons next parts =>
      rw [joinWith, List.append_assoc, List.singleton_append, pieces_append_cons hpart hs,
        ih (by simp) fun part' hpart' => h part' (by simp [hpart'])]
      simp

/-- The characters of texts with a character between them. -/
lemma toList_intercalate (c : Char) (texts : List String) :
    ((String.singleton c).intercalate texts).toList = joinWith [c] (texts.map String.toList) := by
  rw [String.toList_intercalate, String.toList_singleton]
  generalize texts.map String.toList = parts
  induction parts with
  | nil => rfl
  | cons part parts ih =>
    cases parts with
    | nil => simp [joinWith]
    | cons next parts =>
      rw [List.intercalate_cons_cons, ih]
      rfl

end Scaffold.Text

namespace Scaffold.Files.Path

open Text

/-- A name that can stand between slashes. -/
def IsName (name : String) : Prop :=
  name ≠ "" ∧ name ≠ "." ∧ '/' ∉ name.toList

/-- A path that can be read. -/
structure IsWritten (path : Path) : Prop where
  /-- The anchor is one of three. -/
  anchor : path.anchor = "" ∨ path.anchor = "/" ∨ path.anchor = "//"
  /-- Every name can stand between slashes. -/
  names : ∀ name ∈ path.names, IsName name

/-- What is read can be read. -/
lemma ofText_isWritten (s : String) : (ofText s).IsWritten where
  anchor := by
    rw [ofText, anchorOf]
    split <;> simp
  names name hname := by
    rw [ofText, namesOf, List.mem_filter, List.mem_map] at hname
    obtain ⟨⟨piece, hpiece, rfl⟩, hne⟩ := hname
    rw [Bool.and_eq_true, bne_iff_ne, bne_iff_ne] at hne
    refine ⟨hne.1, hne.2, fun hslash => ?_⟩
    rw [String.toList_ofList] at hslash
    simpa using forall_mem_pieces hpiece '/' hslash

lemma IsWritten.join {base path : Path} (hbase : base.IsWritten) (hpath : path.IsWritten) :
    (base.join path).IsWritten := by
  rw [Path.join]
  split
  · exact hpath
  · refine ⟨hbase.anchor, fun name hname => ?_⟩
    rcases List.mem_append.mp hname with h | h
    · exact hbase.names name h
    · exact hpath.names name h

lemma IsWritten.child {base : Path} (hbase : base.IsWritten) (s : String) :
    (base.child s).IsWritten :=
  hbase.join (ofText_isWritten s)

lemma IsWritten.parent {path : Path} (hpath : path.IsWritten) : path.parent.IsWritten :=
  ⟨hpath.anchor, fun name hname => hpath.names name (List.dropLast_subset _ hname)⟩

/-- The characters of names with slashes between them. -/
lemma toList_joinNames (names : List String) :
    (joinNames names).toList = joinWith ['/'] (names.map String.toList) :=
  toList_intercalate '/' names

/-- A slash in front adds no name. -/
lemma namesOf_cons_slash (cs : List Char) : namesOf ('/' :: cs) = namesOf cs := by
  simp [namesOf, pieces]

/-- The names between slashes are the names that were joined. -/
lemma namesOf_joinWith {names : List String} (h : ∀ name ∈ names, IsName name) :
    namesOf (joinWith ['/'] (names.map String.toList)) = names := by
  by_cases hnil : names = []
  · subst hnil
    rfl
  · have hparts : ∀ part ∈ names.map String.toList, ∀ c ∈ part, (c == '/') = false := by
      intro part hpart c hc
      obtain ⟨name, hname, rfl⟩ := List.mem_map.mp hpart
      have hslash := (h name hname).2.2
      simp only [beq_eq_false_iff_ne]
      rintro rfl
      exact hslash hc
    rw [namesOf, pieces_joinWith (by simp) (by simpa using hnil) hparts, List.map_map]
    have hmap : names.map (String.ofList ∘ String.toList) = names := by simp
    rw [hmap, List.filter_eq_self]
    intro name hname
    simpa using ⟨(h name hname).1, (h name hname).2.1⟩

/-- Joined names do not start with a slash. -/
lemma takeWhile_joinWith {names : List String} (h : ∀ name ∈ names, IsName name) :
    (joinWith ['/'] (names.map String.toList)).takeWhile (· == '/') = [] := by
  cases names with
  | nil => rfl
  | cons name names =>
    obtain ⟨hempty, -, hslash⟩ := h name (by simp)
    cases hcs : name.toList with
    | nil => exact absurd (String.toList_eq_nil_iff.mp hcs) hempty
    | cons c cs =>
      have hc : c ≠ '/' := by
        rintro rfl
        exact hslash (by simp [hcs])
      cases names <;> simp [joinWith, hcs, hc]

/-- Reading undoes writing. -/
lemma ofText_toText {path : Path} (h : path.IsWritten) : ofText path.toText = path := by
  obtain ⟨anchor, names⟩ := path
  have hnames := namesOf_joinWith h.names
  have htake := takeWhile_joinWith h.names
  rw [toText]
  split_ifs with hdot
  · rw [Bool.and_eq_true, String.isEmpty_iff, List.isEmpty_iff] at hdot
    obtain ⟨rfl, rfl⟩ := hdot
    decide +kernel
  · have hanchor := h.anchor
    simp only at hnames htake hanchor
    rw [ofText, String.toList_append, toList_joinNames, anchorOf]
    rcases hanchor with rfl | rfl | rfl
    · simp [hnames, htake]
    · simp [namesOf_cons_slash, hnames, htake]
    · simp [namesOf_cons_slash, hnames, htake]

/-- A name is a path of its own. -/
lemma ofText_name {name : String} (h : IsName name) : ofText name = ⟨"", [name]⟩ := by
  have hpath : IsWritten ⟨"", [name]⟩ := ⟨.inl rfl, by simpa using h⟩
  have htext : toText ⟨"", [name]⟩ = name := by simp [toText, joinNames]
  rw [← ofText_toText hpath, htext]

/-- A name seen from a base. -/
lemma child_name {name : String} (h : IsName name) (base : Path) :
    base.child name = ⟨base.anchor, base.names ++ [name]⟩ := by
  rw [child, ofText_name h, join]
  simp [isAbsolute]

/-- The base of a name is its parent. -/
@[simp] lemma parent_append (anchor : String) (names : List String) (name : String) :
    parent ⟨anchor, names ++ [name]⟩ = ⟨anchor, names⟩ := by
  simp [parent]

end Scaffold.Files.Path
