import Scaffold.Proofs.Files.PathText
import Scaffold.Proofs.Text.Casing

/-!
Texts of several names.

* `joinWith_cons`, `joinWith_append`: names before and behind others.
* `mem_joinWith`: what a text of several names is made of.
* `pieces_append_separator`, `exists_pieces_append`, `cutLast_append`: cutting a text in two, and
  the last piece of a longer text; `pieces_of_forall₂`: which separators are used does not matter.
* `intercalate_pieces`, `pieces_intercalate`: cutting undoes joining, and joining undoes cutting.
* `Path.namesBetween`: the names between slashes; `namesBetween_append`, `joinNames_namesBetween`,
  `namesBetween_joinNames`: cutting undoes joining, and joining undoes cutting.
* `startsWith_joinNames`, `lowered_joinNames`: the first of several names, and their lower case.
-/

namespace Scaffold.Text

variable {α : Type} {separator part : List α} {parts : List (List α)}

lemma joinWith_cons (ne : parts ≠ []) :
    joinWith separator (part :: parts) = part ++ separator ++ joinWith separator parts := by
  cases parts with
  | nil => exact absurd rfl ne
  | cons next parts => rfl

lemma joinWith_append {more : List (List α)} (ne : parts ≠ []) (ne' : more ≠ []) :
    joinWith separator (parts ++ more) =
      joinWith separator parts ++ separator ++ joinWith separator more := by
  induction parts with
  | nil => exact absurd rfl ne
  | cons first parts ih =>
    cases parts with
    | nil => exact joinWith_cons ne'
    | cons next parts =>
      calc joinWith separator (first :: (next :: parts ++ more))
          = first ++ separator ++ joinWith separator (next :: parts ++ more) :=
            joinWith_cons (by simp)
        _ = first ++ separator ++
              (joinWith separator (next :: parts) ++ separator ++ joinWith separator more) := by
            rw [ih (by simp)]
        _ = joinWith separator (first :: next :: parts) ++ separator ++ joinWith separator more := by
            rw [joinWith_cons (List.cons_ne_nil next parts)]
            simp only [List.append_assoc]

lemma mem_joinWith {a : α} (h : a ∈ joinWith separator parts) :
    a ∈ separator ∨ ∃ part ∈ parts, a ∈ part := by
  induction parts with
  | nil => cases h
  | cons part parts ih =>
    by_cases hnil : parts = []
    · subst hnil
      exact .inr ⟨part, by simp, h⟩
    · rw [joinWith_cons hnil, List.append_assoc, List.mem_append, List.mem_append] at h
      rcases h with h | h | h
      · exact .inr ⟨part, by simp, h⟩
      · exact .inl h
      · exact (ih h).imp_right fun ⟨other, hother, ha⟩ => ⟨other, by simp [hother], ha⟩

/-- A list is cut at a separator into its pieces on either side. -/
lemma pieces_append_separator {p : α → Bool} {a : α} (ha : p a = true) (as bs : List α) :
    pieces p (as ++ a :: bs) = pieces p as ++ pieces p bs := by
  induction as with
  | nil =>
    have hcut : pieces p (a :: bs) = [] :: pieces p bs := by rw [pieces, if_pos ha]
    rw [List.nil_append, hcut, pieces, List.singleton_append]
  | cons c as ih =>
    rw [List.cons_append, pieces, pieces, ih]
    split_ifs
    · rfl
    · obtain ⟨piece, rest, hcons⟩ := List.exists_cons_of_ne_nil (pieces_ne_nil p as)
      rw [hcons]
      rfl

/-- What is added without separators lengthens the last piece. -/
lemma exists_pieces_append {p : α → Bool} (as : List α) {bs : List α} (h : ∀ b ∈ bs, p b = false) :
    ∃ front last, pieces p as = front ++ [last] ∧
      pieces p (as ++ bs) = front ++ [last ++ bs] := by
  induction as with
  | nil => exact ⟨[], [], rfl, by rw [List.nil_append, pieces_of_forall h]; rfl⟩
  | cons a as ih =>
    obtain ⟨front, last, hpieces, happend⟩ := ih
    rw [List.cons_append, pieces, pieces, hpieces, happend]
    split_ifs
    · exact ⟨[] :: front, last, rfl, rfl⟩
    · cases front with
      | nil => exact ⟨[], a :: last, rfl, rfl⟩
      | cons piece front => exact ⟨(a :: piece) :: front, last, rfl, rfl⟩

/-- Lists that differ in their separators only have the same pieces. -/
lemma pieces_of_forall₂ {p : α → Bool} {as bs : List α}
    (h : List.Forall₂ (fun a b => a = b ∨ p a = true ∧ p b = true) as bs) :
    pieces p as = pieces p bs := by
  induction h with
  | nil => rfl
  | cons hab _ ih =>
    rw [pieces, pieces, ih]
    rcases hab with rfl | ⟨ha, hb⟩
    · rfl
    · rw [if_pos ha, if_pos hb]

/-- The last separator is the one that is added last. -/
lemma cutLast_append {p : α → Bool} {as bs : List α} {a : α} (ha : p a = true)
    (h : ∀ b ∈ bs, p b = false) : cutLast p (as ++ a :: bs) = some (as, bs) := by
  have hnone : cutLast p bs = none := by
    induction bs with
    | nil => rfl
    | cons b bs ih =>
      rw [cutLast, ih fun c hc => h c (List.mem_cons_of_mem b hc)]
      simp [h b (by simp)]
  induction as with
  | nil =>
    rw [List.nil_append, cutLast, hnone]
    simp [ha]
  | cons c as ih => rw [List.cons_append, cutLast, ih]

/-- Joining undoes cutting: the texts between the occurrences of a character. -/
lemma intercalate_pieces (c : Char) (s : String) :
    (String.singleton c).intercalate ((pieces (· == c) s.toList).map String.ofList) = s := by
  have hmap : ((pieces (· == c) s.toList).map String.ofList).map String.toList =
      pieces (· == c) s.toList := by
    rw [List.map_map]
    simp
  rw [← String.toList_inj, toList_intercalate, hmap, joinWith_pieces]

/-- Cutting undoes joining: texts without the character. -/
lemma pieces_intercalate {c : Char} {texts : List String} (ne : texts ≠ [])
    (free : ∀ text ∈ texts, c ∉ text.toList) :
    (pieces (· == c) ((String.singleton c).intercalate texts).toList).map String.ofList =
      texts := by
  have hparts : ∀ part ∈ texts.map String.toList, ∀ a ∈ part, (a == c) = false := by
    intro part hpart a ha
    obtain ⟨text, htext, rfl⟩ := List.mem_map.mp hpart
    exact beq_eq_false_iff_ne.mpr fun heq => free text htext (heq ▸ ha)
  rw [toList_intercalate, pieces_joinWith (by simp) (by simpa using ne) hparts, List.map_map]
  simp

/-- A character stands in none of the texts between its occurrences. -/
lemma notMem_of_pieces {c : Char} {s text : String}
    (h : text ∈ (pieces (· == c) s.toList).map String.ofList) : c ∉ text.toList := by
  obtain ⟨piece, hpiece, rfl⟩ := List.mem_map.mp h
  intro hmem
  rw [String.toList_ofList] at hmem
  simpa using forall_mem_pieces hpiece c hmem

lemma toList_append_slash (s t : String) :
    (s ++ "/" ++ t).toList = s.toList ++ '/' :: t.toList := by
  have hslash : "/".toList = ['/'] := rfl
  rw [String.toList_append, String.toList_append, hslash, List.append_assoc, List.singleton_append]

lemma lowered_append_slash (s t : String) :
    lowered (s ++ "/" ++ t) = lowered s ++ "/" ++ lowered t := by
  rw [← String.toList_inj, toList_append_slash, lowered, toList_append_slash, lower_append_slash]
  simp [lowered]

end Scaffold.Text

namespace Scaffold.Files.Path

open Text

/-- The names between the slashes of a text, whatever they are. -/
def namesBetween (s : String) : List String :=
  (pieces (· == '/') s.toList).map String.ofList

lemma slash_notMem_of_namesBetween {s name : String} (h : name ∈ namesBetween s) :
    '/' ∉ name.toList :=
  notMem_of_pieces h

lemma namesBetween_ne_nil (s : String) : namesBetween s ≠ [] := by
  rw [namesBetween, Ne, List.map_eq_nil_iff]
  exact pieces_ne_nil _ _

/-- A text is cut at a slash. -/
lemma namesBetween_append (s t : String) :
    namesBetween (s ++ "/" ++ t) = namesBetween s ++ namesBetween t := by
  rw [namesBetween, toList_append_slash, pieces_append_separator (by simp), List.map_append]
  rfl

/-- What is added without slashes lengthens the last name. -/
lemma exists_namesBetween_append (s : String) {suffix : String} (slash : '/' ∉ suffix.toList) :
    ∃ front last, namesBetween s = front ++ [last] ∧
      namesBetween (s ++ suffix) = front ++ [last ++ suffix] := by
  have hsuffix : ∀ c ∈ suffix.toList, (c == '/') = false := by
    intro c hc
    exact beq_eq_false_iff_ne.mpr fun heq => slash (heq ▸ hc)
  obtain ⟨front, last, hpieces, happend⟩ := exists_pieces_append s.toList hsuffix
  refine ⟨front.map String.ofList, String.ofList last, ?_, ?_⟩
  · rw [namesBetween, hpieces, List.map_append, List.map_singleton]
  · rw [namesBetween, String.toList_append, happend, List.map_append, List.map_singleton,
      String.ofList_append, String.ofList_toList]

/-- Joining undoes cutting. -/
lemma joinNames_namesBetween (s : String) : joinNames (namesBetween s) = s :=
  intercalate_pieces '/' s

/-- Cutting undoes joining. -/
lemma namesBetween_joinNames {names : List String} (ne : names ≠ [])
    (slash : ∀ name ∈ names, '/' ∉ name.toList) : namesBetween (joinNames names) = names :=
  pieces_intercalate ne slash

@[simp] lemma joinNames_singleton (name : String) : joinNames [name] = name := by
  simp [joinNames]

lemma joinNames_append {names more : List String} (ne : names ≠ []) (ne' : more ≠ []) :
    joinNames (names ++ more) = joinNames names ++ "/" ++ joinNames more := by
  rw [← String.toList_inj, toList_joinNames, List.map_append,
    joinWith_append (by simpa using ne) (by simpa using ne')]
  simp [toList_joinNames]

/-- A path is read from the names between the slashes of its text. -/
lemma names_ofText (s : String) :
    (ofText s).names = (namesBetween s).filter fun name => name != "" && name != "." := rfl

/-- No name is left out that can stand between slashes. -/
lemma filter_names {names : List String} (h : ∀ name ∈ names, IsName name) :
    (names.filter fun name => name != "" && name != ".") = names := by
  refine List.filter_eq_self.mpr fun name hname => ?_
  simp [(h name hname).1, (h name hname).2.1]

/-- A text that does not start with a slash is read from its base. -/
lemma child_of_head {text : String} (h : ∀ c ∈ text.toList.head?, c ≠ '/') (base : Path) :
    base.child text =
      ⟨base.anchor,
        base.names ++ (namesBetween text).filter fun name => name != "" && name != "."⟩ := by
  have htake : text.toList.takeWhile (· == '/') = [] := by
    cases hcs : text.toList with
    | nil => rfl
    | cons c cs => simp [h c (by rw [hcs]; rfl)]
  have hanchor : anchorOf text.toList = "" := by
    rw [anchorOf, htake]
    rfl
  rw [child, join, if_neg (by simp [isAbsolute, ofText, hanchor]), names_ofText]

/-- **Joined names start with others** and a slash exactly if they are the first ones. -/
lemma startsWith_joinNames {names directories : List String} {name : String} (ne : names ≠ [])
    (slash : ∀ name ∈ names, '/' ∉ name.toList)
    (slash' : ∀ other ∈ directories ++ [name], '/' ∉ other.toList) :
    (joinNames (directories ++ [name])).startsWith (joinNames names ++ "/") = true ↔
      names <+: directories := by
  rw [String.startsWith_string_iff]
  constructor
  · rintro ⟨rest, hrest⟩
    have htext : joinNames (directories ++ [name]) =
        joinNames names ++ "/" ++ String.ofList rest := by
      rw [← String.toList_inj, String.toList_append, String.toList_ofList, hrest]
    have hcut := congrArg namesBetween htext
    rw [namesBetween_append, namesBetween_joinNames ne slash,
      namesBetween_joinNames (by simp) slash'] at hcut
    obtain ⟨front, last, hlast⟩ :=
      (List.eq_nil_or_concat' (namesBetween (.ofList rest))).resolve_left (namesBetween_ne_nil _)
    rw [hlast, ← List.append_assoc] at hcut
    exact ⟨front, (List.append_inj' hcut rfl).1.symm⟩
  · rintro ⟨rest, rfl⟩
    rw [List.append_assoc, joinNames_append ne (by simp)]
    simp only [String.toList_append]
    exact List.prefix_append _ _

/-- The lower case of joined names is that of each of them. -/
lemma lowered_joinNames (names : List String) :
    lowered (joinNames names) = joinNames (names.map lowered) := by
  induction names with
  | nil => rfl
  | cons name names ih =>
    by_cases hnil : names = []
    · subst hnil
      rw [joinNames_singleton, List.map_singleton, joinNames_singleton]
    · rw [← List.singleton_append, joinNames_append (by simp) hnil, lowered_append_slash, ih,
        joinNames_singleton, List.map_append, joinNames_append (by simp) (by simpa using hnil),
        List.map_singleton, joinNames_singleton]

end Scaffold.Files.Path
