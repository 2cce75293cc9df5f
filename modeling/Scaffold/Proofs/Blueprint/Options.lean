import Scaffold.Blueprint.Normalize
import Scaffold.Proofs.Shape.Named

/-!
Options put over defaults.

A blueprint has all default options. What its document says about an option counts, under
whichever key it is said; other options follow.

* `Overlays`: values of a mapping that are put over others.
* `mem_put`, `put_append`: what becomes of entries when one is put among them.
* `Merged`, `exists_mergeOptions`: how defaults and options stand after one another.
* `overlays_mergeOptions`: the options that are read of them.
-/

namespace Scaffold

open Document Shape Checked

/-- Values of a mapping are put over others: where the mapping has none under a name, the
others count. -/
structure Normalize.Overlays (defaults : Named) (own : List (Document × Document))
    (values : Named) : Prop where
  /-- Every key has a name. -/
  names : ∀ entry ∈ own, ∃ name, Shape.text entry.1 = .ok name
  /-- No name is repeated. -/
  distinct : (values.map (·.1)).Nodup
  /-- Every default name is there. -/
  complete : ∀ name ∈ defaults.map (·.1), name ∈ values.map (·.1)
  /-- Where the mapping has values under a name, one of them counts. -/
  supplied : ∀ name ∈ (named own).map (·.1), ∃ value, (name, value) ∈ named own ∧
    values.lookup name = some value
  /-- Where it has none, the default counts. -/
  default : ∀ name ∉ (named own).map (·.1), values.lookup name = defaults.lookup name

/-! ### Entries among others -/

namespace Document

/-- Keys that are the same are equal when one of them has a name. -/
lemma eq_of_sameKey {a b : Document} {name : String} (same : sameKey a b = true)
    (h : Shape.text a = .ok name ∨ Shape.text b = .ok name) : a = b := by
  have hnumeric : a.numericValue? = none ∨ b.numericValue? = none := by
    refine h.imp (fun ha => ?_) fun hb => ?_
    · cases a <;> first | rfl | cases ha
    · cases b <;> first | rfl | cases hb
  unfold sameKey at same
  split at same
  · simp_all
  · simp_all
  · cases same
  · split at same
    · rfl
    · exact congrArg text (beq_iff_eq.mp same)
    · exact congrArg bytes (beq_iff_eq.mp same)
    · rcases h with h | h <;> cases h
    · rcases h with h | h <;> cases h
    · cases same

/-- A value that is there was there before or has been put. -/
lemma mem_put {key value : Document} {others : List (Document × Document)}
    {entry : Document × Document} (h : entry ∈ Document.put key value others) :
    entry ∈ others ∨ entry.2 = value ∧ (entry.1 = key ∨ sameKey entry.1 key = true) := by
  induction others with
  | nil =>
    rw [Document.put, List.mem_singleton] at h
    exact .inr ⟨congrArg (·.2) h, .inl (congrArg (·.1) h)⟩
  | cons first others ih =>
    rw [Document.put] at h
    split at h
    · next same =>
      rcases List.mem_cons.mp h with rfl | h
      · exact .inr ⟨rfl, .inr same⟩
      · exact .inl (List.mem_cons_of_mem _ h)
    · rcases List.mem_cons.mp h with rfl | h
      · exact .inl List.mem_cons_self
      · exact (ih h).imp_left (List.mem_cons_of_mem _)

/-- No key is lost, and the key that is put is there. -/
lemma exists_mem_put {key value : Document} {others : List (Document × Document)} :
    (∃ entry ∈ Document.put key value others, entry.1 = key ∨ sameKey entry.1 key = true) ∧
      ∀ other ∈ others, ∃ entry ∈ Document.put key value others, entry.1 = other.1 := by
  induction others with
  | nil => simp [Document.put]
  | cons first others ih =>
    rw [Document.put]
    split
    · next same =>
      refine ⟨⟨_, List.mem_cons_self, .inr same⟩, List.forall_mem_cons.mpr ⟨?_, ?_⟩⟩
      · exact ⟨_, List.mem_cons_self, rfl⟩
      · exact fun other hother => ⟨other, List.mem_cons_of_mem _ hother, rfl⟩
    · obtain ⟨⟨entry, hentry, hkey⟩, hrest⟩ := ih
      refine ⟨⟨entry, List.mem_cons_of_mem _ hentry, hkey⟩, List.forall_mem_cons.mpr ⟨?_, ?_⟩⟩
      · exact ⟨first, List.mem_cons_self, rfl⟩
      · intro other hother
        obtain ⟨entry, hentry, hsame⟩ := hrest other hother
        exact ⟨entry, List.mem_cons_of_mem _ hentry, hsame⟩

/-- An entry is put behind others none of which has its key. -/
lemma put_append {key value : Document} {front rest : List (Document × Document)}
    (h : ∀ entry ∈ front, sameKey entry.1 key = false) :
    Document.put key value (front ++ rest) = front ++ Document.put key value rest := by
  induction front with
  | nil => rfl
  | cons first front ih =>
    obtain ⟨hfirst, hfront⟩ := List.forall_mem_cons.mp h
    rw [List.cons_append, Document.put, if_neg (by simp [hfirst]), ih hfront, List.cons_append]

/-- An entry takes the place of the one with its key. -/
lemma put_append_of_mem {key value : Document} {front rest : List (Document × Document)}
    (h : ∃ entry ∈ front, sameKey entry.1 key = true) :
    Document.put key value (front ++ rest) = Document.put key value front ++ rest := by
  induction front with
  | nil => simp at h
  | cons first front ih =>
    rw [List.cons_append, Document.put, Document.put]
    split
    · rfl
    · next hfirst =>
      obtain ⟨entry, hentry, same⟩ := h
      rcases List.mem_cons.mp hentry with rfl | hentry
      · exact absurd same hfirst
      · rw [ih ⟨entry, hentry, same⟩, List.cons_append]

end Document

namespace Normalize

/-! ### Defaults and options -/

/-- A default stands in its place with its own value, or with one that has been put for it. -/
def IsPlaced (own : List (Document × Document)) (value : String × Document)
    (entry : Document × Document) : Prop :=
  entry.1 = .text value.1 ∧
    (entry.2 = value.2 ∧ (∀ d, (.text value.1, d) ∉ own) ∨ (.text value.1, entry.2) ∈ own)

/-- Putting under another key leaves the defaults as they are placed. -/
lemma placed_append {defaults : Named} {own front : List (Document × Document)}
    {put : Document × Document} (h : List.Forall₂ (IsPlaced own) defaults front)
    (ne : ∀ value ∈ defaults, put.1 ≠ .text value.1) :
    List.Forall₂ (IsPlaced (own ++ [put])) defaults front := by
  induction h with
  | nil => exact .nil
  | cons hfirst _ ih =>
    obtain ⟨hne, hothers⟩ := List.forall_mem_cons.mp ne
    refine .cons ⟨hfirst.1, hfirst.2.imp ?_ (by simp_all)⟩ (ih hothers)
    rintro ⟨hvalue, hown⟩
    refine ⟨hvalue, fun d hd => ?_⟩
    rcases List.mem_append.mp hd with hd | hd
    · exact hown d hd
    · exact hne (by rw [← List.mem_singleton.mp hd])

/-- How defaults and further entries stand after some entries have been put: the defaults are
in their places, and the other entries follow. -/
structure Merged (defaults : Named) (own front rest : List (Document × Document)) : Prop where
  /-- The defaults are in their places. -/
  placed : List.Forall₂ (IsPlaced own) defaults front
  /-- A further entry has been put. -/
  added : ∀ entry ∈ rest, ∃ put ∈ own, entry.2 = put.2 ∧
    (entry.1 = put.1 ∨ sameKey entry.1 put.1 = true)
  /-- Every entry that has been put is there under its key. -/
  kept : ∀ put ∈ own, ∃ entry ∈ front ++ rest, entry.1 = put.1 ∨ sameKey entry.1 put.1 = true

lemma placed_put {defaults : Named} {own front : List (Document × Document)} {s : String}
    {d : Document} (distinct : (defaults.map (·.1)).Nodup)
    (h : List.Forall₂ (IsPlaced own) defaults front)
    (there : ∃ entry ∈ front, sameKey entry.1 (.text s) = true) :
    List.Forall₂ (IsPlaced (own ++ [(.text s, d)])) defaults
      (Document.put (.text s) d front) := by
  induction h with
  | nil => simp at there
  | @cons value entry defaults front hfirst hrest ih =>
    obtain ⟨hnew, hdistinct⟩ := List.nodup_cons.mp distinct
    rw [Document.put]
    split
    · next same =>
      rw [hfirst.1, sameKey_text, beq_iff_eq] at same
      refine .cons ⟨hfirst.1, .inr (by simp [same])⟩ (placed_append hrest ?_)
      -- the other defaults have other names
      intro other hother heq
      have hname : other.1 = value.1 := (Document.text.inj heq).symm.trans same.symm
      exact hnew (List.mem_map.mpr ⟨other, hother, hname⟩)
    · next hdiffers =>
      rw [hfirst.1, sameKey_text, beq_iff_eq] at hdiffers
      have hplaced : IsPlaced (own ++ [(.text s, d)]) value entry := by
        refine (List.forall₂_cons.mp (placed_append (.cons hfirst .nil) ?_)).1
        simpa using Ne.symm hdiffers
      refine .cons hplaced (ih hdistinct ?_)
      obtain ⟨other, hother, same⟩ := there
      rcases List.mem_cons.mp hother with rfl | hother
      · rw [hfirst.1, sameKey_text, beq_iff_eq] at same
        exact absurd same hdiffers
      · exact ⟨other, hother, same⟩

/-- What is put takes the place of a default, or follows with the further entries. -/
lemma Merged.put {defaults : Named} {own front rest : List (Document × Document)}
    (distinct : (defaults.map (·.1)).Nodup) (h : Merged defaults own front rest)
    (key value : Document) :
    ∃ front' rest', Document.put key value (front ++ rest) = front' ++ rest' ∧
      Merged defaults (own ++ [(key, value)]) front' rest' := by
  have hkept : ∀ put ∈ own ++ [(key, value)],
      ∃ entry ∈ Document.put key value (front ++ rest),
        entry.1 = put.1 ∨ sameKey entry.1 put.1 = true := by
    obtain ⟨hkey, hothers⟩ := @exists_mem_put key value (front ++ rest)
    intro put hput
    rcases List.mem_append.mp hput with hput | hput
    · obtain ⟨other, hother, hsame⟩ := h.kept put hput
      obtain ⟨entry, hentry, heq⟩ := hothers other hother
      exact ⟨entry, hentry, heq ▸ hsame⟩
    · rw [List.mem_singleton.mp hput]
      exact hkey
  by_cases hthere : ∃ entry ∈ front, sameKey entry.1 key = true
  · have hput := @put_append_of_mem key value front rest hthere
    obtain ⟨entry, hentry, same⟩ := hthere
    obtain ⟨default, -, hplaced⟩ := exists_of_forall₂ h.placed.flip hentry
    obtain rfl : .text default.1 = key := eq_of_sameKey (hplaced.1 ▸ same) (.inl rfl)
    refine ⟨_, _, hput, placed_put distinct h.placed ⟨entry, hentry, same⟩, ?_, hput ▸ hkept⟩
    intro further hfurther
    obtain ⟨put, hput, hadded⟩ := h.added further hfurther
    exact ⟨put, by simp [hput], hadded⟩
  · have hput := @put_append key value front rest fun entry hentry =>
      eq_false_of_ne_true fun same => hthere ⟨entry, hentry, same⟩
    refine ⟨_, _, hput, placed_append h.placed ?_, ?_, hput ▸ hkept⟩
    · rintro default hdefault rfl
      obtain ⟨entry, hentry, hplaced⟩ := exists_of_forall₂ h.placed hdefault
      exact hthere ⟨entry, hentry, by simp [hplaced.1]⟩
    · intro further hfurther
      rcases mem_put hfurther with hfurther | ⟨hvalue, hkey⟩
      · obtain ⟨put, hput, hadded⟩ := h.added further hfurther
        exact ⟨put, by simp [hput], hadded⟩
      · exact ⟨(key, value), by simp, hvalue, hkey⟩

/-- The entries of a mapping put over defaults, one after the other. -/
lemma exists_mergeOptions {defaults : Named} (distinct : (defaults.map (·.1)).Nodup)
    (own : List (Document × Document)) :
    ∃ front rest, mergeOptions defaults own = front ++ rest ∧ Merged defaults own front rest := by
  induction own using List.reverseRecOn with
  | nil =>
    refine ⟨_, [], (List.append_nil _).symm, ?_, by simp, by simp⟩
    rw [mergeOptions, List.foldl_nil, List.forall₂_map_right_iff]
    exact List.forall₂_same.mpr fun value _ => ⟨rfl, .inl ⟨rfl, by simp⟩⟩
  | append_singleton own put ih =>
    obtain ⟨front, rest, hmerge, h⟩ := ih
    obtain ⟨front', rest', hput, h'⟩ := h.put distinct put.1 put.2
    refine ⟨front', rest', ?_, h'⟩
    rw [← hput, ← hmerge, mergeOptions, mergeOptions, List.foldl_append]
    rfl

namespace Merged

variable {defaults : Named} {own front rest : List (Document × Document)} {name : String}
  {value : Document}

/-- A further entry is named as one that has been put. -/
lemma mem_own_of_mem_rest (h : Merged defaults own front rest) (hmem : (name, value) ∈ named rest) :
    (name, value) ∈ named own := by
  obtain ⟨key, hkey, hname⟩ := mem_named_iff.mp hmem
  obtain ⟨put, hput, hvalue, hsame⟩ := h.added _ hkey
  refine mem_named_iff.mpr ⟨put.1, ?_, ?_⟩
  · rw [show value = put.2 from hvalue]
    exact hput
  · rcases hsame with heq | hsame
    · exact heq ▸ hname
    · exact eq_of_sameKey hsame (.inl hname) ▸ hname

/-- The defaults in their places are named as before. -/
lemma named_front (h : Merged defaults own front rest) :
    (named front).map (·.1) = defaults.map (·.1) := by
  have := h.placed
  clear h
  induction this with
  | nil => rfl
  | @cons value entry defaults front hfirst _ ih =>
    have hname : Shape.text entry.1 = .ok value.1 := by rw [hfirst.1]; rfl
    rw [named_cons hname, List.map_cons, List.map_cons, ih]

/-- Where nothing has been put under a name, the default stands in its place. -/
lemma mem_front_iff (h : Merged defaults own front rest) (absent : name ∉ (named own).map (·.1)) :
    (name, value) ∈ named front ↔ (name, value) ∈ defaults := by
  have hplaced := h.placed
  clear h
  induction hplaced with
  | nil => simp [named]
  | @cons default entry defaults front hfirst _ ih =>
    have hname : Shape.text entry.1 = .ok default.1 := by rw [hfirst.1]; rfl
    rw [named_cons hname, List.mem_cons, List.mem_cons]
    refine or_congr ?_ ih
    rcases hfirst.2 with ⟨hvalue, -⟩ | hown
    · rw [hvalue]
    · -- the default is another one, for its value has been put
      have hother : name ≠ default.1 := by
        rintro rfl
        exact absent (List.mem_map.mpr ⟨_, mem_named_iff.mpr ⟨_, hown, rfl⟩, rfl⟩)
      constructor
      · intro heq
        exact absurd (congrArg (·.1) heq) hother
      · intro heq
        exact absurd (congrArg (·.1) heq) hother

/-- Where something has been put under a name and does not follow, it is in the place of the
default. -/
lemma exists_mem_front (h : Merged defaults own front rest)
    (supplied : name ∈ (named own).map (·.1)) (absent : name ∉ (named rest).map (·.1)) :
    ∃ value, (name, value) ∈ named front ∧ (name, value) ∈ named own := by
  obtain ⟨⟨first, d⟩, hnamed, hfirst⟩ := List.mem_map.mp supplied
  obtain rfl : first = name := hfirst
  obtain ⟨key, hown, hname⟩ := mem_named_iff.mp hnamed
  obtain ⟨⟨key', value⟩, hentry, hsame⟩ := h.kept _ hown
  obtain rfl : key' = key := hsame.elim id fun hsame => eq_of_sameKey hsame (.inr hname)
  rcases List.mem_append.mp hentry with hfront | hrest
  · obtain ⟨default, -, hplaced, hvalue⟩ := exists_of_forall₂ h.placed.flip hfront
    obtain rfl : key' = .text default.1 := hplaced
    refine ⟨value, mem_named_iff.mpr ⟨_, hfront, hname⟩, mem_named_iff.mpr ⟨_, ?_, hname⟩⟩
    rcases hvalue with ⟨-, hown'⟩ | hvalue
    · exact absurd hown (hown' d)
    · exact hvalue
  · have hmem : (first, value) ∈ named rest := mem_named_iff.mpr ⟨key', hrest, hname⟩
    exact absurd (List.mem_map.mpr ⟨_, hmem, rfl⟩) absent

section Counting

variable (h : Merged defaults own front rest) (distinct : (defaults.map (·.1)).Nodup)

include h distinct

lemma nodup_front : ((named front).reverse.map (·.1)).Nodup := by
  rw [List.map_reverse, List.nodup_reverse, h.named_front]
  exact distinct

/-- Where something has been put under a name, it counts: further entries come last, so they
count before the defaults in their places. -/
lemma exists_lookup (supplied : name ∈ (named own).map (·.1)) :
    ∃ value, (name, value) ∈ named own ∧
      (named (front ++ rest)).reverse.lookup name = some value := by
  simp only [named_append, List.reverse_append, List.lookup_append]
  cases hlast : (named rest).reverse.lookup name with
  | some value =>
    exact ⟨value, h.mem_own_of_mem_rest (List.mem_reverse.mp (mem_of_lookup hlast)), rfl⟩
  | none =>
    rw [lookup_eq_none_iff_not_mem, List.map_reverse, List.mem_reverse] at hlast
    obtain ⟨value, hvalue, hown⟩ := h.exists_mem_front supplied hlast
    refine ⟨value, hown, ?_⟩
    rw [Option.none_or, lookup_eq_some_iff_mem (h.nodup_front distinct), List.mem_reverse]
    exact hvalue

/-- Where nothing has been put under a name, the default counts. -/
lemma lookup_default (absent : name ∉ (named own).map (·.1)) :
    (named (front ++ rest)).reverse.lookup name = defaults.lookup name := by
  have hrest : (named rest).reverse.lookup name = none := by
    rw [lookup_eq_none_iff_not_mem, List.map_reverse, List.mem_reverse]
    intro hmem
    obtain ⟨⟨_, d⟩, hd, rfl⟩ := List.mem_map.mp hmem
    exact absent (List.mem_map.mpr ⟨_, h.mem_own_of_mem_rest hd, rfl⟩)
  rw [named_append, List.reverse_append, List.lookup_append, hrest, Option.none_or]
  refine Option.ext fun d => ?_
  rw [lookup_eq_some_iff_mem (h.nodup_front distinct), lookup_eq_some_iff_mem distinct,
    List.mem_reverse]
  exact h.mem_front_iff absent

end Counting

end Merged

/-- **Options** that are read of defaults over which those of a document have been put. -/
theorem overlays_mergeOptions {defaults values : Named} (distinct : (defaults.map (·.1)).Nodup)
    {own : List (Document × Document)}
    (h : dictOf anything (.mapping (mergeOptions defaults own)) = .ok values) :
    Overlays defaults own values := by
  obtain ⟨front, rest, hmerge, merged⟩ := exists_mergeOptions distinct own
  rw [hmerge] at h
  have taken := takesOver_dictOf h
  have hsupplied : ∀ name ∈ (named own).map (·.1), ∃ value, (name, value) ∈ named own ∧
      values.lookup name = some value := fun name hname => by
    rw [taken.lookup]
    exact merged.exists_lookup distinct hname
  have hdefault : ∀ name ∉ (named own).map (·.1), values.lookup name = defaults.lookup name :=
    fun name hname => (taken.lookup name).trans (merged.lookup_default distinct hname)
  refine ⟨?_, taken.distinct, ?_, hsupplied, hdefault⟩
  · intro put hput
    obtain ⟨entry, hentry, hsame⟩ := merged.kept put hput
    obtain ⟨name, hname⟩ := taken.names entry hentry
    refine ⟨name, ?_⟩
    exact hsame.elim (fun heq => heq ▸ hname) fun hsame => eq_of_sameKey hsame (.inl hname) ▸ hname
  · intro name hname
    by_cases hown : name ∈ (named own).map (·.1)
    · obtain ⟨value, -, hvalue⟩ := hsupplied name hown
      exact List.mem_map.mpr ⟨_, mem_of_lookup hvalue, rfl⟩
    · obtain ⟨⟨_, d⟩, hd, rfl⟩ := List.mem_map.mp hname
      have hvalue := (hdefault _ hown).trans ((lookup_eq_some_iff_mem distinct).mpr hd)
      exact List.mem_map.mpr ⟨_, mem_of_lookup hvalue, rfl⟩

end Normalize

end Scaffold
