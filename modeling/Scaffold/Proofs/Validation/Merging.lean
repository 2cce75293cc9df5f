import Scaffold.Proofs.Validation.Exactness

/-!
Repeats in results that are put together.

What the removal of repeats leaves depends on what came before only through the identities that
have been seen. A removal that has seen less than a later one takes nothing away that the later
one would have kept, nor does it let an identity disappear, so it makes no difference in advance.

* `uniqueAfter_cons_of_mem`, `uniqueAfter_cons_of_notMem`: one finding.
* `uniqueAfter_congr`: only the identities that have been seen matter.
* `uniqueAfter_append`: the removal goes on where it has ended.
* `uniqueAfter_uniqueAfter`: a removal in advance makes no difference.
* `mem_identities_uniqueAfter`: no identity disappears.
* `unique_firsts` (**first occurrences**): what stays, and what does not change it.
-/

namespace Scaffold

variable {seen seen' : List (String × String × String)} {f : Finding} {fs gs : List Finding}

/-! ### One finding -/

lemma uniqueAfter_cons_of_mem (h : f.identity ∈ seen) :
    uniqueAfter seen (f :: fs) = uniqueAfter seen fs := by
  rw [uniqueAfter, if_pos (List.contains_iff_mem.mpr h)]

lemma uniqueAfter_cons_of_notMem (h : f.identity ∉ seen) :
    uniqueAfter seen (f :: fs) = f :: uniqueAfter (f.identity :: seen) fs := by
  rw [uniqueAfter, if_neg (by simpa using h)]

/-! ### What has been seen -/

/-- What came before matters only through the identities that have been seen. -/
lemma uniqueAfter_congr (same : ∀ key, key ∈ seen ↔ key ∈ seen') :
    uniqueAfter seen fs = uniqueAfter seen' fs := by
  induction fs generalizing seen seen' with
  | nil => rfl
  | cons f fs ih =>
    by_cases hseen : f.identity ∈ seen
    · rw [uniqueAfter_cons_of_mem hseen, uniqueAfter_cons_of_mem ((same _).mp hseen), ih same]
    · have hcons : ∀ key, key ∈ f.identity :: seen ↔ key ∈ f.identity :: seen' := fun key => by
        rw [List.mem_cons, List.mem_cons, same]
      rw [uniqueAfter_cons_of_notMem hseen, uniqueAfter_cons_of_notMem (mt (same _).mpr hseen),
        ih hcons]

/-- The removal goes on where it has ended, with all identities seen that have come by. -/
lemma uniqueAfter_append :
    uniqueAfter seen (fs ++ gs) =
      uniqueAfter seen fs ++ uniqueAfter (fs.map Finding.identity ++ seen) gs := by
  induction fs generalizing seen with
  | nil => rfl
  | cons f fs ih =>
    rw [List.cons_append, List.map_cons, List.cons_append]
    by_cases hseen : f.identity ∈ seen
    · have hsame : ∀ key, key ∈ fs.map Finding.identity ++ seen ↔
          key ∈ f.identity :: (fs.map Finding.identity ++ seen) := by
        intro key
        rw [List.mem_cons, iff_or_self]
        rintro rfl
        exact List.mem_append_right _ hseen
      rw [uniqueAfter_cons_of_mem hseen, uniqueAfter_cons_of_mem hseen, ih, uniqueAfter_congr hsame]
    · have hsame : ∀ key, key ∈ fs.map Finding.identity ++ f.identity :: seen ↔
          key ∈ f.identity :: (fs.map Finding.identity ++ seen) := by
        intro key
        simp only [List.mem_append, List.mem_cons]
        exact or_left_comm
      rw [uniqueAfter_cons_of_notMem hseen, uniqueAfter_cons_of_notMem hseen, ih, List.cons_append,
        uniqueAfter_congr hsame]

/-- **In advance** a removal makes no difference to one that has seen at least as much. -/
lemma uniqueAfter_uniqueAfter (more : seen ⊆ seen') :
    uniqueAfter seen' (uniqueAfter seen fs) = uniqueAfter seen' fs := by
  induction fs generalizing seen seen' with
  | nil => rfl
  | cons f fs ih =>
    by_cases hseen : f.identity ∈ seen
    · rw [uniqueAfter_cons_of_mem hseen, ih more, uniqueAfter_cons_of_mem (more hseen)]
    · rw [uniqueAfter_cons_of_notMem hseen]
      by_cases hlater : f.identity ∈ seen'
      · rw [uniqueAfter_cons_of_mem hlater, uniqueAfter_cons_of_mem hlater]
        exact ih (List.cons_subset.mpr ⟨hlater, more⟩)
      · rw [uniqueAfter_cons_of_notMem hlater, uniqueAfter_cons_of_notMem hlater,
          ih (List.cons_subset_cons _ more)]

/-- No identity disappears. -/
lemma mem_identities_uniqueAfter {key : String × String × String} :
    key ∈ (uniqueAfter seen fs).map Finding.identity ++ seen ↔
      key ∈ fs.map Finding.identity ++ seen := by
  induction fs generalizing seen with
  | nil => rfl
  | cons f fs ih =>
    rw [List.map_cons, List.cons_append, List.mem_cons]
    by_cases hseen : f.identity ∈ seen
    · rw [uniqueAfter_cons_of_mem hseen, ih, iff_or_self]
      rintro rfl
      exact List.mem_append_right _ hseen
    · have hrest := @ih (f.identity :: seen)
      simp only [List.mem_append, List.mem_cons] at hrest
      rw [uniqueAfter_cons_of_notMem hseen]
      simp only [List.map_cons, List.mem_append, List.mem_cons, or_assoc]
      rw [or_left_comm, hrest, or_left_comm]

/-! ### Parts -/

lemma unique_unique (fs : List Finding) : unique (unique fs) = unique fs :=
  uniqueAfter_uniqueAfter (List.Subset.refl [])

/-- Repeats may be removed from both parts before these are put together. -/
lemma unique_append (fs gs : List Finding) : unique (fs ++ gs) = unique (unique fs ++ unique gs) := by
  have hsame : ∀ key, key ∈ (unique fs).map Finding.identity ++ [] ↔
      key ∈ fs.map Finding.identity ++ [] := fun key => mem_identities_uniqueAfter
  calc unique (fs ++ gs)
      = unique fs ++ uniqueAfter (fs.map Finding.identity ++ []) gs := uniqueAfter_append
    _ = unique fs ++ uniqueAfter (fs.map Finding.identity ++ []) (unique gs) := by
        rw [unique, unique, uniqueAfter_uniqueAfter (List.nil_subset _)]
    _ = unique (unique fs) ++ uniqueAfter ((unique fs).map Finding.identity ++ []) (unique gs) := by
        rw [unique_unique, uniqueAfter_congr hsame]
    _ = unique (unique fs ++ unique gs) := uniqueAfter_append.symm

/-- Repeats may be removed from either of two results before these are put together. -/
lemma Findings.deduplicated_merge {r s r' s' : Findings} (hr : r' ∈ [r, r.deduplicated])
    (hs : s' ∈ [s, s.deduplicated]) : (r'.merge s').deduplicated = (r.merge s).deduplicated := by
  have hself : ∀ {t t' : Findings}, t' ∈ [t, t.deduplicated] →
      unique t'.errors = unique t.errors ∧ unique t'.warnings = unique t.warnings := by
    intro t t' ht
    rcases List.mem_pair.mp ht with rfl | rfl
    · exact ⟨rfl, rfl⟩
    · exact ⟨unique_unique _, unique_unique _⟩
  rw [deduplicated, deduplicated, merge, merge, unique_append r'.errors, unique_append r'.warnings,
    (hself hr).1, (hself hr).2, (hself hs).1, (hself hs).2, ← unique_append, ← unique_append]

/-- **First occurrences.** What stays are the findings whose code, path and message do not occur
together before, an absent path counting as an empty one. A second removal changes nothing, nor
does a removal in the parts of findings or results before they are put together, and no removal
changes whether a result is valid. -/
theorem unique_firsts (fs gs : List Finding) (r s : Findings) :
    unique fs = (fs.zipIdx.filter (¬ OccursBefore
      (fun f : Finding => (f.code, f.path.getD "", f.message)) fs ·)).map Prod.fst ∧
    unique (unique fs) = unique fs ∧
    unique (fs ++ gs) = unique (unique fs ++ unique gs) ∧
    (∀ r' ∈ [r, r.deduplicated], ∀ s' ∈ [s, s.deduplicated],
      (r'.merge s').deduplicated = (r.merge s).deduplicated) ∧
    r.deduplicated.isValid = r.isValid := by
  refine ⟨?_, unique_unique fs, unique_append fs gs, fun r' hr s' hs => ?_, r.isValid_deduplicated⟩
  · rw [unique, uniqueAfter_eq_filter [] 0]
    simp only [occursAfter_nil_zero]
    rfl
  · exact Findings.deduplicated_merge hr hs

end Scaffold
