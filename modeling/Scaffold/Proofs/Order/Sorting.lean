import Mathlib.Data.List.Chain
import Mathlib.Data.List.Sort
import Scaffold.History.Run

/-!
What the stable sort does with any relation, and with a ranking.

The sort compares two elements at a time and trusts every answer. It therefore
always gives a rearrangement in which neighbours stand in order; whether elements
further apart do so depends on the relation.

* `position_spec`: halving ends between an element that may stand before the new
  one and an element that must stand behind it.
* `sortBy_perm`, `isChain_sortBy`: the result is a rearrangement in which
  neighbours stand in order.
* `sublist_sortBy`: an ordered beginning of at least two elements keeps its order.
* `sortBy_congr`: only the elements of the list count.
* `Ranked`: of two different elements one comes before the other, and what comes
  before is handed on.
* `pairwise_sortBy`: a ranked list is put in order throughout.
* `sortBy_rearranged_iff`: the result is the same for every rearrangement of the
  list if and only if the list is ranked.
-/

namespace Scaffold

section Ordered

variable {α : Type} {before : α → α → Bool}

/-- Two neighbours in order: the second one does not come before the first. -/
def InOrder (before : α → α → Bool) (a b : α) : Prop :=
  before b a = false

/-- Of two elements at most one comes before the other. -/
def OneWay (before : α → α → Bool) : Prop :=
  ∀ a b, before a b = true → before b a = false

/-! ### Insertion by halving -/

/-- Halving keeps two facts about the stretch that is left: the element just below
it does not come after the new one, and the new one comes before the element at
its upper end. -/
lemma position_spec (sorted : List α) (a : α) :
    ∀ fuel low high, low ≤ high → high ≤ sorted.length → high - low < fuel →
      (∀ m, 0 < low → sorted[low - 1]? = some m → before a m = false) →
      (∀ m, sorted[high]? = some m → before a m = true) →
      ∃ i, position before sorted a fuel low high = i ∧ i ≤ sorted.length ∧
        (∀ m, 0 < i → sorted[i - 1]? = some m → before a m = false) ∧
        (∀ m, sorted[i]? = some m → before a m = true) := by
  intro fuel
  induction fuel with
  | zero => intro low high _ _ hfuel; omega
  | succ fuel ih =>
    intro low high hle hhigh hfuel hbelow habove
    rw [position]
    by_cases hlt : low < high
    · rw [if_pos hlt]
      have hmid : low + (high - low) / 2 < sorted.length := by omega
      simp only [List.getElem?_eq_getElem hmid]
      by_cases hbefore : before a sorted[low + (high - low) / 2] = true
      · rw [if_pos hbefore]
        refine ih low (low + (high - low) / 2) (by omega) (by omega) (by omega) hbelow ?_
        intro m hm
        rw [List.getElem?_eq_getElem hmid, Option.some.injEq] at hm
        rwa [← hm]
      · rw [if_neg hbefore]
        refine ih (low + (high - low) / 2 + 1) high (by omega) hhigh (by omega) ?_ habove
        intro m _ hm
        rw [Nat.add_sub_cancel, List.getElem?_eq_getElem hmid, Option.some.injEq] at hm
        rw [← hm]
        exact Bool.eq_false_iff.mpr hbefore
    · rw [if_neg hlt]
      have heq : low = high := by omega
      exact ⟨low, rfl, by omega, hbelow, fun m hm => habove m (heq ▸ hm)⟩

/-- The place of a new element: what stands just below it does not come after it,
and it comes before what stands there. -/
lemma exists_insertInto (sorted : List α) (a : α) :
    ∃ i ≤ sorted.length, insertInto before sorted a = sorted.take i ++ a :: sorted.drop i ∧
      (∀ m, 0 < i → sorted[i - 1]? = some m → before a m = false) ∧
      (∀ m, sorted[i]? = some m → before a m = true) := by
  obtain ⟨i, hi, hle, hbelow, habove⟩ :=
    @position_spec α before sorted a (sorted.length + 1) 0 sorted.length (by omega)
      (by omega) (by omega) (fun m h => absurd h (by omega))
      (fun m hm => by rw [List.getElem?_eq_none (by omega)] at hm; cases hm)
  refine ⟨i, hle, ?_, hbelow, habove⟩
  rw [insertInto, hi]

/-- A new element is added and nothing is lost. -/
lemma insertInto_perm (sorted : List α) (a : α) :
    (insertInto before sorted a).Perm (a :: sorted) := by
  rw [insertInto]
  refine List.perm_middle.trans ?_
  rw [List.take_append_drop]

/-- The elements that were there keep their order. -/
lemma sublist_insertInto (sorted : List α) (a : α) :
    sorted.Sublist (insertInto before sorted a) := by
  rw [insertInto]
  conv_lhs => rw [← List.take_append_drop
    (position before sorted a (sorted.length + 1) 0 sorted.length) sorted]
  exact (List.Sublist.refl _).append (List.sublist_cons_self _ _)

/-- Neighbours stay in order when an element is put in. -/
lemma isChain_insertInto (oneWay : OneWay before) {sorted : List α}
    (h : sorted.IsChain (InOrder before)) (a : α) :
    (insertInto before sorted a).IsChain (InOrder before) := by
  obtain ⟨i, hle, heq, hbelow, habove⟩ := @exists_insertInto α before sorted a
  rw [heq, List.isChain_append]
  refine ⟨h.take i, ?_, ?_⟩
  · rw [List.isChain_cons]
    refine ⟨fun b hb => ?_, h.drop i⟩
    rw [List.head?_drop] at hb
    exact oneWay a b (habove b hb)
  · intro b hb c hc
    rw [List.head?_cons, Option.mem_def, Option.some.injEq] at hc
    subst hc
    rw [List.getLast?_take] at hb
    split at hb
    · cases hb
    · next hi =>
      refine hbelow b (by omega) ?_
      rw [List.getElem?_eq_getElem (by omega)] at hb ⊢
      exact hb

/-- What holds of every insertion holds of insertions one after another. -/
lemma foldl_insertInto_perm (l head : List α) :
    (l.foldl (insertInto before) head).Perm (head ++ l) := by
  induction l generalizing head with
  | nil => simp
  | cons a l ih =>
    refine (ih _).trans (((insertInto_perm head a).append_right l).trans ?_)
    exact List.perm_middle.symm

lemma sublist_foldl_insertInto (l head : List α) :
    head.Sublist (l.foldl (insertInto before) head) := by
  induction l generalizing head with
  | nil => simp
  | cons a l ih => exact (sublist_insertInto head a).trans (ih _)

lemma isChain_foldl_insertInto (oneWay : OneWay before) (l : List α) {head : List α}
    (h : head.IsChain (InOrder before)) :
    (l.foldl (insertInto before) head).IsChain (InOrder before) := by
  induction l generalizing head with
  | nil => exact h
  | cons a l ih => exact ih (isChain_insertInto oneWay h a)

/-! ### The stretch at the head -/

/-- The elements of the stretch follow one another. -/
lemma isChain_take_stretch (follows : α → α → Bool) (a : α) (l : List α) :
    ((a :: l).take (stretch follows a l)).IsChain (fun x y => follows x y = true) := by
  induction l generalizing a with
  | nil => simp [stretch]
  | cons b l ih =>
    rw [stretch]
    by_cases h : follows a b = true
    · rw [if_pos h, List.take_succ_cons]
      have hb := ih b
      cases hn : stretch follows b l with
      | zero => simp
      | succ n =>
        rw [hn] at hb
        rw [List.take_succ_cons, List.isChain_cons_cons]
        rw [List.take_succ_cons] at hb
        exact ⟨h, hb⟩
    · rw [if_neg h]
      simp

/-- The stretch reaches at least as far as elements follow one another. -/
lemma length_le_stretch {follows : α → α → Bool} {a : α} {l : List α}
    (h : (a :: l).IsChain (fun x y => follows x y = true)) (rest : List α) :
    (a :: l).length ≤ stretch follows a (l ++ rest) := by
  induction l generalizing a with
  | nil =>
    cases rest with
    | nil => simp [stretch]
    | cons b rest => simp only [List.nil_append, stretch, List.length_singleton]; split <;> omega
  | cons b l ih =>
    rw [List.isChain_cons_cons] at h
    have hl := ih h.2
    rw [List.cons_append, stretch, if_pos h.1]
    simp only [List.length_cons] at hl ⊢
    omega

/-! ### The sort -/

/-- A list of at least two elements is sorted by insertion into the stretch at its
head, which is turned round when it falls. -/
lemma sortBy_cons_cons (a b : α) (rest : List α) :
    sortBy before (a :: b :: rest) =
      if before b a then
        ((a :: b :: rest).drop (stretch (fun x y => before y x) a (b :: rest))).foldl
          (insertInto before)
          ((a :: b :: rest).take (stretch (fun x y => before y x) a (b :: rest))).reverse
      else
        ((a :: b :: rest).drop (stretch (fun x y => !before y x) a (b :: rest))).foldl
          (insertInto before)
          ((a :: b :: rest).take (stretch (fun x y => !before y x) a (b :: rest))) := by
  rw [sortBy]
  split <;> rfl

/-- The sort gives a rearrangement. -/
lemma sortBy_perm (l : List α) : (sortBy before l).Perm l := by
  match l with
  | [] => exact .refl _
  | [a] => exact .refl _
  | a :: b :: rest =>
    rw [sortBy_cons_cons]
    split
    · refine (foldl_insertInto_perm _ _).trans ?_
      refine ((List.reverse_perm _).append_right _).trans ?_
      rw [List.take_append_drop]
    · refine (foldl_insertInto_perm _ _).trans ?_
      rw [List.take_append_drop]

/-- Neighbours in the result stand in order. -/
lemma isChain_sortBy (oneWay : OneWay before) (l : List α) :
    (sortBy before l).IsChain (InOrder before) := by
  match l with
  | [] => exact .nil
  | [a] => exact .singleton a
  | a :: b :: rest =>
    rw [sortBy_cons_cons]
    split
    · refine isChain_foldl_insertInto oneWay _ ?_
      rw [List.isChain_reverse]
      exact (isChain_take_stretch (fun x y => before y x) a (b :: rest)).imp
        fun x y h => oneWay y x h
    · refine isChain_foldl_insertInto oneWay _ ?_
      exact (isChain_take_stretch (fun x y => !before y x) a (b :: rest)).imp
        fun x y h => by simpa [InOrder] using h

/-- An ordered beginning of at least two elements keeps its order. -/
lemma sublist_sortBy {a b : α} {l : List α} (h : (a :: b :: l).IsChain (InOrder before))
    (rest : List α) : (a :: b :: l).Sublist (sortBy before (a :: b :: l ++ rest)) := by
  have hab : before b a = false := (List.isChain_cons_cons.mp h).1
  have hlen : (a :: b :: l).length ≤ stretch (fun x y => !before y x) a (b :: l ++ rest) :=
    length_le_stretch (h.imp fun x y hxy => by simpa [InOrder] using hxy) rest
  rw [List.cons_append, List.cons_append, sortBy_cons_cons, if_neg (by simp [hab])]
  refine List.Sublist.trans ?_ (sublist_foldl_insertInto _ _)
  have htake : (a :: b :: (l ++ rest)).take (a :: b :: l).length = a :: b :: l :=
    @List.take_left α (a :: b :: l) rest
  exact htake ▸ (List.take_prefix_take_left hlen).sublist

/-- A list whose neighbours stand in order is left as it is. -/
lemma sortBy_of_isChain {l : List α} (h : l.IsChain (InOrder before)) : sortBy before l = l := by
  match l, h with
  | [], _ => rfl
  | [a], _ => rfl
  | a :: b :: l, h =>
    have hsub := sublist_sortBy h []
    rw [List.append_nil] at hsub
    exact (hsub.eq_of_length (sortBy_perm _).length_eq.symm).symm

/-! ### Relations that agree on a list -/

section Congr

variable {before' : α → α → Bool}

lemma position_congr {sorted : List α} {a : α} (same : ∀ m ∈ sorted, before a m = before' a m)
    (fuel low high : Nat) :
    position before sorted a fuel low high = position before' sorted a fuel low high := by
  induction fuel generalizing low high with
  | zero => rfl
  | succ fuel ih =>
    simp only [position, ih]
    cases hm : sorted[low + (high - low) / 2]? with
    | none => rfl
    | some m => simp only [same m (List.mem_of_getElem? hm)]

lemma foldl_insertInto_congr {l head : List α}
    (same : ∀ a ∈ l, ∀ b ∈ head ++ l, before a b = before' a b) :
    l.foldl (insertInto before) head = l.foldl (insertInto before') head := by
  induction l generalizing head with
  | nil => rfl
  | cons a l ih =>
    have hfirst : insertInto before head a = insertInto before' head a := by
      rw [insertInto, insertInto, position_congr fun m hm => same a (by simp) m (by simp [hm])]
    rw [List.foldl_cons, List.foldl_cons, hfirst]
    refine ih fun b hb c hc => same b (by simp [hb]) c ?_
    rcases List.mem_append.mp hc with hc | hc
    · rcases List.mem_cons.mp ((insertInto_perm head a).subset hc) with rfl | hc
      · simp
      · simp [hc]
    · simp [hc]

lemma stretch_congr {follows follows' : α → α → Bool} {a : α} {l : List α}
    (same : ∀ x ∈ a :: l, ∀ y ∈ a :: l, follows x y = follows' x y) :
    stretch follows a l = stretch follows' a l := by
  induction l generalizing a with
  | nil => rfl
  | cons b l ih =>
    rw [stretch, stretch, same a (by simp) b (by simp), ih fun x hx y hy =>
      same x (List.mem_cons_of_mem _ hx) y (List.mem_cons_of_mem _ hy)]

/-- Relations that agree on the elements of a list put it in the same order. -/
lemma sortBy_congr {l : List α} (same : ∀ a ∈ l, ∀ b ∈ l, before a b = before' a b) :
    sortBy before l = sortBy before' l := by
  match l with
  | [] => rfl
  | [a] => rfl
  | a :: b :: rest =>
    have hfalls : stretch (fun x y => before y x) a (b :: rest) =
        stretch (fun x y => before' y x) a (b :: rest) :=
      stretch_congr fun x hx y hy => same y hy x hx
    have hrises : stretch (fun x y => !before y x) a (b :: rest) =
        stretch (fun x y => !before' y x) a (b :: rest) :=
      stretch_congr fun x hx y hy => congrArg _ (same y hy x hx)
    have hrest : ∀ n head, (∀ x ∈ head, x ∈ a :: b :: rest) →
        ((a :: b :: rest).drop n).foldl (insertInto before) head =
          ((a :: b :: rest).drop n).foldl (insertInto before') head := by
      intro n head hhead
      refine foldl_insertInto_congr fun x hx y hy => same x (List.mem_of_mem_drop hx) y ?_
      rcases List.mem_append.mp hy with hy | hy
      · exact hhead y hy
      · exact List.mem_of_mem_drop hy
    rw [sortBy_cons_cons, sortBy_cons_cons, same b (by simp) a (by simp), hfalls, hrises]
    split
    · exact hrest _ _ fun x hx => List.mem_of_mem_take (List.mem_reverse.mp hx)
    · exact hrest _ _ fun x hx => List.mem_of_mem_take hx

end Congr

/-! ### Rankings -/

/-- Of two different elements of a list one comes before the other, and an element
before another one comes before all that the other one comes before. -/
structure Ranked (before : α → α → Bool) (l : List α) : Prop where
  /-- Two different elements are ranked. -/
  total : ∀ a ∈ l, ∀ b ∈ l, a ≠ b → before a b = true ∨ before b a = true
  /-- The ranking runs in no circles. -/
  trans : ∀ a ∈ l, ∀ b ∈ l, ∀ c ∈ l, before a b = true → before b c = true → before a c = true

/-- A ranking does not depend on the order of the list. -/
lemma Ranked.of_subset {l l' : List α} (h : Ranked before l) (hs : ∀ a ∈ l', a ∈ l) :
    Ranked before l' where
  total a ha b hb := h.total a (hs a ha) b (hs b hb)
  trans a ha b hb c hc := h.trans a (hs a ha) b (hs b hb) c (hs c hc)

/-- Where a relation is handed on, neighbours decide everything. -/
lemma pairwise_of_isChain {R : α → α → Prop} {l : List α}
    (trans : ∀ a ∈ l, ∀ b ∈ l, ∀ c ∈ l, R a b → R b c → R a c) (h : l.IsChain R) :
    l.Pairwise R := by
  induction l with
  | nil => exact .nil
  | cons a l ih =>
    have htail : l.Pairwise R := ih
      (fun x hx y hy z hz => trans x (by simp [hx]) y (by simp [hy]) z (by simp [hz])) h.of_cons
    refine List.pairwise_cons.mpr ⟨?_, htail⟩
    cases l with
    | nil => simp
    | cons b l =>
      have hab : R a b := (List.isChain_cons_cons.mp h).1
      intro c hc
      rcases List.mem_cons.mp hc with rfl | hc'
      · exact hab
      · exact trans a (by simp) b (by simp) c (by simp [hc']) hab
          ((List.pairwise_cons.mp htail).1 c hc')

/-- A ranked list is put in order throughout. -/
lemma pairwise_sortBy (oneWay : OneWay before) {l : List α} (nodup : l.Nodup)
    (h : Ranked before l) : (sortBy before l).Pairwise (fun a b => before a b = true) := by
  have hranked : Ranked before (sortBy before l) :=
    h.of_subset fun a ha => (sortBy_perm l).mem_iff.mp ha
  have hnodup : (sortBy before l).Nodup := (sortBy_perm l).nodup_iff.mpr nodup
  refine pairwise_of_isChain hranked.trans ?_
  -- neighbours are different, so that one of them comes before the other
  rw [List.isChain_iff_getElem]
  intro i hi
  have horder : before (sortBy before l)[i + 1] (sortBy before l)[i] = false :=
    List.isChain_iff_getElem.mp (isChain_sortBy oneWay l) i hi
  have hne : (sortBy before l)[i] ≠ (sortBy before l)[i + 1] := fun heq => by
    have := (hnodup.getElem_inj_iff).mp heq
    omega
  rcases hranked.total _ (List.getElem_mem _) _ (List.getElem_mem _) hne with h1 | h1
  · exact h1
  · rw [horder] at h1
    cases h1

/-- The only ordered rearrangement of a ranked list. -/
lemma sortBy_eq_of_pairwise (oneWay : OneWay before) {l l' : List α}
    (h : l'.Pairwise (fun a b => before a b = true)) (hperm : l.Perm l')
    (hranked : Ranked before l) : sortBy before l = l' := by
  have hnodup : l'.Nodup := h.imp fun {a b} hab heq => by
    have := oneWay a b hab
    rw [heq] at this hab
    rw [this] at hab
    cases hab
  have hsorted := pairwise_sortBy oneWay (hperm.nodup_iff.mpr hnodup) hranked
  refine List.Perm.eq_of_pairwise ?_ hsorted h ((sortBy_perm l).trans hperm)
  intro a b _ _ hab hba
  have := oneWay a b hab
  rw [this] at hba
  cases hba

/-- Two elements of a list in a given order cannot also stand the other way round
when no element occurs twice. -/
lemma not_sublist_swap {a b : α} {l : List α} (nodup : l.Nodup) (h : [a, b].Sublist l) :
    ¬ [b, a].Sublist l := by
  induction l with
  | nil => simp
  | cons c l ih =>
    obtain ⟨hc, hl⟩ := List.nodup_cons.mp nodup
    intro h'
    rcases List.sublist_cons_iff.mp h with hs | ⟨r, hr, hs⟩
    · rcases List.sublist_cons_iff.mp h' with hs' | ⟨r', hr', _⟩
      · exact ih hl hs hs'
      · rw [List.cons.injEq] at hr'
        exact hc (hr'.1 ▸ hs.subset (by simp))
    · rw [List.cons.injEq] at hr
      rcases List.sublist_cons_iff.mp h' with hs' | ⟨r', hr', hs'⟩
      · exact hc (hr.1 ▸ hs'.subset (by simp))
      · rw [List.cons.injEq] at hr'
        exact hc (hr.1 ▸ hs'.subset (by simp [← hr'.2]))

/-- Some elements of a list can be brought to its front. -/
lemma exists_perm_of_mem (front : List α) {l : List α} (nodup : front.Nodup)
    (h : ∀ a ∈ front, a ∈ l) : ∃ rest, (front ++ rest).Perm l := by
  obtain ⟨middle, hmiddle, hsub⟩ := List.subperm_of_subset nodup h
  obtain ⟨rest, hrest⟩ := hsub.exists_perm_append
  exact ⟨rest, (hmiddle.symm.append_right rest).trans hrest.symm⟩

/-- **What the result depends on**: a list without repeats has one and the same
result for all its rearrangements if and only if it is ranked. -/
lemma sortBy_rearranged_iff (oneWay : OneWay before) {l : List α} (nodup : l.Nodup) :
    (∀ l', l'.Perm l → sortBy before l' = sortBy before l) ↔ Ranked before l := by
  constructor
  · intro hsame
    -- an ordered beginning of any rearrangement stands in the common result
    have hstand : ∀ a b l' rest, (a :: b :: l').IsChain (InOrder before) →
        (a :: b :: l' ++ rest).Perm l → (a :: b :: l').Sublist (sortBy before l) :=
      fun a b l' rest h hperm => hsame _ hperm ▸ sublist_sortBy h rest
    have hnodup : (sortBy before l).Nodup := (sortBy_perm l).nodup_iff.mpr nodup
    -- two elements of which neither comes before the other stay as they stood
    have htotal : ∀ a ∈ l, ∀ b ∈ l, a ≠ b → before a b = true ∨ before b a = true := by
      intro a ha b hb hne
      by_contra hnone
      rw [not_or, Bool.not_eq_true, Bool.not_eq_true] at hnone
      obtain ⟨rest, hrest⟩ := exists_perm_of_mem [a, b] (l := l) (by simp [hne]) (by simp [ha, hb])
      have hab := hstand a b [] rest (by simp [InOrder, hnone.2]) hrest
      have hba := hstand b a [] rest (by simp [InOrder, hnone.1])
        ((List.Perm.swap a b rest).trans hrest)
      exact not_sublist_swap hnodup hab hba
    refine ⟨htotal, fun a ha b hb c hc hab hbc => ?_⟩
    -- three elements in a circle stay as they stood, wherever the circle is opened
    by_contra hac
    rw [Bool.not_eq_true] at hac
    have hne : a ≠ b ∧ a ≠ c ∧ b ≠ c := by
      refine ⟨?_, ?_, ?_⟩ <;> rintro rfl
      · simp [hbc] at hac
      · simp [oneWay a b hab] at hbc
      · simp [hab] at hac
    have hca : before c a = true := (htotal a ha c hc hne.2.1).resolve_left (by simp [hac])
    obtain ⟨rest, hrest⟩ := exists_perm_of_mem [a, b, c] (l := l)
      (by simp [hne.1, hne.2.1, hne.2.2]) (by simp [ha, hb, hc])
    have habc := hstand a b [c] rest (by simp [InOrder, oneWay a b hab, oneWay b c hbc]) hrest
    have hbca := hstand b c [a] rest (by simp [InOrder, oneWay b c hbc, oneWay c a hca])
      (((@List.perm_append_comm α [b, c] [a]).append_right rest).trans hrest)
    have hab' : [a, b].Sublist [a, b, c] := (List.prefix_append [a, b] [c]).sublist
    have hba' : [b, a].Sublist [b, c, a] := (List.sublist_cons_self c [a]).cons_cons b
    exact not_sublist_swap hnodup (hab'.trans habc) (hba'.trans hbca)
  · intro h l' hperm
    refine sortBy_eq_of_pairwise oneWay (pairwise_sortBy oneWay nodup h)
      (hperm.trans (sortBy_perm l).symm) (h.of_subset fun a ha => hperm.mem_iff.mp ha)

end Ordered

end Scaffold
