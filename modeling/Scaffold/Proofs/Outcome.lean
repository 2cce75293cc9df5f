import Mathlib.Data.List.Forall2
import Mathlib.Tactic.Common

/-!
Computations that come to a result.

A computation step by step comes to a result exactly when every step does.

* `bind_eq_ok_iff`, `map_eq_ok_iff`, `mapError_eq_ok_iff`, `toOption_eq_some_iff`: the steps
  of a result.
* `mapM_eq_ok_iff`, `mapM_eq_ok_iff_pairs`, `exists_of_mapM_eq_ok`: one computation for each item
  of a list; `mapM_filter_of_pairs`: for some items.
* `exists_of_forall₂`, `forall₂_of_exists`, `forall₂_iff_of_mem`, `forall₂_eq_iff`: lists that
  are related item by item; `mem_of_lookup`: a value that is looked up.
* `filterM_eq_ok_iff`, `exists_of_filterM_eq_error`: a condition for each item of a list.
* `bind_eq_error_iff`, `map_eq_error_iff`, `mapError_eq_error_iff`,
  `exists_of_mapM_eq_error`: where a fault comes from.
-/

namespace Scaffold

variable {ε ε' α β : Type}

/-- One step after another comes to a result when both do. -/
lemma bind_eq_ok_iff {x : Except ε α} {f : α → Except ε β} {b : β} :
    (x >>= f) = .ok b ↔ ∃ a, x = .ok a ∧ f a = .ok b := by
  cases x with
  | error e => simp [bind, Except.bind]
  | ok a => simp [bind, Except.bind]

/-- A result is changed when there is one. -/
lemma map_eq_ok_iff {x : Except ε α} {f : α → β} {b : β} :
    x.map f = .ok b ↔ ∃ a, x = .ok a ∧ f a = b := by
  cases x with
  | error e => simp [Except.map]
  | ok a => simp [Except.map]

/-- Another name for a fault makes no result. -/
lemma mapError_eq_ok_iff {x : Except ε α} {f : ε → ε'} {a : α} :
    x.mapError f = .ok a ↔ x = .ok a := by
  cases x with
  | error e => simp [Except.mapError]
  | ok a => simp [Except.mapError]

/-- A result is what is left when faults are forgotten. -/
lemma toOption_eq_some_iff {x : Except ε α} {a : α} : x.toOption = some a ↔ x = .ok a := by
  cases x with
  | error e => simp [Except.toOption]
  | ok b => simp [Except.toOption]

/-- The items of a list come to results when each of them does. -/
lemma mapM_eq_ok_iff {f : α → Except ε β} {as : List α} {bs : List β} :
    as.mapM f = .ok bs ↔ List.Forall₂ (fun a b => f a = .ok b) as bs := by
  induction as generalizing bs with
  | nil => simp [pure, Except.pure, eq_comm]
  | cons a as ih =>
    simp only [List.mapM_cons, bind_eq_ok_iff, pure, Except.pure, Except.ok.injEq, ih]
    constructor
    · rintro ⟨b, hb, rest, hrest, rfl⟩
      exact .cons hb hrest
    · intro h
      cases h with
      | cons hb hrest => exact ⟨_, hb, _, hrest, rfl⟩

/-- They do when they can be paired with their results. -/
lemma mapM_eq_ok_iff_pairs {f : α → Except ε β} {as : List α} {bs : List β} :
    as.mapM f = .ok bs ↔ ∃ pairs : List (α × β), pairs.map Prod.fst = as ∧
      pairs.map Prod.snd = bs ∧ ∀ pair ∈ pairs, f pair.1 = .ok pair.2 := by
  rw [mapM_eq_ok_iff]
  constructor
  · intro h
    induction h with
    | nil => exact ⟨[], rfl, rfl, by simp⟩
    | @cons a b as bs hb _ ih =>
      obtain ⟨pairs, rfl, rfl, hpairs⟩ := ih
      exact ⟨(a, b) :: pairs, rfl, rfl, List.forall_mem_cons.mpr ⟨hb, hpairs⟩⟩
  · rintro ⟨pairs, rfl, rfl, hpairs⟩
    rw [List.forall₂_map_left_iff, List.forall₂_map_right_iff, List.forall₂_same]
    exact hpairs

/-- So do those items that satisfy a condition, with the same results. -/
lemma mapM_filter_of_pairs {f : α → Except ε β} {pairs : List (α × β)}
    (h : ∀ pair ∈ pairs, f pair.1 = .ok pair.2) (p : α → Bool) :
    ((pairs.map Prod.fst).filter p).mapM f = .ok ((pairs.filter (p ·.1)).map Prod.snd) := by
  refine mapM_eq_ok_iff_pairs.mpr ⟨pairs.filter (p ·.1), ?_, rfl, fun pair hpair =>
    h pair (List.mem_of_mem_filter hpair)⟩
  rw [List.filter_map]
  rfl

/-- What is related to a list item by item has a partner for every item. -/
lemma exists_of_forall₂ {R : α → β → Prop} {as : List α} {bs : List β}
    (h : List.Forall₂ R as bs) {a : α} (ha : a ∈ as) : ∃ b ∈ bs, R a b := by
  induction h with
  | nil => cases ha
  | @cons a' b as bs hb _ ih =>
    rcases List.mem_cons.mp ha with rfl | ha
    · exact ⟨b, by simp, hb⟩
    · obtain ⟨b', hb', hf⟩ := ih ha
      exact ⟨b', by simp [hb'], hf⟩

/-- A list each item of which has a partner is related to a list item by item. -/
lemma forall₂_of_exists {R : α → β → Prop} {as : List α} (h : ∀ a ∈ as, ∃ b, R a b) :
    ∃ bs, List.Forall₂ R as bs := by
  induction as with
  | nil => exact ⟨[], .nil⟩
  | cons a as ih =>
    obtain ⟨b, hb⟩ := h a (by simp)
    obtain ⟨bs, hbs⟩ := ih fun other hother => h other (by simp [hother])
    exact ⟨b :: bs, .cons hb hbs⟩

/-- The first value of a name is one of the values. -/
lemma mem_of_lookup [BEq α] [LawfulBEq α] {values : List (α × β)} {name : α} {value : β}
    (h : values.lookup name = some value) : (name, value) ∈ values := by
  obtain ⟨before, after, rfl, -⟩ := List.lookup_eq_some_iff.mp h
  simp

/-- Every item of a list that comes to results comes to one. -/
lemma exists_of_mapM_eq_ok {f : α → Except ε β} {as : List α} {bs : List β}
    (h : as.mapM f = .ok bs) {a : α} (ha : a ∈ as) : ∃ b ∈ bs, f a = .ok b :=
  exists_of_forall₂ (mapM_eq_ok_iff.mp h) ha

/-- One step after another fails with the fault of one of them. -/
lemma bind_eq_error_iff {x : Except ε α} {f : α → Except ε β} {e : ε} :
    (x >>= f) = .error e ↔ x = .error e ∨ ∃ a, x = .ok a ∧ f a = .error e := by
  cases x with
  | error e => simp [bind, Except.bind]
  | ok a => simp [bind, Except.bind]

/-- A changed result has the fault of the first. -/
lemma map_eq_error_iff {x : Except ε α} {f : α → β} {e : ε} :
    x.map f = .error e ↔ x = .error e := by
  cases x with
  | error e => simp [Except.map]
  | ok a => simp [Except.map]

/-- Another name for a fault names a fault. -/
lemma mapError_eq_error_iff {x : Except ε α} {f : ε → ε'} {e : ε'} :
    x.mapError f = .error e ↔ ∃ cause, x = .error cause ∧ f cause = e := by
  cases x with
  | error e => simp [Except.mapError]
  | ok a => simp [Except.mapError]

/-- The fault of a list of computations is that of one of them. -/
lemma exists_of_mapM_eq_error {f : α → Except ε β} {as : List α} {e : ε}
    (h : as.mapM f = .error e) : ∃ a ∈ as, f a = .error e := by
  induction as with
  | nil => cases h
  | cons a as ih =>
    rw [List.mapM_cons, bind_eq_error_iff] at h
    rcases h with ha | ⟨b, -, h⟩
    · exact ⟨a, by simp, ha⟩
    · rcases bind_eq_error_iff.mp h with has | ⟨bs, -, h⟩
      · obtain ⟨a', hmem, ha'⟩ := ih has
        exact ⟨a', by simp [hmem], ha'⟩
      · cases h

/-- The items that satisfy a condition are those for which it comes to the result that they do. -/
lemma filterM_eq_ok_iff {f : α → Except ε Bool} {as bs : List α} :
    as.filterM f = .ok bs ↔ ∃ g : α → Bool, (∀ a ∈ as, f a = .ok (g a)) ∧ as.filter g = bs := by
  have hgoes : ∀ {g : α → Bool} {as : List α}, (∀ a ∈ as, f a = .ok (g a)) →
      ∀ acc, List.filterAuxM f as acc = .ok ((as.filter g).reverse ++ acc) := by
    intro g as
    induction as with
    | nil => exact fun _ _ => rfl
    | cons a as ih =>
      intro h acc
      rw [List.filterAuxM, h a (by simp)]
      refine (ih (fun b hb => h b (by simp [hb])) _).trans ?_
      cases hg : g a <;> simp [hg]
  have hstops : ∀ {as acc bs : List α}, List.filterAuxM f as acc = .ok bs →
      ∀ a ∈ as, ∃ b, f a = .ok b := by
    intro as
    induction as with
    | nil => simp
    | cons a as ih =>
      intro acc bs h
      rw [List.filterAuxM] at h
      obtain ⟨b, hb, h⟩ := bind_eq_ok_iff.mp h
      exact List.forall_mem_cons.mpr ⟨⟨b, hb⟩, ih h⟩
  rw [List.filterM]
  constructor
  · intro h
    obtain ⟨found, hfound, h⟩ := bind_eq_ok_iff.mp h
    have hg : ∀ a ∈ as, f a = .ok ((f a).toOption.getD false) := by
      intro a ha
      obtain ⟨b, hb⟩ := hstops hfound a ha
      simp [hb, Except.toOption]
    refine ⟨_, hg, ?_⟩
    rw [hgoes hg, List.append_nil] at hfound
    cases hfound
    cases h
    exact (List.reverse_reverse _).symm
  · rintro ⟨g, hg, rfl⟩
    rw [hgoes hg, List.append_nil]
    exact congrArg Except.ok (List.reverse_reverse _)

/-- A condition that comes to no result fails at one of the items. -/
lemma exists_of_filterM_eq_error {f : α → Except ε Bool} {as : List α} {e : ε}
    (h : as.filterM f = .error e) : ∃ a ∈ as, f a = .error e := by
  have hstops : ∀ {as acc : List α}, List.filterAuxM f as acc = .error e →
      ∃ a ∈ as, f a = .error e := by
    intro as
    induction as with
    | nil => exact fun h => by cases h
    | cons a as ih =>
      intro acc h
      rw [List.filterAuxM] at h
      rcases bind_eq_error_iff.mp h with ha | ⟨b, -, h⟩
      · exact ⟨a, by simp, ha⟩
      · obtain ⟨a', hmem, ha'⟩ := ih h
        exact ⟨a', by simp [hmem], ha'⟩
  rw [List.filterM] at h
  rcases bind_eq_error_iff.mp h with hfound | ⟨found, -, h⟩
  · exact hstops hfound
  · cases h

end Scaffold
