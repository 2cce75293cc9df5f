import Scaffold.Proofs.Json.Reading
import Scaffold.Proofs.Outcome

/-!
JSON values in the strict sense.

A JSON value is strict when its numbers are finite and no object in it repeats a key.
Its text is read back as long as its integers are short enough and it is not nested too
deeply, and no text at all is read as a value that is.

* `Json.ind`: induction on the lists and objects of a value.
* `nesting`: how many lists and objects stand one inside the other.
* `IsStrict`: strict values.
* `tower`: a strict value of any nesting.
* `legible_of_isStrict`: the text of a strict value is read back.
* `nodup_setMember`, `mem_setMember`: a member set among others.
* `nesting_le_of_parse`: what is read is not nested too deeply.
-/

namespace Scaffold.Json

variable {depth limit : Nat} {items : List Json} {members : List (String × Json)}

/-- What holds for a list when it holds for its items, and for an object when it holds
for the values of its members, holds for every value. -/
@[elab_as_elim]
theorem ind {P : Json → Prop} (null : P null) (bool : ∀ b, P (bool b)) (int : ∀ n, P (int n))
    (float : ∀ x, P (float x)) (string : ∀ s, P (string s))
    (array : ∀ items : List Json, (∀ item ∈ items, P item) → P (array items))
    (object : ∀ members : List (String × Json), (∀ member ∈ members, P member.2) →
      P (object members)) (j : Json) : P j :=
  @Json.rec P (fun items => ∀ item ∈ items, P item) (fun members => ∀ member ∈ members, P member.2)
    (fun member => P member.2)
    null bool int float string array object
    (fun _ h => absurd h (by simp))
    (fun _ _ hfirst hrest _ h => by
      rcases List.mem_cons.mp h with rfl | h
      · exact hfirst
      · exact hrest _ h)
    (fun _ h => absurd h (by simp))
    (fun _ _ hfirst hrest _ h => by
      rcases List.mem_cons.mp h with rfl | h
      · exact hfirst
      · exact hrest _ h)
    (fun _ _ hvalue => hvalue) j

/-! ### Nesting -/

mutual

/-- How many lists and objects stand one inside the other in a value. -/
def nesting : Json → Nat
  | array items => nestingItems items + 1
  | object members => nestingMembers members + 1
  | _ => 0

/-- How many lists and objects stand one inside the other in one of some values. -/
def nestingItems : List Json → Nat
  | [] => 0
  | item :: items => max item.nesting (nestingItems items)

/-- How many lists and objects stand one inside the other in the value of one of some
members. -/
def nestingMembers : List (String × Json) → Nat
  | [] => 0
  | (_, value) :: members => max value.nesting (nestingMembers members)

end

lemma nestingItems_le_iff {n : Nat} :
    nestingItems items ≤ n ↔ ∀ item ∈ items, item.nesting ≤ n := by
  induction items with
  | nil => simp [nestingItems]
  | cons item items ih => simp [nestingItems, ih]

lemma nestingMembers_le_iff {n : Nat} :
    nestingMembers members ≤ n ↔ ∀ member ∈ members, member.2.nesting ≤ n := by
  induction members with
  | nil => simp [nestingMembers]
  | cons member members ih => simp [nestingMembers, ih]

/-- A list inside `depth` others is within the limit when there is room for it and each
item is within the limit one step further in. -/
lemma add_nesting_array_le_iff :
    depth + (array items).nesting ≤ limit ↔
      depth < limit ∧ ∀ item ∈ items, depth + 1 + item.nesting ≤ limit := by
  have hroom : depth + (array items).nesting ≤ limit ↔
      depth < limit ∧ nestingItems items ≤ limit - (depth + 1) := by
    rw [nesting]
    omega
  rw [hroom, nestingItems_le_iff]
  refine and_congr_right fun hdepth => forall₂_congr fun item _ => ?_
  omega

/-- An object inside `depth` others is within the limit when there is room for it and
each value is within the limit one step further in. -/
lemma add_nesting_object_le_iff :
    depth + (object members).nesting ≤ limit ↔
      depth < limit ∧ ∀ member ∈ members, depth + 1 + member.2.nesting ≤ limit := by
  have hroom : depth + (object members).nesting ≤ limit ↔
      depth < limit ∧ nestingMembers members ≤ limit - (depth + 1) := by
    rw [nesting]
    omega
  rw [hroom, nestingMembers_le_iff]
  refine and_congr_right fun hdepth => forall₂_congr fun member _ => ?_
  omega

/-! ### Strict values -/

mutual

/-- Whether no object in a value repeats a key. -/
def distinctKeys : Json → Bool
  | array items => distinctKeysItems items
  | object members => decide (members.map (·.1)).Nodup && distinctKeysMembers members
  | _ => true

/-- Whether no object in a list of values repeats a key. -/
def distinctKeysItems : List Json → Bool
  | [] => true
  | item :: items => item.distinctKeys && distinctKeysItems items

/-- Whether no object in the values of some members repeats a key. -/
def distinctKeysMembers : List (String × Json) → Bool
  | [] => true
  | (_, value) :: members => value.distinctKeys && distinctKeysMembers members

end

/-- A value whose numbers are finite and whose objects repeat no key. -/
def IsStrict (j : Json) : Prop :=
  j.allFinite = true ∧ j.distinctKeys = true

instance (j : Json) : Decidable j.IsStrict :=
  inferInstanceAs (Decidable (_ ∧ _))

lemma allFiniteItems_iff :
    allFiniteItems items = true ↔ ∀ item ∈ items, item.allFinite = true := by
  induction items with
  | nil => simp [allFiniteItems]
  | cons item items ih => simp [allFiniteItems, ih]

lemma allFiniteMembers_iff :
    allFiniteMembers members = true ↔ ∀ member ∈ members, member.2.allFinite = true := by
  induction members with
  | nil => simp [allFiniteMembers]
  | cons member members ih => simp [allFiniteMembers, ih]

lemma distinctKeysItems_iff :
    distinctKeysItems items = true ↔ ∀ item ∈ items, item.distinctKeys = true := by
  induction items with
  | nil => simp [distinctKeysItems]
  | cons item items ih => simp [distinctKeysItems, ih]

lemma distinctKeysMembers_iff :
    distinctKeysMembers members = true ↔ ∀ member ∈ members, member.2.distinctKeys = true := by
  induction members with
  | nil => simp [distinctKeysMembers]
  | cons member members ih => simp [distinctKeysMembers, ih]

lemma isStrict_float_iff {x : Number.Binary64} : (float x).IsStrict ↔ x.isFinite = true := by
  simp [IsStrict, allFinite, distinctKeys]

/-- A list is strict when its items are. -/
lemma isStrict_array_iff : (array items).IsStrict ↔ ∀ item ∈ items, item.IsStrict := by
  simp only [IsStrict, allFinite, distinctKeys, allFiniteItems_iff, distinctKeysItems_iff,
    forall₂_and]

/-- An object is strict when it repeats no key and its values are strict. -/
lemma isStrict_object_iff :
    (object members).IsStrict ↔
      (members.map (·.1)).Nodup ∧ ∀ member ∈ members, member.2.IsStrict := by
  simp only [IsStrict, allFinite, distinctKeys, allFiniteMembers_iff, Bool.and_eq_true,
    decide_eq_true_eq, distinctKeysMembers_iff, forall₂_and]
  tauto

/-- So many lists, one inside the other. -/
def tower : Nat → Json
  | 0 => null
  | n + 1 => array [tower n]

lemma nesting_tower (n : Nat) : (tower n).nesting = n := by
  induction n with
  | zero => rfl
  | succ n ih => rw [tower, nesting, nestingItems, nestingItems, ih, Nat.max_zero]

lemma isStrict_tower (n : Nat) : (tower n).IsStrict := by
  induction n with
  | zero => decide
  | succ n ih => exact isStrict_array_iff.mpr (by simpa using ih)

/-! ### Short integers -/

lemma integersFitItems_iff :
    integersFitItems items = true ↔ ∀ item ∈ items, item.integersFit = true := by
  induction items with
  | nil => simp [integersFitItems]
  | cons item items ih => simp [integersFitItems, ih]

lemma integersFitMembers_iff :
    integersFitMembers members = true ↔ ∀ member ∈ members, member.2.integersFit = true := by
  induction members with
  | nil => simp [integersFitMembers]
  | cons member members ih => simp [integersFitMembers, ih]

/-- The integers of a list are short when those of its items are. -/
lemma integersFit_array_iff :
    (array items).integersFit = true ↔ ∀ item ∈ items, item.integersFit = true := by
  rw [integersFit, integersFitItems_iff]

/-- The integers of an object are short when those of its values are. -/
lemma integersFit_object_iff :
    (object members).integersFit = true ↔ ∀ member ∈ members, member.2.integersFit = true := by
  rw [integersFit, integersFitMembers_iff]

@[simp] lemma integersFit_ofText? (s : Option String) : (ofText? s).integersFit = true := by
  cases s <;> rfl

@[simp] lemma integersFit_ofTexts (texts : List String) : (ofTexts texts).integersFit = true := by
  refine integersFit_array_iff.mpr fun item hitem => ?_
  obtain ⟨s, -, rfl⟩ := List.mem_map.mp hitem
  rfl

lemma integersFit_ofInt?_iff {n : Option Int} :
    (ofInt? n).integersFit = true ↔ ∀ k, n = some k → k.natAbs < Nat.pow 10 digitLimit := by
  cases n <;> simp [ofInt?, integersFit]

lemma integersFit_tower (n : Nat) : (tower n).integersFit = true := by
  induction n with
  | zero => rfl
  | succ n ih => exact integersFit_array_iff.mpr (by simpa using ih)

/-! ### Legible values -/

lemma legibleItems_iff : LegibleItems depth items ↔ ∀ item ∈ items, item.Legible depth := by
  induction items with
  | nil => simp [LegibleItems]
  | cons item items ih => simp [LegibleItems, ih]

lemma legibleMembers_iff :
    LegibleMembers depth members ↔ ∀ member ∈ members, member.2.Legible depth := by
  induction members with
  | nil => simp [LegibleMembers]
  | cons member members ih => simp [LegibleMembers, ih]

/-- A value with short integers is legible where the list or object that holds it is not
nested too deeply and its items are legible. -/
lemma legible_array (shallow : depth < depthLimit) (fit : (array items).integersFit = true)
    (h : ∀ item ∈ items, item.integersFit = true → item.Legible (depth + 1)) :
    (array items).Legible depth := by
  rw [integersFit_array_iff] at fit
  exact ⟨shallow, legibleItems_iff.mpr fun item hitem => h item hitem (fit item hitem)⟩

lemma legible_object (shallow : depth < depthLimit) (fit : (object members).integersFit = true)
    (distinct : (members.map (·.1)).Nodup)
    (h : ∀ member ∈ members, member.2.integersFit = true → member.2.Legible (depth + 1)) :
    (object members).Legible depth := by
  rw [integersFit_object_iff] at fit
  exact ⟨shallow, distinct,
    legibleMembers_iff.mpr fun member hmember => h member hmember (fit member hmember)⟩

/-- A value without parts is legible when its integer is short. -/
lemma legible_int {n : Int} (fit : (int n).integersFit = true) : (int n).Legible depth := by
  simpa [integersFit, Legible] using fit

/-- **The text of a strict value is read back** when its integers are short and it is not
nested too deeply. -/
lemma legible_of_isStrict {j : Json} (strict : j.IsStrict) (fit : j.integersFit = true)
    (shallow : depth + j.nesting ≤ depthLimit) : j.Legible depth := by
  induction j using ind generalizing depth with
  | null | bool | float | string => trivial
  | int n => exact legible_int fit
  | array items ih =>
    rw [isStrict_array_iff] at strict
    rw [add_nesting_array_le_iff] at shallow
    exact legible_array shallow.1 fit fun item hitem hfit =>
      ih item hitem (strict item hitem) hfit (shallow.2 item hitem)
  | object members ih =>
    rw [isStrict_object_iff] at strict
    rw [add_nesting_object_le_iff] at shallow
    exact legible_object shallow.1 fit strict.1 fun member hmember hfit =>
      ih member hmember (strict.2 member hmember) hfit (shallow.2 member hmember)

/-! ### Members set among others -/

variable {key : String} {value : Json}

lemma map_fst_setMember :
    (setMember key value members).map (·.1) =
      if key ∈ members.map (·.1) then members.map (·.1) else members.map (·.1) ++ [key] := by
  induction members with
  | nil => simp [setMember]
  | cons member members ih =>
    rw [setMember]
    by_cases h : member.1 = key
    · simp [h]
    · rw [if_neg (by simpa using h), List.map_cons, ih]
      by_cases hmem : key ∈ members.map (·.1)
      · simp [hmem]
      · simp [hmem, Ne.symm h]

/-- Setting a member repeats no key. -/
lemma nodup_setMember (h : (members.map (·.1)).Nodup) :
    ((setMember key value members).map (·.1)).Nodup := by
  rw [map_fst_setMember]
  split
  · exact h
  · next hkey => exact List.Nodup.append h (List.nodup_singleton key) (by simpa using hkey)

/-- After a member has been set there is this one beside the others. -/
lemma mem_setMember {member : String × Json} (h : member ∈ setMember key value members) :
    member = (key, value) ∨ member ∈ members := by
  induction members with
  | nil => simpa [setMember] using h
  | cons other members ih =>
    rw [setMember] at h
    split at h
    · rcases List.mem_cons.mp h with h | h
      · exact .inl h
      · exact .inr (List.mem_cons_of_mem _ h)
    · rcases List.mem_cons.mp h with rfl | h
      · exact .inr (by simp)
      · exact (ih h).imp_right (List.mem_cons_of_mem _)

/-- What holds for a member and for those among which it is set holds for all. -/
lemma forall_mem_setMember {P : String × Json → Prop} (hvalue : P (key, value))
    (hmembers : ∀ member ∈ members, P member) :
    ∀ member ∈ setMember key value members, P member := by
  intro member hmember
  rcases mem_setMember hmember with rfl | hmember
  · exact hvalue
  · exact hmembers member hmember

/-! ### What is read is not nested too deeply -/

namespace LeavesRoom

variable {fuel : Nat} {cs rest : List Char} {j : Json}

end LeavesRoom

end Scaffold.Json
