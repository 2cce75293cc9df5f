import Mathlib.Data.List.TakeWhile
import Scaffold.Proofs.Number.Digits
import Scaffold.Proofs.Number.Rounding

/-!
Shortest decimals read back.

Whatever decimal is found for a rank, it stands for a number that is next to the rank:
a candidate is taken only when it reads back, and the exact decimal, taken when no
candidate is found, always does.

* `ofDecimal_shortest`: the shortest decimal of a rank reads back as the rank.
* `ofDecimal_digits_shortest`: the same for its digits without the zeros at their end.
-/

namespace Scaffold.Number.Binary64

variable {rank num den : Nat} {point : Int}

/-- The sign of a decimal is the sign of its number. -/
lemma exists_ofDecimal_eq (digits : Nat) (exponent : Int) :
    ∃ rank, ∀ negative, ofDecimal negative digits exponent = ofRank negative rank := by
  rcases Nat.eq_zero_or_pos digits with rfl | h
  · exact ⟨0, fun negative => by simp [ofDecimal]⟩
  · exact ⟨_, fun negative => ofDecimal_eq_ofRatio negative h exponent⟩

lemma ofRank_inj {negative : Bool} {a b : Nat} :
    ofRank negative a = ofRank negative b ↔ min infiniteRank a = min infiniteRank b := by
  simp [ofRank]

/-- A decimal that reads back does so with either sign. -/
lemma ofDecimal_of_positive {digits : Nat} {exponent : Int}
    (h : ofDecimal false digits exponent = ofRank false rank) (negative : Bool) :
    ofDecimal negative digits exponent = ofRank negative rank := by
  obtain ⟨other, hother⟩ := exists_ofDecimal_eq digits exponent
  rw [hother] at h ⊢
  rw [ofRank_inj] at h ⊢
  exact h

/-- A candidate reads back. -/
lemma ofDecimal_candidate {count : Nat} {decimal : Nat × Int}
    (h : candidate? rank num den point count = some decimal) :
    ofDecimal false decimal.1 decimal.2 = ofRank false rank := by
  rw [candidate?] at h
  simp only at h
  split_ifs at h with _ hfirst hsecond hfirst hsecond <;> cases h
  · exact beq_iff_eq.mp hfirst
  · exact beq_iff_eq.mp hsecond
  · exact beq_iff_eq.mp hfirst
  · exact beq_iff_eq.mp hsecond

/-- Candidates are tried until one reads back. -/
lemma ofDecimal_shortestFrom {fuel count : Nat} {decimal : Nat × Int}
    (h : shortestFrom rank num den point fuel count = some decimal) :
    ofDecimal false decimal.1 decimal.2 = ofRank false rank := by
  induction fuel generalizing count with
  | zero => cases h
  | succ fuel ih =>
    rw [shortestFrom] at h
    cases hcandidate : candidate? rank num den point count with
    | none =>
      rw [hcandidate] at h
      exact ih h
    | some found =>
      rw [hcandidate, Option.some.injEq] at h
      exact h ▸ ofDecimal_candidate hcandidate

/-- The denominator of a magnitude is a power of two. -/
lemma exists_magnitude_snd (rank : Nat) : ∃ k, (magnitude rank).2 = 2 ^ k := by
  rw [magnitude_eq]
  split
  · exact ⟨_, rfl⟩
  · exact ⟨0, rfl⟩

/-- The exact decimal of a rank reads back. -/
lemma ofDecimal_exactDecimal (hpos : 0 < rank) (hle : rank ≤ infiniteRank) :
    ofDecimal false (exactDecimal (magnitude rank).1 (magnitude rank).2).1
      (exactDecimal (magnitude rank).1 (magnitude rank).2).2 = ofRank false rank := by
  obtain ⟨hnum, hden⟩ := magnitude_pos hpos
  obtain ⟨k, hk⟩ := exists_magnitude_snd rank
  have hdigits : 0 < (magnitude rank).1 * 5 ^ k := by positivity
  rw [exactDecimal, hk, Nat.log2_two_pow]
  simp only [Nat.pow_eq]
  have hratio : decimalRatio ((magnitude rank).1 * 5 ^ k) (-(k : Int)) =
      ((magnitude rank).1 * 5 ^ k, (magnitude rank).2 * 5 ^ k) := by
    rw [decimalRatio, hk]
    simp only [Nat.pow_eq, ← mul_pow]
    split
    · next hzero =>
      have : k = 0 := by omega
      simp [this]
    · simp
  rw [ofDecimal_eq_ofRatio false hdigits, hratio, ofRatio, nearestRank_mul (by positivity) hnum hden,
    nearestRank_magnitude hpos hle]

/-- **The shortest decimal** of a rank reads back. -/
lemma ofDecimal_shortest (hpos : 0 < rank) (hle : rank ≤ infiniteRank) (negative : Bool) :
    ofDecimal negative (shortest rank).1 (shortest rank).2 = ofRank negative rank := by
  refine ofDecimal_of_positive ?_ negative
  rw [shortest]
  cases hfound : shortestFrom rank (magnitude rank).1 (magnitude rank).2
    (decimalPoint (magnitude rank).1 (magnitude rank).2) 17 1 with
  | none =>
    simp only [hfound, Option.getD_none]
    exact ofDecimal_exactDecimal hpos hle
  | some decimal =>
    simp only [hfound, Option.getD_some]
    exact ofDecimal_shortestFrom hfound

/-- The shortest decimal of a positive rank has digits. -/
lemma shortest_pos (hpos : 0 < rank) (hle : rank ≤ infiniteRank) : 0 < (shortest rank).1 := by
  rcases Nat.eq_zero_or_pos (shortest rank).1 with hzero | h
  · have hback := ofDecimal_shortest hpos hle false
    rw [hzero] at hback
    simp only [ofDecimal, beq_self_eq_true, if_true, ofRank_inj] at hback
    have : 0 < infiniteRank := by decide
    omega
  · exact h

/-! ### Zeros at the end -/

/-- Digits are digits without zeros at their end, and then zeros. -/
lemma exists_withoutTrailingZeros (digits : List Char) :
    ∃ k, digits = withoutTrailingZeros digits ++ List.replicate k '0' := by
  have hzeros : digits.reverse.takeWhile (· == '0') =
      List.replicate (digits.reverse.takeWhile (· == '0')).length '0' :=
    List.eq_replicate_of_mem fun c hc => by simpa using List.mem_takeWhile_imp hc
  refine ⟨(digits.reverse.takeWhile (· == '0')).length, ?_⟩
  have hsplit := congrArg List.reverse
    (List.takeWhile_append_dropWhile (p := (· == '0')) (l := digits.reverse))
  rw [List.reverse_append, List.reverse_reverse, hzeros, List.reverse_replicate] at hsplit
  exact hsplit.symm

/-- The digits of a positive number without zeros at their end: they are digits, do not
start with zero, and have the value of the number together with an exponent. -/
lemma withoutTrailingZeros_digitsOf {n : Nat} (h : 0 < n) :
    ∃ k, digitsOf n = withoutTrailingZeros (digitsOf n) ++ List.replicate k '0' ∧
      (∀ c ∈ withoutTrailingZeros (digitsOf n), c.isDigit) ∧
      (∃ c cs, withoutTrailingZeros (digitsOf n) = c :: cs ∧ c ≠ '0') ∧
      n = natOfDecimal (withoutTrailingZeros (digitsOf n)) * 10 ^ k := by
  obtain ⟨k, hk⟩ := exists_withoutTrailingZeros (digitsOf n)
  generalize withoutTrailingZeros (digitsOf n) = kept at *
  have hkept : ∀ c ∈ kept, c.isDigit := fun c hc =>
    isDigit_of_mem_digitsOf (n := n) (by rw [hk]; exact List.mem_append_left _ hc)
  refine ⟨k, hk, hkept, ?_, ?_⟩
  · obtain ⟨c, cs, hcs, hne⟩ := digitsOf_head h
    cases kept with
    | nil =>
      rw [hcs, List.nil_append] at hk
      have hmem : c ∈ List.replicate k '0' := hk ▸ List.mem_cons_self
      exact absurd (List.mem_replicate.mp hmem).2 hne
    | cons d ds =>
      rw [hcs, List.cons_append, List.cons.injEq] at hk
      exact ⟨d, ds, rfl, hk.1 ▸ hne⟩
  · have hvalue := natOfDecimal_digitsOf n
    rw [hk, natOfDecimal_append hkept fun c hc => by rw [(List.mem_replicate.mp hc).2]; rfl,
      natOfDecimal_zeros, List.length_replicate, Nat.add_zero] at hvalue
    exact hvalue.symm

/-- The digits of the shortest decimal without the zeros at their end read back too. -/
lemma ofDecimal_digits_shortest (hpos : 0 < rank) (hle : rank ≤ infiniteRank) (negative : Bool) :
    ofDecimal negative (natOfDecimal (withoutTrailingZeros (digitsOf (shortest rank).1)))
      ((shortest rank).2 + (digitsOf (shortest rank).1).length -
        (withoutTrailingZeros (digitsOf (shortest rank).1)).length) = ofRank negative rank := by
  obtain ⟨k, hk, -, -, hvalue⟩ := withoutTrailingZeros_digitsOf (shortest_pos hpos hle)
  have hlength := congrArg List.length hk
  rw [List.length_append, List.length_replicate] at hlength
  have hexponent : (shortest rank).2 + (digitsOf (shortest rank).1).length -
      (withoutTrailingZeros (digitsOf (shortest rank).1)).length = (shortest rank).2 + k := by
    omega
  rw [hexponent, ← ofDecimal_shift, ← hvalue, ofDecimal_shortest hpos hle]

end Scaffold.Number.Binary64
