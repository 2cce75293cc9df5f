import Mathlib.Tactic.Linarith
import Mathlib.Tactic.Positivity
import Mathlib.Tactic.Ring
import Scaffold.Number.Shortest

/-!
Rounding depends on the value of a quotient alone.

The scale of a quotient is the least one at which its significand fits. It is the same
for every way of writing the quotient, and so is the rank nearest to it; a rank is the
one nearest to its own magnitude.

* `scaleOf_eq_iff`: the scale of a quotient.
* `nearestRank_mul`, `ofRatio_congr`: the same for equal quotients.
* `nearestRank_magnitude`: a rank is the nearest to its own magnitude.
* `ofDecimal_eq_ofRatio`: the cases of `ofDecimal` all compute the same.
* `ofDecimal_shift`: zeros at the end of digits count like an exponent.
-/

namespace Scaffold.Number.Binary64

variable {num den s r : Nat}

/-! ### The scale of a quotient -/

/-- The exponent of the smallest positive number, without its sign. -/
def leastPower : Nat := 1074

lemma leastPower_eq : leastPower = 1074 := rfl

/-- The significand of a quotient at a scale, before rounding. -/
def atScale (num den s : Nat) : Nat :=
  num * 2 ^ leastPower / (den * 2 ^ s)

lemma scaleOf_eq (num den : Nat) :
    scaleOf num den =
      if atScale num den (num.log2 + leastPower - den.log2 - 53) < 2 * hiddenBit then
        num.log2 + leastPower - den.log2 - 53
      else num.log2 + leastPower - den.log2 - 53 + 1 := rfl

lemma nearestRank_eq (num den : Nat) :
    nearestRank num den = min infiniteRank (scaleOf num den * hiddenBit +
      roundedQuotient (num * 2 ^ leastPower) (den * 2 ^ scaleOf num den)) := rfl

lemma magnitude_eq (r : Nat) :
    magnitude r = if scale r ≤ leastPower then (significand r, 2 ^ (leastPower - scale r))
      else (significand r * 2 ^ (scale r - leastPower), 1) := rfl

-- its power of two is a number that nothing is to compute
attribute [irreducible] leastPower

lemma two_mul_hiddenBit : 2 * hiddenBit = 2 ^ 53 := rfl

lemma atScale_lt_iff (hden : 0 < den) :
    atScale num den s < 2 * hiddenBit ↔ num * 2 ^ leastPower < den * 2 ^ (s + 53) := by
  rw [atScale, Nat.div_lt_iff_lt_mul (by positivity), two_mul_hiddenBit, pow_add]
  ring_nf

/-- The guess from the numbers of binary digits is right or one too small. -/
lemma guess_bounds (hnum : 0 < num) (hden : 0 < den) :
    atScale num den (num.log2 + leastPower - den.log2 - 53 + 1) < 2 * hiddenBit ∧
      ∀ t < num.log2 + leastPower - den.log2 - 53, ¬ atScale num den t < 2 * hiddenBit := by
  have hnumLow : 2 ^ num.log2 ≤ num := Nat.log2_self_le hnum.ne'
  have hnumHigh : num < 2 ^ (num.log2 + 1) := Nat.lt_log2_self
  have hdenLow : 2 ^ den.log2 ≤ den := Nat.log2_self_le hden.ne'
  have hdenHigh : den < 2 ^ (den.log2 + 1) := Nat.lt_log2_self
  constructor
  · rw [atScale_lt_iff hden]
    calc num * 2 ^ leastPower < 2 ^ (num.log2 + 1) * 2 ^ leastPower := by gcongr
      _ = 2 ^ (num.log2 + 1 + leastPower) := (pow_add _ _ _).symm
      _ ≤ 2 ^ (den.log2 + (num.log2 + leastPower - den.log2 - 53 + 1 + 53)) :=
        Nat.pow_le_pow_right (by decide) (by omega)
      _ = 2 ^ den.log2 * 2 ^ (num.log2 + leastPower - den.log2 - 53 + 1 + 53) := pow_add _ _ _
      _ ≤ den * 2 ^ (num.log2 + leastPower - den.log2 - 53 + 1 + 53) := by gcongr
  · intro t ht
    rw [atScale_lt_iff hden, not_lt]
    calc den * 2 ^ (t + 53) ≤ 2 ^ (den.log2 + 1) * 2 ^ (t + 53) := by gcongr
      _ = 2 ^ (den.log2 + 1 + (t + 53)) := (pow_add _ _ _).symm
      _ ≤ 2 ^ (num.log2 + leastPower) := Nat.pow_le_pow_right (by decide) (by omega)
      _ = 2 ^ num.log2 * 2 ^ leastPower := pow_add _ _ _
      _ ≤ num * 2 ^ leastPower := by gcongr

/-- The scale of a quotient is the least at which its significand fits. -/
lemma scaleOf_eq_iff (hnum : 0 < num) (hden : 0 < den) :
    scaleOf num den = s ↔
      atScale num den s < 2 * hiddenBit ∧ ∀ t < s, ¬ atScale num den t < 2 * hiddenBit := by
  have hleast : atScale num den (scaleOf num den) < 2 * hiddenBit ∧
      ∀ t < scaleOf num den, ¬ atScale num den t < 2 * hiddenBit := by
    obtain ⟨hfits, hbelow⟩ := guess_bounds hnum hden
    rw [scaleOf_eq]
    split
    · next h => exact ⟨h, hbelow⟩
    · next h =>
      refine ⟨hfits, fun t ht => ?_⟩
      rcases Nat.lt_succ_iff_lt_or_eq.mp ht with hlt | rfl
      · exact hbelow t hlt
      · exact h
  constructor
  · rintro rfl
    exact hleast
  · rintro ⟨hfits, hbelow⟩
    rcases Nat.lt_trichotomy (scaleOf num den) s with hlt | heq | hgt
    · exact absurd hleast.1 (hbelow _ hlt)
    · exact heq
    · exact absurd hfits (hleast.2 _ hgt)

/-! ### Equal quotients -/

lemma atScale_mul {c : Nat} (hc : 0 < c) (num den s : Nat) :
    atScale (num * c) (den * c) s = atScale num den s := by
  rw [atScale, atScale, Nat.mul_right_comm, Nat.mul_right_comm den c, Nat.mul_div_mul_right _ _ hc]

lemma roundedQuotient_mul {c : Nat} (hc : 0 < c) (num den : Nat) :
    roundedQuotient (num * c) (den * c) = roundedQuotient num den := by
  have hlt : (2 * (num % den * c) > den * c) ↔ 2 * (num % den) > den := by
    rw [gt_iff_lt, gt_iff_lt, ← Nat.mul_assoc, Nat.mul_lt_mul_right hc]
  have heq : (2 * (num % den * c) = den * c) ↔ 2 * (num % den) = den := by
    rw [← Nat.mul_assoc, Nat.mul_left_inj hc.ne']
  simp only [roundedQuotient, Nat.mul_mod_mul_right, Nat.mul_div_mul_right _ _ hc, hlt,
    beq_eq_decide, heq]

lemma scaleOf_mul {c : Nat} (hc : 0 < c) (hnum : 0 < num) (hden : 0 < den) :
    scaleOf (num * c) (den * c) = scaleOf num den := by
  rw [scaleOf_eq_iff (by positivity) (by positivity)]
  simp only [atScale_mul hc]
  exact (scaleOf_eq_iff hnum hden).mp rfl

/-- The nearest rank does not change when a quotient is expanded. -/
lemma nearestRank_mul {c : Nat} (hc : 0 < c) (hnum : 0 < num) (hden : 0 < den) :
    nearestRank (num * c) (den * c) = nearestRank num den := by
  rw [nearestRank_eq, nearestRank_eq, scaleOf_mul hc hnum hden, Nat.mul_right_comm num,
    Nat.mul_right_comm den, roundedQuotient_mul hc]

/-- Equal quotients have one nearest number. -/
lemma ofRatio_congr {num' den' : Nat} (negative : Bool) (hnum : 0 < num) (hden : 0 < den)
    (hnum' : 0 < num') (hden' : 0 < den') (h : num * den' = num' * den) :
    ofRatio negative num den = ofRatio negative num' den' := by
  rw [ofRatio, ofRatio, ← nearestRank_mul hden' hnum hden, ← nearestRank_mul hden hnum' hden', h,
    Nat.mul_comm den]

/-! ### Ranks and their magnitudes -/

/-- The scale and the significand of a rank make it up again. -/
lemma scale_mul_add_significand (r : Nat) : scale r * hiddenBit + significand r = r := by
  have hpos : 0 < hiddenBit := by decide
  rw [scale, significand]
  split
  · next h => rw [Nat.div_eq_of_lt h]; simp
  · next h =>
    have hone : 1 ≤ r / hiddenBit := (Nat.one_le_div_iff hpos).mpr (by omega)
    have hsum : (r / hiddenBit - 1) * hiddenBit + hiddenBit = r / hiddenBit * hiddenBit := by
      rw [← Nat.succ_mul]
      congr 1
      omega
    have := Nat.div_add_mod' r hiddenBit
    omega

lemma significand_lt (r : Nat) : significand r < 2 * hiddenBit := by
  have hmod := Nat.mod_lt r (show hiddenBit > 0 by decide)
  rw [significand]
  split <;> omega

/-- Above the least scale a significand has all its digits. -/
lemma hiddenBit_le_significand (h : 0 < scale r) : hiddenBit ≤ significand r := by
  rw [significand, if_neg]
  · omega
  · intro hlt
    rw [scale, Nat.div_eq_of_lt hlt] at h
    omega

lemma significand_pos (h : 0 < r) : 0 < significand r := by
  rw [significand]
  split
  · exact h
  · have : 0 < hiddenBit := by decide
    omega

lemma magnitude_pos (h : 0 < r) : 0 < (magnitude r).1 ∧ 0 < (magnitude r).2 := by
  have := significand_pos h
  rw [magnitude_eq]
  split
  · exact ⟨this, by positivity⟩
  · exact ⟨by positivity, Nat.one_pos⟩

/-- The magnitude of a rank is its significand at its scale. -/
lemma magnitude_mul (r : Nat) :
    (magnitude r).1 * 2 ^ leastPower = (magnitude r).2 * (significand r * 2 ^ scale r) := by
  rw [magnitude_eq]
  split
  · next h =>
    have hpow : 2 ^ leastPower = 2 ^ (leastPower - scale r) * 2 ^ scale r := by
      rw [← pow_add]
      congr 1
      omega
    rw [hpow]
    ring
  · next h =>
    have hpow : 2 ^ scale r = 2 ^ (scale r - leastPower) * 2 ^ leastPower := by
      rw [← pow_add]
      congr 1
      omega
    rw [hpow]
    ring

/-- A rank is the nearest to its own magnitude. -/
lemma nearestRank_magnitude (hpos : 0 < r) (hle : r ≤ infiniteRank) :
    nearestRank (magnitude r).1 (magnitude r).2 = r := by
  obtain ⟨hnum, hden⟩ := magnitude_pos hpos
  have hmul := magnitude_mul r
  have hat : ∀ t, atScale (magnitude r).1 (magnitude r).2 t = significand r * 2 ^ scale r / 2 ^ t := by
    intro t
    rw [atScale, hmul, Nat.mul_div_mul_left _ _ hden]
  have hscale : scaleOf (magnitude r).1 (magnitude r).2 = scale r := by
    refine (scaleOf_eq_iff hnum hden).mpr ⟨?_, fun t ht => ?_⟩
    · rw [hat, Nat.mul_div_cancel _ (by positivity)]
      exact significand_lt r
    · have hfull := hiddenBit_le_significand (r := r) (by omega)
      have hpow : 2 ^ scale r = 2 ^ (scale r - t - 1) * 2 * 2 ^ t := by
        rw [← pow_succ, ← pow_add]
        congr 1
        omega
      rw [hat, hpow, ← Nat.mul_assoc, Nat.mul_div_cancel _ (by positivity), not_lt]
      have hone : 1 ≤ 2 ^ (scale r - t - 1) := Nat.one_le_two_pow
      nlinarith
  have hexact : roundedQuotient ((magnitude r).1 * 2 ^ leastPower)
      ((magnitude r).2 * 2 ^ scale r) = significand r := by
    rw [hmul, ← Nat.mul_assoc, Nat.mul_right_comm, Nat.mul_comm _ (significand r), roundedQuotient,
      Nat.mul_div_cancel _ (by positivity), Nat.mul_mod_left]
    simp
    omega
  rw [nearestRank_eq, hscale, hexact, scale_mul_add_significand]
  omega

/-! ### Decimals -/

/-- A large quotient is next to infinity. -/
lemma nearestRank_of_large (h : 2048 ≤ num.log2 + leastPower - den.log2 - 53) :
    nearestRank num den = infiniteRank := by
  have hguess : 2048 ≤ scaleOf num den := by
    rw [scaleOf_eq]
    split <;> omega
  have hpast : infiniteRank ≤ 2048 * hiddenBit := by decide
  have := Nat.mul_le_mul_right hiddenBit hguess
  rw [nearestRank_eq]
  omega

/-- A quotient far below the smallest positive number is next to zero. -/
lemma nearestRank_of_small (hnum : 0 < num) (h : num.log2 + leastPower + 2 < den.log2) :
    nearestRank num den = 0 := by
  have hden : 2 ^ den.log2 ≤ den := Nat.log2_self_le (by rintro rfl; simp at h)
  have hsmall : 2 * (num * 2 ^ leastPower) < den := by
    calc 2 * (num * 2 ^ leastPower) < 2 * (2 ^ (num.log2 + 1) * 2 ^ leastPower) := by
          gcongr
          exact Nat.lt_log2_self
      _ = 2 ^ (num.log2 + leastPower + 2) := by ring
      _ ≤ 2 ^ den.log2 := Nat.pow_le_pow_right (by decide) (by omega)
      _ ≤ den := hden
  have hscale : scaleOf num den = 0 := by
    refine (scaleOf_eq_iff hnum (by omega)).mpr ⟨?_, by omega⟩
    rw [atScale_lt_iff (by omega)]
    have : den * 2 ^ 0 ≤ den * 2 ^ (0 + 53) := Nat.mul_le_mul_left _ (by decide)
    omega
  rw [nearestRank_eq, hscale, roundedQuotient, pow_zero, Nat.mul_one,
    Nat.div_eq_of_lt (by omega), Nat.mod_eq_of_lt (by omega)]
  simp
  omega

/-- The size of a power of ten. -/
lemma log2_pow_ten (n : Nat) : 3 * n ≤ (10 ^ n).log2 := by
  rw [Nat.le_log2 (by positivity), pow_mul]
  gcongr
  decide

/-- All cases of `ofDecimal` compute the number nearest to the decimal. -/
lemma ofDecimal_eq_ofRatio (negative : Bool) {digits : Nat} (h : 0 < digits) (exponent : Int) :
    ofDecimal negative digits exponent =
      ofRatio negative (decimalRatio digits exponent).1 (decimalRatio digits exponent).2 := by
  have hpower := leastPower_eq
  have hdigits : digits ≠ 0 := by omega
  rw [ofDecimal, decimalRatio]
  simp only [Nat.pow_eq, beq_iff_eq, hdigits, if_false, ge_iff_le]
  by_cases hlarge : 400 ≤ exponent
  · have hzero : 0 ≤ exponent := by omega
    rw [if_pos hlarge, if_pos hzero, ofRatio, nearestRank_of_large]
    have hone : Nat.log2 1 = 0 := by decide
    have hten := log2_pow_ten exponent.toNat
    have hmul : (10 ^ exponent.toNat).log2 ≤ (digits * 10 ^ exponent.toNat).log2 := by
      rw [Nat.le_log2 (by positivity)]
      exact (Nat.log2_self_le (by positivity)).trans (Nat.le_mul_of_pos_left _ h)
    simp only [hone]
    omega
  · rw [if_neg hlarge]
    by_cases hzero : 0 ≤ exponent
    · rw [if_pos hzero, if_pos hzero]
    · rw [if_neg hzero, if_neg hzero]
      split
      · next hsmall =>
        rw [ofRatio, nearestRank_of_small h]
        have hten := log2_pow_ten (-exponent).toNat
        simp only
        omega
      · rfl

lemma decimalRatio_pos {digits : Nat} (h : 0 < digits) (exponent : Int) :
    0 < (decimalRatio digits exponent).1 ∧ 0 < (decimalRatio digits exponent).2 := by
  rw [decimalRatio]
  simp only [Nat.pow_eq]
  split
  · exact ⟨by positivity, Nat.one_pos⟩
  · exact ⟨h, by positivity⟩

/-- Zeros at the end of digits count like an exponent. -/
lemma ofDecimal_shift (negative : Bool) (digits k : Nat) (exponent : Int) :
    ofDecimal negative (digits * 10 ^ k) exponent = ofDecimal negative digits (exponent + k) := by
  rcases Nat.eq_zero_or_pos digits with rfl | h
  · simp [ofDecimal]
  · have h' : 0 < digits * 10 ^ k := by positivity
    rw [ofDecimal_eq_ofRatio negative h', ofDecimal_eq_ofRatio negative h]
    have hpos := decimalRatio_pos h (exponent + k)
    have hpos' := decimalRatio_pos h' exponent
    refine ofRatio_congr negative hpos'.1 hpos'.2 hpos.1 hpos.2 ?_
    rw [decimalRatio, decimalRatio]
    simp only [Nat.pow_eq, ge_iff_le]
    by_cases hzero : 0 ≤ exponent
    · rw [if_pos hzero, if_pos (by omega)]
      have hsum : (exponent + k).toNat = exponent.toNat + k := by omega
      rw [hsum]
      ring
    · rw [if_neg hzero]
      by_cases hsum : 0 ≤ exponent + k
      · rw [if_pos hsum]
        have hk : k = (exponent + k).toNat + (-exponent).toNat := by omega
        nth_rewrite 1 [hk]
        ring
      · rw [if_neg hsum]
        have hexponent : (-exponent).toNat = (-(exponent + k)).toNat + k := by omega
        rw [hexponent]
        ring

end Scaffold.Number.Binary64
