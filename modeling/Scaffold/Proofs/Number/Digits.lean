import Mathlib.Algebra.Group.Nat.Defs
import Mathlib.Tactic.Common
import Scaffold.Number.Numeral
import Scaffold.Number.Shortest

/-!
Decimal digits of natural numbers.

* `natOfDecimal_eq_ofDigitChars`: the value of digits in the terms of the core library.
* `natOfDecimal_digitsOf`, `natOfDecimal_padded`: writing and reading, with or without
  zeros in front.
* `natOfDecimal_append`, `natOfDecimal_zeros`: digits one after another.
* `digitsOf_head`: the digits of a positive number do not start with zero.
-/

namespace Scaffold.Number

open Binary64 (digitsOf padded)

/-- The value of digits, in the terms of the core library. -/
lemma natOfDecimal_eq_ofDigitChars {cs : List Char} (h : ∀ c ∈ cs, c.isDigit) :
    natOfDecimal cs = Nat.ofDigitChars 10 cs 0 := by
  have hfrom : ∀ (cs : List Char) (n : Nat), (∀ c ∈ cs, c.isDigit) →
      natOfDigitsFrom 10 n (cs.map decimalDigit) = Nat.ofDigitChars 10 cs n := by
    intro cs
    induction cs with
    | nil => intro n _; rfl
    | cons c cs ih =>
      intro n hdigits
      rw [List.map_cons, natOfDigitsFrom, Nat.ofDigitChars_cons, ih _ fun d hd =>
        hdigits d (by simp [hd]), decimalDigit, if_pos (hdigits c (by simp)), Nat.mul_comm]
  exact hfrom cs 0 h

/-- Digits are digits. -/
lemma isDigit_of_mem_digitsOf {n : Nat} {c : Char} (h : c ∈ digitsOf n) : c.isDigit :=
  Nat.isDigit_of_mem_toDigits (by decide) (by decide) h

lemma isDigit_of_mem_padded {n width : Nat} {c : Char} (h : c ∈ padded width (digitsOf n)) :
    c.isDigit := by
  rcases List.mem_append.mp h with hzero | hdigit
  · rw [(List.mem_replicate.mp hzero).2]
    rfl
  · exact isDigit_of_mem_digitsOf hdigit

/-- Reading undoes writing. -/
lemma natOfDecimal_digitsOf (n : Nat) : natOfDecimal (digitsOf n) = n := by
  rw [natOfDecimal_eq_ofDigitChars fun c => isDigit_of_mem_digitsOf]
  exact Nat.ofDigitChars_ten_toDigits

/-- Digits one after another. -/
lemma natOfDecimal_append {as bs : List Char} (ha : ∀ c ∈ as, c.isDigit)
    (hb : ∀ c ∈ bs, c.isDigit) :
    natOfDecimal (as ++ bs) = natOfDecimal as * 10 ^ bs.length + natOfDecimal bs := by
  rw [natOfDecimal_eq_ofDigitChars ha, natOfDecimal_eq_ofDigitChars hb,
    natOfDecimal_eq_ofDigitChars fun c hc => (List.mem_append.mp hc).elim (ha c) (hb c),
    Nat.ofDigitChars_append, Nat.ofDigitChars_eq_ofDigitChars_zero, Nat.mul_comm]

/-- Zeros count for nothing by themselves. -/
lemma natOfDecimal_zeros (n : Nat) : natOfDecimal (List.replicate n '0') = 0 := by
  rw [natOfDecimal_eq_ofDigitChars fun c hc => by rw [(List.mem_replicate.mp hc).2]; rfl]
  simp

/-- Zeros in front do not count. -/
lemma natOfDecimal_padded (width n : Nat) : natOfDecimal (padded width (digitsOf n)) = n := by
  rw [padded, natOfDecimal_append (fun c hc => by rw [(List.mem_replicate.mp hc).2]; rfl)
    (fun c => isDigit_of_mem_digitsOf), natOfDecimal_zeros, natOfDecimal_digitsOf]
  simp

lemma digitsOf_ne_nil (n : Nat) : digitsOf n ≠ [] :=
  Nat.toDigits_ne_nil

/-- The number of digits of a number. -/
lemma length_digitsOf_le_iff {n k : Nat} (hk : 0 < k) :
    (digitsOf n).length ≤ k ↔ n < 10 ^ k :=
  Nat.length_toDigits_le_iff (by decide) hk

lemma length_digitsOf_le {n k : Nat} (hk : 0 < k) (h : n < Nat.pow 10 k) :
    (digitsOf n).length ≤ k :=
  (length_digitsOf_le_iff hk).mpr h

/-- The digits of a positive number do not start with zero. -/
lemma digitsOf_head {n : Nat} (h : 0 < n) : ∃ c cs, digitsOf n = c :: cs ∧ c ≠ '0' := by
  induction n using Nat.strongRecOn with
  | ind n ih =>
    by_cases hn : n < 10
    · refine ⟨n.digitChar, [], Nat.toDigits_of_lt_base hn, fun heq => ?_⟩
      have hcode := Nat.toNat_digitChar_of_lt_ten hn
      rw [heq] at hcode
      have hzero : '0'.toNat = 48 := rfl
      omega
    · obtain ⟨c, cs, hcs, hne⟩ := ih (n / 10) (by omega) (by omega)
      refine ⟨c, cs ++ [(n % 10).digitChar], ?_, hne⟩
      rw [digitsOf, Nat.toDigits_of_base_le (by decide) (by omega)]
      rw [digitsOf] at hcs
      rw [hcs, List.cons_append]

lemma digitsOf_zero : digitsOf 0 = ['0'] :=
  Nat.toDigits_zero 10

end Scaffold.Number
