import Mathlib.Tactic.Common
import Scaffold.Json.Printer
import Scaffold.Json.Reader

/-!
Texts between quotes are read back.

Every character is written in one of three ways: as a backslash with a letter, as the
number of a control character, or as itself. Each way is read back as the character.

* `takeString_quoteChar`: one character.
* `readString_quote`: a whole text.
-/

namespace Scaffold.Json

variable {rest : List Char}

/-- Digits in base sixteen are read back. -/
lemma hexValue?_hexDigit {n : Nat} (h : n < 16) : hexValue? (hexDigit n) = some n := by
  have hall : ∀ n : Fin 16, hexValue? (hexDigit n.val) = some n.val := by decide
  exact hall ⟨n, h⟩

/-- The number of a control character is read back. -/
lemma takeUnit_control {n : Nat} (h : n < 0x20) :
    takeUnit ('0' :: '0' :: hexDigit (n / 16) :: hexDigit (n % 16) :: rest) = some (n, rest) := by
  have hzero : hexValue? '0' = some 0 := rfl
  have hvalue : ((0 * 16 + 0) * 16 + n / 16) * 16 + n % 16 = n := by omega
  simp only [takeUnit, hzero, hexValue?_hexDigit (show n / 16 < 16 by omega),
    hexValue?_hexDigit (show n % 16 < 16 by omega), Option.bind_eq_bind, Option.bind_some, hvalue]
  rfl

/-- The first character of the result. -/
def withFirst (c : Char) : Option (List Char × List Char) → Option (List Char × List Char) :=
  Option.map fun (tail, final) => (c :: tail, final)

/-- A backslash with a letter. -/
lemma takeString_escaped {letter c : Char} (h : escaped? letter = some c) (fuel : Nat) :
    takeString (fuel + 1) ('\\' :: letter :: rest) = withFirst c (takeString fuel rest) := by
  have hletter : letter ≠ 'u' := by
    rintro rfl
    cases h
  rw [takeString]
  · rw [h]
    cases takeString fuel rest <;> rfl
  · exact hletter

/-- **One character** is read back. -/
lemma takeString_quoteChar (c : Char) (fuel : Nat) :
    takeString (fuel + 1) (quoteChar c ++ rest) = withFirst c (takeString fuel rest) := by
  unfold quoteChar
  split
  · exact takeString_escaped rfl fuel
  · exact takeString_escaped rfl fuel
  · exact takeString_escaped rfl fuel
  · exact takeString_escaped rfl fuel
  · exact takeString_escaped rfl fuel
  · exact takeString_escaped rfl fuel
  · exact takeString_escaped rfl fuel
  · next hquote hbackslash _ _ _ _ _ =>
    split
    · next hcontrol =>
      have hplain : ¬ (0xd800 ≤ c.toNat) ∧ ¬ (0xdc00 ≤ c.toNat) := by omega
      simp only [List.cons_append, List.nil_append, takeString, takeUnit_control hcontrol,
        Option.bind_eq_bind, Option.bind_some, hplain.1, hplain.2, decide_false, Bool.false_and,
        Bool.false_eq_true, if_false, Char.ofNat_toNat]
      cases takeString fuel rest <;> rfl
    · next hprinted =>
      rw [List.singleton_append, takeString, if_neg hprinted]
      · rfl
      · exact hquote
      · exact fun _ heq => absurd heq hbackslash
      · exact fun _ _ heq => absurd heq hbackslash

/-- A text and the quote behind it. -/
lemma takeString_chars (cs : List Char) {fuel : Nat} (h : cs.length < fuel) :
    takeString fuel (cs.flatMap quoteChar ++ '"' :: rest) = some (cs, rest) := by
  induction cs generalizing fuel with
  | nil =>
    obtain ⟨fuel, rfl⟩ : ∃ k, fuel = k + 1 := ⟨fuel - 1, by simp at h; omega⟩
    rfl
  | cons c cs ih =>
    obtain ⟨fuel, rfl⟩ : ∃ k, fuel = k + 1 := ⟨fuel - 1, by simp at h; omega⟩
    rw [List.flatMap_cons, List.append_assoc, takeString_quoteChar, ih (by simpa using h)]
    rfl

lemma quoteChar_ne_nil (c : Char) : quoteChar c ≠ [] := by
  unfold quoteChar
  split <;> try simp
  split <;> simp

lemma length_le_flatMap_quoteChar (cs : List Char) : cs.length ≤ (cs.flatMap quoteChar).length := by
  induction cs with
  | nil => simp
  | cons c cs ih =>
    have := List.length_pos_iff.mpr (quoteChar_ne_nil c)
    rw [List.flatMap_cons, List.length_append, List.length_cons]
    omega

/-- **A text between quotes** is read back, from behind the first quote. -/
lemma readString_quote (s : String) :
    readString (s.toList.flatMap quoteChar ++ '"' :: rest) = .ok (s, rest) := by
  have hlength := length_le_flatMap_quoteChar s.toList
  rw [readString, takeString_chars s.toList (by rw [List.length_append]; omega)]
  simp

end Scaffold.Json
