import Mathlib.Tactic.Common
import Scaffold.Bytes.Utf8

/-!
UTF-8 is read back.

The bytes of a character are one part, whatever bytes follow, so a text is the text of
its bytes.

* `partsFrom_encodePoint`: the bytes of a character are one part.
* `decode?_encode`: a text is the text of its bytes.
-/

namespace Scaffold.Utf8

lemma toNat_toUInt8 {n : Nat} (h : n < 256) : n.toUInt8.toNat = n := by
  simp [Nat.toUInt8, Nat.mod_eq_of_lt h]

/-- A byte that goes on with a character and is not its last. -/
lemma partsFrom_more {pending : Pending} {b missing : Nat} (hmissing : pending.missing = missing + 1)
    (hleast : pending.least ≤ b) (hgreatest : b ≤ pending.greatest) (hbyte : b < 256) (bs : Bytes) :
    partsFrom (some pending) (b.toUInt8 :: bs) =
      partsFrom (some ⟨pending.value * 0x40 + (b - 0x80), missing, 0x80, 0xbf⟩) bs := by
  rw [partsFrom, toNat_toUInt8 hbyte]
  simp [hleast, hgreatest, hmissing]

/-- The last byte of a character. -/
lemma partsFrom_last {pending : Pending} {b : Nat} (hmissing : pending.missing = 0)
    (hleast : pending.least ≤ b) (hgreatest : b ≤ pending.greatest) (hbyte : b < 256) (bs : Bytes) :
    partsFrom (some pending) (b.toUInt8 :: bs) =
      some (Char.ofNat (pending.value * 0x40 + (b - 0x80))) :: partsFrom none bs := by
  rw [partsFrom, toNat_toUInt8 hbyte]
  simp [hleast, hgreatest, hmissing]

/-- What the first byte of a character of two bytes begins. -/
lemma first_two {b : Nat} (hleast : 0xc2 ≤ b) (hgreatest : b < 0xe0) :
    first b = .inr ⟨b - 0xc0, 0, 0x80, 0xbf⟩ := by
  rw [first, if_neg (by omega), if_neg (by omega), if_pos hgreatest]

/-- What the first byte of a character of three bytes begins: the next byte is one that
makes the value large enough and no half of a pair. -/
lemma first_three {b : Nat} (hleast : 0xe0 ≤ b) (hgreatest : b < 0xf0) :
    first b =
      .inr ⟨b - 0xe0, 1, if b = 0xe0 then 0xa0 else 0x80, if b = 0xed then 0x9f else 0xbf⟩ := by
  rw [first, if_neg (by omega), if_neg (by omega), if_neg (by omega)]
  by_cases h0 : b = 0xe0
  · subst h0
    rfl
  · by_cases hd : b = 0xed
    · subst hd
      rfl
    · simp [h0, hd, hgreatest]

/-- What the first byte of a character of four bytes begins: the next byte is one that
makes the value large enough and not too large. -/
lemma first_four {b : Nat} (hleast : 0xf0 ≤ b) (hgreatest : b ≤ 0xf4) :
    first b =
      .inr ⟨b - 0xf0, 2, if b = 0xf0 then 0x90 else 0x80, if b = 0xf4 then 0x8f else 0xbf⟩ := by
  rw [first, if_neg (by omega), if_neg (by omega), if_neg (by omega), if_neg (by simp; omega),
    if_neg (by simp; omega), if_neg (by omega)]
  by_cases h0 : b = 0xf0
  · subst h0
    rfl
  · by_cases h4 : b = 0xf4
    · subst h4
      rfl
    · have : b < 0xf4 := by omega
      simp [h0, h4, this]

/-- The first byte of a longer character. -/
lemma partsFrom_first {b : Nat} {pending : Pending} (hbyte : b < 256) (h : first b = .inr pending)
    (bs : Bytes) : partsFrom none (b.toUInt8 :: bs) = partsFrom (some pending) bs := by
  rw [partsFrom, toNat_toUInt8 hbyte, h]

/-- **The bytes of a character** are one part. -/
lemma partsFrom_encodePoint (c : Char) (bs : Bytes) :
    partsFrom none (encodePoint c.toNat ++ bs) = some c :: partsFrom none bs := by
  have hvalid := c.valid
  have hback : Char.ofNat c.toNat = c := Char.ofNat_toNat c
  have hrange : c.toNat < 0xd800 ∨ 0xdfff < c.toNat ∧ c.toNat < 0x110000 := hvalid
  generalize c.toNat = n at *
  rw [encodePoint]
  split
  · next hone =>
    rw [List.singleton_append, partsFrom, toNat_toUInt8 (by omega), first, if_pos hone, hback]
  split
  · next htwo =>
    rw [List.cons_append, partsFrom_first (by omega) (first_two (by omega) (by omega)),
      List.singleton_append, partsFrom_last rfl (by simp only; omega) (by simp only; omega) (by omega)]
    have hvalue : (0xc0 + n / 0x40 - 0xc0) * 0x40 + (0x80 + n % 0x40 - 0x80) = n := by omega
    simp only
    rw [hvalue, hback]
  split
  · next hthree =>
    have hnext : 0xe0 + n / 0x1000 = 0xe0 → 0x20 ≤ n / 0x40 % 0x40 := by omega
    have hpair : 0xe0 + n / 0x1000 = 0xed → n / 0x40 % 0x40 < 0x20 := by omega
    rw [List.cons_append, partsFrom_first (by omega) (first_three (by omega) (by omega)),
      List.cons_append, partsFrom_more rfl ?_ ?_ (by omega), List.singleton_append,
      partsFrom_last rfl (by simp only; omega) (by simp only; omega) (by omega)]
    · have hvalue : ((0xe0 + n / 0x1000 - 0xe0) * 0x40 + (0x80 + n / 0x40 % 0x40 - 0x80)) * 0x40 +
          (0x80 + n % 0x40 - 0x80) = n := by omega
      simp only
      rw [hvalue, hback]
    · simp only
      split <;> omega
    · simp only
      split <;> omega
  · next hfour =>
    have hnext : 0xf0 + n / 0x40000 = 0xf0 → 0x10 ≤ n / 0x1000 % 0x40 := by omega
    have hlast : 0xf0 + n / 0x40000 = 0xf4 → n / 0x1000 % 0x40 < 0x10 := by omega
    rw [List.cons_append, partsFrom_first (by omega) (first_four (by omega) (by omega)),
      List.cons_append, partsFrom_more rfl ?_ ?_ (by omega), List.cons_append,
      partsFrom_more rfl (by simp only; omega) (by simp only; omega) (by omega),
      List.singleton_append,
      partsFrom_last rfl (by simp only; omega) (by simp only; omega) (by omega)]
    · have hvalue : (((0xf0 + n / 0x40000 - 0xf0) * 0x40 + (0x80 + n / 0x1000 % 0x40 - 0x80)) * 0x40 +
          (0x80 + n / 0x40 % 0x40 - 0x80)) * 0x40 + (0x80 + n % 0x40 - 0x80) = n := by omega
      simp only
      rw [hvalue, hback]
    · simp only
      split <;> omega
    · simp only
      split <;> omega

/-- The parts of encoded characters are the characters. -/
lemma parts_encodeChars (cs : List Char) : parts (encodeChars cs) = cs.map some := by
  rw [parts]
  induction cs with
  | nil => rfl
  | cons c cs ih =>
    rw [encodeChars, List.flatMap_cons, partsFrom_encodePoint, List.map_cons]
    exact congrArg _ ih

/-- **A text** is the text of its bytes. -/
lemma decode?_encode (s : String) : decode? (encode s) = some s := by
  have hall : ∀ cs : List Char, (cs.map some).mapM id = some cs := by
    intro cs
    induction cs with
    | nil => rfl
    | cons c cs ih => simp [ih]
  rw [decode?, encode, parts_encodeChars, hall, Option.map_some, String.ofList_toList]

end Scaffold.Utf8
