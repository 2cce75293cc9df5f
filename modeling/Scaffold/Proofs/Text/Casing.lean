import Mathlib.Data.List.DropRight
import Mathlib.Data.List.Forall2
import Mathlib.Tactic.Common
import Scaffold.Proofs.Outcome
import Scaffold.Text.CaseMap

/-!
Trimming and lower case.

Neither does anything the second time, and lower case leaves the ends of a text where they
are: an image is blank exactly if its character is.

* `trim_eq_self_iff`: a list is trimmed when neither end of it is blank.
* `exists_stripBy`, `head?_stripBy`, `getLast?_stripBy`: what is left of a stripped list.
* `trimmed_trimmed`, `trimmed_eq_empty_iff`: trimming twice, and texts of blanks only.
* `sources_images_apart`: no image in the table has another image.
* `forall_ascii`: what is checked for the ASCII characters in turn.
* `IsSmall`, `lowerAfter_images`: lower case is made of images that are small.
* `lowered_lowered`, `trimmed_lowered`: lower case twice, and of a trimmed text.
* `mem_of_mem_lowerAfter`: lower case brings in nothing that comes before the small letters.
* `lower_append_slash`, `slash_mem_lower_iff`: lower case goes from slash to slash.
-/

namespace Scaffold.Text

open CaseMap

/-! ### Trimming -/

variable {cs : List Char} {c : Char}

/-- A list is trimmed when neither end of it is blank. -/
lemma trim_eq_self_iff :
    trim cs = cs ↔
      (∀ c ∈ cs.head?, isBlank c = false) ∧ ∀ c ∈ cs.getLast?, isBlank c = false := by
  have hstart : trimStart cs = cs ↔ ∀ c ∈ cs.head?, isBlank c = false := by
    rw [trimStart, List.dropWhile_eq_self_iff]
    cases cs <;> simp
  have hend : trimEnd cs = cs ↔ ∀ c ∈ cs.getLast?, isBlank c = false := by
    rw [show trimEnd cs = cs.rdropWhile isBlank from rfl, List.rdropWhile_eq_self_iff]
    rcases cs.eq_nil_or_concat with rfl | ⟨front, c, rfl⟩ <;> simp
  rw [← hstart, ← hend]
  constructor
  · intro h
    -- what is left is as long as before, so nothing was left out at the start
    have hsuffix : trimStart cs <:+ cs := List.dropWhile_suffix isBlank
    have hprefix : trim cs <+: trimStart cs := List.rdropWhile_prefix isBlank _
    have hlength := hprefix.length_le
    rw [h] at hlength
    have hself : trimStart cs = cs := hsuffix.eq_of_length_le hlength
    exact ⟨hself, by rwa [trim, hself] at h⟩
  · rintro ⟨h1, h2⟩
    rw [trim, h1, h2]

/-- A list is what is stripped off its ends, and what is left between. -/
lemma exists_stripBy (p : Char → Bool) (cs : List Char) :
    ∃ front back, cs = front ++ stripBy p cs ++ back ∧ (∀ c ∈ front, p c = true) ∧
      ∀ c ∈ back, p c = true := by
  refine ⟨cs.takeWhile p, ((cs.dropWhile p).reverse.takeWhile p).reverse, ?_, ?_, ?_⟩
  · rw [stripBy, List.append_assoc, ← List.reverse_append, List.takeWhile_append_dropWhile,
      List.reverse_reverse, List.takeWhile_append_dropWhile]
  · exact fun c hc => List.mem_takeWhile_imp hc
  · exact fun c hc => List.mem_takeWhile_imp (List.mem_reverse.mp hc)

/-- What is left of a stripped list starts with something else. -/
lemma head?_stripBy {p : Char → Bool} : ∀ c ∈ (stripBy p cs).head?, p c = false := by
  intro c hc
  obtain ⟨rest, hrest⟩ : stripBy p cs <+: cs.dropWhile p := List.rdropWhile_prefix p _
  have hhead : (cs.dropWhile p).head? = some c := by
    rw [← hrest, List.head?_append, Option.mem_def.mp hc]
    rfl
  have hnot := List.head?_dropWhile_not p cs
  rw [hhead] at hnot
  exact hnot

/-- And it ends with something else. -/
lemma getLast?_stripBy {p : Char → Bool} : ∀ c ∈ (stripBy p cs).getLast?, p c = false := by
  intro c hc
  have hne : stripBy p cs ≠ [] := by
    rintro hnil
    simp [hnil] at hc
  have hlast := List.rdropWhile_last_not p (cs.dropWhile p) hne
  rw [List.getLast?_eq_some_getLast hne, Option.mem_some_iff] at hc
  exact eq_false_of_ne_true (hc ▸ hlast)

lemma trim_trim (cs : List Char) : trim (trim cs) = trim cs :=
  trim_eq_self_iff.mpr ⟨head?_stripBy, getLast?_stripBy⟩

lemma trim_eq_nil_iff : trim cs = [] ↔ ∀ c ∈ cs, isBlank c = true := by
  have hend : trim cs = [] ↔ ∀ c ∈ trimStart cs, isBlank c = true := List.rdropWhile_eq_nil_iff
  rw [hend]
  constructor
  · intro h
    -- a first character that is not blank would be left
    have hnil : trimStart cs = [] := by
      cases hstart : trimStart cs with
      | nil => rfl
      | cons first rest =>
        have hfirst := List.head?_dropWhile_not isBlank cs
        rw [← trimStart, hstart] at hfirst
        have := h first (by simp [hstart])
        simp_all
    exact List.dropWhile_eq_nil_iff.mp hnil
  · intro h c hc
    exact h c ((List.dropWhile_sublist isBlank).subset hc)

/-- A blank at the start is trimmed off. -/
lemma trim_cons_blank (blank : isBlank c = true) (cs : List Char) : trim (c :: cs) = trim cs := by
  rw [trim, trim, trimStart, List.dropWhile_cons_of_pos blank, ← trimStart]

/-- A blank at the end is trimmed off. -/
lemma trim_append_blank (blank : isBlank c = true) (cs : List Char) :
    trim (cs ++ [c]) = trim cs := by
  rw [trim, trim, trimStart, trimStart, List.dropWhile_append]
  split_ifs with hempty
  · rw [List.isEmpty_iff.mp hempty, List.dropWhile_cons_of_pos blank, List.dropWhile_nil]
  · rw [trimEnd, trimEnd, List.reverse_append, List.reverse_singleton, List.singleton_append,
      List.dropWhile_cons_of_pos blank]

lemma trimmed_trimmed (s : String) : trimmed (trimmed s) = trimmed s := by
  rw [trimmed, trimmed, String.toList_ofList, trim_trim]

/-- A text of blanks only is trimmed to nothing. -/
lemma trimmed_eq_empty_iff {s : String} : trimmed s = "" ↔ isBlankText s = true := by
  rw [trimmed, ← String.toList_inj, String.toList_ofList, isBlankText, List.all_eq_true]
  exact trim_eq_nil_iff

/-! ### Images -/

/-- A character that is its own image, and no sigma. -/
def IsSmall (c : Char) : Prop :=
  lowerChar c = [c] ∧ c ≠ 'Σ'

instance : DecidablePred IsSmall := fun _ => inferInstanceAs (Decidable (_ ∧ _))

-- The rows are held against each other as bit masks: that takes one operation for each row, and
-- not one for every two of them.

/-- The numbers from one to another, as the bits of a number. -/
def bitsBetween (first last : Nat) : Nat :=
  (1 <<< (last + 1 - first) - 1) <<< first

lemma testBit_bitsBetween {first last n : Nat} :
    (bitsBetween first last).testBit n = true ↔ first ≤ n ∧ n ≤ last := by
  rw [bitsBetween, Nat.testBit_shiftLeft, Nat.one_shiftLeft, Nat.testBit_two_pow_sub_one,
    Bool.and_eq_true, decide_eq_true_iff, decide_eq_true_iff]
  omega

/-- The bits of several numbers. -/
def allBits (masks : List Nat) : Nat :=
  masks.foldr (· ||| ·) 0

lemma testBit_allBits {masks : List Nat} {mask n : Nat} (hmask : mask ∈ masks)
    (h : mask.testBit n = true) : (allBits masks).testBit n = true := by
  induction masks with
  | nil => cases hmask
  | cons first masks ih =>
    rw [allBits, List.foldr_cons, Nat.testBit_or, Bool.or_eq_true]
    rcases List.mem_cons.mp hmask with rfl | hmask
    · exact .inl h
    · exact .inr (ih hmask)

/-- The code points of a parity for which a row may stand: those of the other parity are left out
where it stands for every second one. -/
def sourcesOf (parity : Nat) (row : Nat × Nat × Nat × Nat) : Nat :=
  if row.2.2.1 = 2 ∧ row.1 % 2 ≠ parity then 0 else bitsBetween row.1 row.2.1

/-- The code points of a parity that may be images of a row. -/
def imagesOf (parity : Nat) (row : Nat × Nat × Nat × Nat) : Nat :=
  if (row.2.2.1 = 2 ∨ row.1 = row.2.1) ∧ row.2.2.2 % 2 ≠ parity then 0
  else bitsBetween row.2.2.2 (row.2.2.2 + (row.2.1 - row.1))

/-- No code point is an image of one row and stands in another. -/
lemma sources_images_apart : ∀ parity < 2,
    allBits (lowerRows.map (sourcesOf parity)) &&& allBits (lowerRows.map (imagesOf parity)) =
      0 := by
  decide +kernel

/-- The images of the rows are characters, and small letters among the ASCII characters; none
of them is blank, a sigma or the dotted capital, and no row stands for a blank. -/
lemma lowerRows_images : ∀ row ∈ lowerRows,
    (row.2.2.2 + (row.2.1 - row.1) < 0xd800 ∨
      0xdfff < row.2.2.2 ∧ row.2.2.2 + (row.2.1 - row.1) < 0x110000) ∧
    (0x80 ≤ row.2.2.2 ∨ 0x61 ≤ row.2.2.2 ∧ row.2.2.2 + (row.2.1 - row.1) ≤ 0x7a) ∧
    (row.2.2.2 + (row.2.1 - row.1) < 0x130 ∨ 0x130 < row.2.2.2) ∧
    (row.2.2.2 + (row.2.1 - row.1) < 0x3a3 ∨ 0x3a3 < row.2.2.2) ∧
    ∀ range ∈ blankRanges,
      (row.2.2.2 + (row.2.1 - row.1) < range.1 ∨ range.2 < row.2.2.2) ∧
        (row.2.1 < range.1 ∨ range.2 < row.1) := by
  decide +kernel

/-- An image stands in a row of the table. -/
lemma exists_of_image? {rows : List (Nat × Nat × Nat × Nat)} {n m : Nat}
    (h : image? rows n = some m) :
    ∃ row ∈ rows, row.1 ≤ n ∧ n ≤ row.2.1 ∧ (n - row.1) % row.2.2.1 = 0 ∧
      m = row.2.2.2 + (n - row.1) := by
  induction rows with
  | nil => cases h
  | cons row rows ih =>
    obtain ⟨first, last, step, target⟩ := row
    rw [image?] at h
    split at h
    · next hrow =>
      simp only [Bool.and_eq_true, decide_eq_true_eq, beq_iff_eq] at hrow
      exact ⟨(first, last, step, target), by simp, hrow.1.1, hrow.1.2, hrow.2,
        (Option.some.inj h).symm⟩
    · obtain ⟨row, hrow, hrest⟩ := ih h
      exact ⟨row, by simp [hrow], hrest⟩

/-- An image has no other image. -/
lemma image?_image? {n m : Nat} (h : image? lowerRows n = some m) : image? lowerRows m = none := by
  rw [Option.eq_none_iff_forall_not_mem]
  intro m' hm'
  obtain ⟨row, hrow, hfirst, hlast, hstep, rfl⟩ := exists_of_image? h
  obtain ⟨other, hother, hfirst', hlast', hstep', -⟩ := exists_of_image? hm'
  generalize hm : row.2.2.2 + (n - row.1) = m at *
  have himage : (imagesOf (m % 2) row).testBit m = true := by
    rw [imagesOf, if_neg, testBit_bitsBetween]
    · omega
    · rintro ⟨htwo | hsingle, hparity⟩
      · rw [htwo] at hstep
        omega
      · omega
  have hsource : (sourcesOf (m % 2) other).testBit m = true := by
    rw [sourcesOf, if_neg, testBit_bitsBetween]
    · exact ⟨hfirst', hlast'⟩
    · rintro ⟨htwo, hparity⟩
      rw [htwo] at hstep'
      omega
  have hboth := congrArg (Nat.testBit · m) (sources_images_apart (m % 2) (Nat.mod_lt m (by decide)))
  simp only [Nat.testBit_and, Nat.zero_testBit,
    testBit_allBits (List.mem_map_of_mem hother) hsource,
    testBit_allBits (List.mem_map_of_mem hrow) himage] at hboth
  exact absurd hboth (by decide)

/-- A character that is not blank lies in no range of blanks. -/
lemma isBlank_eq_false_iff :
    isBlank c = false ↔ ∀ range ∈ blankRanges, c.toNat < range.1 ∨ range.2 < c.toNat := by
  rw [isBlank, inRanges, List.any_eq_false]
  refine forall₂_congr fun range _ => ?_
  simp only [Bool.and_eq_true, decide_eq_true_eq, not_and_or, not_le]

/-- What holds of every ASCII character in turn holds of every character below `0x80`. -/
lemma forall_ascii {P : Char → Prop} (h : ∀ n < 0x80, P (Char.ofNat n)) (hc : c.toNat < 0x80) :
    P c :=
  Char.ofNat_toNat c ▸ h c.toNat hc

/-- The lower case of an ASCII character is small, and blank exactly if the character is. What comes
before the small letters is the lower case of itself only, and what comes after the capital letters
is its own lower case. -/
lemma toLower_ascii (hc : c.toNat < 0x80) :
    IsSmall c.toLower ∧ isBlank c.toLower = isBlank c ∧
      (c.toLower.toNat < 0x61 → c.toLower = c) ∧ (0x61 ≤ c.toNat → c.toLower = c) := by
  refine forall_ascii (P := fun c => IsSmall c.toLower ∧ isBlank c.toLower = isBlank c ∧
    (c.toLower.toNat < 0x61 → c.toLower = c) ∧ (0x61 ≤ c.toNat → c.toLower = c)) ?_ hc
  decide +kernel

/-- The images that are in no row are small, and neither they nor their characters are blank. -/
lemma isSmall_exceptions : (∀ d ∈ ['i', Char.ofNat 0x307, 'ς', 'σ'],
    IsSmall d ∧ isBlank d = false) ∧ isBlank (Char.ofNat 0x130) = false ∧ isBlank 'Σ' = false := by
  simp only [List.mem_cons, List.not_mem_nil, or_false, forall_eq_or_imp, forall_eq]
  decide +kernel

/-- The image of a character in the table is a code point of its own, and no ASCII character
other than a letter. -/
lemma toNat_of_image? {n m : Nat} (h : image? lowerRows n = some m) :
    (Char.ofNat m).toNat = m ∧ 0x61 ≤ m := by
  obtain ⟨row, hrow, hfirst, hlast, -, hm⟩ := exists_of_image? h
  obtain ⟨hvalid, hascii, -⟩ := lowerRows_images row hrow
  have hchar : m.isValidChar := by
    rw [Nat.isValidChar]
    omega
  refine ⟨?_, by omega⟩
  rw [Char.ofNat, dif_pos hchar]
  rfl

/-- The image of a character in the table is small, and neither of them is blank. -/
lemma isSmall_of_image? {m : Nat} (h : image? lowerRows c.toNat = some m) :
    IsSmall (Char.ofNat m) ∧ isBlank (Char.ofNat m) = false ∧ isBlank c = false := by
  obtain ⟨row, hrow, hfirst, hlast, -, hm⟩ := exists_of_image? h
  obtain ⟨-, hascii, hdotted, hsigma, hblank⟩ := lowerRows_images row hrow
  obtain ⟨hnat, -⟩ := toNat_of_image? h
  refine ⟨⟨?_, ?_⟩, ?_, ?_⟩
  · rw [lowerChar, hnat, image?_image? h]
    by_cases hsmall : m < 0x80
    · obtain ⟨-, -, -, hlower⟩ := toLower_ascii (c := Char.ofNat m) (by omega)
      rw [if_pos hsmall, hlower (by omega)]
    · rw [if_neg hsmall, if_neg (by simp; omega)]
      rfl
  · intro heq
    have : (Char.ofNat m).toNat = 0x3a3 := by rw [heq]; rfl
    omega
  · refine isBlank_eq_false_iff.mpr fun range hrange => ?_
    have := (hblank range hrange).1
    omega
  · refine isBlank_eq_false_iff.mpr fun range hrange => ?_
    have := (hblank range hrange).2
    omega

/-- The image of a character other than the sigma is small, and it is blank exactly if the
character is. -/
lemma isSmall_of_mem_lowerChar (hc : c ≠ 'Σ') {d : Char} (h : d ∈ lowerChar c) :
    IsSmall d ∧ isBlank d = isBlank c := by
  rw [lowerChar] at h
  split at h
  · next hascii =>
    obtain ⟨hsmall, hblank, -⟩ := toLower_ascii hascii
    exact List.mem_singleton.mp h ▸ ⟨hsmall, hblank⟩
  · next hascii =>
    split at h
    · next hdotted =>
      have hcode : c = Char.ofNat 0x130 := by
        rw [← Char.ofNat_toNat c, beq_iff_eq.mp hdotted]
      obtain ⟨himages, hdot, -⟩ := isSmall_exceptions
      obtain ⟨hsmall, hblank⟩ := himages d (List.mem_append_left ['ς', 'σ'] h)
      exact ⟨hsmall, hblank.trans (hcode ▸ hdot.symm)⟩
    · next hdotted =>
      rw [List.mem_singleton.mp h]
      cases himage : image? lowerRows c.toNat with
      | none =>
        refine ⟨⟨?_, hc⟩, rfl⟩
        rw [Option.map_none, Option.getD_none, lowerChar, if_neg hascii, if_neg hdotted, himage]
        rfl
      | some m =>
        obtain ⟨hsmall, himageBlank, hblank⟩ := isSmall_of_image? himage
        exact ⟨hsmall, himageBlank.trans hblank.symm⟩

lemma lowerChar_ne_nil (c : Char) : lowerChar c ≠ [] := by
  rw [lowerChar]
  split_ifs <;> simp

/-! ### Lower case -/

/-- Lower case is made of an image for each character, which is small, and blank exactly if
the character is. -/
lemma lowerAfter_images (before cs : List Char) :
    ∃ images, lowerAfter before cs = images.flatten ∧
      List.Forall₂ (fun c image => image ≠ [] ∧
        ∀ d ∈ image, IsSmall d ∧ isBlank d = isBlank c) cs images := by
  induction cs generalizing before with
  | nil => exact ⟨[], rfl, .nil⟩
  | cons c cs ih =>
    obtain ⟨images, hflatten, himages⟩ := ih (c :: before)
    by_cases hsigma : c = 'Σ'
    · refine ⟨[if isFinalSigma before cs then 'ς' else 'σ'] :: images, ?_, .cons ?_ himages⟩
      · rw [lowerAfter, if_pos (by simpa using hsigma), hflatten, List.flatten_cons]
      · obtain ⟨hsigmas, -, hblank⟩ := isSmall_exceptions
        refine ⟨by simp, fun d hd => ?_⟩
        obtain ⟨hsmall, hplain⟩ := hsigmas d (by
          rw [List.mem_singleton.mp hd]
          split_ifs <;> simp)
        exact ⟨hsmall, hplain.trans (hsigma ▸ hblank.symm)⟩
    · refine ⟨lowerChar c :: images, ?_, .cons ?_ himages⟩
      · rw [lowerAfter, if_neg (by simpa using hsigma), hflatten, List.flatten_cons]
      · exact ⟨lowerChar_ne_nil c, fun d hd => isSmall_of_mem_lowerChar hsigma hd⟩

/-- Lower case leaves nothing out. -/
lemma lower_eq_nil_iff : lower cs = [] ↔ cs = [] := by
  refine ⟨fun h => ?_, fun h => by rw [h]; rfl⟩
  obtain ⟨images, hlower, himages⟩ := lowerAfter_images [] cs
  cases himages with
  | nil => rfl
  | cons hfirst _ =>
    rw [lower, hlower, List.flatten_cons, List.append_eq_nil_iff] at h
    exact absurd h.1 hfirst.1

/-- Small characters stay as they are. -/
lemma lowerAfter_of_small {before : List Char} (small : ∀ c ∈ cs, IsSmall c) :
    lowerAfter before cs = cs := by
  induction cs generalizing before with
  | nil => rfl
  | cons c cs ih =>
    obtain ⟨hsmall, hsigma⟩ := small c (by simp)
    rw [lowerAfter, if_neg (by simpa using hsigma), hsmall, ih fun d hd => small d (by simp [hd])]
    rfl

lemma lower_lower (cs : List Char) : lower (lower cs) = lower cs := by
  obtain ⟨images, hlower, himages⟩ := lowerAfter_images [] cs
  refine lowerAfter_of_small fun d hd => ?_
  rw [lower, hlower, List.mem_flatten] at hd
  obtain ⟨image, himage, hd⟩ := hd
  obtain ⟨c, -, -, hsmall⟩ := exists_of_forall₂ himages.flip himage
  exact (hsmall d hd).1

/-- Images start with a character that is not blank when their characters do. -/
lemma head?_images {images : List (List Char)}
    (h : List.Forall₂ (fun c image => image ≠ [] ∧ ∀ d ∈ image, isBlank d = isBlank c) cs images)
    (filled : ∀ c ∈ cs.head?, isBlank c = false) :
    ∀ d ∈ images.flatten.head?, isBlank d = false := by
  cases h with
  | nil => simp
  | @cons c image cs images hfirst _ =>
    obtain ⟨hne, hblank⟩ := hfirst
    intro d hd
    rw [List.flatten_cons, List.head?_append_of_ne_nil _ hne] at hd
    rw [hblank d (List.mem_of_mem_head? hd)]
    exact filled c rfl

/-- The lower case of a trimmed list is trimmed. -/
lemma trim_lower (h : trim cs = cs) : trim (lower cs) = lower cs := by
  obtain ⟨images, hlower, himages⟩ := lowerAfter_images [] cs
  obtain ⟨hhead, hlast⟩ := trim_eq_self_iff.mp h
  have hends : List.Forall₂ (fun c image => image ≠ [] ∧ ∀ d ∈ image, isBlank d = isBlank c)
      cs images :=
    himages.imp fun c image himage => ⟨himage.1, fun d hd => (himage.2 d hd).2⟩
  rw [lower, hlower]
  refine trim_eq_self_iff.mpr ⟨head?_images hends hhead, ?_⟩
  -- the end is the start of the reversed images
  rw [← List.head?_reverse, List.reverse_flatten]
  refine @head?_images cs.reverse _ ?_ (by rwa [List.head?_reverse])
  rw [List.forall₂_reverse_iff, List.forall₂_map_right_iff]
  exact hends.imp fun c image himage => by simpa using himage

lemma lowered_lowered (s : String) : lowered (lowered s) = lowered s := by
  rw [lowered, lowered, String.toList_ofList, lower_lower]

/-- The lower case of a trimmed text is trimmed. -/
lemma trimmed_lowered {s : String} (h : trimmed s = s) : trimmed (lowered s) = lowered s := by
  have hlist : trim s.toList = s.toList := by
    rw [← @String.toList_ofList (trim s.toList)]
    exact congrArg String.toList h
  rw [trimmed, lowered, String.toList_ofList, trim_lower hlist]

/-! ### Separators -/

variable {before rest : List Char}

/-- What comes before the small letters is the image of itself only. -/
lemma eq_of_mem_lowerChar {d : Char} (h : d ∈ lowerChar c) (low : d.toNat < 0x61) : c = d := by
  rw [lowerChar] at h
  split at h
  · next hascii =>
    obtain ⟨-, -, hself, -⟩ := toLower_ascii hascii
    obtain rfl := List.mem_singleton.mp h
    exact (hself low).symm
  · split at h
    · rcases List.mem_pair.mp h with rfl | rfl <;> exact absurd low (by decide)
    · rw [List.mem_singleton] at h
      cases himage : image? lowerRows c.toNat with
      | none =>
        rw [himage] at h
        exact h.symm
      | some m =>
        obtain ⟨hcode, hletter⟩ := toNat_of_image? himage
        rw [himage, Option.map_some, Option.getD_some] at h
        rw [h, hcode] at low
        omega

/-- Lower case brings in nothing that comes before the small letters. -/
lemma mem_of_mem_lowerAfter {d : Char} (h : d ∈ lowerAfter before cs) (low : d.toNat < 0x61) :
    d ∈ cs := by
  induction cs generalizing before with
  | nil => exact h
  | cons c cs ih =>
    rw [lowerAfter, List.mem_append] at h
    rcases h with h | h
    · split at h
      · have hsigmas : ¬ 'ς'.toNat < 0x61 ∧ ¬ 'σ'.toNat < 0x61 := by decide
        split_ifs at h <;> rw [List.mem_singleton.mp h] at low
        · exact absurd low hsigmas.1
        · exact absurd low hsigmas.2
      · exact List.mem_cons.mpr (.inl (eq_of_mem_lowerChar h low).symm)
    · exact List.mem_cons_of_mem _ (ih h)

/-- A slash ends every word. -/
lemma meetsCased_append_slash (cs rest : List Char) :
    meetsCased (cs ++ '/' :: rest) = meetsCased cs := by
  have hslash : isCaseIgnorable '/' = false ∧ isCased '/' = false := by decide +kernel
  rw [meetsCased, meetsCased]
  induction cs with
  | nil => simp [hslash]
  | cons c cs ih =>
    rw [List.cons_append, List.dropWhile_cons, List.dropWhile_cons]
    split_ifs
    · exact ih
    · rfl

/-- What stands before a slash has no influence on what comes after it. -/
lemma lowerAfter_append_slash (before rest cs : List Char) :
    lowerAfter (before ++ '/' :: rest) cs = lowerAfter before cs := by
  induction cs generalizing before with
  | nil => rfl
  | cons c cs ih =>
    rw [lowerAfter, lowerAfter, isFinalSigma, isFinalSigma, meetsCased_append_slash,
      ← List.cons_append, ih]

lemma lowerAfter_slash (before cs rest : List Char) :
    lowerAfter before (cs ++ '/' :: rest) = lowerAfter before cs ++ '/' :: lower rest := by
  induction cs generalizing before with
  | nil =>
    have hslash : lowerChar '/' = ['/'] := by decide
    have hrest : lowerAfter ('/' :: before) rest = lower rest :=
      lowerAfter_append_slash [] before rest
    rw [List.nil_append, lowerAfter, lowerAfter, if_neg (by decide), hslash, hrest]
    rfl
  | cons c cs ih =>
    rw [List.cons_append, lowerAfter, lowerAfter, ih, isFinalSigma, isFinalSigma,
      meetsCased_append_slash, List.append_assoc]

/-- **Lower case goes from slash to slash.** -/
lemma lower_append_slash (cs rest : List Char) :
    lower (cs ++ '/' :: rest) = lower cs ++ '/' :: lower rest :=
  lowerAfter_slash [] cs rest

lemma slash_mem_lower_iff : '/' ∈ lower cs ↔ '/' ∈ cs := by
  refine ⟨fun h => mem_of_mem_lowerAfter h (by decide), fun h => ?_⟩
  obtain ⟨front, rest, rfl⟩ := List.append_of_mem h
  rw [lower_append_slash]
  simp

end Scaffold.Text
