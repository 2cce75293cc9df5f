import Scaffold.Json.Printer
import Scaffold.Json.Reader
import Scaffold.Proofs.Number.Shortest

/-!
Numbers in JSON text are read back.

A numeral is digits with a fraction, an exponent or both. Every finite number is
written as a numeral of the same value, and a numeral is read for what it is worth, as
long as what follows it does not go on with it.

* `Ends`: what follows does not go on with a number.
* `Numeral`: a numeral by its parts; `Numeral.readNumber_eq` reads one.
* `Writes`: the text of digits with a point; `writes_renderDigits`: positional and exponent
  notation, one lemma for each of them.
* `readNumber_render`, `readNumber_renderInt`: numbers and integers are read back.
-/

namespace Scaffold.Json

open Number Binary64

variable {rest : List Char}

/-! ### The end of a number -/

/-- What follows does not go on with a number. -/
def Ends (rest : List Char) : Prop :=
  ∀ c ∈ rest.head?, c.isDigit = false ∧ c ≠ '.' ∧ c ≠ 'e' ∧ c ≠ 'E'

/-- What follows does not go on with digits. -/
def EndsDigits (rest : List Char) : Prop :=
  ∀ c ∈ rest.head?, c.isDigit = false

lemma Ends.digits (h : Ends rest) : EndsDigits rest :=
  fun c hc => (h c hc).1

lemma endsDigits_cons {c : Char} (h : c.isDigit = false) (rest : List Char) :
    EndsDigits (c :: rest) := by
  simpa [EndsDigits] using h

/-- Digits are taken up to their end. -/
lemma takeWhile_digits {ds : List Char} (hds : ∀ c ∈ ds, c.isDigit) (ends : EndsDigits rest) :
    (ds ++ rest).takeWhile Char.isDigit = ds := by
  rw [List.takeWhile_append_of_pos hds]
  cases rest with
  | nil => simp
  | cons c rest => simp [ends c (by simp)]

lemma dropWhile_digits {ds : List Char} (hds : ∀ c ∈ ds, c.isDigit) (ends : EndsDigits rest) :
    (ds ++ rest).dropWhile Char.isDigit = rest := by
  rw [List.dropWhile_append_of_pos hds]
  cases rest with
  | nil => simp
  | cons c rest => simp [ends c (by simp)]

/-! ### Numerals -/

/-- Digits that stand for a whole number. -/
structure IsWhole (ds : List Char) : Prop where
  /-- They are digits. -/
  digits : ∀ c ∈ ds, c.isDigit
  /-- They are a single zero or do not start with zero. -/
  head : ds = ['0'] ∨ ∃ c cs, ds = c :: cs ∧ c ≠ '0'

lemma IsWhole.ne_nil {ds : List Char} (h : IsWhole ds) : ds ≠ [] := by
  rcases h.head with rfl | ⟨c, cs, rfl, -⟩ <;> simp

/-- The digits of a whole number are taken up to their end. -/
lemma takeWhole_eq {ds : List Char} (h : IsWhole ds) (ends : EndsDigits rest) :
    takeWhole (ds ++ rest) = (ds, rest) := by
  rcases h.head with rfl | ⟨c, cs, rfl, hne⟩
  · rfl
  · rw [takeWhole]
    · rw [takeWhile_digits h.digits ends, dropWhile_digits h.digits ends]
    · intro tail heq
      rw [List.cons_append, List.cons.injEq] at heq
      exact hne heq.1

/-- A numeral by its parts. -/
structure Numeral where
  /-- The digits before the point. -/
  whole : List Char
  /-- The digits after the point, if there is one. -/
  fraction : List Char
  /-- The exponent, if there is one: whether it is negative, and its digits. -/
  exponent : Option (Bool × List Char)

namespace Numeral

/-- The text of the fraction. -/
def fractionText (n : Numeral) : List Char :=
  if n.fraction = [] then [] else '.' :: n.fraction

/-- The text of the exponent. -/
def exponentText (n : Numeral) : List Char :=
  match n.exponent with
  | none => []
  | some (negative, ds) => 'e' :: (if negative then '-' else '+') :: ds

/-- The text of a numeral. -/
def text (n : Numeral) : List Char :=
  n.whole ++ n.fractionText ++ n.exponentText

/-- The value of the exponent. -/
def power (n : Numeral) : Int :=
  match n.exponent with
  | none => 0
  | some (negative, ds) => if negative then -(natOfDecimal ds : Int) else natOfDecimal ds

/-- The number that a numeral with a sign stands for. -/
def value (n : Numeral) (negative : Bool) : Binary64 :=
  .ofDecimal negative (natOfDecimal (n.whole ++ n.fraction)) (n.power - n.fraction.length)

/-- The parts are digits, and there is a fraction or an exponent. -/
structure IsValid (n : Numeral) : Prop where
  /-- The digits before the point. -/
  whole : IsWhole n.whole
  /-- The digits after the point. -/
  fraction : ∀ c ∈ n.fraction, c.isDigit
  /-- The digits of the exponent. -/
  exponent : ∀ negative ds, n.exponent = some (negative, ds) → ds ≠ [] ∧ ∀ c ∈ ds, c.isDigit
  /-- The numeral is no integer. -/
  broken : n.fraction ≠ [] ∨ n.exponent ≠ none

variable {n : Numeral}

lemma endsDigits_exponentText (ends : EndsDigits rest) : EndsDigits (n.exponentText ++ rest) := by
  rw [exponentText]
  split
  · exact ends
  · exact endsDigits_cons (by decide) _

lemma endsDigits_fractionText (ends : EndsDigits rest) :
    EndsDigits (n.fractionText ++ (n.exponentText ++ rest)) := by
  rw [fractionText]
  split
  · exact endsDigits_exponentText ends
  · exact endsDigits_cons (by decide) _

/-- The fraction is taken up to its end. -/
lemma takeFraction_eq (valid : n.IsValid) (ends : Ends rest) :
    takeFraction (n.fractionText ++ (n.exponentText ++ rest)) =
      (n.fractionText, n.exponentText ++ rest) := by
  have hends : EndsDigits (n.exponentText ++ rest) := endsDigits_exponentText ends.digits
  rw [fractionText]
  split
  · next hnil =>
    rw [List.nil_append, exponentText]
    split
    · cases rest with
      | nil => rfl
      | cons c rest =>
        have := (ends c (by simp)).2.1
        rw [List.nil_append, takeFraction]
        intro tail heq
        exact this (List.cons.inj heq).1
    · rfl
  · next hne =>
    rw [List.cons_append, takeFraction, takeWhile_digits valid.fraction hends,
      dropWhile_digits valid.fraction hends]
    split
    · next heq => exact absurd heq hne
    · rfl

/-- The exponent is taken up to its end. -/
lemma takeExponent_eq (valid : n.IsValid) (ends : Ends rest) :
    takeExponent (n.exponentText ++ rest) = (n.exponentText, rest) := by
  rw [exponentText]
  cases hexponent : n.exponent with
  | none =>
    cases rest with
    | nil => rfl
    | cons c rest =>
      obtain ⟨-, -, hlower, hupper⟩ := ends c (by simp)
      simp [takeExponent, hlower, hupper]
  | some exponent =>
    obtain ⟨negative, ds⟩ := exponent
    obtain ⟨hne, hds⟩ := valid.exponent negative ds hexponent
    have htake := takeWhile_digits hds ends.digits
    have hdrop := dropWhile_digits hds ends.digits
    cases negative <;>
    · simp only [List.cons_append, takeExponent, beq_self_eq_true, Bool.true_or, if_true,
        Bool.false_eq_true, if_false, htake, hdrop]
      rfl

/-- The exponent of a decimal is the exponent of the numeral. -/
lemma readExponent?_eq (valid : n.IsValid) : readExponent? n.exponentText = some n.power := by
  rw [exponentText, power]
  cases hexponent : n.exponent with
  | none => rfl
  | some exponent =>
    obtain ⟨negative, ds⟩ := exponent
    obtain ⟨hne, hds⟩ := valid.exponent negative ds hexponent
    have hall : ds.all Char.isDigit = true := List.all_eq_true.mpr hds
    cases negative <;> simp [readExponent?, takeSign, hne, hall]

/-- A numeral is read as a decimal of its value. -/
lemma readDecimal?_eq (valid : n.IsValid) :
    readDecimal? n.text =
      some ⟨false, natOfDecimal (n.whole ++ n.fraction), n.power - n.fraction.length⟩ := by
  have hends : EndsDigits n.exponentText := by
    simpa using @endsDigits_exponentText [] n (by simp [EndsDigits])
  have hends' : EndsDigits (n.fractionText ++ n.exponentText) := by
    simpa using @endsDigits_fractionText [] n (by simp [EndsDigits])
  have hwhole := valid.whole.ne_nil
  have hsign : takeSign n.text = (false, n.text) := by
    rw [text, List.append_assoc]
    obtain ⟨c, cs, hcs⟩ := List.exists_cons_of_ne_nil hwhole
    have hdigit := valid.whole.digits c (by simp [hcs])
    rw [hcs, List.cons_append, takeSign]
    · rintro _ heq
      rw [(List.cons.inj heq).1] at hdigit
      cases hdigit
    · rintro _ heq
      rw [(List.cons.inj heq).1] at hdigit
      cases hdigit
  have hstart : n.text.takeWhile Char.isDigit = n.whole ∧
      n.text.dropWhile Char.isDigit = n.fractionText ++ n.exponentText := by
    rw [text, List.append_assoc]
    exact ⟨takeWhile_digits valid.whole.digits hends', dropWhile_digits valid.whole.digits hends'⟩
  have hexponent := readExponent?_eq valid
  rw [readDecimal?, hsign]
  simp only [hstart]
  by_cases hnil : n.fraction = []
  · have hnone : n.fractionText = [] := by rw [fractionText, if_pos hnil]
    rw [hnone, List.nil_append]
    cases htext : n.exponentText with
    | nil =>
      rw [htext] at hexponent
      simp [hwhole, hexponent, hnil]
    | cons c cs =>
      -- an exponent does not start with a point
      have hc : c = 'e' := by
        rw [exponentText] at htext
        split at htext
        · cases htext
        · exact (List.cons.inj htext).1.symm
      subst hc
      rw [htext] at hexponent
      simp [hwhole, hexponent, hnil]
  · have hsome : n.fractionText = '.' :: n.fraction := by rw [fractionText, if_neg hnil]
    rw [hsome, List.cons_append]
    simp [takeWhile_digits valid.fraction hends, dropWhile_digits valid.fraction hends, hwhole,
      hexponent]

/-- A numeral is read for what it is worth, with a minus or without one. -/
lemma readNumber_eq (valid : n.IsValid) (ends : Ends rest) (negative : Bool) :
    readNumber ((if negative then ['-'] else []) ++ (n.text ++ rest)) =
      .ok (.float (n.value negative), rest) := by
  have hbroken : (n.fractionText.isEmpty && n.exponentText.isEmpty) = false := by
    rw [fractionText, exponentText]
    rcases valid.broken with h | h
    · simp [h]
    · obtain ⟨exponent, hexponent⟩ := Option.ne_none_iff_exists'.mp h
      simp [hexponent]
  have hwhole : takeWhole (n.text ++ rest) =
      (n.whole, n.fractionText ++ (n.exponentText ++ rest)) := by
    rw [text, List.append_assoc, List.append_assoc]
    exact takeWhole_eq valid.whole (endsDigits_fractionText ends.digits)
  have hfraction := takeFraction_eq valid ends
  have hexponent := takeExponent_eq valid ends
  have htext := readDecimal?_eq valid
  rw [text] at htext
  cases negative with
  | true =>
    simp only [if_true, List.singleton_append, readNumber, hwhole, hfraction, hexponent, hbroken,
      htext, List.isEmpty_iff, valid.whole.ne_nil, if_false, Bool.false_eq_true]
    rfl
  | false =>
    simp only [Bool.false_eq_true, if_false, List.nil_append]
    rw [readNumber]
    · simp only [hwhole, hfraction, hexponent, hbroken, htext, List.isEmpty_iff,
        valid.whole.ne_nil, if_false, Bool.false_eq_true]
      rfl
    · intro more heq
      obtain ⟨c, cs, hcs⟩ := List.exists_cons_of_ne_nil valid.whole.ne_nil
      have hdigit := valid.whole.digits c (by simp [hcs])
      rw [text, hcs, List.cons_append, List.cons_append, List.cons_append, List.cons.injEq] at heq
      rw [heq.1] at hdigit
      cases hdigit

end Numeral

/-! ### Numbers as they are written -/

lemma isDigit_of_mem_zeros {k : Nat} {c : Char} (h : c ∈ List.replicate k '0') : c.isDigit := by
  rw [(List.mem_replicate.mp h).2]
  rfl

/-- A text writes digits with a point at some place behind the first of them: it is a numeral
that stands for `0.digits * 10 ^ point`. -/
def Writes (ds : List Char) (point : Int) (text : List Char) : Prop :=
  ∃ n : Numeral, n.IsValid ∧ text = n.text ∧
    ∀ negative, n.value negative = .ofDecimal negative (natOfDecimal ds) (point - ds.length)

/-- One digit comes before the point, and an exponent follows. -/
lemma writes_exponent {c : Char} {cs : List Char} (hc : c.isDigit) (hcs : ∀ d ∈ cs, d.isDigit)
    (ne : c ≠ '0') (width : Nat) (point : Int) :
    Writes (c :: cs) point ((c :: if cs = [] then [] else '.' :: cs) ++
      'e' :: (if point - 1 < 0 then '-' else '+') ::
        padded width (digitsOf (point - 1).natAbs)) := by
  have hdigits : padded width (digitsOf (point - 1).natAbs) ≠ [] := fun h =>
    digitsOf_ne_nil _ (List.append_eq_nil_iff.mp h).2
  refine ⟨⟨[c], cs, some (decide (point - 1 < 0), padded width (digitsOf (point - 1).natAbs))⟩,
    ⟨⟨by simpa using hc, .inr ⟨c, [], rfl, ne⟩⟩, hcs, ?_, by simp⟩, ?_, fun negative => ?_⟩
  · rintro negative digits ⟨⟩
    exact ⟨hdigits, fun d => isDigit_of_mem_padded⟩
  · simp [Numeral.text, Numeral.fractionText, Numeral.exponentText]
  · simp only [Numeral.value, Numeral.power, natOfDecimal_padded, decide_eq_true_eq,
      List.length_cons, List.singleton_append]
    congr 1
    split <;> omega

section Notations

variable {ds : List Char} (hds : ∀ c ∈ ds, c.isDigit)

include hds

/-- All digits come after the point. -/
lemma writes_behind (ne : ds ≠ []) {point : Int} (behind : point ≤ 0) :
    Writes ds point ('0' :: '.' :: (List.replicate (-point).toNat '0' ++ ds)) := by
  refine ⟨⟨['0'], List.replicate (-point).toNat '0' ++ ds, none⟩,
    ⟨⟨by simp, .inl rfl⟩, ?_, by simp, by simp [ne]⟩, ?_, fun negative => ?_⟩
  · exact fun d hd => (List.mem_append.mp hd).elim isDigit_of_mem_zeros (hds d)
  · simp [Numeral.text, Numeral.fractionText, Numeral.exponentText, ne]
  · have hvalue : natOfDecimal (['0'] ++ (List.replicate (-point).toNat '0' ++ ds)) =
        natOfDecimal ds := by
      rw [← List.append_assoc, ← List.replicate_one, List.replicate_append_replicate,
        natOfDecimal_append (fun _ => isDigit_of_mem_zeros) hds, natOfDecimal_zeros]
      simp
    simp only [Numeral.value, Numeral.power, hvalue, List.length_append, List.length_replicate]
    congr 1
    omega

/-- All digits come before the point. -/
lemma writes_before (head : ∃ c cs, ds = c :: cs ∧ c ≠ '0') {point : Int}
    (before : ds.length ≤ point.toNat) :
    Writes ds point (ds ++ List.replicate (point.toNat - ds.length) '0' ++ ['.', '0']) := by
  obtain ⟨c, cs, hcs, hne⟩ := head
  have hpositive : 0 < ds.length := by simp [hcs]
  refine ⟨⟨ds ++ List.replicate (point.toNat - ds.length) '0', ['0'], none⟩,
    ⟨⟨fun d hd => ?_, .inr ⟨c, cs ++ List.replicate (point.toNat - ds.length) '0', ?_, hne⟩⟩,
      by simp, by simp, by simp⟩, ?_, fun negative => ?_⟩
  · exact (List.mem_append.mp hd).elim (hds d) isDigit_of_mem_zeros
  · simp [hcs]
  · simp [Numeral.text, Numeral.fractionText, Numeral.exponentText]
  · have hvalue : natOfDecimal (ds ++ List.replicate (point.toNat - ds.length) '0' ++ ['0']) =
        natOfDecimal ds * 10 ^ (point.toNat - ds.length + 1) := by
      rw [List.append_assoc, ← List.replicate_one, List.replicate_append_replicate,
        natOfDecimal_append hds (fun _ => isDigit_of_mem_zeros), natOfDecimal_zeros]
      simp
    simp only [Numeral.value, Numeral.power, hvalue, ofDecimal_shift, List.length_singleton]
    congr 1
    omega

/-- The point stands between digits. -/
lemma writes_between (head : ∃ c cs, ds = c :: cs ∧ c ≠ '0') {point : Int} (positive : 0 < point)
    (short : point.toNat < ds.length) :
    Writes ds point (ds.take point.toNat ++ '.' :: ds.drop point.toNat) := by
  obtain ⟨c, cs, hcs, hne⟩ := head
  obtain ⟨k, hk⟩ : ∃ k, point.toNat = k + 1 := ⟨point.toNat - 1, by omega⟩
  have hdrop : ds.drop point.toNat ≠ [] := by simpa using short
  refine ⟨⟨ds.take point.toNat, ds.drop point.toNat, none⟩,
    ⟨⟨fun d hd => hds d (List.mem_of_mem_take hd), .inr ⟨c, cs.take k, ?_, hne⟩⟩,
      fun d hd => hds d (List.mem_of_mem_drop hd), by simp, .inl hdrop⟩, ?_, fun negative => ?_⟩
  · rw [hk, hcs, List.take_succ_cons]
  · simp [Numeral.text, Numeral.fractionText, Numeral.exponentText, hdrop]
  · simp only [Numeral.value, Numeral.power, List.take_append_drop, List.length_drop]
    congr 1
    omega

/-- **Positional and exponent notation** write the digits with the point at its place. -/
lemma writes_renderDigits (head : ∃ c cs, ds = c :: cs ∧ c ≠ '0') (point : Int) :
    Writes ds point (documentLayout.renderDigits ds point) := by
  have hne : ds ≠ [] := by
    obtain ⟨c, cs, rfl, -⟩ := head
    simp
  unfold Layout.renderDigits
  split_ifs with hrange hbehind hbefore
  · exact writes_behind hds hne hbehind
  · exact writes_before hds head hbefore
  · exact writes_between hds head (by omega) (by omega)
  · obtain ⟨c, cs, rfl, hc⟩ := head
    obtain ⟨hdigit, hdigits⟩ := List.forall_mem_cons.mp hds
    have hexponent := writes_exponent hdigit hdigits hc documentLayout.exponentDigits point
    cases cs with
    | nil => simpa using hexponent
    | cons d cs => simpa using hexponent

end Notations

/-- A finite number is written as a numeral that stands for it. -/
lemma exists_numeral_render {x : Binary64} (finite : x.isFinite) :
    ∃ n : Numeral, ∃ negative : Bool, n.IsValid ∧ n.value negative = x ∧
      (documentLayout.render x).toList = (if negative then ['-'] else []) ++ n.text := by
  cases x with
  | nan => cases finite
  | signed negative rank =>
    rw [isFinite, decide_eq_true_eq] at finite
    have hsign : (if negative = true then "-" else "").toList = if negative then ['-'] else [] := by
      cases negative <;> rfl
    have hrank : ofRank negative rank.val = signed negative rank := by
      rw [ofRank]
      congr 1
      exact Fin.ext (by simp only; omega)
    rw [Layout.render, if_neg (Nat.ne_of_lt finite)]
    rcases Nat.eq_zero_or_pos rank.val with hzero | hpos
    · refine ⟨⟨['0'], ['0'], none⟩, negative,
        ⟨⟨by simp, .inl rfl⟩, by simp, by simp, by simp⟩, ?_, ?_⟩
      · rw [← hrank, hzero]
        rfl
      · rw [if_pos hzero, String.toList_append, hsign]
        rfl
    · obtain ⟨k, -, hdigits, hhead, -⟩ :=
        withoutTrailingZeros_digitsOf (shortest_pos hpos finite.le)
      obtain ⟨n, hvalid, htext, hvalue⟩ := writes_renderDigits hdigits hhead
        ((shortest rank.val).2 + (digitsOf (shortest rank.val).1).length)
      refine ⟨n, negative, hvalid, ?_, ?_⟩
      · rw [hvalue, ofDecimal_digits_shortest hpos finite.le, hrank]
      · rw [if_neg hpos.ne', String.toList_append, hsign, String.toList_ofList, htext]

/-- **Finite numbers** are read back. -/
lemma readNumber_render {x : Binary64} (finite : x.isFinite) (ends : Ends rest) :
    readNumber ((documentLayout.render x).toList ++ rest) = .ok (.float x, rest) := by
  obtain ⟨n, negative, hvalid, hvalue, htext⟩ := exists_numeral_render finite
  rw [htext, List.append_assoc, n.readNumber_eq hvalid ends, hvalue]

/-! ### Integers -/

/-- The digits of a natural number stand for a whole number. -/
lemma isWhole_digitsOf (n : Nat) : IsWhole (digitsOf n) where
  digits _ := isDigit_of_mem_digitsOf
  head := by
    rcases Nat.eq_zero_or_pos n with rfl | h
    · exact .inl digitsOf_zero
    · exact .inr (digitsOf_head h)

lemma takeFraction_of_ends (ends : Ends rest) : takeFraction rest = ([], rest) := by
  cases rest with
  | nil => rfl
  | cons c rest =>
    rw [takeFraction]
    intro tail heq
    exact (ends c (by simp)).2.1 (List.cons.inj heq).1

lemma takeExponent_of_ends (ends : Ends rest) : takeExponent rest = ([], rest) := by
  cases rest with
  | nil => rfl
  | cons c rest =>
    obtain ⟨-, -, hlower, hupper⟩ := ends c (by simp)
    simp [takeExponent, hlower, hupper]

/-- **Integers** with a text are read back. -/
lemma readNumber_renderInt {n : Int} (fits : n.natAbs < Nat.pow 10 digitLimit) (ends : Ends rest) :
    readNumber (renderInt n ++ rest) = .ok (.int n, rest) := by
  have hwhole := isWhole_digitsOf n.natAbs
  have htake := takeWhole_eq hwhole ends.digits
  have hlength : ¬ (digitsOf n.natAbs).length > digitLimit :=
    Nat.not_lt.mpr (length_digitsOf_le (by decide) fits)
  rw [renderInt]
  split
  · next hneg =>
    simp only [List.cons_append, readNumber, htake, takeFraction_of_ends ends,
      takeExponent_of_ends ends, List.isEmpty_iff, hwhole.ne_nil, if_false, List.isEmpty_nil,
      Bool.and_self, if_true, hlength, natOfDecimal_digitsOf]
    congr 3
    omega
  · next hpos =>
    rw [readNumber]
    · simp only [htake, takeFraction_of_ends ends, takeExponent_of_ends ends, List.isEmpty_iff,
        hwhole.ne_nil, if_false, List.isEmpty_nil, Bool.and_self, if_true, hlength,
        natOfDecimal_digitsOf, Bool.false_eq_true]
      congr 3
      omega
    · intro more heq
      obtain ⟨c, cs, hcs⟩ := List.exists_cons_of_ne_nil hwhole.ne_nil
      have hdigit := hwhole.digits c (by simp [hcs])
      rw [hcs, List.cons_append, List.cons.injEq] at heq
      rw [heq.1] at hdigit
      cases hdigit

end Scaffold.Json
